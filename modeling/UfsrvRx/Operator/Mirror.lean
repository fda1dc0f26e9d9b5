import UfsrvRx.Operator.InPlace

namespace UfsrvRx
namespace Operator

open Transition
open UfsrvRx.Future (Result ValueId epipe ecanceled einval)

/-!
# Two runs side by side

In the one run an operator is applied, and each of its claims fails.  In the other run the client
has made the future that would be its output.  Whatever the operator does there, the client does
from its observer, or before the next call: so the memory of the two runs is the same after each
step, and the stacks differ only where the operator's tasks are.
-/

/-! ## The operators -/

/-- The call applies an operator that claims a future. -/
def Api.Claims : Api -> Prop
  | flatMap _ | onError _ | doOnSuccess _ => True
  | group .any entries => entries ≠ []
  | _ => False

/-- The continuation is one of such an operator. -/
def Continuation.Claims : Continuation -> Prop
  | flatMap _ _ | onError _ | doOnSuccess _ | group .any _ => True
  | _ => False

/-- The future that the task claims for this output.  `UfsrvFutureAny` claims its first input. -/
def State.claimed (s : State) (o : FutureId) : Task -> Option FutureId
  | .claimInput f out | .claimInner out f => if out = o then some f else none
  | .run f (.group .any out) => if out = o ∧ (s.groups out).flag = false then some f else none
  | _ => none

/-- `UfsrvFutureFlatMap` attaches the token of its context to the future that its mapper returned,
and then claims that future. -/
def State.attaches (s : State) (o : FutureId) : Option FutureId :=
  match s.stack with
  | .attach inner _ :: .claimInner out _ :: _ => if out = o then some inner else none
  | _ => none

/-- The action of `UfsrvFutureDoOnSuccess` runs. -/
def State.acts (s : State) (o : FutureId) : Bool :=
  match s.stack with
  | .callback (.action _ out) :: _ => out = o
  | _ => false

/-- If a future is claimed for this output, then another operator has claimed it. -/
def Fails (o : FutureId) (s : State) : Event -> Prop
  | .step => forall task, task ∈ s.stack.head? ->
      forall f, f ∈ s.claimed o task -> (s.futures f).isConsumed = true
  | _ => True

/-- Nothing happens on the way to a claim: `UfsrvFutureFlatMap` finds no future that takes its
token, and the action of `UfsrvFutureDoOnSuccess` makes no call. -/
def Harmless (o : FutureId) (s : State) : Event -> Prop
  | .step => forall inner, inner ∈ s.attaches o ->
      (s.futures inner).isCompleted = true ∨ (s.futures inner).cancelToken ≠ none
  | .call _ => s.acts o = false
  | _ => True

/-! ## What the client does instead -/

/-- A step of the run without the operator.  Besides what it does in both runs the client makes
the future, looks at the inputs, hands a token on, completes the future, and gives back what its
callbacks would have returned. -/
inductive Move
  | library
  | client (event : Event)
  | create
  | observe (future : FutureId)
  | attach (token : TokenId)
  | setResult (result : Result)
  | destroy
  | release (future : FutureId)
  | returns
deriving DecidableEq, Repr

def Move.event (o : FutureId) : Move -> Event
  | library => .step
  | client event => event
  | create => .call .create
  | observe f => .call (.observe f)
  | attach token => .call (.attach o token)
  | setResult result => .call (.setResult o result)
  | destroy => .call (.destroy o)
  | release f => .call (.release f)
  | returns => .answer .nothing

/-- What the client does in both runs. -/
def clientMoves (moves : List Move) : List Event :=
  moves.filterMap fun move =>
    match move with
    | .client event => some event
    | _ => none

/-- A step of the library, what a callback returns to the operator, or what the action of
`UfsrvFutureDoOnSuccess` calls. -/
def Served (o : FutureId) (s : State) : Event -> Bool
  | .step => true
  | .call _ => s.acts o
  | .answer _ => s.stack.head?.bind Task.called = some o
  | _ => false

/-- What the client does in a run of its own accord. -/
def clientEvents (o : FutureId) : State -> List Event -> List Event
  | _, [] => []
  | s, event :: events =>
      if Served o s event then clientEvents o (machine.next s event) events
      else event :: clientEvents o (machine.next s event) events

/-! ## Stacks -/

namespace Task

/-- The task does the same in both runs, or is a continuation of the operator. -/
def Shared (o : FutureId) : Task -> Prop
  | run _ continuation | register _ continuation =>
      continuation.out = some o -> continuation.Claims
  | task => task.Apart o

/-- The task is one of the operator, and the client comes to do what it does. -/
def Late (o : FutureId) (lent : FutureId -> Nat) (rest : List Task) : Task -> Prop
  | setResult f result => f = o ∧ result.owned = none ∧ .destroyPromise o ∈ rest
  | destroyPromise f | deliver f | claimInput _ f | claimInner f _ | subtract .any f _ => f = o
  | inherit _ f => f = o ∧ 0 < lent o
  | attach _ _ => Exists fun inner => Exists fun more => rest = .claimInner o inner :: more
  | loop .any f entries => f = o ∧ forall g, some g ∈ entries ->
      Exists fun arguments => .leave arguments ∈ rest ∧ g ∈ arguments
  | release _ | leave _ => True
  | _ => False

/-- A call of the client, or its observer, that has nothing left to do. -/
def Lags (o : FutureId) (lent : FutureId -> Nat) (rest : List Task) : Task -> Prop
  | leaveSet f => f = o ∧ .destroyPromise o ∈ rest
  | leave arguments => forall f, f ∈ arguments -> 0 < lent f ∨
      Exists fun others => .leave others ∈ rest ∧ f ∈ others
  | callback (.observer _) => True
  | _ => False

end Task

/-- The callback is one of an operator with this output that comes to claim. -/
def Callback.Asks (o : FutureId) : Callback -> Prop
  | flatMapper _ out _ | recovery _ out | action _ out => out = o
  | _ => False

/-- What the client still holds while the task is to be done. -/
def lend (lent : FutureId -> Nat) : Task -> FutureId -> Nat
  | .release f | .claimInner _ f | .deliver f => Function.update lent f (lent f + 1)
  | _ => lent

/-- The client has the control. -/
def Ready (stack : List Task) : Prop :=
  stack = [] ∨ Exists fun client => Exists fun rest => stack = .callback client :: rest

/-- The stacks of the two runs, with what the client still holds in the second one. -/
inductive Stacks (o : FutureId) : (FutureId -> Nat) -> List Task -> List Task -> Prop
  | nil : Stacks o (fun _ => 0) [] []
  | lag {lent : FutureId -> Nat} {stack rest : List Task} {task : Task} :
      Stacks o lent stack rest -> task.Lags o lent stack -> Stacks o lent stack (task :: rest)
  | same {lent : FutureId -> Nat} {stack rest : List Task} {task : Task} :
      Stacks o lent stack rest -> task.Shared o ->
      Stacks o lent (task :: stack) (task.stand o :: rest)
  | ask {lent : FutureId -> Nat} {stack rest : List Task} {client : Callback} {f : FutureId} :
      Stacks o lent stack rest -> client.Asks o ->
      Stacks o lent (.callback client :: stack) (.callback (.observer f) :: rest)
  | late {lent : FutureId -> Nat} {stack rest : List Task} {task : Task} :
      Stacks o lent stack rest -> task.Late o lent stack -> Ready rest ->
      Stacks o (lend lent task) (task :: stack) rest

variable {s : State} {o f : FutureId} {isClient : Bool} {context : Group} {lent : FutureId -> Nat}
  {stack rest : List Task}

theorem le_lend (task : Task) (f : FutureId) : lent f ≤ lend lent task f := by
  cases task with
  | release g | claimInner out g | deliver g =>
      simp only [lend, Function.update_apply]
      split
      · subst f
        exact Nat.le_succ _
      · exact le_refl _
  | _ => exact le_refl _

theorem ready_observer (f : FutureId) (rest : List Task) :
    Ready (.callback (.observer f) :: rest) :=
  .inr ⟨_, _, rfl⟩

namespace Stacks

/-- Tasks that do the same in both runs are pushed. -/
theorem pushes (beside : Stacks o lent stack rest) {new : List Task}
    (shared : forall task, task ∈ new -> task.Shared o) :
    Stacks o lent (new ++ stack) (new.map (Task.stand o) ++ rest) := by
  induction new with
  | nil => exact beside
  | cons task new inductionHypothesis =>
      refine .same (inductionHypothesis ?_) (shared task List.mem_cons_self)
      exact fun other mem => shared other (List.mem_cons_of_mem _ mem)

/-- The stacks from before the operator. -/
theorem diagonal (shared : forall task, task ∈ stack -> task.Shared o)
    (same : forall task, task ∈ stack -> task.stand o = task) :
    Stacks o (fun _ => 0) stack stack := by
  have whole := pushes (.nil (o := o)) shared
  rwa [List.append_nil, List.append_nil, List.map_congr_left same, List.map_id'] at whole

/-- The client holds more than in the first run only what the operator still has. -/
theorem held_of_lent (beside : Stacks o lent stack rest) (lends : 0 < lent f) :
    Exists fun task => task ∈ stack ∧ .reference f ∈ task.resources := by
  have later {task : Task} {stack : List Task} (before : Exists fun other =>
      other ∈ stack ∧ Resource.reference f ∈ other.resources) :
      Exists fun other => other ∈ task :: stack ∧ .reference f ∈ other.resources := by
    rcases before with ⟨other, mem, holds⟩
    exact ⟨other, List.mem_cons_of_mem _ mem, holds⟩
  induction beside with
  | nil => cases lends
  | lag _ _ inductionHypothesis => exact inductionHypothesis lends
  | same _ _ inductionHypothesis | ask _ _ inductionHypothesis =>
      exact later (inductionHypothesis lends)
  | @late lent stack rest task _ _ _ inductionHypothesis =>
      by_cases before : 0 < lent f
      · exact later (inductionHypothesis before)
      · refine ⟨task, List.mem_cons_self, ?_⟩
        cases task with
        | release g | claimInner out g | deliver g =>
            simp only [lend, Function.update_apply] at lends
            split at lends
            · subst f
              simp [Task.resources]
            · exact absurd lends before
        | _ => exact absurd lends before

/-- What calls use in the second run, they use in the first one, or the client has more of it. -/
theorem uses (beside : Stacks o lent stack rest) {arguments : List FutureId}
    (mem : .leave arguments ∈ rest) (argument : f ∈ arguments) :
    0 < lent f ∨ Exists fun others => .leave others ∈ stack ∧ f ∈ others := by
  induction beside with
  | nil => cases mem
  | lag _ lags inductionHypothesis =>
      rcases List.mem_cons.mp mem with rfl | mem
      · exact lags f argument
      · exact inductionHypothesis mem
  | @same lent stack rest task _ _ inductionHypothesis =>
      rcases List.mem_cons.mp mem with here | mem
      · cases task with
        | leave others =>
            cases here
            exact .inr ⟨arguments, List.mem_cons_self, argument⟩
        | _ => cases here
      · refine (inductionHypothesis mem).imp_right ?_
        rintro ⟨others, mem, argument⟩
        exact ⟨others, List.mem_cons_of_mem _ mem, argument⟩
  | ask _ _ inductionHypothesis =>
      rcases List.mem_cons.mp mem with here | mem
      · cases here
      · refine (inductionHypothesis mem).imp_right ?_
        rintro ⟨others, mem, argument⟩
        exact ⟨others, List.mem_cons_of_mem _ mem, argument⟩
  | late _ _ _ inductionHypothesis =>
      refine (inductionHypothesis mem).imp ?_ ?_
      · exact fun lends => Nat.lt_of_lt_of_le lends (le_lend _ f)
      · rintro ⟨others, mem, argument⟩
        exact ⟨others, List.mem_cons_of_mem _ mem, argument⟩

/-- A promise that is being set in the second run is so in the first one, or is the operator's. -/
theorem leaves (beside : Stacks o lent stack rest) (mem : .leaveSet f ∈ rest) :
    .leaveSet f ∈ stack ∨ f = o ∧ .destroyPromise o ∈ stack := by
  have later {task : Task} {stack : List Task}
      (before : .leaveSet f ∈ stack ∨ f = o ∧ .destroyPromise o ∈ stack) :
      .leaveSet f ∈ task :: stack ∨ f = o ∧ .destroyPromise o ∈ task :: stack :=
    before.imp (List.mem_cons_of_mem _) (And.imp_right (List.mem_cons_of_mem _))
  induction beside with
  | nil => cases mem
  | lag _ lags inductionHypothesis =>
      rcases List.mem_cons.mp mem with rfl | mem
      · exact .inr lags
      · exact inductionHypothesis mem
  | @same lent stack rest task _ _ inductionHypothesis =>
      rcases List.mem_cons.mp mem with here | mem
      · cases task with
        | leaveSet g =>
            cases here
            exact .inl List.mem_cons_self
        | _ => cases here
      · exact later (inductionHypothesis mem)
  | ask _ _ inductionHypothesis =>
      rcases List.mem_cons.mp mem with here | mem
      · cases here
      · exact later (inductionHypothesis mem)
  | late _ _ _ inductionHypothesis => exact later (inductionHypothesis mem)

end Stacks

/-! ## What takes the place of a task in both runs -/

theorem shared_finish {out : FutureId} {result : Result} {task : Task}
    (mem : task ∈ finish out result) : task.Shared o := by
  rcases List.mem_pair.mp mem with rfl | rfl <;> trivial

theorem Continuation.shared_yields {continuation : Continuation} {other : Task}
    (apart : continuation.out ≠ some o) (yields : continuation.Yields s f other) :
    other.Shared o := by
  cases continuation with
  | observe =>
      cases yields
      exact apart
  | map out freeValue | flatMap out token =>
      rcases yields with mem | rfl
      · exact shared_finish mem
      · exact apart
  | onError out | doOnSuccess out =>
      rcases yields with rfl | rfl
      · exact apart
      · exact fun same => apart (congrArg some same)
  | moveChain out =>
      rcases yields with mem | rfl
      · exact shared_finish mem
      · trivial
  | group kind out =>
      have other : out ≠ o := fun same => apart (congrArg some same)
      cases kind with
      | all =>
          rcases yields with mem | rfl
          · exact shared_finish mem
          · exact other
      | any =>
          rcases yields with mem | mem | rfl | rfl
          · exact shared_finish mem
          · exact shared_finish mem
          · trivial
          · exact other
  | zip out isSecond =>
      cases yields
      exact fun same => apart (congrArg some same)

theorem Task.shared_yields {task other : Task} (shared : task.Shared o) (apart : task.Apart o)
    (full : forall kind out, task ≠ .loop kind out [])
    (waits : forall g continuation, (g, continuation) ∈ s.waiting -> continuation.out = some o ->
      continuation.Claims) (yields : task.Yields s other) : other.Shared o := by
  cases task with
  | setResult g result | unregister g | dropNode g | attached g =>
      cases yields
      trivial
  | destroyPromise g | complete g result | attach g t =>
      rcases yields with rfl | rfl <;> trivial
  | drain g =>
      rcases yields with ⟨continuation, mem, rfl⟩
      exact waits g continuation mem
  | register g continuation =>
      cases yields
      exact shared
  | run g continuation => exact continuation.shared_yields apart yields
  | claimInner out inner =>
      rcases yields with mem | rfl | rfl
      · exact shared_finish mem
      · trivial
      · exact fun same => absurd (Option.some.inj same) apart
  | claimInput g out =>
      rcases yields with mem | mem | rfl
      · exact shared_finish mem
      · exact shared_finish mem
      · trivial
  | inherit g out =>
      rcases yields with ⟨token, rfl⟩
      trivial
  | loop kind out entries =>
      have apart : out ≠ o := apart.resolve_left fun none => full kind out (congrArg _ none)
      rcases yields with ⟨g, mem, rfl⟩ | rfl | mem | rfl
      · exact fun same => absurd (Option.some.inj same) apart
      · exact .inr apart
      · exact shared_finish mem
      · exact apart
  | subtract kind out refused =>
      rcases yields with mem | mem <;> exact shared_finish mem
  | zipComplete out first second =>
      rcases yields with ⟨error, mem⟩ | rfl
      · rcases List.mem_append.mp mem with mem | mem
        · exact shared_finish mem
        · rcases List.mem_pair.mp mem with rfl | rfl <;> trivial
      · exact fun same => apart (Option.some.inj same)
  | releasePromise g | zero g | release g | deliver out | callback client | leave arguments
  | leaveSet g => exact yields.elim

theorem shared_perform {task : Task} (shared : task.Shared o) (apart : task.Apart o)
    (waits : forall g continuation, (g, continuation) ∈ s.waiting -> continuation.out = some o ->
      continuation.Claims) : Exists fun new => (perform s task).stack = new ++ s.stack ∧
      forall other, other ∈ new -> other.Shared o := by
  by_cases full : forall kind out, task ≠ .loop kind out []
  · rcases yields_perform s task with ⟨new, stack, yields⟩
    refine ⟨new, stack, ?_⟩
    exact fun other mem => Task.shared_yields shared apart full waits (yields other mem)
  · push Not at full
    rcases full with ⟨kind, out, rfl⟩
    exact ⟨[], rfl, by simp⟩

/-- What the client calls in both runs is not part of the operator. -/
theorem shared_enter (inside : o < s.count) (api : Api) :
    Exists fun new => (enter s api).stack = new ++ s.stack ∧
      forall other, other ∈ new -> other.Shared o := by
  have other : s.count ≠ o := Nat.ne_of_gt inside
  have out : some s.count ≠ some o := fun same => other (Option.some.inj same)
  cases api with
  | create | retain f | unregisterCallback t index => exact ⟨[], rfl, by simp⟩
  | fromResult result =>
      refine ⟨finish s.count result ++ [.deliver s.count], ?_, ?_⟩
      · simp only [enter, State.push, State.stack_give]
        rfl
      · simp [finish, Task.Shared, Task.Apart, other]
  | setResult f result =>
      refine ⟨[.setResult f result, .leaveSet f], ?_, by simp [Task.Shared, Task.Apart]⟩
      simp only [enter, State.push, State.stack_give]
  | get f =>
      simp only [enter]
      split <;> exact ⟨[], rfl, by simp⟩
  | destroy f | attach f t | release f =>
      exact ⟨_, rfl, by simp [Task.Shared, Task.Apart]⟩
  | observe f => exact ⟨_, rfl, by simp [Task.Shared, Task.Apart, Continuation.out]⟩
  | map f freeValue | flatMap f | onError f | doOnSuccess f | zip first second freeValue =>
      exact ⟨_, rfl, by simp [Task.Shared, Task.Apart, Continuation.out, other]⟩
  | group kind entries =>
      simp only [enter]
      split <;> exact ⟨_, rfl, by simp [finish, Task.Shared, Task.Apart, other]⟩
  | cancel t =>
      simp only [enter]
      split
      · exact ⟨[], rfl, by simp⟩
      · refine ⟨_, rfl, ?_⟩
        intro task mem
        rcases List.mem_flatMap.mp mem with ⟨node, _, mem⟩
        cases node with
        | none =>
            cases List.mem_singleton.mp mem
            exact Option.some_ne_none o |>.symm
        | some f => rcases List.mem_pair.mp mem with rfl | rfl <;> trivial
  | registerCallback t =>
      simp only [enter]
      split
      · exact ⟨_, rfl, by simp [Task.Shared, Task.Apart, Callback.out]⟩
      · exact ⟨[], rfl, by simp⟩

theorem shared_afterCallback {client : Callback} (apart : client.out ≠ some o) (reply : Reply) :
    Exists fun new => (afterCallback s client reply).stack = new ++ s.stack ∧
      forall other, other ∈ new -> other.Shared o := by
  have other {out : FutureId} (named : client.out = some out) : out ≠ o :=
    fun same => apart (named.trans (congrArg some same))
  cases client with
  | observer f | cancelled => exact ⟨[], rfl, by simp⟩
  | action f out => exact ⟨_, rfl, by simp [Task.Shared, Task.Apart, other rfl]⟩
  | mapper f out freeValue =>
      cases reply with
      | nothing | future inner => exact ⟨[], rfl, by simp⟩
      | value value =>
          refine ⟨finish out (produced value freeValue), ?_, fun _ => shared_finish⟩
          simp only [afterCallback, State.push, State.stack_give]
  | zipper out first second =>
      cases reply with
      | nothing | future inner => exact ⟨[], rfl, by simp⟩
      | value value =>
          refine ⟨zipFinish out first second (produced value (s.zips out).freeValue), ?_, ?_⟩
          · simp only [afterCallback, State.push, State.stack_give]
          · simp [zipFinish, finish, Task.Shared, Task.Apart]
  | flatMapper f out token =>
      cases reply with
      | nothing | value value => cases token <;> exact ⟨[], rfl, by simp⟩
      | future inner =>
          cases inner <;> cases token <;>
            exact ⟨_, rfl, by simp [finish, Task.Shared, Task.Apart, other rfl]⟩
  | recovery f out =>
      cases reply with
      | nothing | value value => exact ⟨[], rfl, by simp⟩
      | future inner =>
          cases inner <;> exact ⟨_, rfl, by simp [finish, Task.Shared, Task.Apart, other rfl]⟩

end Operator
end UfsrvRx
