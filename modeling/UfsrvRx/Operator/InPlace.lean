import UfsrvRx.Operator.Once
import UfsrvRx.Operator.Waiting

namespace UfsrvRx
namespace Operator

open Transition
open UfsrvRx.Future (Result ValueId epipe ecanceled einval)

/-!
# The client in place of an operator

A client can make a future itself, look at another one with `UfsrvFutureThen`, and complete the
first one from there.  The memory is then that of the operator with the same output, except that
the promise is the client's, that the context of the combinator is missing, that an observer waits
where the continuation would, and that the client still holds what the operator would have taken.
-/

/-- The observer that waits in place of a continuation to this output. -/
def Continuation.stand (o : FutureId) (continuation : Continuation) : Continuation :=
  if continuation.out = some o then .observe else continuation

/-- What is on the stack in place of a task. -/
def Task.stand (o : FutureId) : Task -> Task
  | run f continuation => run f (continuation.stand o)
  | register f continuation => register f (continuation.stand o)
  | task => task

/-- The state when the client has made the future. -/
def State.disguise (s : State) (o : FutureId) (isClient : Bool) (context : Group)
    (lent : FutureId -> Nat) (stack : List Task) : State :=
  { s with
    promises := fun f => if f = o then { s.promises f with isClient := isClient } else s.promises f
    groups := fun f => if f = o then context else s.groups f
    waiting := s.waiting.map fun entry => (entry.1, entry.2.stand o)
    clientRefs := fun f => s.clientRefs f + lent f
    stack := stack }

/-- The task is not one of an operator with this output, or it only waits. -/
def Task.Apart (o : FutureId) : Task -> Prop
  | run _ continuation => continuation.out ≠ some o
  | claimInner out _ | claimInput _ out | inherit _ out | deliver out | subtract _ out _
  | zipComplete out _ _ => out ≠ o
  | loop _ out entries => entries = [] ∨ out ≠ o
  | callback client => client.out ≠ some o
  | _ => True

variable {s : State} {o : FutureId} {isClient : Bool} {context : Group} {lent : FutureId -> Nat}
  {stack : List Task}

theorem stand_apart {continuation : Continuation} (apart : continuation.out ≠ some o) :
    continuation.stand o = continuation := if_neg apart

/-! ## Memory -/

section

variable (s o isClient context lent stack)

@[simp] theorem futures_disguise :
    (s.disguise o isClient context lent stack).futures = s.futures := rfl

@[simp] theorem zips_disguise :
    (s.disguise o isClient context lent stack).zips = s.zips := rfl

@[simp] theorem isFulfilled_disguise (f : FutureId) :
    ((s.disguise o isClient context lent stack).promises f).isFulfilled =
      (s.promises f).isFulfilled := by
  simp only [State.disguise]
  split <;> rfl

theorem groups_disguise {out : FutureId} (apart : out ≠ o) :
    (s.disguise o isClient context lent stack).groups out = s.groups out := if_neg apart

/-- The two promises stay as they are in all but the owner. -/
theorem setPromise_disguise (f : FutureId) (change : Promise -> Promise)
    (keeps : forall promise, change { promise with isClient := isClient } =
      { change promise with isClient := isClient } ∨ f ≠ o) :
    (s.disguise o isClient context lent stack).setPromise f
        (change ((s.disguise o isClient context lent stack).promises f)) =
      (s.setPromise f (change (s.promises f))).disguise o isClient context lent stack := by
  simp only [State.disguise, State.setPromise, State.mk.injEq, true_and, and_true]
  funext g
  by_cases here : g = f
  · subst g
    simp only [Function.update_self]
    split
    next same => exact (keeps _).resolve_right (by simpa using same)
    next => rfl
  · simp only [Function.update_of_ne here]

theorem destroyValue_disguise (result : Result) :
    (s.disguise o isClient context lent stack).destroyValue result =
      (s.destroyValue result).disguise o isClient context lent stack := by
  unfold State.destroyValue
  split <;> rfl

theorem give_disguise (result : Result) :
    (s.disguise o isClient context lent stack).give result =
      (s.give result).disguise o isClient context lent stack := by
  unfold State.give
  split <;> rfl

theorem filter_stand (waiting : List (FutureId × Continuation)) (keeps : FutureId -> Bool) :
    (waiting.map fun entry => (entry.1, entry.2.stand o)).filter (fun entry => keeps entry.1) =
      (waiting.filter fun entry => keeps entry.1).map fun entry => (entry.1, entry.2.stand o) := by
  rw [List.filter_map]
  rfl

theorem unref_disguise (f : FutureId) : (s.disguise o isClient context lent stack).unref f =
    (s.unref f).disguise o isClient context lent stack := by
  have left := filter_stand o s.waiting fun g => g ≠ f
  have freed (cell : Cell) (result : Result) :
      ({ ((s.disguise o isClient context lent stack).setFuture f cell).destroyValue result with
        waiting := (s.waiting.map fun entry => (entry.1, entry.2.stand o)).filter
          fun entry => entry.1 ≠ f } : State) =
      ({ (s.setFuture f cell).destroyValue result with
        waiting := s.waiting.filter fun entry => entry.1 ≠ f } : State).disguise
          o isClient context lent stack := by
    have moved := destroyValue_disguise (s.setFuture f cell) o isClient context lent stack result
    rw [show (s.disguise o isClient context lent stack).setFuture f cell =
      (s.setFuture f cell).disguise o isClient context lent stack from rfl, moved, left]
    rfl
  simp only [State.unref]
  change (if (s.futures f).refcount = 1 then _ else _) = _
  split
  · exact freed _ _
  · rfl

theorem setGroup_disguise {out : FutureId} (apart : out ≠ o) (entry : Group) :
    (s.disguise o isClient context lent stack).setGroup out entry =
      (s.setGroup out entry).disguise o isClient context lent stack := by
  simp only [State.disguise, State.setGroup, State.mk.injEq, true_and, and_true]
  funext g
  by_cases here : g = out
  · subst g
    simp only [Function.update_self, if_neg apart]
  · simp only [Function.update_of_ne here]

end

/-! ## Steps -/

/-- The other state follows from the same tasks. -/
def Same (s after : State) (o : FutureId) (isClient : Bool) (context : Group)
    (lent : FutureId -> Nat) (stack : List Task) (other : State) : Prop :=
  Exists fun new => after.stack = new ++ s.stack ∧
    other = after.disguise o isClient context lent (new.map (Task.stand o) ++ stack)

namespace Same

theorem ite {condition : Prop} [Decidable condition] {first second one two : State}
    (yes : condition -> Same s first o isClient context lent stack one)
    (no : ¬condition -> Same s second o isClient context lent stack two) :
    Same s (if condition then first else second) o isClient context lent stack
      (if condition then one else two) := by
  by_cases meets : condition
  · rw [if_pos meets, if_pos meets]
    exact yes meets
  · rw [if_neg meets, if_neg meets]
    exact no meets

theorem destroyValue (result : Result) : Same s (s.destroyValue result) o isClient context lent stack
    ((s.disguise o isClient context lent stack).destroyValue result) :=
  ⟨[], State.stack_destroyValue s result,
    destroyValue_disguise s o isClient context lent stack result⟩

theorem dropNode (f : FutureId) (references : Nat) :
    Same s (s.dropNode f references) o isClient context lent stack
      ((s.disguise o isClient context lent stack).dropNode f references) :=
  ite (fun _ => ⟨_, rfl, rfl⟩) (fun _ => ⟨[], rfl, rfl⟩)

theorem runContinuation {f : FutureId} {continuation : Continuation}
    (apart : continuation.out ≠ some o) :
    Same s (Operator.runContinuation s f continuation) o isClient context lent stack
      (Operator.runContinuation (s.disguise o isClient context lent stack) f continuation) := by
  cases continuation with
  | observe | moveChain out => exact ⟨_, rfl, rfl⟩
  | map out freeValue | flatMap out token | onError out | doOnSuccess out =>
      exact ite (fun _ => ⟨_, rfl, rfl⟩) (fun _ => ⟨_, rfl, rfl⟩)
  | group kind out =>
      have other : out ≠ o := fun same => apart (congrArg some same)
      have groups := groups_disguise s o isClient context lent stack other
      have setGroup := fun entry => setGroup_disguise s o isClient context lent stack other entry
      cases kind with
      | all =>
          simp only [Operator.runContinuation, futures_disguise, groups, setGroup]
          exact ite (fun _ => ⟨_, rfl, rfl⟩) (fun _ => ⟨_, rfl, rfl⟩)
      | any =>
          simp only [Operator.runContinuation, futures_disguise, groups, setGroup]
          refine ite (fun _ => ⟨_, rfl, rfl⟩) (fun _ => ?_)
          exact ite (fun _ => ⟨_, rfl, rfl⟩) (fun _ => ⟨_, rfl, rfl⟩)
  | zip out isSecond => exact ite (fun _ => ⟨_, rfl, rfl⟩) (fun _ => ⟨[], rfl, rfl⟩)

/-- A promise is fulfilled on the way. -/
theorem fulfil (f : FutureId) (tasks : List Task) (plain : tasks.map (Task.stand o) = tasks) :
    Same s ((s.fulfil f).push tasks) o isClient context lent stack
      (((s.disguise o isClient context lent stack).fulfil f).push tasks) := by
  have same := setPromise_disguise s o isClient context lent stack f
    (fun promise => { promise with isFulfilled := true }) (fun _ => .inl rfl)
  refine ⟨tasks, rfl, ?_⟩
  rw [plain, State.fulfil, same]
  rfl

/-- One entry of an array. -/
theorem visit {kind : Kind} {out : FutureId} (apart : out ≠ o) (entry : Option FutureId)
    (entries : List (Option FutureId)) :
    Same s (Operator.visit (s.push [.loop kind out entries]) kind out entry) o isClient context lent
      stack (Operator.visit
        ((s.disguise o isClient context lent stack).push [.loop kind out entries]) kind out entry) := by
  have groups := groups_disguise s o isClient context lent (.loop kind out entries :: stack) apart
  have setGroup :=
    setGroup_disguise s o isClient context lent (.loop kind out entries :: stack) apart
  change Same s _ o isClient context lent stack
    (Operator.visit (s.disguise o isClient context lent (.loop kind out entries :: stack)) kind out
      entry)
  cases entry with
  | some f =>
      have same : (Continuation.group kind out).stand o = .group kind out :=
        stand_apart fun same => apart (Option.some.inj same)
      refine ⟨[.register f (.group kind out), .loop kind out entries], rfl, ?_⟩
      simp only [List.map_cons, List.map_nil, Task.stand, same]
      rfl
  | none =>
      cases kind with
      | all =>
          simp only [Operator.visit, groups, setGroup]
          refine ite (fun _ => ⟨[.subtract .all out true, .loop .all out entries], rfl, rfl⟩) ?_
          exact fun _ => ⟨finish out (.ofError einval) ++
            [.subtract .all out true, .loop .all out entries], rfl, rfl⟩
      | any => exact ⟨[.subtract .any out true, .loop .any out entries], rfl, rfl⟩

theorem perform {task : Task} (apart : task.Apart o) :
    Same s (Operator.perform s task) o isClient context lent stack
      (Operator.perform (s.disguise o isClient context lent stack) (task.stand o)) := by
  cases task with
  | setResult f result =>
      simp only [Task.stand, Operator.perform, isFulfilled_disguise]
      exact ite (fun _ => destroyValue result) (fun _ => fulfil f _ rfl)
  | destroyPromise f =>
      simp only [Task.stand, Operator.perform, isFulfilled_disguise]
      exact ite (fun _ => ⟨_, rfl, rfl⟩) (fun _ => fulfil f _ rfl)
  | releasePromise f =>
      have same := setPromise_disguise s o isClient context lent stack f
        (fun promise => { promise with isLive := false }) (fun _ => .inl rfl)
      refine ⟨[], Guarded.stack_unref _ f, ?_⟩
      simp only [Task.stand, Operator.perform]
      rw [same, unref_disguise]
      rfl
  | complete f result =>
      refine ite (fun _ => destroyValue result) (fun _ => ⟨_, rfl, ?_⟩)
      have plain : List.map (Task.stand o)
          (if (s.futures f).cancelHandle then [.unregister f, .drain f] else [.drain f]) =
          if (s.futures f).cancelHandle then [.unregister f, .drain f] else [.drain f] := by
        split <;> rfl
      rw [plain]
      rfl
  | drain f =>
      refine ⟨_, rfl, ?_⟩
      have left := filter_stand o s.waiting fun g => g ≠ f
      have taken := filter_stand o s.waiting fun g => g = f
      simp only [Task.stand, Operator.perform, State.disguise, left, taken, List.map_map]
      rfl
  | run f continuation =>
      rw [Task.stand, stand_apart apart]
      exact runContinuation apart
  | zero f => exact ⟨[], rfl, rfl⟩
  | release f =>
      exact ⟨[], Guarded.stack_unref s f, unref_disguise s o isClient context lent stack f⟩
  | unregister f =>
      refine ite (fun _ => ?_) (fun _ => dropNode f 1)
      exact dropNode (s := s.setToken (s.nodes f).token _) f 2
  | attach f token =>
      refine ite (fun _ => ⟨[], rfl, rfl⟩) (fun _ => ?_)
      exact ite (fun _ => ⟨_, rfl, rfl⟩) (fun _ => ⟨_, rfl, rfl⟩)
  | attached f => exact ite (fun _ => ⟨_, rfl, rfl⟩) (fun _ => ⟨[], rfl, rfl⟩)
  | dropNode f => exact dropNode f 1
  | register f continuation =>
      exact ite (fun _ => ⟨[.run f continuation], rfl, rfl⟩) (fun _ => ⟨[], rfl, rfl⟩)
  | claimInner out inner =>
      refine ite (fun _ => ⟨_, rfl, rfl⟩) (fun _ => ⟨_, rfl, ?_⟩)
      have same : (Continuation.moveChain out).stand o = .moveChain out :=
        stand_apart fun same => apart (Option.some.inj same)
      simp only [List.map_cons, List.map_nil, Task.stand, same]
      rfl
  | claimInput f out => exact ite (fun _ => ⟨_, rfl, rfl⟩) (fun _ => ⟨_, rfl, rfl⟩)
  | inherit f out =>
      simp only [Task.stand, Operator.perform, futures_disguise]
      split <;> first | exact ⟨_, rfl, rfl⟩ | exact ⟨[], rfl, rfl⟩
  | deliver out =>
      refine ⟨[], rfl, ?_⟩
      simp only [Task.stand, Operator.perform, State.disguise, State.setClientRefs, List.map_nil,
        List.nil_append, State.mk.injEq, true_and, and_true]
      funext g
      by_cases here : g = out
      · subst g
        simp only [Function.update_self]
        omega
      · simp only [Function.update_of_ne here]
  | loop kind out entries =>
      cases entries with
      | nil => exact ⟨[], rfl, rfl⟩
      | cons entry entries => exact visit (apart.resolve_left (by simp)) entry entries
  | subtract kind out refused =>
      have groups := groups_disguise s o isClient context lent stack apart
      have setGroup := fun entry => setGroup_disguise s o isClient context lent stack apart entry
      simp only [Task.stand, Operator.perform, groups, setGroup]
      refine ite (fun _ => ?_) (fun _ => ⟨[], rfl, rfl⟩)
      split <;> first | exact ⟨_, rfl, rfl⟩ | exact ⟨[], rfl, rfl⟩
  | zipComplete out first second =>
      simp only [Task.stand, Operator.perform, zips_disguise]
      split <;> exact ⟨_, rfl, rfl⟩
  | callback client | leave arguments | leaveSet f => exact ⟨[], rfl, rfl⟩

end Same

/-! ## Calls -/

section

variable (isClient context lent stack)

theorem create_disguise (inside : o < s.count) (made : Bool) :
    (s.disguise o isClient context lent stack).create made =
      (s.create made).disguise o isClient context lent stack := by
  simp only [State.disguise, State.create, State.mk.injEq, true_and, and_true]
  funext f
  by_cases new : f = s.count
  · subst f
    simp only [Function.update_self, if_neg (Nat.ne_of_gt inside)]
  · simp only [Function.update_of_ne new]

/-- The client has what it has in both states, and what was lent to it. -/
theorem setClientRefs_disguise (f : FutureId) {references : Nat} (fewer : Nat)
    (more : references = fewer + lent f) :
    (s.disguise o isClient context lent stack).setClientRefs f references =
      (s.setClientRefs f fewer).disguise o isClient context lent stack := by
  subst more
  simp only [State.disguise, State.setClientRefs, State.mk.injEq, true_and, and_true]
  funext g
  by_cases here : g = f
  · subst g
    simp only [Function.update_self]
  · simp only [Function.update_of_ne here]

end

namespace Same

/-- Tasks are pushed after the memory was changed. -/
theorem pushed {after : State} (tasks : List Task) (stays : after.stack = s.stack) :
    Same s (after.push tasks) o isClient context lent stack
      ((after.disguise o isClient context lent stack).push (tasks.map (Task.stand o))) :=
  ⟨tasks, congrArg (tasks ++ ·) stays, rfl⟩

theorem operator (inside : o < s.count) (f : FutureId) (continuation : FutureId -> Continuation)
    (out : (continuation s.count).out = some s.count) :
    Same s (Operator.operator s f continuation) o isClient context lent stack
      (Operator.operator (s.disguise o isClient context lent stack) f continuation) := by
  have same : (continuation s.count).stand o = continuation s.count := by
    refine stand_apart ?_
    rw [out]
    exact fun same => Nat.ne_of_gt inside (Option.some.inj same)
  have created := create_disguise isClient context lent stack inside false
  refine ⟨_, rfl, ?_⟩
  simp only [Operator.operator, created, List.map_cons, List.map_nil, Task.stand]
  rw [same]
  rfl

theorem enter (inside : o < s.count) (fresh : lent s.count = 0)
    (foreign : (s.promises o).isClient = false) {api : Api} (may : permitted s api) :
    Same s (Operator.enter s api) o isClient context lent stack
      (Operator.enter (s.disguise o isClient context lent stack) api) := by
  have created := fun made => create_disguise isClient context lent stack inside made
  cases api with
  | create =>
      refine ⟨[], rfl, ?_⟩
      simp only [Operator.enter, created]
      exact setClientRefs_disguise isClient context lent stack s.count 1 (by rw [fresh])
  | fromResult result =>
      simp only [Operator.enter, created, give_disguise]
      exact pushed (finish s.count result ++ [.deliver s.count]) (State.stack_give _ _)
  | setResult f result =>
      simp only [Operator.enter, give_disguise]
      exact pushed [.setResult f result, .leaveSet f] (State.stack_give _ _)
  | destroy f =>
      have other : f ≠ o := by
        rintro rfl
        exact absurd (foreign.symm.trans may.1) (by decide)
      have same := setPromise_disguise s o isClient context lent stack f
        (fun promise => { promise with isClient := false }) (fun _ => .inr other)
      simp only [Operator.enter, same]
      exact pushed [.destroyPromise f] rfl
  | observe f => exact ⟨[.register f .observe, .leave [f]], rfl, rfl⟩
  | get f => exact ite (fun _ => ⟨[], rfl, rfl⟩) (fun _ => ⟨[], rfl, rfl⟩)
  | map f freeValue => exact operator inside f (fun out => .map out freeValue) rfl
  | flatMap f => exact operator inside f (fun out => .flatMap out _) rfl
  | onError f => exact operator inside f .onError rfl
  | doOnSuccess f => exact operator inside f .doOnSuccess rfl
  | group kind entries =>
      simp only [Operator.enter, created]
      refine ite (fun _ => ⟨_, rfl, rfl⟩) (fun _ => ?_)
      have same := setGroup_disguise (s.create false) o isClient context lent stack
        (Nat.ne_of_gt inside) ⟨entries.length, false⟩
      change Same s _ o isClient context lent stack
        ((((s.create false).disguise o isClient context lent stack).setGroup s.count _).push _)
      rw [same]
      exact pushed [.loop kind s.count entries, .deliver s.count, .leave (entries.filterMap id)] rfl
  | zip first second freeValue =>
      simp only [Operator.enter, created]
      have out : forall isSecond, (Continuation.zip s.count isSecond).stand o =
          .zip s.count isSecond :=
        fun _ => stand_apart fun same => Nat.ne_of_gt inside (Option.some.inj same)
      exact ⟨[.register first (.zip s.count false), .register second (.zip s.count true),
        .deliver s.count, .leave [first, second]], rfl, by
          simp only [List.map_cons, List.map_nil, Task.stand, out]
          rfl⟩
  | attach f token => exact ⟨_, rfl, rfl⟩
  | cancel token =>
      refine ite (fun _ => ⟨[], rfl, rfl⟩) (fun _ => ⟨_, rfl, ?_⟩)
      have plain : ((s.tokens token).nodes.flatMap cancellation).map (Task.stand o) =
          (s.tokens token).nodes.flatMap cancellation := by
        rw [List.map_flatMap]
        refine List.flatMap_congr fun node _ => ?_
        cases node <;> rfl
      rw [plain]
      rfl
  | registerCallback token => exact ite (fun _ => ⟨_, rfl, rfl⟩) (fun _ => ⟨[], rfl, rfl⟩)
  | unregisterCallback token index => exact ⟨[], rfl, rfl⟩
  | retain f =>
      refine ⟨[], rfl, ?_⟩
      exact setClientRefs_disguise (s := s.retain f) isClient context lent stack f _ (by
        change s.clientRefs f + lent f + 1 = s.clientRefs f + 1 + lent f
        omega)
  | release f =>
      have held : 0 < s.clientRefs f := by
        rcases may with more | ⟨held, _⟩
        · exact Nat.lt_of_succ_lt more
        · exact held
      have fewer : s.clientRefs f + lent f - 1 = s.clientRefs f - 1 + lent f := by omega
      have same := setClientRefs_disguise (s := s) (o := o) isClient context lent stack f _ fewer
      refine ⟨[.release f], rfl, ?_⟩
      simp only [Operator.enter]
      exact congrArg (State.push · [.release f]) same

theorem afterCallback {client : Callback} {reply : Reply} (apart : client.out ≠ some o)
    (held : forall inner, reply = .future (some inner) -> 0 < s.clientRefs inner) :
    Same s (Operator.afterCallback s client reply) o isClient context lent stack
      (Operator.afterCallback (s.disguise o isClient context lent stack) client reply) := by
  have given (result : Result) (tasks : List Task) (plain : tasks.map (Task.stand o) = tasks) :
      Same s ((s.give result).push tasks) o isClient context lent stack
        (((s.disguise o isClient context lent stack).give result).push tasks) := by
    have same := @pushed s o isClient context lent stack _ tasks (State.stack_give s result)
    rw [plain] at same
    rw [give_disguise]
    exact same
  have taken (inner : FutureId) (tasks : List Task) (plain : tasks.map (Task.stand o) = tasks)
      (returned : reply = .future (some inner)) :
      Same s ((s.setClientRefs inner (s.clientRefs inner - 1)).push tasks) o isClient context lent
        stack (((s.disguise o isClient context lent stack).setClientRefs inner
          (s.clientRefs inner + lent inner - 1)).push tasks) := by
    have more := held inner returned
    have fewer : s.clientRefs inner + lent inner - 1 = s.clientRefs inner - 1 + lent inner := by
      omega
    rw [setClientRefs_disguise (s := s) (o := o) isClient context lent stack inner _ fewer]
    have same := @pushed s o isClient context lent stack
      (s.setClientRefs inner (s.clientRefs inner - 1)) tasks rfl
    rwa [plain] at same
  cases client with
  | mapper f out freeValue =>
      cases reply with
      | value value => exact given _ _ rfl
      | nothing | future inner => exact ⟨[], rfl, rfl⟩
  | flatMapper f out token =>
      cases reply with
      | future inner =>
          cases inner with
          | none =>
              exact ⟨finish out (.ofError (-1)), by cases token <;> rfl, by cases token <;> rfl⟩
          | some inner =>
              cases token with
              | none => exact taken inner _ rfl rfl
              | some token => exact taken inner _ rfl rfl
      | nothing | value value => exact ⟨[], by cases token <;> rfl, by cases token <;> rfl⟩
  | recovery f out =>
      cases reply with
      | future inner =>
          cases inner with
          | none => exact ⟨_, rfl, rfl⟩
          | some inner => exact taken inner _ rfl rfl
      | nothing | value value => exact ⟨[], rfl, rfl⟩
  | action f out => exact ⟨[.claimInput f out], rfl, rfl⟩
  | zipper out first second =>
      cases reply with
      | value value => exact given _ _ rfl
      | nothing | future inner => exact ⟨[], rfl, rfl⟩
  | observer f | cancelled => exact ⟨[], rfl, rfl⟩

end Same

/-! ## What the client may do -/

section

variable (uses : forall f, (s.disguise o isClient context lent stack).InUse f ->
  s.InUse f ∨ 0 < lent f)
include uses

theorem spare_disguise {f : FutureId} (spare : s.Spare f) :
    (s.disguise o isClient context lent stack).Spare f := by
  have more : 1 < s.clientRefs f + lent f ∨ lent f = 0 := by
    rcases spare with spare | ⟨held, _⟩ <;> omega
  rcases more with more | none
  · exact .inl more
  · rcases spare with spare | ⟨held, unused⟩
    · exact .inl (Nat.lt_of_lt_of_le spare (Nat.le_add_right _ _))
    · refine .inr ⟨Nat.lt_of_lt_of_le held (Nat.le_add_right _ _), ?_⟩
      intro used
      rcases uses f used with used | lends
      · exact unused used
      · omega

theorem permitted_disguise (foreign : (s.promises o).isClient = false)
    (leaves : forall f, .leaveSet f ∈ stack -> f ≠ o -> .leaveSet f ∈ s.stack) {api : Api}
    (may : permitted s api) : permitted (s.disguise o isClient context lent stack) api := by
  have more {f : FutureId} (held : 0 < s.clientRefs f) : 0 < s.clientRefs f + lent f :=
    Nat.lt_of_lt_of_le held (Nat.le_add_right _ _)
  have promise {f : FutureId} (client : (s.promises f).isClient = true) :
      f ≠ o ∧ ((s.disguise o isClient context lent stack).promises f).isClient = true := by
    have other : f ≠ o := by
      rintro rfl
      exact absurd (foreign.symm.trans client) (by decide)
    refine ⟨other, ?_⟩
    simp only [State.disguise, if_neg other]
    exact client
  cases api with
  | create | fromResult result | cancel token | registerCallback token => trivial
  | unregisterCallback token index => exact may
  | setResult f result => exact (promise may).2
  | destroy f =>
      have client := promise may.1
      exact ⟨client.2, fun mem => may.2 (leaves f mem client.1)⟩
  | observe f | get f | map f freeValue | flatMap f | onError f | doOnSuccess f | attach f token
  | retain f => exact more may
  | group kind entries => exact fun f mem => more (may f mem)
  | zip first second freeValue => exact ⟨more may.1, more may.2⟩
  | release f => exact spare_disguise uses may

theorem replies_disguise {client : Callback} {reply : Reply} (may : replies s client reply) :
    replies (s.disguise o isClient context lent stack) client reply := by
  cases client with
  | flatMapper f out token | recovery f out =>
      rcases may with none | ⟨inner, returned, spare⟩
      · exact .inl none
      · exact .inr ⟨inner, returned, spare_disguise uses spare⟩
  | _ => exact may

end

end Operator
end UfsrvRx
