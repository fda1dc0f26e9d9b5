import UfsrvRx.Operator.Mirror

namespace UfsrvRx
namespace Operator

open Transition
open UfsrvRx.Future (Result ValueId epipe ecanceled einval)

/-!
# The client follows the operator

Each step of the run with the operator is followed by the other run.  A task that both have is
done in both.  What only the operator has is done by the client, which has the control by then,
after the calls that it made in place of the operator have returned.
-/

variable {s : State} {o f : FutureId} {isClient : Bool} {context : Group} {lent : FutureId -> Nat}
  {rest : List Task}

/-! ## The run with the operator -/

/-- The output of the operator is not the client's.  The client has its promise in the other run
until the operator has destroyed it. -/
structure Hosted (o : FutureId) (isClient : Bool) (s : State) : Prop where
  inside : o < s.count
  foreign : (s.promises o).isClient = false
  owned : isClient = false -> .releasePromise o ∈ s.stack ∨ (s.promises o).isLive = false
  waits : forall f continuation, (f, continuation) ∈ s.waiting -> continuation.out = some o ->
    continuation.Claims

/-- A promise is in one place. -/
theorem Sound.promise_alone {task other : Task} (sound : Sound s)
    (two : [task, other].Subperm s.stack) (holds : .promise f ∈ task.resources) :
    .promise f ∉ other.resources := by
  intro also
  rcases List.subperm_iff.mp two with ⟨stack, same, part⟩
  have least : 2 ≤ ([task, other].flatMap Task.resources).count (.promise f) := by
    have first := List.count_pos_iff.mpr holds
    have second := List.count_pos_iff.mpr also
    simp only [List.flatMap_cons, List.flatMap_nil, List.count_append, List.count_nil]
    omega
  have inStack : ([task, other].flatMap Task.resources).count (.promise f) ≤
      (s.stack.flatMap Task.resources).count (.promise f) := by
    rw [<- (same.flatMap_right Task.resources).count_eq]
    exact (part.flatMap Task.resources).count_le _
  have balanced := sound.balanced (.promise f)
  have live := Bool.toNat_le (s.promises f).isLive
  simp only [State.held, State.total, List.count_append] at balanced
  omega

theorem subperm_of_ne {α : Type} {first second : α} {list : List α} (differ : first ≠ second)
    (one : first ∈ list) (two : second ∈ list) : [first, second].Subperm list := by
  refine List.Nodup.subperm (by simpa using differ) ?_
  intro other mem
  rcases List.mem_pair.mp mem with rfl | rfl
  · exact one
  · exact two

/-- No future's promise comes to be the client's. -/
theorem Handles.foreign {after : State} {task : Task} (handles : Handles s after task)
    (inside : f < s.count) (foreign : (s.promises f).isClient = false) :
    (after.promises f).isClient = false := by
  by_contra client
  rw [handles.clients f inside (by simpa using client)] at foreign
  cases foreign

namespace Hosted

/-- What is left of the operator has its promise. -/
theorem owns (hosted : Hosted o isClient s) (sound : Sound s) (mem : .destroyPromise o ∈ s.stack) :
    isClient = true := by
  by_contra gone
  rcases hosted.owned (Bool.eq_false_of_not_eq_true gone) with other | dead
  · exact sound.promise_alone (subperm_of_ne (by simp) mem other) List.mem_cons_self
      List.mem_cons_self
  · have live := sound.live_of_held (held_pos mem List.mem_cons_self)
    exact absurd (live.symm.trans dead) (by decide)

variable {task : Task}

theorem perform (hosted : Hosted o isClient (s.push [task]))
    (claims : forall g continuation, task = .register g continuation ->
      continuation.out = some o -> continuation.Claims) :
    Hosted o isClient (Operator.perform s task) where
  inside := (count_perform s task).symm ▸ hosted.inside
  foreign := (Handles.perform s task).foreign hosted.inside hosted.foreign
  owned := by
    intro gone
    rcases yields_perform s task with ⟨new, stack, _⟩
    rw [stack]
    rcases hosted.owned gone with mem | dead
    · rcases List.mem_cons.mp mem with rfl | mem
      · refine .inr ((Handles.unref _ o (.releasePromise o)).dead o hosted.inside ?_)
        simp only [State.setPromise, Function.update_self]
      · exact .inl (List.mem_append_right _ mem)
    · exact .inr ((Handles.perform s task).dead o hosted.inside dead)
  waits := by
    intro g continuation mem out
    rcases (Spares.perform s task).waiting g continuation mem with before | here
    · exact hosted.waits g continuation before out
    · exact claims g continuation here out

/-- The operator destroys its promise, and so does the client. -/
theorem destroyed (hosted : Hosted o isClient (s.push [.destroyPromise o])) :
    Hosted o false (Operator.perform s (.destroyPromise o)) := by
  refine { hosted.perform (by simp) with owned := ?_ }
  intro _
  refine .inl ?_
  simp only [Operator.perform]
  split <;> simp [State.push]

theorem afterCallback {client : Callback} (hosted : Hosted o isClient (s.push [.callback client]))
    (reply : Reply) : Hosted o isClient (Operator.afterCallback s client reply) := by
  rcases still_afterCallback s client reply with ⟨count, promises, _, waiting⟩
  refine ⟨count.symm ▸ hosted.inside, promises.symm ▸ hosted.foreign, ?_,
    waiting.symm ▸ hosted.waits⟩
  intro gone
  rcases asks_afterCallback s client reply with ⟨new, stack, _⟩
  rw [stack, promises]
  refine (hosted.owned gone).imp_left ?_
  intro mem
  rcases List.mem_cons.mp mem with here | mem
  · cases here
  · exact List.mem_append_right _ mem

theorem enter (hosted : Hosted o isClient s) (sound : Sound s) (api : Api) :
    Hosted o isClient (Operator.enter s api) where
  inside := Nat.lt_of_lt_of_le hosted.inside (Spares.enter sound api).count
  foreign := (Handles.enter sound api).foreign hosted.inside hosted.foreign
  owned := by
    intro gone
    rcases asks_enter s api with ⟨new, stack, _⟩
    rw [stack]
    exact (hosted.owned gone).imp (List.mem_append_right _)
      ((Handles.enter sound api).dead o hosted.inside)
  waits := (waiting_enter s api).symm ▸ hosted.waits

end Hosted

/-! ## The other run -/

/-- The run without the operator has come as far. -/
def Mirrors (o : FutureId) (s other : State) : Prop :=
  Exists fun isClient => Exists fun context => Exists fun lent => Exists fun rest =>
    other = s.disguise o isClient context lent rest ∧ Stacks o lent s.stack rest ∧
      Hosted o isClient s

/-- The run without the operator comes as far when the client does what it does in the other. -/
def Comes (o : FutureId) (events : List Event) (other after : State) : Prop :=
  Exists fun moves => Exists fun last => machine.Run other (moves.map (Move.event o)) last ∧
    clientMoves moves = events ∧ Mirrors o after last

/-- The tasks that take the place of a common one are common. -/
theorem Mirrors.of_same {after other : State}
    (same : Same s after o isClient context lent rest other) (beside : Stacks o lent s.stack rest) (hosted : Hosted o isClient after)
    (shared : Exists fun new => after.stack = new ++ s.stack ∧
      forall task, task ∈ new -> task.Shared o) : Mirrors o after other := by
  rcases same with ⟨new, stack, rfl⟩
  rcases shared with ⟨common, also, shared⟩
  have here : common = new := List.append_cancel_right (also.symm.trans stack)
  refine ⟨isClient, context, lent, _, rfl, ?_, hosted⟩
  rw [stack]
  exact beside.pushes (here ▸ shared)

namespace Comes

variable {other after : State} {events : List Event}

theorem stay (mirrors : Mirrors o after other) : Comes o [] other after :=
  ⟨[], other, .done other, rfl, mirrors⟩

/-- The client does something in place of the operator, or the library takes a step. -/
theorem move (move : Move) (serves : clientMoves [move] = [])
    (may : machine.enabled other (move.event o))
    (comes : Comes o events (machine.next other (move.event o)) after) :
    Comes o events other after := by
  rcases comes with ⟨moves, last, run, same, mirrors⟩
  refine ⟨move :: moves, last, .step may run, ?_, mirrors⟩
  rw [<- same]
  change clientMoves ([move] ++ moves) = _
  rw [clientMoves, List.filterMap_append]
  exact congrArg (· ++ clientMoves moves) serves

/-- The client does what it does in both runs. -/
theorem client {event : Event} (may : machine.enabled other event)
    (mirrors : Mirrors o after (machine.next other event)) : Comes o [event] other after :=
  ⟨[.client event], machine.next other event, .step may (.done _), rfl, mirrors⟩

/-- The library takes a step. -/
theorem step {task : Task} (runs : forall client, task ≠ .callback client)
    (comes : Comes o events (perform (s.disguise o isClient context lent rest) task) after) :
    Comes o events (s.disguise o isClient context lent (task :: rest)) after :=
  .move .library rfl ⟨task, rest, rfl, runs⟩ comes

/-- What has nothing left to do is taken off the stack. -/
theorem lag {task : Task} {stack : List Task} (lags : task.Lags o lent stack)
    (comes : Comes o events (s.disguise o isClient context lent rest) after) :
    Comes o events (s.disguise o isClient context lent (task :: rest)) after := by
  cases task with
  | leave arguments | leaveSet g => exact .step (by simp) comes
  | callback client =>
      cases client with
      | observer g => exact .move .returns rfl ⟨.observer g, rest, rfl, rfl⟩ comes
      | _ => cases lags
  | _ => cases lags

/-- The client calls the library. -/
theorem call {api : Api} (ready : Ready rest) (move : Move) (serves : clientMoves [move] = [])
    (here : move.event o = .call api)
    (may : permitted (s.disguise o isClient context lent rest) api)
    (comes : Comes o events (Operator.enter (s.disguise o isClient context lent rest) api) after) :
    Comes o events (s.disguise o isClient context lent rest) after := by
  refine .move move serves ?_ ?_
  · rw [here]
    exact ⟨ready, may⟩
  · rw [here]
    exact comes

end Comes

end Operator
end UfsrvRx
