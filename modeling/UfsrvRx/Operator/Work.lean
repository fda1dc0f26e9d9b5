import Mathlib.Data.Finset.Card
import UfsrvRx.Transition.Potential
import UfsrvRx.Operator.Reach

namespace UfsrvRx
namespace Operator

open Transition
open UfsrvRx.Future (Result ValueId epipe ecanceled einval)

/-!
# The work of the library

A continuation that runs may complete a future, whose continuations run in turn, and callbacks
call the library again.  Each task has a weight that exceeds the weights of the tasks that take
its place, a continuation that waits weighs as much as the task that runs it, and an active
registration as much as its callback.  So a call of the client brings a bounded weight, and each
step takes some of it away.
-/

/-! ## Weights -/

def Callback.weight : Callback -> Nat
  | observer _ | cancelled => 0
  | mapper _ _ _ => 11
  | flatMapper _ _ _ => 26
  | recovery _ _ => 16
  | action _ _ | zipper _ _ _ => 13

def Continuation.weight : Continuation -> Nat
  | observe => 1
  | map _ _ => 12
  | flatMap _ _ => 27
  | onError _ => 17
  | doOnSuccess _ => 14
  | moveChain _ => 13
  | group _ _ => 25
  | zip _ _ => 15

def Task.weight : Task -> Nat
  | releasePromise _ | drain _ | zero _ | release _ | deliver _ | leave _ | leaveSet _ => 1
  | unregister _ | dropNode _ => 2
  | attached _ => 3
  | complete _ _ => 4
  | setResult _ _ => 5
  | destroyPromise _ => 6
  | attach _ _ => 10
  | inherit _ _ => 11
  | subtract _ _ _ => 12
  | claimInput _ _ => 13
  | zipComplete _ _ _ => 14
  | claimInner _ _ => 16
  | run _ continuation => continuation.weight
  | register _ continuation => continuation.weight + 1
  | loop _ _ entries => 1 + 27 * entries.length
  | callback client => client.weight

/-- What a call brings.  `UfsrvFutureGet`, `UfsrvCancellationTokenCancel` and the registration of
callbacks of the client bring nothing. -/
def Api.charge : Api -> Nat
  | create | get _ | cancel _ | registerCallback _ | unregisterCallback _ _ | retain _ => 0
  | release _ => 1
  | observe _ => 3
  | setResult _ _ | destroy _ => 6
  | attach _ _ => 11
  | fromResult _ => 12
  | group _ entries => 12 + 27 * entries.length
  | map _ _ => 26
  | doOnSuccess _ => 28
  | onError _ => 31
  | zip _ _ _ => 34
  | flatMap _ => 41

def Event.charge : Event -> Nat
  | call api => api.charge
  | _ => 0

/-- The continuations of a future, and the other ones. -/
theorem sum_weights (waiting : List (FutureId × Continuation)) (f : FutureId) :
    ((waiting.filter fun entry => entry.1 = f).map fun entry => entry.2.weight).sum +
        ((waiting.filter fun entry => entry.1 ≠ f).map fun entry => entry.2.weight).sum =
      (waiting.map fun entry => entry.2.weight).sum := by
  induction waiting with
  | nil => rfl
  | cons entry waiting inductionHypothesis =>
      by_cases same : entry.1 = f <;> simp [same] at inductionHypothesis ⊢ <;> omega

namespace State

variable (s : State)

/-- The futures whose registrations are on a list. -/
def registered : Finset FutureId :=
  (Finset.range s.count).filter fun f => (s.nodes f).isActive = true

/-- What the tasks in progress, the continuations that wait and the registrations weigh. -/
def potential : Nat :=
  (s.stack.map Task.weight).sum + (s.waiting.map fun entry => entry.2.weight).sum +
    6 * s.registered.card

@[simp] theorem potential_push (tasks : List Task) :
    (s.push tasks).potential = (tasks.map Task.weight).sum + s.potential := by
  change ((tasks ++ s.stack).map Task.weight).sum +
    (s.waiting.map fun entry => entry.2.weight).sum + 6 * s.registered.card = _
  rw [List.map_append, List.sum_append]
  simp only [potential, Nat.add_assoc]

@[simp] theorem potential_setFuture (f : FutureId) (cell : Cell) :
    (s.setFuture f cell).potential = s.potential := rfl

@[simp] theorem potential_setPromise (f : FutureId) (promise : Promise) :
    (s.setPromise f promise).potential = s.potential := rfl

@[simp] theorem potential_setGroup (out : FutureId) (group : Group) :
    (s.setGroup out group).potential = s.potential := rfl

@[simp] theorem potential_setZip (out : FutureId) (zip : Zip) :
    (s.setZip out zip).potential = s.potential := rfl

@[simp] theorem potential_setToken (t : TokenId) (cell : Token) :
    (s.setToken t cell).potential = s.potential := rfl

@[simp] theorem potential_setClientRefs (f : FutureId) (references : Nat) :
    (s.setClientRefs f references).potential = s.potential := rfl

@[simp] theorem potential_fulfil (f : FutureId) : (s.fulfil f).potential = s.potential := rfl

@[simp] theorem potential_consume (f : FutureId) : (s.consume f).potential = s.potential := rfl

@[simp] theorem potential_retain (f : FutureId) : (s.retain f).potential = s.potential := rfl

@[simp] theorem potential_destroyValue (result : Result) :
    (s.destroyValue result).potential = s.potential := by
  unfold destroyValue
  split <;> rfl

@[simp] theorem potential_give (result : Result) : (s.give result).potential = s.potential := by
  unfold give
  split <;> rfl

theorem potential_unref (f : FutureId) : (s.unref f).potential ≤ s.potential := by
  unfold unref
  dsimp only
  split
  · have parts := sum_weights s.waiting f
    have lighter := Nat.le.intro ((Nat.add_comm _ _).trans parts)
    unfold destroyValue
    split <;> exact Nat.add_le_add_right (Nat.add_le_add_left lighter _) _
  · exact Nat.le_refl _

theorem registered_setNode (f : FutureId) (node : Node) :
    (s.setNode f node).registered ⊆ insert f s.registered := by
  intro g mem
  simp only [registered, setNode, Finset.mem_filter, Finset.mem_insert] at mem ⊢
  grind

theorem registered_setNode_inactive {f : FutureId} {node : Node} (inactive : node.isActive = false) :
    (s.setNode f node).registered ⊆ s.registered := by
  intro g mem
  simp only [registered, setNode, Finset.mem_filter] at mem ⊢
  grind

/-- A node may become active. -/
theorem potential_setNode (f : FutureId) (node : Node) :
    (s.setNode f node).potential ≤ s.potential + 6 := by
  have more := (Finset.card_le_card (s.registered_setNode f node)).trans (Finset.card_insert_le f _)
  change (s.stack.map Task.weight).sum + (s.waiting.map fun entry => entry.2.weight).sum +
    6 * (s.setNode f node).registered.card ≤ _
  simp only [potential]
  omega

theorem potential_setNode_inactive {f : FutureId} {node : Node} (inactive : node.isActive = false) :
    (s.setNode f node).potential ≤ s.potential := by
  have fewer := Finset.card_le_card (s.registered_setNode_inactive inactive (f := f))
  change (s.stack.map Task.weight).sum + (s.waiting.map fun entry => entry.2.weight).sum +
    6 * (s.setNode f node).registered.card ≤ _
  simp only [potential]
  omega

theorem potential_dropNode (f : FutureId) (references : Nat) :
    (s.dropNode f references).potential ≤ s.potential + 1 := by
  have lighter : forall references : Nat,
      (s.setNode f ⟨(s.nodes f).token, references, false⟩).potential ≤ s.potential :=
    fun _ => s.potential_setNode_inactive rfl
  simp only [dropNode]
  split
  · rw [potential_push]
    have lighter := lighter ((s.nodes f).refcount - references)
    simp only [List.map_cons, List.map_nil, List.sum_cons, List.sum_nil, Task.weight]
    omega
  · exact (lighter _).trans (Nat.le_succ _)

end State

/-! ## Steps -/

/-- The first task is heavier than what takes its place. -/
theorem potential_run (s : State) (f : FutureId) (continuation : Continuation) :
    (runContinuation s f continuation).potential < continuation.weight + s.potential := by
  cases continuation with
  | observe =>
      simp [runContinuation, Continuation.weight, Task.weight, Callback.weight]
  | map out freeValue | flatMap out token | onError out | doOnSuccess out =>
      simp only [runContinuation]
      split <;> simp [finish, Continuation.weight, Task.weight, Callback.weight]
  | moveChain out =>
      simp [runContinuation, finish, Continuation.weight, Task.weight]
  | group kind out =>
      cases kind with
      | all =>
          simp only [runContinuation]
          split <;> simp [finish, Continuation.weight, Task.weight]
      | any =>
          simp only [runContinuation]
          split
          · simp [Continuation.weight, Task.weight]
          · split <;> simp [finish, Continuation.weight, Task.weight]
  | zip out isSecond =>
      simp only [runContinuation]
      split <;> simp [Continuation.weight, Task.weight]

theorem potential_visit (s : State) (kind : Kind) (out : FutureId) (entry : Option FutureId) :
    (visit s kind out entry).potential ≤ s.potential + 26 := by
  cases entry with
  | some f => simp [visit, Task.weight, Continuation.weight, Nat.add_comm]
  | none =>
      cases kind with
      | all =>
          simp only [visit]
          split <;> (simp [finish, Task.weight]; omega)
      | any =>
          simp [visit, Task.weight]
          omega

theorem potential_drain (s : State) (f : FutureId) :
    (perform s (.drain f)).potential = s.potential := by
  have parts := sum_weights s.waiting f
  change (((s.waiting.filter fun entry => entry.1 = f).map
    (fun entry => Task.run f entry.2) ++ s.stack).map Task.weight).sum +
    ((s.waiting.filter fun entry => entry.1 ≠ f).map fun entry => entry.2.weight).sum +
    6 * s.registered.card = _
  rw [List.map_append, List.sum_append, List.map_map]
  change ((s.waiting.filter fun entry => entry.1 = f).map fun entry => entry.2.weight).sum + _ +
    _ + _ = _
  simp only [State.potential]
  omega

theorem potential_attach (s : State) (f : FutureId) (t : TokenId) :
    (perform s (.attach f t)).potential < 10 + s.potential := by
  simp only [perform]
  split
  · omega
  · split
    · have inactive : Node.isActive ⟨t, 1, false⟩ = false := rfl
      have lighter := (s.setFuture f { s.futures f with
        cancelToken := some t, refcount := (s.futures f).refcount + 1 }).potential_setNode_inactive
          (f := f) inactive
      simp [Task.weight] at lighter ⊢
      omega
    · have lighter := (s.setFuture f { s.futures f with
        cancelToken := some t, refcount := (s.futures f).refcount + 1 }).potential_setNode
          f ⟨t, 2, true⟩
      simp [Task.weight] at lighter ⊢
      omega

/-- Each step takes some of the weight away. -/
theorem potential_perform (s : State) (task : Task)
    (runs : forall callback, task ≠ .callback callback) :
    (perform s task).potential < (s.push [task]).potential := by
  rw [State.potential_push]
  simp only [List.map_cons, List.map_nil, List.sum_cons, List.sum_nil, Nat.add_zero]
  cases task with
  | setResult f result | destroyPromise f =>
      simp only [perform]
      split <;> simp [Task.weight]
  | releasePromise f =>
      have lighter := (s.setPromise f { s.promises f with isLive := false }).potential_unref f
      simp only [perform, Task.weight, State.potential_setPromise] at lighter ⊢
      omega
  | release f =>
      have lighter := s.potential_unref f
      simp only [perform, Task.weight]
      omega
  | complete f result =>
      simp only [perform]
      split
      · simp [Task.weight]
      · split <;> simp [Task.weight]
  | drain f =>
      rw [potential_drain]
      simp [Task.weight]
  | run f continuation => exact potential_run s f continuation
  | zero f | deliver out | leave arguments | leaveSet f => simp [perform, Task.weight]
  | unregister f =>
      simp only [perform, Task.weight]
      split
      · refine Nat.lt_of_le_of_lt (State.potential_dropNode _ f 2) ?_
        rw [State.potential_setToken]
        omega
      · have lighter := s.potential_dropNode f 1
        omega
  | dropNode f =>
      have lighter := s.potential_dropNode f 1
      simp only [perform, Task.weight]
      omega
  | attach f t => exact potential_attach s f t
  | attached f =>
      simp only [perform]
      split <;> simp [Task.weight]
  | register f continuation =>
      simp only [perform]
      split
      · simp [Task.weight]
      · simp [State.potential, State.registered, Task.weight]
        omega
  | claimInner out inner =>
      simp only [perform]
      split <;> simp [finish, Task.weight, Continuation.weight]
  | claimInput f out =>
      simp only [perform]
      split <;> simp [finish, Task.weight]
  | inherit f out =>
      simp only [perform]
      split <;> simp [Task.weight]
  | loop kind out entries =>
      cases entries with
      | nil => simp [perform, Task.weight]
      | cons entry entries =>
          have lighter := potential_visit (s.push [.loop kind out entries]) kind out entry
          simp [perform, Task.weight] at lighter ⊢
          omega
  | subtract kind out refused =>
      simp only [perform]
      split
      · split <;> simp [finish, Task.weight]
      · simp [Task.weight]
  | zipComplete out first second =>
      simp only [perform]
      split <;> simp [zipFinish, finish, Task.weight, Callback.weight]
  | callback client => exact absurd rfl (runs client)

/-- What follows from a callback was in its weight. -/
theorem potential_afterCallback (s : State) (client : Callback) (reply : Reply) :
    (afterCallback s client reply).potential ≤ client.weight + s.potential := by
  cases client with
  | observer f | cancelled => simp [afterCallback]
  | mapper f out freeValue | action f out | zipper out first second =>
      cases reply <;> simp [afterCallback, finish, zipFinish, Task.weight, Callback.weight]
  | flatMapper f out token =>
      cases reply with
      | nothing | value value => simp [afterCallback]
      | future inner =>
          cases inner <;> cases token <;>
            simp [afterCallback, finish, Task.weight, Callback.weight]
  | recovery f out =>
      cases reply with
      | nothing | value value => simp [afterCallback]
      | future inner => cases inner <;> simp [afterCallback, finish, Task.weight, Callback.weight]

/-! ## Calls -/

/-- A future that is made is on no list. -/
theorem potential_create {s : State} (sound : Sound s) (isClient : Bool) :
    (s.create isClient).potential = s.potential := by
  have same : (s.create isClient).registered = s.registered := by
    ext f
    have inactive : (s.nodes s.count).isActive = false := by
      rw [(sound.fresh s.count (Nat.le_refl _)).node]
      rfl
    rw [State.registered, State.registered, Finset.mem_filter, Finset.mem_filter,
      Finset.mem_range, Finset.mem_range]
    refine ⟨?_, fun ⟨inside, active⟩ => ⟨Nat.lt_succ_of_lt inside, active⟩⟩
    rintro ⟨inside, active⟩
    rcases Nat.lt_succ_iff_lt_or_eq.mp inside with inside | rfl
    · exact ⟨inside, active⟩
    · exact absurd (inactive.symm.trans active) (by decide)
  change (s.stack.map Task.weight).sum + (s.waiting.map fun entry => entry.2.weight).sum +
    6 * (s.create isClient).registered.card = _
  rw [same]
  rfl

/-- The callbacks of a token. -/
theorem weight_cancellation (nodes : List (Option FutureId)) :
    ((nodes.flatMap cancellation).map Task.weight).sum = 6 * (nodes.filterMap id).length := by
  induction nodes with
  | nil => rfl
  | cons node nodes inductionHypothesis =>
      rw [List.flatMap_cons, List.map_append, List.sum_append, inductionHypothesis]
      cases node <;> simp [cancellation, Task.weight, Callback.weight]
      omega

/-- The registrations of a token weigh what its cancellation does. -/
theorem potential_cancel {s : State} (sound : Sound s) (t : TokenId) :
    (enter s (.cancel t)).potential ≤ s.potential := by
  simp only [enter]
  split
  · exact Nat.le_refl _
  · generalize made : ({ s.setToken t ⟨true, []⟩ with
      nodes := fun f => if some f ∈ (s.tokens t).nodes then { s.nodes f with isActive := false }
        else s.nodes f
      stack := (s.tokens t).nodes.flatMap cancellation ++ s.stack } : State) = after
    have listed : ((s.tokens t).nodes.filterMap id).Nodup := by
      rw [List.nodup_iff_count_le_one]
      intro f
      rw [List.count_filterMap]
      refine Nat.le_trans (Nat.le_of_eq ?_) (sound.alone t f)
      rw [List.count]
      rfl
    have inside : ((s.tokens t).nodes.filterMap id).toFinset ∪ after.registered ⊆
        s.registered := by
      intro f mem
      simp only [Finset.mem_union, List.mem_toFinset, List.mem_filterMap, id_eq,
        exists_eq_right] at mem
      rcases mem with mem | mem
      · have active := ((sound.listed t f).mp mem).1
        refine Finset.mem_filter.mpr ⟨?_, active⟩
        rw [Finset.mem_range]
        by_contra outside
        rw [(sound.fresh f (Nat.le_of_not_lt outside)).node] at active
        cases active
      · rw [<- made] at mem
        simp only [State.registered, State.setToken, Finset.mem_filter] at mem ⊢
        grind
    have apart : Disjoint ((s.tokens t).nodes.filterMap id).toFinset after.registered := by
      rw [Finset.disjoint_left]
      intro f mem active
      rw [<- made] at active
      simp only [List.mem_toFinset, List.mem_filterMap, id_eq, exists_eq_right] at mem
      simp only [State.registered, Finset.mem_filter, mem, if_true] at active
      exact absurd active.2 (by decide)
    have fewer := Finset.card_le_card inside
    rw [Finset.card_union_of_disjoint apart, List.toFinset_card_of_nodup listed] at fewer
    have stack : (after.stack.map Task.weight).sum =
        6 * ((s.tokens t).nodes.filterMap id).length + (s.stack.map Task.weight).sum := by
      rw [<- made, List.map_append, List.sum_append, weight_cancellation]
    have waiting : after.waiting = s.waiting := by
      rw [<- made]
      rfl
    simp only [State.potential, stack, waiting]
    omega

theorem potential_enter {s : State} (sound : Sound s) (api : Api) :
    (enter s api).potential ≤ s.potential + api.charge := by
  have created := potential_create sound
  cases api with
  | create => simp [enter, created]
  | fromResult result =>
      simp [enter, created, finish, Task.weight, Api.charge]
      omega
  | setResult f result | destroy f | observe f | attach f t | release f =>
      simp [enter, Task.weight, Continuation.weight, Api.charge]
      omega
  | get f =>
      simp only [enter]
      split <;> exact Nat.le_refl _
  | map f freeValue | flatMap f | onError f | doOnSuccess f =>
      simp [enter, operator, created, Task.weight, Continuation.weight, Api.charge]
      omega
  | group kind entries =>
      simp only [enter]
      split <;> (simp [created, finish, Task.weight, Api.charge]; omega)
  | zip first second freeValue =>
      simp [enter, created, Task.weight, Continuation.weight, Api.charge]
      omega
  | cancel t => exact potential_cancel sound t
  | registerCallback t =>
      simp only [enter]
      split
      · simp [Task.weight, Callback.weight]
      · exact Nat.le_add_right _ _
  | unregisterCallback t index | retain f => exact Nat.le_refl _

/-! ## Runs -/

/-- Each event is paid for. -/
theorem potential_next {s : State} {event : Event} (reached : machine.Reachable s)
    (may : machine.enabled s event) :
    (event == .step).toNat + (machine.next s event).potential ≤ s.potential + event.charge := by
  cases event with
  | step =>
      rcases may with ⟨task, rest, stack, runs⟩
      have lighter := potential_perform { s with stack := rest } task runs
      have same : ({ s with stack := rest } : State).push [task] = s := by
        simp [State.push, <- stack]
      rw [same] at lighter
      simp only [machine, next, stack, beq_self_eq_true, Bool.toNat_true]
      omega
  | call api =>
      have charged := potential_enter (reachable_sound reached) api
      change 0 + (enter s api).potential ≤ s.potential + api.charge
      omega
  | answer reply =>
      rcases may with ⟨client, rest, stack, _⟩
      have lighter := potential_afterCallback { s with stack := rest } client reply
      have same : s.potential = client.weight + ({ s with stack := rest } : State).potential := by
        have pushed := ({ s with stack := rest } : State).potential_push [.callback client]
        simp only [State.push, List.singleton_append, <- stack] at pushed
        simpa [Task.weight] using pushed
      change 0 + (next s (.answer reply)).potential ≤ s.potential + 0
      simp only [next, stack]
      omega
  | resume f | abandon f => exact Nat.le_of_eq (Nat.zero_add _)

/-- In every run the library takes no more steps than the calls have brought: at most 41 for a
call and 27 for each entry of an array, whatever the callbacks call in turn. -/
theorem workBound {s : State} {events : List Event} (run : machine.Run start events s) :
    events.count .step ≤ (events.map Event.charge).sum := by
  have paid := run.amortised State.potential (· == .step) Event.charge
    (fun _ _ => potential_next) (.start rfl)
  have nothing : start.potential = 0 := rfl
  rw [List.count]
  omega

/-- A flatMap and an observer of its output; the future that the mapper returns is completed last. -/
def flattened : List Event :=
  [Event.call .create, .call (.flatMap 0)] ++ List.replicate 4 Event.step ++
    [Event.call (.observe 1), .step, .step, .call (.setResult 0 ⟨0, some 7, true⟩)] ++
    List.replicate 4 Event.step ++ [Event.call .create, .answer (.future (some 2))] ++
    List.replicate 4 Event.step ++ [Event.call (.setResult 2 ⟨0, some 8, true⟩)] ++
    List.replicate 8 Event.step ++ [Event.answer .nothing] ++ List.replicate 4 Event.step

theorem workBound_flattened : flattened.count .step ≤ 56 := by
  have may : machine.AllEnabled start flattened := by decide
  exact workBound may.run

/-- A call comes to its end or to a callback in a bounded number of steps. -/
theorem callsReturn {s : State} (reached : machine.Reachable s) :
    Exists fun n => Exists fun after => machine.Run s (List.replicate n .step) after ∧
      n ≤ s.potential ∧ after.ClientRuns := by
  have lowers : forall s, machine.Reachable s -> True -> ¬s.ClientRuns ->
      Exists fun event => event = Event.step ∧ machine.enabled s event ∧ True ∧
        (machine.next s event).potential < s.potential := by
    intro s reached _ busy
    have may : machine.enabled s .step := by
      cases stack : s.stack with
      | nil => exact absurd (.inl stack) busy
      | cons task rest =>
          refine ⟨task, rest, stack, ?_⟩
          rintro client rfl
          exact busy (.inr ⟨client, rest, stack⟩)
    have paid := potential_next reached may
    simp only [beq_self_eq_true, Bool.toNat_true, Event.charge] at paid
    exact ⟨.step, rfl, may, trivial, by omega⟩
  rcases reached.settles State.potential (fun _ => True) State.ClientRuns (fun event => event = .step)
    lowers trivial with ⟨events, after, run, bound, steps, _, runs⟩
  have same : events = List.replicate events.length .step := List.eq_replicate_of_mem steps
  exact ⟨events.length, after, same ▸ run, bound, runs⟩

theorem callsReturn_flatMap :
    let s := machine.after start [.call .create, .call (.flatMap 0)]
    Exists fun n => Exists fun after => machine.Run s (List.replicate n .step) after ∧
      n ≤ s.potential ∧ after.ClientRuns := by
  have may : machine.AllEnabled start [.call .create, .call (.flatMap 0)] := by decide
  exact callsReturn (.run (.start rfl) may.run)

end Operator
end UfsrvRx
