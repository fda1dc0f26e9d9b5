import Mathlib.Algebra.BigOperators.Group.Finset.Piecewise
import UfsrvRx.Operator.Ledger

namespace UfsrvRx
namespace Operator

open Transition
open UfsrvRx.Future (Result ValueId epipe ecanceled einval)

/-!
# No step loses a value
-/

namespace Valued

variable {s after : State} {task : Task} {new : List Task}

/-- No future changes at all. -/
theorem still (ok : Valued (s.push [task])) (light : task.IsLight) (count : after.count = s.count)
    (given : after.given = s.given) (destroyed : after.destroyed = s.destroyed)
    (futures : after.futures = s.futures) (stack : after.stack = new ++ s.stack)
    (lights : forall other, other ∈ new -> other.IsLight)
    (seen : forall other, other ∈ new -> forall f, f ∈ other.results ->
      (s.futures f).isCompleted = true) : Valued after :=
  ok.quiet (.of_futures count given destroyed futures) light stack lights seen

/-- The result that the task has seen moves on. -/
theorem moveOn (ok : Valued (s.push [task])) (sound : Sound (s.push [task])) (f out : FutureId)
    (more : List Task) (quiet : Quiet s after) (light : task.IsLight) (touches : f ∈ task.touches)
    (sees : f ∈ task.results)
    (claimed : (s.futures f).isConsumed = false ∨ .claim f ∈ task.resources)
    (stack : after.stack = finish out (s.futures f).result ++ .zero f :: more ++ s.stack)
    (lights : forall other, other ∈ more -> other.IsLight)
    (seen : forall other, other ∈ more -> other.results = []) : Valued after := by
  have touched := sound.touched touches
  refine ok.move quiet light (Nat.ne_of_gt touched.1) touched.2 ?_ sees out stack lights seen
  intro mem
  have claim := sound.balanced (.claim f)
  rw [State.held_push, State.extra_push, State.total_push, List.count_append,
    List.flatMap_singleton] at claim
  simp only [State.total] at claim
  have pending : 0 < s.held.count (.claim f) := held_pos mem (List.mem_singleton.mpr rfl)
  rcases claimed with fresh | holds
  · rw [fresh, Bool.toNat_false] at claim
    omega
  · have once := List.count_pos_iff.mpr holds
    have bound := (s.futures f).isConsumed.toNat_le
    omega

theorem dropNode {f : FutureId} {references : Nat} (ok : Valued (s.push [task]))
    (light : task.IsLight) (count : after.count = s.count) (given : after.given = s.given)
    (destroyed : after.destroyed = s.destroyed) (futures : after.futures = s.futures)
    (stack : after.stack = s.stack) : Valued (after.dropNode f references) := by
  simp only [State.dropNode]
  split
  · have pushed : forall node, ((after.setNode f node).push [.release f]).stack =
        [.release f] ++ s.stack := by
      intro node
      simp only [State.push, State.setNode, stack]
    refine ok.still light count given destroyed futures (pushed _) ?_ ?_
    · simp [Task.IsLight, Task.holds]
    · simp [Task.results]
  · exact ok.retire (.of_futures count given destroyed futures) light stack

theorem light_run (f : FutureId) (continuation : Continuation) :
    Task.IsLight (.run f continuation) :=
  ⟨fun _ => rfl, by simp⟩

theorem runContinuation {f : FutureId} {continuation : Continuation}
    (ok : Valued (s.push [.run f continuation])) (sound : Sound (s.push [.run f continuation])) :
    Valued (Operator.runContinuation s f continuation) := by
  have light := light_run f continuation
  have completed : (s.futures f).isCompleted = true :=
    ok.seen _ List.mem_cons_self f List.mem_cons_self
  cases continuation with
  | observe =>
      refine ok.still light rfl rfl rfl rfl rfl ?_ ?_
      · simp [Task.IsLight, Task.holds]
      · simp [Task.results, Callback.touches, completed]
  | map out freeValue | flatMap out token | onError out | doOnSuccess out =>
      simp only [Operator.runContinuation]
      split
      · refine ok.still light rfl rfl rfl rfl rfl ?_ ?_
        · simp [Task.IsLight, Task.holds, finish]
        · simp [Task.results, Callback.touches, finish, completed]
      · refine ok.still light rfl rfl rfl rfl rfl ?_ ?_
        · simp [Task.IsLight, Task.holds]
        · simp [Task.results, Callback.touches, completed]
  | moveChain out =>
      refine ok.moveOn sound f out [] (.of_futures rfl rfl rfl rfl) light (by simp [Task.touches])
        (by simp [Task.results]) ?_ ?_ (by simp) (by simp)
      · exact .inr (by simp [Task.resources, Continuation.resources])
      · simp [Operator.runContinuation, State.push]
  | zip out isSecond =>
      simp only [Operator.runContinuation]
      split
      · refine ok.still light rfl rfl rfl rfl rfl ?_ ?_
        · simp [Task.IsLight, Task.holds]
        · simp [Task.results]
      · exact ok.retire (.of_futures rfl rfl rfl rfl) light rfl
  | group kind out =>
      cases kind with
      | all =>
          simp only [Operator.runContinuation]
          split
          · refine ok.still light rfl rfl rfl rfl rfl ?_ ?_
            · simp [Task.IsLight, Task.holds, finish]
            · simp [Task.results, finish]
          · refine ok.still light rfl rfl rfl rfl rfl ?_ ?_
            · simp [Task.IsLight, Task.holds]
            · simp [Task.results]
      | any =>
          simp only [Operator.runContinuation]
          split
          · refine ok.still light rfl rfl rfl rfl rfl ?_ ?_
            · simp [Task.IsLight, Task.holds]
            · simp [Task.results]
          · split
            · refine ok.still light rfl rfl rfl rfl rfl ?_ ?_
              · simp [Task.IsLight, Task.holds, finish]
              · simp [Task.results, finish]
            · rename_i fresh
              refine ok.moveOn sound f out [.subtract .any out false]
                (.setFuture rfl rfl rfl rfl rfl Iff.rfl rfl) light (by simp [Task.touches])
                (by simp [Task.results]) (.inl (by simpa using fresh)) ?_ ?_ ?_
              · simp [State.push, State.consume, State.setFuture, State.setGroup]
              · simp [Task.IsLight, Task.holds]
              · simp [Task.results]

theorem perform (ok : Valued (s.push [task])) (sound : Sound (s.push [task]))
    (runs : forall callback, task ≠ .callback callback) : Valued (Operator.perform s task) := by
  cases task with
  | setResult f result =>
      simp only [Operator.perform]
      split
      · exact ok.destroy (fun _ => rfl) (by simp)
      · refine ok.carry (.of_futures rfl rfl rfl rfl) (by simp) rfl (by simp) ?_ ?_
        · simp [Task.holds]
        · simp [Task.results]
  | destroyPromise f =>
      simp only [Operator.perform]
      split <;> refine ok.still ⟨fun _ => rfl, by simp⟩ rfl rfl rfl rfl rfl ?_ ?_ <;>
        simp [Task.IsLight, Task.holds, Task.results]
  | releasePromise f =>
      refine Valued.release ?_ sound.endPromise
      refine ok.still ⟨fun _ => rfl, by simp⟩ rfl rfl rfl rfl rfl ?_ ?_ <;>
        simp [Task.IsLight, Task.holds, Task.results]
  | complete f result =>
      have touched := sound.touched (f := f) (by simp [Task.touches])
      simp only [Operator.perform]
      split
      · exact ok.destroy (fun _ => rfl) (by simp)
      · rename_i pending
        refine ok.arrive touched.2 (Nat.ne_of_gt touched.1) (by simpa using pending) ?_ ?_
        · split <;> simp [Task.IsLight, Task.holds]
        · split <;> simp [Task.results]
  | drain f =>
      have completed : (s.futures f).isCompleted = true := sound.works _ List.mem_cons_self
      refine ok.quiet (.setFuture rfl rfl rfl rfl rfl Iff.rfl rfl) ⟨fun _ => rfl, by simp⟩ rfl ?_ ?_
      · intro other mem
        rcases List.mem_map.mp mem with ⟨entry, _, rfl⟩
        exact light_run f entry.2
      · intro other mem g sees
        rcases List.mem_map.mp mem with ⟨entry, _, rfl⟩
        rw [List.mem_singleton.mp sees]
        exact completed
  | run f continuation => exact ok.runContinuation sound
  | zero f => exact ok.zero (sound.touched (f := f) (by simp [Task.touches])).2
  | release f => exact ok.release sound
  | unregister f =>
      have light : Task.IsLight (.unregister f) := ⟨fun _ => rfl, by simp⟩
      simp only [Operator.perform]
      split <;> exact ok.dropNode light rfl rfl rfl rfl rfl
  | dropNode f => exact ok.dropNode ⟨fun _ => rfl, by simp⟩ rfl rfl rfl rfl rfl
  | attach f token =>
      have light : Task.IsLight (.attach f token) := ⟨fun _ => rfl, by simp⟩
      have touched := sound.touched (f := f) (by simp [Task.touches])
      have refcount : (s.futures f).refcount + 1 = 0 ↔ (s.futures f).refcount = 0 := by omega
      simp only [Operator.perform]
      split
      · exact ok.retire (.of_futures rfl rfl rfl rfl) light rfl
      · split <;> refine ok.quiet (.setFuture rfl rfl rfl rfl rfl refcount rfl) light rfl ?_ ?_ <;>
          simp [Task.IsLight, Task.holds, Task.results]
  | attached f =>
      have light : Task.IsLight (.attached f) := ⟨fun _ => rfl, by simp⟩
      simp only [Operator.perform]
      split
      · refine ok.still light rfl rfl rfl rfl rfl ?_ ?_ <;>
          simp [Task.IsLight, Task.holds, Task.results]
      · exact ok.retire (.setFuture rfl rfl rfl rfl rfl Iff.rfl rfl) light rfl
  | register f continuation =>
      have light : Task.IsLight (.register f continuation) := ⟨fun _ => rfl, by simp⟩
      simp only [Operator.perform]
      split
      · rename_i ended
        have completed : (s.futures f).isCompleted = true := by
          rcases ended with completed | closed
          · exact completed
          · exact sound.closed f closed
        refine ok.still light rfl rfl rfl rfl rfl ?_ ?_ <;>
          simp [Task.IsLight, Task.holds, Task.results, completed]
      · exact ok.retire (.of_futures rfl rfl rfl rfl) light rfl
  | claimInner out inner =>
      have light : Task.IsLight (.claimInner out inner) := ⟨fun _ => rfl, by simp⟩
      simp only [Operator.perform]
      split
      · refine ok.still light rfl rfl rfl rfl rfl ?_ ?_ <;>
          simp [Task.IsLight, Task.holds, Task.results, finish]
      · refine ok.quiet (.setFuture rfl rfl rfl rfl rfl Iff.rfl rfl) light rfl ?_ ?_ <;>
          simp [Task.IsLight, Task.holds, Task.results]
  | claimInput f out =>
      have light : Task.IsLight (.claimInput f out) := ⟨fun _ => rfl, by simp⟩
      simp only [Operator.perform]
      split
      · refine ok.still light rfl rfl rfl rfl rfl ?_ ?_ <;>
          simp [Task.IsLight, Task.holds, Task.results, finish]
      · rename_i fresh
        refine ok.moveOn sound f out [] (.setFuture rfl rfl rfl rfl rfl Iff.rfl rfl) light
          (by simp [Task.touches]) (by simp [Task.results]) (.inl (by simpa using fresh)) ?_
          (by simp) (by simp)
        simp [State.push, State.consume, State.setFuture]
  | inherit f out =>
      have light : Task.IsLight (.inherit f out) := ⟨fun _ => rfl, by simp⟩
      simp only [Operator.perform]
      split
      · refine ok.still light rfl rfl rfl rfl rfl ?_ ?_ <;>
          simp [Task.IsLight, Task.holds, Task.results]
      · exact ok.retire (.of_futures rfl rfl rfl rfl) light rfl
  | loop kind out entries =>
      have light : Task.IsLight (.loop kind out entries) := ⟨fun _ => rfl, by simp⟩
      cases entries with
      | nil => exact ok.retire (.of_futures rfl rfl rfl rfl) light rfl
      | cons entry entries =>
          have one : forall entered : Task, entered.IsLight -> entered.results = [] ->
              Valued ((s.push [.loop kind out entries]).push [entered]) := by
            intro entered lightEntered none
            have stack : ((s.push [.loop kind out entries]).push [entered]).stack =
                [entered, .loop kind out entries] ++ s.stack := rfl
            refine ok.still light rfl rfl rfl rfl stack ?_ ?_
            · intro other mem
              rcases List.mem_cons.mp mem with rfl | mem
              · exact lightEntered
              · rw [List.mem_singleton.mp mem]
                exact ⟨fun _ => rfl, by simp⟩
            · intro other mem f sees
              rcases List.mem_cons.mp mem with rfl | mem
              · rw [none] at sees
                cases sees
              · rw [List.mem_singleton.mp mem] at sees
                cases sees
          cases entry with
          | some f => exact one _ ⟨fun _ => rfl, by simp⟩ rfl
          | none =>
              cases kind with
              | any => exact one _ ⟨fun _ => rfl, by simp⟩ rfl
              | all =>
                  simp only [Operator.perform, visit]
                  split
                  · exact one _ ⟨fun _ => rfl, by simp⟩ rfl
                  · have taken := one (.subtract .all out false) ⟨fun _ => rfl, by simp⟩ rfl
                    refine taken.still ⟨fun _ => rfl, by simp⟩ rfl rfl rfl rfl rfl ?_ ?_ <;>
                      simp [Task.IsLight, Task.holds, Task.results, finish]
  | subtract kind out refused =>
      have light : Task.IsLight (.subtract kind out refused) := ⟨fun _ => rfl, by simp⟩
      have spent : Valued (s.setGroup out { s.groups out with
          remaining := (s.groups out).remaining - 1 }) :=
        ok.retire (.of_futures rfl rfl rfl rfl) light rfl
      have last : forall result, (forall value, holds result value = 0) ->
          Valued ((s.setGroup out { s.groups out with
            remaining := (s.groups out).remaining - 1 }).push (finish out result)) := by
        intro result none
        refine ok.still light rfl rfl rfl rfl rfl ?_ ?_ <;>
          simp [Task.IsLight, Task.holds, Task.results, finish, none]
      simp only [Operator.perform]
      split
      · cases kind <;> cases refused
        · exact last .zero fun _ => rfl
        · exact spent
        · exact spent
        · exact last (.ofError einval) fun _ => rfl
      · exact spent
  | zipComplete out first second =>
      have light : Task.IsLight (.zipComplete out first second) := ⟨fun _ => rfl, by simp⟩
      simp only [Operator.perform]
      split <;> refine ok.still light rfl rfl rfl rfl rfl ?_ ?_ <;>
        simp [Task.IsLight, Task.holds, Task.results, Callback.touches, zipFinish, finish]
  | deliver out | leave arguments | leaveSet f =>
      exact ok.retire (.of_futures rfl rfl rfl rfl) ⟨fun _ => rfl, by simp⟩ rfl
  | callback callback => exact absurd rfl (runs callback)

theorem answer {callback : Callback} {reply : Reply} (ok : Valued (s.push [.callback callback]))
    (replied : replies (s.push [.callback callback]) callback reply) :
    Valued (afterCallback s callback reply) := by
  have light : Task.IsLight (.callback callback) := ⟨fun _ => rfl, by simp⟩
  cases callback with
  | observer f | cancelled =>
      rw [replied]
      exact ok.retire (.of_futures rfl rfl rfl rfl) light rfl
  | action f out =>
      have completed : (s.futures f).isCompleted = true :=
        ok.seen _ List.mem_cons_self f (by simp [Task.results, Callback.touches])
      refine ok.still light rfl rfl rfl rfl rfl ?_ ?_ <;>
        simp [Task.IsLight, Task.holds, Task.results, completed]
  | mapper f out freeValue =>
      rcases replied with ⟨value, rfl⟩
      refine ok.give light ?_ ?_ ?_ <;> simp [finish, Task.holds, Task.results]
  | zipper out first second =>
      rcases replied with ⟨value, rfl⟩
      refine ok.give light ?_ ?_ ?_ <;> simp [zipFinish, finish, Task.holds, Task.results]
  | flatMapper f out token =>
      rcases replied with rfl | ⟨inner, rfl, _⟩
      · refine ok.still light rfl rfl rfl rfl rfl ?_ ?_ <;>
          simp [Task.IsLight, Task.holds, Task.results, finish]
      · cases token <;> refine ok.still light rfl rfl rfl rfl rfl ?_ ?_ <;>
          simp [Task.IsLight, Task.holds, Task.results]
  | recovery f out =>
      rcases replied with rfl | ⟨inner, rfl, _⟩
      · refine ok.still light rfl rfl rfl rfl rfl ?_ ?_ <;>
          simp [Task.IsLight, Task.holds, Task.results, finish]
      · refine ok.still light rfl rfl rfl rfl rfl ?_ ?_ <;>
          simp [Task.IsLight, Task.holds, Task.results]

/-- A call begins that carries nothing. -/
theorem leaving (ok : Valued s) : Valued (s.push [.leave []]) where
  conserved := by
    intro value
    have before := ok.conserved value
    have resting := State.resting_congr s value (s.push [.leave []]) rfl fun f => by
      simp [State.cellHolds, State.push]
    rw [resting]
    simpa [State.travelling, State.push, Task.holds] using before
  blank := ok.blank
  seen := by
    intro other mem f sees
    rcases List.mem_cons.mp mem with rfl | mem
    · cases sees
    · exact ok.seen other mem f sees

/-- A future is made, and nothing else changes. -/
theorem createdOnly (ok : Valued s) (sound : Sound s) (isClient : Bool)
    (count : after.count = s.count + 1) (given : after.given = s.given)
    (destroyed : after.destroyed = s.destroyed)
    (futures : after.futures = (s.create isClient).futures)
    (stack : after.stack = new ++ s.stack) (lights : forall other, other ∈ new -> other.IsLight)
    (seen : forall other, other ∈ new -> other.results = []) : Valued after := by
  have others : forall f, f ≠ s.count -> after.futures f = s.futures f := by
    intro f other
    rw [futures]
    exact Function.update_of_ne other _ _
  refine ok.created sound count given destroyed ?_ ?_ ?_ ?_ stack lights seen
  · simp [futures, State.create]
  · intro f other
    rw [others f other]
  · intro f other
    rw [others f other]
  · intro f other
    rw [others f other]

theorem operator (ok : Valued s) (sound : Sound s) (f : FutureId)
    (continuation : FutureId -> Continuation) : Valued (Operator.operator s f continuation) := by
  refine ok.createdOnly sound false rfl rfl rfl rfl rfl ?_ ?_
  · simp [Task.IsLight, Task.holds]
  · simp [Task.results]

theorem enter {api : Api} (ok : Valued s) (sound : Sound s) (allowed : permitted s api) :
    Valued (Operator.enter s api) := by
  have leaving := ok.leaving
  have light : Task.IsLight (.leave []) := ⟨fun _ => rfl, by simp⟩
  have held : forall f, 0 < s.clientRefs f -> 0 < (s.futures f).refcount ∧ f ≠ s.count := by
    intro f client
    have refcount := sound.refcount_of_client client
    exact ⟨refcount, Nat.ne_of_lt (sound.lt_count refcount)⟩
  cases api with
  | create =>
      have stack : (Operator.enter s .create).stack = [] ++ s.stack := rfl
      exact ok.createdOnly sound true rfl rfl rfl rfl stack (by simp) (by simp)
  | fromResult result =>
      have made : Valued ((s.create false).push [.leave []]) := by
        refine ok.createdOnly sound false rfl rfl rfl rfl rfl ?_ ?_
        · simp [Task.IsLight, Task.holds]
        · simp [Task.results]
      refine made.give light ?_ ?_ ?_ <;> simp [finish, Task.holds, Task.results]
  | setResult f result =>
      refine leaving.give light ?_ ?_ ?_ <;> simp [Task.holds, Task.results]
  | destroy f =>
      refine leaving.still light rfl rfl rfl rfl rfl ?_ ?_ <;>
        simp [Task.IsLight, Task.holds, Task.results]
  | observe f | attach f token =>
      refine leaving.still light rfl rfl rfl rfl rfl ?_ ?_ <;>
        simp [Task.IsLight, Task.holds, Task.results]
  | get f =>
      simp only [Operator.enter]
      split
      · exact ok
      · exact leaving.retire (.setFuture rfl rfl rfl rfl rfl Iff.rfl rfl) light rfl
  | map f freeValue => exact ok.operator sound f fun out => .map out freeValue
  | flatMap f => exact ok.operator sound f fun out => .flatMap out (s.futures f).cancelToken
  | onError f => exact ok.operator sound f .onError
  | doOnSuccess f => exact ok.operator sound f .doOnSuccess
  | group kind entries =>
      simp only [Operator.enter]
      split
      · refine ok.createdOnly sound false rfl rfl rfl rfl rfl ?_ ?_
        · simp [Task.IsLight, Task.holds, finish]
        · simp [Task.results, finish]
      · refine ok.createdOnly sound false rfl rfl rfl rfl rfl ?_ ?_
        · simp [Task.IsLight, Task.holds]
        · simp [Task.results]
  | zip first second freeValue =>
      have heldFirst := held first allowed.1
      have heldSecond := held second allowed.2
      refine ok.created sound rfl rfl rfl ?_ ?_ ?_ ?_ rfl ?_ ?_
      · simp only [Operator.enter, State.push, State.retain, State.setZip, State.setFuture,
          State.create]
        grind
      · intro f other
        simp only [Operator.enter, State.push, State.retain, State.setZip, State.setFuture,
          State.create]
        grind
      · intro f other
        simp only [Operator.enter, State.push, State.retain, State.setZip, State.setFuture,
          State.create]
        grind
      · intro f other
        simp only [Operator.enter, State.push, State.retain, State.setZip, State.setFuture,
          State.create]
        grind
      · simp [Task.IsLight, Task.holds]
      · simp [Task.results]
  | cancel token =>
      simp only [Operator.enter]
      split
      · exact ok
      · have members : forall {task : Task}, task ∈ (s.tokens token).nodes.flatMap cancellation ->
            task = .callback .cancelled ∨ Exists fun f =>
              task = .complete f (.ofError ecanceled) ∨ task = .dropNode f := by
          intro task mem
          rcases List.mem_flatMap.mp mem with ⟨entry, _, mem⟩
          cases entry with
          | none => exact .inl (List.mem_singleton.mp mem)
          | some f => exact .inr ⟨f, by simpa [cancellation] using mem⟩
        refine leaving.still light rfl rfl rfl rfl rfl ?_ ?_
        · intro other mem
          rcases members mem with rfl | ⟨f, rfl | rfl⟩ <;>
            simp [Task.IsLight, Task.holds]
        · intro other mem f sees
          rcases members mem with rfl | ⟨f, rfl | rfl⟩ <;> cases sees
  | registerCallback token =>
      simp only [Operator.enter]
      split
      · refine leaving.still light rfl rfl rfl rfl rfl ?_ ?_ <;>
          simp [Task.IsLight, Task.holds, Task.results, Callback.touches]
      · exact leaving.retire (.of_futures rfl rfl rfl rfl) light rfl
  | unregisterCallback token index =>
      exact leaving.retire (.of_futures rfl rfl rfl rfl) light rfl
  | retain f =>
      have refcount : (s.futures f).refcount + 1 = 0 ↔ (s.futures f).refcount = 0 := by
        have positive := (held f allowed).1
        omega
      exact leaving.retire (.setFuture rfl rfl rfl rfl rfl refcount rfl) light rfl
  | release f =>
      refine leaving.still light rfl rfl rfl rfl rfl ?_ ?_ <;>
        simp [Task.IsLight, Task.holds, Task.results]

theorem next {event : Event} (ok : Valued s) (sound : Sound s) (enabled : enabled s event) :
    Valued (Operator.next s event) := by
  cases event with
  | step =>
      rcases enabled with ⟨task, rest, stack, runs⟩
      have pushed : ({ s with stack := rest } : State).push [task] = s := by
        simp only [State.push, List.cons_append, List.nil_append, <- stack]
      simp only [Operator.next, stack]
      exact Valued.perform (pushed ▸ ok) (pushed ▸ sound) runs
  | call api => exact ok.enter sound enabled.2
  | answer reply =>
      rcases enabled with ⟨callback, rest, stack, replied⟩
      have pushed : ({ s with stack := rest } : State).push [.callback callback] = s := by
        simp only [State.push, List.cons_append, List.nil_append, <- stack]
      simp only [Operator.next, stack]
      exact Valued.answer (pushed ▸ ok) (pushed ▸ replied)
  | resume f | abandon f => exact { ok with }

end Valued

theorem valued_start : Valued start where
  conserved := by
    intro value
    rfl
  blank := fun _ _ => rfl
  seen := by simp [start]

theorem reachable_valued {s : State} (reached : machine.Reachable s) : Valued s := by
  refine reached.invariant Valued ?_ ?_
  · rintro _ rfl
    exact valued_start
  · intro before event reached ok enabled
    exact ok.next (reachable_sound reached) enabled

/-! ## Between calls -/

/-- A future that was not freed has the value as its result. -/
def State.Has (s : State) (f : FutureId) (value : ValueId) : Prop :=
  f < s.count ∧ 0 < (s.futures f).refcount ∧ (s.futures f).result.owned = some value

theorem cellHolds_between {s : State} {f : FutureId} {value : ValueId} (empty : s.stack = []) :
    s.cellHolds value f = if 0 < (s.futures f).refcount ∧ (s.futures f).result.owned = some value
      then 1 else 0 := by
  simp only [State.cellHolds, empty, List.not_mem_nil, or_false, holds]
  grind

/-- Between calls a value that was not destroyed is the result of one future. -/
theorem Valued.held_once {s : State} (valued : Valued s) (between : s.stack = []) {value : ValueId}
    (given : s.given value = 1) (destroyed : s.destroyed value = 0) :
    Exists fun f => s.Has f value ∧ forall other, s.Has other value -> other = f := by
  have conserved := valued.conserved value
  have travelling : s.travelling value = 0 := by simp [State.travelling, between]
  have resting : s.resting value = 1 := by omega
  simp only [State.resting, cellHolds_between between] at resting
  rw [<- Finset.card_filter] at resting
  rcases Finset.card_eq_one.mp resting with ⟨f, only⟩
  have members : forall other, s.Has other value ↔ other = f := by
    intro other
    have mem := Finset.ext_iff.mp only other
    simpa [State.Has] using mem
  exact ⟨f, (members f).mpr rfl, fun other has => (members other).mp has⟩

/-- When all futures are freed, each value was destroyed as often as it was handed over. -/
theorem Valued.destroyed_of_freed {s : State} (valued : Valued s) (between : s.stack = [])
    (free : forall f, (s.futures f).refcount = 0) (value : ValueId) :
    s.destroyed value = s.given value := by
  have conserved := valued.conserved value
  have travelling : s.travelling value = 0 := by simp [State.travelling, between]
  have resting : s.resting value = 0 := by
    refine Finset.sum_eq_zero ?_
    intro f _
    exact if_pos (.inl (free f))
  omega

end Operator
end UfsrvRx
