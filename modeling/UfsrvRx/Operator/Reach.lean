import UfsrvRx.Operator.Client

namespace UfsrvRx
namespace Operator

open Transition
open UfsrvRx.Future (Result ValueId epipe ecanceled einval)

/-!
# The invariant holds in every run
-/

namespace Sound

variable {s : State}

theorem perform {task : Task} (ok : Sound (s.push [task]))
    (runs : forall callback, task ≠ .callback callback) : Sound (Operator.perform s task) := by
  cases task with
  | setResult f result => exact ok.setResult
  | destroyPromise f => exact ok.destroyPromise
  | releasePromise f => exact ok.releasePromise
  | complete f result => exact ok.complete
  | drain f => exact ok.drain
  | run f continuation => exact ok.runContinuation
  | zero f => exact ok.zero
  | release f => exact ok.release
  | unregister f => exact ok.unregister
  | attach f token => exact ok.attach
  | attached f => exact ok.attached
  | dropNode f => exact ok.dropNode
  | register f continuation => exact ok.register
  | claimInner out inner => exact ok.claimInner
  | claimInput f out => exact ok.claimInput
  | inherit f out => exact ok.inherit
  | deliver out => exact ok.deliver
  | loop kind out entries => exact ok.loop
  | subtract kind out refused => exact ok.subtract
  | zipComplete out first second => exact ok.zipComplete
  | callback callback => exact absurd rfl (runs callback)
  | leave arguments => exact ok.leave
  | leaveSet f => exact ok.leaveSet

theorem enter {api : Api} (ok : Sound s) (runs : s.ClientRuns) (permitted : permitted s api) :
    Sound (Operator.enter s api) := by
  have plain := runs.plain
  cases api with
  | create => exact ok.createApi plain
  | fromResult result => exact ok.fromResult plain
  | setResult f result => exact ok.setResultApi plain permitted
  | destroy f => exact ok.destroyApi plain permitted.1 permitted.2
  | observe f => exact ok.observe plain permitted
  | get f => exact ok.get permitted
  | map f freeValue => exact ok.operator (fun out => .map out freeValue) plain permitted rfl
  | flatMap f =>
      exact ok.operator (fun out => .flatMap out (s.futures f).cancelToken) plain permitted rfl
  | onError f => exact ok.operator .onError plain permitted rfl
  | doOnSuccess f => exact ok.operator .doOnSuccess plain permitted rfl
  | group kind entries => exact ok.group plain permitted
  | zip first second freeValue => exact ok.zip plain permitted.1 permitted.2
  | attach f token => exact ok.attachApi plain permitted
  | cancel token => exact ok.cancel plain
  | registerCallback token => exact ok.registerCallback plain
  | unregisterCallback token index => exact ok.unregisterCallback permitted
  | retain f => exact ok.retain plain permitted
  | release f => exact ok.releaseApi plain permitted

theorem next {event : Event} (ok : Sound s) (enabled : enabled s event) :
    Sound (Operator.next s event) := by
  cases event with
  | step =>
      rcases enabled with ⟨task, rest, stack, runs⟩
      have pushed : ({ s with stack := rest } : State).push [task] = s := by
        simp only [State.push, List.cons_append, List.nil_append, <- stack]
      simp only [Operator.next, stack]
      exact Sound.perform (pushed ▸ ok) runs
  | call api => exact ok.enter enabled.1 enabled.2
  | answer reply =>
      rcases enabled with ⟨callback, rest, stack, replied⟩
      have pushed : ({ s with stack := rest } : State).push [.callback callback] = s := by
        simp only [State.push, List.cons_append, List.nil_append, <- stack]
      simp only [Operator.next, stack]
      exact Sound.answer (pushed ▸ ok) (pushed ▸ replied)
  | resume f | abandon f => exact ok.resume

end Sound

theorem sound_start : Sound start where
  balanced := by
    intro r
    cases r <;> simp [start, State.held, State.extra, State.total, State.zipRefs]
  anchored := trivial
  works := by simp [start]
  fresh := fun _ _ => ⟨rfl, rfl, rfl, rfl, rfl, rfl, rfl⟩
  waits := by simp [start]
  closed := by simp [start]
  drained := by simp [start]
  fulfilled := by simp [start]
  dead := by simp [start]
  freed := by simp [start]
  alone := by simp [start]
  listed := by simp [start]
  pair := by simp [start]
  handles := by simp [start]
  given := by simp [start]
  idle := by simp [start]
  owned := by simp [start]
  gets := by simp [start]

theorem reachable_sound {s : State} (reached : machine.Reachable s) : Sound s := by
  refine reached.invariant Sound ?_ ?_
  · rintro _ rfl
    exact sound_start
  · intro before event _ ok enabled
    exact ok.next enabled

/-! ## Between calls -/

/-- The references to a future that somebody has when no call is in progress: its promise, the
client, its registration with a token, and the contexts of `sFutureZip`. -/
def State.outstanding (s : State) (f : FutureId) : Nat :=
  (s.promises f).isLive.toNat + s.clientRefs f + (if 0 < (s.nodes f).refcount then 1 else 0) +
    s.zipRefs f

/-- Between calls only promises, shares of contexts and claims are held. -/
theorem held_between {s : State} (empty : s.stack = []) {r : Resource}
    (never : forall (continuation : Continuation) f, r ∉ continuation.resources f) :
    s.held.count r = 0 := by
  rw [List.count_eq_zero]
  intro mem
  rw [State.held, empty, List.flatMap_nil, List.nil_append] at mem
  rcases List.mem_flatMap.mp mem with ⟨entry, _, holds⟩
  exact never entry.2 entry.1 holds

namespace Sound

variable {s : State}

theorem refcount_outstanding (ok : Sound s) (empty : s.stack = []) (f : FutureId) :
    (s.futures f).refcount = s.outstanding f := by
  have balanced := ok.balanced (.reference f)
  have none : s.held.count (.reference f) = 0 := by
    refine held_between empty ?_
    intro continuation g
    cases continuation <;> simp [Continuation.resources]
  simp only [State.extra, State.total] at balanced
  simp only [State.outstanding]
  omega

/-- Without promises and references of the client no future is left. -/
theorem refcount_zero (ok : Sound s) (empty : s.stack = [])
    (promises : forall f, (s.promises f).isLive = false) (client : forall f, s.clientRefs f = 0)
    (f : FutureId) : (s.futures f).refcount = 0 := by
  by_cases inside : f < s.count
  · have completed : (s.futures f).isCompleted = true := by
      rcases ok.fulfilled f (ok.dead f inside (promises f)) with completed | ⟨result, head⟩
      · exact completed
      · rw [empty] at head
        cases head
    have node : (s.nodes f).refcount = 0 := by
      have balanced := ok.balanced (.node f)
      have none : s.held.count (.node f) = 0 := by
        refine held_between empty ?_
        intro continuation g
        cases continuation <;> simp [Continuation.resources]
      have pair := ok.pair f
      have bound := (s.nodes f).isActive.toNat_le
      simp only [State.extra, State.total, ok.given f completed, Bool.toNat_false] at balanced
      cases active : (s.nodes f).isActive with
      | true =>
          have two := pair active
          omega
      | false =>
          rw [active, Bool.toNat_false] at balanced
          omega
    have zips : s.zipRefs f = 0 := by
      refine Finset.sum_eq_zero ?_
      intro out _
      have balanced := ok.balanced (.promise out)
      simp only [State.extra, State.total, promises out, Bool.toNat_false] at balanced
      refine if_neg ?_
      intro pending
      rw [if_pos pending] at balanced
      omega
    rw [ok.refcount_outstanding empty f]
    simp [State.outstanding, promises f, client f, node, zips]
  · rw [(ok.fresh f (Nat.le_of_not_lt inside)).cell]
    rfl

end Sound

end Operator
end UfsrvRx
