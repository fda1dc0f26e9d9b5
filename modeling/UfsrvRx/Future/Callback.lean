import UfsrvRx.Future.Core

namespace UfsrvRx
namespace Future

/-!
# The registry inside the future

The registry only takes steps of its own inside the future, so everything that
holds of its reachable states holds here.  What the future adds is described in
this module: which point of an attachment corresponds to which point of its
registration, and that the callback of a registration is one call of
`sFutureComplete`.
-/

/-! ## The component -/

/-- What the future does when the registry takes a step. -/
theorem react_cases (s : State) (event : Cancellation.Event) :
    s.react event = s ∨
      (Exists fun n => event.starts = some n ∧ s.Attached n ∧
        s.react event = s.setComplete (.cancel n) .entered) ∨
      s.react event = { s with refcount := s.refcount - 1 } := by
  unfold State.react
  cases starts : event.starts with
  | some n =>
      by_cases attached : s.Attached n
      · exact Or.inr (Or.inl ⟨n, rfl, attached, if_pos attached⟩)
      · exact Or.inl (if_neg attached)
  | none =>
      cases hookOf event with
      | none => exact Or.inl rfl
      | some n =>
          by_cases attached : s.Attached n
          · exact Or.inr (Or.inr (if_pos attached))
          · exact Or.inl (if_neg attached)

theorem registry_passHandle (s : State) (node : NodeId) :
    (s.passHandle node).registry = s.registry ∨
      Cancellation.enabled s.registry (.unregisterLock node) ∧
        (s.passHandle node).registry = Cancellation.next s.registry (.unregisterLock node) := by
  by_cases live : (s.registry.registrations node).register = .returned ∧
      (s.registry.registrations node).unregister = .idle
  · exact Or.inr ⟨live, if_pos live⟩
  · exact Or.inl (if_neg live)

theorem registry_next (s : State) (event : Event) (may : enabled s event) :
    (next s event).registry = s.registry ∨
      Exists fun inner => Cancellation.enabled s.registry inner ∧
        (next s event).registry = Cancellation.next s.registry inner := by
  cases event with
  | registry inner => exact Or.inr ⟨inner, may.1, rfl⟩
  | attachRetainToken node => exact Or.inr ⟨_, may.2, rfl⟩
  | attachDestroyToken node call => exact Or.inr ⟨_, may.2, rfl⟩
  | completeUnregister who node =>
      exact (registry_passHandle s node).imp_right fun stepped => ⟨_, stepped⟩
  | attachUnregister node handle =>
      exact (registry_passHandle s handle).imp_right fun stepped => ⟨_, stepped⟩
  | setExchange call result => exact Or.inl (by simp only [next]; split <;> rfl)
  | destroyExchange => exact Or.inl (by simp only [next]; split <;> rfl)
  | completeExchange who => exact Or.inl (by simp only [next]; split <;> rfl)
  | completeTake who => exact Or.inl (by simp only [next]; split <;> rfl)
  | completeClaim who node rest => exact Or.inl (by simp only [next]; split <;> rfl)
  | thenLoad node => exact Or.inl (by simp only [next]; split <;> rfl)
  | thenPush node => exact Or.inl (by simp only [next]; split <;> rfl)
  | attachClaim node => exact Or.inl (by simp only [next]; split <;> rfl)
  | attachTake node => exact Or.inl (by simp only [next]; split <;> rfl)
  | _ => exact Or.inl rfl

theorem reachable_registry {s : State} (reached : machine.Reachable s) :
    Cancellation.machine.Reachable s.registry := by
  refine reached.component Cancellation.machine State.registry ?_ registry_next
  intro s initial
  rw [show s = start from initial]
  exact rfl

theorem run_registry {s after : State} {events : List Event} (run : machine.Run s events after) :
    Exists fun inner => Cancellation.machine.Run s.registry inner after.registry :=
  run.component Cancellation.machine State.registry registry_next

/-! ## Attachments and their registrations -/

/-- How far an attachment has come, seen from its registration. -/
inductive Stage
  | outside
  | before
  | during
  | after
  | failed
deriving DecidableEq, Repr

namespace AttachFrame

@[simp, grind =] def stage : AttachFrame -> Stage
  | idle => .outside
  | claiming | retainingToken | retainingFuture => .before
  | registering => .during
  | storing | checking | taking | unregistering _ | awaiting _ | returned true => .after
  | rollingBack | destroyingToken _ | releasingFuture | returned false => .failed

theorem idle_of_outside {frame : AttachFrame} (outside : frame.stage = .outside) :
    frame = .idle := by
  cases frame with
  | returned attached => cases attached <;> cases outside
  | idle => rfl
  | _ => cases outside

end AttachFrame

/-- One attachment, its registration, and the call of `sFutureComplete` that its
callback makes. -/
structure AttachOk (call : AttachCall) (entry : Cancellation.Registration)
    (frame : CompleteFrame) : Prop where
  outside : call.frame = .idle -> frame = .idle
  before : call.frame.stage = .before -> entry.register = .idle
  after : call.frame.stage = .after -> entry.register = .returned
  failed : call.frame.stage = .failed -> entry.register = .idle ∨ entry.register = .refused
  made : call.frame ≠ .idle -> entry.register ≠ .idle -> entry.register ≠ .refused ->
    entry.cb.token = call.token ∧ entry.cb.releaseContext = true
  started : call.frame ≠ .idle -> (frame = .idle ↔ entry.started = 0)
  finished : call.frame ≠ .idle -> entry.finished ≠ 0 ->
    Exists fun won => frame = .returned won

def Linked (s : State) : Prop :=
  forall n, AttachOk (s.attach n) (s.registry.registrations n) (s.complete (.cancel n))

namespace AttachOk

variable {call : AttachCall} {entry : Cancellation.Registration} {frame : CompleteFrame}

/-- The completing call moves on inside the callback. -/
theorem setFrame (ok : AttachOk call entry frame) {moved : CompleteFrame} (busy : frame ≠ .idle)
    (open_ : forall won, frame ≠ .returned won) (still : moved ≠ .idle) :
    AttachOk call entry moved := by
  refine { ok with outside := ?_, started := ?_, finished := ?_ }
  · intro idle
    exact absurd (ok.outside idle) busy
  · intro attached
    have started := ok.started attached
    simp only [still, false_iff]
    exact fun zero => busy (started.mpr zero)
  · intro attached finished
    rcases ok.finished attached finished with ⟨won, returned⟩
    exact absurd returned (open_ won)

/-- The attachment moves on without changing its stage. -/
theorem setCall (ok : AttachOk call entry frame) {moved : AttachFrame}
    (busy : call.frame ≠ .idle) (still : moved ≠ .idle)
    (before : moved.stage = .before -> entry.register = .idle)
    (after : moved.stage = .after -> entry.register = .returned)
    (failed : moved.stage = .failed -> entry.register = .idle ∨ entry.register = .refused) :
    AttachOk { call with frame := moved } entry frame where
  outside := fun idle => absurd idle still
  before := before
  after := after
  failed := failed
  made := fun _ => ok.made busy
  started := fun _ => ok.started busy
  finished := fun _ => ok.finished busy

end AttachOk

namespace Linked

variable {s : State}

/-- The callback of an attachment is called when it has not been called before. -/
theorem uncalled (ok : Linked s) (reached : Cancellation.machine.Reachable s.registry)
    {event : Cancellation.Event} (may : Cancellation.enabled s.registry event) {n : NodeId}
    (starts : event.starts = some n) (attached : s.Attached n) :
    s.complete (.cancel n) = .idle := by
  have reachedNext : Cancellation.machine.Reachable (Cancellation.next s.registry event) :=
    .step reached may
  rcases Cancellation.reachable_consistent reachedNext with ⟨_, _, _, consistent⟩
  have once := consistent.started_le n
  rw [(Cancellation.history_next s.registry event n).1, if_pos starts] at once
  exact ((ok n).started attached).mpr (by omega)

/-- A step of the registry, seen from registration `n`. -/
theorem registryStep (ok : Linked s) (reached : Cancellation.machine.Reachable s.registry)
    {event : Cancellation.Event} (may : Cancellation.enabled s.registry event) {n : NodeId}
    {frame : CompleteFrame}
    (refused : forall t, event = .registerRefused n t -> s.Attached n ->
      (s.attach n).frame = .registering)
    (allocated : forall t hook, event = .registerAlloc n t hook -> s.Attached n ->
      (s.attach n).frame = .registering ∧ (s.attach n).token = t ∧ hook = true)
    (returns : event.finishes = some n -> s.Attached n ->
      Exists fun won => s.complete (.cancel n) = .returned won)
    (called : frame = if event.starts = some n ∧ s.Attached n then .entered
      else s.complete (.cancel n)) :
    AttachOk (s.attach n) ((Cancellation.next s.registry event).registrations n) frame := by
  have here := ok n
  have evolves := Cancellation.evolves_next may n
  have history := Cancellation.history_next s.registry event n
  have stays (idle : (s.registry.registrations n).register = .idle) (attached : s.Attached n)
      (early : (s.attach n).frame ≠ .registering) :
      ((Cancellation.next s.registry event).registrations n).register = .idle := by
    rcases Cancellation.register_idle_next may idle with same | ⟨t, first⟩ | ⟨t, hook, first⟩
    · exact same
    · exact absurd (refused t first attached) early
    · exact absurd (allocated t hook first attached).1 early
  constructor
  · intro idle
    have foreign : ¬ s.Attached n := not_not.mpr idle
    rw [called, if_neg (fun both => foreign both.2)]
    exact here.outside idle
  · intro stage
    have attached : s.Attached n := fun idle => by simp [idle] at stage
    exact stays (here.before stage) attached (fun early => by simp [early] at stage)
  · intro stage
    exact evolves.returned (here.after stage)
  · intro stage
    have attached : s.Attached n := fun idle => by simp [idle] at stage
    rcases here.failed stage with idle | refused
    · exact Or.inl (stays idle attached (fun early => by simp [early] at stage))
    · exact Or.inr (evolves.refused refused)
  · intro attached begun accepted
    by_cases idle : (s.registry.registrations n).register = .idle
    · rcases Cancellation.register_idle_next may idle with same | ⟨t, first⟩ | ⟨t, hook, first⟩
      · exact absurd same begun
      · subst event
        simp [Cancellation.next] at accepted
      · have mine := allocated t hook first attached
        subst event
        simp [Cancellation.next, mine.2.1, mine.2.2]
    · have before := here.made attached idle
        (fun refused => accepted (evolves.refused refused))
      rw [evolves.token idle, evolves.hook idle]
      exact before
  · intro attached
    have started := here.started attached
    rw [called, history.1]
    by_cases starts : event.starts = some n
    · rw [if_pos ⟨starts, attached⟩, if_pos starts]
      simp
    · rw [if_neg (fun both => starts both.1), if_neg starts]
      exact started
  · intro attached finished
    rw [history.2] at finished
    by_cases starts : event.starts = some n
    · have idle := ok.uncalled reached may starts attached
      have ends : event.finishes ≠ some n := by
        cases event <;> simp_all [Cancellation.Event.starts, Cancellation.Event.finishes]
      rw [if_neg ends, Nat.add_zero] at finished
      rcases here.finished attached finished with ⟨won, returned⟩
      simp [idle] at returned
    · rw [called, if_neg (fun both => starts both.1)]
      by_cases ends : event.finishes = some n
      · exact returns ends attached
      · rw [if_neg ends, Nat.add_zero] at finished
        exact here.finished attached finished

/-- A step of the registry that is none of the registration's own. -/
theorem quietStep (ok : Linked s) (reached : Cancellation.machine.Reachable s.registry)
    {event : Cancellation.Event} (may : Cancellation.enabled s.registry event)
    (foreign : event.subject = none ∨ Exists fun m => event = .unregisterLock m) (n : NodeId) :
    AttachOk (s.attach n) ((Cancellation.next s.registry event).registrations n)
      (s.complete (.cancel n)) := by
  have starts : event.starts ≠ some n := by
    rcases foreign with none | ⟨m, rfl⟩
    · cases event <;> simp_all [Cancellation.Event.starts, Cancellation.Event.subject]
    · simp [Cancellation.Event.starts]
  have ends : event.finishes ≠ some n := by
    rcases foreign with none | ⟨m, rfl⟩
    · cases event <;> simp_all [Cancellation.Event.finishes, Cancellation.Event.subject]
    · simp [Cancellation.Event.finishes]
  refine ok.registryStep reached may ?_ ?_ (fun mine => absurd mine ends)
    (if_neg fun both => starts both.1).symm
  · rintro t rfl
    simp [Cancellation.Event.subject] at foreign
  · rintro t hook rfl
    simp [Cancellation.Event.subject] at foreign

theorem passHandle (ok : Linked s) (reached : Cancellation.machine.Reachable s.registry)
    (node : NodeId) : Linked (s.passHandle node) := by
  intro n
  rcases registry_passHandle s node with same | ⟨live, stepped⟩
  · rw [same]
    exact ok n
  · rw [stepped]
    exact ok.quietStep reached live (Or.inr ⟨node, rfl⟩) n

theorem setComplete (ok : Linked s) {who : Completer} {frame : CompleteFrame}
    (busy : s.complete who ≠ .idle) (open_ : forall won, s.complete who ≠ .returned won)
    (still : frame ≠ .idle) : Linked (s.setComplete who frame) := by
  intro n
  by_cases mine : Completer.cancel n = who
  · subst who
    simp only [State.setComplete, Function.update_self]
    exact (ok n).setFrame busy open_ still
  · simp only [State.setComplete, Function.update_of_ne mine]
    exact ok n

/-- A call of the promise enters `sFutureComplete`. -/
theorem enter (ok : Linked s) (who : Completer) (frame : CompleteFrame)
    (promise : forall n, Completer.cancel n ≠ who) : Linked (s.setComplete who frame) := by
  intro n
  simp only [State.setComplete, Function.update_of_ne (promise n)]
  exact ok n

theorem setAttach (ok : Linked s) {node : NodeId} (frame : AttachFrame)
    (busy : s.Attached node) (still : frame ≠ .idle)
    (before : frame.stage = .before -> (s.registry.registrations node).register = .idle)
    (after : frame.stage = .after -> (s.registry.registrations node).register = .returned)
    (failed : frame.stage = .failed -> (s.registry.registrations node).register = .idle ∨
      (s.registry.registrations node).register = .refused) :
    Linked (s.setAttach node frame) := by
  intro n
  by_cases mine : n = node
  · subst n
    simp only [State.setAttach, Function.update_self]
    exact (ok node).setCall busy still before after failed
  · simp only [State.setAttach, Function.update_of_ne mine]
    exact ok n

/-- The attachment moves on within its stage. -/
theorem keepStage (ok : Linked s) {node : NodeId} (frame : AttachFrame)
    (busy : s.Attached node) (same : frame.stage = (s.attach node).frame.stage) :
    Linked (s.setAttach node frame) := by
  have here := ok node
  have still : frame ≠ .idle := by
    rintro rfl
    exact busy (AttachFrame.idle_of_outside same.symm)
  refine ok.setAttach _ busy still ?_ ?_ ?_
  · intro stage
    exact here.before (same ▸ stage)
  · intro stage
    exact here.after (same ▸ stage)
  · intro stage
    exact here.failed (same ▸ stage)

theorem react (ok : Linked s) (reached : Cancellation.machine.Reachable s.registry)
    {event : Cancellation.Event} (may : Cancellation.enabled s.registry event)
    (admitted : admits s event) :
    Linked { s.react event with registry := Cancellation.next s.registry event } := by
  intro n
  have attach : (s.react event).attach n = s.attach n := by
    unfold State.react
    repeat' split
    all_goals rfl
  simp only [attach]
  refine ok.registryStep reached may ?_ ?_ ?_ ?_
  · rintro t rfl attached
    exact (admitted attached).1
  · rintro t hook rfl attached
    exact admitted attached
  · intro ends attached
    cases event <;> simp only [Cancellation.Event.finishes, reduceCtorEq, Option.some.injEq] at ends
    all_goals
      subst ends
      exact admitted attached
  · unfold State.react
    cases starts : event.starts with
    | none =>
        cases hookOf event with
        | none => simp
        | some m =>
            simp only [reduceCtorEq, false_and, if_false]
            split <;> rfl
    | some m =>
        by_cases mine : m = n
        · subst m
          by_cases attached : s.Attached n <;> simp [attached, State.setComplete]
        · by_cases attached : s.Attached m <;>
            simp [attached, State.setComplete, mine, Ne.symm mine]

theorem next (ok : Linked s) (reached : Cancellation.machine.Reachable s.registry) {event : Event}
    (may : enabled s event) : Linked (Future.next s event) := by
  have idle_ne {n : NodeId} {frame : AttachFrame} (here : (s.attach n).frame = frame)
      (other : frame ≠ .idle) : s.Attached n := fun idle => other (here.symm.trans idle)
  have completing {who : Completer} {frame : CompleteFrame} (moved : CompleteFrame)
      (here : s.complete who = frame)
      (busy : frame ≠ .idle ∧ (forall won, frame ≠ .returned won) ∧ moved ≠ .idle) :
      Linked (s.setComplete who moved) := by
    refine ok.setComplete ?_ ?_ busy.2.2
    · rw [here]
      exact busy.1
    · rw [here]
      exact busy.2.1
  cases event with
  | registry event => exact ok.react reached may.1 may.2
  | setExchange call result =>
      simp only [Future.next]
      split
      · exact ok
      · exact ok.enter (.set call) .entered (by simp)
  | setCompleted call won => exact ok
  | setDrop call => exact ok
  | destroyExchange =>
      simp only [Future.next]
      split
      · exact ok
      · exact ok.enter .destroy .entered (by simp)
  | destroyCompleted won => exact ok
  | destroyRelease => exact ok
  | completeExchange who =>
      simp only [Future.next]
      split
      · exact completing _ may (by simp)
      · exact completing .writing may (by simp)
  | completeWrite who => exact completing .storing may (by simp)
  | completeReady who => exact completing .taking may (by simp)
  | completeTake who =>
      simp only [Future.next]
      split
      · exact completing _ may (by simp)
      next handle _ => exact completing (.unregistering handle) may (by simp)
  | completeUnregister who node =>
      have passed := ok.passHandle reached node
      have here : (s.passHandle node).complete who = .unregistering node := may
      exact passed.setComplete (by simp [here]) (by simp [here]) (by simp)
  | completeUnregistered who node won => exact completing _ may.1 (by simp)
  | completeWake who => exact completing _ may (by simp)
  | completeClose who =>
      exact completing (.draining s.continuations) may (by simp)
  | completeClaim who node rest =>
      simp only [Future.next]
      split
      · exact completing _ may (by simp)
      · exact completing (.running node rest) may (by simp)
  | completeRan who node rest => exact completing (.releasing node rest) may (by simp)
  | completeRelease who node rest => exact completing (.draining rest) may (by simp)
  | completeReturn who => exact completing _ may (by simp)
  | thenFailed node => exact ok
  | thenLoad node =>
      simp only [Future.next]
      split <;> exact ok
  | thenPush node =>
      simp only [Future.next]
      split <;> exact ok
  | thenCall node path => exact ok
  | thenCallReturned node path => exact ok
  | thenDiscard node => exact ok
  | thenRelease node => exact ok
  | attachLoad node token =>
      rcases Cancellation.reachable_consistent reached with ⟨_, _, _, consistent⟩
      have entry := consistent.entries node
      have absent := entry.absent.mpr (Or.inl may.2.1)
      have started : (s.registry.registrations node).started = 0 := by
        rw [entry.started, absent]
        rfl
      have finished : (s.registry.registrations node).finished = 0 := by
        rw [entry.finished, absent]
        rfl
      have frame := (ok node).outside may.1
      intro n
      by_cases mine : n = node
      · subst n
        by_cases done : s.isCompleted = true
        · simp only [Future.next, Function.update_self, done]
          constructor <;> simp [may.2.1, started, finished, frame]
        · simp only [Future.next, Function.update_self, done]
          constructor <;> simp [may.2.1, started, finished, frame]
      · simp only [Future.next, Function.update_of_ne mine]
        exact ok n
  | attachClaim node =>
      have here : (s.attach node).frame = .claiming := may
      simp only [Future.next]
      split
      · exact ok.keepStage _ (idle_ne here (by simp)) (by simp [here])
      · refine ok.setAttach _ (idle_ne here (by simp)) (by simp) (by simp) (by simp) ?_
        intro _
        exact Or.inl ((ok node).before (by simp [here]))
  | attachRetainToken node =>
      have here : (s.attach node).frame = .retainingToken := may.1
      have stepped : Linked
          { s with registry := Cancellation.next s.registry (.retain (s.attach node).token) } :=
        ok.quietStep reached may.2 (Or.inl rfl)
      exact stepped.keepStage _ (idle_ne here (by simp)) (by simp [here])
  | attachRetainFuture node =>
      have here : (s.attach node).frame = .retainingFuture := may
      exact ok.setAttach _ (idle_ne here (by simp)) (by simp) (by simp) (by simp) (by simp)
  | attachRegistered node =>
      have here : (s.attach node).frame = .registering := may.1
      exact ok.setAttach _ (idle_ne here (by simp)) (by simp) (by simp) (fun _ => may.2) (by simp)
  | attachStore node =>
      have here : (s.attach node).frame = .storing := may
      exact ok.keepStage _ (idle_ne here (by simp)) (by simp [here])
  | attachCheck node =>
      have here : (s.attach node).frame = .checking := may
      refine ok.keepStage _ (idle_ne here (by simp)) ?_
      rw [here]
      split <;> rfl
  | attachTake node =>
      have here : (s.attach node).frame = .taking := may
      simp only [Future.next]
      split
      · exact ok.keepStage _ (idle_ne here (by simp)) (by simp [here])
      next stale _ =>
          exact ok.keepStage (.unregistering stale) (idle_ne here (by simp))
            (by simp [here])
  | attachUnregister node handle =>
      have here : (s.attach node).frame = .unregistering handle := may
      have passed := ok.passHandle reached handle
      refine passed.keepStage _ (idle_ne here (by simp)) ?_
      change _ = (s.attach node).frame.stage
      rw [here]
      rfl
  | attachUnregistered node handle won =>
      have here : (s.attach node).frame = .awaiting handle := may.1
      exact ok.keepStage _ (idle_ne here (by simp)) (by simp [here])
  | attachRefused node =>
      have here : (s.attach node).frame = .registering := may.1
      exact ok.setAttach .rollingBack (idle_ne here (by simp)) (by simp) (by simp)
        (by simp) (fun _ => Or.inr may.2)
  | attachDestroyToken node call =>
      have here : (s.attach node).frame = .rollingBack := may.1
      have stepped : Linked
          { s with
            registry :=
              Cancellation.next s.registry (.destroyRelease call (s.attach node).token) } :=
        ok.quietStep reached may.2 (Or.inl rfl)
      exact stepped.keepStage _ (idle_ne here (by simp)) (by simp [here])
  | attachTokenDestroyed node call =>
      have here : (s.attach node).frame = .destroyingToken call := may.1
      exact ok.keepStage _ (idle_ne here (by simp)) (by simp [here])
  | attachReleaseFuture node =>
      have here : (s.attach node).frame = .releasingFuture := may
      exact ok.keepStage _ (idle_ne here (by simp)) (by simp [here])
  | move => exact ok

end Linked

theorem reachable_linked {s : State} (reached : machine.Reachable s) : Linked s := by
  refine reached.invariant _ ?_ ?_
  · intro s initial n
    rw [show s = start from initial]
    constructor <;> simp [start]
  · intro s event reached ok may
    exact ok.next (reachable_registry reached) may

end Future
end UfsrvRx
