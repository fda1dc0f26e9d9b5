import UfsrvRx.Waiter.Node

namespace UfsrvRx
namespace Waiter

/-!
# Resume jobs

The queue of a scheduler holds a resume job exactly for the waits that were woken
and have not gone on, one for each.
-/

/-- The wait was woken and its coroutine has not been resumed. -/
def Wait.Pending (wait : Wait) (c : CoroutineId) (S : SchedulerId) : Prop :=
  wait.agent = .coroutine c S ∧ wait.wakes = 1 ∧ wait.frame.woken = false

instance (wait : Wait) (c : CoroutineId) (S : SchedulerId) : Decidable (wait.Pending c S) :=
  inferInstanceAs (Decidable (_ ∧ _ ∧ _))

def Queued (s : State) : Prop :=
  forall S c w, (s.schedulers S).queue.count (.resume c w) =
    if (s.waits w).Pending c S then 1 else 0

/-- A node that was not pushed has woken nobody. -/
theorem NodeOk.unwoken {spot : Spot} {wait : Wait} {released : Nat}
    (ok : NodeOk spot wait released) (unlinked : spot.linked = false) : wait.wakes = 0 := by
  have claim := ok.claim
  rw [ok.fresh unlinked] at claim
  simp only [Bool.false_eq_true, if_false] at claim
  omega

theorem NodeOk.unlinked {spot : Spot} {wait : Wait} {released : Nat}
    (ok : NodeOk spot wait released) {frame : WaitFrame} (here : wait.frame = frame)
    (early : frame.link = .unallocated ∨ frame.link = .own) : spot.linked = false := by
  subst frame
  rcases early with unallocated | own
  · rw [ok.unallocated unallocated]
    rfl
  · rw [ok.own.mp own]
    rfl

namespace Queued

variable {s : State} {spot : WaitId -> Spot}

/-- One wait moves and no job is submitted or taken. -/
theorem stay (ok : Queued s) (w : WaitId) (entry : Wait) {after : State}
    (waits : after.waits = Function.update s.waits w entry)
    (schedulers : forall S, (after.schedulers S).queue = (s.schedulers S).queue)
    (same : forall c S, entry.Pending c S ↔ (s.waits w).Pending c S) : Queued after := by
  intro S c v
  rw [schedulers S, ok S c v, waits]
  by_cases mine : v = w
  · subst v
    rw [Function.update_self]
    simp only [same]
  · rw [Function.update_of_ne mine]

/-- The wait moves on and was woken before or is not woken yet. -/
theorem move (ok : Queued s) (w : WaitId) (entry : Wait) {after : State}
    (waits : after.waits = Function.update s.waits w entry)
    (schedulers : forall S, (after.schedulers S).queue = (s.schedulers S).queue)
    (agent : entry.agent = (s.waits w).agent) (wakes : entry.wakes = (s.waits w).wakes)
    (woken : entry.frame.woken = (s.waits w).frame.woken) : Queued after :=
  ok.stay w entry waits schedulers fun c S => by simp only [Wait.Pending, agent, wakes, woken]

/-- The wait has never been woken. -/
theorem early (ok : Queued s) (w : WaitId) (entry : Wait) {after : State}
    (waits : after.waits = Function.update s.waits w entry)
    (schedulers : forall S, (after.schedulers S).queue = (s.schedulers S).queue)
    (before : (s.waits w).wakes = 0) (wakes : entry.wakes = 0) : Queued after :=
  ok.stay w entry waits schedulers fun c S => by simp [Wait.Pending, before, wakes]

/-- Jobs concern the waits of coroutines only. -/
theorem thread (ok : Queued s) (w : WaitId) (entry : Wait) {after : State}
    (waits : after.waits = Function.update s.waits w entry)
    (schedulers : forall S, (after.schedulers S).queue = (s.schedulers S).queue)
    (before : (s.waits w).agent = .thread) (agent : entry.agent = .thread) : Queued after :=
  ok.stay w entry waits schedulers fun c S => by simp [Wait.Pending, before, agent]

/-- A claimer wakes the wait. -/
theorem wake (ok : Queued s) (w : WaitId) (entry : Wait) {after : State}
    (waits : after.waits = Function.update s.waits w entry)
    (schedulers : after.schedulers = s.enqueued w)
    (agent : entry.agent = (s.waits w).agent) (fresh : (s.waits w).wakes = 0)
    (unwoken : entry.frame.woken = false)
    (wakes : (s.waits w).agent ≠ .thread -> entry.wakes = 1) : Queued after := by
  unfold State.enqueued at schedulers
  cases here : (s.waits w).agent with
  | thread =>
      rw [here] at schedulers agent
      exact ok.thread w entry waits (by simp [schedulers]) here agent
  | coroutine d T =>
      rw [here] at schedulers agent
      simp only at schedulers
      have woken := wakes (by simp [here])
      intro S c v
      have before := ok S c v
      rw [waits, schedulers]
      by_cases mine : v = w
      · subst v
        rw [Function.update_self]
        by_cases home : S = T
        · subst S
          rw [Function.update_self]
          simp only [List.count_append, before, Wait.Pending, fresh, agent, woken, unwoken]
          by_cases same : c = d
          · subst c
            simp
          · simp [Ne.symm same]
        · rw [Function.update_of_ne home, before]
          simp [Wait.Pending, fresh, agent, Ne.symm home]
      · rw [Function.update_of_ne mine, <- before]
        by_cases home : S = T
        · subst S
          rw [Function.update_self]
          simp [List.count_append, Ne.symm mine]
        · rw [Function.update_of_ne home]

/-- The job at the head of the queue of an idle worker is for the wait in which its
coroutine is suspended. -/
theorem head (ok : Queued s) (seated : Seated s) {S : SchedulerId} {c : CoroutineId} {w : WaitId}
    {rest : List Job} (may : s.schedulers S = ⟨.resume c w :: rest, none⟩) :
    (s.waits w).Pending c S ∧ (s.coroutines c).status = .suspended w := by
  have pending : (s.waits w).Pending c S := by
    by_contra other
    have counted := ok S c w
    rw [may, if_neg other] at counted
    simp at counted
  refine ⟨pending, ?_⟩
  have seat := seated.seat w c S pending.1
  cases here : (s.waits w).frame.seat with
  | parked => exact seat.2.2.2.1 here
  | active =>
      have running := seated.worker_of_running (seated.running_of_active pending.1 here)
      simp [may] at running
  | outside => exact absurd here seat.1
  | ended =>
      have unwoken := pending.2.2
      cases frame : (s.waits w).frame <;> simp_all [WaitFrame.seat, WaitFrame.woken]

/-- The worker takes the job and the wait goes on. -/
theorem resume (ok : Queued s) (seated : Seated s) {S : SchedulerId} {c : CoroutineId}
    {w : WaitId} {rest : List Job} (may : s.schedulers S = ⟨.resume c w :: rest, none⟩) :
    Queued (s.resume S c rest) := by
  have ⟨pending, suspended⟩ := ok.head seated may
  have woken : (s.waits w).awake.woken = true := by
    unfold Wait.awake
    split <;> rfl
  intro T d v
  have before := ok T d v
  simp only [State.resume, suspended, State.setScheduler, State.setCoroutine, State.setFrame,
    State.setWait]
  by_cases home : T = S
  · subst T
    rw [may, List.count_cons] at before
    rw [Function.update_self]
    by_cases mine : v = w
    · subst v
      rw [Function.update_self]
      simp only [Wait.Pending, woken, Bool.true_eq_false, and_false, if_false]
      by_cases same : d = c
      · subst d
        rw [if_pos pending] at before
        simpa using before
      · have other : ¬ (s.waits w).Pending d S := by
          rintro ⟨agent, -⟩
          rw [pending.1] at agent
          exact same (by injection agent with coroutine; exact coroutine.symm)
        rw [if_neg other] at before
        omega
    · rw [Function.update_of_ne mine, <- before]
      simp [Ne.symm mine]
  · rw [Function.update_of_ne home, before]
    by_cases mine : v = w
    · subst v
      have other : ¬ (s.waits w).Pending d T := by
        rintro ⟨agent, -⟩
        rw [pending.1] at agent
        exact home (by injection agent with _ scheduler; exact scheduler.symm)
      rw [Function.update_self, if_neg other]
      simp [Wait.Pending, woken]
    · rw [Function.update_of_ne mine]

/-- Jobs of other coroutines and spawn jobs are not counted. -/
theorem requeue (ok : Queued s) {after : State} (waits : after.waits = s.waits)
    (counts : forall S c w, (after.schedulers S).queue.count (.resume c w) =
      (s.schedulers S).queue.count (.resume c w)) : Queued after := by
  intro S c w
  rw [counts, waits]
  exact ok S c w

theorem leave_queue (s : State) (S T : SchedulerId) :
    ((s.leave S).schedulers T).queue = (s.schedulers T).queue := by
  by_cases home : T = S
  · subst T
    simp [State.leave, State.setScheduler]
  · simp [State.leave, State.setScheduler, home]

theorem park_queue (s : State) (w : WaitId) (T : SchedulerId) :
    ((s.park w).schedulers T).queue = (s.schedulers T).queue := by
  unfold State.park
  split
  · rw [leave_queue]
    simp [State.setFrame, State.setWait]
  · rfl

theorem next (ok : Queued s) (seated : Seated s)
    (nodes : forall w, NodeOk (spot w) (s.waits w) (s.registry.registrations w).released)
    (claims : forall k f w rest, s.complete k = .waking f w rest -> (spot w).wakes = 1)
    {event : Event} (may : enabled s event) : Queued (Waiter.next s event) := by
  have same (S : SchedulerId) : (s.schedulers S).queue = (s.schedulers S).queue := rfl
  have unwoken {w : WaitId} {frame : WaitFrame} (here : (s.waits w).frame = frame)
      (early : frame.link = .unallocated ∨ frame.link = .own) : (s.waits w).wakes = 0 :=
    (nodes w).unwoken ((nodes w).unlinked here early)
  cases event with
  | registry inner =>
      change Queued { s.react inner with registry := _ }
      rcases s.react_cases inner with same | ⟨w, _, _, moved⟩ | ⟨w, _, _, moved⟩
      · rw [same]
        exact ok
      · rw [moved]
        exact ok.move w _ rfl (fun _ => rfl) rfl rfl rfl
      · rw [moved]
        exact ok.move w _ rfl (fun _ => rfl) rfl rfl rfl
  | waitStart w agent f token =>
      have fresh := unwoken may.1 (Or.inl rfl)
      exact ok.early w _ (State.waits_setStatus _ _ _) (by simp [Waiter.next, State.setWait]) fresh
        fresh
  | waitCheckToken w t =>
      have fresh := unwoken may.1 (Or.inl rfl)
      simp only [Waiter.next]
      split
      · exact ok.early w _ (State.waits_finish s w _) (by simp) fresh fresh
      · exact ok.early w _ rfl same fresh fresh
  | waitCheckState w =>
      have fresh := unwoken may (Or.inl rfl)
      simp only [Waiter.next]
      split <;> exact ok.early w _ rfl same fresh fresh
  | waitPush w =>
      have fresh := unwoken may (Or.inr rfl)
      simp only [Waiter.next]
      split <;> exact ok.early w _ rfl same fresh fresh
  | waitRetain w =>
      exact ok.move w _ rfl same rfl rfl (by rw [show (s.waits w).frame = _ from may]; rfl)
  | waitRegistered w =>
      exact ok.move w _ rfl same rfl rfl (by rw [show (s.waits w).frame = _ from may.1]; rfl)
  | waitPark w =>
      exact ok.move w _ (State.waits_park s w) (park_queue s w) rfl rfl
        (by rw [show (s.waits w).frame = _ from may]; rfl)
  | waitRead w => exact ok.thread w _ rfl same may.2.1 may.2.1
  | waitClose w =>
      refine ok.move w _ rfl same rfl rfl ?_
      rw [show (s.waits w).frame = _ from may]
      simp only [Wait.awake]
      split <;> rfl
  | waitUnregister w =>
      exact ok.move w _ rfl same rfl rfl (by rw [show (s.waits w).frame = _ from may.1]; rfl)
  | waitUnregistered w won =>
      exact ok.move w _ rfl same rfl rfl (by rw [show (s.waits w).frame = _ from may.1]; rfl)
  | waitRelease w =>
      refine ok.move w _ rfl same rfl rfl ?_
      rw [show (s.waits w).frame = _ from may]
      split <;> rfl
  | waitRecheck w t =>
      have here : (s.waits w).frame = .rechecking := may.1
      simp only [Waiter.next]
      split
      · exact ok.move w _ (State.waits_finish s w _) (by simp) rfl rfl (by rw [here]; rfl)
      · exact ok.move w _ rfl same rfl rfl (by rw [here]; rfl)
  | waitReturn w =>
      exact ok.move w _ (State.waits_finish s w _) (by simp [Waiter.next]) rfl rfl
        (by rw [show (s.waits w).frame = _ from may]; rfl)
  | callbackClaim w =>
      simp only [Waiter.next]
      split <;> exact ok.move w _ rfl same rfl rfl rfl
  | callbackWake w =>
      have here : (s.waits w).callback = .waking := may
      have claim := (nodes w).claim
      have waiting := (nodes w).waiting (Or.inr here)
      have fresh : (s.waits w).wakes = 0 := by grind
      have calls := (s.waits w).callbackWoken_calls
      refine ok.wake w { (s.waits w).callbackWoken with callback := .done } ?_ ?_ calls.1 fresh ?_ ?_
      · simp [Waiter.next, State.setWait]
      · simp [Waiter.next, State.setWait]
      · rw [calls.2.1]
        exact waiting.1
      · intro coroutine
        unfold Wait.callbackWoken
        split <;> simp_all
  | completeExchange k f r =>
      simp only [Waiter.next]
      split <;> exact ok
  | completeClaim k f w rest =>
      simp only [Waiter.next]
      split
      · exact ok
      · exact ok.move w _ rfl same rfl rfl rfl
  | completeWake k f w rest =>
      have mine := claims k f w rest may
      have claim := (nodes w).claim
      have waiting := (nodes w).waiting (Or.inl mine)
      have fresh : (s.waits w).wakes = 0 := by grind
      have calls := (s.waits w).drainWoken_calls
      refine ok.wake w (s.waits w).drainWoken ?_ ?_ calls.1 fresh ?_ ?_
      · simp [Waiter.next, State.setComplete]
      · simp [Waiter.next, State.setComplete]
      · rw [calls.2.1]
        exact waiting.1
      · intro coroutine
        unfold Wait.drainWoken
        split <;> simp_all
  | completeRelease k f w rest => exact ok.move w _ rfl same rfl rfl rfl
  | releaseClose f w rest => exact ok.move w _ rfl same rfl rfl rfl
  | releaseDrop f w rest => exact ok.move w _ rfl same rfl rfl rfl
  | spawn c S =>
      refine ok.requeue rfl ?_
      intro T d w
      by_cases home : T = S
      · subst T
        simp [Waiter.next, State.setScheduler, List.count_append]
      · simp [Waiter.next, State.setScheduler, State.setCoroutine, home]
  | workerSpawn S c rest =>
      have here : s.schedulers S = ⟨.spawn c :: rest, none⟩ := may
      refine ok.requeue rfl ?_
      intro T d w
      by_cases home : T = S
      · subst T
        simp [Waiter.next, State.setScheduler, here]
      · simp [Waiter.next, State.setScheduler, State.setCoroutine, home]
  | workerResume S c w rest => exact ok.resume seated may
  | coroutineExit c =>
      refine ok.requeue rfl ?_
      intro T d w
      simp only [Waiter.next, leave_queue]
      rfl
  | _ => exact ok

end Queued

end Waiter
end UfsrvRx
