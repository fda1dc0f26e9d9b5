import UfsrvRx.Waiter.Outcome

namespace UfsrvRx
namespace Waiter

open Transition

/-!
# Progress of the wakers

Completing calls, cancelling calls and workers that have something to do can always
take a step: none of them waits for a suspended wait.  Hence a wait that should have
been woken is suspended only as long as one of them has not come to rest.
-/

/-! ## Who takes a step -/

/-- The node whose reclamation the step belongs to. -/
def reclaims : Cancellation.Event -> Option WaitId
  | .nodeFree node | .hookCall node | .hookReturned node | .nodeTokenRelease node
  | .nodeTokenWalk node => some node
  | _ => none

/-- A step of the dispatch loop of `UfsrvCancellationTokenCancel`. -/
def dispatches : Cancellation.Event -> Bool
  | .cancelCall _ _ _ _ | .cancelCallReturned _ _ _ _ | .cancelDrop _ _ _ _
  | .cancelReclaimed _ _ _ _ | .cancelReturn _ _ => true
  | _ => false

/-- The registration whose own `RegisterEx` or `Unregister` takes the step. -/
def registers : Cancellation.Event -> Option WaitId
  | .registerAlloc node _ _ | .registerRetain node | .registerLock node | .registerCall node
  | .registerCallReturned node | .unregisterReturn node _ => some node
  | _ => none

/-- The wait whose own call takes the step. -/
def Event.waits : Event -> Option WaitId
  | .waitCheckToken wait _ | .waitCheckState wait | .waitPush wait | .waitRetain wait
  | .waitRegistered wait | .waitPark wait | .waitRead wait | .waitClose wait
  | .waitUnregister wait | .waitUnregistered wait _ | .waitRelease wait | .waitRecheck wait _
  | .waitReturn wait => some wait
  | _ => none

/-- The wait whose cancel callback takes the step. -/
def Event.callsBack : Event -> Option WaitId
  | .callbackClaim wait | .callbackWake wait => some wait
  | _ => none

/-- A step of a completing call that was made before. -/
def ByCompleter : Event -> Bool
  | .completeExchange _ _ _ | .completeWrite _ _ _ | .completeReady _ _ | .completeClose _ _
  | .completeClaim _ _ _ _ | .completeWake _ _ _ _ | .completeRelease _ _ _ _
  | .completeReturn _ _ => true
  | _ => false

namespace State

/-- A step of a cancelling call that was made before, with the callbacks it runs and
the nodes it reclaims. -/
def ByCanceller (s : State) (event : Event) : Prop :=
  (Exists fun inner => event = .registry inner ∧
    (dispatches inner = true ∨ Exists fun n => reclaims inner = some n ∧
      Exists fun k => (s.registry.cancel k).reclaimingNode = some n)) ∨
  Exists fun w => event.callsBack = some w ∧
    Exists fun k => (s.registry.cancel k).runningNode = some w

/-- A step of a coroutine in its wait, down into the calls that the wait makes. -/
def ByCoroutine (s : State) (event : Event) (w : WaitId) : Prop :=
  (s.waits w).agent ≠ .thread ∧
    (event.waits = some w ∨
      (Exists fun inner => event = .registry inner ∧
        (registers inner = some w ∨ reclaims inner = some w ∧
          Exists fun won => (s.registry.registrations w).unregister = .reclaiming won)) ∨
      event.callsBack = some w ∧ (s.registry.registrations w).register = .running)

/-- A step of a worker: it takes a job, or the coroutine on it goes on. -/
def ByWorker (s : State) (event : Event) : Prop :=
  (Exists fun S => Exists fun c => Exists fun rest => event = .workerSpawn S c rest) ∨
  (Exists fun S => Exists fun c => Exists fun w => Exists fun rest =>
    event = .workerResume S c w rest) ∨
  (Exists fun c => event = .coroutineExit c) ∨
  Exists (s.ByCoroutine event)

/-- No completer, canceller or worker can take a step. -/
def AtRest (s : State) : Prop :=
  forall event, enabled s event ->
    ¬ (ByCompleter event = true ∨ s.ByCanceller event ∨ s.ByWorker event)

/-- The wait is suspended: its coroutine has yielded, or its thread is blocked on a
descriptor that nobody has written to. -/
def Suspended (s : State) (w : WaitId) : Prop :=
  (s.waits w).frame = .parked ∧ ((s.waits w).agent = .thread -> (s.waits w).counter = 0)

end State

/-! ## Completing calls -/

theorem completer_moves {s : State} {k : CallId} {f : FutureId}
    (flight : (s.complete k).inFlight = some f) :
    Exists fun event => enabled s event ∧ ByCompleter event = true := by
  cases here : s.complete k with
  | idle => simp [here, CompleteFrame.inFlight] at flight
  | returned won => simp [here, CompleteFrame.inFlight] at flight
  | entered g r => exact ⟨.completeExchange k g r, here, rfl⟩
  | writing g r => exact ⟨.completeWrite k g r, here, rfl⟩
  | storing g => exact ⟨.completeReady k g, here, rfl⟩
  | closing g => exact ⟨.completeClose k g, here, rfl⟩
  | draining g rest =>
      cases rest with
      | nil => exact ⟨.completeReturn k g, here, rfl⟩
      | cons w rest => exact ⟨.completeClaim k g w rest, here, rfl⟩
  | waking g w rest => exact ⟨.completeWake k g w rest, here, rfl⟩
  | releasing g w rest => exact ⟨.completeRelease k g w rest, here, rfl⟩

/-! ## Cancelling calls -/

/-- A reclamation that has begun and not ended goes on. -/
theorem reclaim_moves {s : State} {n : WaitId}
    (flight : (s.registry.registrations n).reclaim.inFlight = true) :
    Exists fun inner => enabled s (.registry inner) ∧ reclaims inner = some n := by
  cases here : (s.registry.registrations n).reclaim with
  | idle => simp [here, Cancellation.ReclaimFrame.inFlight] at flight
  | done => simp [here, Cancellation.ReclaimFrame.inFlight] at flight
  | freeing => exact ⟨.nodeFree n, ⟨here, trivial⟩, rfl⟩
  | hook => exact ⟨.hookCall n, ⟨here, trivial⟩, rfl⟩
  | hookRunning => exact ⟨.hookReturned n, ⟨here, trivial⟩, rfl⟩
  | releasing => exact ⟨.nodeTokenRelease n, ⟨here, trivial⟩, rfl⟩
  | walking => exact ⟨.nodeTokenWalk n, ⟨here, trivial⟩, rfl⟩

/-- Either the reclamation of the node goes on, or it has ended. -/
theorem reclaim_moves_or_done {s : State} (reached : machine.Reachable s) {n : WaitId}
    (reclaiming : s.registry.Reclaiming n) :
    (Exists fun inner => enabled s (.registry inner) ∧ reclaims inner = some n) ∨
      (s.registry.registrations n).reclaim = .done := by
  have begun := Cancellation.reclaiming_begun (reachable_registry reached) reclaiming
  by_cases flight : (s.registry.registrations n).reclaim.inFlight = true
  · exact Or.inl (reclaim_moves flight)
  · right
    cases here : (s.registry.registrations n).reclaim <;>
      simp_all [Cancellation.ReclaimFrame.inFlight]

/-- A callback that was started goes on, or is done. -/
theorem callback_moves {s : State} (reached : machine.Reachable s) {w : WaitId}
    (owned : (s.waits w).Owned) (started : (s.registry.registrations w).started ≠ 0) :
    (Exists fun event => enabled s event ∧ event.callsBack = some w) ∨
      (s.waits w).callback = .done := by
  have hook := reachable_hooked reached w
  cases here : (s.waits w).callback with
  | idle => exact absurd ((hook.started owned).mp here) started
  | entered => exact Or.inl ⟨.callbackClaim w, here, rfl⟩
  | waking => exact Or.inl ⟨.callbackWake w, here, rfl⟩
  | done => exact Or.inr rfl

theorem canceller_moves {s : State} (reached : machine.Reachable s) {k : CallId} {t : TokenId}
    (flight : (s.registry.cancel k).inFlight = some t) :
    Exists fun event => enabled s event ∧ s.ByCanceller event := by
  have dispatch (inner : Cancellation.Event) (may : enabled s (.registry inner))
      (mine : dispatches inner = true) :
      Exists fun event => enabled s event ∧ s.ByCanceller event :=
    ⟨.registry inner, may, Or.inl ⟨inner, rfl, Or.inl mine⟩⟩
  cases here : s.registry.cancel k with
  | idle => simp [here] at flight
  | returned u set => simp [here] at flight
  | dispatching u rest =>
      cases rest with
      | nil => exact dispatch (.cancelReturn k u) ⟨here, trivial⟩ rfl
      | cons n rest => exact dispatch (.cancelCall k u n rest) ⟨here, trivial⟩ rfl
  | running u n rest =>
      have running : (s.registry.cancel k).runningNode = some n := by rw [here]; rfl
      by_cases owned : (s.waits n).Owned
      · rcases Cancellation.reachable_consistent (reachable_registry reached) with ⟨_, _, _, ok⟩
        have started : (s.registry.registrations n).started ≠ 0 := by
          rw [(ok.entries n).started, (ok.lists.running k n).mp running]
          simp [Cancellation.Life.started]
        rcases callback_moves reached owned started with ⟨event, may, mine⟩ | done
        · exact ⟨event, may, Or.inr ⟨n, mine, k, running⟩⟩
        · exact dispatch (.cancelCallReturned k u n rest) ⟨here, fun _ => done⟩ rfl
      · exact dispatch (.cancelCallReturned k u n rest) ⟨here, fun mine => absurd mine owned⟩ rfl
  | dropping u n rest => exact dispatch (.cancelDrop k u n rest) ⟨here, trivial⟩ rfl
  | reclaiming u n rest =>
      have reclaiming : (s.registry.cancel k).reclaimingNode = some n := by rw [here]; rfl
      rcases reclaim_moves_or_done reached (Or.inr ⟨k, reclaiming⟩) with ⟨inner, may, mine⟩ | done
      · exact ⟨.registry inner, may, Or.inl ⟨inner, rfl, Or.inr ⟨n, mine, k, reclaiming⟩⟩⟩
      · exact dispatch (.cancelReclaimed k u n rest) ⟨⟨here, done⟩, trivial⟩ rfl

/-! ## Workers -/

/-- The registration of a wait goes on. -/
theorem registration_moves {s : State} (reached : machine.Reachable s) {w : WaitId}
    (coroutine : (s.waits w).agent ≠ .thread) (here : (s.waits w).frame = .registering) :
    Exists fun event => enabled s event ∧ s.ByCoroutine event w := by
  have hook := reachable_hooked reached w
  have token := hook.token here rfl
  have owned : (s.waits w).Owned := ⟨by simp [here], token⟩
  have call (inner : Cancellation.Event) (may : enabled s (.registry inner))
      (mine : registers inner = some w) :
      Exists fun event => enabled s event ∧ s.ByCoroutine event w :=
    ⟨.registry inner, may, coroutine, Or.inr (Or.inl ⟨inner, rfl, Or.inl mine⟩)⟩
  cases register : (s.registry.registrations w).register with
  | idle =>
      cases token_ : (s.waits w).token with
      | none => exact absurd token_ token
      | some t =>
          have held := reachable_held reached w t (by rw [here]; rfl) token_
          exact call (.registerAlloc w t true)
            ⟨⟨register, held⟩, fun _ => ⟨here, token_, rfl⟩⟩ rfl
  | allocated => exact call (.registerRetain w) ⟨register, trivial⟩ rfl
  | retained => exact call (.registerLock w) ⟨register, trivial⟩ rfl
  | calling => exact call (.registerCall w) ⟨register, trivial⟩ rfl
  | running =>
      rcases Cancellation.reachable_consistent (reachable_registry reached) with ⟨_, _, _, ok⟩
      have entry := ok.entries w
      have started : (s.registry.registrations w).started ≠ 0 := by
        rw [entry.started, entry.inlineRunning.mpr register]
        simp [Cancellation.Life.started]
      rcases callback_moves reached owned started with ⟨event, may, mine⟩ | done
      · exact ⟨event, may, coroutine, Or.inr (Or.inr ⟨mine, register⟩)⟩
      · exact call (.registerCallReturned w) ⟨register, fun _ => done⟩ rfl
  | returned => exact ⟨.waitRegistered w, ⟨here, register⟩, coroutine, Or.inl rfl⟩
  | refused => exact absurd register (hook.accepted owned)

/-- A coroutine that is in a wait and not suspended goes on. -/
theorem coroutine_moves {s : State} (reached : machine.Reachable s) {w : WaitId}
    (coroutine : (s.waits w).agent ≠ .thread) (active : (s.waits w).frame.seat = .active) :
    Exists fun event => enabled s event ∧ s.ByCoroutine event w := by
  have hook := reachable_hooked reached w
  have step (event : Event) (may : enabled s event) (mine : event.waits = some w) :
      Exists fun event => enabled s event ∧ s.ByCoroutine event w :=
    ⟨event, may, coroutine, Or.inl mine⟩
  cases here : (s.waits w).frame with
  | idle => simp [here, WaitFrame.seat] at active
  | parked => simp [here, WaitFrame.seat] at active
  | returned r => simp [here, WaitFrame.seat] at active
  | checkingToken =>
      rcases Option.ne_none_iff_exists'.mp (hook.token here rfl) with ⟨t, token⟩
      exact step (.waitCheckToken w t) ⟨here, token⟩ rfl
  | checkingState => exact step (.waitCheckState w) here rfl
  | allocated => exact step (.waitPush w) here rfl
  | retaining => exact step (.waitRetain w) here rfl
  | registering => exact registration_moves reached coroutine here
  | parking => exact step (.waitPark w) here rfl
  | closing => exact step (.waitClose w) here rfl
  | unregistering =>
      have fits := hook.fits ⟨by simp [here], hook.token here rfl⟩
      rw [here] at fits
      exact step (.waitUnregister w) ⟨here, hook.handle fits.1, fits.2⟩ rfl
  | awaiting =>
      have fits := hook.fits ⟨by simp [here], hook.token here rfl⟩
      rw [here] at fits
      cases unregister : (s.registry.registrations w).unregister with
      | idle => exact absurd unregister fits.2
      | returned won => exact step (.waitUnregistered w won) ⟨here, unregister⟩ rfl
      | reclaiming won =>
          rcases reclaim_moves_or_done reached (Or.inl ⟨won, unregister⟩) with
            ⟨inner, may, mine⟩ | done
          · exact ⟨.registry inner, may, coroutine,
              Or.inr (Or.inl ⟨inner, rfl, Or.inr ⟨mine, won, unregister⟩⟩)⟩
          · exact ⟨.registry (.unregisterReturn w won), ⟨⟨unregister, done⟩, trivial⟩, coroutine,
              Or.inr (Or.inl ⟨_, rfl, Or.inl rfl⟩)⟩
  | releasing => exact step (.waitRelease w) here rfl
  | rechecking =>
      rcases Option.ne_none_iff_exists'.mp (hook.token here rfl) with ⟨t, token⟩
      exact step (.waitRecheck w t) ⟨here, token⟩ rfl
  | reading => exact step (.waitReturn w) here rfl

/-- A worker with a job or with a coroutine on it goes on. -/
theorem worker_moves {s : State} (reached : machine.Reachable s) {S : SchedulerId}
    (busy : (s.schedulers S).queue ≠ []) : Exists fun event => enabled s event ∧ s.ByWorker event := by
  have seated := reachable_seated reached
  cases here : s.schedulers S with
  | mk queue worker =>
      cases worker with
      | some c =>
          have running := (seated.worker S c).mp (by rw [here])
          cases status : (s.coroutines c).status with
          | running wait =>
              cases wait with
              | none => exact ⟨.coroutineExit c, status, Or.inr (Or.inr (Or.inl ⟨c, rfl⟩))⟩
              | some w =>
                  have seat := seated.running c w status
                  rcases coroutine_moves reached (by simp [seat.1]) seat.2 with ⟨event, may, mine⟩
                  exact ⟨event, may, Or.inr (Or.inr (Or.inr ⟨w, mine⟩))⟩
          | absent => simp [status, Status.isRunning] at running
          | spawned => simp [status, Status.isRunning] at running
          | suspended w => simp [status, Status.isRunning] at running
          | exited => simp [status, Status.isRunning] at running
      | none =>
          cases queue with
          | nil => exact absurd (by rw [here]) busy
          | cons job rest =>
              cases job with
              | spawn c => exact ⟨.workerSpawn S c rest, here, Or.inl ⟨S, c, rest, rfl⟩⟩
              | resume c w =>
                  exact ⟨.workerResume S c w rest, here, Or.inr (Or.inl ⟨S, c, w, rest, rfl⟩)⟩

/-! ## Suspended waits -/

section rest

variable {s : State} (reached : machine.Reachable s) (rest : s.AtRest)
include reached rest

omit reached in
theorem completers_rest (k : CallId) (f : FutureId) : (s.complete k).inFlight ≠ some f := by
  intro flight
  rcases completer_moves flight with ⟨event, may, mine⟩
  exact rest event may (Or.inl mine)

omit reached in
/-- The hands of all completing calls are empty. -/
theorem hands_rest (k : CallId) : s.segment (.completer k) = .none := by
  simp only [State.segment]
  cases call : s.complete k with
  | draining f tail => exact absurd (by rw [call]; rfl) (completers_rest rest k f)
  | waking f v tail => exact absurd (by rw [call]; rfl) (completers_rest rest k f)
  | releasing f v tail => exact absurd (by rw [call]; rfl) (completers_rest rest k f)
  | _ => rfl

omit reached in
/-- Nobody has the node of a wait in flight in its hands. -/
theorem unheld_rest {spot : WaitId -> Spot} (noded : Noded s spot) {w : WaitId}
    (flight : (s.waits w).frame.inFlight = true) : (spot w).holder = none := by
  have unfinished (f : FutureId) : (spot w).holder ≠ some (.releaser f) := by
    intro held
    rw [noded.ended w f held] at flight
    cases flight
  have empty (k : CallId) := hands_rest rest k
  cases place : spot w with
  | stolen who =>
      cases who with
      | releaser f => exact absurd (by rw [place]; rfl) (unfinished f)
      | completer k =>
          have mem := (noded.drains.pending (.completer k) w).mpr (by rw [place]; rfl)
          rw [empty k] at mem
          cases mem
  | waking who =>
      cases who with
      | releaser f => exact absurd (by rw [place]; rfl) (unfinished f)
      | completer k =>
          have mem := (noded.drains.running (.completer k) w).mpr (by rw [place]; rfl)
          rw [empty k] at mem
          cases mem
  | settling who =>
      cases who with
      | releaser f => exact absurd (by rw [place]; rfl) (unfinished f)
      | completer k =>
          have mem := (noded.drains.releasing (.completer k) w).mpr (by rw [place]; rfl)
          rw [empty k] at mem
          cases mem
  | _ => rfl

theorem cancellers_rest (k : CallId) (t : TokenId) : (s.registry.cancel k).inFlight ≠ some t := by
  intro flight
  rcases canceller_moves reached flight with ⟨event, may, mine⟩
  exact rest event may (Or.inr (Or.inl mine))

theorem undispatched (k : CallId) (w : WaitId) : ¬ (s.registry.cancel k).Owns w := by
  intro owns
  cases call : s.registry.cancel k with
  | idle => simp [call, Cancellation.CancelFrame.Owns] at owns
  | returned u set => simp [call, Cancellation.CancelFrame.Owns] at owns
  | dispatching u tail => exact cancellers_rest reached rest k u (by rw [call]; rfl)
  | running u v tail => exact cancellers_rest reached rest k u (by rw [call]; rfl)
  | dropping u v tail => exact cancellers_rest reached rest k u (by rw [call]; rfl)
  | reclaiming u v tail => exact cancellers_rest reached rest k u (by rw [call]; rfl)

theorem workers_rest (S : SchedulerId) : (s.schedulers S).queue = [] := by
  by_contra busy
  rcases worker_moves reached busy with ⟨event, may, mine⟩
  exact rest event may (Or.inr (Or.inr mine))

omit rest in
/-- The registration of a suspended wait has returned its handle. -/
theorem suspended_handle {w : WaitId} {t : TokenId} (here : (s.waits w).frame = .parked)
    (token : (s.waits w).token = some t) :
    (s.registry.registrations w).register = .returned ∧
      (s.registry.registrations w).unregister = .idle ∧ s.registry.tokenOf w = t := by
  have hook := reachable_hooked reached w
  have owned : (s.waits w).Owned := ⟨by simp [here], by simp [token]⟩
  have fits := hook.fits owned
  rw [here] at fits
  have returned := hook.handle fits.1
  have made := hook.made owned (by simp [returned])
  rw [token, Option.some.injEq] at made
  exact ⟨returned, fits.2, made.1.symm⟩

/-- The callback of a suspended wait runs in a cancelling call. -/
theorem callbacks_rest {w : WaitId} (here : (s.waits w).frame = .parked)
    (called : (s.waits w).callback ≠ .idle) (unfinished : (s.waits w).callback ≠ .done) : False := by
  have hook := reachable_hooked reached w
  rcases called_token reached called with ⟨t, token, _⟩
  have owned : (s.waits w).Owned := ⟨by simp [here], by simp [token]⟩
  have handle := suspended_handle reached here token
  rcases Cancellation.reachable_consistent (reachable_registry reached) with ⟨life, _, _, ok⟩
  have entry := ok.entries w
  have started : (life w).started ≠ 0 := by
    rw [<- entry.started]
    exact fun zero => called ((hook.started owned).mpr zero)
  have finished : (life w).finished = 0 := by
    rw [<- entry.finished]
    by_contra finished
    exact unfinished (hook.finished owned finished)
  have outside := entry.returned handle.1
  cases phase : life w with
  | running k =>
      exact undispatched reached rest k w (Or.inr (Or.inl ((ok.lists.running k w).mpr phase)))
  | inlineRunning => exact outside.2.2.2 phase
  | _ => simp [phase, Cancellation.Life.started, Cancellation.Life.finished] at started finished

/-- The claimer of a waiter wakes it, and the worker resumes it. -/
theorem suspended_unclaimed {w : WaitId} (suspended : s.Suspended w) :
    (s.waits w).claimed = false := by
  rcases reachable_noded reached with ⟨queued, spot, noded⟩
  have node := noded.nodes w
  have here := suspended.1
  by_contra claimed
  have claim := node.claim
  have unheld := unheld_rest rest noded (show (s.waits w).frame.inFlight = true by
    rw [here]; rfl)
  have drains : (spot w).wakes = 0 := by
    cases place : spot w with
    | waking who => simp [place, Spot.holder] at unheld
    | _ => rfl
  have calls : (s.waits w).callback ≠ .waking := by
    intro waking
    exact callbacks_rest reached rest here (by simp [waking]) (by simp [waking])
  rw [drains, if_neg calls, if_pos (by simpa using claimed)] at claim
  have woken : (s.waits w).wakes = 1 := by omega
  cases agent : (s.waits w).agent with
  | thread =>
      have counter := node.counter agent (by rw [here]; rfl) (by simp [here])
      rw [suspended.2 agent, woken] at counter
      cases counter
  | coroutine c S =>
      have count := queued S c w
      rw [workers_rest reached rest S, if_pos ⟨agent, woken, by rw [here]; rfl⟩] at count
      cases count

/-- A completed future has no suspended wait. -/
theorem suspended_uncompleted {w : WaitId} (suspended : s.Suspended w) :
    (s.futures (s.waits w).future).isCompleted = false := by
  rcases reachable_noded reached with ⟨_, spot, noded⟩
  have completing := reachable_completing reached
  have free := suspended_unclaimed reached rest suspended
  have node := noded.nodes w
  by_contra completed
  have closed : (s.futures (s.waits w).future).closed = true := by
    rcases completing.closing _ (by simpa using completed) with closed | ⟨k, will⟩
    · exact closed
    · have flight : (s.complete k).inFlight = some (s.waits w).future := by
        cases call : s.complete k <;>
          simp_all [CompleteFrame.willClose, CompleteFrame.inFlight]
      exact absurd flight (completers_rest rest k _)
  have linked := node.linked (by rw [suspended.1]; rfl)
  have unsettled : (spot w).settled ≠ true := by
    intro settled
    simp [node.settled settled] at free
  have unheld := unheld_rest rest noded (show (s.waits w).frame.inFlight = true by
    rw [suspended.1]; rfl)
  cases place : spot w with
  | listed =>
      have mem := (noded.listed (s.waits w).future w).mpr ⟨place, rfl⟩
      rw [noded.empty _ closed] at mem
      cases mem
  | stolen who => simp [place, Spot.holder] at unheld
  | waking who => simp [place, Spot.holder] at unheld
  | settling who => simp [place, Spot.holder] at unheld
  | gone => simp [place, Spot.settled] at unsettled
  | absent => simp [place, Spot.linked] at linked
  | own => simp [place, Spot.linked] at linked
  | refused => simp [place, Spot.linked] at linked

/-- A cancelled token has no suspended wait. -/
theorem suspended_uncancelled {w : WaitId} {t : TokenId} (suspended : s.Suspended w)
    (token : (s.waits w).token = some t) : (s.registry.tokens t).token.isCancelled = false := by
  rcases reachable_noded reached with ⟨_, spot, noded⟩
  have free := suspended_unclaimed reached rest suspended
  have handle := suspended_handle reached suspended.1 token
  rcases Cancellation.reachable_consistent (reachable_registry reached) with ⟨life, _, _, ok⟩
  have entry := ok.entries w
  have outside := entry.returned handle.1
  have owned : (s.waits w).Owned := ⟨by simp [suspended.1], by simp [token]⟩
  by_contra cancelled
  -- A finished callback would have claimed the waiter.
  have unfinished : (life w).finished = 0 := by
    rw [<- entry.finished]
    by_contra finished
    have done := (reachable_hooked reached w).finished owned finished
    simp [(noded.nodes w).done done] at free
  have undispatched (k : CallId) := undispatched reached rest k w
  have free := entry.removed
  rw [handle.2.1] at free
  cases phase : life w with
  | listed =>
      have unset := ok.lists.listed w phase
      rw [handle.2.2] at unset
      exact cancelled unset
  | removed => simp [phase] at free
  | detached k => exact undispatched k (Or.inl ((ok.lists.pendingMem k w).mpr phase))
  | running k => exact undispatched k (Or.inr (Or.inl ((ok.lists.running k w).mpr phase)))
  | ran k => exact undispatched k (Or.inr (Or.inr (Or.inl ((ok.lists.dropping k w).mpr phase))))
  | dropped => simp [phase, Cancellation.Life.finished] at unfinished
  | inlineRan => simp [phase, Cancellation.Life.finished] at unfinished
  | absent => exact outside.1 phase
  | entering => exact outside.2.1 phase
  | calling => exact outside.2.2.1 phase
  | inlineRunning => exact outside.2.2.2 phase

end rest

end Waiter
end UfsrvRx
