import UfsrvRx.Waiter.Outcome
import UfsrvRx.WriteOnce.Cell

namespace UfsrvRx
namespace Waiter

open Transition
open Future (Result)
open WriteOnce (Cell Action Phase)

/-!
# A future that is waited for as a cell

The other side of the future is the same cell: the calls of `UfsrvFutureGet` and
`UfsrvFutureGetWithCancellation` are its readers.  A wait reads when it returns, whether it was
suspended, blocked or neither of them, and a cancelled one leaves without the value.
-/

variable (f : FutureId)

/-- How far a wait is as a reader of the future. -/
def Wait.phase (wait : Wait) : Phase :=
  if wait.future ≠ f ∨ wait.frame = .idle then .absent
  else if wait.frame.inFlight then .waiting
  else .gone

/-- What an event is as an action on the cell. -/
def act (s : State) : Event -> Option (Action Result WaitId)
  | .completeExchange _ g result =>
      if g = f then some (if (s.futures f).isCompleted then .lose else .settle result) else none
  | .waitStart wait _ g _ => if g = f then some (.join wait) else none
  | .waitCheckToken wait token | .waitRecheck wait token =>
      if (s.waits wait).future = f ∧ (s.registry.tokens token).token.isCancelled then
        some (.leave wait)
      else none
  | .waitReturn wait =>
      if (s.waits wait).future = f then some (.read wait (s.futures f).result) else none
  | _ => none

/-- The outcome of the future, which the winner has with it until it is stored. -/
structure Carries (s : State) (outcome : Option Result) : Prop where
  completed : (s.futures f).isCompleted = outcome.isSome
  writing : forall k result, s.complete k = .writing f result -> outcome = some result
  storing : forall k, s.complete k = .storing f -> outcome = some (s.futures f).result
  ready : (s.futures f).isReady = true -> outcome = some (s.futures f).result

/-- The cell that the future is. -/
structure Shows (s : State) (cell : Cell Result WaitId) : Prop where
  outcome : Carries f s cell.outcome
  readers : cell.readers = fun wait => (s.waits wait).phase f

variable {f : FutureId} {s after : State} {outcome : Option Result}

/-! ## The outcome -/

/-- What a completion writes. -/
def FutureCell.written (cell : FutureCell) : Bool × Bool × Result :=
  (cell.isCompleted, cell.isReady, cell.result)

namespace Carries

/-- What the future and its completing calls carry is left alone. -/
theorem same (ok : Carries f s outcome)
    (written : (after.futures f).written = (s.futures f).written)
    (complete : forall k, (after.complete k).unpublished = some f ->
      s.complete k = after.complete k) : Carries f after outcome := by
  simp only [FutureCell.written, Prod.mk.injEq] at written
  rcases written with ⟨completed, ready, result⟩
  refine ⟨completed.trans ok.completed, ?_, ?_, ?_⟩
  · intro k r here
    refine ok.writing k r ((complete k ?_).trans here)
    simp [here, CompleteFrame.unpublished]
  · intro k here
    rw [result]
    refine ok.storing k ((complete k ?_).trans here)
    simp [here, CompleteFrame.unpublished]
  · rw [ready, result]
    exact ok.ready

theorem still (ok : Carries f s outcome) (futures : after.futures = s.futures)
    (complete : after.complete = s.complete) : Carries f after outcome :=
  ok.same (by rw [futures]) fun _ _ => by rw [complete]

/-- A completing call goes on, not with the result of this future. -/
theorem advance (ok : Carries f s outcome) (k : CallId) {frame : CompleteFrame}
    (other : frame.unpublished ≠ some f) : Carries f (s.setComplete k frame) outcome := by
  refine ok.same rfl ?_
  intro j unpublished
  by_cases mine : j = k
  · subst mine
    simp only [State.setComplete, Function.update_self] at unpublished
    exact absurd unpublished other
  · simp only [State.setComplete, Function.update_of_ne mine]

/-- The cell of a future changes, for another one or where no completion writes. -/
theorem setFuture (ok : Carries f s outcome) {g : FutureId} {cell : FutureCell}
    (same : g = f -> cell.written = (s.futures g).written) :
    Carries f (s.setFuture g cell) outcome := by
  refine ok.same ?_ fun _ _ => rfl
  by_cases mine : f = g
  · subst mine
    simp only [State.setFuture, Function.update_self, same rfl]
  · simp only [State.setFuture, Function.update_of_ne mine]

/-- The winner of the exchange decides the outcome. -/
theorem win (ok : Carries f s none) (k : CallId) (result : Result) :
    Carries f ((s.setComplete k (.writing f result)).setFuture
      f { s.futures f with isCompleted := true }) (some result) := by
  refine ⟨?_, ?_, ?_, ?_⟩
  · simp [State.setFuture]
  · intro j r here
    by_cases mine : j = k
    · subst mine
      simp only [State.setFuture, State.setComplete, Function.update_self] at here
      cases here
      rfl
    · simp only [State.setFuture, State.setComplete, Function.update_of_ne mine] at here
      cases ok.writing j r here
  · intro j here
    by_cases mine : j = k
    · subst mine
      simp [State.setFuture, State.setComplete] at here
    · simp only [State.setFuture, State.setComplete, Function.update_of_ne mine] at here
      cases ok.storing j here
  · intro ready
    simp only [State.setFuture, Function.update_self] at ready
    cases ok.ready ready

/-- The winner stores its result. -/
theorem write (ok : Carries f s outcome) {k : CallId} {result : Result}
    (here : s.complete k = .writing f result) :
    Carries f ((s.setComplete k (.storing f)).setFuture
      f { s.futures f with result := result }) outcome := by
  have decided := ok.writing k result here
  refine ⟨?_, ?_, ?_, ?_⟩
  · simpa [State.setFuture] using ok.completed
  · intro j r writes
    by_cases mine : j = k
    · subst mine
      simp [State.setFuture, State.setComplete] at writes
    · simp only [State.setFuture, State.setComplete, Function.update_of_ne mine] at writes
      exact ok.writing j r writes
  · simpa [State.setFuture] using fun _ _ => decided
  · simpa [State.setFuture] using fun _ => decided

/-- And publishes it. -/
theorem publish (ok : Carries f s outcome) {k : CallId} (here : s.complete k = .storing f) :
    Carries f ((s.setComplete k (.closing f)).setFuture
      f { s.futures f with isReady := true }) outcome := by
  have decided := ok.storing k here
  have published : CompleteFrame.unpublished (.closing f) ≠ some f := by simp [CompleteFrame.unpublished]
  refine ⟨?_, (ok.advance k published).writing, ?_, ?_⟩
  · simpa [State.setFuture] using ok.completed
  · intro j storing
    simpa [State.setFuture] using decided
  · simpa [State.setFuture] using decided

end Carries

/-! ## The readers -/

/-- A wait goes on between its call and its return. -/
theorem phase_flight {wait entry : Wait} (future : entry.future = wait.future)
    (before : wait.frame.inFlight = true) (flight : entry.frame.inFlight = true) :
    entry.phase f = wait.phase f := by
  have begun : wait.frame ≠ .idle ∧ entry.frame ≠ .idle := by
    constructor
    · intro idle
      rw [idle] at before
      cases before
    · intro idle
      rw [idle] at flight
      cases flight
  simp only [Wait.phase, future, before, flight, begun, or_false]

theorem phase_frame {wait entry : Wait} (future : entry.future = wait.future)
    (frame : entry.frame = wait.frame) : entry.phase f = wait.phase f := by
  simp only [Wait.phase, future, frame]

namespace Shows

variable {cell : Cell Result WaitId} {w : WaitId} {entry : Wait}

theorem still (ok : Shows f s cell) (futures : after.futures = s.futures)
    (complete : after.complete = s.complete) (waits : after.waits = s.waits) :
    Shows f after cell :=
  ⟨ok.outcome.still futures complete, by rw [waits]; exact ok.readers⟩

/-- One wait moves on as a reader. -/
theorem reader (ok : Shows f s cell) (futures : after.futures = s.futures)
    (complete : after.complete = s.complete) (waits : after.waits = Function.update s.waits w entry)
    {phase : Phase} (here : entry.phase f = phase) : Shows f after (cell.setReader w phase) := by
  refine ⟨ok.outcome.still futures complete, ?_⟩
  funext other
  rw [waits, Cell.setReader, ok.readers]
  by_cases mine : other = w
  · subst mine
    simp only [Function.update_self, here]
  · simp only [Function.update_of_ne mine]

/-- A completing call goes on, not with the result of this future. -/
theorem advance (ok : Shows f s cell) (k : CallId) {frame : CompleteFrame}
    (other : frame.unpublished ≠ some f) : Shows f (s.setComplete k frame) cell :=
  ⟨ok.outcome.advance k other, ok.readers⟩

theorem pass (ok : Shows f s cell) (k : CallId) {frame : CompleteFrame}
    (other : frame.unpublished = none) : Shows f (s.setComplete k frame) cell :=
  ok.advance k (by simp [other])

theorem setFuture (ok : Shows f s cell) {g : FutureId} {changed : FutureCell}
    (same : g = f -> changed.written = (s.futures g).written) :
    Shows f (s.setFuture g changed) cell :=
  ⟨ok.outcome.setFuture same, ok.readers⟩

theorem keep (ok : Shows f s cell) (futures : after.futures = s.futures)
    (complete : after.complete = s.complete) (waits : after.waits = Function.update s.waits w entry)
    (same : entry.phase f = (s.waits w).phase f) : Shows f after cell := by
  have moved := ok.reader futures complete waits rfl
  rwa [Cell.setReader_same] at moved
  rw [ok.readers, same]

end Shows

section

variable {cell : Cell Result WaitId}

/-- The wait is in flight at this point. -/
theorem flight_of {w : WaitId} {frame : WaitFrame} (here : (s.waits w).frame = frame)
    (flight : frame.inFlight = true) : (s.waits w).frame.inFlight = true := by
  rw [here, flight]

/-- A wait returns, with the result or without it. -/
theorem shows_finish (ok : Shows f s cell) {w : WaitId}
    (flight : (s.waits w).frame.inFlight = true) (result : Result)
    (mine : (s.waits w).future = f) :
    cell.readers w = .waiting ∧ Shows f (s.finish w result) (cell.setReader w .gone) := by
  have begun : (s.waits w).frame ≠ .idle := by
    intro idle
    rw [idle] at flight
    cases flight
  refine ⟨?_, ok.reader (by simp) (by simp) (State.waits_finish s w result) ?_⟩
  · rw [ok.readers]
    simp [Wait.phase, mine, begun, flight]
  · simp [Wait.phase, mine, WaitFrame.inFlight]

/-- A wait on another future returns. -/
theorem shows_finish_other (ok : Shows f s cell) {w : WaitId} (result : Result)
    (other : (s.waits w).future ≠ f) : Shows f (s.finish w result) cell := by
  refine ok.keep (by simp) (by simp) (State.waits_finish s w result) ?_
  simp [Wait.phase, other]

theorem shows_complete (ok : Shows f s cell) {later : Option Result} {result : State}
    (waits : result.waits = s.waits) (carries : Carries f result later) :
    Shows f result ⟨later, cell.readers⟩ :=
  ⟨carries, by rw [waits]; exact ok.readers⟩

/-- The exchange settles the cell, or loses. -/
theorem shows_exchange (ok : Shows f s cell) {k : CallId} {g : FutureId} {result : Result} :
    Exists fun later => Cell.machine.Does cell (act f s (.completeExchange k g result)) later ∧
      Shows f (next s (.completeExchange k g result)) later := by
  have returned : CompleteFrame.unpublished (.returned false) ≠ some f := by
    simp [CompleteFrame.unpublished]
  by_cases mine : g = f
  · subst mine
    simp only [act, next, if_true]
    split
    · rename_i completed
      refine ⟨cell, ⟨?_, rfl⟩, shows_complete ok rfl (ok.outcome.advance k returned)⟩
      change cell.outcome ≠ none
      rw [ok.outcome.completed] at completed
      exact Option.isSome_iff_ne_none.mp completed
    · rename_i pending
      have none : cell.outcome = none := by
        rw [ok.outcome.completed] at pending
        exact Option.not_isSome_iff_eq_none.mp pending
      exact ⟨_, ⟨none, rfl⟩, shows_complete ok rfl ((none ▸ ok.outcome).win k result)⟩
  · simp only [act, next, if_neg mine]
    refine ⟨cell, rfl, ?_⟩
    split
    · exact shows_complete ok rfl (ok.outcome.advance k returned)
    · have other : CompleteFrame.unpublished (.writing g result) ≠ some f := by
        simp [CompleteFrame.unpublished, mine]
      exact shows_complete ok rfl ((ok.outcome.advance k other).setFuture fun same => absurd same mine)

/-- A wait asks its token, and leaves without the result when it is cancelled. -/
theorem shows_ask (ok : Shows f s cell) {w : WaitId} {t : TokenId} {frame : WaitFrame}
    (flight : (s.waits w).frame.inFlight = true) (flies : frame.inFlight = true) :
    Exists fun later => Cell.machine.Does cell
      (if (s.waits w).future = f ∧ (s.registry.tokens t).token.isCancelled = true then
        some (.leave w) else none) later ∧
      Shows f (if (s.registry.tokens t).token.isCancelled then
        s.finish w (.ofError Future.ecanceled) else s.setFrame w frame) later := by
  cases (s.registry.tokens t).token.isCancelled with
  | false =>
      simp only [Bool.false_eq_true, and_false, if_false]
      exact ⟨cell, rfl, ok.keep rfl rfl rfl (phase_flight rfl flight flies)⟩
  | true =>
      simp only [and_true, if_true]
      by_cases mine : (s.waits w).future = f
      · rw [if_pos mine]
        rcases shows_finish ok flight (.ofError Future.ecanceled) mine with ⟨waiting, shows⟩
        exact ⟨_, ⟨waiting, rfl⟩, shows⟩
      · rw [if_neg mine]
        exact ⟨cell, rfl, shows_finish_other ok _ mine⟩

/-- Each step is an action on the cell, or leaves it as it was. -/
theorem shows_next (reached : machine.Reachable s) (ok : Shows f s cell) {event : Event}
    (may : enabled s event) : Exists fun later =>
      Cell.machine.Does cell (act f s event) later ∧ Shows f (next s event) later := by
  have still {after : State} (futures : after.futures = s.futures)
      (complete : after.complete = s.complete) (waits : after.waits = s.waits) :
      Exists fun later => Cell.machine.Does cell none later ∧ Shows f after later :=
    ⟨cell, rfl, ok.still futures complete waits⟩
  have keep {after : State} (w : WaitId) {entry : Wait} (futures : after.futures = s.futures)
      (complete : after.complete = s.complete)
      (waits : after.waits = Function.update s.waits w entry)
      (same : entry.phase f = (s.waits w).phase f) :
      Exists fun later => Cell.machine.Does cell none later ∧ Shows f after later :=
    ⟨cell, rfl, ok.keep futures complete waits same⟩
  have flying {w : WaitId} {frame : WaitFrame} {entry : Wait} (here : (s.waits w).frame = frame)
      (before : frame.inFlight = true) (future : entry.future = (s.waits w).future)
      (flight : entry.frame.inFlight = true) : entry.phase f = (s.waits w).phase f :=
    phase_flight future (flight_of here before) flight
  cases event with
  | registry inner =>
      rcases s.react_cases inner with same | ⟨w, _, _, moved⟩ | ⟨w, _, _, moved⟩
      · simp only [next, same]
        exact still rfl rfl rfl
      · simp only [next, moved]
        exact keep w rfl rfl rfl (phase_frame rfl rfl)
      · simp only [next, moved]
        exact keep w rfl rfl rfl (phase_frame rfl rfl)
  | waitStart w agent g token =>
      have idle : (s.waits w).frame = .idle := may.1
      have absent : (s.waits w).phase f = .absent := by simp [Wait.phase, idle]
      by_cases mine : g = f
      · refine ⟨cell.setReader w .waiting, ?_, ok.reader (by simp [next, State.setWait])
          (by simp [next, State.setWait]) (State.waits_setStatus _ _ _) ?_⟩
        · rw [act, if_pos mine]
          exact ⟨(congrFun ok.readers w).trans absent, rfl⟩
        · cases token <;> simp [Wait.phase, mine, WaitFrame.inFlight]
      · simp only [act, if_neg mine]
        refine keep w (by simp [next, State.setWait]) (by simp [next, State.setWait])
          (State.waits_setStatus _ _ _) ?_
        rw [absent]
        simp [Wait.phase, mine]
  | waitCheckToken w t => exact shows_ask ok (flight_of may.1 rfl) rfl
  | waitRecheck w t => exact shows_ask ok (flight_of may.1 rfl) rfl
  | waitReturn w =>
      have here : (s.waits w).frame = .reading := may
      simp only [act, next]
      by_cases mine : (s.waits w).future = f
      · rw [if_pos mine, mine]
        have ready := (reachable_outcome reached w).reading here
        rcases shows_finish ok (flight_of here rfl) (s.futures f).result mine with ⟨waiting, shows⟩
        exact ⟨_, ⟨⟨waiting, ok.outcome.ready (mine ▸ ready)⟩, rfl⟩, shows⟩
      · rw [if_neg mine]
        exact ⟨cell, rfl, shows_finish_other ok _ mine⟩
  | waitCheckState w =>
      have here : (s.waits w).frame = .checkingState := may
      simp only [next]
      split <;> exact keep w rfl rfl rfl (flying here rfl rfl rfl)
  | waitPush w =>
      have here : (s.waits w).frame = .allocated := may
      simp only [next]
      split
      · exact keep w rfl rfl rfl (flying here rfl rfl rfl)
      · have linked : Shows f (s.setFrame w (if (s.waits w).token = none then .parking
            else .retaining)) cell := by
          refine ok.keep rfl rfl rfl (flying here rfl rfl ?_)
          simp only
          split <;> rfl
        exact ⟨cell, rfl, linked.setFuture fun _ => rfl⟩
  | waitRetain w => exact keep w rfl rfl rfl (flying may rfl rfl rfl)
  | waitRegistered w => exact keep w rfl rfl rfl (flying may.1 rfl rfl rfl)
  | waitPark w =>
      exact keep w (by simp [next]) (by simp [next]) (State.waits_park s w) (flying may rfl rfl rfl)
  | waitRead w => exact keep w rfl rfl rfl (flying may.1 rfl rfl rfl)
  | waitClose w =>
      refine keep w rfl rfl rfl (flying may rfl rfl ?_)
      simp only [Wait.awake]
      split <;> rfl
  | waitUnregister w => exact keep w rfl rfl rfl (flying may.1 rfl rfl rfl)
  | waitUnregistered w won => exact keep w rfl rfl rfl (flying may.1 rfl rfl rfl)
  | waitRelease w =>
      refine keep w rfl rfl rfl (flying may rfl rfl ?_)
      simp only
      split <;> rfl
  | callbackClaim w =>
      simp only [next]
      split <;> exact keep w rfl rfl rfl (phase_frame rfl rfl)
  | callbackWake w =>
      have same := (s.waits w).callbackWoken_calls
      let entry : Wait := { (s.waits w).callbackWoken with callback := .done }
      have stored : (next s (.callbackWake w)).waits = Function.update s.waits w entry := by
        simp [next, State.setWait, entry]
      exact keep w (by simp [next, State.setWait]) (by simp [next, State.setWait]) stored
        (phase_frame same.2.2.2.2.2 same.2.1)
  | completeExchange k g result => exact shows_exchange ok
  | completeEnter k g result => exact ⟨cell, rfl, ok.pass k rfl⟩
  | completeReturn k g => exact ⟨cell, rfl, ok.pass k rfl⟩
  | completeWrite k g result =>
      refine ⟨cell, rfl, ?_⟩
      by_cases mine : g = f
      · subst mine
        exact shows_complete ok rfl (ok.outcome.write may)
      · exact Shows.setFuture (ok.advance k (by simp [CompleteFrame.unpublished, mine]))
          fun same => absurd same mine
  | completeReady k g =>
      refine ⟨cell, rfl, ?_⟩
      by_cases mine : g = f
      · subst mine
        exact shows_complete ok rfl (ok.outcome.publish may)
      · exact Shows.setFuture (ok.pass k rfl) fun same => absurd same mine
  | completeClose k g => exact ⟨cell, rfl, Shows.setFuture (ok.pass k rfl) fun _ => rfl⟩
  | completeClaim k g w rest =>
      refine ⟨cell, rfl, ?_⟩
      simp only [next]
      split
      · exact ok.pass k rfl
      · exact Shows.keep (ok.pass k rfl) rfl rfl rfl (phase_frame rfl rfl)
  | completeWake k g w rest =>
      have same := (s.waits w).drainWoken_calls
      have woken : Shows f (s.drainWake w) cell :=
        ok.keep (by simp) (by simp) (by simp) (phase_frame same.2.2.2.2.2 same.2.1)
      exact ⟨cell, rfl, woken.pass k rfl⟩
  | completeRelease k g w rest =>
      exact ⟨cell, rfl, Shows.keep (ok.pass k rfl) rfl rfl rfl (phase_frame rfl rfl)⟩
  | releaseSteal g | releaseReturn g => exact ⟨cell, rfl, ok.setFuture fun _ => rfl⟩
  | releaseClose g w rest =>
      have taken : Shows f (s.setFuture g { s.futures g with release := .dropping w rest }) cell :=
        ok.setFuture fun _ => rfl
      exact ⟨cell, rfl, taken.keep rfl rfl rfl (phase_frame rfl rfl)⟩
  | releaseDrop g w rest =>
      have taken : Shows f (s.setFuture g { s.futures g with release := .draining rest }) cell :=
        ok.setFuture fun _ => rfl
      exact ⟨cell, rfl, taken.keep rfl rfl rfl (phase_frame rfl rfl)⟩
  | spawn c S => exact still rfl rfl rfl
  | workerSpawn S c rest => exact still rfl rfl rfl
  | workerResume S c w rest =>
      simp only [act, next, State.resume]
      split
      · rename_i v suspended
        have parked := WaitFrame.seat_parked.mp ((reachable_seated reached).suspended c v suspended).2
        refine keep v rfl rfl rfl (flying parked rfl rfl ?_)
        simp only [Wait.awake]
        split <;> rfl
      · exact still rfl rfl rfl
  | coroutineExit c => exact still rfl rfl rfl

end

theorem simulates (f : FutureId) : machine.Simulates Cell.machine (act f) (Shows f) where
  initially := by
    rintro _ rfl
    refine ⟨_, rfl, ⟨rfl, nofun, nofun, nofun⟩, ?_⟩
    funext w
    simp [Cell.empty, Wait.phase, start]
  step := fun _ _ _ reached may ok => shows_next reached ok may

/-- Whoever completes a future, cancels and waits, and on whatever coroutines and threads, the
future is a cell: one completion wins, each wait reads at most once, and all that read see one
result. -/
theorem atomicWaits (f : FutureId) {events : List Event} {last : State}
    (run : machine.Run start events last) : Exists fun cell : Cell Result WaitId =>
      Cell.Settled (machine.trace (act f) start events) cell ∧ Shows f last cell := by
  rcases (simulates f).initially start rfl with ⟨_, rfl, here⟩
  rcases (simulates f).run (.start rfl) here run with ⟨cell, follows, shows⟩
  exact ⟨cell, .of_run follows, shows⟩

/-- One thread blocks, two calls complete the future, and a second thread comes when it is ready. -/
def blockAndRace : List Event :=
  [.waitStart 0 .thread 0 none, .waitCheckState 0, .waitPush 0, .waitPark 0,
    .completeEnter 0 0 ⟨0, some 7, true⟩, .completeEnter 1 0 (.ofError 5),
    .completeExchange 0 0 ⟨0, some 7, true⟩, .completeExchange 1 0 (.ofError 5),
    .completeWrite 0 0 ⟨0, some 7, true⟩, .completeReady 0 0, .waitStart 1 .thread 0 none,
    .waitCheckState 1, .waitReturn 1, .completeClose 0 0, .completeClaim 0 0 0 [],
    .completeWake 0 0 0 [], .waitRead 0, .waitClose 0, .waitRelease 0, .waitReturn 0]

theorem atomicWaits_blockAndRace :
    machine.trace (act 0) start blockAndRace =
      [.join 0, .settle ⟨0, some 7, true⟩, .lose, .join 1, .read 1 ⟨0, some 7, true⟩,
        .read 0 ⟨0, some 7, true⟩] ∧
      Exists fun cell : Cell Result WaitId =>
        Cell.Settled (machine.trace (act 0) start blockAndRace) cell ∧
          Shows 0 (machine.after start blockAndRace) cell := by
  have may : machine.AllEnabled start blockAndRace := by
    repeat' first | exact trivial | exact rfl | apply And.intro | exact Nat.one_pos | simp
  exact ⟨rfl, atomicWaits 0 may.run⟩

end Waiter
end UfsrvRx
