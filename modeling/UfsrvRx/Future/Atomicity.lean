import UfsrvRx.Future.Delivery
import UfsrvRx.WriteOnce.Cell

namespace UfsrvRx
namespace Future

open Transition
open WriteOnce (Cell Action Phase)

/-!
# The future as a cell

Whatever the calls of `sFutureComplete` and `sFutureThen` do in their many steps, and in whatever
order these come, a future is a cell that is written once.  It is settled by the exchange on
`is_completed`, long before the result is there to be read, and a continuation reads it when its
callback is invoked.
-/

/-- How far the continuation is as a reader of the future. -/
def Continuation.phase (entry : Continuation) : Phase :=
  if entry.started ≠ 0 then .gone
  else if entry.frame = .idle ∨ entry.frame = .returned false then .absent
  else .waiting

/-- What the winner of the exchange stores, or is about to. -/
def State.outcome (s : State) : Option Result := s.winner.map s.argument

/-- What an event is as an action on the cell. -/
def act (s : State) : Event -> Option (Action Result ThenId)
  | .completeExchange who => some (if s.isCompleted then .lose else .settle (s.argument who))
  | .thenLoad node => some (.join node)
  | .completeClaim _ node _ => if (s.thens node).claimed then none else some (.read node s.result)
  | .thenCall node _ => some (.read node s.result)
  | _ => none

/-- No operator moves the result out. -/
def Stays (_ : State) (event : Event) : Prop := event ≠ .move

/-- The cell that the future is. -/
def State.cell (s : State) : Cell Result ThenId :=
  ⟨s.outcome, fun node => (s.thens node).phase⟩

/-! ## What the steps leave -/

section

variable {s : State}

theorem cell_congr {after : State} (outcome : after.outcome = s.outcome)
    (thens : after.thens = s.thens) : after.cell = s.cell := by
  simp only [State.cell, outcome, thens]

theorem outcome_congr {after : State} (winner : after.winner = s.winner)
    (argument : forall who, s.winner = some who -> after.argument who = s.argument who) :
    after.outcome = s.outcome := by
  unfold State.outcome
  rw [winner]
  cases won : s.winner with
  | none => rfl
  | some who => exact congrArg some (argument who won)

/-- Nothing of the cell is touched. -/
theorem cell_still {after : State} (winner : after.winner = s.winner) (sets : after.sets = s.sets)
    (thens : after.thens = s.thens) : after.cell = s.cell := by
  refine cell_congr (outcome_congr winner ?_) thens
  intro who _
  cases who with
  | destroy | cancel n => rfl
  | set call => simp only [State.argument, sets]

/-- A continuation moves on as a reader. -/
theorem cell_setThen {node : ThenId} {entry : Continuation} {phase : Phase}
    (here : entry.phase = phase) : (s.setThen node entry).cell = s.cell.setReader node phase := by
  refine congrArg (Cell.mk s.outcome) ?_
  funext other
  by_cases mine : other = node
  · subst mine
    simpa only [State.setThen, Function.update_self] using here
  · simp only [State.setThen, State.cell, Function.update_of_ne mine]

/-- A continuation moves on, and stays the same reader. -/
theorem cell_reader {node : ThenId} {entry : Continuation}
    (same : entry.phase = (s.thens node).phase) : (s.setThen node entry).cell = s.cell :=
  (cell_setThen same).trans (Cell.setReader_same rfl)

/-- A call that sets the promise keeps its argument once it has won. -/
theorem cell_sets {after : State} {call : CallId} {entry : SetCall}
    (winner : after.winner = s.winner) (thens : after.thens = s.thens)
    (sets : after.sets = Function.update s.sets call entry)
    (result : s.winner = some (.set call) -> entry.result = (s.sets call).result) :
    after.cell = s.cell := by
  refine cell_congr (outcome_congr winner ?_) thens
  intro who won
  cases who with
  | destroy | cancel n => rfl
  | set other =>
      by_cases mine : other = call
      · subst mine
        simp only [State.argument, sets, Function.update_self, result won]
      · simp only [State.argument, sets, Function.update_of_ne mine]

/-- The winner is past the exchange. -/
theorem not_winner_of_idle (ok : Decided s) {call : CallId}
    (idle : (s.sets call).frame = .idle) : s.winner ≠ some (.set call) := by
  rcases ok with ⟨completed, _, promised⟩
  intro won
  have outside := (completed.won (.set call)).mpr won
  rw [(promised.sets call).idle idle] at outside
  exact outside rfl

/-- What is passed to a callback is the outcome. -/
theorem outcome_ready (ok : Completed s) (unmoved : s.moved = false) (ready : s.isReady = true) :
    s.outcome = some s.result := by
  rcases ok.ready.mp ready with ⟨who, published⟩
  have won := (ok.won who).mp (by simp [published])
  rw [State.outcome, won, ok.kept unmoved who (.inr published)]
  rfl

theorem reachable_unmoved (reached : (machine.restrict Stays).Reachable s) : s.moved = false := by
  refine reached.invariant (fun s => s.moved = false) ?_ ?_
  · rintro _ rfl
    rfl
  · rintro s event _ unmoved ⟨_, stays⟩
    change (next s event).moved = false
    cases event with
    | move => exact absurd rfl stays
    | registry event =>
        rcases react_cases s event with same | ⟨n, _, _, same⟩ | same <;>
          simpa [next, same, State.setComplete] using unmoved
    | setExchange call result | destroyExchange | completeExchange who | completeTake who
    | completeClaim who node rest | thenLoad node | thenPush node | attachClaim node
    | attachTake node =>
        simp only [next]
        split <;> exact unmoved
    | _ => exact unmoved

/-- Where a registering call stands, before its callback is invoked. -/
theorem waiting_of_way {way : Way} {entry : Continuation} (ok : ThenOk way entry)
    (unstarted : way.started = 0) (seen : way.seen = true) : entry.phase = .waiting := by
  have started : entry.started = 0 := ok.started.trans unstarted
  have frame : entry.frame ≠ .idle ∧ entry.frame ≠ .returned false := by
    cases pushed : way.linked with
    | true => rcases ok.shared pushed with here | here <;> simp [here]
    | false =>
        rw [ok.own pushed]
        cases way <;> simp_all [Way.frame, Way.seen, Way.started, Way.linked]
  simp [Continuation.phase, started, frame]

/-- A callback is invoked with the outcome. -/
theorem does_read (decided : Decided s) {way : ThenId -> Way} (delivered : Delivered s way)
    (unmoved : s.moved = false) {node : ThenId} (unstarted : (way node).started = 0)
    (seen : (way node).seen = true) {entry : Continuation} (started : entry.started ≠ 0) :
    Cell.machine.Does s.cell (some (.read node s.result)) (s.setThen node entry).cell := by
  have outcome := outcome_ready decided.1 unmoved (delivered.seen node seen)
  have waiting := waiting_of_way (delivered.entries node) unstarted seen
  refine ⟨⟨waiting, outcome⟩, cell_setThen ?_⟩
  simp [Continuation.phase, started]

/-- Each step is an action on the cell, or leaves it as it was. -/
theorem cell_next (decided : Decided s) {way : ThenId -> Way} (delivered : Delivered s way)
    (unmoved : s.moved = false) {event : Event} (may : enabled s event) (stays : Stays s event) :
    Cell.machine.Does s.cell (act s event) (next s event).cell := by
  cases event with
  | move => exact absurd rfl stays
  | registry event =>
      rcases react_cases s event with same | ⟨n, _, _, same⟩ | same <;>
        exact cell_still (by simp [next, same, State.setComplete])
          (by simp [next, same, State.setComplete]) (by simp [next, same, State.setComplete])
  | setExchange call result =>
      have other := not_winner_of_idle decided may.1
      simp only [next]
      split <;> exact cell_sets rfl rfl rfl fun won => absurd won other
  | setCompleted call won | setDrop call => exact cell_sets rfl rfl rfl fun _ => rfl
  | completeExchange who =>
      simp only [act, next]
      split
      · rename_i completed
        refine ⟨?_, cell_still rfl rfl rfl⟩
        have winner := decided.1.completed.mp completed
        change s.winner.map s.argument ≠ none
        simpa using winner
      · rename_i pending
        have none : s.winner = none := by
          by_contra some
          exact pending (decided.1.completed.mpr some)
        refine ⟨?_, ?_⟩
        · change s.winner.map s.argument = Option.none
          rw [none]
          rfl
        · cases who <;> rfl
  | completeClaim who node rest =>
      have segment : (s.complete who).segment = ⟨node :: rest, none, none⟩ := by
        rw [show s.complete who = _ from may]
        rfl
      have place := (delivered.drains.pending who node).mp
        (by rw [segment]; exact List.mem_cons_self)
      have stolen : way node = .stolen who := by
        cases phase : way node <;> simp_all [Way.place]
      have unclaimed : (s.thens node).claimed = false := by
        have entry := (delivered.entries node).claimed
        rw [stolen] at entry
        exact entry rfl
      simp only [act, next, unclaimed]
      exact does_read decided delivered unmoved (by rw [stolen]; rfl) (by rw [stolen]; rfl)
        (Nat.succ_ne_zero _)
  | thenCall node path =>
      have frame : (s.thens node).frame = .calling path := may
      cases path with
      | ready =>
          have here := delivered.way_of_frame .ready frame (by simp [Way.frame, Way.linked])
          exact does_read decided delivered unmoved (by rw [here]; rfl) (by rw [here]; rfl)
            (Nat.succ_ne_zero _)
      | refused =>
          have here := delivered.way_of_frame .refused frame (by simp [Way.frame, Way.linked])
          exact does_read decided delivered unmoved (by rw [here]; rfl) (by rw [here]; rfl)
            (Nat.succ_ne_zero _)
  | thenLoad node =>
      have frame : (s.thens node).frame = .idle := may
      have here := delivered.way_of_frame .absent frame (by simp [Way.frame, Way.linked])
      have started : (s.thens node).started = 0 := by
        rw [(delivered.entries node).started, here]
        rfl
      have absent : (s.thens node).phase = .absent := by simp [Continuation.phase, started, frame]
      refine ⟨absent, ?_⟩
      simp only [next]
      split <;> exact cell_setThen (by simp [Continuation.phase, started])
  | thenFailed node =>
      have frame : (s.thens node).frame = .idle := may
      exact cell_reader (by simp [Continuation.phase, frame])
  | thenPush node =>
      have frame : (s.thens node).frame = .allocated := may
      simp only [next]
      split
      · exact cell_reader (by simp [Continuation.phase, frame])
      · refine (cell_still (s := s.setThen node _) rfl rfl rfl).trans (cell_reader ?_)
        simp [Continuation.phase, frame]
  | thenCallReturned node path =>
      have frame : (s.thens node).frame = .running path := may
      refine cell_reader ?_
      cases path <;> simp [Continuation.phase, frame]
  | thenDiscard node =>
      have frame : (s.thens node).frame = .discarding := may
      exact cell_reader (by simp [Continuation.phase, frame])
  | thenRelease node =>
      have frame : (s.thens node).frame = .linked := may
      exact cell_reader (by simp [Continuation.phase, frame])
  | completeRan who node rest | completeRelease who node rest =>
      exact (cell_still (s := s.setThen node _) rfl rfl rfl).trans (cell_reader rfl)
  | destroyExchange | completeTake who | attachClaim node | attachTake node =>
      simp only [next]
      split <;> exact cell_still rfl rfl rfl
  | _ => exact cell_still rfl rfl rfl

end

theorem simulates : (machine.restrict Stays).Simulates Cell.machine act
    fun s cell => cell = s.cell where
  initially := by
    rintro _ rfl
    exact ⟨_, rfl, rfl⟩
  step := by
    rintro s event _ reached ⟨may, stays⟩ rfl
    rcases reachable_delivered reached.of_restrict with ⟨way, delivered⟩
    exact ⟨_, cell_next (reachable_decided reached.of_restrict) delivered
      (reachable_unmoved reached) may stays, rfl⟩

/-- The decisive steps of any run, in their order, are a run of the cell: one exchange is won, and
every callback of every continuation is invoked with the one result, however it was reached. -/
theorem atomicFuture {events : List Event} {last : State}
    (run : (machine.restrict Stays).Run start events last) :
    Cell.Settled (machine.trace act start events) last.cell := by
  rcases simulates.run (.start rfl) rfl run with ⟨_, follows, rfl⟩
  rw [Machine.trace_restrict] at follows
  exact .of_run follows

theorem atomicFuture_thenDuringDrain :
    machine.trace act start thenDuringDrain =
      [.join 0, .settle ⟨0, some 7, true⟩, .join 2, .read 0 ⟨0, some 7, true⟩, .join 1,
        .read 1 ⟨0, some 7, true⟩, .read 2 ⟨0, some 7, true⟩] ∧
      Cell.Settled (machine.trace act start thenDuringDrain)
        (machine.after start thenDuringDrain).cell := by
  have may : (machine.restrict Stays).AllEnabled start thenDuringDrain := by
    repeat' first | exact trivial | exact rfl | apply And.intro | simp [Stays]
  exact ⟨rfl, atomicFuture may.run⟩

end Future
end UfsrvRx
