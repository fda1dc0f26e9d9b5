import UfsrvRx.Transition.Machine
import UfsrvRx.Future.Result

namespace UfsrvRx
namespace Combinator

open Transition

/-!
# Registering with several inputs

The part that `UfsrvFutureAll`, `UfsrvFutureAny` and `sFutureZip` have in common: a call
registers one continuation with each of its inputs in turn, while the inputs complete in
other threads.  A continuation that `UfsrvFutureThen` accepts is run once: by the call
itself if the future is READY or its stack is closed, else by the drain of the completing
call, which works its list off in one thread.  Whoever wants to move a result out of a
future claims it with `sConsumeOnce` first.

An entry of the array is named by its index.  What a continuation does is left to the
machines that contain this one; here it has only been entered and not returned.  When the
registration is refused, the call does the work of the entry itself.
-/

open Future (Result)

abbrev FutureId := Nat

abbrev Slot := Nat

/-- The arguments of the call: the length of the array and its entries, which may be NULL
and may be repeated. -/
structure Call where
  count : Nat
  inputs : Slot -> Option FutureId
  positive : 0 < count

/-- Program points of the completing call of an input, from its store of READY to the end
of `sDrainContinuations`. -/
inductive DrainFrame
  | idle
  | closing
  | draining (rest : List Slot)
  | running (slot : Slot) (rest : List Slot)
  | returned
deriving DecidableEq, Repr

/-- The part of `struct UfsrvFuture` that the calls use.  The result that the future was
completed with is history. -/
structure Cell where
  isReady : Bool
  result : Result
  completed : Result
  isConsumed : Bool
  closed : Bool
  continuations : List Slot
  drain : DrainFrame
deriving DecidableEq, Repr

/-- Program points of the loop: before `UfsrvFutureThen`, inside it after READY was not
seen, at work for an entry, and after the loop. -/
inductive LoopFrame
  | visiting (slot : Slot)
  | pushing (slot : Slot)
  | inside (slot : Slot)
  | returned
deriving DecidableEq, Repr

/-- What has become of an entry. -/
inductive SlotFrame
  | idle
  | linked
  | running (refused : Bool)
  | done (refused : Bool)
deriving DecidableEq, Repr

structure State where
  cells : FutureId -> Cell
  loop : LoopFrame
  slots : Slot -> SlotFrame

inductive Event
  | complete (future : FutureId) (result : Result)
  | close (future : FutureId)
  | drainNext (future : FutureId) (slot : Slot) (rest : List Slot)
  | drainDone (future : FutureId) (slot : Slot) (rest : List Slot)
  | drainReturn (future : FutureId)
  | refuse (slot : Slot)
  | check (slot : Slot) (future : FutureId)
  | push (slot : Slot) (future : FutureId)
  | loopDone (slot : Slot)
  | loopReturn
  | consume (future : FutureId)
  | move (future : FutureId)
deriving DecidableEq, Repr

namespace State

def setCell (s : State) (future : FutureId) (cell : Cell) : State :=
  { s with cells := Function.update s.cells future cell }

def setSlot (s : State) (slot : Slot) (frame : SlotFrame) : State :=
  { s with slots := Function.update s.slots slot frame }

def setDrain (s : State) (future : FutureId) (frame : DrainFrame) : State :=
  s.setCell future { s.cells future with drain := frame }

/-- The work of an entry is over. -/
def finish (s : State) (slot : Slot) : State :=
  match s.slots slot with
  | .running refused => s.setSlot slot (.done refused)
  | _ => s

@[simp] theorem finish_cells (s : State) (slot : Slot) : (s.finish slot).cells = s.cells := by
  unfold finish
  split <;> rfl

@[simp] theorem finish_loop (s : State) (slot : Slot) : (s.finish slot).loop = s.loop := by
  unfold finish
  split <;> rfl

end State

section call

variable (call : Call)

/-- Before which step each event stands. -/
def enabled (s : State) : Event -> Prop
  | .complete future _ => (s.cells future).isReady = false
  | .close future => (s.cells future).drain = .closing
  | .drainNext future slot rest => (s.cells future).drain = .draining (slot :: rest)
  | .drainDone future slot rest => (s.cells future).drain = .running slot rest
  | .drainReturn future => (s.cells future).drain = .draining []
  | .refuse slot => slot < call.count ∧ (s.loop = .visiting slot ∨ s.loop = .pushing slot)
  | .check slot future => slot < call.count ∧ s.loop = .visiting slot ∧
      call.inputs slot = some future
  | .push slot future => s.loop = .pushing slot ∧ call.inputs slot = some future
  | .loopDone slot => s.loop = .inside slot
  | .loopReturn => s.loop = .visiting call.count
  | .consume future => (s.cells future).isConsumed = false
  | .move future => (s.cells future).isReady = true ∧ (s.cells future).isConsumed = true

/-- What each event does. -/
def next (s : State) : Event -> State
  | .complete future result =>
      s.setCell future
        { s.cells future with
          isReady := true
          result := result
          completed := result
          drain := .closing }
  | .close future =>
      let cell := s.cells future
      s.setCell future
        { cell with continuations := [], closed := true, drain := .draining cell.continuations }
  | .drainNext future slot rest =>
      (s.setDrain future (.running slot rest)).setSlot slot (.running false)
  | .drainDone future slot rest => (s.setDrain future (.draining rest)).finish slot
  | .drainReturn future => s.setDrain future .returned
  | .refuse slot => { s.setSlot slot (.running true) with loop := .inside slot }
  | .check slot future =>
      if (s.cells future).isReady then
        { s.setSlot slot (.running false) with loop := .inside slot }
      else { s with loop := .pushing slot }
  | .push slot future =>
      let cell := s.cells future
      if cell.closed then { s.setSlot slot (.running false) with loop := .inside slot }
      else
        { (s.setCell future { cell with continuations := slot :: cell.continuations }).setSlot
            slot .linked with
          loop := .visiting (slot + 1) }
  | .loopDone slot => { s.finish slot with loop := .visiting (slot + 1) }
  | .loopReturn => { s with loop := .returned }
  | .consume future => s.setCell future { s.cells future with isConsumed := true }
  | .move future => s.setCell future { s.cells future with result := .zero }

end call

/-- All inputs are pending; those that are ready when the call is made complete first. -/
def start : State where
  cells := fun _ => ⟨false, .zero, .zero, false, false, [], .idle⟩
  loop := .visiting 0
  slots := fun _ => .idle

/-- Registrations as a machine. -/
def machine (call : Call) : Machine State Event where
  initial := fun s => s = start
  enabled := enabled call
  next := next

/-! ## Where the entries are -/

namespace DrainFrame

/-- The entries that the drain has not reached. -/
@[grind =] def rest : DrainFrame -> List Slot
  | draining rest | running _ rest => rest
  | idle | closing | returned => []

@[grind =] def current : DrainFrame -> Option Slot
  | running slot _ => some slot
  | idle | closing | draining _ | returned => none

/-- The stack has been taken. -/
@[grind =] def begun : DrainFrame -> Bool
  | draining _ | running _ _ | returned => true
  | idle | closing => false

end DrainFrame

namespace LoopFrame

/-- The first entry that has not been registered. -/
@[grind =] def position (count : Nat) : LoopFrame -> Nat
  | visiting slot | pushing slot => slot
  | inside slot => slot + 1
  | returned => count

@[grind =] def current : LoopFrame -> Option Slot
  | inside slot => some slot
  | visiting _ | pushing _ | returned => none

end LoopFrame

/-- Where an entry is, seen from the loop. -/
structure EntryOk (count : Nat) (input : Option FutureId) (slot : Slot) (frame : SlotFrame)
    (loop : LoopFrame) : Prop where
  idle : frame = .idle ↔ loop.position count ≤ slot
  input : frame = .linked ∨ frame = .running false ∨ frame = .done false -> input ≠ none
  inline : loop.current = some slot -> frame = .running true ∨ frame = .running false
  refused : frame = .running true -> loop.current = some slot

/-- Where an entry is, seen from a future. -/
structure PairOk (input : Option FutureId) (future : FutureId) (cell : Cell) (slot : Slot)
    (frame : SlotFrame) (current : Option Slot) : Prop where
  listed : slot ∈ cell.continuations ∨ slot ∈ cell.drain.rest ↔
    frame = .linked ∧ input = some future
  called : cell.drain.current = some slot ->
    frame = .running false ∧ input = some future ∧ current ≠ some slot
  running : frame = .running false -> input = some future ->
    current = some slot ∨ cell.drain.current = some slot
  ready : frame = .running false ∨ frame = .done false -> input = some future ->
    cell.isReady = true

/-- The flags of a future go with the progress of its completing call. -/
structure CellOk (cell : Cell) : Prop where
  nodup : (cell.continuations ++ cell.drain.rest).Nodup
  closed : cell.closed = cell.drain.begun
  empty : cell.closed = true -> cell.continuations = []
  ready : cell.isReady = false ↔ cell.drain = .idle
  result : cell.isReady = true -> cell.isConsumed = false -> cell.result = cell.completed

/-- Each entry is registered in its turn, and its work is done by one thread. -/
structure Placed (call : Call) (s : State) : Prop where
  inside : s.loop.position call.count ≤ call.count
  pushing : forall i, s.loop = .pushing i -> i < call.count
  entries : forall i, EntryOk call.count (call.inputs i) i (s.slots i) s.loop
  pairs : forall f i, PairOk (call.inputs i) f (s.cells f) i (s.slots i) s.loop.current
  cells : forall f, CellOk (s.cells f)

attribute [grind cases] EntryOk PairOk CellOk

namespace Placed

variable {call : Call} {s : State}

theorem start (call : Call) : Placed call start where
  inside := Nat.zero_le _
  pushing := by
    intro i here
    cases here
  entries := by
    intro i
    constructor <;> simp [Combinator.start, LoopFrame.position, LoopFrame.current]
  pairs := by
    intro f i
    constructor <;> simp [Combinator.start, DrainFrame.rest, DrainFrame.current]
  cells := by
    intro f
    constructor <;> simp [Combinator.start, DrainFrame.rest, DrainFrame.begun]

/-- A step of a completing call between two entries. -/
theorem setCell (ok : Placed call s) (future : FutureId) {cell : Cell} (good : CellOk cell)
    (pairs : forall i, PairOk (call.inputs i) future (s.cells future) i (s.slots i)
      s.loop.current -> PairOk (call.inputs i) future cell i (s.slots i) s.loop.current) :
    Placed call (s.setCell future cell) where
  inside := ok.inside
  pushing := ok.pushing
  entries := ok.entries
  pairs := by
    intro f i
    by_cases mine : f = future
    · subst f
      simpa only [State.setCell, Function.update_self] using pairs i (ok.pairs future i)
    · simpa only [State.setCell, Function.update_of_ne mine] using ok.pairs f i
  cells := by
    intro f
    by_cases mine : f = future
    · subst f
      simpa only [State.setCell, Function.update_self] using good
    · simpa only [State.setCell, Function.update_of_ne mine] using ok.cells f

theorem complete (ok : Placed call s) {future : FutureId} (result : Result)
    (may : enabled call s (.complete future result)) :
    Placed call (next s (.complete future result)) := by
  have good := ok.cells future
  simp only [enabled] at may
  refine ok.setCell future ?_ ?_
  · cases good
    constructor <;> grind -linarith
  · intro i pair
    cases good
    cases pair
    constructor <;> grind -linarith

theorem close (ok : Placed call s) {future : FutureId} (may : enabled call s (.close future)) :
    Placed call (next s (.close future)) := by
  have good := ok.cells future
  simp only [enabled] at may
  refine ok.setCell future ?_ ?_
  · cases good
    constructor <;> grind -linarith
  · intro i pair
    cases pair
    constructor <;> grind -linarith

theorem drainReturn (ok : Placed call s) {future : FutureId}
    (may : enabled call s (.drainReturn future)) : Placed call (next s (.drainReturn future)) := by
  have good := ok.cells future
  simp only [enabled] at may
  refine ok.setCell future ?_ ?_
  · cases good
    constructor <;> grind -linarith
  · intro i pair
    cases pair
    constructor <;> grind -linarith

theorem drainNext (ok : Placed call s) {future : FutureId} {slot : Slot} {rest : List Slot}
    (may : enabled call s (.drainNext future slot rest)) :
    Placed call (next s (.drainNext future slot rest)) := by
  have good := ok.cells future
  have here := ok.pairs future slot
  have entry := ok.entries slot
  simp only [enabled] at may
  simp only [next, State.setCell, State.setDrain, State.setSlot]
  refine ⟨ok.inside, ok.pushing, ?_, ?_, ?_⟩
  · intro i
    have := ok.entries i
    by_cases mine : i = slot
    · subst i
      constructor <;> grind -linarith
    · grind -linarith
  · intro f i
    have := ok.pairs f i
    have := ok.pairs future i
    constructor <;> grind -linarith
  · intro f
    have := ok.cells f
    constructor <;> grind -linarith

theorem drainDone (ok : Placed call s) {future : FutureId} {slot : Slot} {rest : List Slot}
    (may : enabled call s (.drainDone future slot rest)) :
    Placed call (next s (.drainDone future slot rest)) := by
  have good := ok.cells future
  have here := ok.pairs future slot
  simp only [enabled] at may
  have called := here.called (by rw [may]; rfl)
  simp only [next, State.finish, State.setCell, State.setDrain, State.setSlot, called.1]
  refine ⟨ok.inside, ok.pushing, ?_, ?_, ?_⟩
  · intro i
    have := ok.entries i
    by_cases mine : i = slot
    · subst i
      constructor <;> grind -linarith
    · grind -linarith
  · intro f i
    have := ok.pairs f i
    have := ok.pairs future i
    constructor <;> grind -linarith
  · intro f
    have := ok.cells f
    constructor <;> grind -linarith

/-- The loop goes on to another point of the same iteration, and the frame of the entry
changes with it. -/
theorem visit (ok : Placed call s) {slot : Slot} {frame : SlotFrame} {loop : LoopFrame}
    (inside : loop.position call.count ≤ call.count)
    (pushing : forall i, loop = .pushing i -> i < call.count)
    (entries : forall i, EntryOk call.count (call.inputs i) i (s.slots i) s.loop ->
      EntryOk call.count (call.inputs i) i (Function.update s.slots slot frame i) loop)
    (pairs : forall f i, PairOk (call.inputs i) f (s.cells f) i (s.slots i) s.loop.current ->
      PairOk (call.inputs i) f (s.cells f) i (Function.update s.slots slot frame i) loop.current) :
    Placed call { s.setSlot slot frame with loop := loop } where
  inside := inside
  pushing := pushing
  entries := fun i => entries i (ok.entries i)
  pairs := fun f i => pairs f i (ok.pairs f i)
  cells := ok.cells

theorem refuse (ok : Placed call s) {slot : Slot} (may : enabled call s (.refuse slot)) :
    Placed call (next s (.refuse slot)) := by
  simp only [enabled] at may
  have here := ok.entries slot
  refine ok.visit (by grind -linarith) (by grind -linarith) ?_ ?_
  · intro i entry
    constructor <;> grind -linarith
  · intro f i pair
    constructor <;> grind -linarith

/-- A continuation is run inside `UfsrvFutureThen`. -/
theorem runInline (ok : Placed call s) {slot : Slot} {future : FutureId}
    (input : call.inputs slot = some future) (inside : slot < call.count)
    (waiting : s.loop.position call.count = slot) (outside : s.loop.current = none)
    (ready : (s.cells future).isReady = true) :
    Placed call { s.setSlot slot (.running false) with loop := .inside slot } := by
  have here := ok.entries slot
  refine ok.visit (by grind -linarith) (by grind -linarith) ?_ ?_
  · intro i entry
    constructor <;> grind -linarith
  · intro f i pair
    constructor <;> grind -linarith

theorem check (ok : Placed call s) {slot : Slot} {future : FutureId}
    (may : enabled call s (.check slot future)) :
    Placed call (next s (.check slot future)) := by
  simp only [enabled] at may
  simp only [next]
  split
  · exact ok.runInline may.2.2 may.1 (by grind -linarith) (by grind -linarith) (by assumption)
  · refine ⟨by grind -linarith, by grind -linarith, ?_, ?_, ok.cells⟩
    · intro i
      have := ok.entries i
      constructor <;> grind -linarith
    · intro f i
      have := ok.pairs f i
      constructor <;> grind -linarith

theorem push (ok : Placed call s) {slot : Slot} {future : FutureId}
    (may : enabled call s (.push slot future)) : Placed call (next s (.push slot future)) := by
  simp only [enabled] at may
  have good := ok.cells future
  have entry := ok.entries slot
  have inside := ok.pushing slot may.1
  have here := ok.pairs future slot
  simp only [next]
  split
  · exact ok.runInline may.2 inside (by grind -linarith) (by grind -linarith) (by grind -linarith)
  · simp only [State.setCell, State.setSlot]
    refine ⟨by grind -linarith, by grind -linarith, ?_, ?_, ?_⟩
    · intro i
      have := ok.entries i
      by_cases mine : i = slot
      · subst i
        constructor <;> grind -linarith
      · constructor <;> grind -linarith
    · intro f i
      have := ok.pairs f i
      constructor <;> grind -linarith
    · intro f
      have := ok.cells f
      constructor <;> grind -linarith

theorem loopDone (ok : Placed call s) {slot : Slot} (may : enabled call s (.loopDone slot)) :
    Placed call (next s (.loopDone slot)) := by
  simp only [enabled] at may
  have entry := ok.entries slot
  have inside := ok.inside
  have running : Exists fun refused => s.slots slot = .running refused := by
    have := entry.inline (by rw [may]; rfl)
    grind -linarith
  rcases running with ⟨refused, running⟩
  simp only [next, State.finish, running]
  refine ok.visit (by grind -linarith) (by grind -linarith) ?_ ?_
  · intro i entry
    by_cases mine : i = slot
    · subst i
      constructor <;> grind -linarith
    · constructor <;> grind -linarith
  · intro f i pair
    constructor <;> grind -linarith

theorem loopReturn (ok : Placed call s) (may : enabled call s .loopReturn) :
    Placed call (next s .loopReturn) := by
  simp only [enabled] at may
  simp only [next]
  refine ⟨by grind -linarith, by grind -linarith, ?_, ?_, ok.cells⟩
  · intro i
    have := ok.entries i
    constructor <;> grind -linarith
  · intro f i
    have := ok.pairs f i
    constructor <;> grind -linarith

theorem consume (ok : Placed call s) {future : FutureId} :
    Placed call (next s (.consume future)) := by
  have good := ok.cells future
  refine ok.setCell future ?_ ?_
  · constructor <;> grind -linarith
  · intro i pair
    constructor <;> grind -linarith

theorem move (ok : Placed call s) {future : FutureId} (may : enabled call s (.move future)) :
    Placed call (next s (.move future)) := by
  have good := ok.cells future
  simp only [enabled] at may
  refine ok.setCell future ?_ ?_
  · constructor <;> grind -linarith
  · intro i pair
    constructor <;> grind -linarith

end Placed

theorem placed_next {call : Call} {s : State} (ok : Placed call s) (event : Event)
    (may : enabled call s event) : Placed call (next s event) := by
  cases event with
  | complete future result => exact ok.complete result may
  | close future => exact ok.close may
  | drainNext future slot rest => exact ok.drainNext may
  | drainDone future slot rest => exact ok.drainDone may
  | drainReturn future => exact ok.drainReturn may
  | refuse slot => exact ok.refuse may
  | check slot future => exact ok.check may
  | push slot future => exact ok.push may
  | loopDone slot => exact ok.loopDone may
  | loopReturn => exact ok.loopReturn may
  | consume future => exact ok.consume
  | move future => exact ok.move may

theorem reachable_placed {call : Call} {s : State} (reached : (machine call).Reachable s) :
    Placed call s := by
  refine reached.invariant (Placed call) ?_ ?_
  · intro s initial
    cases initial
    exact .start call
  · intro s event _ ok may
    exact placed_next ok event may

theorem Placed.lt_count {call : Call} {s : State} (ok : Placed call s) (slot : Slot)
    (begun : s.slots slot ≠ .idle) : slot < call.count := by
  by_contra outside
  exact begun ((ok.entries slot).idle.mpr (Nat.le_trans ok.inside (Nat.le_of_not_lt outside)))

/-! ## What a step does to an entry -/

/-- The event ends the work of the entry. -/
def Event.ends (event : Event) (slot : Slot) : Prop :=
  match event with
  | .drainDone _ other _ | .loopDone other => other = slot
  | _ => False

/-- An entry goes from `idle` over `linked` to `running` and ends there. -/
inductive Advances (event : Event) (slot : Slot) : SlotFrame -> SlotFrame -> Prop
  | same (frame) : Advances event slot frame frame
  | link : Advances event slot .idle .linked
  | run (refused) : Advances event slot .idle (.running refused)
  | drain : Advances event slot .linked (.running false)
  | finish (refused) : event.ends slot -> Advances event slot (.running refused) (.done refused)

theorem advances_setSlot {s : State} {event : Event} {slot : Slot} {frame : SlotFrame}
    (here : Advances event slot (s.slots slot) frame) (other : Slot) :
    Advances event other (s.slots other) ((s.setSlot slot frame).slots other) := by
  by_cases mine : other = slot
  · subst other
    simpa only [State.setSlot, Function.update_self] using here
  · simp only [State.setSlot, Function.update_of_ne mine]
    exact .same _

theorem advances_finish {s : State} {event : Event} {slot : Slot} (ends : event.ends slot)
    (other : Slot) : Advances event other (s.slots other) ((s.finish slot).slots other) := by
  unfold State.finish
  split
  · rename_i refused here
    exact advances_setSlot (here ▸ .finish refused ends) other
  · exact .same _

theorem advances_next {call : Call} {s : State} (ok : Placed call s) (event : Event)
    (may : enabled call s event) (other : Slot) :
    Advances event other (s.slots other) ((next s event).slots other) := by
  have idle : forall slot, s.loop.position call.count = slot -> s.slots slot = .idle := by
    intro slot here
    exact (ok.entries slot).idle.mpr (Nat.le_of_eq here)
  cases event with
  | complete | close | drainReturn | consume | move | loopReturn => exact .same _
  | drainNext future slot rest =>
      have linked : s.slots slot = .linked := by
        have listed := (ok.pairs future slot).listed
        simp only [enabled] at may
        grind -linarith
      exact advances_setSlot (s := s.setDrain future _) (linked ▸ .drain) other
  | drainDone future slot rest =>
      have ends : (Event.drainDone future slot rest).ends slot := rfl
      exact advances_finish (s := s.setDrain future _) ends other
  | loopDone slot =>
      have ends : (Event.loopDone slot).ends slot := rfl
      exact advances_finish ends other
  | refuse slot =>
      have here := idle slot (by simp only [enabled] at may; grind -linarith)
      exact advances_setSlot (here ▸ .run true) other
  | check slot future =>
      have here := idle slot (by simp only [enabled] at may; grind -linarith)
      simp only [next]
      split
      · exact advances_setSlot (here ▸ .run false) other
      · exact .same _
  | push slot future =>
      have here := idle slot (by simp only [enabled] at may; grind -linarith)
      simp only [next]
      split
      · exact advances_setSlot (here ▸ .run false) other
      · exact advances_setSlot (s := s.setCell future _) (here ▸ .link) other

/-- A future is completed once. -/
theorem completed_next {call : Call} {s : State} {event : Event} (may : enabled call s event)
    {future : FutureId} (ready : (s.cells future).isReady = true) :
    ((next s event).cells future).isReady = true ∧
      ((next s event).cells future).completed = (s.cells future).completed := by
  cases event with
  | complete other result =>
      simp only [enabled] at may
      simp only [next, State.setCell]
      grind -linarith
  | check slot other | push slot other =>
      simp only [next, State.setCell, State.setSlot]
      split <;> grind -linarith
  | _ =>
      simp only [next, State.finish_cells, State.setCell, State.setDrain, State.setSlot]
      grind -linarith

/-- A future is completed by its completing call only. -/
theorem completed_next_of_ne {s : State} {event : Event} {future : FutureId}
    (completes : forall result, event ≠ .complete future result) :
    ((next s event).cells future).isReady = (s.cells future).isReady ∧
      ((next s event).cells future).completed = (s.cells future).completed := by
  cases event with
  | check slot future | push slot future =>
      simp only [next, State.setCell, State.setSlot]
      split <;> grind -linarith
  | refuse | loopDone | loopReturn =>
      simp only [next, State.finish_cells, State.setSlot, and_self]
  | _ =>
      simp only [next, State.finish_cells, State.setCell, State.setDrain, State.setSlot]
      grind -linarith

/-- A completing call that has returned stays so. -/
theorem drainReturned_next {call : Call} {s : State} {event : Event} (ok : Placed call s)
    (may : enabled call s event) {future : FutureId}
    (returned : (s.cells future).drain = .returned) :
    ((next s event).cells future).drain = .returned := by
  have good := (ok.cells future).ready
  cases event with
  | check slot other | push slot other =>
      simp only [next, State.setCell, State.setSlot]
      split <;> grind -linarith
  | refuse | loopDone | loopReturn =>
      simpa only [next, State.finish_cells, State.setSlot] using returned
  | _ =>
      simp only [enabled] at may
      simp only [next, State.finish_cells, State.setCell, State.setDrain, State.setSlot]
      grind -linarith

theorem loopReturned_next {call : Call} {s : State} {event : Event} (may : enabled call s event)
    (returned : s.loop = .returned) : (next s event).loop = .returned := by
  cases event with
  | refuse | check | push | loopDone | loopReturn => simp [enabled, returned] at may
  | drainDone =>
      simp only [next, State.finish_loop]
      exact returned
  | _ => exact returned

/-- A result is written by the completion and when it is moved out. -/
theorem result_next_of_ne {s : State} {event : Event} {future : FutureId}
    (completes : forall result, event ≠ .complete future result) (moves : event ≠ .move future) :
    ((next s event).cells future).result = (s.cells future).result := by
  cases event with
  | check slot future | push slot future =>
      simp only [next, State.setCell, State.setSlot]
      split <;> grind -linarith
  | refuse | loopDone | loopReturn => simp only [next, State.finish_cells, State.setSlot]
  | _ =>
      simp only [next, State.finish_cells, State.setCell, State.setDrain, State.setSlot]
      grind -linarith

theorem result_next {call : Call} {s : State} {event : Event} (may : enabled call s event)
    {future : FutureId} (ready : (s.cells future).isReady = true) (moves : event ≠ .move future) :
    ((next s event).cells future).result = (s.cells future).result := by
  refine result_next_of_ne ?_ moves
  intro result completes
  rw [completes] at may
  exact absurd (ready.symm.trans may) (by simp)

theorem isConsumed_next {s : State} {event : Event} {future : FutureId}
    (other : event ≠ .consume future) :
    ((next s event).cells future).isConsumed = (s.cells future).isConsumed := by
  cases event with
  | check slot future | push slot future =>
      simp only [next, State.setCell, State.setSlot]
      split <;> grind -linarith
  | refuse | loopDone | loopReturn => simp only [next, State.finish_cells, State.setSlot]
  | _ =>
      simp only [next, State.finish_cells, State.setCell, State.setDrain, State.setSlot]
      grind -linarith

/-- The call has returned, and so have the completing calls of the inputs that it was
registered with. -/
def State.Settled (call : Call) (s : State) : Prop :=
  s.loop = .returned ∧ forall i f, i < call.count -> call.inputs i = some f ->
    s.slots i ≠ .done true -> (s.cells f).drain = .returned

theorem Placed.settled {call : Call} {s : State} (ok : Placed call s) (settled : s.Settled call)
    {i : Slot} (inside : i < call.count) : Exists fun refused => s.slots i = .done refused := by
  have entry := ok.entries i
  rcases settled with ⟨returned, drained⟩
  cases here : s.slots i with
  | idle => grind -linarith
  | done refused => exact ⟨refused, rfl⟩
  | linked =>
      rcases Option.ne_none_iff_exists'.mp (entry.input (.inl here)) with ⟨f, input⟩
      have := drained i f inside input (by grind -linarith)
      have := ok.pairs f i
      have := ok.cells f
      grind -linarith
  | running refused =>
      cases refused with
      | true => grind -linarith
      | false =>
          rcases Option.ne_none_iff_exists'.mp (entry.input (.inr (.inl here))) with ⟨f, input⟩
          have := drained i f inside input (by grind -linarith)
          have := ok.pairs f i
          grind -linarith

/-! ## The work of the entries -/

/-- A machine that contains this one begins the work of an entry when the entry is running
and lets the entry end when its work has ended. -/
structure Works (fresh finished : Prop) (frame : SlotFrame) : Prop where
  fresh : frame = .idle ∨ frame = .linked -> fresh
  finished : forall refused, frame = .done refused -> finished

/-- The entry runs while its work is under way. -/
theorem Works.running {fresh finished : Prop} {frame : SlotFrame}
    (ok : Works fresh finished frame) (begun : ¬fresh) (unfinished : ¬finished) :
    Exists fun refused => frame = .running refused := by
  cases frame with
  | idle => exact absurd (ok.fresh (.inl rfl)) begun
  | linked => exact absurd (ok.fresh (.inr rfl)) begun
  | running refused => exact ⟨refused, rfl⟩
  | done refused => exact absurd (ok.finished refused rfl) unfinished

/-- Only a running entry does its work. -/
theorem Works.of_running {fresh finished : Prop} {frame : SlotFrame} {refused : Bool}
    (here : frame = .running refused) : Works fresh finished frame := by
  subst frame
  exact ⟨by simp, by simp⟩

theorem Works.next {fresh finished : Prop} {event : Event} {slot : Slot}
    {before after : SlotFrame} (ok : Works fresh finished before)
    (advances : Advances event slot before after) (ends : event.ends slot -> finished) :
    Works fresh finished after := by
  cases advances with
  | same => exact ok
  | link => exact ⟨fun _ => ok.fresh (.inl rfl), by simp⟩
  | run | drain => exact ⟨by simp, by simp⟩
  | finish refused ending => exact ⟨by simp, fun _ _ => ends ending⟩

end Combinator
end UfsrvRx
