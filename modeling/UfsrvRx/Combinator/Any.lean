import UfsrvRx.Transition.Countdown
import UfsrvRx.Combinator.Output

namespace UfsrvRx
namespace Combinator
namespace Any

open Transition
open Future (Result einval)

/-!
# `UfsrvFutureAny`

Each continuation gets a registration record of its own, which it frees first.  The first
continuation to win the claimed flag completes the output with the result of its input, if
it wins `sConsumeOnce` too, and moves the result out.  The entry that brings the counter to
zero frees the context.  If that entry is one that the loop gave up, nobody may have
claimed, and the loop fails the output.

Others may claim the inputs for themselves at any time, and move out what they have claimed.
-/

/-- Program points of `sAnyContinuation`, and of the loop body behind a refusal. -/
inductive Frame
  | entered
  | claiming
  | consuming
  | setting (consumed : Bool)
  | destroying (consumed : Bool)
  | moving
  | subtracting
  | checking
  | failing
  | closing
  | freeing
  | done
deriving DecidableEq, Repr

/-- A registration record. -/
structure Record where
  isAllocated : Bool
  frees : Nat
deriving DecidableEq, Repr

/-- The context, the promise in it, the records, and what the threads are at.  That the
context was freed, who won the claimed flag, whose claim on its input the call won, and
who brought the counter to zero is history. -/
structure State where
  layer : Combinator.State
  frames : Slot -> Frame
  records : Slot -> Record
  remaining : Nat
  claimed : Bool
  output : Output
  frees : Nat
  winner : Option Slot
  taken : Option FutureId
  last : Option Slot

inductive Event
  | layer (event : Combinator.Event)
  | allocate (slot : Slot)
  | freeRecord (slot : Slot) (refused : Bool)
  | claim (slot : Slot)
  | consume (slot : Slot) (future : FutureId)
  | set (slot : Slot) (future : FutureId) (consumed : Bool)
  | destroy (slot : Slot) (consumed : Bool)
  | move (slot : Slot) (future : FutureId)
  | subtract (slot : Slot) (refused : Bool)
  | check (slot : Slot)
  | fail (slot : Slot)
  | close (slot : Slot)
  | free (slot : Slot)
deriving DecidableEq, Repr

section call

variable (call : Call)

/-- The loop gives an entry up if there is no memory for its record, if the future is NULL,
or if there is no memory for the node.  A continuation returns when it has done its work.
Others move out only what the call has not claimed. -/
def admits (s : State) : Combinator.Event -> Prop
  | .refuse slot => s.layer.loop = .visiting slot ->
      call.inputs slot = none ∨ (s.records slot).isAllocated = false
  | .check slot _ => (s.records slot).isAllocated = true
  | .drainDone _ slot _ | .loopDone slot => s.frames slot = .done
  | .move future => s.taken ≠ some future
  | _ => True

def enabled (s : State) : Event -> Prop
  | .layer event => Combinator.enabled call s.layer event ∧ admits call s event
  | .allocate slot => s.layer.loop = .visiting slot ∧ slot < call.count ∧
      (s.records slot).isAllocated = false
  | .freeRecord slot refused => s.layer.slots slot = .running refused ∧ s.frames slot = .entered
  | .claim slot => s.frames slot = .claiming
  | .consume slot future => s.frames slot = .consuming ∧ call.inputs slot = some future
  | .set slot future consumed => s.frames slot = .setting consumed ∧
      call.inputs slot = some future
  | .destroy slot consumed => s.frames slot = .destroying consumed
  | .move slot future => s.frames slot = .moving ∧ call.inputs slot = some future
  | .subtract slot refused =>
      s.layer.slots slot = .running refused ∧ s.frames slot = .subtracting
  | .check slot => s.frames slot = .checking
  | .fail slot => s.frames slot = .failing
  | .close slot => s.frames slot = .closing
  | .free slot => s.frames slot = .freeing

end call

def State.setFrame (s : State) (slot : Slot) (frame : Frame) : State :=
  { s with frames := Function.update s.frames slot frame }

/-- `free(reg)`, if there is a record. -/
def Record.free (record : Record) : Record :=
  if record.isAllocated then { record with frees := record.frees + 1 } else record

/-- Where the entry goes on after `atomic_fetch_sub`. -/
def afterSubtract (remaining : Nat) (refused : Bool) : Frame :=
  if remaining = 1 then (if refused then .checking else .freeing) else .done

def next (s : State) : Event -> State
  | .layer event => { s with layer := Combinator.next s.layer event }
  | .allocate slot => { s with records := Function.update s.records slot ⟨true, 0⟩ }
  | .freeRecord slot refused =>
      { s.setFrame slot (if refused then .subtracting else .claiming) with
        records := Function.update s.records slot (s.records slot).free }
  | .claim slot =>
      if s.claimed then s.setFrame slot .subtracting
      else { s.setFrame slot .consuming with claimed := true, winner := some slot }
  | .consume slot future =>
      if (s.layer.cells future).isConsumed then s.setFrame slot (.setting false)
      else
        { s.setFrame slot (.setting true) with
          layer := Combinator.next s.layer (.consume future)
          taken := some future }
  | .set slot future consumed =>
      let result := if consumed then (s.layer.cells future).result else .ofError einval
      { s.setFrame slot (.destroying consumed) with output := s.output.setResult result }
  | .destroy slot consumed =>
      { s.setFrame slot (if consumed then .moving else .subtracting) with
        output := s.output.destroy }
  | .move slot future =>
      { s.setFrame slot .subtracting with layer := Combinator.next s.layer (.move future) }
  | .subtract slot refused =>
      { s.setFrame slot (afterSubtract s.remaining refused) with
        remaining := s.remaining - 1
        last := if s.remaining = 1 then some slot else s.last }
  | .check slot => s.setFrame slot (if s.claimed then .freeing else .failing)
  | .fail slot =>
      { s.setFrame slot .closing with output := s.output.setResult (.ofError einval) }
  | .close slot => { s.setFrame slot .freeing with output := s.output.destroy }
  | .free slot => { s.setFrame slot .done with frees := s.frees + 1 }

/-- The call stands before its loop. -/
def start (call : Call) : State where
  layer := Combinator.start
  frames := fun _ => .entered
  records := fun _ => ⟨false, 0⟩
  remaining := call.count
  claimed := false
  output := .create
  frees := 0
  winner := none
  taken := none
  last := none

def machine (call : Call) : Machine State Event where
  initial := fun s => s = start call
  enabled := enabled call
  next := next

/-! ## The invariant -/

namespace Frame

/-- The entry has not subtracted. -/
@[grind =] def waiting : Frame -> Bool
  | entered | claiming | consuming | setting _ | destroying _ | moving | subtracting => true
  | checking | failing | closing | freeing | done => false

/-- The entry has brought the counter to zero and still has the context. -/
@[grind =] def late : Frame -> Bool
  | checking | failing | closing | freeing => true
  | entered | claiming | consuming | setting _ | destroying _ | moving | subtracting
  | done => false

/-- The entry has not passed the claimed flag. -/
@[grind =] def early : Frame -> Bool
  | entered | claiming => true
  | consuming | setting _ | destroying _ | moving | subtracting | checking | failing | closing
  | freeing | done => false

/-- The entry is completing the output. -/
@[grind =] def active : Frame -> Bool
  | consuming | setting _ | destroying _ | moving => true
  | entered | claiming | subtracting | checking | failing | closing | freeing | done => false

@[grind ->] theorem of_active {frame : Frame} (active : frame.active = true) :
    frame.waiting = true ∧ frame.early = false ∧ frame.late = false ∧ frame ≠ .done := by
  cases frame <;> simp_all [Frame.active, waiting, early, late]

@[grind ->] theorem of_late {frame : Frame} (late : frame.late = true) :
    frame.waiting = false ∧ frame.early = false ∧ frame.active = false ∧ frame ≠ .done := by
  cases frame <;> simp_all [Frame.late, waiting, early, active]

/-- The promise, given the point that the last entry is at, if nobody has claimed. -/
@[grind =] def failure : Frame -> Output
  | closing => .given (.ofError einval)
  | freeing | done => .spent (.ofError einval)
  | entered | claiming | consuming | setting _ | destroying _ | moving | subtracting | checking
  | failing => .create

end Frame

/-- What holds for one entry. -/
structure EntryOk (slot : Slot) (frame : Frame) (refused : Option Bool) (record : Record)
    (winner last : Option Slot) : Prop where
  begun : frame ≠ .entered -> refused ≠ none
  claiming : frame = .claiming -> refused = some false
  active : frame.active = true -> winner = some slot
  passed : frame.early = false -> refused = some false -> winner ≠ none
  late : frame.late = true -> last = some slot
  failing : frame = .checking ∨ frame = .failing ∨ frame = .closing -> refused = some true
  failed : frame = .failing ∨ frame = .closing -> winner = none
  frees : record.frees = if record.isAllocated ∧ frame ≠ .entered then 1 else 0

/-- What the output is completed with by the winner of the claimed flag. -/
def outcome (taken : Option FutureId) (cell : Cell) : Result :=
  if taken = none then .ofError einval else cell.completed

/-- What holds for the winner of the claimed flag. -/
structure WinnerOk (frame : Frame) (future : FutureId) (cell : Cell) (taken : Option FutureId)
    (output : Output) : Prop where
  passed : frame.early = false
  mine : taken = none ∨ taken = some future
  consuming : frame = .consuming -> taken = none ∧ output = .create
  setting : forall consumed, frame = .setting consumed ->
    output = .create ∧ taken = if consumed then some future else none
  destroying : forall consumed, frame = .destroying consumed ->
    output = .given (outcome taken cell) ∧ taken = if consumed then some future else none
  moving : frame = .moving -> output = .spent cell.completed ∧ taken = some future
  after : frame.active = false -> output = .spent (outcome taken cell) ∧
    (taken ≠ none -> cell.result = .zero)
  kept : frame.active = true -> taken ≠ none -> cell.result = cell.completed
  consumed : frame ≠ .consuming -> cell.isConsumed = true

attribute [grind cases] EntryOk WinnerOk

/-- The flag, the counter, the promise, the records and the context belong together. -/
structure Inv (call : Call) (s : State) : Prop where
  works : forall i, Works (s.frames i = .entered) (s.frames i = .done) (s.layer.slots i)
  allocated : forall i, s.layer.Registered i -> (s.records i).isAllocated = true
  entries : forall i, EntryOk i (s.frames i) (s.layer.slots i).refused (s.records i) s.winner
    s.last
  counts : Counts call.count (fun i => (s.frames i).waiting) s.remaining
  claimed : s.claimed = s.winner.isSome
  won : forall w, s.winner = some w -> (s.layer.slots w).refused = some false
  winner : forall w f, s.winner = some w -> call.inputs w = some f ->
    WinnerOk (s.frames w) f (s.layer.cells f) s.taken s.output
  unclaimed : s.winner = none -> s.taken = none ∧ s.output =
    match s.last with
    | none => .create
    | some l => (s.frames l).failure
  last : forall l, s.last = some l -> s.remaining = 0 ∧ (s.frames l).waiting = false ∧
    s.frees = if s.frames l = .done then 1 else 0
  shared : s.last = none -> 0 < s.remaining ∧ s.frees = 0

namespace Inv

variable {call : Call} {s : State}

theorem start (call : Call) : Inv call (start call) where
  works := by
    intro i
    exact ⟨fun _ => rfl, by simp [Any.start, Combinator.start]⟩
  allocated := by simp [Any.start, Combinator.start, State.Registered, SlotFrame.refused]
  entries := by
    intro i
    constructor <;> simp [Any.start, Frame.late, Frame.early, Frame.active]
  counts := .all call.count
  claimed := rfl
  won := by simp [Any.start]
  winner := by simp [Any.start]
  unclaimed := fun _ => ⟨rfl, rfl⟩
  last := by simp [Any.start]
  shared := fun _ => ⟨call.positive, rfl⟩

theorem layer (ok : Inv call s) (placed : Placed call s.layer) {event : Combinator.Event}
    (may : enabled call s (.layer event)) : Inv call (next s (.layer event)) where
  works := by
    intro i
    refine (ok.works i).next (advances_next placed event may.1 i) ?_
    intro ends
    have admitted := may.2
    cases event <;> simp only [Combinator.Event.ends] at ends
    · subst ends
      exact admitted
    · subst ends
      exact admitted
  allocated := by
    intro i here
    rcases registered_next placed may.1 here with before | ⟨future, rfl⟩
    · exact ok.allocated i before
    · exact may.2
  entries := by
    intro i
    have entry := ok.entries i
    have advances := advances_next placed event may.1 i
    simp only [next]
    cases here : (s.layer.slots i).refused with
    | none =>
        have entered : s.frames i = .entered := by grind -linarith
        constructor <;> grind -linarith
    | some refused =>
        rw [refused_next advances here]
        rw [here] at entry
        exact entry
  counts := ok.counts
  claimed := ok.claimed
  won := by
    intro w winner
    exact refused_next (advances_next placed event may.1 w) (ok.won w winner)
  winner := by
    intro w f winner input
    have before := ok.winner w f winner input
    have ready := placed.ready (ok.won w winner) input
    have completed := (completed_next may.1 ready).2
    have result : s.taken ≠ none ->
        ((Combinator.next s.layer event).cells f).result = (s.layer.cells f).result := by
      intro taken
      refine result_next may.1 ready ?_
      intro same
      have admitted := may.2
      rw [same] at admitted
      exact admitted (before.mine.resolve_left taken)
    have consumed : (s.layer.cells f).isConsumed = true ->
        ((Combinator.next s.layer event).cells f).isConsumed = true := by
      intro here
      rw [<- here]
      refine isConsumed_next ?_
      intro same
      have enabled := may.1
      rw [same] at enabled
      exact absurd (here.symm.trans enabled) (by simp)
    simp only [next]
    constructor <;> grind -linarith [outcome]
  unclaimed := ok.unclaimed
  last := ok.last
  shared := ok.shared

theorem allocate (ok : Inv call s) (placed : Placed call s.layer) {slot : Slot}
    (may : enabled call s (.allocate slot)) : Inv call (next s (.allocate slot)) where
  works := ok.works
  allocated := by
    intro i here
    have before := ok.allocated i here
    simp only [next]
    grind -linarith
  entries := by
    intro i
    have entry := ok.entries i
    have entered : s.frames slot = .entered := by
      refine (ok.works slot).fresh (.inl ?_)
      refine (placed.entries slot).idle.mpr ?_
      rw [may.1]
      exact Nat.le_refl slot
    simp only [next]
    constructor <;> grind -linarith
  counts := ok.counts
  claimed := ok.claimed
  won := ok.won
  winner := ok.winner
  unclaimed := ok.unclaimed
  last := ok.last
  shared := ok.shared

/-- A step of an entry that leaves the counter alone. -/
theorem step (ok : Inv call s) {slot : Slot} {frame : Frame} {after : State} {refused : Bool}
    (running : s.layer.slots slot = .running refused)
    (slots : after.layer.slots = s.layer.slots) (loop : after.layer.loop = s.layer.loop)
    (frames : after.frames = Function.update s.frames slot frame)
    (records : forall i, (after.records i).isAllocated = (s.records i).isAllocated)
    (remaining : after.remaining = s.remaining) (last : after.last = s.last)
    (waiting : frame.waiting = (s.frames slot).waiting)
    (entries : forall i, EntryOk i (s.frames i) (s.layer.slots i).refused (s.records i) s.winner
      s.last -> EntryOk i (Function.update s.frames slot frame i) (s.layer.slots i).refused
        (after.records i) after.winner s.last)
    (claimed : after.claimed = after.winner.isSome)
    (won : forall w, after.winner = some w -> (s.layer.slots w).refused = some false)
    (winner : forall w f, after.winner = some w -> call.inputs w = some f ->
      WinnerOk (Function.update s.frames slot frame w) f (after.layer.cells f) after.taken
        after.output)
    (unclaimed : after.winner = none -> after.taken = none ∧ after.output =
      match s.last with
      | none => .create
      | some l => (Function.update s.frames slot frame l).failure)
    (freed : forall l, s.last = some l ->
      after.frees = if Function.update s.frames slot frame l = .done then 1 else 0)
    (shared : s.last = none -> after.frees = s.frees) : Inv call after where
  works := by
    intro i
    by_cases mine : i = slot
    · subst i
      exact .of_running (slots ▸ running)
    · rw [slots, frames, Function.update_of_ne mine]
      exact ok.works i
  allocated := by
    intro i here
    rw [records]
    unfold Combinator.State.Registered at here
    rw [slots, loop] at here
    exact ok.allocated i here
  entries := by
    intro i
    rw [slots, frames, last]
    exact entries i (ok.entries i)
  counts := by
    rw [remaining, frames]
    refine ok.counts.congr ?_
    intro i _
    by_cases mine : i = slot
    · subst i
      rw [Function.update_self, waiting]
    · rw [Function.update_of_ne mine]
  claimed := claimed
  won := by
    rw [slots]
    exact won
  winner := by
    rw [frames]
    exact winner
  unclaimed := by
    rw [frames, last]
    exact unclaimed
  last := by
    intro l here
    rw [last] at here
    have before := ok.last l here
    refine ⟨remaining.trans before.1, ?_, ?_⟩
    · rw [frames]
      by_cases mine : l = slot
      · subst l
        rw [Function.update_self, waiting, before.2.1]
      · rw [Function.update_of_ne mine, before.2.1]
    · rw [frames]
      exact freed l here
  shared := by
    intro here
    rw [last] at here
    rw [remaining, shared here]
    exact ok.shared here

/-- Before it subtracts, an entry has a share in the context. -/
theorem last_none (ok : Inv call s) (placed : Placed call s.layer) {slot : Slot}
    {refused : Bool} (running : s.layer.slots slot = .running refused)
    (waiting : (s.frames slot).waiting = true) : s.last = none := by
  have inside := placed.lt_count slot (by rw [running]; simp)
  have positive := (ok.counts.report inside waiting).1
  cases here : s.last with
  | none => rfl
  | some l =>
      rw [(ok.last l here).1] at positive
      exact absurd positive (Nat.lt_irrefl 0)

theorem freeRecord (ok : Inv call s) (placed : Placed call s.layer) {slot : Slot}
    {refused : Bool} (may : enabled call s (.freeRecord slot refused)) :
    Inv call (next s (.freeRecord slot refused)) := by
  rcases may with ⟨running, entered⟩
  have last := ok.last_none placed running (by rw [entered]; rfl)
  have begun : (s.layer.slots slot).refused = some refused := by rw [running]; rfl
  have won := ok.winner
  have unclaimed := ok.unclaimed
  simp only [last] at unclaimed
  refine ok.step running rfl rfl rfl ?_ rfl rfl ?_ ?_ ok.claimed ok.won ?_ ?_ (by simp [last])
    (fun _ => rfl)
  · intro i
    simp only [next]
    grind -linarith [Record.free]
  · cases refused <;> grind -linarith
  · intro i entry
    simp only [next, State.setFrame]
    constructor <;> grind -linarith [Record.free]
  · intro w f winner input
    have before := won w f winner input
    have other : w ≠ slot := by
      have := before.passed
      grind -linarith
    simpa only [next, State.setFrame, Function.update_of_ne other] using before
  · simpa only [next, State.setFrame, last] using unclaimed

theorem claim (ok : Inv call s) (placed : Placed call s.layer) {slot : Slot}
    (may : enabled call s (.claim slot)) : Inv call (next s (.claim slot)) := by
  simp only [enabled] at may
  rcases (ok.works slot).running (by simp [may]) (by simp [may]) with ⟨refused, running⟩
  have last := ok.last_none placed running (by rw [may]; rfl)
  have accepted := (ok.entries slot).claiming may
  have claimed := ok.claimed
  have won := ok.winner
  have unclaimed := ok.unclaimed
  simp only [last] at unclaimed
  simp only [next]
  split
  · refine ok.step running rfl rfl rfl (fun _ => rfl) rfl rfl (by grind -linarith) ?_ claimed ok.won ?_ ?_
      (by simp [last]) (fun _ => rfl)
    · intro i entry
      constructor <;> grind -linarith [State.setFrame]
    · intro w f winner input
      have before := won w f winner input
      have other : w ≠ slot := by
        have := before.passed
        grind -linarith
      simpa only [State.setFrame, Function.update_of_ne other] using before
    · simpa only [State.setFrame, last] using unclaimed
  · rename_i flag
    have nobody : s.winner = none := by simpa [claimed] using flag
    refine ok.step running rfl rfl rfl (fun _ => rfl) rfl rfl (by grind -linarith) ?_ rfl ?_ ?_ (by simp)
      (by simp [last]) (fun _ => rfl)
    · intro i entry
      constructor <;> grind -linarith [State.setFrame]
    · intro w winner
      cases winner
      exact accepted
    · intro w f winner input
      cases winner
      rw [Function.update_self]
      constructor <;> grind -linarith [State.setFrame]

/-- The winner of the claimed flag goes on. -/
theorem act (ok : Inv call s) (placed : Placed call s.layer) {slot : Slot} {future : FutureId}
    {frame : Frame} {after : State} (input : call.inputs slot = some future)
    (active : (s.frames slot).active = true)
    (slots : after.layer.slots = s.layer.slots) (loop : after.layer.loop = s.layer.loop)
    (frames : after.frames = Function.update s.frames slot frame)
    (records : after.records = s.records) (remaining : after.remaining = s.remaining)
    (last : after.last = s.last) (claimed : after.claimed = s.claimed)
    (winner : after.winner = s.winner) (frees : after.frees = s.frees)
    (goes : frame.active = true ∨ frame = .subtracting)
    (good : WinnerOk (s.frames slot) future (s.layer.cells future) s.taken s.output ->
      WinnerOk frame future (after.layer.cells future) after.taken after.output) :
    Inv call after := by
  have running : Exists fun refused => s.layer.slots slot = .running refused := by
    refine (ok.works slot).running ?_ ?_
    · intro here
      rw [here] at active
      cases active
    · intro here
      rw [here] at active
      cases active
  rcases running with ⟨refused, running⟩
  have waiting : (s.frames slot).waiting = true := by grind -linarith
  have none := ok.last_none placed running waiting
  have mine := (ok.entries slot).active active
  refine ok.step running slots loop frames ?_ remaining last ?_ ?_ ?_ ?_ ?_ ?_ (by simp [none])
    (fun _ => frees)
  · intro i
    rw [records]
  · grind -linarith
  · intro i entry
    rw [records, winner]
    constructor <;> grind -linarith
  · rw [claimed, winner]
    exact ok.claimed
  · rw [winner]
    exact ok.won
  · intro w f here other
    rw [winner, mine] at here
    cases here
    rw [input] at other
    cases other
    rw [Function.update_self]
    exact good (ok.winner slot future mine input)
  · intro here
    rw [winner, mine] at here
    cases here

theorem consume (ok : Inv call s) (placed : Placed call s.layer) {slot : Slot}
    {future : FutureId} (may : enabled call s (.consume slot future)) :
    Inv call (next s (.consume slot future)) := by
  rcases may with ⟨here, input⟩
  have active : (s.frames slot).active = true := by rw [here]; rfl
  have accepted := ok.won slot ((ok.entries slot).active active)
  have good := placed.cells future
  have ready := placed.ready accepted input
  simp only [next]
  split
  · refine ok.act placed input active rfl rfl rfl rfl rfl rfl rfl rfl rfl (by simp [Frame.active]) ?_
    intro before
    simp only [State.setFrame]
    constructor <;> grind -linarith
  · refine ok.act placed input active rfl rfl rfl rfl rfl rfl rfl rfl rfl (by simp [Frame.active]) ?_
    intro before
    simp only [State.setFrame, Combinator.next, Combinator.State.setCell, Function.update_self]
    constructor <;> grind -linarith

theorem set (ok : Inv call s) (placed : Placed call s.layer) {slot : Slot}
    {future : FutureId} {consumed : Bool} (may : enabled call s (.set slot future consumed)) :
    Inv call (next s (.set slot future consumed)) := by
  rcases may with ⟨here, input⟩
  have active : (s.frames slot).active = true := by rw [here]; rfl
  refine ok.act placed input active rfl rfl rfl rfl rfl rfl rfl rfl rfl (by simp [Frame.active]) ?_
  intro before
  simp only [next, State.setFrame]
  constructor <;> grind -linarith [outcome]

theorem destroy (ok : Inv call s) (placed : Placed call s.layer) {slot : Slot}
    {consumed : Bool} (may : enabled call s (.destroy slot consumed)) :
    Inv call (next s (.destroy slot consumed)) := by
  simp only [enabled] at may
  have active : (s.frames slot).active = true := by rw [may]; rfl
  have accepted := ok.won slot ((ok.entries slot).active active)
  have present : call.inputs slot ≠ none :=
    (placed.entries slot).input (.inr (SlotFrame.refused_eq_some.mp accepted))
  rcases Option.ne_none_iff_exists'.mp present with ⟨future, input⟩
  refine ok.act placed input active rfl rfl rfl rfl rfl rfl rfl rfl rfl ?_ ?_
  · cases consumed <;> simp [Frame.active]
  · intro before
    simp only [next, State.setFrame]
    cases consumed with
    | true => constructor <;> grind -linarith [outcome]
    | false => constructor <;> grind -linarith [outcome]

theorem move (ok : Inv call s) (placed : Placed call s.layer) {slot : Slot}
    {future : FutureId} (may : enabled call s (.move slot future)) :
    Inv call (next s (.move slot future)) := by
  rcases may with ⟨here, input⟩
  have active : (s.frames slot).active = true := by rw [here]; rfl
  refine ok.act placed input active rfl rfl rfl rfl rfl rfl rfl rfl rfl (by simp) ?_
  intro before
  simp only [next, State.setFrame, Combinator.next, Combinator.State.setCell, Function.update_self]
  constructor <;> grind -linarith [outcome]

theorem subtract (ok : Inv call s) (placed : Placed call s.layer) {slot : Slot} {refused : Bool}
    (may : enabled call s (.subtract slot refused)) :
    Inv call (next s (.subtract slot refused)) := by
  rcases may with ⟨running, subtracting⟩
  have none := ok.last_none placed running (by rw [subtracting]; rfl)
  have inside := placed.lt_count slot (by rw [running]; simp)
  have counted := ok.counts.report inside (by rw [subtracting]; rfl)
  have begun : (s.layer.slots slot).refused = some refused := by rw [running]; rfl
  have unclaimed := ok.unclaimed
  have shared := ok.shared none
  simp only [none] at unclaimed
  have target : s.remaining = 1 ∧ (afterSubtract s.remaining refused = .freeing ∧
      s.winner ≠ .none ∨ afterSubtract s.remaining refused = .checking ∧ refused = true) ∨
      s.remaining ≠ 1 ∧ afterSubtract s.remaining refused = .done := by
    have passed := (ok.entries slot).passed (by rw [subtracting]; rfl)
    grind -linarith [afterSubtract]
  simp only [next, State.setFrame]
  generalize afterSubtract s.remaining refused = frame at target ⊢
  constructor
  · intro i
    by_cases mine : i = slot
    · subst i
      exact .of_running running
    · simp only [Function.update_of_ne mine]
      exact ok.works i
  · exact ok.allocated
  · intro i
    have := ok.entries i
    constructor <;> grind -linarith
  · refine counted.2.congr ?_
    intro i _
    grind -linarith
  · exact ok.claimed
  · exact ok.won
  · intro w f winner input
    have before := ok.winner w f winner input
    by_cases mine : w = slot
    · subst w
      simp only [Function.update_self]
      constructor <;> grind -linarith
    · simpa only [Function.update_of_ne mine] using before
  · grind -linarith
  · grind -linarith
  · grind -linarith

/-- The last entry goes on. -/
theorem finish (ok : Inv call s) {slot : Slot} {frame : Frame} {after : State}
    (late : (s.frames slot).late = true) (layer : after.layer = s.layer)
    (frames : after.frames = Function.update s.frames slot frame)
    (records : after.records = s.records) (remaining : after.remaining = s.remaining)
    (last : after.last = s.last) (claimed : after.claimed = s.claimed)
    (winner : after.winner = s.winner) (taken : after.taken = s.taken)
    (goes : frame.late = true ∨ frame = .done) (frees : after.frees = if frame = .done then 1 else 0)
    (failing : frame = .checking ∨ frame = .failing ∨ frame = .closing ->
      (s.layer.slots slot).refused = some true)
    (failed : frame = .failing ∨ frame = .closing -> s.winner = none)
    (won : s.winner ≠ none -> after.output = s.output)
    (unclaimed : s.winner = none -> s.output = (s.frames slot).failure ->
      after.output = frame.failure) : Inv call after := by
  have running : Exists fun refused => s.layer.slots slot = .running refused := by
    refine (ok.works slot).running ?_ ?_
    · intro here
      rw [here] at late
      cases late
    · intro here
      rw [here] at late
      cases late
  rcases running with ⟨refused, running⟩
  have mine := (ok.entries slot).late late
  have before := ok.unclaimed
  simp only [mine] at before
  refine ok.step running (by rw [layer]) (by rw [layer]) frames ?_ remaining last ?_ ?_ ?_ ?_ ?_ ?_
    ?_ ?_
  · intro i
    rw [records]
  · cases here : s.frames slot <;> grind -linarith
  · intro i entry
    rw [records, winner]
    constructor <;> grind -linarith
  · rw [claimed, winner]
    exact ok.claimed
  · rw [winner]
    exact ok.won
  · intro w f here input
    rw [winner] at here
    rw [layer, taken, won (by simp [here])]
    have good := ok.winner w f here input
    by_cases same : w = slot
    · subst w
      rw [Function.update_self]
      have := (ok.entries slot).passed
      constructor <;> grind -linarith
    · rw [Function.update_of_ne same]
      exact good
  · rw [winner, taken, mine]
    grind -linarith
  · intro l here
    rw [mine] at here
    cases here
    rw [Function.update_self]
    exact frees
  · intro none
    rw [mine] at none
    cases none

theorem check (ok : Inv call s) {slot : Slot} (may : enabled call s (.check slot)) :
    Inv call (next s (.check slot)) := by
  simp only [enabled] at may
  have claimed := ok.claimed
  have late : (s.frames slot).late = true := by rw [may]; rfl
  have freed := (ok.last slot ((ok.entries slot).late late)).2.2
  have refused := (ok.entries slot).failing (.inl may)
  simp only [next]
  split
  · refine ok.finish late rfl rfl rfl rfl rfl rfl rfl rfl ?_ ?_ ?_ ?_ ?_ ?_ <;>
      grind -linarith [State.setFrame]
  · rename_i flag
    have nobody : s.winner = none := by simpa [claimed] using flag
    refine ok.finish late rfl rfl rfl rfl rfl rfl rfl rfl ?_ ?_ ?_ ?_ ?_ ?_ <;>
      grind -linarith [State.setFrame]

theorem fail (ok : Inv call s) {slot : Slot} (may : enabled call s (.fail slot)) :
    Inv call (next s (.fail slot)) := by
  simp only [enabled] at may
  have late : (s.frames slot).late = true := by rw [may]; rfl
  have freed := (ok.last slot ((ok.entries slot).late late)).2.2
  have refused := (ok.entries slot).failing (.inr (.inl may))
  have nobody := (ok.entries slot).failed (.inl may)
  refine ok.finish late rfl rfl rfl rfl rfl rfl rfl rfl ?_ ?_ ?_ ?_ ?_ ?_ <;>
    grind -linarith [State.setFrame, next]

theorem close (ok : Inv call s) {slot : Slot} (may : enabled call s (.close slot)) :
    Inv call (next s (.close slot)) := by
  simp only [enabled] at may
  have late : (s.frames slot).late = true := by rw [may]; rfl
  have freed := (ok.last slot ((ok.entries slot).late late)).2.2
  have nobody := (ok.entries slot).failed (.inr may)
  refine ok.finish late rfl rfl rfl rfl rfl rfl rfl rfl ?_ ?_ ?_ ?_ ?_ ?_ <;>
    grind -linarith [State.setFrame, next]

theorem free (ok : Inv call s) {slot : Slot} (may : enabled call s (.free slot)) :
    Inv call (next s (.free slot)) := by
  simp only [enabled] at may
  have late : (s.frames slot).late = true := by rw [may]; rfl
  have freed := (ok.last slot ((ok.entries slot).late late)).2.2
  refine ok.finish late rfl rfl rfl rfl rfl rfl rfl rfl ?_ ?_ ?_ ?_ ?_ ?_ <;>
    grind -linarith [State.setFrame, next]

end Inv

theorem inv_next {call : Call} {s : State} (ok : Inv call s) (placed : Placed call s.layer)
    (event : Event) (may : enabled call s event) : Inv call (next s event) := by
  cases event with
  | layer event => exact ok.layer placed may
  | allocate slot => exact ok.allocate placed may
  | freeRecord slot refused => exact ok.freeRecord placed may
  | claim slot => exact ok.claim placed may
  | consume slot future => exact ok.consume placed may
  | set slot future consumed => exact ok.set placed may
  | destroy slot consumed => exact ok.destroy placed may
  | move slot future => exact ok.move placed may
  | subtract slot refused => exact ok.subtract placed may
  | check slot => exact ok.check may
  | fail slot => exact ok.fail may
  | close slot => exact ok.close may
  | free slot => exact ok.free may

/-- The layer takes a step of its own, or none. -/
theorem layer_next {call : Call} {s : State} (ok : Inv call s) (placed : Placed call s.layer)
    (event : Event) (may : enabled call s event) : (next s event).layer = s.layer ∨
      Exists fun inner => Combinator.enabled call s.layer inner ∧
        (next s event).layer = Combinator.next s.layer inner := by
  cases event with
  | layer event => exact .inr ⟨event, may.1, rfl⟩
  | claim slot =>
      refine .inl ?_
      simp only [next]
      split <;> rfl
  | consume slot future =>
      simp only [next]
      split
      · exact .inl rfl
      · rename_i fresh
        exact .inr ⟨.consume future, (Bool.not_eq_true _).mp fresh, rfl⟩
  | move slot future =>
      rcases may with ⟨here, input⟩
      have winner := (ok.entries slot).active (by rw [here]; rfl)
      have good := ok.winner slot future winner input
      have consumed := good.consumed (by simp [here])
      exact .inr ⟨.move future, ⟨placed.ready (ok.won slot winner) input, consumed⟩, rfl⟩
  | _ => exact .inl rfl

theorem reachable_inv {call : Call} {s : State} (reached : (machine call).Reachable s) :
    Inv call s ∧ Placed call s.layer := by
  refine reached.invariant (fun s => Inv call s ∧ Placed call s.layer) ?_ ?_
  · intro s initial
    cases initial
    exact ⟨.start call, .start call⟩
  · intro s event _ ok may
    refine ⟨inv_next ok.1 ok.2 event may, ?_⟩
    rcases layer_next ok.1 ok.2 event may with same | ⟨inner, enabled, stepped⟩
    · exact same ▸ ok.2
    · exact stepped ▸ placed_next ok.2 inner enabled

/-! ## The contract -/

/-- The steps that read or write the context. -/
def Event.usesContext : Event -> Bool
  | claim _ | set _ _ _ | destroy _ _ | subtract _ _ | check _ | fail _ | close _ | free _ => true
  | layer _ | allocate _ | freeRecord _ _ | consume _ _ | move _ _ => false

/-- The steps that call a function of the out promise. -/
def Event.usesPromise : Event -> Bool
  | set _ _ _ | destroy _ _ | fail _ | close _ => true
  | layer _ | allocate _ | freeRecord _ _ | claim _ | consume _ _ | move _ _ | subtract _ _
  | check _ | free _ => false

/-- What the winner of the claimed flag has done: it has moved the result of its input to
the output, or found it consumed. -/
def Delivered (call : Call) (s : State) (slot : Slot) : Prop :=
  Exists fun future => call.inputs slot = some future ∧
    (s.layer.slots slot).refused = some false ∧
    (s.taken = some future ∧ (s.layer.cells future).result = .zero ∧
        s.output.completions = [(s.layer.cells future).completed] ∨
      s.taken = none ∧ (s.layer.cells future).isConsumed = true ∧
        s.output.completions = [.ofError einval])

/-- What `UfsrvFutureAny` promises. -/
structure Contract (call : Call) (s : State) : Prop where
  once : s.output.completions.length ≤ 1 ∧ s.output.sets ≤ 1 ∧ s.output.destroys ≤ 1 ∧
    s.frees ≤ 1 ∧ forall i, (s.records i).frees ≤ 1
  settled : s.layer.Settled call -> s.output.completions.length = 1 ∧ s.output.sets = 1 ∧
    s.output.destroys = 1 ∧ s.frees = 1 ∧
      forall i, i < call.count -> (s.records i).isAllocated = true -> (s.records i).frees = 1
  claimed : s.layer.Settled call -> forall w, s.winner = some w -> Delivered call s w
  unclaimed : s.layer.Settled call -> s.winner = none ->
    s.output.completions = [.ofError einval] ∧ s.taken = none ∧
      forall i, i < call.count -> s.layer.slots i = .done true
  first : forall w event, s.winner = some w -> enabled call s event ->
    (next s event).winner = some w
  decided : forall w future, enabled call s (.consume w future) -> s.winner = some w ∧
    (next s (.consume w future)).taken =
      if (s.layer.cells future).isConsumed then none else some future
  moved : forall event future, enabled call s event ->
    (forall result, event ≠ .layer (.complete future result)) -> event ≠ .layer (.move future) ->
    ((next s event).layer.cells future).result ≠ (s.layer.cells future).result ->
    s.taken = some future ∧ Exists fun w => s.winner = some w ∧ call.inputs w = some future
  unused : s.frees = 1 -> forall event, enabled call s event -> event.usesContext = false
  destroyed : s.output.destroys = 1 -> forall event, enabled call s event ->
    event.usesPromise = false
  recordUnused : forall i refused, (s.records i).frees = 1 ->
    ¬enabled call s (.freeRecord i refused)

namespace Inv

variable {call : Call} {s : State}

/-- The winner of the claimed flag has an input. -/
theorem winner_input (ok : Inv call s) (placed : Placed call s.layer) {w : Slot}
    (winner : s.winner = some w) : Exists fun future => call.inputs w = some future ∧
      WinnerOk (s.frames w) future (s.layer.cells future) s.taken s.output := by
  have present : call.inputs w ≠ none :=
    (placed.entries w).input (.inr (SlotFrame.refused_eq_some.mp (ok.won w winner)))
  rcases Option.ne_none_iff_exists'.mp present with ⟨future, input⟩
  exact ⟨future, input, ok.winner w future winner input⟩

theorem holds (ok : Inv call s) (placed : Placed call s.layer) :
    Exists fun result => s.output.Holds result := by
  cases winner : s.winner with
  | some w =>
      rcases ok.winner_input placed winner with ⟨future, _, good⟩
      refine ⟨outcome s.taken (s.layer.cells future), ?_⟩
      unfold Output.Holds
      cases here : s.frames w <;> grind -linarith [outcome]
  | none =>
      refine ⟨.ofError einval, ?_⟩
      rw [(ok.unclaimed winner).2]
      cases s.last with
      | none => exact .inl rfl
      | some l => cases here : s.frames l <;> simp [here, Frame.failure, Output.Holds]

theorem frees_le (ok : Inv call s) : s.frees ≤ 1 := by
  cases last : s.last with
  | none =>
      rw [(ok.shared last).2]
      exact Nat.zero_le 1
  | some l =>
      rw [(ok.last l last).2.2]
      split <;> simp

theorem done_of_settled (ok : Inv call s) (placed : Placed call s.layer)
    (settled : s.layer.Settled call) {i : Slot} (inside : i < call.count) :
    s.frames i = .done := by
  rcases placed.settled settled inside with ⟨refused, here⟩
  exact (ok.works i).finished refused here

theorem lt_count (ok : Inv call s) (placed : Placed call s.layer) {i : Slot}
    (begun : s.frames i ≠ .entered) : i < call.count := by
  refine placed.lt_count i ?_
  intro idle
  exact begun ((ok.works i).fresh (.inl idle))

/-- When everybody has reported, the last one has freed the context. -/
theorem last_of_settled (ok : Inv call s) (placed : Placed call s.layer)
    (settled : s.layer.Settled call) : Exists fun l => s.last = some l ∧ s.frames l = .done := by
  have zero : s.remaining = 0 := by
    have none : Counts call.count (fun _ => false) s.remaining := by
      refine ok.counts.congr ?_
      intro i inside
      rw [ok.done_of_settled placed settled inside]
      rfl
    simpa [Counts] using none
  cases last : s.last with
  | none => exact absurd (ok.shared last).1 (by simp [zero])
  | some l =>
      have begun : s.frames l ≠ .entered := by
        intro entered
        have := (ok.last l last).2.1
        simp [entered, Frame.waiting] at this
      exact ⟨l, rfl, ok.done_of_settled placed settled (ok.lt_count placed begun)⟩

theorem delivered (ok : Inv call s) (placed : Placed call s.layer)
    (settled : s.layer.Settled call) {w : Slot} (winner : s.winner = some w) :
    Delivered call s w ∧ Exists fun result => s.output = .spent result := by
  rcases ok.winner_input placed winner with ⟨future, input, good⟩
  have begun : s.frames w ≠ .entered := by
    intro entered
    have := good.passed
    simp [entered, Frame.early] at this
  have done := ok.done_of_settled placed settled (ok.lt_count placed begun)
  rw [done] at good
  have after := good.after rfl
  have consumed := good.consumed (by simp)
  refine ⟨⟨future, input, ok.won w winner, ?_⟩, _, after.1⟩
  rcases good.mine with none | mine
  · refine .inr ⟨none, consumed, ?_⟩
    rw [after.1, none]
    rfl
  · refine .inl ⟨mine, after.2 (by simp [mine]), ?_⟩
    rw [after.1, mine]
    rfl

theorem spent_unclaimed (ok : Inv call s) (placed : Placed call s.layer)
    (settled : s.layer.Settled call) (nobody : s.winner = none) :
    s.output = .spent (.ofError einval) := by
  rcases ok.last_of_settled placed settled with ⟨l, last, done⟩
  simpa only [last, done, Frame.failure] using (ok.unclaimed nobody).2

theorem spent_of_settled (ok : Inv call s) (placed : Placed call s.layer)
    (settled : s.layer.Settled call) : Exists fun result => s.output = .spent result := by
  cases winner : s.winner with
  | some w => exact (ok.delivered placed settled winner).2
  | none => exact ⟨_, ok.spent_unclaimed placed settled winner⟩

/-- Nobody has the context any more. -/
theorem done_of_freed (ok : Inv call s) (placed : Placed call s.layer) (freed : s.frees = 1)
    {i : Slot} {refused : Bool} (running : s.layer.slots i = .running refused) :
    s.frames i = .done := by
  have late := (ok.entries i).late
  cases last : s.last with
  | none => exact absurd (ok.shared last).2 (by simp [freed])
  | some l =>
      have waiting : (s.frames i).waiting ≠ true := by
        intro waiting
        have none := ok.last_none placed running waiting
        simp [last] at none
      have := (ok.last l last).2.2
      cases here : s.frames i <;> grind -linarith

theorem unused (ok : Inv call s) (placed : Placed call s.layer) (freed : s.frees = 1)
    {event : Event} (may : enabled call s event) : event.usesContext = false := by
  have done : forall slot, s.frames slot ≠ .entered -> s.frames slot = .done := by
    intro slot begun
    by_contra unfinished
    rcases (ok.works slot).running begun unfinished with ⟨refused, running⟩
    exact unfinished (ok.done_of_freed placed freed running)
  cases event with
  | layer | allocate | freeRecord | consume | move => rfl
  | subtract slot refused =>
      have := ok.done_of_freed placed freed may.1
      simp [may.2] at this
  | set slot future consumed => simpa [may.1] using done slot
  | destroy slot consumed =>
      simp only [enabled] at may
      simpa [may] using done slot
  | claim slot | check slot | fail slot | close slot | free slot =>
      simp only [enabled] at may
      simpa [may] using done slot

theorem destroyed (ok : Inv call s) (placed : Placed call s.layer)
    (destroys : s.output.destroys = 1) {event : Event} (may : enabled call s event) :
    event.usesPromise = false := by
  cases event with
  | layer | allocate | freeRecord | claim | consume | move | subtract | check | free => rfl
  | set slot future consumed =>
      have winner := (ok.entries slot).active (by rw [may.1]; rfl)
      have output := ((ok.winner slot future winner may.2).setting consumed may.1).1
      simp [output, Output.create] at destroys
  | destroy slot consumed =>
      simp only [enabled] at may
      have winner := (ok.entries slot).active (by rw [may]; rfl)
      rcases ok.winner_input placed winner with ⟨future, _, good⟩
      simp [(good.destroying consumed may).1, Output.given] at destroys
  | fail slot =>
      simp only [enabled] at may
      have output := (ok.unclaimed ((ok.entries slot).failed (.inl may))).2
      simp only [(ok.entries slot).late (by rw [may]; rfl), may, Frame.failure] at output
      simp [output, Output.create] at destroys
  | close slot =>
      simp only [enabled] at may
      have output := (ok.unclaimed ((ok.entries slot).failed (.inr may))).2
      simp only [(ok.entries slot).late (by rw [may]; rfl), may, Frame.failure] at output
      simp [output, Output.given] at destroys

theorem first (ok : Inv call s) {w : Slot} (winner : s.winner = some w) (event : Event) :
    (next s event).winner = some w := by
  cases event with
  | claim slot =>
      have claimed : s.claimed = true := by rw [ok.claimed, winner, Option.isSome_some]
      simp only [next, claimed, if_true, State.setFrame, winner]
  | consume slot future =>
      simp only [next]
      split <;> exact winner
  | _ => exact winner

theorem decided (ok : Inv call s) {w : Slot} {future : FutureId}
    (may : enabled call s (.consume w future)) : s.winner = some w ∧
      (next s (.consume w future)).taken =
        if (s.layer.cells future).isConsumed then none else some future := by
  have winner := (ok.entries w).active (by rw [may.1]; rfl)
  refine ⟨winner, ?_⟩
  simp only [next]
  split
  · exact ((ok.winner w future winner may.2).consuming may.1).1
  · rfl

/-- The call changes no result but that of the input that it has claimed. -/
theorem moved (ok : Inv call s) {event : Event} {future : FutureId}
    (may : enabled call s event) (completes : forall result, event ≠ .layer (.complete future result))
    (moves : event ≠ .layer (.move future))
    (changed : ((next s event).layer.cells future).result ≠ (s.layer.cells future).result) :
    s.taken = some future ∧ Exists fun w => s.winner = some w ∧ call.inputs w = some future := by
  cases event with
  | move slot other =>
      have winner := (ok.entries slot).active (by rw [may.1]; rfl)
      have mine := ((ok.winner slot other winner may.2).moving may.1).2
      by_cases same : future = other
      · subst future
        exact ⟨mine, slot, winner, may.2⟩
      · refine absurd ?_ changed
        simp only [next, Combinator.next, Combinator.State.setCell, Function.update_of_ne same]
  | consume slot other =>
      refine absurd ?_ changed
      simp only [next]
      split
      · rfl
      · simp only [Combinator.next, Combinator.State.setCell]
        grind -linarith
  | claim slot =>
      refine absurd ?_ changed
      simp only [next]
      split <;> rfl
  | layer event =>
      refine absurd ?_ changed
      exact result_next_of_ne (fun result same => completes result (by rw [same]))
        (fun same => moves (by rw [same]))
  | _ => exact absurd rfl changed

end Inv

/-- In every state that the call, its inputs and their other consumers can reach. -/
theorem anyContract (call : Call) {s : State} (reached : (machine call).Reachable s) :
    Contract call s := by
  rcases reachable_inv reached with ⟨ok, placed⟩
  rcases ok.holds placed with ⟨result, holds⟩
  constructor
  · refine ⟨holds.once.1, holds.once.2.1, holds.once.2.2, ok.frees_le, ?_⟩
    intro i
    rw [(ok.entries i).frees]
    split <;> simp
  · intro settled
    rcases ok.spent_of_settled placed settled with ⟨value, output⟩
    rcases ok.last_of_settled placed settled with ⟨l, last, done⟩
    have freed := (ok.last l last).2.2
    simp only [done, if_true] at freed
    refine ⟨by simp [output, Output.spent], by simp [output, Output.spent],
      by simp [output, Output.spent], freed, ?_⟩
    intro i inside allocated
    rw [(ok.entries i).frees, ok.done_of_settled placed settled inside]
    simp [allocated]
  · intro settled w winner
    exact (ok.delivered placed settled winner).1
  · intro settled nobody
    refine ⟨?_, (ok.unclaimed nobody).1, ?_⟩
    · rw [ok.spent_unclaimed placed settled nobody, Output.spent]
    · intro i inside
      rcases placed.settled settled inside with ⟨refused, done⟩
      have passed := (ok.entries i).passed (by rw [(ok.works i).finished refused done]; rfl)
      cases refused with
      | true => exact done
      | false => exact absurd nobody (passed (by rw [done]; rfl))
  · intro w event winner _
    exact ok.first winner event
  · intro w future may
    exact ok.decided may
  · intro event future may completes moves changed
    exact ok.moved may completes moves changed
  · intro freed event may
    exact ok.unused placed freed may
  · intro destroys event may
    exact ok.destroyed placed destroys may
  · rintro i refused freed ⟨_, entered⟩
    rw [(ok.entries i).frees] at freed
    simp [entered] at freed

/-- A NULL entry and a pending input. -/
def nullAndPending : Call where
  count := 2
  inputs := fun slot => if slot = 1 then some 0 else none
  positive := Nat.two_pos

/-- The loop gives the NULL entry up, then the input completes with a value. -/
def pendingWins : List Event :=
  [.allocate 0, .layer (.refuse 0), .freeRecord 0 true, .subtract 0 true, .layer (.loopDone 0),
    .allocate 1, .layer (.check 1 0), .layer (.push 1 0), .layer .loopReturn,
    .layer (.complete 0 ⟨0, some 7, true⟩), .layer (.close 0), .layer (.drainNext 0 1 []),
    .freeRecord 1 false, .claim 1, .consume 1 0, .set 1 0 true, .destroy 1 true, .move 1 0,
    .subtract 1 false, .free 1, .layer (.drainDone 0 1 []), .layer (.drainReturn 0)]

theorem anyContract_pendingWins :
    Contract nullAndPending ((machine nullAndPending).after (start nullAndPending) pendingWins) ∧
      ((machine nullAndPending).after (start nullAndPending) pendingWins).output =
        .spent ⟨0, some 7, true⟩ ∧
      ((machine nullAndPending).after (start nullAndPending) pendingWins).frees = 1 := by
  have may : (machine nullAndPending).AllEnabled (start nullAndPending) pendingWins := by
    refine ⟨⟨rfl, by decide, rfl⟩, ⟨⟨by decide, .inl rfl⟩, fun _ => .inl rfl⟩, ⟨rfl, rfl⟩,
      ⟨rfl, rfl⟩, ⟨rfl, rfl⟩, ⟨rfl, by decide, rfl⟩, ⟨⟨by decide, rfl, rfl⟩, rfl⟩,
      ⟨⟨rfl, rfl⟩, trivial⟩, ⟨rfl, trivial⟩, ⟨rfl, trivial⟩, ⟨rfl, trivial⟩, ⟨rfl, trivial⟩,
      ⟨rfl, rfl⟩, rfl, ⟨rfl, rfl⟩, ⟨rfl, rfl⟩, rfl, ⟨rfl, rfl⟩, ⟨rfl, rfl⟩, rfl, ⟨rfl, rfl⟩,
      ⟨rfl, trivial⟩, trivial⟩
  exact ⟨anyContract nullAndPending (.run (.start rfl) may.run), rfl, rfl⟩

end Any
end Combinator
end UfsrvRx
