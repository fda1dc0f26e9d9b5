import UfsrvRx.Transition.Countdown
import UfsrvRx.Combinator.Output

namespace UfsrvRx
namespace Combinator
namespace All

open Transition
open Future (Result einval)

/-!
# `UfsrvFutureAll`

The call shares a context with the continuations of its inputs.  The first entry that
reports an error wins the failed flag and sets the out promise; the entry that brings the
counter to zero sets it if nobody has failed, and frees the context.  An entry that is NULL
or whose registration was refused is reported by the loop itself.
-/

/-- Program points of `sAllContinuation`, and of the loop body behind a refusal. -/
inductive Frame
  | entered
  | setting (error : Int)
  | destroying
  | subtracting
  | checking
  | succeeding
  | closing
  | freeing
  | done
deriving DecidableEq, Repr

/-- The context, the promise in it, and what the threads are at.  That the context was
freed, who won the failed flag and who brought the counter to zero is history. -/
structure State where
  layer : Combinator.State
  frames : Slot -> Frame
  remaining : Nat
  failed : Bool
  output : Output
  frees : Nat
  winner : Option Slot
  last : Option Slot

inductive Event
  | layer (event : Combinator.Event)
  | enter (slot : Slot) (refused : Bool)
  | set (slot : Slot) (error : Int)
  | destroy (slot : Slot)
  | subtract (slot : Slot) (refused : Bool)
  | check (slot : Slot)
  | succeed (slot : Slot)
  | close (slot : Slot)
  | free (slot : Slot)
deriving DecidableEq, Repr

section call

variable (call : Call)

/-- `UfsrvFutureThen` refuses a NULL future at once and any other one when it has no memory
for the node.  A continuation returns when it has done its work.  No input is passed to a
move operator. -/
def admits (s : State) : Combinator.Event -> Prop
  | .refuse slot => s.layer.loop = .visiting slot -> call.inputs slot = none
  | .drainDone _ slot _ | .loopDone slot => s.frames slot = .done
  | .consume _ | .move _ => False
  | _ => True

/-- The error that the entry goes on with. -/
def readError (s : State) (slot : Slot) (refused : Bool) : Int :=
  if refused then einval
  else
    match call.inputs slot with
    | some future => (s.layer.cells future).result.error
    | none => 0

def enabled (s : State) : Event -> Prop
  | .layer event => Combinator.enabled call s.layer event ∧ admits call s event
  | .enter slot refused => s.layer.slots slot = .running refused ∧ s.frames slot = .entered
  | .set slot error => s.frames slot = .setting error
  | .destroy slot => s.frames slot = .destroying
  | .subtract slot refused =>
      s.layer.slots slot = .running refused ∧ s.frames slot = .subtracting
  | .check slot => s.frames slot = .checking
  | .succeed slot => s.frames slot = .succeeding
  | .close slot => s.frames slot = .closing
  | .free slot => s.frames slot = .freeing

def State.setFrame (s : State) (slot : Slot) (frame : Frame) : State :=
  { s with frames := Function.update s.frames slot frame }

/-- Where the entry goes on after `atomic_fetch_sub`. -/
def afterSubtract (remaining : Nat) (refused : Bool) : Frame :=
  if remaining = 1 then (if refused then .freeing else .checking) else .done

def next (s : State) : Event -> State
  | .layer event => { s with layer := Combinator.next s.layer event }
  | .enter slot refused =>
      let error := readError call s slot refused
      if error = 0 ∨ s.failed = true then s.setFrame slot .subtracting
      else { s.setFrame slot (.setting error) with failed := true, winner := some slot }
  | .set slot error =>
      { s.setFrame slot .destroying with output := s.output.setResult (.ofError error) }
  | .destroy slot => { s.setFrame slot .subtracting with output := s.output.destroy }
  | .subtract slot refused =>
      { s.setFrame slot (afterSubtract s.remaining refused) with
        remaining := s.remaining - 1
        last := if s.remaining = 1 then some slot else s.last }
  | .check slot => s.setFrame slot (if s.failed then .freeing else .succeeding)
  | .succeed slot => { s.setFrame slot .closing with output := s.output.setResult .zero }
  | .close slot => { s.setFrame slot .freeing with output := s.output.destroy }
  | .free slot => { s.setFrame slot .done with frees := s.frees + 1 }

/-- The call stands before its loop. -/
def start : State where
  layer := Combinator.start
  frames := fun _ => .entered
  remaining := call.count
  failed := false
  output := .create
  frees := 0
  winner := none
  last := none

def machine : Machine State Event where
  initial := fun s => s = start call
  enabled := enabled call
  next := next call

end call

/-! ## The invariant -/

namespace Frame

/-- The entry has not subtracted. -/
@[grind =] def waiting : Frame -> Bool
  | entered | setting _ | destroying | subtracting => true
  | checking | succeeding | closing | freeing | done => false

/-- The entry has brought the counter to zero and still has the context. -/
@[grind =] def late : Frame -> Bool
  | checking | succeeding | closing | freeing => true
  | entered | setting _ | destroying | subtracting | done => false

/-- The promise, given the point that the winner of the failed flag is at. -/
@[grind =] def failure (error : Int) : Frame -> Output
  | entered | setting _ => .create
  | destroying => .given (.ofError error)
  | subtracting | checking | succeeding | closing | freeing | done => .spent (.ofError error)

/-- The promise, given the point that the last entry is at, if nobody has failed. -/
@[grind =] def success : Frame -> Output
  | closing => .given .zero
  | freeing | done => .spent .zero
  | entered | setting _ | destroying | subtracting | checking | succeeding => .create

end Frame

/-- What holds for one entry. -/
structure EntryOk (slot : Slot) (frame : Frame) (error : Option Int) (winner last : Option Slot) :
    Prop where
  begun : frame ≠ .entered -> error ≠ none
  setting : forall value, frame = .setting value -> winner = some slot ∧ error = some value
  destroying : frame = .destroying -> winner = some slot
  lost : frame ≠ .entered -> error ≠ some 0 -> winner ≠ none
  late : frame.late = true -> last = some slot
  succeeding : frame = .succeeding ∨ frame = .closing -> winner = none

attribute [grind cases] EntryOk

/-- The flag, the counter, the promise and the context belong together. -/
structure Inv (call : Call) (s : State) : Prop where
  unconsumed : forall f, (s.layer.cells f).isConsumed = false
  works : forall i, Works (s.frames i = .entered) (s.frames i = .done) (s.layer.slots i)
  entries : forall i, EntryOk i (s.frames i) (entryError call s.layer i) s.winner s.last
  counts : Counts call.count (fun i => (s.frames i).waiting) s.remaining
  failed : s.failed = s.winner.isSome
  won : forall w, s.winner = some w -> s.frames w ≠ .entered ∧
    Exists fun error => entryError call s.layer w = some error ∧ error ≠ 0 ∧
      s.output = (s.frames w).failure error
  unfailed : s.winner = none -> s.output =
    match s.last with
    | none => .create
    | some l => (s.frames l).success
  last : forall l, s.last = some l -> s.remaining = 0 ∧ (s.frames l).waiting = false ∧
    s.frees = if s.frames l = .done then 1 else 0
  shared : s.last = none -> 0 < s.remaining ∧ s.frees = 0

namespace Inv

variable {call : Call} {s : State}

theorem start (call : Call) : Inv call (start call) where
  unconsumed := fun _ => rfl
  works := by
    intro i
    exact ⟨fun _ => rfl, by simp [All.start, Combinator.start]⟩
  entries := by
    intro i
    constructor <;> simp [All.start, Frame.late]
  counts := .all call.count
  failed := rfl
  won := by simp [All.start]
  unfailed := fun _ => rfl
  last := by simp [All.start]
  shared := fun _ => ⟨call.positive, rfl⟩

theorem layer (ok : Inv call s) (placed : Placed call s.layer) {event : Combinator.Event}
    (may : enabled call s (.layer event)) : Inv call (next call s (.layer event)) where
  unconsumed := by
    intro f
    have other : event ≠ .consume f := by
      intro same
      rw [same] at may
      exact may.2
    exact (isConsumed_next other).trans (ok.unconsumed f)
  works := by
    intro i
    refine (ok.works i).next (advances_next placed event may.1 i) ?_
    intro ends
    have admitted := may.2
    cases event <;> simp only [Combinator.Event.ends] at ends
    · subst ends
      exact admitted
    · subst ends
      exact admitted
  entries := by
    intro i
    have entry := ok.entries i
    have kept := @entryError_next call s.layer placed event may.1 i
    simp only [next]
    cases here : entryError call s.layer i with
    | none =>
        have entered : s.frames i = .entered := by grind -linarith
        constructor <;> grind -linarith
    | some error =>
        rw [kept here]
        rw [here] at entry
        exact entry
  counts := ok.counts
  failed := ok.failed
  won := by
    intro w winner
    rcases ok.won w winner with ⟨begun, error, here, nonzero, output⟩
    exact ⟨begun, error, entryError_next placed may.1 here, nonzero, output⟩
  unfailed := ok.unfailed
  last := ok.last
  shared := ok.shared

/-- A step of an entry that leaves the counter alone. -/
theorem step (ok : Inv call s) {slot : Slot} {frame : Frame} {after : State} {refused : Bool}
    (running : s.layer.slots slot = .running refused)
    (layer : after.layer = s.layer)
    (frames : after.frames = Function.update s.frames slot frame)
    (remaining : after.remaining = s.remaining) (last : after.last = s.last)
    (waiting : frame.waiting = (s.frames slot).waiting)
    (entries : forall i, EntryOk i (s.frames i) (entryError call s.layer i) s.winner s.last ->
      EntryOk i (Function.update s.frames slot frame i) (entryError call s.layer i) after.winner
        s.last)
    (failed : after.failed = after.winner.isSome)
    (won : forall w, after.winner = some w -> Function.update s.frames slot frame w ≠ .entered ∧
      Exists fun error => entryError call s.layer w = some error ∧ error ≠ 0 ∧
        after.output = (Function.update s.frames slot frame w).failure error)
    (unfailed : after.winner = none -> after.output =
      match s.last with
      | none => .create
      | some l => (Function.update s.frames slot frame l).success)
    (freed : forall l, s.last = some l ->
      after.frees = if Function.update s.frames slot frame l = .done then 1 else 0)
    (shared : s.last = none -> after.frees = s.frees) : Inv call after where
  unconsumed := by
    rw [layer]
    exact ok.unconsumed
  works := by
    intro i
    by_cases mine : i = slot
    · subst i
      exact .of_running (layer ▸ running)
    · rw [layer, frames, Function.update_of_ne mine]
      exact ok.works i
  entries := by
    intro i
    rw [layer, frames, last]
    exact entries i (ok.entries i)
  counts := by
    rw [remaining, frames]
    refine ok.counts.congr ?_
    intro i _
    by_cases mine : i = slot
    · subst i
      rw [Function.update_self, waiting]
    · rw [Function.update_of_ne mine]
  failed := failed
  won := by
    rw [layer, frames]
    exact won
  unfailed := by
    rw [frames, last]
    exact unfailed
  last := by
    intro l here
    rw [last] at here
    have before := ok.last l here
    refine ⟨remaining.trans before.1, ?_, ?_⟩
    · rw [frames]
      by_cases mine : l = slot
      · subst l
        rw [Function.update_self, waiting, before.2.1]
      · rw [Function.update_of_ne mine, before.2.1]
    · rw [frames]
      exact freed l here
  shared := by
    intro here
    rw [last] at here
    rw [remaining, shared here]
    exact ok.shared here

theorem readError_eq (ok : Inv call s) (placed : Placed call s.layer) {slot : Slot}
    {refused : Bool} (running : s.layer.slots slot = .running refused) :
    entryError call s.layer slot = some (readError call s slot refused) := by
  cases refused with
  | true => simp only [entryError, readError, running, SlotFrame.refused, if_true]
  | false =>
      have begun : (s.layer.slots slot).refused = some false := by rw [running, SlotFrame.refused]
      rcases entryError_exists placed begun with ⟨error, here⟩
      simp only [entryError, begun] at here
      rcases Option.map_eq_some_iff.mp here with ⟨future, input, _⟩
      have result := (placed.cells future).result (placed.ready begun input) (ok.unconsumed future)
      simp [entryError, readError, begun, input, result]

/-- Before it subtracts, an entry has a share in the context. -/
theorem last_none (ok : Inv call s) (placed : Placed call s.layer) {slot : Slot}
    {refused : Bool} (running : s.layer.slots slot = .running refused)
    (waiting : (s.frames slot).waiting = true) : s.last = none := by
  have inside := placed.lt_count slot (by rw [running]; simp)
  have positive := (ok.counts.report inside waiting).1
  cases here : s.last with
  | none => rfl
  | some l =>
      rw [(ok.last l here).1] at positive
      exact absurd positive (Nat.lt_irrefl 0)

theorem enter (ok : Inv call s) (placed : Placed call s.layer) {slot : Slot} {refused : Bool}
    (may : enabled call s (.enter slot refused)) :
    Inv call (next call s (.enter slot refused)) := by
  rcases may with ⟨running, entered⟩
  have error := ok.readError_eq placed running
  have last := ok.last_none placed running (by rw [entered]; rfl)
  have failed := ok.failed
  have won := ok.won
  have unfailed := ok.unfailed
  simp only [last] at unfailed
  simp only [next]
  split
  · refine ok.step running rfl rfl rfl rfl (by grind -linarith) ?_ failed ?_ ?_ (by simp [last])
      (fun _ => rfl)
    · intro i entry
      constructor <;> grind -linarith [State.setFrame]
    · grind -linarith [State.setFrame]
    · grind -linarith [State.setFrame]
  · rename_i fails
    rw [not_or] at fails
    refine ok.step running rfl rfl rfl rfl (by grind -linarith) ?_ rfl ?_ (by simp) (by simp [last])
      (fun _ => rfl)
    · intro i entry
      constructor <;> grind -linarith [State.setFrame]
    · intro w winner
      cases winner
      refine ⟨by simp, _, error, fails.1, ?_⟩
      rw [Function.update_self]
      exact unfailed (by simpa [failed] using fails.2)

theorem set (ok : Inv call s) (placed : Placed call s.layer) {slot : Slot} {error : Int}
    (may : enabled call s (.set slot error)) : Inv call (next call s (.set slot error)) := by
  simp only [enabled] at may
  rcases (ok.works slot).running (by simp [may]) (by simp [may]) with ⟨refused, running⟩
  have last := ok.last_none placed running (by rw [may]; rfl)
  have here := ok.entries slot
  rcases here.setting error may with ⟨winner, same⟩
  rcases ok.won slot winner with ⟨_, value, value_eq, nonzero, output⟩
  refine ok.step running rfl rfl rfl rfl (by grind -linarith) ?_ ok.failed ?_ ?_ (by simp [last])
    (fun _ => rfl)
  · intro i entry
    constructor <;> grind -linarith [State.setFrame, next]
  · intro w other
    have mine : w = slot := by
      have : s.winner = some w := other
      grind -linarith
    subst w
    refine ⟨by simp, value, value_eq, nonzero, ?_⟩
    grind -linarith [State.setFrame, next]
  · intro none
    exact absurd (none.symm.trans winner) (by simp)

theorem destroy (ok : Inv call s) (placed : Placed call s.layer) {slot : Slot}
    (may : enabled call s (.destroy slot)) : Inv call (next call s (.destroy slot)) := by
  simp only [enabled] at may
  rcases (ok.works slot).running (by simp [may]) (by simp [may]) with ⟨refused, running⟩
  have last := ok.last_none placed running (by rw [may]; rfl)
  have here := ok.entries slot
  have winner := here.destroying may
  rcases ok.won slot winner with ⟨_, value, value_eq, nonzero, output⟩
  refine ok.step running rfl rfl rfl rfl (by grind -linarith) ?_ ok.failed ?_ ?_ (by simp [last])
    (fun _ => rfl)
  · intro i entry
    constructor <;> grind -linarith [State.setFrame, next]
  · intro w other
    have mine : w = slot := by
      have : s.winner = some w := other
      grind -linarith
    subst w
    refine ⟨by simp, value, value_eq, nonzero, ?_⟩
    grind -linarith [State.setFrame, next]
  · intro none
    exact absurd (none.symm.trans winner) (by simp)

theorem subtract (ok : Inv call s) (placed : Placed call s.layer) {slot : Slot} {refused : Bool}
    (may : enabled call s (.subtract slot refused)) :
    Inv call (next call s (.subtract slot refused)) := by
  rcases may with ⟨running, subtracting⟩
  have none := ok.last_none placed running (by rw [subtracting]; rfl)
  have inside := placed.lt_count slot (by rw [running]; simp)
  have counted := ok.counts.report inside (by rw [subtracting]; rfl)
  have unfailed := ok.unfailed
  have won := ok.won
  have shared := ok.shared none
  simp only [none] at unfailed
  have target : s.remaining = 1 ∧ (afterSubtract s.remaining refused = .freeing ∧ s.winner ≠ .none ∨
      afterSubtract s.remaining refused = .checking) ∨
      s.remaining ≠ 1 ∧ afterSubtract s.remaining refused = .done := by
    have here := (ok.entries slot).lost (by simp [subtracting])
    simp only [ok.readError_eq placed running] at here
    grind -linarith [afterSubtract, readError, einval]
  simp only [next, State.setFrame]
  generalize afterSubtract s.remaining refused = frame at target ⊢
  constructor
  · exact ok.unconsumed
  · intro i
    by_cases mine : i = slot
    · subst i
      exact .of_running running
    · simp only [Function.update_of_ne mine]
      exact ok.works i
  · intro i
    have := ok.entries i
    constructor <;> grind -linarith
  · refine counted.2.congr ?_
    intro i _
    grind -linarith
  · exact ok.failed
  · intro w winner
    rcases won w winner with ⟨begun, value, value_eq, nonzero, output⟩
    refine ⟨by grind -linarith, value, value_eq, nonzero, ?_⟩
    grind -linarith
  · grind -linarith
  · grind -linarith
  · grind -linarith

theorem check (ok : Inv call s) {slot : Slot} (may : enabled call s (.check slot)) :
    Inv call (next call s (.check slot)) := by
  simp only [enabled] at may
  rcases (ok.works slot).running (by simp [may]) (by simp [may]) with ⟨refused, running⟩
  have last := (ok.entries slot).late (by rw [may]; rfl)
  have failed := ok.failed
  have won := ok.won
  have unfailed := ok.unfailed
  have freed := (ok.last slot last).2.2
  simp only [last] at unfailed
  simp only [next]
  split
  · refine ok.step running rfl rfl rfl rfl (by grind -linarith) ?_ failed ?_ ?_ ?_ (fun _ => rfl)
    · intro i entry
      constructor <;> grind -linarith [State.setFrame]
    · intro w winner
      rcases won w winner with ⟨begun, value, value_eq, nonzero, output⟩
      refine ⟨by grind -linarith, value, value_eq, nonzero, ?_⟩
      grind -linarith [State.setFrame]
    · grind -linarith [State.setFrame]
    · grind -linarith [State.setFrame]
  · rename_i flag
    have nobody : s.winner = none := by simpa [failed] using flag
    refine ok.step running rfl rfl rfl rfl (by grind -linarith) ?_ failed ?_ ?_ ?_ (fun _ => rfl)
    · intro i entry
      constructor <;> grind -linarith [State.setFrame]
    · intro w winner
      exact absurd (nobody.symm.trans winner) (by simp)
    · grind -linarith [State.setFrame]
    · grind -linarith [State.setFrame]

theorem succeed (ok : Inv call s) {slot : Slot} (may : enabled call s (.succeed slot)) :
    Inv call (next call s (.succeed slot)) := by
  simp only [enabled] at may
  rcases (ok.works slot).running (by simp [may]) (by simp [may]) with ⟨refused, running⟩
  have last := (ok.entries slot).late (by rw [may]; rfl)
  have nobody := (ok.entries slot).succeeding (.inl may)
  have unfailed := ok.unfailed nobody
  have freed := (ok.last slot last).2.2
  simp only [last] at unfailed
  refine ok.step running rfl rfl rfl rfl (by grind -linarith) ?_ ok.failed ?_ ?_ ?_ (fun _ => rfl)
  · intro i entry
    constructor <;> grind -linarith [State.setFrame, next]
  · intro w winner
    exact absurd (nobody.symm.trans winner) (by simp)
  · grind -linarith [State.setFrame, next]
  · grind -linarith [State.setFrame, next]

theorem close (ok : Inv call s) {slot : Slot} (may : enabled call s (.close slot)) :
    Inv call (next call s (.close slot)) := by
  simp only [enabled] at may
  rcases (ok.works slot).running (by simp [may]) (by simp [may]) with ⟨refused, running⟩
  have last := (ok.entries slot).late (by rw [may]; rfl)
  have nobody := (ok.entries slot).succeeding (.inr may)
  have unfailed := ok.unfailed nobody
  have freed := (ok.last slot last).2.2
  simp only [last] at unfailed
  refine ok.step running rfl rfl rfl rfl (by grind -linarith) ?_ ok.failed ?_ ?_ ?_ (fun _ => rfl)
  · intro i entry
    constructor <;> grind -linarith [State.setFrame, next]
  · intro w winner
    exact absurd (nobody.symm.trans winner) (by simp)
  · grind -linarith [State.setFrame, next]
  · grind -linarith [State.setFrame, next]

theorem free (ok : Inv call s) {slot : Slot} (may : enabled call s (.free slot)) :
    Inv call (next call s (.free slot)) := by
  simp only [enabled] at may
  rcases (ok.works slot).running (by simp [may]) (by simp [may]) with ⟨refused, running⟩
  have last := (ok.entries slot).late (by rw [may]; rfl)
  have won := ok.won
  have unfailed := ok.unfailed
  have freed := (ok.last slot last).2.2
  simp only [last] at unfailed
  refine ok.step running rfl rfl rfl rfl (by grind -linarith) ?_ ok.failed ?_ ?_ ?_ ?_
  · intro i entry
    constructor <;> grind -linarith [State.setFrame, next]
  · intro w winner
    rcases won w winner with ⟨begun, value, value_eq, nonzero, output⟩
    refine ⟨by grind -linarith, value, value_eq, nonzero, ?_⟩
    grind -linarith [State.setFrame, next]
  · grind -linarith [State.setFrame, next]
  · grind -linarith [State.setFrame, next]
  · grind -linarith

end Inv

theorem inv_next {call : Call} {s : State} (ok : Inv call s) (placed : Placed call s.layer)
    (event : Event) (may : enabled call s event) : Inv call (next call s event) := by
  cases event with
  | layer event => exact ok.layer placed may
  | enter slot refused => exact ok.enter placed may
  | set slot error => exact ok.set placed may
  | destroy slot => exact ok.destroy placed may
  | subtract slot refused => exact ok.subtract placed may
  | check slot => exact ok.check may
  | succeed slot => exact ok.succeed may
  | close slot => exact ok.close may
  | free slot => exact ok.free may

theorem reachable_layer {call : Call} {s : State} (reached : (machine call).Reachable s) :
    (Combinator.machine call).Reachable s.layer := by
  refine reached.component (Combinator.machine call) State.layer ?_ ?_
  · intro s initial
    cases initial
    rfl
  · intro s event may
    cases event with
    | layer event => exact .inr ⟨event, may.1, rfl⟩
    | enter slot refused =>
        refine .inl ?_
        change (next call s (.enter slot refused)).layer = s.layer
        simp only [next]
        split <;> rfl
    | _ => exact .inl rfl

theorem reachable_inv {call : Call} {s : State} (reached : (machine call).Reachable s) :
    Inv call s := by
  refine reached.invariant (Inv call) ?_ ?_
  · intro s initial
    cases initial
    exact .start call
  · intro s event reached ok may
    exact inv_next ok (reachable_placed (reachable_layer reached)) event may

/-! ## The contract -/

/-- The steps that read or write the context. -/
def Event.usesContext : Event -> Bool
  | layer _ => false
  | enter _ _ | set _ _ | destroy _ | subtract _ _ | check _ | succeed _ | close _ | free _ => true

/-- The steps that call a function of the out promise. -/
def Event.usesPromise : Event -> Bool
  | set _ _ | destroy _ | succeed _ | close _ => true
  | layer _ | enter _ _ | subtract _ _ | check _ | free _ => false

/-- The entry was registered, and its input has completed without an error. -/
def Succeeded (call : Call) (s : State) (slot : Slot) : Prop :=
  Exists fun future => call.inputs slot = some future ∧
    (s.layer.slots slot).refused = some false ∧ (s.layer.cells future).isReady = true ∧
    (s.layer.cells future).completed.error = 0

/-- What `UfsrvFutureAll` promises. -/
structure Contract (call : Call) (s : State) : Prop where
  once : s.output.completions.length ≤ 1 ∧ s.output.sets ≤ 1 ∧ s.output.destroys ≤ 1 ∧
    s.frees ≤ 1
  settled : s.layer.Settled call -> s.output.completions.length = 1 ∧ s.output.sets = 1 ∧
    s.output.destroys = 1 ∧ s.frees = 1
  succeeded : forall result, result ∈ s.output.completions -> result.error = 0 ->
    result = .zero ∧ forall i, i < call.count -> Succeeded call s i
  succeeds : s.layer.Settled call -> (forall i, i < call.count -> Succeeded call s i) ->
    s.output.completions = [.zero]
  failing : forall i refused, s.layer.slots i = .done refused -> ¬Succeeded call s i ->
    s.winner ≠ none
  failed : forall w, s.winner = some w -> Exists fun error =>
    entryError call s.layer w = some error ∧ error ≠ 0 ∧
      (forall result, result ∈ s.output.completions -> result = .ofError error) ∧
      forall refused, s.layer.slots w = .done refused -> s.output.completions = [.ofError error]
  first : forall w event, s.winner = some w -> enabled call s event ->
    (next call s event).winner = some w
  unused : s.frees = 1 -> forall event, enabled call s event -> event.usesContext = false
  destroyed : s.output.destroys = 1 -> forall event, enabled call s event ->
    event.usesPromise = false

namespace Inv

variable {call : Call} {s : State}

theorem holds_won (ok : Inv call s) {w : Slot} (winner : s.winner = some w) :
    Exists fun error => entryError call s.layer w = some error ∧ error ≠ 0 ∧
      s.output.Holds (.ofError error) := by
  rcases ok.won w winner with ⟨_, error, here, nonzero, output⟩
  refine ⟨error, here, nonzero, ?_⟩
  rw [output]
  cases s.frames w <;> simp [Frame.failure, Output.Holds]

theorem holds_unfailed (ok : Inv call s) (winner : s.winner = none) :
    s.output.Holds .zero := by
  rw [ok.unfailed winner]
  cases s.last with
  | none => exact .inl rfl
  | some l => cases here : s.frames l <;> simp [here, Frame.success, Output.Holds]

theorem frees_le (ok : Inv call s) : s.frees ≤ 1 := by
  cases last : s.last with
  | none =>
      rw [(ok.shared last).2]
      exact Nat.zero_le 1
  | some l =>
      rw [(ok.last l last).2.2]
      split <;> simp

theorem once (ok : Inv call s) : s.output.completions.length ≤ 1 ∧ s.output.sets ≤ 1 ∧
    s.output.destroys ≤ 1 ∧ s.frees ≤ 1 := by
  have output : s.output.completions.length ≤ 1 ∧ s.output.sets ≤ 1 ∧ s.output.destroys ≤ 1 := by
    cases winner : s.winner with
    | some w =>
        rcases ok.holds_won winner with ⟨error, _, _, holds⟩
        exact holds.once
    | none => exact (ok.holds_unfailed winner).once
  exact ⟨output.1, output.2.1, output.2.2, ok.frees_le⟩

theorem done_of_settled (ok : Inv call s) (placed : Placed call s.layer)
    (settled : s.layer.Settled call) {i : Slot} (inside : i < call.count) :
    s.frames i = .done := by
  rcases placed.settled settled inside with ⟨refused, here⟩
  exact (ok.works i).finished refused here

theorem lt_count (ok : Inv call s) (placed : Placed call s.layer) {i : Slot}
    (begun : s.frames i ≠ .entered) : i < call.count := by
  refine placed.lt_count i ?_
  intro idle
  exact begun ((ok.works i).fresh (.inl idle))

/-- When everybody has reported, the last one has freed the context. -/
theorem last_of_settled (ok : Inv call s) (placed : Placed call s.layer)
    (settled : s.layer.Settled call) : Exists fun l => s.last = some l ∧ s.frames l = .done := by
  have zero : s.remaining = 0 := by
    have none : Counts call.count (fun _ => false) s.remaining := by
      refine ok.counts.congr ?_
      intro i inside
      rw [ok.done_of_settled placed settled inside]
      rfl
    simpa [Counts] using none
  cases last : s.last with
  | none => exact absurd (ok.shared last).1 (by simp [zero])
  | some l =>
      have begun : s.frames l ≠ .entered := by
        intro entered
        have := (ok.last l last).2.1
        simp [entered, Frame.waiting] at this
      exact ⟨l, rfl, ok.done_of_settled placed settled (ok.lt_count placed begun)⟩

theorem spent_of_settled (ok : Inv call s) (placed : Placed call s.layer)
    (settled : s.layer.Settled call) : Exists fun result => s.output = .spent result := by
  rcases ok.last_of_settled placed settled with ⟨l, last, done⟩
  cases winner : s.winner with
  | none => exact ⟨.zero, by simpa only [last, done, Frame.success] using ok.unfailed winner⟩
  | some w =>
      rcases ok.won w winner with ⟨begun, error, _, _, output⟩
      rw [ok.done_of_settled placed settled (ok.lt_count placed begun)] at output
      exact ⟨.ofError error, output⟩

/-- Nobody has the context any more. -/
theorem done_of_freed (ok : Inv call s) (placed : Placed call s.layer) (freed : s.frees = 1)
    {i : Slot} {refused : Bool} (running : s.layer.slots i = .running refused) :
    s.frames i = .done := by
  have late := (ok.entries i).late
  cases last : s.last with
  | none => exact absurd (ok.shared last).2 (by simp [freed])
  | some l =>
      have waiting : (s.frames i).waiting ≠ true := by
        intro waiting
        have none := ok.last_none placed running waiting
        simp [last] at none
      have := (ok.last l last).2.2
      cases here : s.frames i <;> grind -linarith

theorem unused (ok : Inv call s) (placed : Placed call s.layer) (freed : s.frees = 1)
    {event : Event} (may : enabled call s event) : event.usesContext = false := by
  have done : forall slot, s.frames slot ≠ .entered -> s.frames slot = .done := by
    intro slot begun
    by_contra unfinished
    rcases (ok.works slot).running begun unfinished with ⟨refused, running⟩
    exact unfinished (ok.done_of_freed placed freed running)
  cases event with
  | layer event => rfl
  | enter slot refused | subtract slot refused =>
      have := ok.done_of_freed placed freed may.1
      simp [may.2] at this
  | set slot error =>
      simp only [enabled] at may
      simpa [may] using done slot
  | destroy slot | check slot | succeed slot | close slot | free slot =>
      simp only [enabled] at may
      simpa [may] using done slot

theorem destroyed (ok : Inv call s) (destroys : s.output.destroys = 1) {event : Event}
    (may : enabled call s event) : event.usesPromise = false := by
  cases event with
  | layer | enter | subtract | check | free => rfl
  | set slot error =>
      simp only [enabled] at may
      rcases ok.won slot ((ok.entries slot).setting error may).1 with ⟨_, value, _, _, output⟩
      simp [output, may, Frame.failure, Output.create] at destroys
  | destroy slot =>
      simp only [enabled] at may
      rcases ok.won slot ((ok.entries slot).destroying may) with ⟨_, value, _, _, output⟩
      simp [output, may, Frame.failure, Output.given] at destroys
  | succeed slot =>
      simp only [enabled] at may
      have output := ok.unfailed ((ok.entries slot).succeeding (.inl may))
      simp only [(ok.entries slot).late (by rw [may]; rfl), may, Frame.success] at output
      simp [output, Output.create] at destroys
  | close slot =>
      simp only [enabled] at may
      have output := ok.unfailed ((ok.entries slot).succeeding (.inr may))
      simp only [(ok.entries slot).late (by rw [may]; rfl), may, Frame.success] at output
      simp [output, Output.given] at destroys

theorem first (ok : Inv call s) {w : Slot} (winner : s.winner = some w) (event : Event) :
    (next call s event).winner = some w := by
  cases event with
  | enter slot refused =>
      have failed : s.failed = true := by rw [ok.failed, winner, Option.isSome_some]
      simp only [next, failed, or_true, if_true, State.setFrame, winner]
  | _ => exact winner

/-- A success was reported by everybody. -/
theorem succeeded (ok : Inv call s) (placed : Placed call s.layer) {result : Result}
    (mem : result ∈ s.output.completions) (zero : result.error = 0) :
    result = .zero ∧ forall i, i < call.count -> Succeeded call s i := by
  cases winner : s.winner with
  | some w =>
      rcases ok.holds_won winner with ⟨error, _, nonzero, holds⟩
      rw [holds.mem mem] at zero
      exact absurd zero nonzero
  | none =>
      refine ⟨(ok.holds_unfailed winner).mem mem, ?_⟩
      intro i inside
      have output := ok.unfailed winner
      cases last : s.last with
      | none =>
          rw [last] at output
          simp [output, Output.create] at mem
      | some l =>
          have counts := ok.counts
          rw [(ok.last l last).1] at counts
          have reported := counts.reported inside
          have begun : s.frames i ≠ .entered := by
            intro entered
            simp [entered, Frame.waiting] at reported
          refine (entryError_eq_zero placed).mp ?_
          by_contra error
          exact (ok.entries i).lost begun error winner

end Inv

/-- In every state that the call and its inputs can reach. -/
theorem allContract (call : Call) {s : State} (reached : (machine call).Reachable s) :
    Contract call s := by
  have ok := reachable_inv reached
  have placed := reachable_placed (reachable_layer reached)
  constructor
  · exact ok.once
  · intro settled
    rcases ok.spent_of_settled placed settled with ⟨result, output⟩
    rcases ok.last_of_settled placed settled with ⟨l, last, done⟩
    have freed := (ok.last l last).2.2
    simp only [done, if_true] at freed
    simp [output, Output.spent, freed]
  · intro result mem zero
    exact ok.succeeded placed mem zero
  · intro settled all
    rcases ok.last_of_settled placed settled with ⟨l, last, done⟩
    cases winner : s.winner with
    | none =>
        have output := ok.unfailed winner
        simp only [last, done, Frame.success] at output
        rw [output, Output.spent]
    | some w =>
        rcases ok.won w winner with ⟨begun, error, here, nonzero, _⟩
        rw [(entryError_eq_zero placed).mpr (all w (ok.lt_count placed begun))] at here
        cases here
        exact absurd rfl nonzero
  · intro i refused here fails
    refine (ok.entries i).lost ?_ ?_
    · rw [(ok.works i).finished refused here]
      simp
    · intro zero
      exact fails ((entryError_eq_zero placed).mp zero)
  · intro w winner
    rcases ok.won w winner with ⟨_, error, here, nonzero, output⟩
    rcases ok.holds_won winner with ⟨other, same, _, holds⟩
    rw [here] at same
    cases same
    refine ⟨error, here, nonzero, fun result => holds.mem, ?_⟩
    intro refused done
    rw [(ok.works w).finished refused done] at output
    rw [output, Frame.failure, Output.spent]
  · intro w event winner _
    exact ok.first winner event
  · intro freed event may
    exact ok.unused placed freed may
  · intro destroys event may
    exact ok.destroyed destroys may

/-- A pending input and a NULL entry. -/
def pendingAndNull : Call where
  count := 2
  inputs := fun slot => if slot = 0 then some 0 else none
  positive := Nat.two_pos

/-- The loop reports the NULL entry, then the input succeeds. -/
def nullFirst : List Event :=
  [.layer (.check 0 0), .layer (.push 0 0), .layer (.refuse 1), .enter 1 true, .set 1 einval,
    .destroy 1, .subtract 1 true, .layer (.loopDone 1), .layer .loopReturn,
    .layer (.complete 0 ⟨0, some 7, true⟩), .layer (.close 0), .layer (.drainNext 0 0 []),
    .enter 0 false, .subtract 0 false, .check 0, .free 0, .layer (.drainDone 0 0 []),
    .layer (.drainReturn 0)]

theorem allContract_nullFirst :
    Contract pendingAndNull ((machine pendingAndNull).after (start pendingAndNull) nullFirst) ∧
      ((machine pendingAndNull).after (start pendingAndNull) nullFirst).output =
        .spent (.ofError einval) ∧
      ((machine pendingAndNull).after (start pendingAndNull) nullFirst).frees = 1 := by
  have may : (machine pendingAndNull).AllEnabled (start pendingAndNull) nullFirst := by
    refine ⟨⟨⟨by decide, rfl, rfl⟩, trivial⟩, ⟨⟨rfl, rfl⟩, trivial⟩,
      ⟨⟨by decide, .inl rfl⟩, fun _ => rfl⟩, ⟨rfl, rfl⟩, rfl, rfl, ⟨rfl, rfl⟩, ⟨rfl, rfl⟩,
      ⟨rfl, trivial⟩, ⟨rfl, trivial⟩, ⟨rfl, trivial⟩, ⟨rfl, trivial⟩, ⟨rfl, rfl⟩, ⟨rfl, rfl⟩, rfl,
      rfl, ⟨rfl, rfl⟩, ⟨rfl, trivial⟩, trivial⟩
  exact ⟨allContract pendingAndNull (.run (.start rfl) may.run), rfl, rfl⟩

end All
end Combinator
end UfsrvRx
