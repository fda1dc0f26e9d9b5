import UfsrvRx.Transition.Countdown
import UfsrvRx.Combinator.Output

namespace UfsrvRx
namespace Combinator
namespace Zip

open Transition
open Future (Result ValueId)

/-!
# `UfsrvFutureZip` and `UfsrvFutureZipEx`

Each continuation writes its half of the context and subtracts.  The one that brings the
counter to zero decides the output from the two halves, frees the context, and gives the two
references up that the call took for it.  The halves are borrowed: their values live as long
as the inputs do, and an input is freed with its last reference.

No input is passed to a move operator, and no allocation fails.
-/

/-- The arguments of the call.  The zipper is called by an event of the machine, which
chooses its return value. -/
structure Arguments where
  first : FutureId
  second : FutureId
  freeValue : Bool
deriving DecidableEq, Repr

/-- The registrations of the call: the first input and the second one, which may be the
same future. -/
def Arguments.call (arguments : Arguments) : Call where
  count := 2
  inputs := fun slot =>
    if slot = 0 then some arguments.first else if slot = 1 then some arguments.second else none
  positive := Nat.two_pos

/-- Program points of `sZipFirstContinuation` and `sZipSecondContinuation`, with
`sZipComplete` from `deciding` on. -/
inductive Frame
  | entered
  | subtracting
  | deciding
  | zipping
  | setting (result : Result)
  | destroying
  | freeing
  | releasingFirst
  | releasingSecond
  | done
deriving DecidableEq, Repr

/-- A call of the zipper: its arguments and its return value. -/
structure ZipperCall where
  first : Option ValueId
  second : Option ValueId
  zipped : Option ValueId
deriving DecidableEq, Repr

/-- The context, the promise in it, the reference counts of the futures, and what the
threads are at.  The references of others, how often the call released each of its own, how
often a future was freed, the calls of the zipper, and who brought the counter to zero are
history. -/
structure State where
  layer : Combinator.State
  frames : Slot -> Frame
  halves : Slot -> Result
  remaining : Nat
  output : Output
  frees : Nat
  refcount : FutureId -> Nat
  others : FutureId -> Nat
  releases : Slot -> Nat
  freed : FutureId -> Nat
  calls : List ZipperCall
  last : Option Slot

inductive Event
  | layer (event : Combinator.Event)
  | retain (future : FutureId)
  | release (future : FutureId)
  | store (slot : Slot) (future : FutureId)
  | subtract (slot : Slot)
  | decide (slot : Slot)
  | zip (slot : Slot) (zipped : Option ValueId)
  | set (slot : Slot) (result : Result)
  | destroy (slot : Slot)
  | free (slot : Slot)
  | releaseFirst (slot : Slot)
  | releaseSecond (slot : Slot)
deriving DecidableEq, Repr

/-- Nothing is refused or moved, and a continuation returns when it has done its work. -/
def admits (s : State) : Combinator.Event -> Prop
  | .drainDone _ slot _ | .loopDone slot => s.frames slot = .done
  | .refuse _ | .consume _ | .move _ => False
  | _ => True

section arguments

variable (arguments : Arguments)

/-- The last reference of others is not given up before the completing call of the future
has returned, because its promise or its token holds one, and not before the call has
returned, because the client holds one. -/
def enabled (s : State) : Event -> Prop
  | .layer event => Combinator.enabled arguments.call s.layer event ∧ admits s event
  | .retain future => 0 < s.others future
  | .release future => 0 < s.others future ∧ (s.others future = 1 ->
      (s.layer.cells future).drain = .returned ∧ s.layer.loop = .returned)
  | .store slot future => s.layer.slots slot = .running false ∧ s.frames slot = .entered ∧
      arguments.call.inputs slot = some future
  | .subtract slot => s.frames slot = .subtracting
  | .decide slot => s.frames slot = .deciding
  | .zip slot _ => s.frames slot = .zipping
  | .set slot result => s.frames slot = .setting result
  | .destroy slot => s.frames slot = .destroying
  | .free slot => s.frames slot = .freeing
  | .releaseFirst slot => s.frames slot = .releasingFirst
  | .releaseSecond slot => s.frames slot = .releasingSecond

def State.setFrame (s : State) (slot : Slot) (frame : Frame) : State :=
  { s with frames := Function.update s.frames slot frame }

/-- `UfsrvFutureRelease`: the last reference frees the future and destroys its value. -/
def State.drop (s : State) (future : FutureId) : State :=
  { s with
    refcount := Function.update s.refcount future (s.refcount future - 1)
    freed :=
      if s.refcount future = 1 then Function.update s.freed future (s.freed future + 1)
      else s.freed }

/-- What `sZipComplete` passes to the promise after the zipper has returned. -/
def zippedResult (zipped : Option ValueId) : Result :=
  if zipped = none then .ofError (-1) else ⟨0, zipped, arguments.freeValue⟩

def next (s : State) : Event -> State
  | .layer event => { s with layer := Combinator.next s.layer event }
  | .retain future =>
      { s with
        refcount := Function.update s.refcount future (s.refcount future + 1)
        others := Function.update s.others future (s.others future + 1) }
  | .release future =>
      { s.drop future with others := Function.update s.others future (s.others future - 1) }
  | .store slot future =>
      { s.setFrame slot .subtracting with
        halves := Function.update s.halves slot (s.layer.cells future).result }
  | .subtract slot =>
      { s.setFrame slot (if s.remaining = 1 then .deciding else .done) with
        remaining := s.remaining - 1
        last := if s.remaining = 1 then some slot else s.last }
  | .decide slot =>
      if (s.halves 0).error ≠ 0 then s.setFrame slot (.setting (.ofError (s.halves 0).error))
      else if (s.halves 1).error ≠ 0 then s.setFrame slot (.setting (.ofError (s.halves 1).error))
      else s.setFrame slot .zipping
  | .zip slot zipped =>
      { s.setFrame slot (.setting (zippedResult arguments zipped)) with
        calls := ⟨(s.halves 0).value, (s.halves 1).value, zipped⟩ :: s.calls }
  | .set slot result => { s.setFrame slot .destroying with output := s.output.setResult result }
  | .destroy slot => { s.setFrame slot .freeing with output := s.output.destroy }
  | .free slot => { s.setFrame slot .releasingFirst with frees := s.frees + 1 }
  | .releaseFirst slot =>
      { (s.setFrame slot .releasingSecond).drop arguments.first with
        releases := Function.update s.releases 0 (s.releases 0 + 1) }
  | .releaseSecond slot =>
      { (s.setFrame slot .done).drop arguments.second with
        releases := Function.update s.releases 1 (s.releases 1 + 1) }

/-- The references that the call holds. -/
def retained (s : State) (future : FutureId) : Nat :=
  (if s.releases 0 = 0 ∧ arguments.first = future then 1 else 0) +
    if s.releases 1 = 0 ∧ arguments.second = future then 1 else 0

/-- The call has retained its inputs and stands before its registrations. -/
def start (others : FutureId -> Nat) : State where
  layer := Combinator.start
  frames := fun _ => .entered
  halves := fun _ => .zero
  remaining := 2
  output := .create
  frees := 0
  refcount := fun future => others future +
    ((if arguments.first = future then 1 else 0) + if arguments.second = future then 1 else 0)
  others := others
  releases := fun _ => 0
  freed := fun _ => 0
  calls := []
  last := none

def machine : Machine State Event where
  initial := fun s => Exists fun others => (forall future, 0 < others future) ∧
    s = start arguments others
  enabled := enabled arguments
  next := next arguments

end arguments

/-! ## The references -/

/-- The reference counts add up, and a future is freed with its last reference. -/
structure Counted (arguments : Arguments) (s : State) : Prop where
  refcount : forall f, s.refcount f = s.others f + retained arguments s f
  others : forall f, s.others f = 0 ->
    (s.layer.cells f).drain = .returned ∧ s.layer.loop = .returned
  freed : forall f, s.freed f = if s.refcount f = 0 then 1 else 0

namespace Frame

/-- The continuation has not subtracted. -/
@[grind =] def waiting : Frame -> Bool
  | entered | subtracting => true
  | deciding | zipping | setting _ | destroying | freeing | releasingFirst | releasingSecond
  | done => false

/-- The continuation has brought the counter to zero and is inside `sZipComplete`. -/
@[grind =] def late : Frame -> Bool
  | deciding | zipping | setting _ | destroying | freeing | releasingFirst | releasingSecond => true
  | entered | subtracting | done => false

/-- The context has been freed. -/
@[grind =] def isFreed : Frame -> Bool
  | releasingFirst | releasingSecond | done => true
  | entered | subtracting | deciding | zipping | setting _ | destroying | freeing => false

@[grind =] def releasedFirst : Frame -> Bool
  | releasingSecond | done => true
  | entered | subtracting | deciding | zipping | setting _ | destroying | freeing
  | releasingFirst => false

@[grind =] def output (result : Result) : Frame -> Output
  | entered | subtracting | deciding | zipping | setting _ => .create
  | destroying => .given result
  | freeing | releasingFirst | releasingSecond | done => .spent result

end Frame

/-- What the output is completed with. -/
def verdict (arguments : Arguments) (first second : Result) (calls : List ZipperCall) : Result :=
  if first.error ≠ 0 then .ofError first.error
  else if second.error ≠ 0 then .ofError second.error
  else zippedResult arguments (calls.head?.bind fun call => call.zipped)

/-- How far `sZipComplete` has come. -/
structure PhaseOk (arguments : Arguments) (frame : Frame) (first second : Result)
    (output : Output) (frees : Nat) (releases : Slot -> Nat) (calls : List ZipperCall) : Prop where
  waiting : frame.waiting = false
  promise : output = frame.output (verdict arguments first second calls)
  setting : forall result, frame = .setting result ->
    result = verdict arguments first second calls
  context : frees = if frame.isFreed then 1 else 0
  releasesFirst : releases 0 = if frame.releasedFirst then 1 else 0
  releasesSecond : releases 1 = if frame = .done then 1 else 0
  called : calls = [] ∨ first.error = 0 ∧ second.error = 0 ∧
    Exists fun zipped => calls = [⟨first.value, second.value, zipped⟩]
  uncalled : frame = .deciding ∨ frame = .zipping -> calls = []
  zipping : frame = .zipping -> first.error = 0 ∧ second.error = 0
  ran : frame ≠ .deciding -> frame ≠ .zipping -> first.error = 0 -> second.error = 0 -> calls ≠ []

attribute [grind cases] PhaseOk

/-- The counter, the halves, the promise and the context belong together. -/
structure Inv (arguments : Arguments) (s : State) : Prop where
  unconsumed : forall f, (s.layer.cells f).isConsumed = false
  works : forall i, Works (s.frames i = .entered) (s.frames i = .done) (s.layer.slots i)
  accepted : forall i, (s.layer.slots i).refused ≠ some true
  stored : forall i f, s.frames i ≠ .entered -> arguments.call.inputs i = some f ->
    (s.layer.cells f).isReady = true ∧ s.halves i = (s.layer.cells f).completed
  late : forall i, (s.frames i).late = true -> s.last = some i
  counts : Counts 2 (fun i => (s.frames i).waiting) s.remaining
  phase : forall l, s.last = some l -> s.remaining = 0 ∧
    PhaseOk arguments (s.frames l) (s.halves 0) (s.halves 1) s.output s.frees s.releases s.calls
  shared : s.last = none -> 0 < s.remaining ∧ s.output = .create ∧ s.frees = 0 ∧
    s.releases 0 = 0 ∧ s.releases 1 = 0 ∧ s.calls = []

namespace Inv

variable {arguments : Arguments} {s : State}

theorem start (arguments : Arguments) (others : FutureId -> Nat) :
    Inv arguments (start arguments others) where
  unconsumed := fun _ => rfl
  works := by
    intro i
    exact ⟨fun _ => rfl, by simp [Zip.start, Combinator.start]⟩
  accepted := by simp [Zip.start, Combinator.start, SlotFrame.refused]
  stored := by simp [Zip.start]
  late := by simp [Zip.start, Frame.late]
  counts := .all 2
  phase := by simp [Zip.start]
  shared := fun _ => ⟨Nat.two_pos, rfl, rfl, rfl, rfl, rfl⟩

theorem layer (ok : Inv arguments s) (placed : Placed arguments.call s.layer)
    {event : Combinator.Event} (may : enabled arguments s (.layer event)) :
    Inv arguments (next arguments s (.layer event)) where
  unconsumed := by
    intro f
    have other : event ≠ .consume f := by
      intro same
      rw [same] at may
      exact may.2
    exact (isConsumed_next other).trans (ok.unconsumed f)
  works := by
    intro i
    refine (ok.works i).next (advances_next placed event may.1 i) ?_
    intro ends
    have admitted := may.2
    cases event <;> simp only [Combinator.Event.ends] at ends
    · subst ends
      exact admitted
    · subst ends
      exact admitted
  accepted := by
    intro i
    have other : event ≠ .refuse i := by
      intro same
      rw [same] at may
      exact may.2
    exact accepted_next other (ok.accepted i)
  stored := by
    intro i f begun input
    rcases ok.stored i f begun input with ⟨ready, half⟩
    have kept := completed_next may.1 ready
    exact ⟨kept.1, half.trans kept.2.symm⟩
  late := ok.late
  counts := ok.counts
  phase := ok.phase
  shared := ok.shared

/-- Steps outside the continuations. -/
theorem frame (ok : Inv arguments s) {after : State} (layer : after.layer = s.layer)
    (frames : after.frames = s.frames) (halves : after.halves = s.halves)
    (remaining : after.remaining = s.remaining) (output : after.output = s.output)
    (frees : after.frees = s.frees) (releases : after.releases = s.releases)
    (calls : after.calls = s.calls) (last : after.last = s.last) : Inv arguments after := by
  constructor
  · simpa only [layer] using ok.unconsumed
  · simpa only [layer, frames] using ok.works
  · simpa only [layer] using ok.accepted
  · simpa only [layer, frames, halves] using ok.stored
  · simpa only [frames, last] using ok.late
  · simpa only [frames, remaining] using ok.counts
  · simpa only [frames, halves, remaining, output, frees, releases, calls, last] using ok.phase
  · simpa only [remaining, output, frees, releases, calls, last] using ok.shared

/-- Before it subtracts, a continuation has a share in the context. -/
theorem last_none (ok : Inv arguments s) (placed : Placed arguments.call s.layer) {slot : Slot}
    {refused : Bool} (running : s.layer.slots slot = .running refused)
    (waiting : (s.frames slot).waiting = true) : s.last = none := by
  have inside : slot < 2 := placed.lt_count slot (by rw [running]; simp)
  have positive := (ok.counts.report inside waiting).1
  cases here : s.last with
  | none => rfl
  | some l =>
      rw [(ok.phase l here).1] at positive
      exact absurd positive (Nat.lt_irrefl 0)

theorem store (ok : Inv arguments s) (placed : Placed arguments.call s.layer) {slot : Slot}
    {future : FutureId} (may : enabled arguments s (.store slot future)) :
    Inv arguments (next arguments s (.store slot future)) := by
  rcases may with ⟨running, entered, input⟩
  have none := ok.last_none placed running (by rw [entered]; rfl)
  have ready := placed.ready (by rw [running]; rfl) input
  have result := (placed.cells future).result ready (ok.unconsumed future)
  simp only [next, State.setFrame]
  constructor
  · exact ok.unconsumed
  · intro i
    by_cases mine : i = slot
    · subst i
      exact .of_running running
    · simpa only [Function.update_of_ne mine] using ok.works i
  · exact ok.accepted
  · intro i f begun other
    by_cases mine : i = slot
    · subst i
      rw [input] at other
      cases other
      exact ⟨ready, by simpa only [Function.update_self] using result⟩
    · simp only [Function.update_of_ne mine] at begun ⊢
      exact ok.stored i f begun other
  · intro i
    have := ok.late i
    grind -linarith
  · refine ok.counts.congr ?_
    intro i _
    grind -linarith
  · intro l last
    exact absurd (none.symm.trans last) (by simp)
  · exact ok.shared

theorem subtract (ok : Inv arguments s) (placed : Placed arguments.call s.layer) {slot : Slot}
    (may : enabled arguments s (.subtract slot)) :
    Inv arguments (next arguments s (.subtract slot)) := by
  simp only [enabled] at may
  rcases (ok.works slot).running (by simp [may]) (by simp [may]) with ⟨refused, running⟩
  have none := ok.last_none placed running (by rw [may]; rfl)
  have inside : slot < 2 := placed.lt_count slot (by rw [running]; simp)
  have counted := ok.counts.report inside (by rw [may]; rfl)
  have shared := ok.shared none
  simp only [next, State.setFrame]
  constructor
  · exact ok.unconsumed
  · intro i
    by_cases mine : i = slot
    · subst i
      exact .of_running running
    · simpa only [Function.update_of_ne mine] using ok.works i
  · exact ok.accepted
  · intro i f begun input
    refine ok.stored i f ?_ input
    grind -linarith
  · intro i
    have := ok.late i
    grind -linarith
  · refine counted.2.congr ?_
    intro i _
    grind -linarith
  · intro l last
    by_cases one : s.remaining = 1
    · simp only [one, if_true] at last ⊢
      cases last
      simp only [Function.update_self]
      refine ⟨trivial, ?_⟩
      constructor <;> grind -linarith
    · simp only [one, if_false, none] at last
      cases last
  · intro last
    by_cases one : s.remaining = 1
    · simp [one] at last
    · refine ⟨?_, shared.2⟩
      have positive := shared.1
      change 0 < s.remaining - 1
      omega

/-- `sZipComplete` goes on. -/
theorem finish (ok : Inv arguments s) {slot : Slot} {frame : Frame} {after : State}
    (late : (s.frames slot).late = true) (layer : after.layer = s.layer)
    (frames : after.frames = Function.update s.frames slot frame)
    (halves : after.halves = s.halves) (remaining : after.remaining = s.remaining)
    (last : after.last = s.last) (goes : frame.late = true ∨ frame = .done)
    (good : PhaseOk arguments (s.frames slot) (s.halves 0) (s.halves 1) s.output s.frees
        s.releases s.calls ->
      PhaseOk arguments frame (s.halves 0) (s.halves 1) after.output after.frees after.releases
        after.calls) : Inv arguments after := by
  have running : Exists fun refused => s.layer.slots slot = .running refused := by
    refine (ok.works slot).running ?_ ?_
    · intro here
      rw [here] at late
      cases late
    · intro here
      rw [here] at late
      cases late
  rcases running with ⟨refused, running⟩
  have mine := ok.late slot late
  have waiting : (s.frames slot).waiting = false := (ok.phase slot mine).2.waiting
  have still : frame.waiting = false := by cases frame <;> grind -linarith
  constructor
  · simpa only [layer] using ok.unconsumed
  · intro i
    rw [layer, frames]
    by_cases same : i = slot
    · subst i
      exact .of_running running
    · simpa only [Function.update_of_ne same] using ok.works i
  · simpa only [layer] using ok.accepted
  · intro i f begun input
    rw [layer, halves]
    refine ok.stored i f ?_ input
    rw [frames] at begun
    grind -linarith
  · intro i
    rw [frames, last]
    have := ok.late i
    grind -linarith
  · rw [frames, remaining]
    refine ok.counts.congr ?_
    intro i _
    grind -linarith
  · intro l here
    rw [last, mine] at here
    cases here
    rw [frames, halves, remaining, Function.update_self]
    exact ⟨(ok.phase slot mine).1, good (ok.phase slot mine).2⟩
  · intro none
    rw [last, mine] at none
    cases none

theorem decide (ok : Inv arguments s) {slot : Slot} (may : enabled arguments s (.decide slot)) :
    Inv arguments (next arguments s (.decide slot)) := by
  simp only [enabled] at may
  have late : (s.frames slot).late = true := by rw [may]; rfl
  simp only [next]
  split
  · refine ok.finish late rfl rfl rfl rfl rfl (.inl rfl) ?_
    intro before
    simp only [State.setFrame]
    constructor <;> grind -linarith [verdict]
  · split
    · refine ok.finish late rfl rfl rfl rfl rfl (.inl rfl) ?_
      intro before
      simp only [State.setFrame]
      constructor <;> grind -linarith [verdict]
    · refine ok.finish late rfl rfl rfl rfl rfl (.inl rfl) ?_
      intro before
      simp only [State.setFrame]
      constructor <;> grind -linarith

theorem zip (ok : Inv arguments s) {slot : Slot} {zipped : Option ValueId}
    (may : enabled arguments s (.zip slot zipped)) :
    Inv arguments (next arguments s (.zip slot zipped)) := by
  simp only [enabled] at may
  have late : (s.frames slot).late = true := by rw [may]; rfl
  refine ok.finish late rfl rfl rfl rfl rfl (.inl rfl) ?_
  intro before
  have errors := before.zipping may
  have uncalled := before.uncalled (.inr may)
  have decided : verdict arguments (s.halves 0) (s.halves 1)
      (⟨(s.halves 0).value, (s.halves 1).value, zipped⟩ :: s.calls) =
        zippedResult arguments zipped := by
    simp [verdict, errors]
  simp only [next, State.setFrame]
  constructor <;> grind -linarith

theorem set (ok : Inv arguments s) {slot : Slot} {result : Result}
    (may : enabled arguments s (.set slot result)) :
    Inv arguments (next arguments s (.set slot result)) := by
  simp only [enabled] at may
  have late : (s.frames slot).late = true := by rw [may]; rfl
  refine ok.finish late rfl rfl rfl rfl rfl (.inl rfl) ?_
  intro before
  simp only [next, State.setFrame]
  constructor <;> grind -linarith

theorem destroy (ok : Inv arguments s) {slot : Slot} (may : enabled arguments s (.destroy slot)) :
    Inv arguments (next arguments s (.destroy slot)) := by
  simp only [enabled] at may
  have late : (s.frames slot).late = true := by rw [may]; rfl
  refine ok.finish late rfl rfl rfl rfl rfl (.inl rfl) ?_
  intro before
  simp only [next, State.setFrame]
  constructor <;> grind -linarith

theorem free (ok : Inv arguments s) {slot : Slot} (may : enabled arguments s (.free slot)) :
    Inv arguments (next arguments s (.free slot)) := by
  simp only [enabled] at may
  have late : (s.frames slot).late = true := by rw [may]; rfl
  refine ok.finish late rfl rfl rfl rfl rfl (.inl rfl) ?_
  intro before
  simp only [next, State.setFrame]
  constructor <;> grind -linarith

theorem releaseFirst (ok : Inv arguments s) {slot : Slot}
    (may : enabled arguments s (.releaseFirst slot)) :
    Inv arguments (next arguments s (.releaseFirst slot)) := by
  simp only [enabled] at may
  have late : (s.frames slot).late = true := by rw [may]; rfl
  refine ok.finish late rfl rfl rfl rfl rfl (.inl rfl) ?_
  intro before
  simp only [next, State.setFrame, State.drop]
  constructor <;> grind -linarith

theorem releaseSecond (ok : Inv arguments s) {slot : Slot}
    (may : enabled arguments s (.releaseSecond slot)) :
    Inv arguments (next arguments s (.releaseSecond slot)) := by
  simp only [enabled] at may
  have late : (s.frames slot).late = true := by rw [may]; rfl
  refine ok.finish late rfl rfl rfl rfl rfl (.inr rfl) ?_
  intro before
  simp only [next, State.setFrame, State.drop]
  constructor <;> grind -linarith

end Inv

theorem inv_next {arguments : Arguments} {s : State} (ok : Inv arguments s)
    (placed : Placed arguments.call s.layer) (event : Event) (may : enabled arguments s event) :
    Inv arguments (next arguments s event) := by
  cases event with
  | layer event => exact ok.layer placed may
  | retain future => exact ok.frame rfl rfl rfl rfl rfl rfl rfl rfl rfl
  | release future => exact ok.frame rfl rfl rfl rfl rfl rfl rfl rfl rfl
  | store slot future => exact ok.store placed may
  | subtract slot => exact ok.subtract placed may
  | decide slot => exact ok.decide may
  | zip slot zipped => exact ok.zip may
  | set slot result => exact ok.set may
  | destroy slot => exact ok.destroy may
  | free slot => exact ok.free may
  | releaseFirst slot => exact ok.releaseFirst may
  | releaseSecond slot => exact ok.releaseSecond may

theorem reachable_layer {arguments : Arguments} {s : State}
    (reached : (machine arguments).Reachable s) :
    (Combinator.machine arguments.call).Reachable s.layer := by
  refine reached.component (Combinator.machine arguments.call) State.layer ?_ ?_
  · rintro s ⟨others, _, rfl⟩
    rfl
  · intro s event may
    cases event with
    | layer event => exact .inr ⟨event, may.1, rfl⟩
    | decide slot =>
        refine .inl ?_
        change (next arguments s (.decide slot)).layer = s.layer
        simp only [next]
        split
        · rfl
        · split <;> rfl
    | _ => exact .inl rfl

theorem reachable_inv {arguments : Arguments} {s : State}
    (reached : (machine arguments).Reachable s) : Inv arguments s := by
  refine reached.invariant (Inv arguments) ?_ ?_
  · rintro s ⟨others, _, rfl⟩
    exact .start arguments others
  · intro s event reached ok may
    exact inv_next ok (reachable_placed (reachable_layer reached)) event may

theorem counted_start (arguments : Arguments) {others : FutureId -> Nat}
    (held : forall future, 0 < others future) : Counted arguments (start arguments others) where
  refcount := by
    intro f
    simp [start, retained]
  others := by
    intro f none
    exact absurd none (Nat.ne_of_gt (held f))
  freed := by
    intro f
    have := held f
    simp only [start]
    grind -linarith

/-- A step that changes no reference count. -/
theorem counted_frame {arguments : Arguments} {s after : State} (ok : Counted arguments s)
    (refcount : after.refcount = s.refcount) (others : after.others = s.others)
    (releases : after.releases = s.releases) (freed : after.freed = s.freed)
    (layer : after.layer = s.layer) : Counted arguments after := by
  constructor
  · simpa only [refcount, others, releases, retained] using ok.refcount
  · simpa only [others, layer] using ok.others
  · simpa only [refcount, freed] using ok.freed

theorem counted_layer {arguments : Arguments} {s : State} {event : Combinator.Event}
    (ok : Counted arguments s) (placed : Placed arguments.call s.layer)
    (may : enabled arguments s (.layer event)) :
    Counted arguments (next arguments s (.layer event)) where
  refcount := ok.refcount
  others := by
    intro f none
    rcases ok.others f none with ⟨drained, returned⟩
    exact ⟨drainReturned_next placed may.1 drained, loopReturned_next may.1 returned⟩
  freed := ok.freed

theorem counted_retain {arguments : Arguments} {s : State} {future : FutureId}
    (ok : Counted arguments s) (may : enabled arguments s (.retain future)) :
    Counted arguments (next arguments s (.retain future)) := by
  simp only [enabled] at may
  constructor
  · intro f
    have := ok.refcount f
    simp only [next, retained] at this ⊢
    grind -linarith
  · intro f none
    refine ok.others f ?_
    simp only [next] at none
    grind -linarith
  · intro f
    have := ok.refcount f
    have := ok.freed f
    simp only [next]
    grind -linarith

theorem counted_release {arguments : Arguments} {s : State} {future : FutureId}
    (ok : Counted arguments s) (may : enabled arguments s (.release future)) :
    Counted arguments (next arguments s (.release future)) := by
  rcases may with ⟨held, last⟩
  constructor
  · intro f
    have := ok.refcount f
    simp only [next, State.drop, retained] at this ⊢
    grind -linarith
  · intro f none
    have := ok.others f
    simp only [next, State.drop] at none ⊢
    grind -linarith
  · intro f
    have := ok.refcount f
    have := ok.freed f
    simp only [next, State.drop]
    grind -linarith

theorem counted_releaseFirst {arguments : Arguments} {s : State} {slot : Slot}
    (ok : Counted arguments s) (held : s.releases 0 = 0) :
    Counted arguments (next arguments s (.releaseFirst slot)) := by
  constructor
  · intro f
    have := ok.refcount f
    simp only [next, State.setFrame, State.drop, retained] at this ⊢
    grind -linarith
  · exact ok.others
  · intro f
    have := ok.freed f
    simp only [next, State.setFrame, State.drop]
    grind -linarith

theorem counted_releaseSecond {arguments : Arguments} {s : State} {slot : Slot}
    (ok : Counted arguments s) (held : s.releases 1 = 0) :
    Counted arguments (next arguments s (.releaseSecond slot)) := by
  constructor
  · intro f
    have := ok.refcount f
    simp only [next, State.setFrame, State.drop, retained] at this ⊢
    grind -linarith
  · exact ok.others
  · intro f
    have := ok.freed f
    simp only [next, State.setFrame, State.drop]
    grind -linarith

theorem counted_next {arguments : Arguments} {s : State} (ok : Counted arguments s)
    (inv : Inv arguments s) (placed : Placed arguments.call s.layer) (event : Event)
    (may : enabled arguments s event) : Counted arguments (next arguments s event) := by
  cases event with
  | layer event => exact counted_layer ok placed may
  | retain future => exact counted_retain ok may
  | release future => exact counted_release ok may
  | decide slot =>
      simp only [next]
      split
      · exact counted_frame ok rfl rfl rfl rfl rfl
      · split <;> exact counted_frame ok rfl rfl rfl rfl rfl
  | releaseFirst slot =>
      simp only [enabled] at may
      have phase := (inv.phase slot (inv.late slot (by rw [may]; rfl))).2
      refine counted_releaseFirst ok ?_
      rw [phase.releasesFirst, may]
      rfl
  | releaseSecond slot =>
      simp only [enabled] at may
      have phase := (inv.phase slot (inv.late slot (by rw [may]; rfl))).2
      refine counted_releaseSecond ok ?_
      rw [phase.releasesSecond, may]
      rfl
  | _ => exact counted_frame ok rfl rfl rfl rfl rfl

theorem reachable_counted {arguments : Arguments} {s : State}
    (reached : (machine arguments).Reachable s) : Counted arguments s := by
  refine reached.invariant (Counted arguments) ?_ ?_
  · rintro s ⟨others, held, rfl⟩
    exact counted_start arguments held
  · intro s event reached ok may
    exact counted_next ok (reachable_inv reached) (reachable_placed (reachable_layer reached)) event
      may

/-! ## The contract -/

/-- The steps that read or write the context. -/
def Event.usesContext : Event -> Bool
  | store _ _ | subtract _ | decide _ | zip _ _ | set _ _ | destroy _ | free _ => true
  | layer _ | retain _ | release _ | releaseFirst _ | releaseSecond _ => false

/-- The zipper was called with the values of two inputs that succeeded. -/
def ZipperCall.Fair (arguments : Arguments) (s : State) (call : ZipperCall) : Prop :=
  let first := s.layer.cells arguments.first
  let second := s.layer.cells arguments.second
  first.isReady = true ∧ second.isReady = true ∧ first.completed.error = 0 ∧
    second.completed.error = 0 ∧ call.first = first.completed.value ∧
    call.second = second.completed.value

/-- What `UfsrvFutureZip` and `UfsrvFutureZipEx` promise. -/
structure Contract (arguments : Arguments) (s : State) : Prop where
  once : s.calls.length ≤ 1 ∧ s.output.completions.length ≤ 1 ∧ s.output.sets ≤ 1 ∧
    s.output.destroys ≤ 1 ∧ s.frees ≤ 1 ∧ s.releases 0 ≤ 1 ∧ s.releases 1 ≤ 1
  fair : forall call, call ∈ s.calls -> call.Fair arguments s
  alive : forall slot zipped, enabled arguments s (.zip slot zipped) ->
    s.freed arguments.first = 0 ∧ s.freed arguments.second = 0
  settled : s.layer.Settled arguments.call ->
    s.output.completions =
        [verdict arguments (s.layer.cells arguments.first).completed
          (s.layer.cells arguments.second).completed s.calls] ∧
      s.output.sets = 1 ∧ s.output.destroys = 1 ∧ s.frees = 1 ∧ s.releases 0 = 1 ∧
      s.releases 1 = 1
  called : s.layer.Settled arguments.call ->
    (s.layer.cells arguments.first).completed.error = 0 ->
    (s.layer.cells arguments.second).completed.error = 0 -> s.calls.length = 1
  unused : s.frees = 1 -> forall event, enabled arguments s event -> event.usesContext = false
  releasable : forall slot, (enabled arguments s (.releaseFirst slot) ->
      0 < s.refcount arguments.first) ∧
    (enabled arguments s (.releaseSecond slot) -> 0 < s.refcount arguments.second)
  freed : forall future, s.freed future = if s.refcount future = 0 then 1 else 0

namespace Inv

variable {arguments : Arguments} {s : State}

theorem phase_cases (ok : Inv arguments s) : (Exists fun l => s.last = some l ∧
      PhaseOk arguments (s.frames l) (s.halves 0) (s.halves 1) s.output s.frees s.releases
        s.calls) ∨
    s.output = .create ∧ s.frees = 0 ∧ s.releases 0 = 0 ∧ s.releases 1 = 0 ∧ s.calls = [] := by
  cases last : s.last with
  | some l => exact .inl ⟨l, rfl, (ok.phase l last).2⟩
  | none => exact .inr (ok.shared last).2

theorem halves (ok : Inv arguments s) (zero : s.remaining = 0) :
    (s.layer.cells arguments.first).isReady = true ∧
      s.halves 0 = (s.layer.cells arguments.first).completed ∧
      (s.layer.cells arguments.second).isReady = true ∧
      s.halves 1 = (s.layer.cells arguments.second).completed := by
  have counts := ok.counts
  rw [zero] at counts
  have begun : forall i, i < 2 -> s.frames i ≠ .entered := by
    intro i inside entered
    have reported := counts.reported inside
    simp [entered, Frame.waiting] at reported
  have first := ok.stored 0 arguments.first (begun 0 Nat.two_pos) rfl
  have second := ok.stored 1 arguments.second (begun 1 Nat.one_lt_two) rfl
  exact ⟨first.1, first.2, second.1, second.2⟩

theorem done_of_settled (ok : Inv arguments s) (placed : Placed arguments.call s.layer)
    (settled : s.layer.Settled arguments.call) {i : Slot} (inside : i < 2) :
    s.frames i = .done := by
  rcases placed.settled settled inside with ⟨refused, here⟩
  exact (ok.works i).finished refused here

/-- When both continuations have returned, `sZipComplete` has. -/
theorem last_of_settled (ok : Inv arguments s) (placed : Placed arguments.call s.layer)
    (settled : s.layer.Settled arguments.call) : s.remaining = 0 ∧
      PhaseOk arguments .done (s.halves 0) (s.halves 1) s.output s.frees s.releases s.calls := by
  have zero : s.remaining = 0 := by
    have none : Counts 2 (fun _ => false) s.remaining := by
      refine ok.counts.congr ?_
      intro i inside
      rw [ok.done_of_settled placed settled inside]
      rfl
    simpa [Counts] using none
  refine ⟨zero, ?_⟩
  cases last : s.last with
  | none => exact absurd (ok.shared last).1 (by simp [zero])
  | some l =>
      have phase := (ok.phase l last).2
      have inside : l < 2 := by
        refine placed.lt_count l ?_
        intro idle
        have waiting := phase.waiting
        simp [(ok.works l).fresh (.inl idle), Frame.waiting] at waiting
      rwa [ok.done_of_settled placed settled inside] at phase

theorem once (ok : Inv arguments s) : s.calls.length ≤ 1 ∧ s.output.completions.length ≤ 1 ∧
    s.output.sets ≤ 1 ∧ s.output.destroys ≤ 1 ∧ s.frees ≤ 1 ∧ s.releases 0 ≤ 1 ∧
    s.releases 1 ≤ 1 := by
  rcases ok.phase_cases with ⟨l, _, phase⟩ | ⟨output, frees, first, second, calls⟩
  · have holds : s.output.Holds (verdict arguments (s.halves 0) (s.halves 1) s.calls) := by
      rw [phase.promise]
      cases s.frames l <;> simp [Frame.output, Output.Holds]
    refine ⟨?_, holds.once.1, holds.once.2.1, holds.once.2.2, ?_, ?_, ?_⟩
    · rcases phase.called with none | ⟨_, _, zipped, calls⟩
      · simp [none]
      · simp [calls]
    · rw [phase.context]
      split <;> simp
    · rw [phase.releasesFirst]
      split <;> simp
    · rw [phase.releasesSecond]
      split <;> simp
  · simp [output, frees, first, second, calls, Output.create]

theorem fair (ok : Inv arguments s) {call : ZipperCall} (mem : call ∈ s.calls) :
    call.Fair arguments s := by
  cases last : s.last with
  | none =>
      rw [(ok.shared last).2.2.2.2.2] at mem
      cases mem
  | some l =>
      rcases ok.phase l last with ⟨zero, phase⟩
      rcases ok.halves zero with ⟨readyFirst, first, readySecond, second⟩
      rcases phase.called with none | ⟨noFirst, noSecond, zipped, calls⟩
      · rw [none] at mem
        cases mem
      · rw [calls, List.mem_singleton] at mem
        subst call
        rw [first] at noFirst
        rw [second] at noSecond
        exact ⟨readyFirst, readySecond, noFirst, noSecond, by rw [first], by rw [second]⟩

/-- The call holds a reference to both inputs until it has called the zipper and completed
the output. -/
theorem retained_pos (ok : Inv arguments s) (slot : Slot) (late : (s.frames slot).late = true) :
    ((s.frames slot).releasedFirst = false -> 0 < retained arguments s arguments.first) ∧
      0 < retained arguments s arguments.second := by
  have phase := (ok.phase slot (ok.late slot late)).2
  have first := phase.releasesFirst
  have second := phase.releasesSecond
  have unfinished : s.frames slot ≠ .done := by
    intro done
    simp [done, Frame.late] at late
  constructor
  · intro held
    have unreleased : s.releases 0 = 0 := by simp [first, held]
    rw [retained, if_pos ⟨unreleased, rfl⟩]
    omega
  · simp [retained, second, unfinished]

theorem unused (ok : Inv arguments s) (placed : Placed arguments.call s.layer)
    (freed : s.frees = 1) {event : Event} (may : enabled arguments s event) :
    event.usesContext = false := by
  have gone : forall slot, (s.frames slot).late = true -> (s.frames slot).isFreed = true := by
    intro slot late
    have phase := (ok.phase slot (ok.late slot late)).2
    have context := phase.context
    grind -linarith
  have shared : s.last ≠ none := by
    intro none
    simp [(ok.shared none).2.2.1] at freed
  cases event with
  | layer | retain | release | releaseFirst | releaseSecond => rfl
  | store slot future =>
      refine absurd (ok.last_none placed may.1 ?_) shared
      rw [may.2.1]
      rfl
  | subtract slot =>
      simp only [enabled] at may
      rcases (ok.works slot).running (by simp [may]) (by simp [may]) with ⟨refused, running⟩
      refine absurd (ok.last_none placed running ?_) shared
      rw [may]
      rfl
  | zip slot zipped =>
      simp only [enabled] at may
      simpa [may, Frame.late, Frame.isFreed] using gone slot
  | set slot result =>
      simp only [enabled] at may
      simpa [may, Frame.late, Frame.isFreed] using gone slot
  | decide slot | destroy slot | free slot =>
      simp only [enabled] at may
      simpa [may, Frame.late, Frame.isFreed] using gone slot

end Inv

/-- In every state that the call, its inputs and the holders of references can reach. -/
theorem zipContract (arguments : Arguments) {s : State}
    (reached : (machine arguments).Reachable s) : Contract arguments s := by
  have ok := reachable_inv reached
  have placed := reachable_placed (reachable_layer reached)
  have counted := reachable_counted reached
  constructor
  · exact ok.once
  · intro call mem
    exact ok.fair mem
  · intro slot zipped may
    simp only [enabled] at may
    have held := ok.retained_pos slot (by rw [may]; rfl)
    have first := held.1 (by rw [may]; rfl)
    have second := held.2
    have countedFirst := counted.refcount arguments.first
    have countedSecond := counted.refcount arguments.second
    rw [counted.freed, counted.freed]
    exact ⟨if_neg (by omega), if_neg (by omega)⟩
  · intro settled
    rcases ok.last_of_settled placed settled with ⟨zero, phase⟩
    rcases ok.halves zero with ⟨_, first, _, second⟩
    rw [first, second] at phase
    simp [phase.promise, phase.context, phase.releasesFirst, phase.releasesSecond, Frame.output,
      Frame.isFreed, Frame.releasedFirst, Output.spent]
  · intro settled noFirst noSecond
    rcases ok.last_of_settled placed settled with ⟨zero, phase⟩
    rcases ok.halves zero with ⟨_, first, _, second⟩
    rw [first, second] at phase
    have ran := phase.ran (by simp) (by simp) noFirst noSecond
    rcases phase.called with none | ⟨_, _, zipped, calls⟩
    · exact absurd none ran
    · simp [calls]
  · intro freed event may
    exact ok.unused placed freed may
  · intro slot
    have countedFirst := counted.refcount arguments.first
    have countedSecond := counted.refcount arguments.second
    constructor
    · intro may
      simp only [enabled] at may
      have held := (ok.retained_pos slot (by rw [may]; rfl)).1 (by rw [may]; rfl)
      omega
    · intro may
      simp only [enabled] at may
      have held := (ok.retained_pos slot (by rw [may]; rfl)).2
      omega
  · exact counted.freed

/-- Two inputs and a destructor. -/
def twoInputs : Arguments := ⟨0, 1, true⟩

/-- The first input completes and is released by everybody else before the second one
completes. -/
def releasedBetween : List Event :=
  [.layer (.check 0 0), .layer (.push 0 0), .layer (.check 1 1), .layer (.push 1 1),
    .layer .loopReturn, .layer (.complete 0 ⟨0, some 7, true⟩), .layer (.close 0),
    .layer (.drainNext 0 0 []), .store 0 0, .subtract 0, .layer (.drainDone 0 0 []),
    .layer (.drainReturn 0), .release 0, .layer (.complete 1 ⟨0, some 8, true⟩),
    .layer (.close 1), .layer (.drainNext 1 1 []), .store 1 1, .subtract 1, .decide 1,
    .zip 1 (some 9), .set 1 ⟨0, some 9, true⟩, .destroy 1, .free 1, .releaseFirst 1,
    .releaseSecond 1, .layer (.drainDone 1 1 []), .layer (.drainReturn 1)]

theorem zipContract_releasedBetween :
    Contract twoInputs
        ((machine twoInputs).after (start twoInputs fun _ => 1) releasedBetween) ∧
      ((machine twoInputs).after (start twoInputs fun _ => 1) releasedBetween).calls =
        [⟨some 7, some 8, some 9⟩] ∧
      ((machine twoInputs).after (start twoInputs fun _ => 1) releasedBetween).freed 0 = 1 ∧
      ((machine twoInputs).after (start twoInputs fun _ => 1) releasedBetween).freed 1 = 0 := by
  have may : (machine twoInputs).AllEnabled (start twoInputs fun _ => 1) releasedBetween := by
    refine ⟨⟨⟨by decide, rfl, rfl⟩, trivial⟩, ⟨⟨rfl, rfl⟩, trivial⟩,
      ⟨⟨by decide, rfl, rfl⟩, trivial⟩, ⟨⟨rfl, rfl⟩, trivial⟩, ⟨rfl, trivial⟩, ⟨rfl, trivial⟩,
      ⟨rfl, trivial⟩, ⟨rfl, trivial⟩, ⟨rfl, rfl, rfl⟩, rfl, ⟨rfl, rfl⟩, ⟨rfl, trivial⟩,
      ⟨Nat.one_pos, fun _ => ⟨rfl, rfl⟩⟩, ⟨rfl, trivial⟩, ⟨rfl, trivial⟩, ⟨rfl, trivial⟩,
      ⟨rfl, rfl, rfl⟩, rfl, rfl, rfl, rfl, rfl, rfl, rfl, rfl, ⟨rfl, rfl⟩, ⟨rfl, trivial⟩, trivial⟩
  have begins : (machine twoInputs).initial (start twoInputs fun _ => 1) :=
    ⟨fun _ => 1, fun _ => Nat.one_pos, rfl⟩
  exact ⟨zipContract twoInputs (.run (.start begins) may.run), rfl, rfl, rfl⟩

end Zip
end Combinator
end UfsrvRx
