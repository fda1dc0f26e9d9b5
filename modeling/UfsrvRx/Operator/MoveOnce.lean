import UfsrvRx.Combinator.Output

namespace UfsrvRx
namespace Operator
namespace MoveOnce

open Transition
open Combinator (Slot Call Output Placed Works)
open Future (Result ValueId einval)

/-!
# Several move operators on one future

Any number of calls of `UfsrvFutureFlatMap`, `UfsrvFutureOnError`, `UfsrvFutureDoOnSuccess`
and `UfsrvFutureAny` on one future, one after another, while the future completes in another
thread.  Each call makes one registration with the future, as an entry of the combinators
does, and its continuation runs in the call or in the drain.  The other inputs of an Any may
win before.  Nobody else takes the value, and the outputs are not cancelled.
-/

inductive Kind
  | flatMap
  | onError
  | doOnSuccess
  | any
deriving DecidableEq, Repr

/-- The future with the value that it completes with, and the operators in the order of their
calls. -/
structure Arguments where
  future : Combinator.FutureId
  value : ValueId
  freeValue : Bool
  count : Nat
  kind : Slot -> Kind
  positive : 0 < count

/-- The result of the future. -/
def Arguments.result (arguments : Arguments) : Result :=
  ⟨0, some arguments.value, arguments.freeValue⟩

/-- The registrations. -/
def Arguments.call (arguments : Arguments) : Call where
  count := arguments.count
  inputs := fun _ => some arguments.future
  positive := arguments.positive

/-- Program points of the four continuations. -/
inductive Frame
  | entered
  | calling
  | claiming
  | moving
  | setting (result : Result)
  | destroying (isWinner : Bool)
  | zeroing
  | done
deriving DecidableEq, Repr

/-- The future, the outputs, the claimed flags of the contexts of the Any operators, and what
the continuations are at.  The callbacks that were called and the entry that has claimed the
value are history. -/
structure State where
  layer : Combinator.State
  frames : Slot -> Frame
  outputs : Slot -> Output
  flags : Slot -> Bool
  called : List (Slot × Option ValueId)
  winner : Option Slot

inductive Event
  | layer (event : Combinator.Event)
  | enter (slot : Slot)
  | answer (slot : Slot) (isFuture : Bool)
  | claim (slot : Slot)
  | move (slot : Slot)
  | set (slot : Slot) (result : Result)
  | destroy (slot : Slot)
  | zero (slot : Slot)
  | otherWins (slot : Slot)
deriving DecidableEq, Repr

namespace State

variable (s : State)

def setFrame (slot : Slot) (frame : Frame) : State :=
  { s with frames := Function.update s.frames slot frame }

def setOutput (slot : Slot) (output : Output) : State :=
  { s with outputs := Function.update s.outputs slot output }

/-- A callback of the client is called. -/
def log (slot : Slot) (value : Option ValueId) : State :=
  { s with called := (slot, value) :: s.called }

end State

section arguments

variable (arguments : Arguments)

/-- The future completes with its value.  The value is claimed and moved by the operators, and
a continuation returns when it has done its work. -/
def admits (s : State) : Combinator.Event -> Prop
  | .complete future result => future = arguments.future -> result = arguments.result
  | .drainDone _ slot _ | .loopDone slot => s.frames slot = .done
  | .refuse _ | .consume _ | .move _ => False
  | _ => True

def enabled (s : State) : Event -> Prop
  | .layer event => Combinator.enabled arguments.call s.layer event ∧ admits arguments s event
  | .enter slot => s.layer.slots slot = .running false ∧ s.frames slot = .entered
  | .answer slot _ => s.frames slot = .calling
  | .claim slot => s.frames slot = .claiming
  | .move slot => s.frames slot = .moving
  | .set slot result => s.frames slot = .setting result
  | .destroy slot => Exists fun isWinner => s.frames slot = .destroying isWinner
  | .zero slot => s.frames slot = .zeroing
  | .otherWins slot => arguments.kind slot = .any ∧ s.flags slot = false

/-- A continuation up to its first call of a callback or of `sConsumeOnce`. -/
def enter (s : State) (slot : Slot) : State :=
  let result := (s.layer.cells arguments.future).result
  match arguments.kind slot with
  | .flatMap =>
      if result.error ≠ 0 then s.setFrame slot (.setting (.ofError result.error))
      else (s.setFrame slot .calling).log slot result.value
  | .onError =>
      if result.error ≠ 0 then (s.setFrame slot .calling).log slot none
      else s.setFrame slot .claiming
  | .doOnSuccess =>
      if result.error = 0 then (s.setFrame slot .calling).log slot result.value
      else s.setFrame slot .claiming
  | .any =>
      if s.flags slot then s.setFrame slot .done
      else
        { s.setFrame slot .claiming with flags := Function.update s.flags slot true }

/-- The callback has returned, with a future or NULL.  A future that is not NULL gets the out
promise. -/
def answer (s : State) (slot : Slot) (isFuture : Bool) : State :=
  match arguments.kind slot with
  | .flatMap => s.setFrame slot (if isFuture then .done else .setting (.ofError (-1)))
  | .onError =>
      s.setFrame slot
        (if isFuture then .done
        else .setting (.ofError (s.layer.cells arguments.future).result.error))
  | .doOnSuccess => s.setFrame slot .claiming
  | .any => s

def next (s : State) : Event -> State
  | .layer event => { s with layer := Combinator.next s.layer event }
  | .enter slot => enter arguments s slot
  | .answer slot isFuture => answer arguments s slot isFuture
  | .claim slot =>
      if (s.layer.cells arguments.future).isConsumed then
        s.setFrame slot (.setting (.ofError einval))
      else
        { s.setFrame slot .moving with
          layer := Combinator.next s.layer (.consume arguments.future)
          winner := some slot }
  | .move slot =>
      (s.setFrame slot (.destroying true)).setOutput slot
        ((s.outputs slot).setResult (s.layer.cells arguments.future).result)
  | .set slot result =>
      (s.setFrame slot (.destroying false)).setOutput slot ((s.outputs slot).setResult result)
  | .destroy slot =>
      (s.setFrame slot (if s.frames slot = .destroying true then .zeroing else .done)).setOutput slot
        (s.outputs slot).destroy
  | .zero slot =>
      { s.setFrame slot .done with
        layer := Combinator.next s.layer (.move arguments.future) }
  | .otherWins slot => { s with flags := Function.update s.flags slot true }

/-- The first of the calls is about to be made. -/
def start : State where
  layer := Combinator.start
  frames := fun _ => .entered
  outputs := fun _ => .create
  flags := fun _ => false
  called := []
  winner := none

def machine : Machine State Event where
  initial := fun s => s = start
  enabled := enabled arguments
  next := next arguments

/-- No flat map calls its mapper, a DoOnSuccess finds the value unclaimed, and no other input of
an Any has won. -/
def Proper (s : State) : Event -> Prop
  | .enter slot => (arguments.kind slot = .flatMap ->
      (s.layer.cells arguments.future).result.error ≠ 0) ∧
      (arguments.kind slot = .any -> s.flags slot = false)
  | .claim slot => arguments.kind slot = .doOnSuccess ->
      (s.layer.cells arguments.future).isConsumed = false
  | _ => True

/-- The operator got the value: the mapper of a flat map was called with it, and the output of
any other operator was completed with it. -/
def State.Received (s : State) (slot : Slot) : Prop :=
  if arguments.kind slot = .flatMap then (slot, some arguments.value) ∈ s.called
  else s.outputs slot = .spent arguments.result

/-- One operator got the value.  The others did not call back, and their outputs were completed
with EINVAL. -/
def State.MovedOnce (s : State) : Prop :=
  Exists fun winner => winner < arguments.count ∧ s.Received arguments winner ∧
    forall slot, slot < arguments.count -> slot ≠ winner ->
      ¬s.Received arguments slot ∧ s.outputs slot = .spent (.ofError einval) ∧
      forall value, (slot, value) ∉ s.called

end arguments

/-! ## The entries -/

namespace Frame

/-- The output of the entry that has claimed the value. -/
@[grind =] def gained (result : Result) : Frame -> Output
  | entered | calling | claiming | setting _ | moving => .create
  | destroying _ => .given result
  | zeroing | done => .spent result

/-- The output of any other entry. -/
@[grind =] def lost : Frame -> Output
  | entered | calling | claiming | setting _ | moving => .create
  | destroying _ => .given (.ofError einval)
  | zeroing | done => .spent (.ofError einval)

/-- After a claim that succeeded. -/
@[grind =] def won : Frame -> Bool
  | moving | zeroing | done => true
  | destroying isWinner => isWinner
  | entered | calling | claiming | setting _ => false

/-- After a claim that failed. -/
@[grind =] def failed : Frame -> Bool
  | setting _ | done => true
  | destroying isWinner => !isWinner
  | entered | calling | claiming | moving | zeroing => false

/-- Before the claim. -/
@[grind =] def early : Frame -> Bool
  | entered | calling | claiming => true
  | moving | setting _ | destroying _ | zeroing | done => false

end Frame

/-- What is known of an entry. -/
structure SlotOk (kind : Kind) (result : Result) (frame : Frame) (output : Output)
    (called : Prop) (winner : Option Slot) (slot : Slot) : Prop where
  gained : winner = some slot -> frame.won = true ∧ output = frame.gained result
  lost : winner ≠ some slot -> output = frame.lost ∧
    (frame.early = true ∨ frame.failed = true ∧ winner ≠ none)
  setting : forall value, frame = .setting value -> value = .ofError einval
  called : called -> winner = some slot ∨
    kind = .doOnSuccess ∧ (frame = .calling ∨ frame = .claiming)
  calling : frame = .calling -> kind = .doOnSuccess
  kind : frame ≠ .entered -> kind ≠ .flatMap

namespace SlotOk

variable {kind : Kind} {result : Result} {frame : Frame} {output : Output} {called : Prop}
  {winner : Option Slot} {slot : Slot}

/-- The entry that has claimed the value goes on. -/
theorem of_won (mine : winner = some slot) (won : frame.won = true)
    (written : output = frame.gained result) (claims : kind ≠ .flatMap) :
    SlotOk kind result frame output called winner slot where
  gained := fun _ => ⟨won, written⟩
  lost := fun other => absurd mine other
  setting := by
    rintro value rfl
    cases won
  called := fun _ => .inl mine
  calling := by
    rintro rfl
    cases won
  kind := fun _ => claims

/-- An entry whose claim failed goes on. -/
theorem of_failed (other : winner ≠ some slot) (decided : winner ≠ none)
    (failed : frame.failed = true) (written : output = frame.lost)
    (setting : forall value, frame = .setting value -> value = .ofError einval)
    (uncalled : ¬called) (claims : kind ≠ .flatMap) :
    SlotOk kind result frame output called winner slot where
  gained := fun won => absurd won other
  lost := fun _ => ⟨written, .inr ⟨failed, decided⟩⟩
  setting := setting
  called := fun called => absurd called uncalled
  calling := by
    rintro rfl
    cases failed
  kind := fun _ => claims

/-- Nobody was called back for an entry that is past its claim without the value. -/
theorem uncalled (ok : SlotOk kind result frame output called winner slot)
    (other : winner ≠ some slot) (late : frame.early = false) : ¬called := by
  intro called
  rcases ok.called called with won | ⟨_, rfl | rfl⟩
  · exact other won
  · cases late
  · cases late

end SlotOk

/-- Everything that is known of a run in which each step is proper. -/
structure Inv (arguments : Arguments) (s : State) : Prop where
  placed : Placed arguments.call s.layer
  works : forall i, Works (s.frames i = .entered) (s.frames i = .done) (s.layer.slots i)
  accepted : forall i, (s.layer.slots i).refused ≠ some true
  slots : forall i, SlotOk (arguments.kind i) arguments.result (s.frames i) (s.outputs i)
    (Exists fun value => (i, value) ∈ s.called) s.winner i
  consumed : (s.layer.cells arguments.future).isConsumed = true ↔ s.winner ≠ none
  result : (s.layer.cells arguments.future).isReady = true ->
    (s.layer.cells arguments.future).result = arguments.result ∨
      (s.layer.cells arguments.future).result = .zero ∧
        Exists fun winner => s.winner = some winner ∧ s.frames winner = .done

namespace Inv

variable {arguments : Arguments} {s : State}

theorem start (arguments : Arguments) : Inv arguments start where
  placed := .start arguments.call
  works := fun _ => ⟨fun _ => rfl, by simp [MoveOnce.start, Combinator.start]⟩
  accepted := by simp [MoveOnce.start, Combinator.start, Combinator.SlotFrame.refused]
  slots := by
    intro i
    constructor <;> simp [MoveOnce.start, Frame.lost, Frame.early]
  consumed := by simp [MoveOnce.start, Combinator.start]
  result := by simp [MoveOnce.start, Combinator.start]

theorem layer (ok : Inv arguments s) {event : Combinator.Event}
    (may : enabled arguments s (.layer event)) :
    Inv arguments (next arguments s (.layer event)) where
  placed := Combinator.placed_next ok.placed event may.1
  works := by
    intro i
    refine (ok.works i).next (Combinator.advances_next ok.placed event may.1 i) ?_
    intro ends
    have admitted := may.2
    cases event <;> simp only [Combinator.Event.ends] at ends
    · subst ends
      exact admitted
    · subst ends
      exact admitted
  accepted := by
    intro i
    refine Combinator.accepted_next ?_ (ok.accepted i)
    intro same
    rw [same] at may
    exact may.2
  slots := ok.slots
  consumed := by
    refine Iff.trans ?_ ok.consumed
    have other : event ≠ .consume arguments.future := by
      intro same
      rw [same] at may
      exact may.2
    change ((Combinator.next s.layer event).cells arguments.future).isConsumed = true ↔ _
    rw [Combinator.isConsumed_next other]
  result := by
    intro ready
    change ((Combinator.next s.layer event).cells arguments.future).isReady = true at ready
    change ((Combinator.next s.layer event).cells arguments.future).result = _ ∨
      ((Combinator.next s.layer event).cells arguments.future).result = _ ∧ _
    by_cases completes : Exists fun result => event = .complete arguments.future result
    · rcases completes with ⟨result, rfl⟩
      refine .inl ?_
      simpa [Combinator.next, Combinator.State.setCell] using may.2 rfl
    · have others : forall result, event ≠ .complete arguments.future result := by
        intro result same
        exact completes ⟨result, same⟩
      have moves : event ≠ .move arguments.future := by
        intro same
        rw [same] at may
        exact may.2
      rw [Combinator.result_next_of_ne others moves]
      rw [(Combinator.completed_next_of_ne others).1] at ready
      exact ok.result ready

/-- A continuation is at work in its entry. -/
theorem running (ok : Inv arguments s) {slot : Slot} {frame : Frame} (here : s.frames slot = frame)
    (begun : frame ≠ .entered) (unfinished : frame ≠ .done) :
    s.layer.slots slot = .running false := by
  subst frame
  rcases (ok.works slot).running begun unfinished with ⟨refused, here⟩
  cases refused with
  | false => exact here
  | true => exact absurd (by rw [here]; rfl) (ok.accepted slot)

/-- The value is in the future until the winner has zeroed it. -/
theorem value (ok : Inv arguments s) {slot : Slot} (running : s.layer.slots slot = .running false) :
    (s.layer.cells arguments.future).result = arguments.result ∨
      (s.layer.cells arguments.future).result = .zero ∧
        Exists fun winner => s.winner = some winner ∧ s.frames winner = .done := by
  exact ok.result (ok.placed.ready (by rw [running]; rfl) rfl)

/-- A continuation goes on in an entry that does not zero the future. -/
theorem work (ok : Inv arguments s) {slot : Slot} {frame : Frame} {after : State}
    (running : s.layer.slots slot = .running false) (unfinished : s.frames slot ≠ .done)
    (layer : after.layer = s.layer) (frames : after.frames = Function.update s.frames slot frame)
    (outputs : forall i, i ≠ slot -> after.outputs i = s.outputs i)
    (called : forall i value, i ≠ slot -> ((i, value) ∈ after.called ↔ (i, value) ∈ s.called))
    (winner : after.winner = s.winner)
    (mine : SlotOk (arguments.kind slot) arguments.result frame (after.outputs slot)
      (Exists fun value => (slot, value) ∈ after.called) s.winner slot) : Inv arguments after where
  placed := by simpa only [layer] using ok.placed
  works := by
    intro i
    rw [layer, frames]
    by_cases same : i = slot
    · subst i
      exact .of_running running
    · simpa only [Function.update_of_ne same] using ok.works i
  accepted := by simpa only [layer] using ok.accepted
  slots := by
    intro i
    rw [frames, winner]
    by_cases same : i = slot
    · subst i
      simpa only [Function.update_self] using mine
    · simpa only [Function.update_of_ne same, outputs i same, called i _ same] using ok.slots i
  consumed := by simpa only [layer, winner] using ok.consumed
  result := by
    rw [layer, winner, frames]
    intro ready
    refine (ok.result ready).imp_right ?_
    rintro ⟨zero, other, won, done⟩
    refine ⟨zero, other, won, ?_⟩
    have apart : other ≠ slot := by
      rintro rfl
      exact unfinished done
    rw [Function.update_of_ne apart, done]

/-- A continuation writes to its output. -/
theorem write (ok : Inv arguments s) {slot : Slot} {frame : Frame} {output : Output}
    (running : s.layer.slots slot = .running false) (unfinished : s.frames slot ≠ .done)
    (mine : SlotOk (arguments.kind slot) arguments.result frame output
      (Exists fun value => (slot, value) ∈ s.called) s.winner slot) :
    Inv arguments ((s.setFrame slot frame).setOutput slot output) := by
  refine ok.work running unfinished rfl rfl ?_ (fun _ _ _ => Iff.rfl) rfl ?_
  · intro i other
    simp [State.setOutput, State.setFrame, other]
  · simp only [State.setOutput, State.setFrame, Function.update_self]
    exact mine

theorem enter (ok : Inv arguments s) {slot : Slot} (may : enabled arguments s (.enter slot))
    (proper : Proper arguments s (.enter slot)) :
    Inv arguments (next arguments s (.enter slot)) := by
  rcases may with ⟨running, entered⟩
  have before := ok.slots slot
  have unfinished : s.frames slot ≠ .done := by simp [entered]
  have noError : (s.layer.cells arguments.future).result.error = 0 := by
    rcases ok.value running with value | ⟨zero, _⟩
    · rw [value]
      rfl
    · rw [zero]
      rfl
  have none : s.winner ≠ some slot := by
    intro won
    have gained := (before.gained won).1
    rw [entered] at gained
    cases gained
  rw [entered] at before
  have lost := before.lost none
  have uncalled : ¬Exists fun value => (slot, value) ∈ s.called := by
    intro called
    rcases before.called called with won | ⟨_, here | here⟩
    · exact none won
    · cases here
    · cases here
  simp only [next, MoveOnce.enter, noError, ne_eq, not_true_eq_false, if_false, if_true]
  cases kind : arguments.kind slot with
  | flatMap => exact absurd noError (proper.1 kind)
  | onError =>
      refine ok.work running unfinished rfl rfl (fun _ _ => rfl) (fun _ _ _ => Iff.rfl) rfl ?_
      constructor
      · exact fun won => absurd won none
      · exact fun _ => ⟨lost.1, .inl rfl⟩
      · nofun
      · exact fun called => absurd called uncalled
      · nofun
      · intro _
        rw [kind]
        nofun
  | doOnSuccess =>
      refine ok.work running unfinished rfl rfl (fun _ _ => rfl) ?_ rfl ?_
      · intro i value other
        simp [State.log, State.setFrame, other]
      · constructor
        · exact fun won => absurd won none
        · exact fun _ => ⟨lost.1, .inl rfl⟩
        · nofun
        · exact fun _ => .inr ⟨kind, .inl rfl⟩
        · exact fun _ => kind
        · intro _
          rw [kind]
          nofun
  | any =>
      simp only [proper.2 kind, Bool.false_eq_true, if_false]
      refine ok.work running unfinished rfl rfl (fun _ _ => rfl) (fun _ _ _ => Iff.rfl) rfl ?_
      constructor
      · exact fun won => absurd won none
      · exact fun _ => ⟨lost.1, .inl rfl⟩
      · nofun
      · exact fun called => absurd called uncalled
      · nofun
      · intro _
        rw [kind]
        nofun

/-- The action has returned. -/
theorem answer (ok : Inv arguments s) {slot : Slot} {isFuture : Bool}
    (may : s.frames slot = .calling) :
    Inv arguments (next arguments s (.answer slot isFuture)) := by
  have before := ok.slots slot
  have kind := before.calling may
  have running := ok.running may nofun nofun
  rw [may] at before
  simp only [next, MoveOnce.answer, kind]
  refine ok.work running (by simp [may]) rfl rfl (fun _ _ => rfl) (fun _ _ _ => Iff.rfl) rfl ?_
  constructor
  · intro won
    cases (before.gained won).1
  · intro other
    exact ⟨(before.lost other).1, .inl rfl⟩
  · nofun
  · exact fun _ => .inr ⟨kind, .inr rfl⟩
  · nofun
  · intro _
    rw [kind]
    nofun

/-- Which entry has claimed the value can be seen from its frame. -/
theorem winner_of_won (ok : Inv arguments s) {slot : Slot} {frame : Frame}
    (here : s.frames slot = frame) (late : frame.early = false) (won : frame.failed = false) :
    s.winner = some slot := by
  by_contra other
  rcases ((ok.slots slot).lost other).2 with early | ⟨failed, _⟩
  · rw [here, late] at early
    cases early
  · rw [here, won] at failed
    cases failed

theorem lost_of_failed (ok : Inv arguments s) {slot : Slot} {frame : Frame}
    (here : s.frames slot = frame) (failed : frame.won = false) : s.winner ≠ some slot := by
  intro won
  have gained := ((ok.slots slot).gained won).1
  rw [here, failed] at gained
  cases gained

/-- The claim fails because another entry has succeeded with its own. -/
theorem claimFails (ok : Inv arguments s) {slot : Slot} (may : s.frames slot = .claiming)
    (proper : Proper arguments s (.claim slot))
    (consumed : (s.layer.cells arguments.future).isConsumed = true) :
    Inv arguments (s.setFrame slot (.setting (.ofError einval))) := by
  have before := ok.slots slot
  have running := ok.running may nofun nofun
  have other := ok.lost_of_failed may rfl
  have decided := ok.consumed.mp consumed
  rw [may] at before
  have uncalled : ¬Exists fun value => (slot, value) ∈ s.called := by
    intro called
    rcases before.called called with won | ⟨kind, _⟩
    · exact other won
    · exact absurd (consumed.symm.trans (proper kind)) nofun
  have written : s.outputs slot = Frame.lost (.setting (.ofError einval)) := (before.lost other).1
  refine ok.work running (by simp [may]) rfl rfl (fun _ _ => rfl) (fun _ _ _ => Iff.rfl) rfl ?_
  refine .of_failed other decided rfl written ?_ uncalled (before.kind nofun)
  intro value here
  cases here
  rfl

/-- The claim succeeds. -/
theorem claimWins (ok : Inv arguments s) {slot : Slot} (may : s.frames slot = .claiming)
    (unclaimed : (s.layer.cells arguments.future).isConsumed = false) :
    Inv arguments
      { s.setFrame slot .moving with
        layer := Combinator.next s.layer (.consume arguments.future)
        winner := some slot } := by
  have none : s.winner = none := by
    by_contra won
    exact absurd (unclaimed.symm.trans (ok.consumed.mpr won)) nofun
  have running := ok.running may nofun nofun
  have before := ok.slots
  refine ⟨ok.placed.consume, ?_, ok.accepted, ?_, ?_, ?_⟩
  · intro i
    simp only [State.setFrame]
    by_cases same : i = slot
    · subst i
      exact .of_running running
    · rw [Function.update_of_ne same]
      exact ok.works i
  · intro i
    have here := before i
    simp only [none] at here
    simp only [State.setFrame]
    by_cases same : i = slot
    · subst i
      rw [may] at here
      rw [Function.update_self]
      have written : s.outputs slot = Frame.moving.gained arguments.result := (here.lost nofun).1
      exact .of_won rfl rfl written (here.kind nofun)
    · rw [Function.update_of_ne same]
      refine ⟨?_, ?_, here.setting, ?_, here.calling, here.kind⟩
      · intro won
        exact absurd (Option.some.inj won).symm same
      · intro _
        refine ⟨(here.lost nofun).1, (here.lost nofun).2.imp_right ?_⟩
        exact fun failed => ⟨failed.1, nofun⟩
      · intro called
        exact .inr ((here.called called).resolve_left nofun)
  · simp [Combinator.next, Combinator.State.setCell]
  · simp only [Combinator.next, Combinator.State.setCell, Function.update_self]
    intro ready
    refine .inl ((ok.result ready).resolve_right ?_)
    rintro ⟨_, other, won, _⟩
    exact absurd (none.symm.trans won) nofun

theorem claim (ok : Inv arguments s) {slot : Slot} (may : s.frames slot = .claiming)
    (proper : Proper arguments s (.claim slot)) :
    Inv arguments (next arguments s (.claim slot)) := by
  simp only [next]
  cases consumed : (s.layer.cells arguments.future).isConsumed with
  | true => exact ok.claimFails may proper consumed
  | false => exact ok.claimWins may consumed

theorem move (ok : Inv arguments s) {slot : Slot} (may : s.frames slot = .moving) :
    Inv arguments (next arguments s (.move slot)) := by
  have before := ok.slots slot
  have running := ok.running may nofun nofun
  have won := ok.winner_of_won may rfl rfl
  have value : (s.layer.cells arguments.future).result = arguments.result := by
    refine (ok.value running).resolve_right ?_
    rintro ⟨_, other, same, done⟩
    rw [won] at same
    cases same
    rw [may] at done
    cases done
  rw [may] at before
  simp only [next]
  refine ok.write running (by simp [may]) (.of_won won ?_ ?_ (before.kind nofun))
  · rfl
  · rw [(before.gained won).2, value]
    rfl

theorem set (ok : Inv arguments s) {slot : Slot} {result : Result}
    (may : s.frames slot = .setting result) :
    Inv arguments (next arguments s (.set slot result)) := by
  have before := ok.slots slot
  have running := ok.running may nofun nofun
  have other := ok.lost_of_failed may rfl
  rw [may] at before
  have lost := before.lost other
  have decided := (lost.2.resolve_left nofun).2
  simp only [next]
  refine ok.write running (by simp [may])
    (.of_failed other decided ?_ ?_ ?_ (before.uncalled other rfl) (before.kind nofun))
  · rfl
  · rw [lost.1, before.setting result rfl]
    rfl
  · nofun

theorem destroyWinner (ok : Inv arguments s) {slot : Slot}
    (may : s.frames slot = .destroying true) :
    Inv arguments ((s.setFrame slot .zeroing).setOutput slot (s.outputs slot).destroy) := by
  have before := ok.slots slot
  have running := ok.running may nofun nofun
  have won := ok.winner_of_won may rfl rfl
  rw [may] at before
  refine ok.write running (by simp [may]) (.of_won won ?_ ?_ (before.kind nofun))
  · rfl
  · rw [(before.gained won).2]
    rfl

theorem destroyLoser (ok : Inv arguments s) {slot : Slot}
    (may : s.frames slot = .destroying false) :
    Inv arguments ((s.setFrame slot .done).setOutput slot (s.outputs slot).destroy) := by
  have before := ok.slots slot
  have running := ok.running may nofun nofun
  have other := ok.lost_of_failed may rfl
  rw [may] at before
  have lost := before.lost other
  have decided := (lost.2.resolve_left nofun).2
  refine ok.write running (by simp [may])
    (.of_failed other decided ?_ ?_ ?_ (before.uncalled other rfl) (before.kind nofun))
  · rfl
  · rw [lost.1]
    rfl
  · nofun

theorem destroy (ok : Inv arguments s) {slot : Slot}
    (may : enabled arguments s (.destroy slot)) :
    Inv arguments (next arguments s (.destroy slot)) := by
  rcases may with ⟨isWinner, may⟩
  cases isWinner with
  | true => simpa only [next, may, if_true] using ok.destroyWinner may
  | false => simpa only [next, may, Frame.destroying.injEq, Bool.false_eq_true, if_false] using
      ok.destroyLoser may

/-- The winner leaves nothing in the future. -/
theorem zero (ok : Inv arguments s) {slot : Slot} (may : s.frames slot = .zeroing) :
    Inv arguments (next arguments s (.zero slot)) := by
  have running := ok.running may nofun nofun
  have ready := ok.placed.ready (by rw [running]; rfl) rfl
  have won := ok.winner_of_won may rfl rfl
  have consumed := ok.consumed.mpr (by rw [won]; nofun)
  have before := ok.slots
  simp only [next]
  refine ⟨ok.placed.move ⟨ready, consumed⟩, ?_, ok.accepted, ?_, ?_, ?_⟩
  · intro i
    simp only [State.setFrame]
    by_cases same : i = slot
    · subst i
      exact .of_running running
    · rw [Function.update_of_ne same]
      exact ok.works i
  · intro i
    simp only [State.setFrame]
    by_cases same : i = slot
    · subst i
      have here := before slot
      rw [may] at here
      rw [Function.update_self]
      exact .of_won won rfl (here.gained won).2 (here.kind nofun)
    · simpa only [Function.update_of_ne same] using before i
  · simpa [Combinator.next, Combinator.State.setCell, State.setFrame] using ok.consumed
  · intro _
    refine .inr ⟨?_, slot, won, ?_⟩
    · simp [Combinator.next, Combinator.State.setCell]
    · exact Function.update_self ..

end Inv

theorem inv_next {arguments : Arguments} {s : State} (ok : Inv arguments s) (event : Event)
    (may : enabled arguments s event) (proper : Proper arguments s event) :
    Inv arguments (next arguments s event) := by
  cases event with
  | layer event => exact ok.layer may
  | enter slot => exact ok.enter may proper
  | answer slot isFuture => exact ok.answer may
  | claim slot => exact ok.claim may proper
  | move slot => exact ok.move may
  | set slot result => exact ok.set may
  | destroy slot => exact ok.destroy may
  | zero slot => exact ok.zero may
  | otherWins slot =>
      exact ⟨ok.placed, ok.works, ok.accepted, ok.slots, ok.consumed, ok.result⟩

theorem reachable_inv {arguments : Arguments} {s : State}
    (reached : ((machine arguments).restrict (Proper arguments)).Reachable s) :
    Inv arguments s := by
  refine reached.invariant (Inv arguments) ?_ ?_
  · rintro s rfl
    exact .start arguments
  · intro s event _ ok may
    exact inv_next ok event may.1 may.2

/-! ## One of them -/

namespace Inv

variable {arguments : Arguments} {s : State}

theorem done_of_settled (ok : Inv arguments s) (settled : s.layer.Settled arguments.call)
    {slot : Slot} (inside : slot < arguments.count) : s.frames slot = .done := by
  rcases ok.placed.settled settled inside with ⟨refused, here⟩
  exact (ok.works slot).finished refused here

/-- The first entry has won, or lost to another one. -/
theorem winner_of_settled (ok : Inv arguments s) (settled : s.layer.Settled arguments.call) :
    Exists fun winner => winner < arguments.count ∧ s.winner = some winner := by
  have first := ok.done_of_settled settled arguments.positive
  have won : s.winner ≠ none := by
    intro none
    rcases ((ok.slots 0).lost (by rw [none]; nofun)).2 with early | ⟨_, other⟩
    · rw [first] at early
      cases early
    · exact other none
  rcases Option.ne_none_iff_exists'.mp won with ⟨winner, here⟩
  refine ⟨winner, ?_, here⟩
  refine ok.placed.lt_count winner ?_
  intro idle
  have entered := (ok.works winner).fresh (.inl idle)
  have gained := ((ok.slots winner).gained here).1
  rw [entered] at gained
  cases gained

end Inv

/-- When all calls and the completing call have returned, after any interleaving of proper
steps. -/
theorem moveOnce (arguments : Arguments) {s : State}
    (reached : ((machine arguments).restrict (Proper arguments)).Reachable s)
    (settled : s.layer.Settled arguments.call) : s.MovedOnce arguments := by
  have ok := reachable_inv reached
  have kind : forall slot, slot < arguments.count -> arguments.kind slot ≠ .flatMap := by
    intro slot inside
    exact (ok.slots slot).kind (by rw [ok.done_of_settled settled inside]; nofun)
  rcases ok.winner_of_settled settled with ⟨winner, inside, won⟩
  refine ⟨winner, inside, ?_, ?_⟩
  · have gained := ((ok.slots winner).gained won).2
    rw [ok.done_of_settled settled inside] at gained
    rw [State.Received, if_neg (kind winner inside), gained]
    rfl
  · intro slot inside other
    have lost : s.winner ≠ some slot := by
      intro same
      rw [won] at same
      exact other (Option.some.inj same).symm
    have output := ((ok.slots slot).lost lost).1
    rw [ok.done_of_settled settled inside] at output
    refine ⟨?_, output, ?_⟩
    · rw [State.Received, if_neg (kind slot inside), output]
      intro same
      exact absurd (congrArg Output.completions same) nofun
    · intro value called
      rcases (ok.slots slot).called ⟨value, called⟩ with same | ⟨_, here | here⟩
      · exact lost same
      · rw [ok.done_of_settled settled inside] at here
        cases here
      · rw [ok.done_of_settled settled inside] at here
        cases here

/-- A DoOnSuccess and then an OnError. -/
def actionFirst : Arguments where
  future := 0
  value := 7
  freeValue := true
  count := 2
  kind := fun slot => if slot = 0 then .doOnSuccess else .onError
  positive := Nat.two_pos

/-- Both are applied to the future when it is ready. -/
def bothReady : List Event :=
  [.layer (.complete 0 ⟨0, some 7, true⟩), .layer (.close 0), .layer (.drainReturn 0),
    .layer (.check 0 0), .enter 0, .answer 0 false, .claim 0, .move 0, .destroy 0, .zero 0,
    .layer (.loopDone 0), .layer (.check 1 0), .enter 1, .claim 1, .set 1 ⟨22, none, false⟩,
    .destroy 1, .layer (.loopDone 1), .layer .loopReturn]

theorem moveOnce_bothReady :
    ((machine actionFirst).after start bothReady).MovedOnce actionFirst ∧
      ((machine actionFirst).after start bothReady).outputs 0 = .spent ⟨0, some 7, true⟩ ∧
      ((machine actionFirst).after start bothReady).called = [(0, some 7)] := by
  have may : ((machine actionFirst).restrict (Proper actionFirst)).AllEnabled start bothReady := by
    refine ⟨⟨⟨rfl, fun _ => rfl⟩, trivial⟩, ⟨⟨rfl, trivial⟩, trivial⟩, ⟨⟨rfl, trivial⟩, trivial⟩,
      ⟨⟨⟨by decide, rfl, rfl⟩, trivial⟩, trivial⟩, ⟨⟨rfl, rfl⟩, nofun, nofun⟩, ⟨rfl, trivial⟩,
      ⟨rfl, fun _ => rfl⟩, ⟨rfl, trivial⟩, ⟨⟨true, rfl⟩, trivial⟩, ⟨rfl, trivial⟩,
      ⟨⟨rfl, rfl⟩, trivial⟩, ⟨⟨⟨by decide, rfl, rfl⟩, trivial⟩, trivial⟩,
      ⟨⟨rfl, rfl⟩, nofun, nofun⟩, ⟨rfl, nofun⟩, ⟨rfl, trivial⟩, ⟨⟨false, rfl⟩, trivial⟩,
      ⟨⟨rfl, rfl⟩, trivial⟩, ⟨⟨rfl, trivial⟩, trivial⟩, trivial⟩
  refine ⟨moveOnce actionFirst (.run (.start rfl) may.run) ⟨rfl, ?_⟩, rfl, rfl⟩
  intro i f _ input _
  cases input
  rfl

/-- A flat map and then an OnError. -/
def flatMapFirst : Arguments where
  future := 0
  value := 7
  freeValue := true
  count := 2
  kind := fun slot => if slot = 0 then .flatMap else .onError
  positive := Nat.two_pos

/-- The mapper returns a future, and the OnError takes the value that the mapper has seen. -/
def bothReceive : List Event :=
  [.layer (.complete 0 ⟨0, some 7, true⟩), .layer (.close 0), .layer (.drainReturn 0),
    .layer (.check 0 0), .enter 0, .answer 0 true, .layer (.loopDone 0), .layer (.check 1 0),
    .enter 1, .claim 1, .move 1, .destroy 1, .zero 1, .layer (.loopDone 1), .layer .loopReturn]

theorem moveOnce_bothReceive :
    let s := (machine flatMapFirst).after start bothReceive
    (machine flatMapFirst).Reachable s ∧ s.layer.Settled flatMapFirst.call ∧
      s.Received flatMapFirst 0 ∧ s.Received flatMapFirst 1 ∧ ¬s.MovedOnce flatMapFirst := by
  have may : (machine flatMapFirst).AllEnabled start bothReceive := by
    refine ⟨⟨rfl, fun _ => rfl⟩, ⟨rfl, trivial⟩, ⟨rfl, trivial⟩,
      ⟨⟨by decide, rfl, rfl⟩, trivial⟩, ⟨rfl, rfl⟩, rfl, ⟨rfl, rfl⟩,
      ⟨⟨by decide, rfl, rfl⟩, trivial⟩, ⟨rfl, rfl⟩, rfl, rfl, ⟨true, rfl⟩, rfl, ⟨rfl, rfl⟩,
      ⟨rfl, trivial⟩, trivial⟩
  have first : ((machine flatMapFirst).after start bothReceive).Received flatMapFirst 0 := by
    exact List.mem_cons_self
  have second : ((machine flatMapFirst).after start bothReceive).Received flatMapFirst 1 := rfl
  refine ⟨.run (.start rfl) may.run, ⟨rfl, ?_⟩, first, second, ?_⟩
  · intro i f _ input _
    cases input
    rfl
  · rintro ⟨winner, _, _, others⟩
    by_cases here : winner = 0
    · exact (others 1 Nat.one_lt_two (by rw [here]; nofun)).1 second
    · exact (others 0 Nat.two_pos (Ne.symm here)).1 first

end MoveOnce
end Operator
end UfsrvRx
