import UfsrvRx.Combinator.Output

namespace UfsrvRx
namespace Operator
namespace Handover

open Transition
open Combinator (FutureId Slot Call Output Placed Works)
open Future (Result einval)

/-!
# The out promise is handed over

The end of `sFlatMapContinuation` and of `sOnErrorContinuation`, from where the mapper or the
recovery has returned a future.  The continuation claims the result of that inner future and
registers `sMoveChainContinuation` with the out promise for its context.  The registration is
the one that the combinators use, with one entry, and there may be no memory for its node.
Meanwhile the inner future completes in another thread, or in the continuation itself when a
token that was cancelled is attached.
-/

/-- The two operators, `UfsrvFutureFlatMap` with or without a token in its context. -/
inductive Kind
  | flatMap (hasToken : Bool)
  | onError
deriving DecidableEq, Repr

structure Arguments where
  kind : Kind
  inner : FutureId
deriving DecidableEq, Repr

/-- The registration with the inner future. -/
def Arguments.call (arguments : Arguments) : Call where
  count := 1
  inputs := fun slot => if slot = 0 then some arguments.inner else none
  positive := Nat.one_pos

/-- Program points of the continuation. -/
inductive Frame
  | attaching
  | dropping
  | consuming
  | setting
  | destroying
  | registering
  | releasing
  | freeing
  | returned
deriving DecidableEq, Repr

/-- Program points of `sMoveChainContinuation`. -/
inductive MoveFrame
  | entered
  | destroying
  | clearing
  | done
deriving DecidableEq, Repr

/-- The inner future, the out promise, and what the threads are at.  Whether the continuation
has claimed the result, and what it has given up, is history. -/
structure State where
  layer : Combinator.State
  frame : Frame
  move : MoveFrame
  output : Output
  isClaimed : Bool
  tokenDrops : Nat
  releases : Nat
  frees : Nat

inductive Event
  | layer (event : Combinator.Event)
  | attach
  | dropToken
  | consume
  | set
  | destroy
  | registered
  | release
  | free
  | moveSet
  | moveDestroy
  | moveClear
deriving DecidableEq, Repr

/-- The call of `sFutureThen` is made by the continuation, and `calloc` fails after READY was
not seen.  A result is moved out by the one who has claimed it. -/
def admits (arguments : Arguments) (s : State) : Combinator.Event -> Prop
  | .check _ _ | .push _ _ | .loopReturn => s.frame = .registering
  | .refuse slot => s.frame = .registering ∧ s.layer.loop = .pushing slot
  | .loopDone slot => (s.layer.slots slot).refused = some true ∨ s.move = .done
  | .drainDone _ _ _ => s.move = .done
  | .move future => future = arguments.inner -> s.isClaimed = false
  | _ => True

section arguments

variable (arguments : Arguments)

def enabled (s : State) : Event -> Prop
  | .layer event => Combinator.enabled arguments.call s.layer event ∧ admits arguments s event
  | .attach => s.frame = .attaching
  | .dropToken => s.frame = .dropping
  | .consume => s.frame = .consuming
  | .set => s.frame = .setting
  | .destroy => s.frame = .destroying
  | .registered => s.frame = .registering ∧ s.layer.loop = .returned
  | .release => s.frame = .releasing
  | .free => s.frame = .freeing
  | .moveSet => s.layer.slots 0 = .running false ∧ s.move = .entered
  | .moveDestroy => s.move = .destroying
  | .moveClear => s.move = .clearing

/-- The return value of `sFutureThen` is not looked at. -/
def next (s : State) : Event -> State
  | .layer event => { s with layer := Combinator.next s.layer event }
  | .attach => { s with frame := .dropping }
  | .dropToken => { s with frame := .consuming, tokenDrops := s.tokenDrops + 1 }
  | .consume =>
      if (s.layer.cells arguments.inner).isConsumed then { s with frame := .setting }
      else
        { s with
          frame := .registering
          layer := Combinator.next s.layer (.consume arguments.inner)
          isClaimed := true }
  | .set => { s with frame := .destroying, output := s.output.setResult (.ofError einval) }
  | .destroy => { s with frame := .releasing, output := s.output.destroy }
  | .registered => { s with frame := .releasing }
  | .release => { s with frame := .freeing, releases := s.releases + 1 }
  | .free => { s with frame := .returned, frees := s.frees + 1 }
  | .moveSet =>
      { s with
        move := .destroying
        output := s.output.setResult (s.layer.cells arguments.inner).result }
  | .moveDestroy => { s with move := .clearing, output := s.output.destroy }
  | .moveClear =>
      { s with move := .done, layer := Combinator.next s.layer (.move arguments.inner) }

/-- The mapper or the recovery has returned. -/
def start : State where
  layer := Combinator.start
  frame := if arguments.kind = .flatMap true then .attaching else .consuming
  move := .entered
  output := .create
  isClaimed := false
  tokenDrops := 0
  releases := 0
  frees := 0

def machine : Machine State Event where
  initial := fun s => s = start arguments
  enabled := enabled arguments
  next := next arguments

end arguments

/-! ## Who has the promise -/

namespace Frame

/-- The out promise while the continuation keeps it. -/
@[grind =] def output : Frame -> Output
  | attaching | dropping | consuming | setting | registering => .create
  | destroying => .given (.ofError einval)
  | releasing | freeing | returned => .spent (.ofError einval)

/-- The continuation has claimed the result or found that it was claimed. -/
@[grind =] def asked : Frame -> Bool
  | attaching | dropping | consuming => false
  | setting | destroying | registering | releasing | freeing | returned => true

end Frame

/-- The out promise after it was handed over. -/
@[grind =] def MoveFrame.output (result : Result) : MoveFrame -> Output
  | entered => .create
  | destroying => .given result
  | clearing | done => .spent result

/-- The continuation keeps the promise. -/
structure Keeps (s : State) : Prop where
  loop : s.layer.loop = .visiting 0
  frame : s.frame ≠ .registering
  output : s.output = s.frame.output

/-- The promise belongs to `sMoveChainContinuation`. -/
structure Hands (arguments : Arguments) (s : State) : Prop where
  asked : s.frame.asked = true ∧ s.frame ≠ .setting ∧ s.frame ≠ .destroying
  loop : s.frame ≠ .registering -> s.layer.loop = .returned
  consumed : (s.layer.cells arguments.inner).isConsumed = true
  output : s.output = s.move.output (s.layer.cells arguments.inner).completed
  result : s.move ≠ .done -> (s.layer.cells arguments.inner).isReady = true ->
    (s.layer.cells arguments.inner).result = (s.layer.cells arguments.inner).completed

structure Inv (arguments : Arguments) (s : State) : Prop where
  placed : Placed arguments.call s.layer
  works : (s.layer.slots 0).refused ≠ some true ->
    Works (s.move = .entered) (s.move = .done) (s.layer.slots 0)
  refused : (s.layer.slots 0).refused = some true -> s.move = .entered
  keeps : s.isClaimed = false -> Keeps s
  hands : s.isClaimed = true -> Hands arguments s

namespace Inv

variable {arguments : Arguments} {s : State}

theorem start (arguments : Arguments) : Inv arguments (start arguments) where
  placed := .start arguments.call
  works := by
    intro _
    exact ⟨fun _ => rfl, by simp [Handover.start, Combinator.start]⟩
  refused := fun _ => rfl
  keeps := by
    intro _
    refine ⟨rfl, ?_, ?_⟩
    · simp only [Handover.start]
      split <;> simp
    · simp only [Handover.start]
      split <;> rfl
  hands := by
    intro claimed
    cases claimed

/-- While `sMoveChainContinuation` is at work, it was called and the inner future is ready. -/
theorem working (ok : Inv arguments s) (begun : s.move ≠ .entered) :
    (s.layer.slots 0).refused = some false ∧ (s.layer.cells arguments.inner).isReady = true := by
  have accepted : (s.layer.slots 0).refused = some false := by
    have works := ok.works
    have refused := ok.refused
    cases here : s.layer.slots 0 with
    | idle | linked =>
        rw [here] at works
        exact absurd ((works (by simp [Combinator.SlotFrame.refused])).fresh (by simp)) begun
    | running value | done value =>
        cases value with
        | false => rfl
        | true => exact absurd (refused (by rw [here]; rfl)) begun
  exact ⟨accepted, ok.placed.ready accepted rfl⟩

/-- A promise that is handed over was claimed. -/
theorem claimed (ok : Inv arguments s) (begun : (s.layer.slots 0) ≠ .idle) :
    s.isClaimed = true := by
  by_contra unclaimed
  have loop := (ok.keeps (by simpa using unclaimed)).loop
  refine begun ((ok.placed.entries 0).idle.mpr ?_)
  rw [loop]
  exact Nat.le_refl 0

theorem works_layer (ok : Inv arguments s) {event : Combinator.Event}
    (may : enabled arguments s (.layer event))
    (accepted : ((Combinator.next s.layer event).slots 0).refused ≠ some true) :
    Works (s.move = .entered) (s.move = .done) ((Combinator.next s.layer event).slots 0) := by
  have advances := Combinator.advances_next ok.placed event may.1 0
  have before : (s.layer.slots 0).refused ≠ some true := by
    intro refused
    exact accepted (Combinator.refused_next advances refused)
  refine (ok.works before).next advances ?_
  intro ends
  have admitted := may.2
  cases event <;> simp only [Combinator.Event.ends] at ends
  · exact admitted
  · subst ends
    exact admitted.resolve_left before

theorem refused_layer (ok : Inv arguments s) {event : Combinator.Event}
    (may : enabled arguments s (.layer event))
    (refused : ((Combinator.next s.layer event).slots 0).refused = some true) :
    s.move = .entered := by
  have advances := Combinator.advances_next ok.placed event may.1 0
  have works := ok.works
  have before := ok.refused
  generalize s.layer.slots 0 = old at advances works before
  generalize (Combinator.next s.layer event).slots 0 = new at advances refused
  cases advances with
  | same | finish => exact before refused
  | link | run => exact (works nofun).fresh (.inl rfl)
  | drain => cases refused

theorem keeps_layer (kept : Keeps s) {event : Combinator.Event}
    (may : enabled arguments s (.layer event)) :
    Keeps (next arguments s (.layer event)) := by
  refine ⟨?_, kept.frame, kept.output⟩
  rcases may with ⟨may, admitted⟩
  cases event with
  | refuse => exact absurd admitted.1 kept.frame
  | check | push | loopReturn => exact absurd admitted kept.frame
  | loopDone =>
      simp only [Combinator.enabled, kept.loop] at may
      cases may
  | drainDone =>
      simp only [next, Combinator.next, Combinator.State.finish_loop]
      exact kept.loop
  | _ => exact kept.loop

theorem hands_layer (ok : Inv arguments s) (isClaimed : s.isClaimed = true)
    {event : Combinator.Event} (may : enabled arguments s (.layer event)) :
    Hands arguments (next arguments s (.layer event)) := by
  have before := ok.hands isClaimed
  have moves : event ≠ .move arguments.inner := by
    intro same
    rw [same] at may
    exact absurd (isClaimed.symm.trans (may.2 rfl)) nofun
  refine ⟨before.asked, ?_, ?_, ?_, ?_⟩
  · intro left
    exact Combinator.loopReturned_next may.1 (before.loop left)
  · refine (Combinator.isConsumed_next ?_).trans before.consumed
    intro same
    rw [same] at may
    exact absurd (before.consumed.symm.trans may.1) nofun
  · change s.output = s.move.output _
    by_cases begun : s.move = .entered
    · rw [before.output, begun]
      rfl
    · have kept := Combinator.completed_next may.1 (ok.working begun).2
      exact before.output.trans (congrArg (fun result => s.move.output result) kept.2.symm)
  · intro unfinished ready
    change ((Combinator.next s.layer event).cells arguments.inner).result =
      ((Combinator.next s.layer event).cells arguments.inner).completed
    change ((Combinator.next s.layer event).cells arguments.inner).isReady = true at ready
    by_cases completes : Exists fun result => event = .complete arguments.inner result
    · rcases completes with ⟨result, rfl⟩
      simp [Combinator.next, Combinator.State.setCell]
    · have others : forall result, event ≠ .complete arguments.inner result := by
        intro result same
        exact completes ⟨result, same⟩
      have kept := Combinator.completed_next_of_ne (s := s.layer) others
      rw [Combinator.result_next_of_ne others moves, kept.2]
      rw [kept.1] at ready
      exact before.result unfinished ready

theorem layer (ok : Inv arguments s) {event : Combinator.Event}
    (may : enabled arguments s (.layer event)) :
    Inv arguments (next arguments s (.layer event)) where
  placed := Combinator.placed_next ok.placed event may.1
  works := ok.works_layer may
  refused := ok.refused_layer may
  keeps := fun unclaimed => keeps_layer (ok.keeps unclaimed) may
  hands := fun isClaimed => ok.hands_layer isClaimed may

/-- The continuation goes on. -/
theorem goto (ok : Inv arguments s) {after : State} (layer : after.layer = s.layer)
    (move : after.move = s.move) (isClaimed : after.isClaimed = s.isClaimed)
    (keeps : Keeps s -> Keeps after)
    (hands : Hands arguments s -> Hands arguments after) : Inv arguments after := by
  constructor
  · simpa only [layer] using ok.placed
  · simpa only [layer, move] using ok.works
  · simpa only [layer, move] using ok.refused
  · intro unclaimed
    rw [isClaimed] at unclaimed
    exact keeps (ok.keeps unclaimed)
  · intro claimed
    rw [isClaimed] at claimed
    exact hands (ok.hands claimed)

/-- The claim succeeds, and the promise is given away. -/
theorem consume (ok : Inv arguments s) (may : s.frame = .consuming) :
    Inv arguments (next arguments s .consume) := by
  have unclaimed : s.isClaimed = false := by
    by_contra claimed
    have asked := (ok.hands (by simpa using claimed)).asked.1
    rw [may] at asked
    cases asked
  have kept := ok.keeps unclaimed
  simp only [next]
  split
  · rename_i consumed
    refine ⟨ok.placed, ok.works, ok.refused, ?_, ?_⟩
    · intro _
      refine ⟨kept.loop, nofun, ?_⟩
      rw [kept.output, may]
      rfl
    · intro claimed
      exact absurd (unclaimed.symm.trans claimed) nofun
  · rename_i free
    have idle : s.layer.slots 0 = .idle := by
      by_contra begun
      exact absurd (unclaimed.symm.trans (ok.claimed begun)) nofun
    have entered : s.move = .entered := by
      have works := ok.works (by rw [idle]; nofun)
      exact works.fresh (.inl idle)
    refine ⟨ok.placed.consume, ok.works, ok.refused, nofun, ?_⟩
    intro _
    constructor
    · exact ⟨rfl, nofun, nofun⟩
    · exact fun left => absurd rfl left
    · simp [Combinator.next, Combinator.State.setCell]
    · rw [kept.output, may, entered]
      rfl
    · intro _ ready
      simp only [Combinator.next, Combinator.State.setCell, Function.update_self] at ready ⊢
      exact (ok.placed.cells arguments.inner).result ready (by simpa using free)

/-- `sMoveChainContinuation` goes on. -/
theorem advance (ok : Inv arguments s) {after : State}
    (running : s.layer.slots 0 = .running false) (placed : Placed arguments.call after.layer)
    (slots : after.layer.slots = s.layer.slots) (isClaimed : after.isClaimed = s.isClaimed)
    (hands : Hands arguments s -> Hands arguments after) : Inv arguments after := by
  have claimed := ok.claimed (by rw [running]; nofun)
  constructor
  · exact placed
  · intro _
    rw [slots]
    exact .of_running running
  · intro refused
    rw [slots, running] at refused
    cases refused
  · intro unclaimed
    exact absurd ((unclaimed.symm.trans isClaimed).trans claimed) nofun
  · intro _
    exact hands (ok.hands claimed)

/-- The entry runs while `sMoveChainContinuation` is under way. -/
theorem running (ok : Inv arguments s) (begun : s.move ≠ .entered) (unfinished : s.move ≠ .done) :
    s.layer.slots 0 = .running false := by
  have accepted := (ok.working begun).1
  have works := ok.works (by rw [accepted]; nofun)
  rcases works.running begun unfinished with ⟨refused, here⟩
  rw [here] at accepted
  cases accepted
  exact here

theorem moveSet (ok : Inv arguments s) (may : enabled arguments s .moveSet) :
    Inv arguments (next arguments s .moveSet) := by
  rcases may with ⟨running, entered⟩
  have accepted : (s.layer.slots 0).refused = some false := by
    rw [running]
    rfl
  have ready := ok.placed.ready accepted rfl
  refine ok.advance running ok.placed rfl rfl ?_
  intro before
  refine ⟨before.asked, before.loop, before.consumed, ?_, ?_⟩
  · change s.output.setResult _ = _
    rw [before.output, entered, before.result (by rw [entered]; nofun) ready]
    rfl
  · intro _ _
    exact before.result (by rw [entered]; nofun) ready

theorem moveDestroy (ok : Inv arguments s) (may : s.move = .destroying) :
    Inv arguments (next arguments s .moveDestroy) := by
  have running := ok.running (by rw [may]; nofun) (by rw [may]; nofun)
  refine ok.advance running ok.placed rfl rfl ?_
  intro before
  refine ⟨before.asked, before.loop, before.consumed, ?_, ?_⟩
  · change s.output.destroy = _
    rw [before.output, may]
    rfl
  · intro _ ready
    exact before.result (by rw [may]; nofun) ready

theorem moveClear (ok : Inv arguments s) (may : s.move = .clearing) :
    Inv arguments (next arguments s .moveClear) := by
  have begun : s.move ≠ .entered := by
    rw [may]
    nofun
  have running := ok.running begun (by rw [may]; nofun)
  have claimed := ok.claimed (by rw [running]; nofun)
  have consumed := (ok.hands claimed).consumed
  have ready := (ok.working begun).2
  refine ok.advance running (ok.placed.move ⟨ready, consumed⟩) rfl rfl ?_
  intro before
  refine ⟨before.asked, before.loop, ?_, ?_, ?_⟩
  · simpa [next, Combinator.next, Combinator.State.setCell] using consumed
  · change s.output = _
    rw [before.output, may]
    simp [next, Combinator.next, Combinator.State.setCell, MoveFrame.output]
  · intro unfinished
    exact absurd rfl unfinished

end Inv

theorem inv_next {arguments : Arguments} {s : State} (ok : Inv arguments s) (event : Event)
    (may : enabled arguments s event) : Inv arguments (next arguments s event) := by
  cases event with
  | layer event => exact ok.layer may
  | consume => exact ok.consume may
  | moveSet => exact ok.moveSet may
  | moveDestroy => exact ok.moveDestroy may
  | moveClear => exact ok.moveClear may
  | attach | dropToken =>
      simp only [enabled] at may
      refine ok.goto rfl rfl rfl ?_ ?_
      · intro before
        refine ⟨before.loop, nofun, ?_⟩
        exact before.output.trans (by rw [may]; rfl)
      · intro before
        have asked := before.asked.1
        rw [may] at asked
        cases asked
  | set =>
      simp only [enabled] at may
      refine ok.goto rfl rfl rfl ?_ ?_
      · intro before
        refine ⟨before.loop, nofun, ?_⟩
        change s.output.setResult _ = _
        rw [before.output, may]
        rfl
      · intro before
        exact absurd may before.asked.2.1
  | destroy =>
      simp only [enabled] at may
      refine ok.goto rfl rfl rfl ?_ ?_
      · intro before
        refine ⟨before.loop, nofun, ?_⟩
        change s.output.destroy = _
        rw [before.output, may]
        rfl
      · intro before
        exact absurd may before.asked.2.2
  | registered =>
      refine ok.goto rfl rfl rfl ?_ ?_
      · intro before
        exact absurd may.1 before.frame
      · intro before
        exact ⟨⟨rfl, nofun, nofun⟩, fun _ => may.2, before.consumed, before.output, before.result⟩
  | release | free =>
      simp only [enabled] at may
      refine ok.goto rfl rfl rfl ?_ ?_
      · intro before
        refine ⟨before.loop, nofun, ?_⟩
        exact before.output.trans (by rw [may]; rfl)
      · intro before
        have left := before.loop (by rw [may]; nofun)
        exact ⟨⟨rfl, nofun, nofun⟩, fun _ => left, before.consumed, before.output, before.result⟩

theorem reachable_inv {arguments : Arguments} {s : State}
    (reached : (machine arguments).Reachable s) : Inv arguments s := by
  refine reached.invariant (Inv arguments) ?_ ?_
  · rintro s rfl
    exact .start arguments
  · intro s event _ ok may
    exact inv_next ok event may

/-! ## The allocation of the node -/

/-- The entry is refused by the one step in which there is no memory for its node. -/
theorem refused_next {arguments : Arguments} {s : State} (ok : Inv arguments s) {event : Event}
    (may : enabled arguments s event) :
    ((next arguments s event).layer.slots 0).refused = some true ↔
      (s.layer.slots 0).refused = some true ∨ event = .layer (.refuse 0) := by
  cases event with
  | layer event =>
      have advances := Combinator.advances_next ok.placed event may.1 0
      constructor
      · intro refused
        by_contra none
        have before := not_or.mp none
        refine Combinator.accepted_next ?_ before.1 refused
        intro same
        exact before.2 (congrArg Event.layer same)
      · rintro (refused | same)
        · exact Combinator.refused_next advances refused
        · cases same
          simp [next, Combinator.next, Combinator.State.setSlot, Combinator.SlotFrame.refused]
  | consume =>
      simp only [next, reduceCtorEq, or_false]
      split <;> exact Iff.rfl
  | _ =>
      simp only [reduceCtorEq, or_false]
      exact Iff.rfl

theorem refused_run {arguments : Arguments} {first last : State} {events : List Event}
    (reached : (machine arguments).Reachable first)
    (run : (machine arguments).Run first events last) :
    (last.layer.slots 0).refused = some true ↔
      (first.layer.slots 0).refused = some true ∨ .layer (.refuse 0) ∈ events := by
  induction run with
  | done => simp
  | @step state event events final may _ inductionHypothesis =>
      rw [inductionHypothesis (reached.step may)]
      refine (or_congr_left (refused_next (reachable_inv reached) may)).trans ?_
      rw [or_assoc, List.mem_cons, eq_comm (a := event)]

/-! ## The delivery -/

/-- The promise was fulfilled once and destroyed once: with the result of the inner future if
the continuation could claim it. -/
def State.Delivered (arguments : Arguments) (s : State) : Prop :=
  s.output = .spent (if s.isClaimed then (s.layer.cells arguments.inner).completed
    else .ofError einval)

/-- When the continuation and the completing call of the inner future have returned, in every
interleaving of the two. -/
theorem handoverDelivers (arguments : Arguments) {s : State} {events : List Event}
    (run : (machine arguments).Run (start arguments) events s) (returned : s.frame = .returned)
    (completed : (s.layer.cells arguments.inner).drain = .returned) :
    s.Delivered arguments ↔ .layer (.refuse 0) ∉ events := by
  have begins : (machine arguments).Reachable (start arguments) := .start rfl
  have ok := reachable_inv (begins.run run)
  have refused : (s.layer.slots 0).refused = some true ↔ .layer (.refuse 0) ∈ events := by
    rw [refused_run begins run]
    simp [start, Combinator.start, Combinator.SlotFrame.refused]
  rw [<- refused]
  unfold State.Delivered
  cases isClaimed : s.isClaimed with
  | false =>
      have kept := ok.keeps isClaimed
      rw [kept.output, returned]
      refine iff_of_true rfl ?_
      intro begun
      have claimed := ok.claimed (by intro idle; rw [idle] at begun; cases begun)
      cases isClaimed.symm.trans claimed
  | true =>
      have handed := ok.hands isClaimed
      have left := handed.loop (by simp [returned])
      have settled : s.layer.Settled arguments.call := by
        refine ⟨left, ?_⟩
        intro i f inside input _
        cases Nat.lt_one_iff.mp inside
        cases input
        exact completed
      rcases ok.placed.settled settled Nat.one_pos with ⟨value, here⟩
      rw [handed.output, here]
      cases value with
      | true =>
          rw [ok.refused (by rw [here]; rfl)]
          refine iff_of_false ?_ (fun not => not rfl)
          intro delivered
          cases congrArg Output.sets delivered
      | false =>
          have works := ok.works (by rw [here]; decide)
          rw [works.finished false here]
          exact iff_of_true rfl (by decide)

/-- A flat map without a token, over the inner future 0. -/
def plain : Arguments := ⟨.flatMap false, 0⟩

/-- The node is pushed, and the inner future completes afterwards. -/
def pushed : List Event :=
  [.consume, .layer (.check 0 0), .layer (.push 0 0), .layer .loopReturn, .registered, .release,
    .free, .layer (.complete 0 ⟨0, some 7, true⟩), .layer (.close 0), .layer (.drainNext 0 0 []),
    .moveSet, .moveDestroy, .moveClear, .layer (.drainDone 0 0 []), .layer (.drainReturn 0)]

theorem handoverDelivers_pushed :
    ((machine plain).after (start plain) pushed).Delivered plain ↔
      .layer (.refuse 0) ∉ pushed := by
  have may : (machine plain).AllEnabled (start plain) pushed := by
    refine ⟨rfl, ⟨⟨by decide, rfl, rfl⟩, rfl⟩, ⟨⟨rfl, rfl⟩, rfl⟩, ⟨rfl, rfl⟩, ⟨rfl, rfl⟩, rfl, rfl,
      ⟨rfl, trivial⟩, ⟨rfl, trivial⟩, ⟨rfl, trivial⟩, ⟨rfl, rfl⟩, rfl, rfl, ⟨rfl, rfl⟩,
      ⟨rfl, trivial⟩, trivial⟩
  exact handoverDelivers plain may.run rfl rfl

/-- There is no memory for the node while the inner future is pending. -/
def unpushed : List Event :=
  [.consume, .layer (.check 0 0), .layer (.refuse 0), .layer (.loopDone 0), .layer .loopReturn,
    .registered, .release, .free, .layer (.complete 0 ⟨0, some 7, true⟩), .layer (.close 0),
    .layer (.drainReturn 0)]

theorem handoverDelivers_unpushed :
    let s := (machine plain).after (start plain) unpushed
    (machine plain).Reachable s ∧ s.frame = .returned ∧ (s.layer.cells 0).drain = .returned ∧
      s.output.sets = 0 ∧ s.output.destroys = 0 ∧ s.output.completions = [] ∧
      ¬s.Delivered plain := by
  have may : (machine plain).AllEnabled (start plain) unpushed := by
    refine ⟨rfl, ⟨⟨by decide, rfl, rfl⟩, rfl⟩, ⟨⟨by decide, .inr rfl⟩, rfl, rfl⟩, ⟨rfl, .inl rfl⟩,
      ⟨rfl, rfl⟩, ⟨rfl, rfl⟩, rfl, rfl, ⟨rfl, trivial⟩, ⟨rfl, trivial⟩, ⟨rfl, trivial⟩, trivial⟩
  refine ⟨.run (.start rfl) may.run, rfl, rfl, rfl, rfl, rfl, ?_⟩
  intro delivered
  exact absurd (congrArg Output.sets delivered) nofun

end Handover
end Operator
end UfsrvRx
