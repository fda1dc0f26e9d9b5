import UfsrvRx.Transition.Machine

namespace UfsrvRx
namespace Handshake

open Transition

/-!
# Attaching and completing with stores in flight

The model of one `UfsrvFutureAttachCancellation` and one `sFutureComplete` on the same
future, in different threads, with no more ordering than their memory orders ask for.
A release store is in flight in its thread until it becomes visible, and the thread may
take its following loads before that.  An exchange acts on the shared cell at once and
only after the earlier stores of its thread became visible.  The token is not cancelled,
and the registration does not fail.
-/

/-- What `UfsrvCancellationTokenRegisterEx` returns. -/
abbrev HandleId := Nat

/-- Program points of `UfsrvFutureAttachCancellation`.  It has registered the handle that
it returns with. -/
inductive AttachFrame
  | entered
  | claiming
  | registering
  | storing (handle : HandleId)
  | loading (handle : HandleId)
  | exchanging (handle : HandleId)
  | unregistering (handle : HandleId) (stale : HandleId)
  | returned (registered : Option HandleId)
deriving DecidableEq, Repr

/-- Program points of `sFutureComplete` up to the drains. -/
inductive CompleteFrame
  | entered
  | storing
  | exchanging
  | unregistering (handle : HandleId)
  | returned (won : Bool)
deriving DecidableEq, Repr

/-- The cells of the future that both calls use, the stores in flight, the two calls, and
the handles that were passed to `UfsrvCancellationTokenUnregister`. -/
structure State where
  isCompleted : Bool
  isReady : Bool
  cancelToken : Bool
  cancelHandle : Option HandleId
  handleStore : Option HandleId
  readyStore : Bool
  attach : AttachFrame
  complete : CompleteFrame
  unregistered : List HandleId
deriving DecidableEq, Repr

inductive Event
  | attachCheck
  | attachClaim
  | attachRegister (handle : HandleId)
  | attachStore (handle : HandleId)
  | attachVisible (handle : HandleId)
  | attachLoad (handle : HandleId)
  | attachExchange (handle : HandleId)
  | attachUnregister (handle : HandleId) (stale : HandleId)
  | completeExchange
  | completeStore
  | completeVisible
  | completeTake
  | completeUnregister (handle : HandleId)
deriving DecidableEq, Repr

/-- Before which step each event stands. -/
def enabled (s : State) : Event -> Prop
  | .attachCheck => s.attach = .entered
  | .attachClaim => s.attach = .claiming
  | .attachRegister _ => s.attach = .registering
  | .attachStore handle => s.attach = .storing handle
  | .attachVisible handle => s.handleStore = some handle
  | .attachLoad handle => s.attach = .loading handle
  | .attachExchange handle => s.attach = .exchanging handle ∧ s.handleStore = none
  | .attachUnregister handle stale => s.attach = .unregistering handle stale
  | .completeExchange => s.complete = .entered
  | .completeStore => s.complete = .storing
  | .completeVisible => s.readyStore = true
  | .completeTake => s.complete = .exchanging ∧ s.readyStore = false
  | .completeUnregister handle => s.complete = .unregistering handle

/-- What each event does. -/
def next (s : State) : Event -> State
  | .attachCheck => { s with attach := if s.isCompleted then .returned none else .claiming }
  | .attachClaim =>
      if s.cancelToken then { s with attach := .returned none }
      else { s with cancelToken := true, attach := .registering }
  | .attachRegister handle => { s with attach := .storing handle }
  | .attachStore handle => { s with handleStore := some handle, attach := .loading handle }
  | .attachVisible handle => { s with handleStore := none, cancelHandle := some handle }
  | .attachLoad handle =>
      { s with
        attach := if s.isCompleted then .exchanging handle else .returned (some handle) }
  | .attachExchange handle =>
      { s with
        cancelHandle := none
        attach :=
          match s.cancelHandle with
          | some stale => .unregistering handle stale
          | none => .returned (some handle) }
  | .attachUnregister handle stale =>
      { s with unregistered := stale :: s.unregistered, attach := .returned (some handle) }
  | .completeExchange =>
      { s with
        isCompleted := true
        complete := if s.isCompleted then .returned false else .storing }
  | .completeStore => { s with readyStore := true, complete := .exchanging }
  | .completeVisible => { s with readyStore := false, isReady := true }
  | .completeTake =>
      { s with
        cancelHandle := none
        complete :=
          match s.cancelHandle with
          | some handle => .unregistering handle
          | none => .returned true }
  | .completeUnregister handle =>
      { s with unregistered := handle :: s.unregistered, complete := .returned true }

/-- A pending future without a token. -/
def start : State where
  isCompleted := false
  isReady := false
  cancelToken := false
  cancelHandle := none
  handleStore := none
  readyStore := false
  attach := .entered
  complete := .entered
  unregistered := []

def machine : Machine State Event where
  initial := fun s => s = start
  enabled := enabled
  next := next

/-! ## The end of an execution -/

/-- Both calls have returned, the attachment with a handle, and nothing is in flight. -/
def Final (s : State) (handle : HandleId) : Prop :=
  s.attach = .returned (some handle) ∧ (Exists fun won => s.complete = .returned won) ∧
    s.handleStore = none ∧ s.readyStore = false

/-- Somebody has taken the handle out of its cell and passed it to `Unregister`, once. -/
def Reclaimed (s : State) (handle : HandleId) : Prop :=
  s.cancelHandle = none ∧ s.unregistered.count handle = 1

/-- `sFutureComplete` has exchanged the handle. -/
@[grind =] def CompleteFrame.taken : CompleteFrame -> Bool
  | unregistering _ | returned _ => true
  | entered | storing | exchanging => false

/-- The store of the handle does not become visible as late as that: after its own thread
has read `is_completed` as false and the other one has taken the handle. -/
def Ordered (s : State) : Event -> Prop
  | .attachVisible handle =>
      ¬ (s.attach = .returned (some handle) ∧ s.complete.taken = true)
  | _ => True

/-! ## Where the handle is -/

/-- The handle that the attachment has stored. -/
@[grind =] def AttachFrame.stored : AttachFrame -> Option HandleId
  | loading handle | exchanging handle | unregistering handle _ => some handle
  | returned registered => registered
  | entered | claiming | registering | storing _ => none

/-- The attaching thread has the handle in its hands. -/
@[grind =] def AttachFrame.reclaims : AttachFrame -> Option HandleId
  | unregistering _ stale => some stale
  | entered | claiming | registering | storing _ | loading _ | exchanging _ | returned _ => none

/-- The completing thread has the handle in its hands. -/
@[grind =] def CompleteFrame.reclaims : CompleteFrame -> Option HandleId
  | unregistering handle => some handle
  | entered | storing | exchanging | returned _ => none

/-- How often the handle is in a cell, in flight, in somebody's hands or reclaimed. -/
@[grind =] def State.places (s : State) (handle : HandleId) : Nat :=
  (if s.handleStore = some handle then 1 else 0) +
    (if s.cancelHandle = some handle then 1 else 0) +
    (if s.attach.reclaims = some handle then 1 else 0) +
    (if s.complete.reclaims = some handle then 1 else 0) + s.unregistered.count handle

/-- The handle is in one place once it was stored, and nothing else is anywhere. -/
structure Conserved (s : State) : Prop where
  places : forall handle, s.places handle = if s.attach.stored = some handle then 1 else 0
  entered : s.complete = .entered ↔ s.isCompleted = false
  exchanging : s.attach.reclaims ≠ none -> s.handleStore = none

namespace Conserved

variable {s : State}

theorem places_next (ok : Conserved s) {event : Event} (may : enabled s event)
    (handle : HandleId) :
    (Handshake.next s event).places handle =
      if (Handshake.next s event).attach.stored = some handle then 1 else 0 := by
  have places := ok.places handle
  have exchanging := ok.exchanging
  cases event with
  | attachVisible other =>
      have here : s.handleStore = some other := may
      have moved := ok.places other
      simp only [Handshake.next]
      grind
  | attachExchange other =>
      simp only [enabled] at may
      cases cell : s.cancelHandle with
      | none =>
          simp only [Handshake.next, cell]
          grind
      | some stale =>
          have moved := ok.places stale
          simp only [Handshake.next, cell]
          grind
  | completeTake =>
      simp only [enabled] at may
      cases cell : s.cancelHandle with
      | none =>
          simp only [Handshake.next, cell]
          grind
      | some stale =>
          have moved := ok.places stale
          simp only [Handshake.next, cell]
          grind
  | _ =>
      simp only [enabled] at may
      simp only [Handshake.next]
      grind

theorem next (ok : Conserved s) {event : Event} (may : enabled s event) :
    Conserved (Handshake.next s event) := by
  have entered := ok.entered
  have exchanging := ok.exchanging
  refine ⟨ok.places_next may, ?_, ?_⟩
  · cases event <;> simp only [enabled] at may <;> simp only [Handshake.next] <;> grind
  · cases event <;> simp only [enabled] at may <;> simp only [Handshake.next] <;> grind

end Conserved

theorem reachable_conserved {s : State} (reached : machine.Reachable s) : Conserved s := by
  refine reached.invariant _ ?_ ?_
  · intro s initial
    rw [show s = start from initial]
    constructor <;> simp [start, State.places, AttachFrame.stored, AttachFrame.reclaims,
      CompleteFrame.reclaims]
  · exact fun s event _ ok may => ok.next may

/-! ## Ordered and disordered executions -/

/-- In an ordered execution the handle is not in its cell any more when the last of the
two calls that could take it has passed. -/
theorem ordered_empty {s : State} (reached : (machine.restrict Ordered).Reachable s)
    {handle : HandleId} (returned : s.attach = .returned (some handle))
    (taken : s.complete.taken = true) : s.cancelHandle = none := by
  refine reached.invariant (fun s => forall handle, s.attach = .returned (some handle) ->
    s.complete.taken = true -> s.cancelHandle = none) ?_ ?_ handle returned taken
  · intro s initial handle returned
    rw [show s = start from initial] at returned
    cases returned
  · intro s event reached empty may
    have conserved := reachable_conserved reached.of_restrict
    change enabled s event ∧ Ordered s event at may
    change forall handle, (next s event).attach = .returned (some handle) ->
      (next s event).complete.taken = true -> (next s event).cancelHandle = none
    intro handle returned taken
    have before := empty handle
    have places := conserved.places handle
    have entered := conserved.entered
    cases event with
    | attachVisible other =>
        have flying : s.handleStore = some other := may.1
        have moved := conserved.places other
        have same : other = handle := by
          have stored : s.attach = .returned (some handle) := returned
          grind
        subst other
        exact absurd ⟨returned, taken⟩ may.2
    | attachLoad other =>
        have here : s.attach = .loading other := may.1
        simp only [next] at returned taken ⊢
        split at returned
        · cases returned
        · grind
    | attachUnregister other stale =>
        have here : s.attach = .unregistering other stale := may.1
        have stalePlaces := conserved.places stale
        change s.cancelHandle = none
        cases cell : s.cancelHandle with
        | none => rfl
        | some held =>
            have heldPlaces := conserved.places held
            grind
    | attachExchange other => rfl
    | completeTake => rfl
    | _ =>
        simp only [enabled] at may
        simp only [next] at returned taken ⊢
        grind

/-- The handle has become visible too late. -/
def Lost (handle : HandleId) (s : State) : Prop :=
  s.attach = .returned (some handle) ∧ s.complete.taken = true ∧
    s.cancelHandle = some handle ∧ s.handleStore = none

theorem lost_next {handle : HandleId} {s : State} (lost : Lost handle s) {event : Event}
    (may : enabled s event) : Lost handle (next s event) := by
  rcases lost with ⟨attach, complete, cell, flight⟩
  cases event <;> simp only [enabled] at may <;> simp only [Lost, next] <;> grind

theorem lost_of_disordered {first last : State} {events : List Event} (run : machine.Run first events last)
    (reached : machine.Reachable first)
    (disordered : ¬ (machine.restrict Ordered).Run first events last) :
    Exists fun handle => Lost handle last := by
  induction run with
  | done s => exact absurd (.done s) disordered
  | @step s event events last may rest inductionHypothesis =>
      by_cases ordered : Ordered s event
      · refine inductionHypothesis (.step reached may) ?_
        exact fun run => disordered (.step ⟨may, ordered⟩ run)
      · cases event with
        | attachVisible handle =>
            have late : s.attach = .returned (some handle) ∧ s.complete.taken = true := by
              simpa [Ordered] using ordered
            refine ⟨handle, rest.stable (Lost handle) (fun s event _ lost may => lost_next lost may)
              (.step reached may) ?_⟩
            exact ⟨late.1, late.2, rfl, rfl⟩
        | _ => exact absurd trivial ordered

/-- At the end the handle has been reclaimed exactly when its store did not become visible
too late. -/
theorem reclaimed_iff_ordered (events : List Event) (s : State) (handle : HandleId)
    (run : machine.Run start events s) (final : Final s handle) :
    Reclaimed s handle ↔ (machine.restrict Ordered).Run start events s := by
  have reached : machine.Reachable s := .run (.start rfl) run
  rcases final with ⟨attach, ⟨won, complete⟩, flight, _⟩
  constructor
  · intro reclaimed
    by_contra disordered
    rcases lost_of_disordered run (.start rfl) disordered with ⟨other, _, _, cell, _⟩
    rw [reclaimed.1] at cell
    cases cell
  · intro ordered
    have ordinary : (machine.restrict Ordered).Reachable s := .run (.start rfl) ordered
    have empty := ordered_empty ordinary attach (by rw [complete]; rfl)
    have places := (reachable_conserved reached).places handle
    refine ⟨empty, ?_⟩
    simpa [State.places, flight, empty, attach, complete, AttachFrame.stored,
      AttachFrame.reclaims, CompleteFrame.reclaims] using places

/-- The attaching thread reads `is_completed` while its store of the handle is in flight;
the promise completes the future, and the store becomes visible. -/
def storeInFlight : List Event :=
  [.attachCheck, .attachClaim, .attachRegister 0, .attachStore 0, .attachLoad 0, .completeExchange,
    .completeStore, .completeVisible, .completeTake, .attachVisible 0]

theorem reclaimed_fails :
    ¬ forall s handle, machine.Reachable s -> Final s handle -> Reclaimed s handle := by
  intro reclaimed
  have may : machine.AllEnabled start storeInFlight := by
    repeat' first | exact trivial | exact rfl | apply And.intro
  have lost := (reclaimed _ 0 (.run (.start rfl) may.run) ⟨rfl, ⟨true, rfl⟩, rfl, rfl⟩).1
  cases lost

/-- The same calls with the store visible before the load. -/
def storeVisible : List Event :=
  [.attachCheck, .attachClaim, .attachRegister 0, .attachStore 0, .attachVisible 0, .attachLoad 0,
    .completeExchange, .completeStore, .completeVisible, .completeTake, .completeUnregister 0]

theorem reclaimed_storeVisible : Reclaimed (machine.after start storeVisible) 0 := by
  have may : (machine.restrict Ordered).AllEnabled start storeVisible := by
    repeat' first | exact trivial | exact rfl | apply And.intro
    exact fun late => nomatch (show AttachFrame.loading 0 = .returned (some 0) from late.1)
  exact (reclaimed_iff_ordered storeVisible _ 0 may.run.of_restrict
    ⟨rfl, ⟨true, rfl⟩, rfl, rfl⟩).mpr may.run

end Handshake
end UfsrvRx
