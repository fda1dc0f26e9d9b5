import UfsrvRx.Combinator.Registration

namespace UfsrvRx
namespace Combinator

/-!
# The output of a combinator

The promise that a combinator keeps in its context, and the future that the call returns.
The calls on the promise and the completions of the future are counted.  Nobody else
completes the future.
-/

open Future (Result epipe einval)

/-- The out promise, with the completions of the out future and the numbers of `Set` calls
and of `UfsrvPromiseDestroy` calls. -/
structure Output where
  isFulfilled : Bool
  completions : List Result
  sets : Nat
  destroys : Nat
deriving DecidableEq, Repr

namespace Output

/-- `UfsrvPromiseCreate`. -/
def create : Output := ⟨false, [], 0, 0⟩

/-- `UfsrvPromiseSetResult`, to which the other setters reduce. -/
def setResult (output : Output) (result : Result) : Output :=
  if output.isFulfilled then { output with sets := output.sets + 1 }
  else
    { output with
      isFulfilled := true
      completions := result :: output.completions
      sets := output.sets + 1 }

/-- `UfsrvPromiseDestroy`. -/
def destroy (output : Output) : Output :=
  if output.isFulfilled then { output with destroys := output.destroys + 1 }
  else
    { output with
      isFulfilled := true
      completions := .ofError epipe :: output.completions
      destroys := output.destroys + 1 }

/-- The promise was set once and not destroyed. -/
def given (result : Result) : Output := ⟨true, [result], 1, 0⟩

/-- The promise was set once and destroyed once. -/
def spent (result : Result) : Output := ⟨true, [result], 1, 1⟩

@[simp, grind =] theorem setResult_create (result : Result) :
    create.setResult result = given result := rfl

@[simp, grind =] theorem destroy_given (result : Result) :
    (given result).destroy = spent result := rfl

/-- The promise is set with this result if at all, and destroyed afterwards. -/
def Holds (output : Output) (result : Result) : Prop :=
  output = .create ∨ output = .given result ∨ output = .spent result

theorem Holds.once {output : Output} {result : Result} (ok : output.Holds result) :
    output.completions.length ≤ 1 ∧ output.sets ≤ 1 ∧ output.destroys ≤ 1 := by
  rcases ok with rfl | rfl | rfl <;> simp [create, given, spent]

theorem Holds.mem {output : Output} {result other : Result} (ok : output.Holds result)
    (mem : other ∈ output.completions) : other = result := by
  rcases ok with rfl | rfl | rfl
  · exact absurd mem (by simp [create])
  · exact List.mem_singleton.mp mem
  · exact List.mem_singleton.mp mem

end Output

/-! ## The results of the entries -/

namespace SlotFrame

/-- Whether the entry was refused, once its work has begun. -/
@[grind =] def refused : SlotFrame -> Option Bool
  | running refused | done refused => some refused
  | idle | linked => none

theorem refused_eq_some {frame : SlotFrame} {value : Bool} :
    frame.refused = some value ↔ frame = .running value ∨ frame = .done value := by
  cases frame <;> simp [refused]

end SlotFrame

theorem refused_next {event : Event} {slot : Slot} {before after : SlotFrame}
    (advances : Advances event slot before after) {refused : Bool}
    (here : before.refused = some refused) : after.refused = some refused := by
  cases advances with
  | same => exact here
  | link | run | drain => simp [SlotFrame.refused] at here
  | finish => exact here

@[simp] theorem finish_refused (s : State) (slot other : Slot) :
    ((s.finish other).slots slot).refused = (s.slots slot).refused := by
  unfold State.finish
  split
  · simp only [State.setSlot]
    grind
  · rfl

theorem accepted_next {s : State} {event : Event} {slot : Slot} (other : event ≠ .refuse slot)
    (accepted : (s.slots slot).refused ≠ some true) :
    ((next s event).slots slot).refused ≠ some true := by
  cases event with
  | check slot future | push slot future =>
      simp only [next, State.setCell, State.setSlot]
      split <;> grind
  | drainDone | loopDone =>
      simp only [next, finish_refused]
      exact accepted
  | refuse | drainNext =>
      simp only [next, State.setDrain, State.setCell, State.setSlot]
      grind
  | _ => exact accepted

/-- `UfsrvFutureThen` has got a node for the entry, or does not need one. -/
def State.Registered (s : State) (slot : Slot) : Prop :=
  s.loop = .pushing slot ∨ s.slots slot = .linked ∨ (s.slots slot).refused = some false

theorem registered_finish {s : State} {slot other : Slot}
    (here : (s.finish other).slots slot = .linked ∨
      ((s.finish other).slots slot).refused = some false) :
    s.slots slot = .linked ∨ (s.slots slot).refused = some false := by
  unfold State.finish at here
  split at here
  · simp only [State.setSlot] at here
    grind
  · exact here

/-- An entry is registered in its turn only. -/
theorem registered_next {call : Call} {s : State} (ok : Placed call s) {event : Event}
    (may : enabled call s event) {slot : Slot} (here : (next s event).Registered slot) :
    s.Registered slot ∨ Exists fun future => event = .check slot future := by
  unfold State.Registered at here ⊢
  cases event with
  | check other future =>
      simp only [next, State.setSlot] at here
      by_cases mine : slot = other
      · subst slot
        exact .inr ⟨future, rfl⟩
      · refine .inl ?_
        split at here <;> grind
  | push other future =>
      simp only [enabled] at may
      simp only [next, State.setCell, State.setSlot] at here
      refine .inl ?_
      split at here <;> grind
  | drainNext future other rest =>
      have listed := (ok.pairs future other).listed
      simp only [enabled] at may
      simp only [next, State.setDrain, State.setCell, State.setSlot] at here
      grind
  | drainDone future other rest =>
      simp only [next, State.finish_loop] at here
      exact .inl (here.imp_right (registered_finish (s := s.setDrain future _)))
  | loopDone other =>
      simp only [next] at here
      exact .inl (.inr (registered_finish (here.resolve_left (by simp))))
  | _ =>
      simp only [next, State.setDrain, State.setCell, State.setSlot] at here
      grind

/-- The error that an entry reports: EINVAL if it was refused, else the error that its
future completed with.  An entry whose work has not begun has none. -/
def entryError (call : Call) (s : State) (slot : Slot) : Option Int :=
  match (s.slots slot).refused with
  | some true => some einval
  | some false => (call.inputs slot).map fun future => (s.cells future).completed.error
  | none => none

theorem Placed.ready {call : Call} {s : State} (ok : Placed call s) {slot : Slot}
    {future : FutureId} (accepted : (s.slots slot).refused = some false)
    (input : call.inputs slot = some future) : (s.cells future).isReady = true := by
  exact (ok.pairs future slot).ready (SlotFrame.refused_eq_some.mp accepted) input

theorem entryError_next {call : Call} {s : State} (ok : Placed call s) {event : Event}
    (may : enabled call s event) {slot : Slot} {error : Int}
    (here : entryError call s slot = some error) :
    entryError call (next s event) slot = some error := by
  have advances := advances_next ok event may slot
  cases begun : (s.slots slot).refused with
  | none => simp [entryError, begun] at here
  | some refused =>
      have stays := refused_next advances begun
      cases refused with
      | true => simpa only [entryError, begun, stays] using here
      | false =>
          simp only [entryError, begun, stays] at here ⊢
          rcases Option.map_eq_some_iff.mp here with ⟨future, input, same⟩
          have kept := completed_next may (ok.ready begun input)
          rw [input, Option.map_some, kept.2, same]

theorem entryError_exists {call : Call} {s : State} (ok : Placed call s) {slot : Slot}
    {refused : Bool} (begun : (s.slots slot).refused = some refused) :
    Exists fun error => entryError call s slot = some error := by
  cases refused with
  | true => exact ⟨einval, by simp only [entryError, begun]⟩
  | false =>
      have input : call.inputs slot ≠ none :=
        (ok.entries slot).input (.inr (SlotFrame.refused_eq_some.mp begun))
      rcases Option.ne_none_iff_exists'.mp input with ⟨future, input⟩
      refine ⟨(s.cells future).completed.error, ?_⟩
      simp only [entryError, begun, input, Option.map_some]

/-- An entry reports no error if it was registered and its input has succeeded. -/
theorem entryError_eq_zero {call : Call} {s : State} (ok : Placed call s) {slot : Slot} :
    entryError call s slot = some 0 ↔ Exists fun future => call.inputs slot = some future ∧
      (s.slots slot).refused = some false ∧ (s.cells future).isReady = true ∧
      (s.cells future).completed.error = 0 := by
  constructor
  · intro zero
    cases begun : (s.slots slot).refused with
    | none => simp [entryError, begun] at zero
    | some refused =>
        cases refused with
        | true => simp [entryError, begun, einval] at zero
        | false =>
            simp only [entryError, begun] at zero
            rcases Option.map_eq_some_iff.mp zero with ⟨future, input, none⟩
            exact ⟨future, input, rfl, ok.ready begun input, none⟩
  · rintro ⟨future, input, begun, _, none⟩
    simp only [entryError, begun, input, Option.map_some, none]

end Combinator
end UfsrvRx
