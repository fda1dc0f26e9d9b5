import UfsrvRx.Transition.Simulation

namespace UfsrvRx
namespace WriteOnce

open Transition

/-!
# A cell that is written once

The cell is empty until somebody settles it, and keeps that value for good; whoever tries it
later loses.  Readers come at any time, and each reads the value once, or leaves without it.
Every action takes effect at once.
-/

universe u v

/-- How far a reader is. -/
inductive Phase
  | absent
  | waiting
  | gone
deriving DecidableEq, Repr

structure Cell (Value : Type u) (Reader : Type v) where
  outcome : Option Value
  readers : Reader -> Phase

inductive Action (Value : Type u) (Reader : Type v)
  | settle (value : Value)
  | lose
  | join (reader : Reader)
  | read (reader : Reader) (value : Value)
  | leave (reader : Reader)
deriving DecidableEq, Repr

variable {Value : Type u} {Reader : Type v}

namespace Action

def settles : Action Value Reader -> Bool
  | settle _ => true
  | lose | join _ | read _ _ | leave _ => false

/-- The reader reads the value. -/
def reads [DecidableEq Reader] (reader : Reader) : Action Value Reader -> Bool
  | read other _ => other = reader
  | settle _ | lose | join _ | leave _ => false

end Action

namespace Cell

def empty : Cell Value Reader := ⟨none, fun _ => .absent⟩

def enabled (cell : Cell Value Reader) : Action Value Reader -> Prop
  | .settle _ => cell.outcome = none
  | .lose => cell.outcome ≠ none
  | .join reader => cell.readers reader = .absent
  | .read reader value => cell.readers reader = .waiting ∧ cell.outcome = some value
  | .leave reader => cell.readers reader = .waiting

variable [DecidableEq Reader]

def setReader (cell : Cell Value Reader) (reader : Reader) (phase : Phase) : Cell Value Reader :=
  { cell with readers := Function.update cell.readers reader phase }

/-- A reader is where it was. -/
theorem setReader_same {cell : Cell Value Reader} {reader : Reader} {phase : Phase}
    (same : cell.readers reader = phase) : cell.setReader reader phase = cell := by
  rw [setReader, <- same, Function.update_eq_self]

def next (cell : Cell Value Reader) : Action Value Reader -> Cell Value Reader
  | .settle value => { cell with outcome := some value }
  | .lose => cell
  | .join reader => cell.setReader reader .waiting
  | .read reader _ | .leave reader => cell.setReader reader .gone

def machine : Machine (Cell Value Reader) (Action Value Reader) where
  initial := fun cell => cell = empty
  enabled := enabled
  next := next

variable {cell last : Cell Value Reader} {actions : List (Action Value Reader)}

/-- A value stays. -/
theorem outcome_next {action : Action Value Reader} (may : enabled cell action) {value : Value}
    (settled : cell.outcome = some value) : (next cell action).outcome = some value := by
  cases action with
  | settle other => exact absurd (settled.symm.trans may) (by simp)
  | lose | join reader | read reader other | leave reader => exact settled

theorem outcome_run (run : machine.Run cell actions last) {value : Value}
    (settled : cell.outcome = some value) : last.outcome = some value := by
  induction run with
  | done => exact settled
  | step may _ inductionHypothesis => exact inductionHypothesis (outcome_next may settled)

/-- All that is read is the one value. -/
theorem read_agrees (run : machine.Run cell actions last) {reader : Reader} {value : Value}
    (mem : .read reader value ∈ actions) : last.outcome = some value := by
  induction run with
  | done => cases mem
  | step may rest inductionHypothesis =>
      rcases List.mem_cons.mp mem with rfl | mem
      · exact outcome_run rest may.2
      · exact inductionHypothesis mem

/-- The cell is settled once, and not without a value. -/
theorem settles_once (run : machine.Run cell actions last) :
    actions.countP Action.settles + cell.outcome.isSome.toNat = last.outcome.isSome.toNat := by
  induction run with
  | done => exact Nat.zero_add _
  | @step cell action actions last may rest inductionHypothesis =>
      rw [List.countP_cons, <- inductionHypothesis]
      cases action with
      | settle value =>
          have none : cell.outcome = none := may
          simp [machine, next, Action.settles, none]
      | lose | join reader | read reader value | leave reader =>
          simp [machine, next, setReader, Action.settles]

/-- A reader that has gone does not read again. -/
theorem reads_once (run : machine.Run cell actions last) (reader : Reader) :
    actions.countP (Action.reads reader) + (if cell.readers reader = .gone then 1 else 0) ≤ 1 := by
  induction run with
  | done => split <;> simp
  | @step cell action actions last may rest inductionHypothesis =>
      rw [List.countP_cons]
      cases action with
      | settle value | lose => exact inductionHypothesis
      | join other =>
          have absent : cell.readers other = .absent := may
          simp only [machine, next, setReader, Action.reads, Function.update_apply]
            at inductionHypothesis ⊢
          grind
      | leave other =>
          have waiting : cell.readers other = .waiting := may
          simp only [machine, next, setReader, Action.reads, Function.update_apply]
            at inductionHypothesis ⊢
          grind
      | read other value =>
          have waiting : cell.readers other = .waiting := may.1
          simp only [machine, next, setReader, Action.reads, Function.update_apply]
            at inductionHypothesis ⊢
          grind

/-- What an observer sees of the cell, from its beginning on. -/
structure Settled (actions : List (Action Value Reader)) (last : Cell Value Reader) : Prop where
  run : machine.Run empty actions last
  once : actions.countP Action.settles ≤ 1
  reads : forall reader, actions.countP (Action.reads reader) ≤ 1
  agrees : forall reader value, .read reader value ∈ actions -> last.outcome = some value

theorem Settled.of_run (run : machine.Run empty actions last) : Settled actions last where
  run := run
  once := by
    have settles := settles_once run
    have bound := Bool.toNat_le last.outcome.isSome
    omega
  reads := fun reader => Nat.le_trans (Nat.le_add_right _ _) (reads_once run reader)
  agrees := fun _ _ mem => read_agrees run mem

end Cell
end WriteOnce
end UfsrvRx
