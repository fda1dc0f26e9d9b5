import Mathlib.Data.Finset.Card
import Mathlib.Data.Finset.Range

namespace UfsrvRx
namespace Transition

/-!
# Countdowns

A shared counter starts at the number of the members of a group, and each member
subtracts one when it has reported.  Whoever brings the counter to zero knows that all
others have reported before.
-/

/-- The counter is the number of the members that have not reported. -/
def Counts (count : Nat) (waiting : Nat -> Bool) (remaining : Nat) : Prop :=
  remaining = ((Finset.range count).filter fun i => waiting i = true).card

namespace Counts

variable {count remaining : Nat} {waiting : Nat -> Bool}

theorem all (count : Nat) : Counts count (fun _ => true) count := by
  simp [Counts]

theorem congr (ok : Counts count waiting remaining) {other : Nat -> Bool}
    (same : forall i, i < count -> other i = waiting i) : Counts count other remaining := by
  unfold Counts at ok ⊢
  rw [ok]
  congr 1
  refine Finset.filter_congr ?_
  intro i inside
  rw [same i (Finset.mem_range.mp inside)]

/-- One member reports. -/
theorem report (ok : Counts count waiting remaining) {i : Nat} (inside : i < count)
    (here : waiting i = true) :
    0 < remaining ∧ Counts count (Function.update waiting i false) (remaining - 1) := by
  have mem : i ∈ (Finset.range count).filter fun j => waiting j = true := by
    simp [inside, here]
  have erased : ((Finset.range count).filter fun j => Function.update waiting i false j = true) =
      ((Finset.range count).filter fun j => waiting j = true).erase i := by
    ext j
    by_cases mine : j = i
    · subst j
      simp
    · simp [mine]
  constructor
  · rw [show remaining = _ from ok]
    exact Finset.card_pos.mpr ⟨i, mem⟩
  · unfold Counts at ok ⊢
    rw [erased, Finset.card_erase_of_mem mem, <- ok]

/-- At zero everybody has reported. -/
theorem reported (ok : Counts count waiting 0) {i : Nat} (inside : i < count) :
    waiting i = false := by
  by_contra here
  have positive := (ok.report inside (by simpa using here)).1
  exact absurd positive (Nat.lt_irrefl 0)

end Counts

end Transition
end UfsrvRx
