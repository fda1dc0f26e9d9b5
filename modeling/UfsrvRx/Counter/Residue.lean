import Mathlib.Data.Int.CardIntervalMod

namespace UfsrvRx
namespace Counter

/-!
# The residues of a counter that wraps

A counter below a bound is advanced by one and goes back to zero at the bound.  Each value that
it leaves is taken modulo some size.  Between two wraps the residues go round; every wrap may
break the round off, so that the residues come to differ by one more.
-/

/-! ## Residues below a limit -/

/-- How many numbers below the limit have this residue. -/
def below (size index limit : Nat) : Nat :=
  Nat.count (fun value => value % size = index) limit

theorem below_zero (size index : Nat) : below size index 0 = 0 :=
  Nat.count_zero _

theorem below_succ (size index limit : Nat) :
    below size index (limit + 1) =
      below size index limit + if limit % size = index then 1 else 0 :=
  Nat.count_succ _ limit

theorem below_eq {size index : Nat} (inside : index < size) (limit : Nat) :
    below size index limit = limit / size + if index < limit % size then 1 else 0 := by
  have modEq : (fun value => value % size = index) = (· ≡ index [MOD size]) := by
    funext value
    rw [Nat.ModEq, Nat.mod_eq_of_lt inside]
  have counted := Nat.count_modEq_card limit (Nat.lt_of_le_of_lt (Nat.zero_le index) inside) index
  rw [Nat.mod_eq_of_lt inside] at counted
  unfold below
  simp only [modEq]
  exact counted

/-- A smaller residue is at most one ahead of a larger one. -/
theorem below_ahead {size left right : Nat} (le : left ≤ right) (inside : right < size)
    (limit : Nat) : below size right limit ≤ below size left limit ∧
      below size left limit ≤ below size right limit + 1 := by
  rw [below_eq inside, below_eq (Nat.lt_of_le_of_lt le inside)]
  split <;> split <;> omega

/-! ## Taking residues -/

/-- A counter, how often it was advanced and how often it wrapped, and how often each residue
was taken. -/
structure Tally where
  counter : Nat
  total : Nat
  wraps : Nat
  taken : Nat -> Nat

namespace Tally

/-- Nothing was taken yet. -/
def fresh (first : Nat) : Tally := ⟨first, 0, 0, fun _ => 0⟩

def take (bound size : Nat) (tally : Tally) : Tally where
  counter := (tally.counter + 1) % bound
  total := tally.total + 1
  wraps := if tally.counter + 1 = bound then tally.wraps + 1 else tally.wraps
  taken := Function.update tally.taken (tally.counter % size)
    (tally.taken (tally.counter % size) + 1)

theorem taken_take (bound size index : Nat) (tally : Tally) :
    (tally.take bound size).taken index =
      tally.taken index + if tally.counter % size = index then 1 else 0 := by
  simp only [take]
  by_cases same : tally.counter % size = index
  · subst same
    rw [Function.update_self, if_pos rfl]
  · rw [Function.update_of_ne (Ne.symm same), if_neg same, Nat.add_zero]

/-- What was taken since the counter stood at `first`: the rest of the round up to the bound,
the full rounds, and the round up to the counter. -/
structure Since (bound size first : Nat) (tally : Tally) : Prop where
  inside : tally.counter < bound
  total : tally.counter + tally.wraps * bound = first + tally.total
  taken : forall index, tally.taken index + below size index first =
    tally.wraps * below size index bound + below size index tally.counter

namespace Since

variable {bound size first : Nat} {tally : Tally}

theorem fresh (inside : first < bound) : Since bound size first (Tally.fresh first) where
  inside := inside
  total := by simp [Tally.fresh]
  taken := by simp [Tally.fresh]

theorem take (since : Since bound size first tally) :
    Since bound size first (tally.take bound size) := by
  have inside := since.inside
  have total := since.total
  by_cases wraps : tally.counter + 1 = bound
  · have counter : (tally.take bound size).counter = 0 := by
      simp only [Tally.take, wraps, Nat.mod_self]
    have wrapped : (tally.take bound size).wraps = tally.wraps + 1 := if_pos wraps
    constructor
    · rw [counter]
      omega
    · rw [counter, wrapped, Nat.succ_mul]
      simp only [Tally.take]
      omega
    · intro index
      have taken := since.taken index
      have next := below_succ size index tally.counter
      rw [wraps] at next
      rw [counter, wrapped, taken_take, below_zero, Nat.succ_mul]
      omega
  · have counter : (tally.take bound size).counter = tally.counter + 1 :=
      Nat.mod_eq_of_lt (by omega)
    have wrapped : (tally.take bound size).wraps = tally.wraps := if_neg wraps
    constructor
    · rw [counter]
      omega
    · rw [counter, wrapped]
      simp only [Tally.take]
      omega
    · intro index
      have taken := since.taken index
      rw [counter, wrapped, taken_take, below_succ]
      omega

/-- Two residues were taken equally often, up to one and one more for each wrap. -/
theorem balanced (since : Since bound size first tally) {left right : Nat} (leftInside : left < size)
    (rightInside : right < size) :
    tally.taken left ≤ tally.taken right + tally.wraps + 1 := by
  have takenLeft := since.taken left
  have takenRight := since.taken right
  rcases Nat.le_total left right with le | le
  · have atFirst := below_ahead le rightInside first
    have atBound := below_ahead le rightInside bound
    have atCounter := below_ahead le rightInside tally.counter
    have rounds := Nat.mul_le_mul_left tally.wraps atBound.2
    rw [Nat.mul_succ] at rounds
    omega
  · have atFirst := below_ahead le leftInside first
    have atBound := below_ahead le leftInside bound
    have atCounter := below_ahead le leftInside tally.counter
    have rounds := Nat.mul_le_mul_left tally.wraps atBound.1
    omega

end Since

end Tally

end Counter
end UfsrvRx
