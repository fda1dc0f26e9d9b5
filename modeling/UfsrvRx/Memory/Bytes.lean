import Mathlib.Algebra.GroupWithZero.Nat
import Mathlib.Data.List.Basic

namespace UfsrvRx
namespace Memory

/-!
# Memory of bytes

Memory has a byte at every address.  Stores of bytes and of words are read back as they were
stored, and leave alone what is apart from them.
-/

abbrev Bytes := Nat -> UInt8

namespace Bytes

variable (memory : Bytes)

/-- The bytes from an address on. -/
def load (address length : Nat) : List UInt8 :=
  (List.range length).map fun offset => memory (address + offset)

def store (address : Nat) (bytes : List UInt8) : Bytes := fun place =>
  if address ≤ place then bytes.getD (place - address) (memory place) else memory place

variable {memory}

theorem store_outside {address place : Nat} {bytes : List UInt8}
    (outside : place < address ∨ address + bytes.length ≤ place) :
    memory.store address bytes place = memory place := by
  simp only [store]
  split
  · have past : bytes.length ≤ place - address := by omega
    rw [List.getD_eq_getElem?_getD, List.getElem?_eq_none past, Option.getD_none]
  · rfl

theorem store_inside {address offset : Nat} {bytes : List UInt8} (inside : offset < bytes.length) :
    memory.store address bytes (address + offset) = bytes[offset] := by
  simp only [store, Nat.le_add_right, if_true, Nat.add_sub_cancel_left]
  rw [List.getD_eq_getElem?_getD, List.getElem?_eq_getElem inside, Option.getD_some]

theorem load_store (memory : Bytes) (address : Nat) (bytes : List UInt8) :
    (memory.store address bytes).load address bytes.length = bytes := by
  refine List.ext_getElem ?_ ?_
  · simp [load]
  · intro offset _ inside
    simp only [load, List.getElem_map, List.getElem_range]
    exact store_inside inside

/-- What is read depends on the bytes that are read only. -/
theorem load_congr {other : Bytes} {address length : Nat}
    (same : forall place, address ≤ place -> place < address + length ->
      other place = memory place) : other.load address length = memory.load address length := by
  refine List.map_congr_left ?_
  intro offset mem
  have inside := List.mem_range.mp mem
  exact same (address + offset) (Nat.le_add_right _ _) (Nat.add_lt_add_left inside _)

/-! ## Words -/

/-- A number in so many bytes, the lowest first. -/
def encode : Nat -> Nat -> List UInt8
  | 0, _ => []
  | width + 1, value => UInt8.ofNat (value % 256) :: encode width (value / 256)

def decode : List UInt8 -> Nat
  | [] => 0
  | byte :: bytes => byte.toNat + 256 * decode bytes

@[simp] theorem length_encode (width value : Nat) : (encode width value).length = width := by
  induction width generalizing value with
  | zero => rfl
  | succ width inductionHypothesis => simp [encode, inductionHypothesis]

theorem decode_encode {width value : Nat} (fits : value < 256 ^ width) :
    decode (encode width value) = value := by
  induction width generalizing value with
  | zero =>
      rw [Nat.pow_zero, Nat.lt_one_iff] at fits
      rw [fits]
      rfl
  | succ width inductionHypothesis =>
      rw [Nat.pow_succ] at fits
      have rest : value / 256 < 256 ^ width := (Nat.div_lt_iff_lt_mul (by decide)).mpr fits
      have low : (UInt8.ofNat (value % 256)).toNat = value % 256 := by
        simp
      simp only [encode, decode, inductionHypothesis rest, low]
      omega

variable (memory)

def loadWord (address width : Nat) : Nat :=
  decode (memory.load address width)

def storeWord (address width value : Nat) : Bytes :=
  memory.store address (encode width value)

variable {memory}

theorem storeWord_outside {address width value place : Nat}
    (outside : place < address ∨ address + width ≤ place) :
    memory.storeWord address width value place = memory place :=
  store_outside (by rw [length_encode]; exact outside)

theorem loadWord_storeWord {address width value : Nat} (fits : value < 256 ^ width) :
    (memory.storeWord address width value).loadWord address width = value := by
  have whole := load_store memory address (encode width value)
  rw [length_encode] at whole
  rw [loadWord, storeWord, whole, decode_encode fits]

theorem loadWord_congr {other : Bytes} {address width : Nat}
    (same : forall place, address ≤ place -> place < address + width ->
      other place = memory place) : other.loadWord address width = memory.loadWord address width :=
  congrArg decode (load_congr same)

end Bytes

/-! ## Regions -/

/-- So many bytes from an address on. -/
structure Region where
  first : Nat
  size : Nat
deriving DecidableEq, Repr

namespace Region

/-- One of them ends before the other one begins. -/
def Apart (left right : Region) : Prop :=
  left.first + left.size ≤ right.first ∨ right.first + right.size ≤ left.first

theorem Apart.shift {base left right size other : Nat}
    (apart : (Region.mk left size).Apart ⟨right, other⟩) :
    (Region.mk (base + left) size).Apart ⟨base + right, other⟩ := by
  simp only [Apart] at apart ⊢
  omega

def Within (inner outer : Region) : Prop :=
  outer.first ≤ inner.first ∧ inner.first + inner.size ≤ outer.first + outer.size

def Has (region : Region) (place : Nat) : Prop :=
  region.first ≤ place ∧ place < region.first + region.size

/-- Regions of these sizes, one after the other. -/
def row : Nat -> List Nat -> List Region
  | _, [] => []
  | first, size :: sizes => ⟨first, size⟩ :: row (first + size) sizes

theorem row_within {first : Nat} {sizes : List Nat} {region : Region}
    (mem : region ∈ row first sizes) : region.Within ⟨first, sizes.sum⟩ := by
  induction sizes generalizing first with
  | nil => cases mem
  | cons size sizes inductionHypothesis =>
      rw [List.sum_cons]
      rcases List.mem_cons.mp mem with rfl | mem
      · exact ⟨Nat.le_refl _, by simp only; omega⟩
      · have within := inductionHypothesis mem
        simp only [Within] at within ⊢
        omega

theorem row_apart (first : Nat) (sizes : List Nat) : (row first sizes).Pairwise Apart := by
  induction sizes generalizing first with
  | nil => exact .nil
  | cons size sizes inductionHypothesis =>
      refine .cons ?_ (inductionHypothesis _)
      intro region mem
      exact .inl (row_within mem).1

/-- The row has no gap. -/
theorem row_has {first place : Nat} {sizes : List Nat} :
    (Exists fun region => region ∈ row first sizes ∧ region.Has place) ↔
      (Region.mk first sizes.sum).Has place := by
  constructor
  · rintro ⟨region, mem, has⟩
    have within := row_within mem
    simp only [Within, Has] at within has ⊢
    omega
  · intro has
    induction sizes generalizing first with
    | nil =>
        simp only [Has, List.sum_nil] at has
        omega
    | cons size sizes inductionHypothesis =>
        simp only [Has, List.sum_cons] at has
        by_cases here : place < first + size
        · exact ⟨⟨first, size⟩, List.mem_cons_self, has.1, here⟩
        · have later : (Region.mk (first + size) sizes.sum).Has place := by
            simp only [Has]
            omega
          rcases inductionHypothesis later with ⟨region, mem, has⟩
          exact ⟨region, List.mem_cons_of_mem _ mem, has⟩

end Region

theorem Bytes.loadWord_storeWord_apart {memory : Bytes} {address other width size value : Nat}
    (apart : (Region.mk other size).Apart ⟨address, width⟩) :
    (memory.storeWord address width value).loadWord other size = memory.loadWord other size := by
  refine loadWord_congr ?_
  intro place above less
  refine storeWord_outside ?_
  simp only [Region.Apart] at apart
  omega

end Memory
end UfsrvRx
