import Mathlib.Data.Nat.Digits.Lemmas

namespace UfsrvRx
namespace Text

/-!
# Bytes and decimal numbers

Text is a list of bytes.  A natural number is printed without leading zeros; reading it gives
the number back, and the first digits of it are again the print of a number.
-/

abbrev Byte := UInt8

/-- The bytes of a text that is written out in a program. -/
def ascii (text : String) : List Byte :=
  text.toList.map fun letter => letter.toNat.toUInt8

/-- A C string: the bytes before the NUL. -/
structure CString where
  bytes : List Byte
  nulFree : 0 ∉ bytes
deriving DecidableEq

theorem CString.ext_iff {left right : CString} : left = right ↔ left.bytes = right.bytes := by
  constructor
  · rintro rfl
    rfl
  · intro same
    cases left
    cases right
    cases same
    rfl

/-! ## Digits -/

def digitByte (digit : Nat) : Byte :=
  (48 + digit).toUInt8

def isDigit (byte : Byte) : Bool :=
  48 ≤ byte.toNat && byte.toNat ≤ 57

def digitValue (byte : Byte) : Nat :=
  byte.toNat - 48

theorem toNat_digitByte {digit : Nat} (small : digit < 10) : (digitByte digit).toNat = 48 + digit := by
  simp only [digitByte, UInt8.toNat_ofNat', Nat.toUInt8]
  omega

theorem isDigit_digitByte {digit : Nat} (small : digit < 10) : isDigit (digitByte digit) = true := by
  simp only [isDigit, toNat_digitByte small]
  simp
  omega

theorem digitValue_digitByte {digit : Nat} (small : digit < 10) :
    digitValue (digitByte digit) = digit := by
  simp only [digitValue, toNat_digitByte small]
  omega

/-- What a row of digits says. -/
def valueOf (digits : List Byte) : Nat :=
  digits.foldl (fun value byte => 10 * value + digitValue byte) 0

/-! ## Numbers -/

/-- `%u` and `%lu`. -/
def decimal (number : Nat) : List Byte :=
  if number = 0 then [48] else (Nat.digits 10 number).reverse.map digitByte

/-- `%d`. -/
def integer (number : Int) : List Byte :=
  if number < 0 then 45 :: decimal number.natAbs else decimal number.natAbs

theorem length_decimal {number : Nat} (positive : number ≠ 0) :
    (decimal number).length = (Nat.digits 10 number).length := by
  simp [decimal, positive]

theorem length_decimal_pos (number : Nat) : 0 < (decimal number).length := by
  by_cases zero : number = 0
  · simp [decimal, zero]
  · rw [length_decimal zero, Nat.length_digits 10 number (by decide) zero]
    exact Nat.succ_pos _

theorem length_decimal_le {small large : Nat} (le : small ≤ large) :
    (decimal small).length ≤ (decimal large).length := by
  by_cases zero : small = 0
  · rw [zero]
    exact length_decimal_pos large
  · have positive : large ≠ 0 := by omega
    rw [length_decimal zero, length_decimal positive]
    exact Nat.le_length_digits_le 10 small large le

theorem isDigit_of_mem {number : Nat} {byte : Byte} (mem : byte ∈ decimal number) :
    isDigit byte = true := by
  unfold decimal at mem
  split at mem
  · rw [List.mem_singleton.mp mem]
    rfl
  · rcases List.mem_map.mp mem with ⟨digit, inside, rfl⟩
    exact isDigit_digitByte (Nat.digits_lt_base (by decide) (List.mem_reverse.mp inside))

theorem foldl_digits (digits : List Nat) (small : forall digit, digit ∈ digits -> digit < 10) :
    valueOf (digits.reverse.map digitByte) = Nat.ofDigits 10 digits := by
  unfold valueOf
  induction digits with
  | nil => rfl
  | cons digit digits inductionHypothesis =>
      have first := small digit List.mem_cons_self
      have rest := inductionHypothesis fun other mem => small other (List.mem_cons_of_mem _ mem)
      rw [List.reverse_cons, List.map_append, List.foldl_append, rest]
      simp only [List.map_cons, List.map_nil, List.foldl_cons, List.foldl_nil]
      rw [digitValue_digitByte first, Nat.ofDigits_cons]
      exact Nat.add_comm _ _

theorem valueOf_decimal (number : Nat) : valueOf (decimal number) = number := by
  unfold decimal
  split
  · rename_i zero
    rw [zero]
    rfl
  · rw [foldl_digits _ fun digit mem => Nat.digits_lt_base (by decide) mem]
    exact Nat.ofDigits_digits 10 number

theorem decimal_injective : Function.Injective decimal := by
  intro left right same
  rw [<- valueOf_decimal left, same, valueOf_decimal]

theorem digits_drop (number dropped : Nat) :
    (Nat.digits 10 number).drop dropped = Nat.digits 10 (number / 10 ^ dropped) := by
  induction dropped generalizing number with
  | zero => simp
  | succ dropped inductionHypothesis =>
      by_cases zero : number = 0
      · simp [zero]
      · rw [Nat.digits_eq_cons_digits_div (by decide) zero, List.drop_succ_cons,
          inductionHypothesis, Nat.div_div_eq_div_mul, Nat.pow_succ, Nat.mul_comm]

/-- The first digits of a number are the number without its last digits. -/
theorem take_decimal {number kept : Nat} (some : 0 < kept)
    (fewer : kept < (decimal number).length) :
    (decimal number).take kept = decimal (number / 10 ^ ((decimal number).length - kept)) := by
  have positive : number ≠ 0 := by
    intro zero
    rw [zero] at fewer
    simp only [decimal, if_true, List.length_singleton] at fewer
    omega
  generalize dropped : (decimal number).length - kept = rest
  have length := length_decimal positive
  have left : number / 10 ^ rest ≠ 0 := by
    intro zero
    have digits := digits_drop number rest
    rw [zero, Nat.digits_zero, List.drop_eq_nil_iff] at digits
    omega
  simp only [decimal, positive, left, if_false]
  rw [<- List.map_take, List.take_reverse, <- digits_drop]
  congr 3
  omega

theorem head_decimal {number : Nat} (positive : number ≠ 0) :
    Exists fun first => Exists fun rest => decimal number = first :: rest ∧ first ≠ 48 := by
  have digits : Nat.digits 10 number ≠ [] := Nat.digits_ne_nil_iff_ne_zero.mpr positive
  have last := Nat.getLast_digit_ne_zero 10 positive
  have small := Nat.digits_lt_base (b := 10) (m := number) (by decide) (List.getLast_mem digits)
  refine ⟨digitByte ((Nat.digits 10 number).getLast digits),
    ((Nat.digits 10 number).dropLast.reverse.map digitByte), ?_, ?_⟩
  · simp only [decimal, positive, if_false]
    rw [<- List.map_cons]
    congr 1
    conv_lhs => rw [<- List.dropLast_append_getLast digits]
    rw [List.reverse_append]
    rfl
  · intro zero
    have value := toNat_digitByte small
    rw [zero] at value
    change 48 = _ at value
    omega

end Text
end UfsrvRx
