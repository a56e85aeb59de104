import LiveDiagram.Text.Ascii

/-!
# Decimal numerals

Whole numbers are written without leading zeros, most significant digit first, and read back one
digit at a time by `10 * n + d`.

## Main results

* `value_numeral`, `read?_numeral`: a numeral reads back as the number it was written for.
-/

namespace LiveDiagram.Decimal

open LiveDiagram.Ascii

/-- The numeral of a natural number. -/
def numeral (n : Nat) : Bytes :=
  if n < 10 then [digit n] else numeral (n / 10) ++ [digit (n % 10)]

/-- The numeral of an integer, with a minus sign below zero. -/
def signedNumeral : Int → Bytes
  | .ofNat n => numeral n
  | .negSucc n => minus :: numeral (n + 1)

/-- The number that a run of digits continues `n` to. -/
def valueFrom (n : Nat) (digits : Bytes) : Nat :=
  digits.foldl (fun m d => 10 * m + digitValue d) n

/-- The number that a run of digits denotes. -/
def value (digits : Bytes) : Nat :=
  valueFrom 0 digits

/-- Reads a number that is spelled in digits alone. -/
def read? (s : Bytes) : Option Nat :=
  if s ≠ [] ∧ s.all isDigit then some (value s) else none

theorem digitValue_digit {n : Nat} (h : n < 10) : digitValue (digit n) = n := by
  simp only [digitValue, digit, UInt8.toNat_ofNat']
  omega

theorem isDigit_digit {n : Nat} (h : n < 10) : isDigit (digit n) = true := by
  have hn : (digit n).toNat = 0x30 + n := by
    simp only [digit, UInt8.toNat_ofNat']
    omega
  simp only [isDigit, Bool.and_eq_true, decide_eq_true_eq, UInt8.le_iff_toNat_le, hn]
  exact ⟨by decide +revert, by simpa using (by omega : 0x30 + n ≤ 0x39)⟩

theorem valueFrom_append (n : Nat) (a b : Bytes) :
    valueFrom n (a ++ b) = valueFrom (valueFrom n a) b := by
  simp [valueFrom]

theorem value_numeral (n : Nat) : value (numeral n) = n := by
  fun_induction numeral n with
  | case1 n h => simp [value, valueFrom, digitValue_digit h]
  | case2 n h ih =>
    have hd := digitValue_digit (Nat.mod_lt n (by decide : 0 < 10))
    rw [value, valueFrom_append, ← value, ih]
    simp only [valueFrom, List.foldl_cons, List.foldl_nil, hd]
    omega

/-- A numeral holds digits only. -/
theorem isDigit_of_mem_numeral {n : Nat} {d : UInt8} (h : d ∈ numeral n) : isDigit d = true := by
  fun_induction numeral n with
  | case1 n hn => simp_all [isDigit_digit]
  | case2 n hn ih =>
    rcases List.mem_append.1 h with h | h
    · exact ih h
    · rw [List.mem_singleton.1 h]
      exact isDigit_digit (Nat.mod_lt n (by decide))

theorem numeral_ne_nil (n : Nat) : numeral n ≠ [] := by
  fun_induction numeral n <;> simp

theorem read?_numeral (n : Nat) : read? (numeral n) = some n := by
  have hd : (numeral n).all isDigit = true :=
    List.all_eq_true.2 fun _ h => isDigit_of_mem_numeral h
  simp [read?, numeral_ne_nil, hd, value_numeral]

end LiveDiagram.Decimal
