import Mathlib.Algebra.Ring.Nat
import DescriptorTables.Text.Numeral
import DescriptorTables.Proofs.Clipping

namespace DescriptorTables.Numeral

theorem ofDigitChars_decimal (width n : Nat) :
    Nat.ofDigitChars 10 (decimal width n).toList 0 = n := by
  rw [decimal, String.toList_ofList, List.leftpad, Nat.ofDigitChars_append,
    Nat.ofDigitChars_replicate_zero, Nat.mul_zero, Nat.ofDigitChars_ten_toDigits]

theorem decimal_inj (width n m : Nat) (h : decimal width n = decimal width m) : n = m := by
  rw [← ofDigitChars_decimal width n, h, ofDigitChars_decimal]

theorem isDigit_of_mem_decimal (width n : Nat) (c : Char) (hc : c ∈ (decimal width n).toList) :
    c.isDigit := by
  rw [decimal, String.toList_ofList, List.leftpad, List.mem_append] at hc
  cases hc with
  | inl hc =>
    rw [List.eq_of_mem_replicate hc]
    decide
  | inr hc => exact Nat.isDigit_of_mem_toDigits (by decide) (by decide) hc

def hexDigits : List Char :=
  ['0', '1', '2', '3', '4', '5', '6', '7', '8', '9', 'A', 'B', 'C', 'D', 'E', 'F']

/-- The number that hexadecimal digits in upper case stand for, after those that gave a number. -/
def ofHexDigits (digits : List Char) (before : Nat) : Nat :=
  digits.foldl (fun n c => 16 * n + hexDigits.idxOf c) before

theorem idxOf_toUpper_digitChar : ∀ d < 16, hexDigits.idxOf (Nat.digitChar d).toUpper = d := by
  decide

theorem toUpper_digitChar_mem : ∀ d < 16, (Nat.digitChar d).toUpper ∈ hexDigits := by
  decide

theorem ofHexDigits_append (digits more : List Char) (before : Nat) :
    ofHexDigits (digits ++ more) before = ofHexDigits more (ofHexDigits digits before) :=
  List.foldl_append

theorem ofHexDigits_toDigits (n : Nat) :
    ofHexDigits ((Nat.toDigits 16 n).map Char.toUpper) 0 = n := by
  induction n using Nat.base_induction 16 (by decide) with
  | single m hm =>
    rw [Nat.toDigits_of_lt_base hm]
    exact (Nat.zero_add _).trans (idxOf_toUpper_digitChar m hm)
  | digit m k hk hm ih =>
    rw [← Nat.toDigits_append_toDigits (by decide) hm hk, List.map_append, ofHexDigits_append, ih,
      Nat.toDigits_of_lt_base hk]
    exact congrArg (16 * m + ·) (idxOf_toUpper_digitChar k hk)

theorem ofHexDigits_replicate_zero (count : Nat) :
    ofHexDigits (List.replicate count '0') 0 = 0 := by
  induction count with
  | zero => rfl
  | succ count ih => exact ih

theorem upperHexDigits_eq (width n : Nat) :
    upperHexDigits width n =
      List.replicate (width - (Nat.toDigits 16 n).length) '0' ++
        (Nat.toDigits 16 n).map Char.toUpper := by
  rw [upperHexDigits, lowerHexDigits, List.leftpad, List.map_append, List.map_replicate]
  rfl

theorem ofHexDigits_upperHexDigits (width n : Nat) : ofHexDigits (upperHexDigits width n) 0 = n := by
  rw [upperHexDigits_eq, ofHexDigits_append, ofHexDigits_replicate_zero, ofHexDigits_toDigits]

theorem upperHexDigits_inj (width n m : Nat)
    (h : upperHexDigits width n = upperHexDigits width m) : n = m := by
  rw [← ofHexDigits_upperHexDigits width n, h, ofHexDigits_upperHexDigits]

theorem toList_upperHex (width n : Nat) :
    (upperHex width n).toList = '0' :: 'x' :: upperHexDigits width n := by
  simp [upperHex]

theorem upperHex_inj (width n m : Nat) (h : upperHex width n = upperHex width m) : n = m := by
  have hchars := congrArg String.toList h
  rw [toList_upperHex, toList_upperHex, List.cons.injEq, List.cons.injEq] at hchars
  exact upperHexDigits_inj width n m hchars.2.2

theorem mem_hexDigits_of_mem_toDigits (n : Nat) (c : Char)
    (hc : c ∈ (Nat.toDigits 16 n).map Char.toUpper) : c ∈ hexDigits := by
  induction n using Nat.base_induction 16 (by decide) with
  | single m hm =>
    rw [Nat.toDigits_of_lt_base hm, List.map_singleton, List.mem_singleton] at hc
    rw [hc]
    exact toUpper_digitChar_mem m hm
  | digit m k hk hm ih =>
    rw [← Nat.toDigits_append_toDigits (by decide) hm hk, List.map_append, List.mem_append] at hc
    cases hc with
    | inl hc => exact ih hc
    | inr hc =>
      rw [Nat.toDigits_of_lt_base hk, List.map_singleton, List.mem_singleton] at hc
      rw [hc]
      exact toUpper_digitChar_mem k hk

theorem mem_hexDigits_of_mem (width n : Nat) (c : Char) (hc : c ∈ upperHexDigits width n) :
    c ∈ hexDigits := by
  rw [upperHexDigits_eq, List.mem_append] at hc
  cases hc with
  | inl hc =>
    rw [List.eq_of_mem_replicate hc]
    decide
  | inr hc => exact mem_hexDigits_of_mem_toDigits n c hc

theorem length_upperHexDigits (width n : Nat) (hwidth : 0 < width) (h : n < 16 ^ width) :
    (upperHexDigits width n).length = width := by
  have hdigits := (Nat.length_toDigits_le_iff (b := 16) (by decide) hwidth).mpr h
  rw [upperHexDigits_eq, List.length_append, List.length_replicate, List.length_map]
  exact Nat.sub_add_cancel hdigits

theorem length_upperHexDigits_le_iff (width k n : Nat) (hk : 0 < k) (hwidth : width ≤ k) :
    (upperHexDigits width n).length ≤ k ↔ n < 16 ^ k := by
  rw [upperHexDigits, lowerHexDigits, List.length_map, List.length_leftpad,
    ← Nat.length_toDigits_le_iff (b := 16) (by decide) hk]
  omega

end DescriptorTables.Numeral
