import Mathlib.Algebra.Ring.Nat
import DescriptorTables.Text.Line
import DescriptorTables.Text.Numeral

namespace DescriptorTables

theorem Capacity.admits_some (c size : Nat) : Capacity.admits (some c) size ↔ size ≤ c := by
  rw [Capacity.admits, Option.all_some, decide_eq_true_eq]

namespace Phrase

theorem appendTo_append (n : Nat) (written : String) (p q : Phrase)
    (h : (written ++ String.join p).utf8ByteSize ≤ n) :
    appendTo (some n) written (p ++ q) = appendTo (some n) (written ++ String.join p) q := by
  induction p generalizing written with
  | nil => simp
  | cons piece rest ih =>
    rw [String.join_cons, ← String.append_assoc] at h
    have hpiece : Capacity.admits (some n) (written.utf8ByteSize + piece.utf8ByteSize) := by
      rw [String.utf8ByteSize_append, String.utf8ByteSize_append] at h
      exact (Capacity.admits_some _ _).mpr (by omega)
    rw [List.cons_append, appendTo, if_pos hpiece, ih _ h, String.join_cons, String.append_assoc]

theorem exists_appendTo (capacity : Capacity) (written : String) (p : Phrase) :
    ∃ rest, appendTo capacity written p = written ++ rest := by
  induction p generalizing written with
  | nil => exact ⟨"", by rw [appendTo, String.append_empty]⟩
  | cons piece tail ih =>
    rw [appendTo]
    split
    · obtain ⟨rest, hrest⟩ := ih (written ++ piece)
      exact ⟨piece ++ rest, by rw [hrest, String.append_assoc]⟩
    · exact ⟨"", String.append_empty.symm⟩

end Phrase

namespace Line

theorem exists_foldl_appendTo (capacity : Capacity) (written : String) (line : Line) :
    ∃ rest, line.foldl (Phrase.appendTo capacity) written = written ++ rest := by
  induction line generalizing written with
  | nil => exact ⟨"", String.append_empty.symm⟩
  | cons p tail ih =>
    obtain ⟨first, hfirst⟩ := Phrase.exists_appendTo capacity written p
    obtain ⟨rest, hrest⟩ := ih (written ++ first)
    exact ⟨first ++ rest, by rw [List.foldl_cons, hfirst, hrest, String.append_assoc]⟩

theorem foldl_appendTo_of_fits (n : Nat) (written : String) (line : Line)
    (h : (written ++ line.text).utf8ByteSize ≤ n) :
    line.foldl (Phrase.appendTo (some n)) written = written ++ line.text := by
  induction line generalizing written with
  | nil => simp [text]
  | cons p tail ih =>
    have htext : written ++ text (p :: tail) = written ++ String.join p ++ text tail := by
      simp only [text, List.flatten_cons, String.join_append, String.append_assoc]
    rw [htext] at h
    have hp : (written ++ String.join p).utf8ByteSize ≤ n := by
      rw [String.utf8ByteSize_append] at h
      omega
    have happend := Phrase.appendTo_append n written p [] hp
    rw [List.append_nil, Phrase.appendTo] at happend
    rw [List.foldl_cons, happend, ih _ h, htext]

theorem exists_clip (n : Nat) (before after : Line) (p q : Phrase)
    (h : (before.text ++ String.join p).utf8ByteSize ≤ n) :
    ∃ rest, clip (some n) (before ++ (p ++ q) :: after) =
      before.text ++ String.join p ++ rest := by
  have hbefore : ("" ++ before.text).utf8ByteSize ≤ n := by
    rw [String.empty_append]
    rw [String.utf8ByteSize_append] at h
    omega
  rw [clip, List.foldl_append, foldl_appendTo_of_fits n "" before hbefore, String.empty_append,
    List.foldl_cons, Phrase.appendTo_append n before.text p q h]
  obtain ⟨first, hfirst⟩ := Phrase.exists_appendTo (some n) (before.text ++ String.join p) q
  obtain ⟨rest, hrest⟩ := exists_foldl_appendTo (some n) (before.text ++ String.join p ++ first) after
  exact ⟨first ++ rest, by rw [hfirst, hrest, String.append_assoc]⟩

theorem clip_of_last_over (n : Nat) (before : Line) (p : Phrase) (piece : String)
    (hfits : (before.text ++ String.join p).utf8ByteSize ≤ n)
    (hover : n < (before.text ++ String.join p).utf8ByteSize + piece.utf8ByteSize) :
    clip (some n) (before ++ [p ++ [piece]]) = before.text ++ String.join p := by
  have hbefore : ("" ++ before.text).utf8ByteSize ≤ n := by
    rw [String.empty_append]
    rw [String.utf8ByteSize_append] at hfits
    omega
  have hpiece : ¬ Capacity.admits (some n)
      ((before.text ++ String.join p).utf8ByteSize + piece.utf8ByteSize) :=
    mt (Capacity.admits_some _ _).mp (Nat.not_le.mpr hover)
  rw [clip, List.foldl_append, foldl_appendTo_of_fits n "" before hbefore, String.empty_append,
    List.foldl_cons, List.foldl_nil, Phrase.appendTo_append n before.text p [piece] hfits,
    Phrase.appendTo, if_neg hpiece]

theorem text_append_last (before : Line) (p : Phrase) (piece : String) :
    text (before ++ [p ++ [piece]]) = before.text ++ String.join p ++ piece := by
  simp only [text, List.flatten_append, List.flatten_cons, List.flatten_nil, List.append_nil,
    String.join_append, String.join_cons, String.join_nil, String.append_empty,
    String.append_assoc]

end Line

/-- Texts that have one byte to a character. -/
def Ascii (text : String) : Prop :=
  text.toList.all fun c => c.toNat < 128

instance (text : String) : Decidable (Ascii text) :=
  inferInstanceAs (Decidable (_ = true))

namespace Ascii

theorem iff_forall_mem (text : String) : Ascii text ↔ ∀ c ∈ text.toList, c.toNat < 128 := by
  simp only [Ascii, List.all_eq_true, decide_eq_true_eq]

theorem utf8Size_eq_one (c : Char) (h : c.toNat < 128) : c.utf8Size = 1 := by
  rw [Char.utf8Size_eq_one_iff]
  exact UInt32.le_iff_toNat_le.mpr (Nat.le_of_lt_succ h)

theorem utf8ByteSize_ofList (chars : List Char) (h : ∀ c ∈ chars, c.toNat < 128) :
    (String.ofList chars).utf8ByteSize = chars.length := by
  induction chars with
  | nil => rfl
  | cons c rest ih =>
    rw [String.ofList_cons, String.utf8ByteSize_append, String.utf8ByteSize_singleton,
      utf8Size_eq_one c (h c List.mem_cons_self),
      ih fun d hd => h d (List.mem_cons_of_mem c hd), List.length_cons, Nat.add_comm]

theorem utf8ByteSize_eq (text : String) (h : Ascii text) :
    text.utf8ByteSize = text.toList.length := by
  have hbytes := utf8ByteSize_ofList text.toList ((iff_forall_mem text).mp h)
  rwa [String.ofList_toList] at hbytes

theorem decimal (width n : Nat) : Ascii (Numeral.decimal width n) := by
  refine (iff_forall_mem _).mpr fun c hc => ?_
  rw [Numeral.decimal, String.toList_ofList, List.leftpad, List.mem_append] at hc
  cases hc with
  | inl hc =>
    rw [List.eq_of_mem_replicate hc]
    decide
  | inr hc =>
    have hdigit := Nat.isDigit_of_mem_toDigits (by decide) (by decide) hc
    rw [Char.isDigit, Bool.and_eq_true, decide_eq_true_eq, decide_eq_true_eq] at hdigit
    have hle : c.toNat ≤ 57 := UInt32.le_iff_toNat_le.mp hdigit.2
    omega

end Ascii

theorem Numeral.length_decimal (width n : Nat) (hwidth : 0 < width) (h : n < 10 ^ width) :
    (decimal width n).toList.length = width := by
  have hdigits := (Nat.length_toDigits_le_iff (b := 10) (by decide) hwidth).mpr h
  rw [decimal, String.toList_ofList, List.length_leftpad]
  exact Nat.max_eq_left hdigits

end DescriptorTables
