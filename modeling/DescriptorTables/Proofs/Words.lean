import Mathlib.Data.List.Basic
import DescriptorTables.Record
import DescriptorTables.Text.Blank
import DescriptorTables.Proofs.Numerals

namespace DescriptorTables

def Between (first last : Nat) (text : String) : Prop :=
  text.toList.all fun c => first ≤ c.toNat && c.toNat ≤ last

instance (first last : Nat) (text : String) : Decidable (Between first last text) :=
  inferInstanceAs (Decidable (_ = true))

/-- Texts of characters that leave a mark, one byte to each. -/
abbrev Visible : String → Prop :=
  Between 0x21 0x7E

abbrev Printable : String → Prop :=
  Between 0x20 0x7E

namespace Between

variable {first last : Nat}

theorem iff_forall_mem (text : String) :
    Between first last text ↔ ∀ c ∈ text.toList, first ≤ c.toNat ∧ c.toNat ≤ last := by
  simp only [Between, List.all_eq_true, Bool.and_eq_true, decide_eq_true_eq]

theorem append {a b : String} (ha : Between first last a) (hb : Between first last b) :
    Between first last (a ++ b) := by
  rw [iff_forall_mem] at *
  intro c hc
  rw [String.toList_append, List.mem_append] at hc
  exact hc.elim (ha c) (hb c)

theorem join {pieces : List String} (h : ∀ piece ∈ pieces, Between first last piece) :
    Between first last (String.join pieces) := by
  induction pieces with
  | nil => simp [Between]
  | cons piece rest ih =>
    rw [String.join_cons]
    exact append (h piece List.mem_cons_self) (ih fun p hp => h p (List.mem_cons_of_mem piece hp))

theorem printable {text : String} (h : Visible text) : Printable text := by
  refine (iff_forall_mem text).mpr fun c hc => ?_
  have hvisible := (iff_forall_mem text).mp h c hc
  exact ⟨Nat.le_of_succ_le hvisible.1, hvisible.2⟩

theorem ascii {text : String} (h : Printable text) : Ascii text := by
  refine (Ascii.iff_forall_mem text).mpr fun c hc => ?_
  have hprintable := (iff_forall_mem text).mp h c hc
  omega

theorem utf8ByteSize_eq {text : String} (h : Printable text) :
    text.utf8ByteSize = text.toList.length :=
  h.ascii.utf8ByteSize_eq

theorem replicate (count : Nat) (c : Char) (h : first ≤ c.toNat ∧ c.toNat ≤ last) :
    Between first last (String.ofList (List.replicate count c)) := by
  refine (iff_forall_mem _).mpr fun d hd => ?_
  rw [String.toList_ofList] at hd
  rw [List.eq_of_mem_replicate hd]
  exact h

theorem isBlank_eq_false (c : Char) (h : 0x21 ≤ c.toNat ∧ c.toNat ≤ 0x7E) :
    Blank.isBlank c = false := by
  simp only [Blank.isBlank, Blank.codePoints, CodePoints.contains, List.any_cons, List.any_nil,
    Bool.or_false, Bool.or_eq_false_iff, Bool.and_eq_false_iff, decide_eq_false_iff_not]
  omega

end Between

namespace Visible

theorem decimal (width n : Nat) : Visible (Numeral.decimal width n) := by
  refine (Between.iff_forall_mem _).mpr fun c hc => ?_
  have hdigit := Numeral.isDigit_of_mem_decimal width n c hc
  rw [Char.isDigit, Bool.and_eq_true, decide_eq_true_eq, decide_eq_true_eq] at hdigit
  have hge : 48 ≤ c.toNat := UInt32.le_iff_toNat_le.mp hdigit.1
  have hle : c.toNat ≤ 57 := UInt32.le_iff_toNat_le.mp hdigit.2
  omega

theorem ofHexDigits (width n : Nat) : Visible (String.ofList (Numeral.upperHexDigits width n)) := by
  have hdigits : Visible (String.ofList Numeral.hexDigits) := by decide
  refine (Between.iff_forall_mem _).mpr fun c hc => (Between.iff_forall_mem _).mp hdigits c ?_
  rw [String.toList_ofList] at hc ⊢
  exact Numeral.mem_hexDigits_of_mem width n c hc

theorem upperHex (width n : Nat) : Visible (Numeral.upperHex width n) :=
  Between.append (by decide) (ofHexDigits width n)

end Visible

def IsWord (text : String) : Prop :=
  Visible text ∧ text ≠ ""

instance (text : String) : Decidable (IsWord text) :=
  inferInstanceAs (Decidable (_ ∧ _))

namespace Blank

theorem words_of_isWord (text : String) (h : IsWord text) : words text = [text] := by
  have hsolid : ∀ c ∈ text.toList, isBlank c = false := fun c hc =>
    Between.isBlank_eq_false c ((Between.iff_forall_mem text).mp h.1 c hc)
  have hchars : text.toList ≠ [] := fun he => h.2 (String.toList_eq_nil_iff.mp he)
  rw [words, List.splitOnP_eq_singleton hsolid]
  simp [hchars]

theorem words_append_space (a b : String) : words (a ++ " " ++ b) = words a ++ words b :=
  words_append_blank a b ' ' (by decide)

theorem words_append_replicate (a b : String) (count : Nat) :
    words (a ++ String.ofList (List.replicate count ' ') ++ " " ++ b) = words a ++ words b := by
  rw [words_append_space]
  refine congrArg (· ++ words b) ?_
  induction count with
  | zero => rw [List.replicate_zero, String.ofList_nil, String.append_empty]
  | succ count ih =>
    have hlast : String.ofList (List.replicate (count + 1) ' ') =
        String.ofList (List.replicate count ' ') ++ " " := by
      rw [List.replicate_succ', String.ofList_append]
    have hnext := words_append_space (a ++ String.ofList (List.replicate count ' ')) ""
    rw [String.append_empty, ih] at hnext
    rw [hlast, ← String.append_assoc, hnext]
    exact List.append_nil _

theorem words_cons (text rest : String) (h : IsWord text) :
    words (text ++ (" " ++ rest)) = text :: words rest := by
  rw [← String.append_assoc, words_append_space, words_of_isWord text h]
  rfl

end Blank

namespace Record

theorem padded_eq (width : Nat) (text : String) :
    padded width text =
      text ++ String.ofList (List.replicate (width - text.toList.length) ' ') := by
  rw [padded, List.rightpad, String.ofList_append, String.ofList_toList]

theorem words_padded (width : Nat) (text rest : String) (h : IsWord text) :
    Blank.words (padded width text ++ (" " ++ rest)) = text :: Blank.words rest := by
  rw [padded_eq, ← String.append_assoc, Blank.words_append_replicate, Blank.words_of_isWord text h]
  rfl

theorem printable_padded (width : Nat) (text : String) (h : Printable text) :
    Printable (padded width text) := by
  rw [padded_eq]
  exact h.append (Between.replicate _ ' ' (by decide))

theorem utf8ByteSize_padded (width : Nat) (text : String) (h : Printable text)
    (hle : text.utf8ByteSize ≤ width) : (padded width text).utf8ByteSize = width := by
  rw [h.utf8ByteSize_eq] at hle
  rw [(printable_padded width text h).utf8ByteSize_eq, padded, String.toList_ofList, List.rightpad,
    List.length_append, List.length_replicate]
  exact Nat.add_sub_cancel' hle

end Record

end DescriptorTables
