import DescriptorTables.Record
import DescriptorTables.Proofs.Clipping

namespace DescriptorTables

def Entry.label : Entry → String
  | .segment s => s.columns.label
  | .system s => s.columns.label
  | .reserved _ unrecognized => if unrecognized then "reserved" else "unused"

namespace Record

def IsLabel (label : String) : Prop :=
  Ascii label ∧ label.toList.length ≤ 16

instance (label : String) : Decidable (IsLabel label) :=
  inferInstanceAs (Decidable (_ ∧ _))

/-- How a record begins: the slot that it is about, and what is there. -/
def caption (n : Size) (label : String) : String :=
  String.join (index n) ++ padded 16 label

theorem toList_index (n : Size) :
    (String.join (index n)).toList = '[' :: ((Numeral.decimal 4 n.toNat).toList ++ [']', ' ']) := by
  simp [index]

theorem length_index (n : Size) (hn : n.toNat < 10 ^ 4) :
    (String.join (index n)).toList.length = 7 := by
  rw [toList_index, List.length_cons, List.length_append,
    Numeral.length_decimal 4 n.toNat (by decide) hn]
  rfl

theorem ascii_index (n : Size) : Ascii (String.join (index n)) := by
  have hend : Ascii "] " := by decide
  refine (Ascii.iff_forall_mem _).mpr fun c hc => ?_
  rw [toList_index, List.mem_cons, List.mem_append] at hc
  obtain rfl | hc | hc := hc
  · decide
  · exact (Ascii.iff_forall_mem _).mp (Ascii.decimal 4 n.toNat) c hc
  · exact (Ascii.iff_forall_mem _).mp hend c hc

theorem toList_padded (label : String) :
    (padded 16 label).toList = label.toList ++ List.replicate (16 - label.toList.length) ' ' := by
  rw [padded, String.toList_ofList, List.rightpad]

theorem utf8ByteSize_caption (n : Size) (label : String) (hn : n.toNat < 10 ^ 4)
    (hlabel : IsLabel label) : (caption n label).utf8ByteSize = 23 := by
  have hpadded : Ascii (padded 16 label) := by
    refine (Ascii.iff_forall_mem _).mpr fun c hc => ?_
    rw [toList_padded, List.mem_append] at hc
    cases hc with
    | inl hc => exact (Ascii.iff_forall_mem _).mp hlabel.1 c hc
    | inr hc =>
      rw [List.eq_of_mem_replicate hc]
      decide
  have hlength : (padded 16 label).toList.length = 16 := by
    rw [toList_padded, List.length_append, List.length_replicate]
    exact Nat.add_sub_cancel' hlabel.2
  rw [caption, String.utf8ByteSize_append, (ascii_index n).utf8ByteSize_eq, hpadded.utf8ByteSize_eq,
    length_index n hn, hlength]

theorem exists_text (n : Size) (label : String) (before after : Line) (p q : Phrase)
    (hn : n.toNat < 10 ^ 4) (hlabel : IsLabel label)
    (hcaption : before.text ++ String.join p = caption n label) :
    ∃ rest, text (before ++ (p ++ q) :: after) = caption n label ++ rest := by
  have hfits : (before.text ++ String.join p).utf8ByteSize ≤ capacity := by
    rw [hcaption, utf8ByteSize_caption n label hn hlabel]
    decide
  rw [← hcaption]
  exact Line.exists_clip capacity before after p q hfits

def IsEntryLabel (label : String) : Prop :=
  IsLabel label ∧ label.toList.head?.any Char.isLower

instance (label : String) : Decidable (IsEntryLabel label) :=
  inferInstanceAs (Decidable (_ ∧ _))

theorem isEntryLabel_label (e : Entry) : IsEntryLabel e.label := by
  cases e with
  | segment s =>
    have hlabel : s.columns.label = "code-segment" ∨ s.columns.label = "data-segment" := by
      cases hk : s.kind <;> simp [SegmentEntry.columns, hk]
    rw [Entry.label]
    cases hlabel with
    | inl h =>
      rw [h]
      decide
    | inr h =>
      rw [h]
      decide
  | system s =>
    have hlabel : ∀ kind : SystemKind, IsEntryLabel kind.label := by
      intro kind
      cases kind with
      | ldt | taskGate => decide
      | tss width busy => cases width <;> cases busy <;> decide
      | callGate width | interruptGate width | trapGate width => cases width <;> decide
    exact hlabel s.kind
  | reserved raw unrecognized =>
    have hlabels : IsEntryLabel "unused" ∧ IsEntryLabel "reserved" := by decide
    cases unrecognized with
    | false => exact hlabels.1
    | true => exact hlabels.2

theorem exists_text_entry (mode : Mode) (n : Size) (e : Entry) (hn : n.toNat < 10 ^ 4) :
    ∃ rest, text (entry mode n e) = caption n e.label ++ rest := by
  have hcaption : Line.text [index n] ++ String.join [padded 16 e.label] = caption n e.label := by
    simp [Line.text, caption]
  have hlabel := (isEntryLabel_label e).1
  cases e with
  | segment s => exact exists_text n _ [index n] _ [padded 16 _] [" "] hn hlabel hcaption
  | system s => exact exists_text n _ [index n] _ [padded 16 _] [" "] hn hlabel hcaption
  | reserved raw unrecognized =>
    exact exists_text n _ [index n] [] [padded 16 _] [" raw=", raw.text] hn hlabel hcaption

theorem exists_text_phrase (n : Size) (label : String) (rest : Phrase) (hn : n.toNat < 10 ^ 4)
    (hlabel : IsLabel label) :
    ∃ tail, text [index n ++ padded 16 label :: rest] = caption n label ++ tail := by
  have hcaption : Line.text [] ++ String.join (index n ++ [padded 16 label]) = caption n label := by
    simp [Line.text, caption]
  have htext := exists_text n label [] [] (index n ++ [padded 16 label]) rest hn hlabel hcaption
  rw [List.append_assoc] at htext
  exact htext

theorem exists_text_upperHalf (n owner : Size) (high : Quadword) (hn : n.toNat < 10 ^ 4) :
    ∃ rest, text (upperHalf n owner high) = caption n "(upper half)" ++ rest :=
  exists_text_phrase n "(upper half)" _ hn (by decide)

theorem exists_text_fault (n : Size) (f : Fault) (hn : n.toNat < 10 ^ 4) :
    ∃ rest, text (fault n f) = caption n "<out-of-range>" ++ rest :=
  exists_text_phrase n "<out-of-range>" _ hn (by decide)

/-- Whether a record has a label, or one that begins with it. -/
def isLabelled (label record : String) : Bool :=
  label.toList.isPrefixOf (record.toList.drop 7)

theorem isLabelled_caption (n : Size) (label rest : String) (hn : n.toNat < 10 ^ 4) :
    isLabelled label (caption n label ++ rest) := by
  have hdrop : (caption n label ++ rest).toList.drop 7 =
      label.toList ++ (List.replicate (16 - label.toList.length) ' ' ++ rest.toList) := by
    rw [caption, String.toList_append, String.toList_append, List.append_assoc,
      List.drop_left' (length_index n hn), toList_padded, List.append_assoc]
  rw [isLabelled, hdrop, List.isPrefixOf_iff_prefix]
  exact List.prefix_append _ _

theorem isLabelled_append_eq_false (label start rest : String) (c d : Char)
    (hlabel : label.toList.head? = some d) (h : start.toList[7]? = some c) (hc : c ≠ d) :
    isLabelled label (start ++ rest) = false := by
  obtain ⟨hlength, hget⟩ := List.getElem?_eq_some_iff.mp h
  obtain ⟨tail, hchars⟩ := List.head?_eq_some_iff.mp hlabel
  have hdrop : (start ++ rest).toList.drop 7 = c :: (start.toList.drop 8 ++ rest.toList) := by
    rw [String.toList_append, List.drop_append_of_le_length (Nat.le_of_lt hlength),
      List.drop_eq_getElem_cons hlength, hget, List.cons_append]
  have hbeq : (d == c) = false := beq_eq_false_iff_ne.mpr hc.symm
  rw [isLabelled, hdrop, hchars, List.isPrefixOf, hbeq, Bool.false_and]

theorem getElem?_caption (n : Size) (label : String) (c : Char) (hn : n.toNat < 10 ^ 4)
    (h : label.toList.head? = some c) : (caption n label).toList[7]? = some c := by
  have hindex := length_index n hn
  obtain ⟨tail, hchars⟩ := List.head?_eq_some_iff.mp h
  rw [caption, String.toList_append, List.getElem?_append_right (Nat.le_of_eq hindex), hindex,
    toList_padded, hchars]
  rfl

theorem isLabelled_phrase (n : Size) (label : String) (rest : Phrase) (hn : n.toNat < 10 ^ 4)
    (hlabel : IsLabel label) : isLabelled label (text [index n ++ padded 16 label :: rest]) := by
  obtain ⟨tail, htext⟩ := exists_text_phrase n label rest hn hlabel
  rw [htext]
  exact isLabelled_caption n label tail hn

theorem isLabelled_phrase_eq_false (n : Size) (label other : String) (rest : Phrase) (c d : Char)
    (hn : n.toNat < 10 ^ 4) (hlabel : IsLabel other) (hc : other.toList.head? = some c)
    (hd : label.toList.head? = some d) (hne : c ≠ d) :
    isLabelled label (text [index n ++ padded 16 other :: rest]) = false := by
  obtain ⟨tail, htext⟩ := exists_text_phrase n other rest hn hlabel
  have hget := getElem?_caption n other c hn hc
  rw [htext]
  exact isLabelled_append_eq_false label _ tail c d hd hget hne

/-- A label that no entry has: those of entries begin with small letters. -/
def IsMark (mark : String) : Prop :=
  mark.toList.head? = some '(' ∨ mark.toList.head? = some '<'

instance (mark : String) : Decidable (IsMark mark) :=
  inferInstanceAs (Decidable (_ ∨ _))

section Marks

variable (mark : String) (hmark : IsMark mark)
include hmark

theorem isLabelled_eq_false_of_char (start rest : String) (c : Char)
    (h : start.toList[7]? = some c) (hc : c ≠ '(' ∧ c ≠ '<') :
    isLabelled mark (start ++ rest) = false := by
  cases hmark with
  | inl hhead => exact isLabelled_append_eq_false mark start rest c '(' hhead h hc.1
  | inr hhead => exact isLabelled_append_eq_false mark start rest c '<' hhead h hc.2

theorem isLabelled_entry (mode : Mode) (n : Size) (e : Entry) (hn : n.toNat < 10 ^ 4) :
    isLabelled mark (text (entry mode n e)) = false := by
  obtain ⟨rest, htext⟩ := exists_text_entry mode n e hn
  obtain ⟨c, hhead, hlower⟩ := (Option.any_eq_true _ _).mp (isEntryLabel_label e).2
  rw [htext]
  refine isLabelled_eq_false_of_char mark hmark _ rest c (getElem?_caption n _ c hn hhead) ⟨?_, ?_⟩
  · rintro rfl
    exact absurd hlower (by decide)
  · rintro rfl
    exact absurd hlower (by decide)

theorem isLabelled_text_eq_false (before after : Line) (p q : Phrase) (c : Char)
    (hfits : (before.text ++ String.join p).utf8ByteSize ≤ capacity)
    (hget : (before.text ++ String.join p).toList[7]? = some c) (hc : c ≠ '(' ∧ c ≠ '<') :
    isLabelled mark (text (before ++ (p ++ q) :: after)) = false := by
  obtain ⟨rest, htext⟩ := Line.exists_clip capacity before after p q hfits
  rw [text, htext]
  exact isLabelled_eq_false_of_char mark hmark _ rest c hget hc

theorem isLabelled_raw (r : RawEntry) : isLabelled mark (text (raw r)) = false :=
  isLabelled_text_eq_false mark hmark [] [] ["       raw="] [r.text] 'r' (by decide) (by decide)
    (by decide)

theorem isLabelled_warning (f : Fault) : isLabelled mark (text (warning f)) = false :=
  isLabelled_text_eq_false mark hmark [] [] ["warning: "] [f.message] ':' (by decide) (by decide)
    (by decide)

theorem isLabelled_header (l : Layout) (r : Register) (slots : Size) :
    isLabelled mark (text (header l r slots)) = false := by
  obtain ⟨kind, mode⟩ := l
  have hfits : (Line.text [[kind.text, " "]] ++ String.join ["base"]).utf8ByteSize ≤ capacity := by
    cases kind <;> decide
  have hget : (Line.text [[kind.text, " "]] ++ String.join ["base"]).toList[7]? = some 'e' := by
    cases kind <;> decide
  have htext := fun q after => isLabelled_text_eq_false mark hmark [[kind.text, " "]] after ["base"]
    q 'e' hfits hget (by decide)
  cases mode with
  | protected32 => exact htext _ _
  | long64 => exact htext _ _

end Marks

def isUpperHalf (record : String) : Bool :=
  isLabelled "(upper half)" record

def isOutOfRange (record : String) : Bool :=
  isLabelled "<out-of-range>" record

theorem isMark_upperHalf : IsMark "(upper half)" := by
  decide

theorem isMark_outOfRange : IsMark "<out-of-range>" := by
  decide

theorem isUpperHalf_entry (mode : Mode) (n : Size) (e : Entry) (hn : n.toNat < 10 ^ 4) :
    isUpperHalf (text (entry mode n e)) = false :=
  isLabelled_entry _ isMark_upperHalf mode n e hn

theorem isUpperHalf_fault (n : Size) (f : Fault) (hn : n.toNat < 10 ^ 4) :
    isUpperHalf (text (fault n f)) = false :=
  isLabelled_phrase_eq_false n _ "<out-of-range>" _ '<' '(' hn (by decide) rfl rfl (by decide)

theorem isUpperHalf_upperHalf (n owner : Size) (high : Quadword) (hn : n.toNat < 10 ^ 4) :
    isUpperHalf (text (upperHalf n owner high)) :=
  isLabelled_phrase n "(upper half)" _ hn (by decide)

theorem isUpperHalf_raw (r : RawEntry) : isUpperHalf (text (raw r)) = false :=
  isLabelled_raw _ isMark_upperHalf r

theorem isUpperHalf_warning (f : Fault) : isUpperHalf (text (warning f)) = false :=
  isLabelled_warning _ isMark_upperHalf f

theorem isUpperHalf_header (l : Layout) (r : Register) (slots : Size) :
    isUpperHalf (text (header l r slots)) = false :=
  isLabelled_header _ isMark_upperHalf l r slots

theorem isOutOfRange_fault (n : Size) (f : Fault) (hn : n.toNat < 10 ^ 4) :
    isOutOfRange (text (fault n f)) :=
  isLabelled_phrase n "<out-of-range>" _ hn (by decide)

theorem isOutOfRange_upperHalf (n owner : Size) (high : Quadword) (hn : n.toNat < 10 ^ 4) :
    isOutOfRange (text (upperHalf n owner high)) = false :=
  isLabelled_phrase_eq_false n _ "(upper half)" _ '(' '<' hn (by decide) rfl rfl (by decide)

def Carries (slot : Nat) (record : String) : Prop :=
  ∃ rest, record = "[" ++ Numeral.decimal 4 slot ++ "] " ++ rest

theorem toNat_slot (slot : Nat) (h : slot < 10 ^ 4) : (BitVec.ofNat 64 slot).toNat = slot := by
  rw [BitVec.toNat_ofNat]
  exact Nat.mod_eq_of_lt (by omega)

theorem carries_caption (slot : Nat) (label rest : String) (h : slot < 10 ^ 4) :
    Carries slot (caption (.ofNat 64 slot) label ++ rest) := by
  have hslot := toNat_slot slot h
  refine ⟨padded 16 label ++ rest, ?_⟩
  simp [caption, index, hslot, String.append_assoc]

end Record

end DescriptorTables
