import Mathlib.Data.List.Induction
import DescriptorTables.Output
import DescriptorTables.Proofs.FixedColumns

namespace DescriptorTables

def OneLine (text : String) : Prop :=
  '\n' ∉ text.toList

instance (text : String) : Decidable (OneLine text) :=
  inferInstanceAs (Decidable (_ ∉ _))

theorem OneLine.of_printable {text : String} (h : Printable text) : OneLine text :=
  fun hend => absurd ((Between.iff_forall_mem text).mp h '\n' hend).1 (by decide)

theorem Table.oneLine_records (t : Table) (o : Options) (region : Region) :
    ∀ record ∈ t.records o region, OneLine record :=
  fun record h => .of_printable (t.legible_records o region record h).2

theorem utf8ByteSize_append_end (text : String) :
    (text ++ "\n").utf8ByteSize = text.utf8ByteSize + 1 :=
  String.utf8ByteSize_append

namespace Phrase

variable {c : Nat} {written record : String}

theorem appendTo_line_of_lt (h : written.utf8ByteSize + record.utf8ByteSize < c) :
    appendTo (some c) written [record, "\n"] = written ++ record ++ "\n" := by
  have hend : (written ++ record).utf8ByteSize + "\n".utf8ByteSize ≤ c := by
    rw [← String.utf8ByteSize_append, utf8ByteSize_append_end, String.utf8ByteSize_append]
    exact h
  rw [appendTo, if_pos ((Capacity.admits_some _ _).mpr (Nat.le_of_lt h)), appendTo,
    if_pos ((Capacity.admits_some _ _).mpr hend), appendTo]

theorem appendTo_line_of_eq (h : written.utf8ByteSize + record.utf8ByteSize = c) :
    appendTo (some c) written [record, "\n"] = written ++ record := by
  have hend : ¬ (written ++ record).utf8ByteSize + "\n".utf8ByteSize ≤ c := by
    rw [← String.utf8ByteSize_append, utf8ByteSize_append_end, String.utf8ByteSize_append, h]
    exact Nat.not_succ_le_self c
  rw [appendTo, if_pos ((Capacity.admits_some _ _).mpr (Nat.le_of_eq h)), appendTo,
    if_neg (mt (Capacity.admits_some _ _).mp hend)]

theorem appendTo_line_of_gt (h : c < written.utf8ByteSize + record.utf8ByteSize) :
    appendTo (some c) written [record, "\n"] = written := by
  rw [appendTo, if_neg (mt (Capacity.admits_some _ _).mp (Nat.not_le.mpr h))]

/-- Nothing gets into a full text, a record without characters included. -/
theorem appendTo_line_of_full (h : written.utf8ByteSize = c) :
    appendTo (some c) written [record, "\n"] = written := by
  by_cases hempty : record.utf8ByteSize = 0
  · have hrecord : record = "" := String.utf8ByteSize_eq_zero_iff.mp hempty
    rw [appendTo_line_of_eq (by omega), hrecord, String.append_empty]
  · exact appendTo_line_of_gt (by omega)

end Phrase

namespace Output

/-- What stands before each line end of a text, and what stands after the last one. -/
def lines (text : String) : List String :=
  (text.toList.splitOn '\n').map String.ofList

def terminated (records : List String) : String :=
  String.join (records.map (· ++ "\n"))

theorem terminated_cons (record : String) (records : List String) :
    terminated (record :: records) = record ++ "\n" ++ terminated records := by
  rw [terminated, List.map_cons, String.join_cons, terminated]

theorem terminated_concat (records : List String) (record : String) :
    terminated (records ++ [record]) = terminated records ++ (record ++ "\n") := by
  rw [terminated, List.map_append, String.join_append, List.map_singleton, String.join_cons,
    String.join_nil, String.append_empty, terminated]

theorem lines_terminated_append (records : List String) (last : String)
    (hrecords : ∀ record ∈ records, OneLine record) (hlast : OneLine last) :
    lines (terminated records ++ last) = records ++ [last] := by
  induction records with
  | nil =>
    rw [lines, terminated, List.map_nil, String.join_nil, String.empty_append,
      List.splitOn_eq_singleton hlast, List.map_singleton, String.ofList_toList, List.nil_append]
  | cons record rest ih =>
    have hchars : (terminated (record :: rest) ++ last).toList =
        record.toList ++ '\n' :: (terminated rest ++ last).toList := by
      rw [terminated_cons, String.append_assoc, String.append_assoc, String.toList_append,
        String.toList_append]
      rfl
    have ih := ih fun r hr => hrecords r (List.mem_cons_of_mem record hr)
    rw [lines] at ih
    rw [lines, hchars, List.splitOn_append_cons_self,
      List.splitOn_eq_singleton (hrecords record List.mem_cons_self), List.map_append, ih,
      List.map_singleton, String.ofList_toList]
    rfl

theorem text_none (records : List String) : text none records = terminated records := by
  rw [text, Line.clip_none, Line.text]
  induction records with
  | nil => rfl
  | cons record rest ih =>
    rw [List.map_cons, List.flatten_cons, String.join_append, ih, terminated_cons, String.join_cons,
      String.join_cons, String.join_nil, String.append_empty]

theorem text_append (capacity : Capacity) (records later : List String) :
    text capacity (records ++ later) =
      (later.map fun record => [record, "\n"]).foldl (Phrase.appendTo capacity)
        (text capacity records) := by
  rw [text, text, Line.clip, Line.clip, List.map_append, List.foldl_append]

theorem text_append_cons (capacity : Capacity) (records later : List String) (record : String) :
    text capacity (records ++ record :: later) =
      (later.map fun record => [record, "\n"]).foldl (Phrase.appendTo capacity)
        (Phrase.appendTo capacity (text capacity records) [record, "\n"]) := by
  rw [text_append, List.map_cons, List.foldl_cons]

theorem text_concat (capacity : Capacity) (records : List String) (record : String) :
    text capacity (records ++ [record]) =
      Phrase.appendTo capacity (text capacity records) [record, "\n"] :=
  text_append_cons capacity records [] record

theorem foldl_of_full (c : Nat) (written : String) (later : List String)
    (h : written.utf8ByteSize = c) :
    (later.map fun record => [record, "\n"]).foldl (Phrase.appendTo (some c)) written = written := by
  induction later with
  | nil => rfl
  | cons record rest ih =>
    rw [List.map_cons, List.foldl_cons, Phrase.appendTo_line_of_full h, ih]

/-- A text of limited size that holds some of the records, in order: each has a line end but for the
last one of a full text. -/
structure Holds (c : Nat) (records whole : List String) (last text : String) : Prop where
  text_eq : text = terminated whole ++ last
  size_le : text.utf8ByteSize ≤ c
  kept : last = "" ∧ whole.Sublist records ∨
    (whole ++ [last]).Sublist records ∧ text.utf8ByteSize = c

namespace Holds

variable {c : Nat} {records whole : List String} {last written : String}

theorem lines_eq (h : Holds c records whole last written)
    (hrecords : ∀ record ∈ records, OneLine record) : lines written = whole ++ [last] := by
  rw [h.text_eq]
  obtain ⟨rfl, hsub⟩ | ⟨hsub, -⟩ := h.kept
  · exact lines_terminated_append whole "" (fun r hr => hrecords r (hsub.subset hr)) (by decide)
  · have hkept : ∀ r ∈ whole ++ [last], OneLine r := fun r hr => hrecords r (hsub.subset hr)
    rw [List.forall_mem_append, List.forall_mem_singleton] at hkept
    exact lines_terminated_append whole last hkept.1 hkept.2

theorem weaken (h : Holds c records whole last written) (record : String) :
    Holds c (records ++ [record]) whole last written := by
  have hsub := List.sublist_append_left records [record]
  exact ⟨h.text_eq, h.size_le, h.kept.imp (.imp_right fun hw => hw.trans hsub)
    (.imp_left fun hw => hw.trans hsub)⟩

theorem of_room (h : Holds c records whole last written) (hroom : written.utf8ByteSize < c) :
    last = "" ∧ whole.Sublist records := by
  obtain hwhole | ⟨-, hfull⟩ := h.kept
  · exact hwhole
  · exact absurd hfull (Nat.ne_of_lt hroom)

theorem appendTo (h : Holds c records whole last written) (record : String) :
    ∃ whole last, Holds c (records ++ [record]) whole last
      (Phrase.appendTo (some c) written [record, "\n"]) := by
  obtain hlt | heq | hgt := Nat.lt_trichotomy (written.utf8ByteSize + record.utf8ByteSize) c
  · obtain ⟨rfl, hsub⟩ := h.of_room (Nat.lt_of_le_of_lt (Nat.le_add_right _ _) hlt)
    rw [Phrase.appendTo_line_of_lt hlt]
    refine ⟨whole ++ [record], "", ?_, ?_, .inl ⟨rfl, hsub.append_right [record]⟩⟩
    · rw [h.text_eq, terminated_concat, String.append_empty, String.append_empty,
        String.append_assoc]
    · rw [utf8ByteSize_append_end, String.utf8ByteSize_append]
      exact hlt
  · -- A full text is one that this record ends, or one that was full before an empty record.
    by_cases hfull : written.utf8ByteSize = c
    · rw [Phrase.appendTo_line_of_full hfull]
      exact ⟨whole, last, h.weaken record⟩
    · obtain ⟨rfl, hsub⟩ := h.of_room (Nat.lt_of_le_of_ne h.size_le hfull)
      have hnew : (written ++ record).utf8ByteSize = c := by
        rw [String.utf8ByteSize_append]
        exact heq
      rw [Phrase.appendTo_line_of_eq heq]
      refine ⟨whole, record, ?_, Nat.le_of_eq hnew, .inr ⟨hsub.append_right [record], hnew⟩⟩
      rw [h.text_eq, String.append_empty]
  · rw [Phrase.appendTo_line_of_gt hgt]
    exact ⟨whole, last, h.weaken record⟩

end Holds

theorem exists_holds_text (c : Nat) (records : List String) :
    ∃ whole last, Holds c records whole last (text (some c) records) := by
  induction records using List.reverseRecOn with
  | nil => exact ⟨[], "", rfl, Nat.zero_le c, .inl ⟨rfl, List.Sublist.refl []⟩⟩
  | append_singleton records record ih =>
    obtain ⟨whole, last, h⟩ := ih
    rw [text_concat]
    exact h.appendTo record

/-- A text of limited size tears no record, joins no two and keeps their order. -/
theorem limited_text_lines (c : Nat) (records : List String)
    (h : ∀ record ∈ records, OneLine record) :
    (∃ whole last, Holds c records whole last (text (some c) records) ∧
      lines (text (some c) records) = whole ++ [last]) ∧
    (∀ (record : String) (later : List String),
      let written := text (some c) records
      let room := c - written.utf8ByteSize
      (record.utf8ByteSize < room →
        text (some c) (records ++ [record]) = written ++ record ++ "\n") ∧
      (record.utf8ByteSize = room →
        text (some c) (records ++ record :: later) = written ++ record) ∧
      (room < record.utf8ByteSize →
        text (some c) (records ++ record :: later) = text (some c) (records ++ later))) ∧
    lines (text none records) = records ++ [""] ∧
    ∀ (t : Table) (o : Options) (region : Region),
      ∀ record ∈ t.records o region, OneLine record := by
  obtain ⟨whole, last, hholds⟩ := exists_holds_text c records
  have hsize := hholds.size_le
  refine ⟨⟨whole, last, hholds, hholds.lines_eq h⟩,
    fun record later => ⟨fun hlt => ?_, fun heq => ?_, fun hgt => ?_⟩, ?_, Table.oneLine_records⟩
  · rw [text_concat, Phrase.appendTo_line_of_lt (by omega)]
  · have hfull : (text (some c) records ++ record).utf8ByteSize = c := by
      rw [String.utf8ByteSize_append]
      omega
    rw [text_append_cons, Phrase.appendTo_line_of_eq (by omega), foldl_of_full _ _ _ hfull]
  · rw [text_append_cons, Phrase.appendTo_line_of_gt (by omega), text_append]
  · have hlines := lines_terminated_append records "" h (by decide)
    rwa [String.append_empty, ← text_none] at hlines

/-- Nine bytes, of which the second record would need more than the three that are left; what comes
then just fits, or is one byte over. -/
theorem limited_text_of_nine_bytes :
    let records := ["first", "longer"]
    (∀ record ∈ records, OneLine record) ∧ text (some 9) records = "first\n" ∧
      text (some 9) (records ++ ["ab"]) = "first\nab\n" ∧
      text (some 9) (records ++ "abc" :: ["d"]) = "first\nabc" ∧
      text (some 9) (records ++ "abcd" :: ["e"]) = text (some 9) (records ++ ["e"]) ∧
      lines (text none records) = ["first", "longer", ""] := by
  intro records
  have hline : ∀ record ∈ records, OneLine record := by decide
  have htext : text (some 9) records = "first\n" := by decide
  obtain ⟨-, hstep, hlines, -⟩ := limited_text_lines 9 records hline
  rw [htext] at hstep
  exact ⟨hline, htext, (hstep "ab" []).1 (by decide), (hstep "abc" ["d"]).2.1 (by decide),
    (hstep "abcd" ["e"]).2.2 (by decide), hlines⟩

end Output

end DescriptorTables
