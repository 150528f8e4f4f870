import DescriptorTables.Proofs.RecordWidths

namespace DescriptorTables

/-- The bit for code is one of the four that a type is written with, so it makes no type longer. -/
theorem SegmentEntry.type_lt_iff (s : SegmentEntry) : s.type < 2 ^ 4 ↔ s.access.toNat < 2 ^ 4 := by
  have hcode : (if s.kind = .code then 8 else 0 : BitVec 8).toNat < 2 ^ 4 := by
    split <;> decide
  rw [type, BitVec.toNat_or]
  exact ⟨fun h => Nat.lt_of_le_of_lt Nat.left_le_or h, fun h => Nat.or_lt_two_pow h hcode⟩

namespace Record

/-- A segment with access bits beyond the four that can be written, at an index and with an address
of as many digits as there can be. -/
structure Overlong (mode : Mode) (n : Size) (s : SegmentEntry) : Prop where
  access : 15 < s.access.toNat
  index : (Numeral.decimal 4 n.toNat).toList.length = 20
  address : (Numeral.upperHexDigits mode.hexWidth s.base.toNat).length = 16

def lastAttribute (s : SegmentEntry) : String :=
  if s.access.getLsbD 0 then "A" else "-"

theorem utf8ByteSize_segment (mode : Mode) (n : Size) (s : SegmentEntry) :
    (entry mode n (.segment s)).text.utf8ByteSize =
      (Numeral.decimal 4 n.toNat).toList.length +
        (Numeral.upperHexDigits mode.hexWidth s.base.toNat).length +
        (Numeral.upperHexDigits 1 s.type).length + 123 := by
  have hsize := utf8ByteSize_described mode n s.columns (segmentFlags s) s.wellFormed_columns
  have haddress : hexOrDashes mode.hexWidth (s.columns.address.map BitVec.toNat) =
      Numeral.upperHex mode.hexWidth s.base.toNat := rfl
  have htype : s.columns.type = s.type := rfl
  rw [(Ascii.decimal 4 n.toNat).utf8ByteSize_eq, haddress, htype, utf8ByteSize_segmentFlags,
    Numeral.utf8ByteSize_upperHex_eq, Numeral.utf8ByteSize_upperHex_eq] at hsize
  change (described mode n s.columns (segmentFlags s)).text.utf8ByteSize = _
  rw [hsize]
  omega

theorem segment_cases (mode : Mode) (n : Size) (s : SegmentEntry) :
    (¬ Overlong mode n s ∧ Fits (entry mode n (.segment s))) ∨
      (Overlong mode n s ∧ (entry mode n (.segment s)).text.utf8ByteSize = capacity + 1) := by
  have hsize := utf8ByteSize_segment mode n s
  have hindex := Numeral.utf8ByteSize_decimal_toNat_le 4 n (by decide)
  rw [(Ascii.decimal 4 n.toNat).utf8ByteSize_eq] at hindex
  have haddress := (Numeral.length_upperHexDigits_le_iff mode.hexWidth 16 s.base.toNat (by decide)
    mode.hexWidth_le).mpr (Nat.lt_of_lt_of_le s.base.isLt (by decide))
  have htype := (Numeral.length_upperHexDigits_le_iff 1 2 s.type (by decide) (by decide)).mpr
    (BitVec.isLt _)
  have haccess : (Numeral.upperHexDigits 1 s.type).length ≤ 1 ↔ s.access.toNat < 2 ^ 4 :=
    (Numeral.length_upperHexDigits_le_iff 1 1 s.type (by decide) (by decide)).trans s.type_lt_iff
  rw [Fits, hsize, capacity]
  by_cases h : Overlong mode n s
  · have hwide := h.access
    have hdigits := h.index
    have hlong := h.address
    exact .inr ⟨h, by omega⟩
  · refine .inl ⟨h, Nat.le_of_not_lt fun hover => h ⟨?_, ?_, ?_⟩⟩ <;> omega

theorem text_segment_of_overlong (mode : Mode) (n : Size) (s : SegmentEntry)
    (h : (entry mode n (.segment s)).text.utf8ByteSize = capacity + 1) :
    (entry mode n (.segment s)).text = text (entry mode n (.segment s)) ++ lastAttribute s ∧
      (text (entry mode n (.segment s))).utf8ByteSize = capacity := by
  have hlast : (lastAttribute s).utf8ByteSize = 1 := by
    rw [lastAttribute]
    split <;> rfl
  have hline : entry mode n (.segment s) =
      (index n :: columns mode s.columns) ++ [(segmentFlags s).dropLast ++ [lastAttribute s]] := rfl
  have htext := Line.text_append_last (index n :: columns mode s.columns) (segmentFlags s).dropLast
    (lastAttribute s)
  rw [← hline] at htext
  have hsize := congrArg String.utf8ByteSize htext
  rw [h, String.utf8ByteSize_append, hlast] at hsize
  have hfits := Nat.succ.inj hsize
  have hclip := Line.clip_of_last_over capacity (index n :: columns mode s.columns)
    (segmentFlags s).dropLast (lastAttribute s) (Nat.le_of_eq hfits.symm) (by omega)
  rw [← hline] at hclip
  rw [text, hclip]
  exact ⟨htext, hfits.symm⟩

theorem fits_entry_of_not_overlong (mode : Mode) (n : Size) (e : Entry)
    (h : ∀ s, e = .segment s → ¬ Overlong mode n s) : Fits (entry mode n e) := by
  cases e with
  | segment s =>
    obtain ⟨-, hfits⟩ | ⟨hoverlong, -⟩ := segment_cases mode n s
    · exact hfits
    · exact absurd hoverlong (h s rfl)
  | system s =>
    refine fits_entry mode n _ fun c flags hc => ?_
    cases hc
    exact s.kind.type_lt
  | reserved raw unrecognized => exact fits_entry mode n _ fun c flags hc => by cases hc

theorem size_of_overlong (mode : Mode) (n : Size) (s : SegmentEntry) (h : Overlong mode n s) :
    (entry mode n (.segment s)).text.utf8ByteSize = capacity + 1 := by
  obtain ⟨hnot, -⟩ | ⟨-, hsize⟩ := segment_cases mode n s
  · exact absurd h hnot
  · exact hsize

theorem extract_of_fits (line : Line) (h : Fits line) :
    line.text.toByteArray.extract 0 capacity = line.text.toByteArray := by
  have hsize : line.text.toByteArray.size ≤ capacity := h
  ext1
  rw [ByteArray.data_extract]
  exact Array.extract_eq_self_of_le hsize

theorem text_entry_eq_extract (mode : Mode) (n : Size) (e : Entry) :
    (text (entry mode n e)).toByteArray =
      (entry mode n e).text.toByteArray.extract 0 capacity := by
  by_cases h : ∃ s, e = .segment s ∧ Overlong mode n s
  · obtain ⟨s, rfl, hoverlong⟩ := h
    obtain ⟨htext, hsize⟩ := text_segment_of_overlong mode n s (size_of_overlong mode n s hoverlong)
    rw [htext, String.toByteArray_append]
    exact (ByteArray.extract_append_eq_left hsize.symm).symm
  · have hfits := fits_entry_of_not_overlong mode n e fun s he hs => h ⟨s, he, hs⟩
    rw [extract_of_fits _ hfits, text_of_fits _ hfits]

/-- No record is cut but the one of an overlong segment, and that one only at its last letter. -/
theorem text_eq_start (l : Layout) :
    (∀ (n : Size) (e : Entry),
      (text (entry l.mode n e)).toByteArray =
        (entry l.mode n e).text.toByteArray.extract 0 160 ∧
      ((∀ s, e = .segment s → ¬ Overlong l.mode n s) →
        (entry l.mode n e).text.utf8ByteSize ≤ 160 ∧
          text (entry l.mode n e) = (entry l.mode n e).text) ∧
      ∀ s, e = .segment s → Overlong l.mode n s →
        (entry l.mode n e).text.utf8ByteSize = 161 ∧
          (entry l.mode n e).text = text (entry l.mode n e) ++ lastAttribute s) ∧
    (∀ n owner high, (upperHalf n owner high).text.utf8ByteSize ≤ 160 ∧
      text (upperHalf n owner high) = (upperHalf n owner high).text) ∧
    (∀ n f, (fault n f).text.utf8ByteSize ≤ 160 ∧ text (fault n f) = (fault n f).text) ∧
    (∀ f, (warning f).text.utf8ByteSize ≤ 160 ∧ text (warning f) = (warning f).text) ∧
    (∀ r, (raw r).text.utf8ByteSize ≤ 160 ∧ text (raw r) = (raw r).text) ∧
    ∀ r slots, (header l r slots).text.utf8ByteSize ≤ 160 ∧
      text (header l r slots) = (header l r slots).text := by
  have hwhole : ∀ line, Fits line → line.text.utf8ByteSize ≤ 160 ∧ text line = line.text :=
    fun line h => ⟨h, text_of_fits line h⟩
  refine ⟨fun n e => ⟨text_entry_eq_extract l.mode n e, fun h => ?_, ?_⟩,
    fun n owner high => hwhole _ (fits_upperHalf n owner high),
    fun n f => hwhole _ (fits_fault n f), fun f => hwhole _ (fits_warning f),
    fun r => hwhole _ (fits_raw r), fun r slots => hwhole _ (fits_header l r slots)⟩
  · apply hwhole
    exact fits_entry_of_not_overlong l.mode n e h
  · rintro s rfl hoverlong
    have hsize := size_of_overlong l.mode n s hoverlong
    exact ⟨hsize, (text_segment_of_overlong l.mode n s hsize).1⟩

/-- The longest line there is, of a segment that cannot be written. -/
theorem text_of_longest_segment :
    let l : Layout := ⟨.global, .long64⟩
    let s : SegmentEntry := { SegmentEntry.decode 0xFFFFFFFFFFFFFFFF with access := 0xFF }
    Overlong l.mode (.allOnes 64) s ∧
      (entry l.mode (.allOnes 64) (.segment s)).text.utf8ByteSize = 161 ∧
        (entry l.mode (.allOnes 64) (.segment s)).text =
          text (entry l.mode (.allOnes 64) (.segment s)) ++ "A" := by
  intro l s
  have h : Overlong l.mode (.allOnes 64) s :=
    ⟨by decide, by decide +kernel, Numeral.length_upperHexDigits 16 _ (by decide) (by decide)⟩
  have hlast : lastAttribute s = "A" := if_pos (by decide)
  have htext := ((text_eq_start l).1 (.allOnes 64) (.segment s)).2.2 s rfl h
  rw [hlast] at htext
  exact ⟨h, htext⟩

end Record

end DescriptorTables
