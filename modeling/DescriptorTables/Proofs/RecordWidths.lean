import DescriptorTables.Proofs.RecordWords

namespace DescriptorTables

namespace Numeral

theorem utf8ByteSize_decimal_le (width k n : Nat) (hk : 0 < k) (hwidth : width ≤ k)
    (h : n < 10 ^ k) : (decimal width n).utf8ByteSize ≤ k := by
  have hdigits := (Nat.length_toDigits_le_iff (b := 10) (by decide) hk).mpr h
  rw [(Ascii.decimal width n).utf8ByteSize_eq, decimal, String.toList_ofList, List.length_leftpad]
  exact Nat.max_le.mpr ⟨hwidth, hdigits⟩

theorem utf8ByteSize_decimal (width n : Nat) (hwidth : 0 < width) (h : n < 10 ^ width) :
    (decimal width n).utf8ByteSize = width := by
  rw [(Ascii.decimal width n).utf8ByteSize_eq, length_decimal width n hwidth h]

theorem utf8ByteSize_decimal_toNat_le (width : Nat) (n : Size) (hwidth : width ≤ 20) :
    (decimal width n.toNat).utf8ByteSize ≤ 20 :=
  utf8ByteSize_decimal_le width 20 n.toNat (by decide) hwidth
    (Nat.lt_of_lt_of_le n.isLt (by decide))

theorem utf8ByteSize_upperHex_eq (width n : Nat) :
    (upperHex width n).utf8ByteSize = (upperHexDigits width n).length + 2 := by
  rw [(Visible.upperHex width n).printable.utf8ByteSize_eq, toList_upperHex, List.length_cons,
    List.length_cons]

theorem utf8ByteSize_upperHex_le (width k n : Nat) (hk : 0 < k) (hwidth : width ≤ k)
    (h : n < 16 ^ k) : (upperHex width n).utf8ByteSize ≤ 2 + k := by
  have hdigits := (length_upperHexDigits_le_iff width k n hk hwidth).mpr h
  rw [utf8ByteSize_upperHex_eq]
  omega

theorem utf8ByteSize_upperHex (width n : Nat) (hwidth : 0 < width) (h : n < 16 ^ width) :
    (upperHex width n).utf8ByteSize = 2 + width := by
  rw [utf8ByteSize_upperHex_eq, length_upperHexDigits width n hwidth h, Nat.add_comm]

theorem utf8ByteSize_upperHex_toNat_le (width : Nat) (n : Quadword) (hwidth : width ≤ 16) :
    (upperHex width n.toNat).utf8ByteSize ≤ 18 :=
  utf8ByteSize_upperHex_le width 16 n.toNat (by decide) hwidth
    (Nat.lt_of_lt_of_le n.isLt (by decide))

end Numeral

theorem Mode.hexWidth_le (mode : Mode) : mode.hexWidth ≤ 16 := by
  cases mode <;> decide

namespace Record

def Fits (line : Line) : Prop :=
  line.text.utf8ByteSize ≤ capacity

theorem text_of_fits (line : Line) (h : Fits line) : text line = line.text := by
  have hclip := Line.foldl_appendTo_of_fits capacity "" line (by rwa [String.empty_append])
  rwa [String.empty_append] at hclip

theorem utf8ByteSize_hexOrDashes (width : Nat) (value : Option Nat) (hwidth : 0 < width)
    (h : ∀ n, value = some n → n < 16 ^ width) :
    (hexOrDashes width value).utf8ByteSize = 2 + width := by
  cases value with
  | none =>
    rw [(visible_hexOrDashes width none).printable.utf8ByteSize_eq, hexOrDashes,
      String.toList_ofList, List.length_replicate, Nat.add_comm]
  | some n => exact Numeral.utf8ByteSize_upperHex width n hwidth (h n rfl)

theorem utf8ByteSize_hexOrDashes_bitVec {k : Nat} (width : Nat) (value : Option (BitVec k))
    (hwidth : 0 < width) (h : 2 ^ k ≤ 16 ^ width) :
    (hexOrDashes width (value.map BitVec.toNat)).utf8ByteSize = 2 + width := by
  refine utf8ByteSize_hexOrDashes width _ hwidth fun n hn => ?_
  obtain ⟨word, -, rfl⟩ := Option.map_eq_some_iff.mp hn
  exact Nat.lt_of_lt_of_le word.isLt h

theorem utf8ByteSize_hexOrDashes_le (width : Nat) (value : Option Quadword) (hwidth : width ≤ 16) :
    (hexOrDashes width (value.map BitVec.toNat)).utf8ByteSize ≤ 18 := by
  cases value with
  | none =>
    rw [Option.map_none, (visible_hexOrDashes width none).printable.utf8ByteSize_eq, hexOrDashes,
      String.toList_ofList, List.length_replicate]
    omega
  | some n => exact Numeral.utf8ByteSize_upperHex_toNat_le width n hwidth

theorem utf8ByteSize_indexWord (n : Size) :
    (indexWord n).utf8ByteSize = (Numeral.decimal 4 n.toNat).utf8ByteSize + 2 := by
  rw [indexWord, String.utf8ByteSize_append, String.utf8ByteSize_append]
  exact Nat.add_right_cancel_iff.mpr (Nat.add_comm 1 _)

theorem utf8ByteSize_indexWord_le (n : Size) : (indexWord n).utf8ByteSize ≤ 22 := by
  have hle := Numeral.utf8ByteSize_decimal_toNat_le 4 n (by decide)
  rw [utf8ByteSize_indexWord]
  omega

theorem sizes_cells (mode : Mode) (c : Columns) (h : c.WellFormed) :
    (cells mode c).map String.utf8ByteSize =
      [17, 5 + (hexOrDashes mode.hexWidth (c.address.map BitVec.toNat)).utf8ByteSize, 17, 11,
        6 + (Numeral.upperHex 1 c.type).utf8ByteSize, 4, 6, 1, 11, 1] := by
  have hlabel := h.utf8ByteSize_padded_label
  have hkeyword : c.keyword.utf8ByteSize = 4 := by
    obtain he | he := h.keyword <;> rw [he] <;> rfl
  have hlimit := utf8ByteSize_hexOrDashes_bitVec 8 c.limit (by decide) (by decide)
  have hselector := utf8ByteSize_hexOrDashes_bitVec 4 c.selector (by decide) (by decide)
  have hsystem : (digit (!c.isSystem)).utf8ByteSize = 1 := by
    cases c.isSystem <;> rfl
  have hring := Numeral.utf8ByteSize_decimal 1 c.ring.toNat (by decide)
    (Nat.lt_of_lt_of_le c.ring.isLt (by decide))
  have hpresent : (presence c.isPresent).utf8ByteSize ≤ 11 := by
    cases c.isPresent <;> decide
  have hpadded := utf8ByteSize_padded 11 _ (isWord_presence c.isPresent).1.printable hpresent
  simp only [cells, named, List.map_cons, List.map_nil, String.utf8ByteSize_append, hlabel,
    hkeyword, hlimit, hselector, hsystem, hring, hpadded]
  rfl

theorem utf8ByteSize_join (pieces : List String) :
    (String.join pieces).utf8ByteSize = (pieces.map String.utf8ByteSize).sum := by
  induction pieces with
  | nil => rfl
  | cons piece rest ih =>
    rw [String.join_cons, String.utf8ByteSize_append, ih, List.map_cons, List.sum_cons]

theorem utf8ByteSize_described (mode : Mode) (n : Size) (c : Columns) (flags : Phrase)
    (h : c.WellFormed) :
    (described mode n c flags).text.utf8ByteSize =
      (Numeral.decimal 4 n.toNat).utf8ByteSize +
        (hexOrDashes mode.hexWidth (c.address.map BitVec.toNat)).utf8ByteSize +
        (Numeral.upperHex 1 c.type).utf8ByteSize + (String.join flags).utf8ByteSize + 82 := by
  have hindex := utf8ByteSize_indexWord n
  have hspace : " ".utf8ByteSize = 1 := by decide
  have hcells := utf8ByteSize_join (cells mode c)
  rw [sizes_cells mode c h] at hcells
  simp only [List.sum_cons, List.sum_nil] at hcells
  rw [text_described]
  simp only [String.utf8ByteSize_append]
  omega

theorem fits_described (mode : Mode) (n : Size) (c : Columns) (flags : Phrase) (h : c.WellFormed)
    (htype : c.type < 16) (hflags : (String.join flags).utf8ByteSize ≤ 37) :
    Fits (described mode n c flags) := by
  have hindex := Numeral.utf8ByteSize_decimal_toNat_le 4 n (by decide)
  have haddress := utf8ByteSize_hexOrDashes_le mode.hexWidth c.address mode.hexWidth_le
  have htype := Numeral.utf8ByteSize_upperHex 1 c.type (by decide) htype
  rw [Fits, utf8ByteSize_described mode n c flags h, capacity]
  omega

theorem utf8ByteSize_segmentFlags (s : SegmentEntry) :
    (String.join (segmentFlags s)).utf8ByteSize = 37 := by
  have hgran : s.granularity.text.utf8ByteSize = 4 := by
    cases s.granularity <;> rfl
  have hop : (Numeral.decimal 1 s.operandSize.bits).utf8ByteSize = 2 := by
    cases s.operandSize <;> decide
  have hdigit : ∀ on, (digit on).utf8ByteSize = 1 := fun on => by
    cases on <;> rfl
  have hattributes : ∀ letter ∈ attributes s, letter.utf8ByteSize = 1 := by
    intro letter hletter
    simp only [attributes, List.mem_cons, List.not_mem_nil, or_false] at hletter
    obtain rfl | rfl | rfl := hletter
    · cases s.kind <;> split <;> rfl
    · cases s.kind <;> split <;> rfl
    · split <;> rfl
  have hattr : ((attributes s).map String.utf8ByteSize).sum = 3 := by
    rw [List.map_congr_left hattributes]
    rfl
  rw [utf8ByteSize_join, segmentFlags, List.map_append, List.sum_append, hattr]
  simp only [List.map_cons, List.map_nil, List.sum_cons, List.sum_nil, hgran, hdigit]
  have hnames : "gran=".utf8ByteSize = 5 ∧ " op=".utf8ByteSize = 4 ∧ " long=".utf8ByteSize = 6 ∧
      " avl=".utf8ByteSize = 5 ∧ " attr=".utf8ByteSize = 6 := by decide
  omega

theorem utf8ByteSize_systemFlags_le (s : SystemEntry) :
    (String.join (systemFlags s)).utf8ByteSize ≤ 37 := by
  have hnames : "gran".utf8ByteSize = 4 ∧ "ist".utf8ByteSize = 3 ∧ "parm".utf8ByteSize = 4 ∧
      "=".utf8ByteSize = 1 := by decide
  have hgran : s.granularity.text.utf8ByteSize = 4 := by
    cases s.granularity <;> rfl
  have hist := Numeral.utf8ByteSize_decimal_le 1 3 s.stackIndex.toNat (by decide) (by decide)
    (Nat.lt_of_lt_of_le s.stackIndex.isLt (by decide))
  have hparm := Numeral.utf8ByteSize_decimal_le 2 3 s.paramCount.toNat (by decide) (by decide)
    (Nat.lt_of_lt_of_le s.paramCount.isLt (by decide))
  rw [join_systemFlags, systemFlagWord]
  split
  · simp only [named, String.utf8ByteSize_append]
    omega
  · split
    · simp only [named, String.utf8ByteSize_append]
      omega
    · split
      · simp only [named, String.utf8ByteSize_append]
        omega
      · decide

theorem utf8ByteSize_raw_le (raw : RawEntry) : raw.text.utf8ByteSize ≤ 35 := by
  have hlow := Numeral.utf8ByteSize_upperHex_toNat_le 16 raw.low (by decide)
  obtain ⟨low, _ | high⟩ := raw
  · exact Nat.le_trans hlow (by decide)
  · have hhigh := Numeral.utf8ByteSize_upperHex_toNat_le 16 high (by decide)
    have hdigits : (Numeral.upperHexDigits 16 low.toNat).length = 16 :=
      Numeral.length_upperHexDigits 16 _ (by decide) (Nat.lt_of_lt_of_le low.isLt (by decide))
    have hsize := (Visible.ofHexDigits 16 low.toNat).printable.utf8ByteSize_eq
    rw [String.toList_ofList, hdigits] at hsize
    have hbar : "_".utf8ByteSize = 1 := by decide
    simp only [RawEntry.text, String.utf8ByteSize_append]
    omega

theorem fits_entry (mode : Mode) (n : Size) (e : Entry)
    (h : ∀ c flags, e.columns? = some (c, flags) → c.type < 16) : Fits (entry mode n e) := by
  cases e with
  | segment s =>
    have hflags := Nat.le_of_eq (utf8ByteSize_segmentFlags s)
    exact fits_described mode n _ _ s.wellFormed_columns (h _ _ rfl) hflags
  | system s =>
    have hflags := utf8ByteSize_systemFlags_le s
    exact fits_described mode n _ _ s.wellFormed_columns (h _ _ rfl) hflags
  | reserved raw unrecognized =>
    have hindex := utf8ByteSize_indexWord_le n
    have hraw := utf8ByteSize_raw_le raw
    have hlabel := (Entry.reserved raw unrecognized).utf8ByteSize_padded_label
    have hnames : " ".utf8ByteSize = 1 ∧ "raw".utf8ByteSize = 3 ∧ "=".utf8ByteSize = 1 := by decide
    rw [Fits, text_reserved]
    simp only [String.utf8ByteSize_append, named, capacity, hlabel]
    omega

theorem fits_raw (r : RawEntry) : Fits (raw r) := by
  have hraw := utf8ByteSize_raw_le r
  have hname : "       raw=".utf8ByteSize = 11 := by decide
  simp only [Fits, raw, Line.text, List.flatten_cons, List.flatten_nil, List.append_nil,
    String.join_cons, String.join_nil, String.append_empty, String.utf8ByteSize_append, capacity]
  omega

theorem text_phrase (n : Size) (label : String) (rest : Phrase) :
    Line.text [index n ++ padded 16 label :: rest] =
      indexWord n ++ (" " ++ (padded 16 label ++ String.join rest)) := by
  simp only [Line.text, List.flatten_cons, List.flatten_nil, List.append_nil, String.join_append,
    join_index, String.join_cons, String.append_assoc]

theorem fits_phrase (n : Size) (label : String) (rest : Phrase)
    (hlabel : (padded 16 label).utf8ByteSize = 16) (h : (String.join rest).utf8ByteSize ≤ 121) :
    Fits [index n ++ padded 16 label :: rest] := by
  have hindex := utf8ByteSize_indexWord_le n
  have hspace : " ".utf8ByteSize = 1 := by decide
  rw [Fits, text_phrase]
  simp only [String.utf8ByteSize_append, capacity]
  omega

theorem fits_upperHalf (n owner : Size) (high : Quadword) : Fits (upperHalf n owner high) := by
  have hhigh := Numeral.utf8ByteSize_upperHex_toNat_le 16 high (by decide)
  have howner := Numeral.utf8ByteSize_decimal_toNat_le 4 owner (by decide)
  have hnames : " raw=".utf8ByteSize = 5 ∧ " of=[".utf8ByteSize = 5 ∧ "]".utf8ByteSize = 1 := by
    decide
  refine fits_phrase n _ _ (by decide) ?_
  simp only [String.join_cons, String.join_nil, String.append_empty, String.utf8ByteSize_append]
  omega

theorem utf8ByteSize_message_le (f : Fault) : f.message.utf8ByteSize ≤ 107 := by
  cases f with
  | outOfRange slot offset size =>
    have hslot := Numeral.utf8ByteSize_decimal_toNat_le 1 slot (by decide)
    have hoffset := Numeral.utf8ByteSize_upperHex_toNat_le 1 offset (by decide)
    have hsize := Numeral.utf8ByteSize_upperHex_toNat_le 1 size (by decide)
    have hnames : "slot ".utf8ByteSize = 5 ∧ " at offset ".utf8ByteSize = 11 ∧
        " lies beyond the ".utf8ByteSize = 17 ∧ "-byte table region".utf8ByteSize = 18 := by
      decide
    simp only [Fault.message, String.utf8ByteSize_append]
    omega
  | malformedTable size slotSize =>
    have hsize := Numeral.utf8ByteSize_upperHex_toNat_le 1 size (by decide)
    have hslot := Numeral.utf8ByteSize_decimal_toNat_le 1 slotSize (by decide)
    have hnames : "table size ".utf8ByteSize = 11 ∧
        " is not a multiple of the ".utf8ByteSize = 26 ∧
        "-byte entry size".utf8ByteSize = 16 := by decide
    simp only [Fault.message, String.utf8ByteSize_append]
    omega

theorem fits_fault (n : Size) (f : Fault) : Fits (fault n f) := by
  have hmessage := utf8ByteSize_message_le f
  have hspace : " ".utf8ByteSize = 1 := by decide
  refine fits_phrase n _ _ (by decide) ?_
  simp only [String.join_cons, String.join_nil, String.append_empty, String.utf8ByteSize_append]
  omega

theorem fits_warning (f : Fault) : Fits (warning f) := by
  have hmessage := utf8ByteSize_message_le f
  have hname : "warning: ".utf8ByteSize = 9 := by decide
  simp only [Fits, warning, Line.text, List.flatten_cons, List.flatten_nil, List.append_nil,
    String.join_cons, String.join_nil, String.append_empty, String.utf8ByteSize_append, capacity]
  omega

theorem text_header (l : Layout) (r : Register) (slots : Size) :
    (header l r slots).text =
      l.kind.text ++ (" " ++ (named "base" (Numeral.upperHex l.mode.hexWidth r.base.toNat) ++
        (" limit=" ++ (Numeral.upperHex 4 r.limit.toNat ++ (" mode=" ++ (l.mode.text ++
        (" entry=" ++ (Numeral.decimal 1 l.slotSize ++ (" slots=" ++
        Numeral.decimal 4 slots.toNat))))))))) := by
  have haddress := join_address l.mode "base" (some r.base)
  rw [Option.map_some, hexOrDashes] at haddress
  simp only [header, Line.text, List.flatten_cons, List.flatten_nil, List.append_nil,
    String.join_append, haddress, String.join_cons, String.join_nil, String.append_empty,
    String.append_assoc]

theorem fits_header (l : Layout) (r : Register) (slots : Size) : Fits (header l r slots) := by
  have hbase := Numeral.utf8ByteSize_upperHex_toNat_le l.mode.hexWidth r.base l.mode.hexWidth_le
  have hlimit := Numeral.utf8ByteSize_upperHex 4 r.limit.toNat (by decide)
    (Nat.lt_of_lt_of_le r.limit.isLt (by decide))
  have hslots := Numeral.utf8ByteSize_decimal_toNat_le 4 slots (by decide)
  have hkind : l.kind.text.utf8ByteSize = 3 := by
    cases l.kind <;> rfl
  have hmode : l.mode.text.utf8ByteSize ≤ 11 := by
    cases l.mode <;> decide
  have hentry : (Numeral.decimal 1 l.slotSize).utf8ByteSize ≤ 2 :=
    Numeral.utf8ByteSize_decimal_le 1 2 _ (by decide) (by decide) (by
      unfold Layout.slotSize
      split <;> decide)
  have hnames : " ".utf8ByteSize = 1 ∧ "base".utf8ByteSize = 4 ∧ "=".utf8ByteSize = 1 ∧
      " limit=".utf8ByteSize = 7 ∧ " mode=".utf8ByteSize = 6 ∧ " entry=".utf8ByteSize = 7 ∧
      " slots=".utf8ByteSize = 7 := by decide
  rw [Fits, text_header]
  simp only [String.utf8ByteSize_append, named, capacity]
  omega

end Record

end DescriptorTables
