import DescriptorTables.Proofs.Accounting
import DescriptorTables.Proofs.DistinctRecords

namespace DescriptorTables

/-- Texts that can be shown on a line of their own. -/
def Legible (text : String) : Prop :=
  text ≠ "" ∧ Printable text

theorem Legible.append {a b : String} (ha : Legible a) (hb : Printable b) : Legible (a ++ b) := by
  refine ⟨fun he => ha.1 ?_, ha.2.append hb⟩
  have hchars := congrArg String.toList he
  rw [String.toList_append] at hchars
  exact String.toList_eq_nil_iff.mp (List.append_eq_nil_iff.mp hchars).1

theorem IsWord.legible {text : String} (h : IsWord text) : Legible text :=
  ⟨h.2, h.1.printable⟩

namespace Fault

theorem printable_message (f : Fault) : Printable f.message := by
  have hdecimal := fun n => (Visible.decimal 1 n).printable
  have hhex := fun n => (Visible.upperHex 1 n).printable
  have hslot : Printable "slot " := by decide
  have hsize : Printable "table size " := by decide
  cases f with
  | outOfRange slot offset size =>
    exact ((((((hslot.append (hdecimal _)).append (by decide)).append (hhex _)).append
      (by decide)).append (hhex _)).append (by decide))
  | malformedTable size slotSize =>
    exact (((hsize.append (hhex _)).append (by decide)).append (hdecimal _)).append (by decide)

end Fault

namespace Record

theorem legible_indexWord (n : Size) : Legible (indexWord n) :=
  (isWord_indexWord n).legible

theorem printable_cells (mode : Mode) (c : Columns) (h : c.WellFormed) :
    ∀ cell ∈ cells mode c, Printable cell := by
  have hspace : Printable " " := by decide
  have haddress := isWord_named c.keyword _ h.visible_keyword
    (visible_hexOrDashes mode.hexWidth (c.address.map BitVec.toNat))
  have hhex := fun width value => (visible_hexOrDashes width value).printable
  have hpresent := printable_padded 11 _ (isWord_presence c.isPresent).1.printable
  simp only [cells, List.forall_mem_cons]
  exact ⟨(printable_padded 16 _ h.label.1.1.printable).append hspace, haddress.1.printable,
    Between.append (by decide) (hhex _ _), Between.append (by decide) (hhex _ _),
    Between.append (by decide) (Visible.upperHex 1 _).printable,
    Between.append (by decide) (visible_digit _).printable,
    Between.append (by decide) (Visible.decimal 1 _).printable, hspace, hpresent, hspace,
    fun cell hcell => by cases hcell⟩

theorem printable_segmentFlags (s : SegmentEntry) : Printable (String.join (segmentFlags s)) := by
  have hspace : Printable " " := by decide
  have hwords := isWord_segmentFlagWords s
  simp only [segmentFlagWords, List.forall_mem_cons] at hwords
  obtain ⟨hgran, hop, hlong, havl, hattr, -⟩ := hwords
  rw [join_segmentFlags]
  exact hgran.legible.2.append (hspace.append (hop.legible.2.append (hspace.append
    (hlong.legible.2.append (hspace.append (havl.legible.2.append (hspace.append
      hattr.legible.2)))))))

theorem printable_systemFlags (s : SystemEntry) : Printable (String.join (systemFlags s)) := by
  rw [join_systemFlags]
  exact (isWord_systemFlagWord s).1.printable

theorem legible_described (mode : Mode) (n : Size) (c : Columns) (flags : Phrase)
    (h : c.WellFormed) (hflags : Printable (String.join flags)) :
    Legible (described mode n c flags).text := by
  have hspace : Printable " " := by decide
  have hcells := Between.join (printable_cells mode c h)
  rw [text_described]
  exact (legible_indexWord n).append (hspace.append (hcells.append hflags))

theorem legible_entry (mode : Mode) (n : Size) (e : Entry) : Legible (entry mode n e).text := by
  cases e with
  | segment s => exact legible_described mode n _ _ s.wellFormed_columns (printable_segmentFlags s)
  | system s => exact legible_described mode n _ _ s.wellFormed_columns (printable_systemFlags s)
  | reserved raw unrecognized =>
    have hspace : Printable " " := by decide
    have hlabel := (Entry.reserved raw unrecognized).printable_padded_label
    have hraw := isWord_named "raw" raw.text (by decide) (visible_raw raw)
    have hrest := hlabel.append (hspace.append hraw.legible.2)
    rw [text_reserved]
    exact (legible_indexWord n).append (hspace.append hrest)

theorem legible_phrase (n : Size) (label : String) (rest : Phrase)
    (hlabel : Printable (padded 16 label)) (h : Printable (String.join rest)) :
    Legible (Line.text [index n ++ padded 16 label :: rest]) := by
  have hspace : Printable " " := by decide
  rw [text_phrase]
  exact (legible_indexWord n).append (hspace.append (hlabel.append h))

theorem legible_upperHalf (n owner : Size) (high : Quadword) :
    Legible (upperHalf n owner high).text := by
  refine legible_phrase n _ _ (by decide) (Between.join ?_)
  simp only [List.forall_mem_cons]
  exact ⟨by decide, (Visible.upperHex 16 _).printable, by decide, (Visible.decimal 4 _).printable,
    by decide, fun piece hpiece => by cases hpiece⟩

theorem legible_fault (n : Size) (f : Fault) : Legible (fault n f).text := by
  refine legible_phrase n _ _ (by decide) (Between.join ?_)
  simp only [List.forall_mem_cons]
  exact ⟨by decide, f.printable_message, fun piece hpiece => by cases hpiece⟩

theorem text_raw (r : RawEntry) : (raw r).text = "       raw=" ++ r.text := by
  simp only [raw, Line.text, List.flatten_cons, List.flatten_nil, List.append_nil,
    String.join_cons, String.join_nil, String.append_empty]

theorem legible_raw (r : RawEntry) : Legible (raw r).text := by
  have hname : Legible "       raw=" := ⟨by decide, by decide⟩
  rw [text_raw]
  exact hname.append (visible_raw r).printable

theorem legible_warning (f : Fault) : Legible (warning f).text := by
  have hname : Legible "warning: " := ⟨by decide, by decide⟩
  have htext : (warning f).text = "warning: " ++ f.message := by
    simp only [warning, Line.text, List.flatten_cons, List.flatten_nil, List.append_nil,
      String.join_cons, String.join_nil, String.append_empty]
  rw [htext]
  exact hname.append f.printable_message

theorem legible_header (l : Layout) (r : Register) (slots : Size) :
    Legible (header l r slots).text := by
  have hkind : Legible l.kind.text := by
    cases l.kind <;> exact ⟨by decide, by decide⟩
  have hmode : Printable l.mode.text := by
    cases l.mode <;> decide
  have hbase := isWord_named "base" _ (by decide) (Visible.upperHex l.mode.hexWidth r.base.toNat)
  rw [text_header]
  exact hkind.append (Between.append (by decide) (hbase.legible.2.append
    (Between.append (by decide) ((Visible.upperHex 4 _).printable.append
    (Between.append (by decide) (hmode.append (Between.append (by decide)
    ((Visible.decimal 1 _).printable.append (Between.append (by decide)
    (Visible.decimal 4 _).printable)))))))))

end Record

namespace Visit

def label (l : Layout) (slot : Nat) : Visit → String
  | missing _ _ => "<out-of-range>"
  | found index raw => if slot = index then (l.decode raw).label else "(upper half)"

theorem mem_lines_found (l : Layout) (o : Options) (index : Nat) (raw : RawEntry) (line : Line)
    (h : line ∈ (found index raw).lines l o) :
    line = Record.entry l.mode (.ofNat 64 index) (l.decode raw) ∨ line = Record.raw raw ∨
      l.span (l.decode raw) = 2 ∧
        ∃ high, line = Record.upperHalf (.ofNat 64 (index + 1)) (.ofNat 64 index) high := by
  rw [lines] at h
  split at h
  · cases h
  · rw [List.cons_append, List.mem_cons, List.mem_append] at h
    obtain h | h | h := h
    · exact .inl h
    · split at h
      · exact .inr (.inl (List.mem_singleton.mp h))
      · cases h
    · unfold upperHalf at h
      split at h
      · rename_i high hspan hhigh
        exact .inr (.inr ⟨hspan, high, List.mem_singleton.mp h⟩)
      · cases h

theorem fits_lines (l : Layout) (o : Options) (v : Visit) :
    ∀ line ∈ v.lines l o, Record.Fits line := by
  intro line hline
  cases v with
  | missing index fault =>
    rw [List.mem_singleton.mp hline]
    exact Record.fits_fault _ fault
  | found index raw =>
    obtain rfl | rfl | ⟨-, high, rfl⟩ := mem_lines_found l o index raw line hline
    · exact Record.fits_entry _ _ _ (l.tidy_decode raw).type_lt
    · exact Record.fits_raw raw
    · exact Record.fits_upperHalf _ _ high

/-- No record about a slot is ever cut. -/
theorem records_eq (l : Layout) (o : Options) (v : Visit) :
    v.records l o = (v.lines l o).map Line.text :=
  List.map_congr_left fun line hline => Record.text_of_fits line (fits_lines l o v line hline)

theorem legible_lines (l : Layout) (o : Options) (v : Visit) :
    ∀ line ∈ v.lines l o, Legible line.text := by
  intro line hline
  cases v with
  | missing index fault =>
    rw [List.mem_singleton.mp hline]
    exact Record.legible_fault _ fault
  | found index raw =>
    obtain rfl | rfl | ⟨-, high, rfl⟩ := mem_lines_found l o index raw line hline
    · exact Record.legible_entry _ _ _
    · exact Record.legible_raw raw
    · exact Record.legible_upperHalf _ _ high

end Visit

theorem Table.legible_records (t : Table) (o : Options) (region : Region) :
    ∀ record ∈ t.records o region, Legible record := by
  intro record hrecord
  rw [t.records_eq o region, List.mem_append, List.mem_cons] at hrecord
  obtain (rfl | hwarning) | hvisit := hrecord
  · rw [Record.text_of_fits _ (Record.fits_header _ _ _)]
    exact Record.legible_header _ _ _
  · rw [Option.mem_toList, Option.map_eq_some_iff] at hwarning
    obtain ⟨f, -, rfl⟩ := hwarning
    rw [Record.text_of_fits _ (Record.fits_warning f)]
    exact Record.legible_warning f
  · obtain ⟨v, -, hv⟩ := List.mem_flatMap.mp hvisit
    rw [v.records_eq, List.mem_map] at hv
    obtain ⟨line, hline, rfl⟩ := hv
    exact v.legible_lines _ o line hline

def At (offset : Nat) (piece text : String) : Prop :=
  ∃ before after, text = before ++ piece ++ after ∧ before.utf8ByteSize = offset

theorem At.append {offset : Nat} {piece text : String} (h : At offset piece text) (rest : String) :
    At offset piece (text ++ rest) := by
  obtain ⟨before, after, rfl, hbefore⟩ := h
  exact ⟨before, after ++ rest, String.append_assoc, hbefore⟩

theorem at_join (pieces : List String) (k : Nat) (piece : String) (h : pieces[k]? = some piece) :
    At ((pieces.map String.utf8ByteSize).take k).sum piece (String.join pieces) := by
  obtain ⟨hk, rfl⟩ := List.getElem?_eq_some_iff.mp h
  refine ⟨String.join (pieces.take k), String.join (pieces.drop (k + 1)), ?_, ?_⟩
  · rw [String.append_assoc, ← String.join_cons, ← List.drop_eq_getElem_cons hk,
      ← String.join_append, List.take_append_drop]
  · rw [Record.utf8ByteSize_join, List.map_take]

namespace Record

/-- A record that begins with the number of a slot, in four digits, and a label with blanks after it
up to byte 24. -/
def Captioned (slot : Nat) (label record : String) : Prop :=
  ∃ digits payload : String,
    record = "[" ++ digits ++ "] " ++ padded 16 label ++ " " ++ payload ∧
      digits = Numeral.decimal 4 slot ∧ digits.toList.length = 4 ∧
      (∀ c ∈ digits.toList, c.isDigit) ∧ (padded 16 label).utf8ByteSize = 16 ∧
      ("[" ++ digits ++ "] " ++ padded 16 label ++ " ").utf8ByteSize = 24

theorem captioned_of_eq (slot : Nat) (label payload record : String) (hslot : slot < 10 ^ 4)
    (hlabel : (padded 16 label).utf8ByteSize = 16)
    (h : record = indexWord (.ofNat 64 slot) ++ (" " ++ (padded 16 label ++ (" " ++ payload)))) :
    Captioned slot label record := by
  have htoNat := toNat_slot slot hslot
  have hend : "] " = "]" ++ " " := rfl
  have hnames : "[".utf8ByteSize = 1 ∧ "] ".utf8ByteSize = 2 ∧ " ".utf8ByteSize = 1 := by decide
  have hdigits := Numeral.utf8ByteSize_decimal 4 slot (by decide) hslot
  refine ⟨Numeral.decimal 4 slot, payload, ?_, rfl, Numeral.length_decimal 4 slot (by decide) hslot,
    Numeral.isDigit_of_mem_decimal 4 slot, hlabel, ?_⟩
  · simp only [h, indexWord, htoNat, hend, String.append_assoc]
  · simp only [String.utf8ByteSize_append]
    omega

theorem captioned_entry (mode : Mode) (slot : Nat) (e : Entry) (hslot : slot < 10 ^ 4) :
    Captioned slot e.label (entry mode (.ofNat 64 slot) e).text := by
  have hdescribed : ∀ c flags, c.WellFormed →
      Captioned slot c.label (described mode (.ofNat 64 slot) c flags).text := by
    intro c flags h
    have hlabel := h.utf8ByteSize_padded_label
    have htext := text_described mode (.ofNat 64 slot) c flags
    simp only [cells, String.join_cons, String.append_assoc] at htext
    exact captioned_of_eq slot c.label _ _ hslot hlabel htext
  cases e with
  | segment s => exact hdescribed _ _ s.wellFormed_columns
  | system s => exact hdescribed _ _ s.wellFormed_columns
  | reserved raw unrecognized =>
    exact captioned_of_eq slot _ _ _ hslot (Entry.utf8ByteSize_padded_label _)
      (text_reserved mode _ raw unrecognized)

theorem captioned_upperHalf (slot : Nat) (owner : Size) (high : Quadword) (hslot : slot < 10 ^ 4) :
    Captioned slot "(upper half)" (upperHalf (.ofNat 64 slot) owner high).text := by
  have hraw : " raw=" = " " ++ "raw=" := rfl
  have htext := text_phrase (.ofNat 64 slot) "(upper half)"
    [" raw=", Numeral.upperHex 16 high.toNat, " of=[", Numeral.decimal 4 owner.toNat, "]"]
  rw [String.join_cons, hraw, String.append_assoc] at htext
  exact captioned_of_eq slot "(upper half)" _ _ hslot (by decide) htext

theorem captioned_fault (slot : Nat) (f : Fault) (hslot : slot < 10 ^ 4) :
    Captioned slot "<out-of-range>" (fault (.ofNat 64 slot) f).text :=
  captioned_of_eq slot "<out-of-range>" f.message _ hslot (by decide) (text_phrase _ _ _)

end Record

def Mode.addressEnd : Mode → Nat
  | protected32 => 39
  | long64 => 47

def Mode.flagsStart : Mode → Nat
  | protected32 => 99
  | long64 => 107

namespace Record

/-- A record whose columns after the address are where the mode has them. -/
structure Aligned (mode : Mode) (c : Columns) (flags : Phrase) (record : String) : Prop where
  limit : At mode.addressEnd (" limit=" ++ hexOrDashes 8 (c.limit.map BitVec.toNat)) record
  selector :
    At (mode.addressEnd + 17) (" sel=" ++ hexOrDashes 4 (c.selector.map BitVec.toNat)) record
  type : At (mode.addressEnd + 28) (" type=" ++ Numeral.upperHex 1 c.type) record
  system : At (mode.addressEnd + 37) (" s=" ++ digit (!c.isSystem)) record
  ring : At (mode.addressEnd + 41) (" dpl=" ++ Numeral.decimal 1 c.ring.toNat) record
  presence : At (mode.addressEnd + 48) (padded 11 (presence c.isPresent)) record
  flags : ∃ lead, record = lead ++ String.join flags ∧ lead.utf8ByteSize = mode.flagsStart

theorem aligned_described (mode : Mode) (slot : Nat) (c : Columns) (flags : Phrase)
    (h : c.WellFormed) (htype : c.type < 16) (hslot : slot < 10 ^ 4)
    (haddress : (hexOrDashes mode.hexWidth (c.address.map BitVec.toNat)).utf8ByteSize =
      2 + mode.hexWidth) :
    Aligned mode c flags (described mode (.ofNat 64 slot) c flags).text := by
  have hindex : (indexWord (.ofNat 64 slot) ++ " ").utf8ByteSize = 7 := by
    rw [String.utf8ByteSize_append, utf8ByteSize_indexWord, toNat_slot slot hslot,
      Numeral.utf8ByteSize_decimal 4 slot (by decide) hslot]
    rfl
  have htext : (described mode (.ofNat 64 slot) c flags).text =
      String.join ((indexWord (.ofNat 64 slot) ++ " ") :: cells mode c) ++ String.join flags := by
    rw [text_described, String.join_cons]
    simp only [String.append_assoc]
  have hsizes : ((indexWord (.ofNat 64 slot) ++ " ") :: cells mode c).map String.utf8ByteSize =
      [7, 17, 5 + (2 + mode.hexWidth), 17, 11, 9, 4, 6, 1, 11, 1] := by
    rw [List.map_cons, sizes_cells mode c h, hindex, haddress,
      Numeral.utf8ByteSize_upperHex 1 c.type (by decide) htype]
  have hat : ∀ k piece offset,
      ((indexWord (.ofNat 64 slot) ++ " ") :: cells mode c)[k]? = some piece →
      ([7, 17, 5 + (2 + mode.hexWidth), 17, 11, 9, 4, 6, 1, 11, 1].take k).sum = offset →
      At offset piece (described mode (.ofNat 64 slot) c flags).text := by
    intro k piece offset hpiece hoffset
    rw [htext, ← hoffset, ← hsizes]
    exact (at_join _ k piece hpiece).append _
  have hlead : (String.join ((indexWord (.ofNat 64 slot) ++ " ") :: cells mode c)).utf8ByteSize =
      mode.flagsStart := by
    rw [utf8ByteSize_join, hsizes]
    cases mode <;> rfl
  exact
    { limit := hat 3 _ _ rfl (by cases mode <;> rfl)
      selector := hat 4 _ _ rfl (by cases mode <;> rfl)
      type := hat 5 _ _ rfl (by cases mode <;> rfl)
      system := hat 6 _ _ rfl (by cases mode <;> rfl)
      ring := hat 7 _ _ rfl (by cases mode <;> rfl)
      presence := hat 9 _ _ rfl (by cases mode <;> rfl)
      flags := ⟨_, htext, hlead⟩ }

end Record

theorem SystemEntry.toNat_address_decode_lt (kind : SystemKind) (raw : RawEntry)
    (h : raw.high = none) : (decode kind raw).address.toNat < 2 ^ 32 := by
  have hor : ∀ lower : Quadword,
      lower ||| ((raw.high.elim 0 Bits.extension.get) <<< 32) = lower := by
    intro lower
    rw [h]
    simp
  simp only [decode, decodeAddress, hor]
  split
  · exact Bits.toNat_base_lt raw.low
  · split
    · decide
    · exact Bits.toNat_offset_lt raw.low

namespace Layout

theorem toNat_address_lt (l : Layout) (raw : RawEntry) (c : Columns) (flags : Phrase)
    (h : (l.decode raw).columns? = some (c, flags)) (hhigh : raw.high = none) (address : Quadword)
    (ha : c.address = some address) : address.toNat < 2 ^ 32 := by
  obtain ⟨-, -, hd⟩ | ⟨kind, -, -, -, hd⟩ | ⟨-, hd⟩ := l.decode_cases raw
  · rw [hd] at h
    cases h
    cases ha
    exact Bits.toNat_base_lt raw.low
  · rw [hd] at h
    cases h
    have haddress :
        (if kind = .taskGate then none else some (SystemEntry.decode kind raw).address) =
          some address := ha
    split at haddress
    · cases haddress
    · cases haddress
      exact SystemEntry.toNat_address_decode_lt kind raw hhigh
  · rw [hd] at h
    cases h

end Layout

namespace Entry

theorem isUnused_of_columns (e : Entry) (c : Columns) (flags : Phrase)
    (h : e.columns? = some (c, flags)) : e.isUnused = false := by
  cases e with
  | segment s => rfl
  | system s => rfl
  | reserved raw unrecognized => cases h

end Entry

namespace Record

theorem entry_of_columns (mode : Mode) (n : Size) (e : Entry) (c : Columns) (flags : Phrase)
    (h : e.columns? = some (c, flags)) :
    entry mode n e = described mode n c flags := by
  cases e with
  | segment s =>
    cases h
    rfl
  | system s =>
    cases h
    rfl
  | reserved raw unrecognized => cases h

end Record

namespace Table

theorem utf8ByteSize_address (t : Table) (region : Region) (index : Nat) (raw : RawEntry)
    (hv : .found index raw ∈ t.visits region) (c : Columns) (flags : Phrase)
    (hc : (t.layout.decode raw).columns? = some (c, flags)) :
    (Record.hexOrDashes t.layout.mode.hexWidth (c.address.map BitVec.toNat)).utf8ByteSize =
      2 + t.layout.mode.hexWidth := by
  have hhigh := (t.found_mem_visits region index raw hv).2
  have hlt := t.layout.toNat_address_lt raw c flags hc
  cases hmode : t.layout.mode with
  | long64 => exact Record.utf8ByteSize_hexOrDashes_bitVec 16 c.address (by decide) (by decide)
  | protected32 =>
    have hnarrow : raw.high = none := by
      rw [Layout.needsExtension, hmode] at hhigh
      cases hkind : t.layout.kind <;> simpa [hkind] using hhigh
    refine Record.utf8ByteSize_hexOrDashes 8 _ (by decide) fun n hn => ?_
    obtain ⟨address, ha, rfl⟩ := Option.map_eq_some_iff.mp hn
    exact Nat.lt_of_lt_of_eq (hlt hnarrow address ha) (by decide)

theorem lt_of_covers (t : Table) (region : Region) (v : Visit) (hv : v ∈ t.visits region)
    (slot : Nat) (h : v.Covers t.layout slot) : slot < 10 ^ 4 := by
  have hbound := ((t.chain_visits region).bounds v hv).2
  have hslots := t.slots_le
  have hlt := h.2
  omega

theorem captioned_records (t : Table) (o : Options) (region : Region) (v : Visit)
    (hv : v ∈ t.visits region) (record : String) (hrecord : record ∈ v.records t.layout o) :
    (∃ index raw, v = .found index raw ∧ record = "       raw=" ++ raw.text) ∨
      ∃ slot, v.Covers t.layout slot ∧
        Record.Captioned slot (v.label t.layout slot) record := by
  have hspan := v.one_le_span t.layout
  have hfirst : v.Covers t.layout v.index := ⟨Nat.le_refl _, by omega⟩
  have hindex := t.lt_of_covers region v hv v.index hfirst
  rw [v.records_eq, List.mem_map] at hrecord
  obtain ⟨line, hline, rfl⟩ := hrecord
  cases v with
  | missing index fault =>
    rw [List.mem_singleton.mp hline]
    exact .inr ⟨index, hfirst, Record.captioned_fault index fault hindex⟩
  | found index raw =>
    obtain rfl | rfl | ⟨htwo, high, rfl⟩ := Visit.mem_lines_found t.layout o index raw line hline
    · refine .inr ⟨index, hfirst, ?_⟩
      rw [Visit.label, if_pos rfl]
      exact Record.captioned_entry _ index _ hindex
    · exact .inl ⟨index, raw, rfl, Record.text_raw raw⟩
    · have hsecond : (Visit.found index raw).Covers t.layout (index + 1) := by
        refine ⟨Nat.le_succ index, ?_⟩
        change index + 1 < index + t.layout.span (t.layout.decode raw)
        omega
      have hlt := t.lt_of_covers region _ hv (index + 1) hsecond
      refine .inr ⟨index + 1, hsecond, ?_⟩
      rw [Visit.label, if_neg (Nat.succ_ne_self index)]
      exact Record.captioned_upperHalf _ _ high hlt

theorem aligned_records (t : Table) (o : Options) (region : Region) (index : Nat) (raw : RawEntry)
    (hv : .found index raw ∈ t.visits region) (c : Columns) (flags : Phrase)
    (hc : (t.layout.decode raw).columns? = some (c, flags)) :
    ∃ record, ((Visit.found index raw).records t.layout o).head? = some record ∧
      Record.Aligned t.layout.mode c flags record := by
  have hcovers : (Visit.found index raw).Covers t.layout index :=
    ⟨Nat.le_refl index, Nat.lt_add_of_pos_right (t.layout.span_pos _)⟩
  have hindex := t.lt_of_covers region _ hv index hcovers
  have haligned := Record.aligned_described t.layout.mode index c flags
    (Entry.wellFormed_columns _ c flags hc) ((t.layout.tidy_decode raw).type_lt c flags hc) hindex
    (t.utf8ByteSize_address region index raw hv c flags hc)
  rw [← Record.entry_of_columns _ _ _ c flags hc] at haligned
  refine ⟨_, ?_, haligned⟩
  rw [Visit.records_eq, Visit.lines, Entry.isUnused_of_columns _ c flags hc, Bool.and_false,
    if_neg Bool.false_ne_true]
  rfl

theorem records_eq_append (t : Table) (o : Options) (region : Region) :
    t.records o region = t.heading.filterMap Event.record? ++
      (t.visits region).flatMap (Visit.records t.layout o) := by
  rw [t.records_eq o region, heading]
  cases t.fault? <;> rfl

/-- What is written about a slot stands in the same columns of every record in the listing. -/
theorem records_in_columns (t : Table) (o : Options) (region : Region) :
    (∀ record ∈ t.records o region, record ≠ "" ∧ Printable record) ∧
      t.records o region = t.heading.filterMap Event.record? ++
        (t.visits region).flatMap (Visit.records t.layout o) ∧
      ∀ v ∈ t.visits region,
        (∀ record ∈ v.records t.layout o,
          (∃ index raw, v = .found index raw ∧ record = "       raw=" ++ raw.text) ∨
            ∃ slot, v.Covers t.layout slot ∧
              Record.Captioned slot (v.label t.layout slot) record) ∧
        ∀ index raw c flags, v = .found index raw →
          (t.layout.decode raw).columns? = some (c, flags) →
            ∃ record, (v.records t.layout o).head? = some record ∧
              Record.Aligned t.layout.mode c flags record := by
  refine ⟨t.legible_records o region, t.records_eq_append o region, fun v hv => ⟨?_, ?_⟩⟩
  · exact t.captioned_records o region v hv
  · rintro index raw c flags rfl hc
    exact t.aligned_records o region index raw hv c flags hc

/-- A code segment of long mode after the null slot. -/
theorem columns_of_code_segment :
    let t : Table := ⟨⟨.global, .long64⟩, ⟨0x1000, 15⟩⟩
    let region : Region := #[0, 0, 0, 0, 0, 0, 0, 0, 0xFF, 0xFF, 0, 0, 0, 0x9A, 0xAF, 0]
    ∃ record ∈ t.records {} region,
      At 47 " limit=0xFFFFFFFF" record ∧ At 64 " sel=------" record ∧ At 75 " type=0xA" record ∧
        At 84 " s=1" record ∧ At 88 " dpl=0" record ∧ At 95 "present    " record ∧
          ∃ lead, record = lead ++ "gran=4KiB op=16 long=1 avl=0 attr=R--" ∧
            lead.utf8ByteSize = 107 := by
  intro t region
  let s := SegmentEntry.decode 0x00AF9A000000FFFF
  obtain ⟨-, hrecords, hvisits⟩ := t.records_in_columns {} region
  have hupper : ¬ t.Classified region 1 .upperHalf :=
    t.not_upperHalf_succ region 0 (.reserved (.narrow 0) false) (by decide) (by simp)
  have hvisit : t.layout.visit (t.bytes region) 1 = .found 1 (.narrow 0x00AF9A000000FFFF) := by
    decide
  have hv := t.visit_mem_visits region 1 (by decide) hupper
  rw [hvisit] at hv
  obtain ⟨-, haligned⟩ := hvisits _ hv
  obtain ⟨record, hhead, h⟩ := haligned 1 _ s.columns (Record.segmentFlags s) rfl rfl
  have hlimit : " limit=" ++ Record.hexOrDashes 8 (s.columns.limit.map BitVec.toNat) =
      " limit=0xFFFFFFFF" := by decide
  have htype : " type=" ++ Numeral.upperHex 1 s.columns.type = " type=0xA" := by decide
  have hring : " dpl=" ++ Numeral.decimal 1 s.columns.ring.toNat = " dpl=0" := by decide
  have hpresence : Record.padded 11 (Record.presence s.columns.isPresent) = "present    " := by
    decide
  have hflags : String.join (Record.segmentFlags s) = "gran=4KiB op=16 long=1 avl=0 attr=R--" := by
    decide
  have hmem : record ∈ t.records {} region := by
    rw [hrecords]
    apply List.mem_append_right
    exact List.mem_flatMap.mpr ⟨_, hv, List.mem_of_head? hhead⟩
  rw [← hlimit, ← htype, ← hring, ← hpresence, ← hflags]
  exact ⟨record, hmem, h.limit, h.selector, h.type, h.system, h.ring, h.presence, h.flags⟩

end Table

end DescriptorTables
