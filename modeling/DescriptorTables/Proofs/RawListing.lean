import Mathlib.Data.List.SplitBy
import DescriptorTables.Proofs.FixedColumns

namespace DescriptorTables

namespace Record

def isFirst (record : String) : Bool :=
  record.toList.head? == some '[' && !isUpperHalf record

theorem head?_indexWord (n : Size) (rest : String) :
    (indexWord n ++ rest).toList.head? = some '[' := by
  simp [indexWord]

theorem isFirst_entry (mode : Mode) (n : Size) (e : Entry) (hn : n.toNat < 10 ^ 4) :
    isFirst (text (entry mode n e)) := by
  obtain ⟨rest, htext⟩ := exists_text_entry mode n e hn
  rw [isFirst, isUpperHalf_entry mode n e hn, htext, caption, join_index, String.append_assoc,
    String.append_assoc, head?_indexWord]
  rfl

theorem isFirst_fault (n : Size) (f : Fault) (hn : n.toNat < 10 ^ 4) :
    isFirst (text (fault n f)) := by
  obtain ⟨rest, htext⟩ := exists_text_fault n f hn
  rw [isFirst, isUpperHalf_fault n f hn, htext, caption, join_index, String.append_assoc,
    String.append_assoc, head?_indexWord]
  rfl

theorem isFirst_raw (r : RawEntry) : isFirst (text (raw r)) = false := by
  rw [isFirst, text_of_fits _ (fits_raw r), text_raw, String.toList_append]
  rfl

theorem isFirst_upperHalf (n owner : Size) (high : Quadword) (hn : n.toNat < 10 ^ 4) :
    isFirst (text (upperHalf n owner high)) = false := by
  rw [isFirst, isUpperHalf_upperHalf n owner high hn]
  exact Bool.and_false _

theorem text_raw_inj (r other : RawEntry) (h : text (raw r) = text (raw other)) : r = other := by
  rw [text_of_fits _ (fits_raw r), text_of_fits _ (fits_raw other), text_raw, text_raw] at h
  have hchars := congrArg String.toList h
  rw [String.toList_append, String.toList_append] at hchars
  exact RawEntry.text_inj r other (String.toList_inj.mp (List.append_cancel_left hchars))

end Record

theorem Entry.isReserved_of_isUnused (e : Entry) (h : e.isUnused) : e.isReserved := by
  cases e with
  | segment s => cases h
  | system s => cases h
  | reserved raw unrecognized => rfl

namespace Layout

theorem decode_of_isReserved (l : Layout) (raw : RawEntry) (h : (l.decode raw).isReserved) :
    l.decode raw = .ofReserved raw := by
  obtain ⟨-, -, hd⟩ | ⟨kind, -, -, -, hd⟩ | ⟨-, hd⟩ := l.decode_cases raw
  · rw [hd] at h
    cases h
  · rw [hd] at h
    cases h
  · exact hd

theorem raw_eq_of_isReserved (l : Layout) (raw other : RawEntry) (hr : (l.decode raw).isReserved)
    (h : l.decode raw = l.decode other) : raw = other := by
  have hraw := l.decode_of_isReserved raw hr
  have hother := l.decode_of_isReserved other (h ▸ hr)
  rw [hraw, hother, Entry.ofReserved, Entry.ofReserved, Entry.reserved.injEq] at h
  exact h.1

theorem span_of_isReserved (l : Layout) (e : Entry) (h : e.isReserved) : l.span e = 1 := by
  obtain hone | htwo := l.span_eq_one_or_two e
  · exact hone
  · obtain ⟨-, s, rfl⟩ := (l.span_eq_two_iff e).mp htwo
    cases h

end Layout

namespace Visit

def content : Visit → Nat × Option RawEntry
  | missing index _ => (index, none)
  | found index raw => (index, some raw)

theorem covers_iff_of_content (l : Layout) (v u : Visit) (h : v.content = u.content) (slot : Nat) :
    v.Covers l slot ↔ u.Covers l slot := by
  cases v with
  | missing index fault =>
    cases u with
    | missing other fault' =>
      cases h
      exact Iff.rfl
    | found other raw => cases h
  | found index raw =>
    cases u with
    | missing other fault => cases h
    | found other raw' =>
      cases h
      exact Iff.rfl

theorem records_missing (l : Layout) (o : Options) (index : Nat) (fault : Fault) :
    (missing index fault).records l o = [Record.text (Record.fault (.ofNat 64 index) fault)] :=
  rfl

theorem records_found (l : Layout) (o : Options) (index : Nat) (raw : RawEntry)
    (h : (found index raw).records l o ≠ []) :
    (found index raw).records l o =
      Record.text (Record.entry l.mode (.ofNat 64 index) (l.decode raw)) ::
        ((if o.raw && !(l.decode raw).isReserved then [Record.raw raw] else []) ++
          upperHalf l index raw).map Record.text := by
  rw [records, lines] at *
  split
  · rename_i hskip
    rw [if_pos hskip] at h
    exact absurd rfl h
  · rfl

theorem words_head (l : Layout) (o : Options) (v : Visit) (first : String) (rest : List String)
    (h : v.records l o = first :: rest) :
    ∃ tail, Blank.words first =
      Record.indexWord (.ofNat 64 v.index) :: v.label l v.index :: tail := by
  cases v with
  | missing index fault =>
    rw [records_missing, List.cons.injEq] at h
    rw [← h.1, Record.text_of_fits _ (Record.fits_fault _ fault), Record.fault, Record.text_phrase,
      Blank.words_cons _ _ (Record.isWord_indexWord _)]
    exact ⟨Blank.words fault.message, congrArg _ (Record.words_padded 16 _ _ (by decide))⟩
  | found index raw =>
    rw [records_found l o index raw (by rw [h]; exact List.cons_ne_nil _ _), List.cons.injEq] at h
    rw [← h.1, Record.text_entry_eq _ _ _ (l.tidy_decode raw), Record.words_entry, Visit.index,
      label, if_pos rfl]
    exact Record.entryWords_eq_cons l.mode (.ofNat 64 index) (l.decode raw)

theorem label_ne_of_kind : ∀ kind ∈ SystemKind.all, kind.label ≠ "<out-of-range>" := by
  decide

theorem label_entry_ne (e : Entry) : e.label ≠ "<out-of-range>" := by
  cases e with
  | segment s =>
    change s.kind.label ≠ _
    cases s.kind <;> decide
  | system s => exact label_ne_of_kind s.kind (SystemKind.mem_all s.kind)
  | reserved raw unrecognized =>
    change (if unrecognized then "reserved" else "unused") ≠ _
    cases unrecognized <;> decide

theorem records_injective (l : Layout) (o : Options) (ho : o.raw) (v u : Visit)
    (hv : v.index < 10 ^ 4) (hu : u.index < 10 ^ 4) (hne : v.records l o ≠ [])
    (h : v.records l o = u.records l o) : v.content = u.content := by
  obtain ⟨first, rest, hfirst⟩ := List.exists_cons_of_ne_nil hne
  obtain ⟨tail, hwords⟩ := words_head l o v first rest hfirst
  obtain ⟨tail', hwords'⟩ := words_head l o u first rest (h.symm.trans hfirst)
  rw [hwords, List.cons.injEq, List.cons.injEq] at hwords'
  obtain ⟨hindex, hlabel, -⟩ := hwords'
  have hindex : v.index = u.index := by
    have htoNat := congrArg BitVec.toNat (Record.indexWord_inj _ _ hindex)
    rwa [Record.toNat_slot _ hv, Record.toNat_slot _ hu] at htoNat
  cases v with
  | missing index fault =>
    cases u with
    | missing other fault' => exact congrArg (·, none) hindex
    | found other raw =>
      rw [label, label, Visit.index, if_pos rfl] at hlabel
      exact absurd hlabel.symm (label_entry_ne _)
  | found index raw =>
    cases u with
    | missing other fault =>
      rw [label, label, Visit.index, if_pos rfl] at hlabel
      exact absurd hlabel (label_entry_ne _)
    | found other raw' =>
      have hindex : index = other := hindex
      subst hindex
      have hblock := h
      rw [records_found l o index raw hne, records_found l o index raw' (h ▸ hne),
        List.cons.injEq] at hblock
      obtain ⟨hentry, hrest⟩ := hblock
      have hentry := (Record.text_entry_inj _ _ _ _ _ (l.tidy_decode raw) (l.tidy_decode raw')
        hentry).2
      cases hr : (l.decode raw).isReserved with
      | true => rw [l.raw_eq_of_isReserved raw raw' hr hentry]
      | false =>
        rw [← hentry, ho, hr] at hrest
        rw [Record.text_raw_inj raw raw' (List.cons.inj hrest).1]

end Visit

/-- A block of records of which only the first one begins a slot. -/
def IsBlock (block : List String) : Prop :=
  ∃ first rest, block = first :: rest ∧ Record.isFirst first ∧
    ∀ record ∈ rest, Record.isFirst record = false

theorem splitBy_flatten_blocks (blocks : List (List String))
    (h : ∀ block ∈ blocks, IsBlock block) :
    blocks.flatten.splitBy (fun _ next => !Record.isFirst next) = blocks := by
  refine List.splitBy_flatten (fun hnil => ?_) (fun block hblock => ?_) ?_
  · obtain ⟨first, rest, he, -⟩ := h [] hnil
    cases he
  · obtain ⟨first, rest, rfl, -, hrest⟩ := h block hblock
    have hnext : ∀ record ∈ rest, !Record.isFirst record := fun record hrecord => by
      rw [hrest record hrecord]
      rfl
    refine List.Pairwise.isChain (List.pairwise_cons.mpr ⟨hnext, ?_⟩)
    exact List.pairwise_of_forall_mem_list fun _ _ record hrecord => hnext record hrecord
  · refine List.Pairwise.isChain (List.pairwise_of_forall_mem_list ?_)
    intro block hblock next hnext
    obtain ⟨first, rest, rfl, -⟩ := h block hblock
    obtain ⟨first', rest', rfl, hfirst, -⟩ := h next hnext
    refine ⟨List.cons_ne_nil _ _, List.cons_ne_nil _ _, ?_⟩
    rw [List.head_cons, hfirst]
    rfl

namespace Table

theorem isBlock_records (t : Table) (o : Options) (region : Region) (v : Visit)
    (hv : v ∈ t.visits region) (hne : v.records t.layout o ≠ []) :
    IsBlock (v.records t.layout o) := by
  have hindex : v.index < t.slots := (t.eq_visit_of_mem region v hv).1
  have hlt := (t.toNat_slot v.index hindex).2
  cases v with
  | missing index fault =>
    exact ⟨_, [], rfl, Record.isFirst_fault _ fault hlt, fun record hrecord => by cases hrecord⟩
  | found index raw =>
    refine ⟨_, _, Visit.records_found t.layout o index raw hne, Record.isFirst_entry _ _ _ hlt, ?_⟩
    intro record hrecord
    obtain ⟨line, hline, rfl⟩ := List.mem_map.mp hrecord
    rw [List.mem_append] at hline
    cases hline with
    | inl hline =>
      split at hline
      · rw [List.mem_singleton.mp hline]
        exact Record.isFirst_raw raw
      · cases hline
    | inr hline =>
      have hspan := ((t.chain_visits region).bounds _ hv).2
      change index + t.layout.span (t.layout.decode raw) ≤ t.slots at hspan
      have hhigh := (t.found_mem_visits region index raw hv).2
      obtain ⟨-, hlines⟩ | ⟨htwo, high, -, hlines⟩ := Visit.upperHalf_cases t.layout index raw hhigh
      · rw [hlines] at hline
        cases hline
      · rw [hlines] at hline
        rw [List.mem_singleton.mp hline]
        exact Record.isFirst_upperHalf _ _ high (t.toNat_slot (index + 1) (by omega)).2

def blocks (t : Table) (o : Options) (region : Region) : List (List String) :=
  ((t.visits region).map (Visit.records t.layout o)).filter (!List.isEmpty ·)

theorem mem_blocks_iff (t : Table) (o : Options) (region : Region) (block : List String) :
    block ∈ t.blocks o region ↔
      block ≠ [] ∧ ∃ v ∈ t.visits region, v.records t.layout o = block := by
  rw [blocks, List.mem_filter, List.mem_map, and_comm]
  simp

theorem blocks_eq_splitBy (t : Table) (o : Options) (region : Region) :
    t.blocks o region = ((t.visits region).flatMap (Visit.records t.layout o)).splitBy
      (fun _ next => !Record.isFirst next) := by
  rw [List.flatMap, ← List.flatten_filter_not_isEmpty, ← blocks, splitBy_flatten_blocks]
  intro block hblock
  obtain ⟨hne, v, hv, rfl⟩ := (t.mem_blocks_iff o region block).mp hblock
  exact t.isBlock_records o region v hv hne

theorem blocks_eq_of_records_eq (t : Table) (o : Options) (first second : Region)
    (h : t.records o first = t.records o second) : t.blocks o first = t.blocks o second := by
  rw [t.records_eq_append, t.records_eq_append] at h
  rw [blocks_eq_splitBy, blocks_eq_splitBy, List.append_cancel_left h]

theorem exists_content_eq (t : Table) (o : Options) (ho : o.raw) (first second : Region)
    (h : t.records o first = t.records o second) (v : Visit) (hv : v ∈ t.visits first)
    (hne : v.records t.layout o ≠ []) : ∃ u ∈ t.visits second, u.content = v.content := by
  have hblock := (t.mem_blocks_iff o first _).mpr ⟨hne, v, hv, rfl⟩
  rw [t.blocks_eq_of_records_eq o first second h] at hblock
  obtain ⟨-, u, hu, he⟩ := (t.mem_blocks_iff o second _).mp hblock
  have hslots := t.slots_le
  have hvlt := (t.eq_visit_of_mem first v hv).1
  have hult := (t.eq_visit_of_mem second u hu).1
  exact ⟨u, hu, (Visit.records_injective t.layout o ho v u (by omega) (by omega) hne he.symm).symm⟩

end Table

theorem RawEntry.eq_of_isZero (raw other : RawEntry) (h : raw.isZero) (hother : other.isZero)
    (hsize : raw.size = other.size) : raw = other := by
  obtain ⟨low, _ | high⟩ := raw
  · obtain ⟨low', _ | high'⟩ := other
    · simp_all [isZero]
    · cases hsize
  · obtain ⟨low', _ | high'⟩ := other
    · cases hsize
    · simp_all [isZero]

theorem Visit.isZero_of_records_eq_nil (l : Layout) (o : Options) (v : Visit)
    (h : v.records l o = []) :
    ∃ index raw, v = .found index raw ∧ (l.decode raw).isReserved ∧ raw.isZero := by
  cases v with
  | missing index fault => cases h
  | found index raw =>
    rw [records, List.map_eq_nil_iff, lines] at h
    split at h
    · rename_i hskip
      have hunused := (Bool.and_eq_true_iff.mp hskip).2
      have hreserved := Entry.isReserved_of_isUnused _ hunused
      rw [l.decode_of_isReserved raw hreserved] at hunused
      exact ⟨index, raw, rfl, hreserved, by simpa [Entry.ofReserved, Entry.isUnused] using hunused⟩
    · cases h

namespace Table

/-- What is left out of two listings of the same table is the same: zeros. -/
theorem content_eq_of_unlisted (t : Table) (o : Options) (first second : Region) (slot : Nat)
    (v u : Visit) (hv : v ∈ t.visits first) (hu : u ∈ t.visits second)
    (hvc : v.Covers t.layout slot) (huc : u.Covers t.layout slot)
    (hvn : v.records t.layout o = []) (hun : u.records t.layout o = []) :
    v.content = u.content := by
  obtain ⟨index, raw, rfl, hr, hz⟩ := v.isZero_of_records_eq_nil _ o hvn
  obtain ⟨other, raw', rfl, hr', hz'⟩ := u.isZero_of_records_eq_nil _ o hun
  have hsize := t.layout.size_eq_span_mul raw (t.found_mem_visits first index raw hv).2
  have hsize' := t.layout.size_eq_span_mul raw' (t.found_mem_visits second other raw' hu).2
  have hlower : index ≤ slot := hvc.1
  have hlower' : other ≤ slot := huc.1
  have hupper : slot < index + t.layout.span (t.layout.decode raw) := hvc.2
  have hupper' : slot < other + t.layout.span (t.layout.decode raw') := huc.2
  rw [t.layout.span_of_isReserved _ hr] at hsize hupper
  rw [t.layout.span_of_isReserved _ hr'] at hsize' hupper'
  have hindex : index = other := by omega
  rw [hindex, raw.eq_of_isZero raw' hz hz' (hsize.trans hsize'.symm)]

theorem eq_of_covers (t : Table) (region : Region) (slot : Nat) (hslot : slot < t.slots)
    (v u : Visit) (hv : v ∈ t.visits region) (hu : u ∈ t.visits region)
    (hvc : v.Covers t.layout slot) (huc : u.Covers t.layout slot) : v = u := by
  obtain ⟨w, -, hw⟩ := (t.chain_visits region).existsUnique_covers slot (Nat.zero_le slot) hslot
  rw [hw v hv hvc, hw u hu huc]

theorem content_eq_of_covers (t : Table) (o : Options) (ho : o.raw) (first second : Region)
    (h : t.records o first = t.records o second) (slot : Nat) (hslot : slot < t.slots)
    (v u : Visit) (hv : v ∈ t.visits first) (hu : u ∈ t.visits second)
    (hvc : v.Covers t.layout slot) (huc : u.Covers t.layout slot) : v.content = u.content := by
  by_cases hvn : v.records t.layout o = []
  · by_cases hun : u.records t.layout o = []
    · exact t.content_eq_of_unlisted o first second slot v u hv hu hvc huc hvn hun
    · obtain ⟨w, hw, he⟩ := t.exists_content_eq o ho second first h.symm u hu hun
      have hwc := (Visit.covers_iff_of_content t.layout w u he slot).mpr huc
      rw [← he, t.eq_of_covers first slot hslot v w hv hw hvc hwc]
  · obtain ⟨w, hw, he⟩ := t.exists_content_eq o ho first second h v hv hvn
    have hwc := (Visit.covers_iff_of_content t.layout w v he slot).mpr hvc
    rw [← he, t.eq_of_covers second slot hslot w u hw hu hwc huc]

theorem classified_outOfRange_iff (t : Table) (region : Region) (slot : Nat)
    (hslot : slot < t.slots) (v : Visit) (hv : v ∈ t.visits region) (hc : v.Covers t.layout slot) :
    t.Classified region slot .outOfRange ↔ v.content.2 = none := by
  constructor
  · intro h
    cases h with
    | outOfRange _ fault h =>
      have hself : (Visit.missing slot fault).Covers t.layout slot :=
        ⟨Nat.le_refl slot, Nat.lt_succ_self slot⟩
      rw [t.eq_of_covers region slot hslot v _ hv h hc hself]
      rfl
  · intro h
    cases v with
    | missing index fault =>
      have hlower : index ≤ slot := hc.1
      have hupper : slot < index + 1 := hc.2
      have he : index = slot := by omega
      rw [he] at hv
      exact .outOfRange slot fault hv
    | found index raw => cases h

theorem getElem?_bytes (t : Table) (region : Region) (i : Nat)
    (h : i < t.slots * t.layout.slotSize) : (t.bytes region)[i]? = region[i]? := by
  rw [bytes, Region.truncate, Array.getElem?_extract]
  split
  · rw [Nat.zero_add]
  · rw [Array.getElem?_eq_none (by omega)]

theorem getElem?_of_found (t : Table) (region : Region) (index : Nat) (raw : RawEntry)
    (hv : .found index raw ∈ t.visits region) (slot k : Nat)
    (hc : (Visit.found index raw).Covers t.layout slot) (hk : k < t.layout.slotSize) :
    (slot - index) * t.layout.slotSize + k < raw.image.length ∧
      region[slot * t.layout.slotSize + k]? =
        raw.image[(slot - index) * t.layout.slotSize + k]? := by
  have hindex : index < t.slots := (t.eq_visit_of_mem region _ hv).1
  have hslots := t.slots_mul_slotSize_le
  have haddress := t.layout.addressable_of_lt index t.slots hindex (by omega)
  obtain ⟨hread, hhigh⟩ := t.found_mem_visits region index raw hv
  have hwindow := ((t.layout.readRaw_eq_ok_iff _ index raw haddress).mp hread).2
  have hlower : index ≤ slot := hc.1
  have hupper : slot < index + t.layout.span (t.layout.decode raw) := hc.2
  have hend := ((t.chain_visits region).bounds _ hv).2
  change index + t.layout.span (t.layout.decode raw) ≤ t.slots at hend
  have hslot : slot * t.layout.slotSize =
      index * t.layout.slotSize + (slot - index) * t.layout.slotSize := by
    rw [← Nat.add_mul, Nat.add_sub_cancel' hlower]
  have hlength : (slot - index) * t.layout.slotSize + k < raw.size := by
    have hnext := Nat.mul_le_mul_right t.layout.slotSize
      (show slot - index + 1 ≤ t.layout.span (t.layout.decode raw) by omega)
    rw [t.layout.size_eq_span_mul raw hhigh]
    rw [Nat.succ_mul] at hnext
    omega
  have htable : slot * t.layout.slotSize + k < t.slots * t.layout.slotSize := by
    have hnext := Nat.mul_le_mul_right t.layout.slotSize (show slot + 1 ≤ t.slots by omega)
    rw [Nat.succ_mul] at hnext
    omega
  refine ⟨by rwa [RawEntry.length_image], ?_⟩
  rw [← hwindow, Region.window, List.getElem?_take_of_lt hlength, List.getElem?_drop,
    ← Nat.add_assoc, ← hslot, ← t.getElem?_bytes region _ htable, Array.getElem?_toList]

/-- A listing with the quadwords in it loses nothing of the table. -/
theorem raw_records_injective (t : Table) (o : Options) (ho : o.raw) (first second : Region)
    (h : t.records o first = t.records o second) :
    ∀ slot < t.slots,
      (t.Classified first slot .outOfRange ↔ t.Classified second slot .outOfRange) ∧
        (¬ t.Classified first slot .outOfRange → ∀ k < t.layout.slotSize,
          ∃ byte, first[slot * t.layout.slotSize + k]? = some byte ∧
            second[slot * t.layout.slotSize + k]? = some byte) := by
  intro slot hslot
  obtain ⟨v, ⟨hv, hvc⟩, -⟩ := (t.chain_visits first).existsUnique_covers slot (Nat.zero_le _) hslot
  obtain ⟨u, ⟨hu, huc⟩, -⟩ := (t.chain_visits second).existsUnique_covers slot (Nat.zero_le _) hslot
  have hcontent := t.content_eq_of_covers o ho first second h slot hslot v u hv hu hvc huc
  rw [t.classified_outOfRange_iff first slot hslot v hv hvc,
    t.classified_outOfRange_iff second slot hslot u hu huc, hcontent]
  refine ⟨Iff.rfl, fun hfound k hk => ?_⟩
  cases u with
  | missing index fault => exact absurd rfl hfound
  | found index raw =>
    cases v with
    | missing other fault => cases hcontent
    | found other raw' =>
      cases hcontent
      obtain ⟨hlength, hfirst⟩ := t.getElem?_of_found first index raw hv slot k hvc hk
      obtain ⟨-, hsecond⟩ := t.getElem?_of_found second index raw hu slot k huc hk
      rw [hfirst, hsecond, List.getElem?_eq_getElem hlength]
      exact ⟨_, rfl, rfl⟩

/-- A code segment after the null slot, with and without a byte that no slot has. -/
theorem raw_records_of_surplus_byte :
    let t : Table := ⟨⟨.global, .long64⟩, ⟨0x1000, 16⟩⟩
    let o : Options := ⟨true, true⟩
    let first : Region := #[0, 0, 0, 0, 0, 0, 0, 0, 0xFF, 0xFF, 0, 0, 0, 0x9A, 0xAF, 0]
    let second : Region := first.push 0xCC
    o.raw ∧ t.records o first = t.records o second ∧
      ∀ slot < t.slots,
        (t.Classified first slot .outOfRange ↔ t.Classified second slot .outOfRange) ∧
          (¬ t.Classified first slot .outOfRange → ∀ k < t.layout.slotSize,
            ∃ byte, first[slot * t.layout.slotSize + k]? = some byte ∧
              second[slot * t.layout.slotSize + k]? = some byte) := by
  intro t o first second
  have hbytes : t.bytes first = t.bytes second := by decide
  have hrecords : t.records o first = t.records o second := by
    simp only [records, listing, visits, hbytes]
  exact ⟨rfl, hrecords, t.raw_records_injective o rfl first second hrecords⟩

end Table

end DescriptorTables
