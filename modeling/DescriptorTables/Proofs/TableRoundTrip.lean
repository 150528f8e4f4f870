import DescriptorTables.Proofs.Accounting
import DescriptorTables.Proofs.FieldOverflow

namespace DescriptorTables

/-- The quadwords that an entry is written as; a zero one stands for those that cannot be written. -/
def Entry.written (mode : Mode) (e : Entry) : RawEntry :=
  match e.encode mode with
  | .ok raw => raw
  | .error _ => .narrow 0

namespace Entry

theorem high_of_encode_segment (s : SegmentEntry) (mode : Mode) (raw : RawEntry)
    (h : (Entry.segment s).encode mode = .ok raw) : raw.high = none := by
  obtain ⟨-, rfl⟩ := (encode_segment_eq_ok_iff s mode raw).mp h
  rfl

theorem isSome_high_of_encode_system (s : SystemEntry) (mode : Mode) (raw : RawEntry)
    (h : (Entry.system s).encode mode = .ok raw) : raw.high.isSome = decide (mode = .long64) := by
  rw [encode, s.encode_eq_ok] at h
  rw [← Except.ok.inj h]
  exact s.isSome_high_raw mode

end Entry

/-- What is found in a table that begins with some entries, the first of them at an index. -/
def Visit.ofEntries (l : Layout) : Nat → List Entry → List Visit
  | _, [] => []
  | index, e :: rest => .found index (e.written l.mode) :: ofEntries l (index + l.span e) rest

namespace Layout

/-- An entry that is read back from a table as it was written to it. -/
def Restored (l : Layout) (e : Entry) : Prop :=
  ∃ raw, e.encode l.mode = .ok raw ∧ l.decode raw = e ∧
    (e.isReserved → raw.high.isSome = l.needsExtension raw.low)

def image (l : Layout) (es : List Entry) : List Byte :=
  es.flatMap fun e => (e.written l.mode).image

def upperHalfRecords (l : Layout) (index : Nat) (e : Entry) : List String :=
  match e, l.kind, l.mode with
  | .system _, .global, .long64 =>
    [Record.text (Record.upperHalf (.ofNat 64 (index + 1)) (.ofNat 64 index)
      ((e.written l.mode).high.getD 0))]
  | _, _, _ => []

def entryRecords (l : Layout) (index : Nat) (e : Entry) : List String :=
  Record.text (Record.entry l.mode (.ofNat 64 index) e) :: l.upperHalfRecords index e

def recordsFrom (l : Layout) : Nat → List Entry → List String
  | _, [] => []
  | index, e :: rest => l.entryRecords index e ++ l.recordsFrom (index + l.span e) rest

theorem decode_written (l : Layout) (e : Entry) (h : l.Restored e) :
    l.decode (e.written l.mode) = e := by
  obtain ⟨raw, hencode, hdecode, -⟩ := h
  rw [Entry.written, hencode]
  exact hdecode

theorem isSome_high_written (l : Layout) (e : Entry) (h : l.Restored e) :
    (e.written l.mode).high.isSome = l.needsExtension (e.written l.mode).low := by
  obtain ⟨raw, hencode, hdecode, hreserved⟩ := h
  rw [Entry.written, hencode]
  change raw.high.isSome = l.needsExtension raw.low
  obtain ⟨hs, hk, hd⟩ | ⟨kind, hs, ht, -, hd⟩ | ⟨-, hd⟩ := l.decode_cases raw
  · rw [l.needsExtension_of_segment raw.low hs hk]
    rw [← hdecode, hd] at hencode
    rw [Entry.high_of_encode_segment _ _ raw hencode]
    rfl
  · rw [l.needsExtension_of_system raw.low kind hs ht]
    rw [← hdecode, hd] at hencode
    exact Entry.isSome_high_of_encode_system _ _ raw hencode
  · exact hreserved (by rw [← hdecode, hd]; rfl)

theorem size_written (l : Layout) (e : Entry) (h : l.Restored e) :
    (e.written l.mode).size = l.span e * l.slotSize := by
  have hsize := l.size_eq_span_mul (e.written l.mode) (l.isSome_high_written e h)
  rwa [l.decode_written e h] at hsize

theorem length_image (l : Layout) (es : List Entry) (h : ∀ e ∈ es, l.Restored e) :
    (l.image es).length = (es.map l.span).sum * l.slotSize := by
  induction es with
  | nil => rw [image, List.map_nil, List.sum_nil, Nat.zero_mul]; rfl
  | cons e rest ih =>
    have hrest := ih fun d hd => h d (List.mem_cons_of_mem e hd)
    rw [image, List.flatMap_cons, List.length_append, RawEntry.length_image,
      l.size_written e (h e List.mem_cons_self), List.map_cons, List.sum_cons, Nat.add_mul]
    exact congrArg _ hrest

theorem visits_image (l : Layout) (es : List Entry) (h : ∀ e ∈ es, l.Restored e) (region : Region)
    (before : List Byte) (index slots : Nat) (hregion : region.toList = before ++ l.image es)
    (hbefore : before.length = index * l.slotSize) (hslots : slots = index + (es.map l.span).sum)
    (hsize : slots * l.slotSize < 2 ^ 64) :
    l.visits region slots index = Visit.ofEntries l index es := by
  -- `before` holds the entries that were found; it ends where the next one begins.
  induction es generalizing before index with
  | nil =>
    have he : slots = index := hslots
    rw [visits, if_neg (by omega), Visit.ofEntries]
  | cons e rest ih =>
    have hrestored := h e List.mem_cons_self
    have hspan := l.span_pos e
    rw [List.map_cons, List.sum_cons] at hslots
    have hlt : index < slots := by omega
    have haddress := l.addressable_of_lt index slots hlt hsize
    have hwindow : region.window (index * l.slotSize) (e.written l.mode).size =
        (e.written l.mode).image := by
      rw [Region.window, hregion, List.drop_left' hbefore]
      exact List.take_left' (RawEntry.length_image _)
    have hread : l.readRaw region (.ofNat 64 index) = .ok (e.written l.mode) :=
      (l.readRaw_eq_ok_iff region index _ haddress).mpr ⟨l.isSome_high_written e hrestored, hwindow⟩
    have hvisit : l.visit region index = .found index (e.written l.mode) := by
      rw [visit, hread]
    have hnext := ih (fun d hd => h d (List.mem_cons_of_mem e hd))
      (before ++ (e.written l.mode).image) (index + l.span e) (by
        rw [hregion, List.append_assoc]
        rfl) (by
        rw [List.length_append, RawEntry.length_image, l.size_written e hrestored, hbefore,
          Nat.add_mul]) (by omega)
    rw [visits, if_pos hlt, hvisit, Visit.span, l.decode_written e hrestored, hnext, Visit.ofEntries]

theorem records_written (l : Layout) (index : Nat) (e : Entry) (h : l.Restored e) :
    (Visit.found index (e.written l.mode)).records l {} = l.entryRecords index e := by
  have hdecode := l.decode_written e h
  have hrecords : (Visit.found index (e.written l.mode)).records l {} =
      Record.text (Record.entry l.mode (.ofNat 64 index) (l.decode (e.written l.mode))) ::
        (Visit.upperHalf l index (e.written l.mode)).map Record.text := rfl
  have hcases := Visit.upperHalf_cases l index (e.written l.mode) (l.isSome_high_written e h)
  rw [hdecode] at hcases
  rw [hrecords, hdecode, entryRecords]
  obtain ⟨hone, hlines⟩ | ⟨htwo, high, hhigh, hlines⟩ := hcases
  · have hnone : l.upperHalfRecords index e = [] := by
      obtain ⟨kind, mode⟩ := l
      cases e with
      | segment s | reserved raw unrecognized => rfl
      | system s =>
        cases kind with
        | interrupt => rfl
        | global =>
          cases mode with
          | protected32 => rfl
          | long64 => cases hone
    rw [hlines, hnone]
    rfl
  · obtain ⟨hl, s, hs⟩ := (l.span_eq_two_iff e).mp htwo
    have hupper : l.upperHalfRecords index e =
        [Record.text (Record.upperHalf (.ofNat 64 (index + 1)) (.ofNat 64 index)
          ((e.written l.mode).high.getD 0))] := by
      rw [hl, hs]
      rfl
    rw [hlines, hupper, hhigh]
    rfl

theorem flatMap_records_ofEntries (l : Layout) (index : Nat) (es : List Entry)
    (h : ∀ e ∈ es, l.Restored e) :
    (Visit.ofEntries l index es).flatMap (Visit.records l {}) = l.recordsFrom index es := by
  induction es generalizing index with
  | nil => rfl
  | cons e rest ih =>
    rw [Visit.ofEntries, List.flatMap_cons, l.records_written index e (h e List.mem_cons_self),
      ih _ fun d hd => h d (List.mem_cons_of_mem e hd), recordsFrom]

theorem filterMap_entry_ofEntries (l : Layout) (index : Nat) (es : List Entry)
    (h : ∀ e ∈ es, l.Restored e) :
    (Visit.ofEntries l index es).filterMap (Visit.entry? l) = es := by
  induction es generalizing index with
  | nil => rfl
  | cons e rest ih =>
    have hentry : Visit.entry? l (.found index (e.written l.mode)) = some e :=
      congrArg some (l.decode_written e (h e List.mem_cons_self))
    rw [Visit.ofEntries, List.filterMap_cons_some hentry,
      ih _ fun d hd => h d (List.mem_cons_of_mem e hd)]

theorem countP_isMissing_ofEntries (l : Layout) (index : Nat) (es : List Entry) :
    (Visit.ofEntries l index es).countP (fun v => v.isMissing) = 0 := by
  induction es generalizing index with
  | nil => rfl
  | cons e rest ih =>
    rw [Visit.ofEntries, List.countP_cons, ih]
    rfl

end Layout

namespace Table

theorem slots_of_image (t : Table) (es : List Entry) (h : ∀ e ∈ es, t.layout.Restored e)
    (hlimit : t.register.limit.toNat + 1 = (t.layout.image es).length) :
    t.slots = (es.map t.layout.span).sum ∧ t.fault? = none := by
  have hsize : t.register.size = (es.map t.layout.span).sum * t.layout.slotSize :=
    hlimit.trans (t.layout.length_image es h)
  constructor
  · rw [slots, hsize]
    exact Nat.mul_div_cancel _ t.layout.slotSize_pos
  · rw [fault?, hsize, if_pos (Nat.mul_mod_left _ _)]

theorem bytes_of_image (t : Table) (es : List Entry) (extra : List Byte)
    (h : ∀ e ∈ es, t.layout.Restored e)
    (hlimit : t.register.limit.toNat + 1 = (t.layout.image es).length) :
    t.bytes (t.layout.image es ++ extra).toArray = (t.layout.image es).toArray := by
  have hsize := t.layout.length_image es h
  rw [← (t.slots_of_image es h hlimit).1] at hsize
  rw [bytes, Region.truncate, ← hsize]
  simp

theorem visits_of_image (t : Table) (es : List Entry) (extra : List Byte)
    (h : ∀ e ∈ es, t.layout.Restored e)
    (hlimit : t.register.limit.toNat + 1 = (t.layout.image es).length) :
    t.visits (t.layout.image es ++ extra).toArray = Visit.ofEntries t.layout 0 es := by
  have hslots := t.slots_mul_slotSize_le
  rw [visits, t.bytes_of_image es extra h hlimit]
  refine t.layout.visits_image es h _ [] 0 t.slots rfl ?_ ?_ (by omega)
  · exact (Nat.zero_mul _).symm
  · rw [(t.slots_of_image es h hlimit).1, Nat.zero_add]

/-- A table put together from entries that are read back as they are written is listed as those
entries, whatever bytes come after it. -/
theorem listing_of_entries (t : Table) (es : List Entry) (extra : List Byte)
    (h : ∀ e ∈ es, t.layout.Restored e)
    (hlimit : t.register.limit.toNat + 1 = (t.layout.image es).length) :
    t.summary (t.layout.image es ++ extra).toArray =
      { slots := (es.map t.layout.span).sum
        decoded := es.countP fun e => !e.isReserved
        reserved := es.countP fun e => e.isReserved
        errors := 0
        malformed := false } ∧
    t.records {} (t.layout.image es ++ extra).toArray =
      Record.text (Record.header t.layout t.register (.ofNat 64 t.slots)) ::
        t.layout.recordsFrom 0 es ∧
    ∀ o, t.listing o (t.layout.image es ++ extra).toArray =
      t.listing o (t.layout.image es).toArray := by
  obtain ⟨hslots, hfault⟩ := t.slots_of_image es h hlimit
  have hvisits := t.visits_of_image es extra h hlimit
  have halone := t.visits_of_image es [] h hlimit
  rw [List.append_nil] at halone
  refine ⟨?_, ?_, fun o => ?_⟩
  · rw [summary, hvisits, hslots, hfault, t.layout.filterMap_entry_ofEntries 0 es h,
      t.layout.countP_isMissing_ofEntries]
    rfl
  · rw [t.records_eq, hvisits, hfault, t.layout.flatMap_records_ofEntries 0 es h]
    rfl
  · rw [listing, listing, hvisits, halone]

/-- A null entry, a code segment and a task state segment with a second slot. -/
theorem listing_of_long_mode_entries :
    let t : Table := ⟨⟨.global, .long64⟩, ⟨0x1000, 31⟩⟩
    let es : List Entry := [.ofReserved (.narrow 0), .segment (.decode 0x00AF9B000000FFFF),
      .system (.decode (.tss .bits64 false) (.wide 0x8000891020000067 0xFFFFFFFF))]
    (∀ e ∈ es, t.layout.Restored e) ∧
      t.register.limit.toNat + 1 = (t.layout.image es).length ∧
      t.summary (t.layout.image es ++ [0xFF]).toArray =
        { slots := 4, decoded := 2, reserved := 1, errors := 0, malformed := false } := by
  intro t es
  have hnull : t.layout.Restored (.ofReserved (.narrow 0)) := ⟨_, rfl, by decide, fun _ => rfl⟩
  have hcode : t.layout.Restored (.segment (.decode 0x00AF9B000000FFFF)) :=
    ⟨_, rfl, by decide, fun h => by cases h⟩
  have htask : t.layout.Restored
      (.system (.decode (.tss .bits64 false) (.wide 0x8000891020000067 0xFFFFFFFF))) :=
    ⟨_, rfl, by decide, fun h => by cases h⟩
  have h : ∀ e ∈ es, t.layout.Restored e :=
    List.forall_mem_cons.mpr ⟨hnull, List.forall_mem_cons.mpr ⟨hcode,
      List.forall_mem_singleton.mpr htask⟩⟩
  have hlimit : t.register.limit.toNat + 1 = (t.layout.image es).length := by decide
  have hlisting := listing_of_entries t es [0xFF] h hlimit
  refine ⟨h, hlimit, hlisting.1.trans ?_⟩
  decide

end Table

end DescriptorTables
