import DescriptorTables.Proofs.RecordsBySlot
import DescriptorTables.Proofs.SinglePass

namespace DescriptorTables

namespace Layout

def blank (l : Layout) : RawEntry :=
  if l.slotSize = 16 then .wide 0 0 else .narrow 0

theorem size_blank (l : Layout) : l.blank.size = l.slotSize := by
  obtain ⟨kind, mode⟩ := l
  cases kind <;> cases mode <;> rfl

theorem image_blank (l : Layout) : l.blank.image = List.replicate l.slotSize 0 := by
  obtain ⟨kind, mode⟩ := l
  cases kind <;> cases mode <;> rfl

theorem isSome_high_blank (l : Layout) :
    l.blank.high.isSome = l.needsExtension l.blank.low := by
  obtain ⟨kind, mode⟩ := l
  cases kind <;> cases mode <;> rfl

theorem decode_blank (l : Layout) : l.decode l.blank = .reserved l.blank false := by
  obtain ⟨kind, mode⟩ := l
  cases kind <;> cases mode <;> rfl

theorem isUnused_decode_iff (l : Layout) (raw : RawEntry)
    (h : raw.high.isSome = l.needsExtension raw.low) :
    (l.decode raw).isUnused ↔ raw = l.blank := by
  constructor
  · intro hunused
    have hreserved := Entry.isReserved_of_isUnused _ hunused
    have hzero : raw.isZero := by
      rw [l.decode_of_isReserved raw hreserved] at hunused
      simpa [Entry.ofReserved, Entry.isUnused] using hunused
    have hzeros : l.blank.isZero := by
      obtain ⟨kind, mode⟩ := l
      cases kind <;> cases mode <;> rfl
    have hsize := l.size_eq_span_mul raw h
    rw [l.span_of_isReserved _ hreserved, Nat.one_mul, ← l.size_blank] at hsize
    exact raw.eq_of_isZero l.blank hzero hzeros hsize
  · rintro rfl
    rw [decode_blank]
    rfl

end Layout

namespace Table

/-- The bytes of a slot are all there and all zero, and no wide entry owns them. -/
def Vacant (t : Table) (region : Region) (slot : Nat) : Prop :=
  ¬ t.Classified region slot .upperHalf ∧
    ∀ k < t.layout.slotSize, region[slot * t.layout.slotSize + k]? = some 0

theorem window_of_zeros (t : Table) (region : Region) (slot : Nat) (hslot : slot < t.slots)
    (h : ∀ k < t.layout.slotSize, region[slot * t.layout.slotSize + k]? = some 0) :
    (t.bytes region).window (slot * t.layout.slotSize) t.layout.slotSize =
      List.replicate t.layout.slotSize 0 := by
  refine List.ext_getElem? fun k => ?_
  by_cases hk : k < t.layout.slotSize
  · have htable := Nat.mul_add_lt_mul_of_lt_of_lt hslot hk
    rw [Nat.mul_comm t.layout.slotSize slot] at htable
    rw [Region.window, List.getElem?_take_of_lt hk, List.getElem?_drop, Array.getElem?_toList,
      t.getElem?_bytes region _ htable, h k hk, List.getElem?_replicate_of_lt hk]
  · rw [List.getElem?_eq_none (by rw [Region.length_window]; omega),
      List.getElem?_eq_none (by rw [List.length_replicate]; omega)]

theorem vacant_iff (t : Table) (region : Region) (slot : Nat) (hslot : slot < t.slots) :
    t.Vacant region slot ↔ .found slot t.layout.blank ∈ t.visits region := by
  constructor
  · rintro ⟨hupper, hzeros⟩
    have hslots := t.slots_mul_slotSize_le
    have haddress := t.layout.addressable_of_lt slot t.slots hslot (by omega)
    have hwindow : (t.bytes region).window (slot * t.layout.slotSize) t.layout.blank.size =
        t.layout.blank.image := by
      rw [t.layout.size_blank, t.layout.image_blank]
      exact t.window_of_zeros region slot hslot hzeros
    have hread := (t.layout.readRaw_eq_ok_iff (t.bytes region) slot t.layout.blank haddress).mpr
      ⟨t.layout.isSome_high_blank, hwindow⟩
    have hvisit := t.visit_mem_visits region slot hslot hupper
    rw [Layout.visit, hread] at hvisit
    exact hvisit
  · intro hv
    have hreserved : (t.layout.decode t.layout.blank).isReserved := by
      rw [t.layout.decode_blank]
      rfl
    refine ⟨fun hupper => ?_, fun k hk => ?_⟩
    · cases t.eq_of_classified region slot _ _ hupper (.reserved slot _ hv hreserved)
    · have hcovers := (Visit.found slot t.layout.blank).covers_index t.layout
      obtain ⟨-, hbyte⟩ := t.getElem?_of_found region slot _ hv slot k hcovers hk
      rw [hbyte, Nat.sub_self, Nat.zero_mul, Nat.zero_add, t.layout.image_blank,
        List.getElem?_replicate_of_lt hk]

theorem recordsAt_cases (t : Table) (region : Region) (slot : Nat) (hslot : slot < t.slots) :
    (∃ record, Record.Carries slot record ∧ ∀ o, t.recordsAt o region slot = [record]) ∨
      ∃ raw, .found slot raw ∈ t.visits region := by
  obtain ⟨hindex, hlt⟩ := t.toNat_slot slot hslot
  rw [hindex] at hlt
  obtain ⟨c, hc, -⟩ := t.classified_unique region slot hslot
  cases hc with
  | outOfRange _ fault hv =>
    obtain ⟨rest, htext⟩ := Record.exists_text_fault (.ofNat 64 slot) fault (by omega)
    refine .inl ⟨_, ?_, fun o => t.recordsAt_of_missing o region slot fault hv⟩
    rw [htext]
    exact Record.carries_caption slot _ rest hlt
  | reserved _ raw hv hr => exact .inr ⟨raw, hv⟩
  | decoded _ raw hv hr => exact .inr ⟨raw, hv⟩
  | upperHalf owner raw hv hspan =>
    obtain ⟨_, _, high, -, -, -, hrecords⟩ :=
      t.recordsAt_of_upperHalf region _ (.upperHalf owner raw hv hspan)
    obtain ⟨rest, htext⟩ := Record.exists_text_upperHalf (.ofNat 64 (owner + 1)) (.ofNat 64 _) high
      (by omega)
    refine .inl ⟨_, ?_, hrecords⟩
    rw [htext]
    exact Record.carries_caption (owner + 1) _ rest hlt

theorem exists_recordsAt (t : Table) (region : Region) (slot : Nat) (hslot : slot < t.slots) :
    ∃ record, Record.Carries slot record ∧ t.recordsAt {} region slot = [record] := by
  obtain ⟨record, hcarries, hrecords⟩ | ⟨raw, hv⟩ := t.recordsAt_cases region slot hslot
  · exact ⟨record, hcarries, hrecords {}⟩
  · obtain ⟨hindex, hlt⟩ := t.toNat_slot slot hslot
    obtain ⟨rest, htext⟩ :=
      Record.exists_text_entry t.layout.mode (.ofNat 64 slot) (t.layout.decode raw) hlt
    refine ⟨_, ?_, t.recordsAt_of_found {} region slot raw hv⟩
    rw [htext]
    exact Record.carries_caption slot _ rest (by omega)

theorem recordsAt_of_vacant (t : Table) (o : Options) (region : Region) (slot : Nat)
    (hslot : slot < t.slots) (h : t.Vacant region slot) :
    t.recordsAt o region slot =
      if o.skipUnused then []
      else [Record.text
        (Record.entry t.layout.mode (.ofNat 64 slot) (.reserved t.layout.blank false))] := by
  rw [t.recordsAt_of_found o region slot _ ((t.vacant_iff region slot hslot).mp h),
    t.layout.decode_blank]
  cases o.skipUnused <;> cases o.raw <;> rfl

theorem recordsAt_of_not_vacant (t : Table) (region : Region) (slot : Nat) (hslot : slot < t.slots)
    (h : ¬ t.Vacant region slot) (raw : Bool) :
    t.recordsAt ⟨true, raw⟩ region slot = t.recordsAt ⟨false, raw⟩ region slot := by
  obtain ⟨record, -, hrecords⟩ | ⟨quadwords, hv⟩ := t.recordsAt_cases region slot hslot
  · rw [hrecords, hrecords]
  · have hhigh := (t.found_mem_visits region slot quadwords hv).2
    have hused : (t.layout.decode quadwords).isUnused = false := by
      refine Bool.eq_false_iff.mpr fun hunused => h ((t.vacant_iff region slot hslot).mpr ?_)
      rw [← (t.layout.isUnused_decode_iff quadwords hhigh).mp hunused]
      exact hv
    rw [t.recordsAt_of_found _ region slot quadwords hv,
      t.recordsAt_of_found _ region slot quadwords hv, hused]
    rfl

theorem recordsAt_of_decoded (t : Table) (region : Region) (slot : Nat)
    (h : t.Classified region slot .decoded) :
    ∃ quadwords, t.layout.readRaw (t.bytes region) (.ofNat 64 slot) = .ok quadwords ∧
      ∀ o, t.recordsAt o region slot =
        Record.text (Record.entry t.layout.mode (.ofNat 64 slot) (t.layout.decode quadwords)) ::
          if o.raw then [Record.text (Record.raw quadwords)] else [] := by
  cases h with
  | decoded _ quadwords hv hr =>
    have hused : (t.layout.decode quadwords).isUnused = false := by
      refine Bool.eq_false_iff.mpr fun hunused => ?_
      rw [Entry.isReserved_of_isUnused _ hunused] at hr
      cases hr
    refine ⟨quadwords, (t.found_mem_visits region slot quadwords hv).1, fun o => ?_⟩
    rw [t.recordsAt_of_found o region slot quadwords hv, hr, hused]
    simp

theorem recordsAt_of_not_decoded (t : Table) (region : Region) (slot : Nat)
    (hslot : slot < t.slots) (h : ¬ t.Classified region slot .decoded) (skipUnused : Bool) :
    t.recordsAt ⟨skipUnused, true⟩ region slot = t.recordsAt ⟨skipUnused, false⟩ region slot := by
  obtain ⟨record, -, hrecords⟩ | ⟨quadwords, hv⟩ := t.recordsAt_cases region slot hslot
  · rw [hrecords, hrecords]
  · have hr : (t.layout.decode quadwords).isReserved :=
      (Bool.eq_false_or_eq_true _).resolve_right fun hr => h (.decoded slot quadwords hv hr)
    rw [t.recordsAt_of_found _ region slot quadwords hv,
      t.recordsAt_of_found _ region slot quadwords hv, hr]
    rfl

/-- The options only leave out and add: a table is counted the same under all of them, and the
records about a slot differ where it is vacant or an entry is decoded, by that one record. -/
theorem records_under_options (t : Table) (region : Region) :
    (∀ o, (t.pass o region).summary = t.summary region ∧
      (t.pass o region).events = t.listing o region) ∧
    (∀ o, t.records o region = t.heading.filterMap Event.record? ++
      (List.range t.slots).flatMap (t.recordsAt o region)) ∧
    (∀ slot < t.slots, ∃ record, Record.Carries slot record ∧
      t.recordsAt {} region slot = [record]) ∧
    (∀ slot < t.slots, ∀ raw,
      (t.Vacant region slot → t.recordsAt ⟨true, raw⟩ region slot = [] ∧
        ∃ record, t.recordsAt ⟨false, raw⟩ region slot = [record]) ∧
      (¬ t.Vacant region slot →
        t.recordsAt ⟨true, raw⟩ region slot = t.recordsAt ⟨false, raw⟩ region slot)) ∧
    (∀ slot < t.slots, ∀ skipUnused,
      (t.Classified region slot .decoded → ∃ quadwords record,
        t.layout.readRaw (t.bytes region) (.ofNat 64 slot) = .ok quadwords ∧
          record = Record.text
            (Record.entry t.layout.mode (.ofNat 64 slot) (t.layout.decode quadwords)) ∧
          t.recordsAt ⟨skipUnused, false⟩ region slot = [record] ∧
          t.recordsAt ⟨skipUnused, true⟩ region slot =
            [record, Record.text (Record.raw quadwords)]) ∧
      (¬ t.Classified region slot .decoded →
        t.recordsAt ⟨skipUnused, true⟩ region slot =
          t.recordsAt ⟨skipUnused, false⟩ region slot)) ∧
    ∀ slot, t.Classified region slot .upperHalf → ∃ owner quadwords high, slot = owner + 1 ∧
      t.layout.readRaw (t.bytes region) (.ofNat 64 owner) = .ok quadwords ∧
        quadwords.high = some high ∧ ∀ o, t.recordsAt o region slot =
          [Record.text (Record.upperHalf (.ofNat 64 slot) (.ofNat 64 owner) high)] := by
  refine ⟨fun o => ?_, fun o => t.records_eq_flatMap_recordsAt o region,
    t.exists_recordsAt region, fun slot hslot raw => ⟨fun h => ?_, fun h => ?_⟩,
    fun slot hslot skipUnused => ⟨fun h => ?_, fun h => ?_⟩, t.recordsAt_of_upperHalf region⟩
  · rw [t.pass_eq]
    exact ⟨rfl, rfl⟩
  · rw [t.recordsAt_of_vacant ⟨true, raw⟩ region slot hslot h,
      t.recordsAt_of_vacant ⟨false, raw⟩ region slot hslot h]
    exact ⟨rfl, _, rfl⟩
  · exact t.recordsAt_of_not_vacant region slot hslot h raw
  · obtain ⟨quadwords, hread, hrecords⟩ := t.recordsAt_of_decoded region slot h
    exact ⟨quadwords, _, hread, rfl, hrecords ⟨skipUnused, false⟩, hrecords ⟨skipUnused, true⟩⟩
  · exact t.recordsAt_of_not_decoded region slot hslot h skipUnused

/-- Of two slots of zeros, the one that a task state segment below 4 GiB goes on in stays. -/
theorem records_of_zero_upper_half :
    let t : Table := ⟨⟨.global, .long64⟩, ⟨0x1000, 23⟩⟩
    let region : Region :=
      #[0, 0, 0, 0, 0, 0, 0, 0, 0x67, 0, 0, 0, 0x10, 0x89, 0, 0, 0, 0, 0, 0, 0, 0, 0, 0]
    t.recordsAt ⟨true, false⟩ region 0 = [] ∧ (∀ k < 8, region[2 * 8 + k]? = some 0) ∧
      t.recordsAt ⟨true, false⟩ region 2 = [Record.text (Record.upperHalf 2 1 0)] := by
  intro t region
  obtain ⟨-, -, -, hskip, -, hupper⟩ := t.records_under_options region
  have hfirst : ¬ t.Classified region 0 .upperHalf := by
    intro h
    obtain ⟨-, owner, s, hslot, -⟩ := t.owner_of_upperHalf region 0 h
    cases hslot
  have hsecond : ¬ t.Classified region 1 .upperHalf := by
    intro h
    obtain ⟨-, owner, s, hslot, -, hread⟩ := t.owner_of_upperHalf region 1 h
    obtain rfl : owner = 0 := by omega
    have hnull : t.layout.read (t.bytes region) 0 = .ok (.reserved (.narrow 0) false) := by decide
    cases hread.symm.trans hnull
  have hread : t.layout.readRaw (t.bytes region) (.ofNat 64 1) =
      .ok (.wide 0x891000000067 0) := by decide
  have hvisit := t.visit_mem_visits region 1 (by decide) hsecond
  rw [Layout.visit, hread] at hvisit
  refine ⟨((hskip 0 (by decide) false).1 ⟨hfirst, by decide⟩).1, by decide, ?_⟩
  obtain ⟨owner, quadwords, high, howner, howned, hhigh, hrecords⟩ :=
    hupper 2 (.upperHalf 1 _ hvisit (by decide))
  obtain rfl : owner = 1 := by omega
  cases hread.symm.trans howned
  cases hhigh
  exact hrecords ⟨true, false⟩

end Table

end DescriptorTables
