import DescriptorTables.Proofs.DistinctRecords
import DescriptorTables.Proofs.FieldOverflow
import DescriptorTables.Proofs.Masking

namespace DescriptorTables

namespace BitRange

theorem get_zero (r : BitRange) : r.get 0 = 0 := by
  apply BitVec.eq_of_getLsbD_eq
  intro i _
  rw [getLsbD_get]
  simp

end BitRange

namespace SystemKind

/-- The kind of entry with the same purpose and another width. -/
def withWidth (width : Width) : SystemKind → SystemKind
  | ldt => ldt
  | tss _ busy => tss width busy
  | taskGate => taskGate
  | callGate _ => callGate width
  | interruptGate _ => interruptGate width
  | trapGate _ => trapGate width

theorem isSegment_withWidth (width : Width) (kind : SystemKind) :
    (kind.withWidth width).isSegment = kind.isSegment := by
  cases kind <;> rfl

theorem isInterruptTableGate_withWidth (width : Width) (kind : SystemKind) :
    (kind.withWidth width).isInterruptTableGate = kind.isInterruptTableGate := by
  cases kind <;> rfl

theorem withWidth_eq_taskGate_iff (width : Width) (kind : SystemKind) :
    kind.withWidth width = .taskGate ↔ kind = .taskGate := by
  cases kind <;> simp [withWidth]

/-- Every type of long mode is one of protected mode too, of a kind that differs in the width. -/
theorem ofType?_protected32_of_long64 (n : Nat) (kind : SystemKind)
    (h : ofType? n .long64 = some kind) :
    ofType? n .protected32 = some (kind.withWidth .bits32) ∧
      kind.withWidth .bits64 = kind ∧ kind ≠ .taskGate := by
  have hrows : ∀ row ∈ Mode.long64.systemTypes,
      ofType? row.1 .protected32 = some (row.2.withWidth .bits32) ∧
        row.2.withWidth .bits64 = row.2 ∧ row.2 ≠ .taskGate := by
    decide
  exact hrows (n, kind) (mem_systemTypes n .long64 kind h)

theorem type_pos (kind : SystemKind) : 0 < kind.type := by
  unfold type
  split <;> decide

structure IsPlainGate (kind : SystemKind) : Prop where
  isSegment : kind.isSegment = false
  hasParamCount : kind.hasParamCount = false
  hasStackIndex : kind.hasStackIndex = false

/-- The fifth byte of a gate is for the parameter count and the stack index alone. -/
theorem IsPlainGate.disjoint {kind : SystemKind} (h : kind.IsPlainGate) :
    ∀ r ∈ kind.ranges, Bits.paramCount.Disjoint r ∧ Bits.stackIndex.Disjoint r := by
  rw [ranges, h.isSegment, h.hasParamCount, h.hasStackIndex]
  decide

theorem isPlainGate_bits32 (kind : SystemKind) (h : (kind.withWidth .bits64).hasStackIndex) :
    (kind.withWidth .bits32).IsPlainGate := by
  cases kind with
  | interruptGate width | trapGate width => exact ⟨rfl, rfl, rfl⟩
  | ldt | tss width busy | taskGate | callGate width => cases h

theorem isPlainGate_bits64 (kind : SystemKind) (h : (kind.withWidth .bits32).hasParamCount) :
    (kind.withWidth .bits64).IsPlainGate := by
  cases kind with
  | callGate width => exact ⟨rfl, rfl, rfl⟩
  | ldt | tss width busy | taskGate | interruptGate width | trapGate width => cases h

theorem hasParamCount_bits64 (kind : SystemKind) :
    (kind.withWidth .bits64).hasParamCount = false := by
  cases kind <;> rfl

theorem hasStackIndex_bits32 (kind : SystemKind) :
    (kind.withWidth .bits32).hasStackIndex = false := by
  cases kind <;> rfl

end SystemKind

namespace SystemEntry

theorem get_low_eq_zero (s : SystemEntry) (r : BitRange) (h : ∀ q ∈ s.kind.ranges, r.Disjoint q) :
    r.get s.low = 0 := by
  rw [← map_fst_fields] at h
  rw [low, BitRange.get_setAll_of_disjoint r s.fields 0 h, BitRange.get_zero]

theorem number_low_eq_zero (s : SystemEntry) (r : BitRange) (has : Bool)
    (h : has → ∀ q ∈ s.kind.ranges, r.Disjoint q) :
    (if has then (r.get s.low).setWidth 8 else 0) = (0 : BitVec 8) := by
  split
  · rename_i hhas
    rw [s.get_low_eq_zero r (h hhas)]
    rfl
  · rfl

theorem decode_raw_as (s : SystemEntry) (mode : Mode) (other : SystemKind)
    (hsegment : other.isSegment = s.kind.isSegment)
    (htask : other = .taskGate ↔ s.kind = .taskGate)
    (hcount : other.hasParamCount → s.kind.IsPlainGate)
    (hindex : other.hasStackIndex → s.kind.IsPlainGate) :
    decode other (s.raw mode) =
      { s.kept mode with kind := other, paramCount := 0, stackIndex := 0 } := by
  have hparam := s.number_low_eq_zero Bits.paramCount other.hasParamCount fun h r hr =>
    ((hcount h).disjoint r hr).1
  have hstack := s.number_low_eq_zero Bits.stackIndex other.hasStackIndex fun h r hr =>
    ((hindex h).disjoint r hr).2
  rw [← s.decode_raw mode]
  simp only [decode, decodeAddress, low_raw, hsegment, htask, hparam, hstack]

theorem kept_protected32 (s : SystemEntry) (h : s.Canonical .long64) (ht : s.kind ≠ .taskGate) :
    s.kept .protected32 = { s with address := Bits.lowBits 32 s.address } := by
  have haddress : s.kept .protected32 = { s.kept .long64 with
      address := if s.kind = .taskGate then 0 else Bits.lowBits 32 s.address } := rfl
  rw [haddress, (s.kept_eq_self_iff .long64).mpr h, if_neg ht]

theorem eq_zero_of_small (has : Bool) (bound : Nat) (value : BitVec 8)
    (hle : value.toNat ≤ if has then bound else 0) (h : has = false) : value = 0 := by
  rw [h] at hle
  exact BitVec.eq_of_toNat_eq (Nat.le_zero.mp hle)

theorem decode_raw_long64 (s : SystemEntry) (other : SystemKind) (h : s.Canonical .long64)
    (hk : s.kind = other.withWidth .bits32) (hother : other.withWidth .bits64 = other) :
    decode other (s.raw .long64) = { s with kind := other, paramCount := 0 } := by
  have hcount := other.hasParamCount_bits64
  have hindex : s.kind.hasStackIndex = false := hk ▸ other.hasStackIndex_bits32
  have hplain := other.isPlainGate_bits32
  rw [hother] at hcount hplain
  rw [← hk] at hplain
  have hdecode := s.decode_raw_as .long64 other (by rw [hk, other.isSegment_withWidth])
    (by rw [hk, other.withWidth_eq_taskGate_iff]) (fun hc => by rw [hcount] at hc; cases hc) hplain
  have hstack := eq_zero_of_small _ _ _ h.stackIndex_le hindex
  rw [hdecode, (s.kept_eq_self_iff .long64).mpr h, ← hstack]

theorem decode_raw_protected32 (s : SystemEntry) (h : s.Canonical .long64)
    (hk : s.kind.withWidth .bits64 = s.kind) (ht : s.kind ≠ .taskGate) :
    decode (s.kind.withWidth .bits32) (s.raw .protected32) =
      { s with
        kind := s.kind.withWidth .bits32
        address := .ofNat 64 (s.address.toNat % 2 ^ 32)
        stackIndex := 0 } := by
  have hcount : s.kind.hasParamCount = false := hk ▸ s.kind.hasParamCount_bits64
  have hplain := s.kind.isPlainGate_bits64
  rw [hk] at hplain
  have hdecode := s.decode_raw_as .protected32 (s.kind.withWidth .bits32)
    (s.kind.isSegment_withWidth _) (s.kind.withWidth_eq_taskGate_iff _) hplain
    (fun hi => by rw [s.kind.hasStackIndex_bits32] at hi; cases hi)
  have hparam := eq_zero_of_small _ _ _ h.paramCount_le hcount
  have haddress : Bits.lowBits 32 s.address = .ofNat 64 (s.address.toNat % 2 ^ 32) := by
    apply BitVec.eq_of_toNat_eq
    rw [Bits.lowBits, BitVec.toNat_setWidth, BitVec.toNat_setWidth, BitVec.toNat_ofNat]
  rw [hdecode, s.kept_protected32 h ht, ← haddress, ← hparam]

end SystemEntry

namespace Layout

theorem decode_raw_of_ofType? (l : Layout) (s : SystemEntry) (mode : Mode) (other : SystemKind)
    (ht : SystemKind.ofType? s.kind.type l.mode = some other)
    (ha : l.kind = .global ∨ other.isInterruptTableGate) :
    l.decode (s.raw mode) = .system (.decode other (s.raw mode)) := by
  have hs := s.isSet_nonSystem_low
  rw [← s.type_get_low] at ht
  rw [← s.low_raw mode] at hs ht
  obtain ⟨hn, -⟩ | ⟨kind, -, hkind, -, hd⟩ | ⟨hu, -⟩ := l.decode_cases (s.raw mode)
  · rw [hs] at hn
    cases hn
  · rw [hd, Option.some.inj (hkind.symm.trans ht)]
  · exact absurd hu (l.not_unassigned_of_system _ other hs ht ha)

/-- Nothing that is written as a system entry is zero, so without a kind it is unrecognized. -/
theorem decode_raw_of_ofType?_eq_none (l : Layout) (s : SystemEntry) (mode : Mode)
    (ht : SystemKind.ofType? s.kind.type l.mode = none) :
    l.decode (s.raw mode) = .reserved (s.raw mode) true := by
  have hs := s.isSet_nonSystem_low
  have htype := s.type_get_low
  have hpos := s.kind.type_pos
  rw [← s.low_raw mode] at hs htype
  have hzero : (s.raw mode).isZero = false := by
    refine Bool.eq_false_iff.mpr fun hz => ?_
    have hlow : (s.raw mode).low = 0 := eq_of_beq (Bool.and_eq_true_iff.mp hz).1
    rw [hlow, BitRange.get_zero] at htype
    exact Nat.ne_of_lt hpos htype
  obtain ⟨hn, -⟩ | ⟨kind, -, hkind, -⟩ | ⟨-, hd⟩ := l.decode_cases (s.raw mode)
  · rw [hs] at hn
    cases hn
  · rw [htype, ht] at hkind
    cases hkind
  · rw [hd, Entry.ofReserved, hzero]
    rfl

theorem decode_of_isSet (mode : Mode) (raw : RawEntry) (h : Bits.isSet Bits.nonSystem raw.low) :
    decode ⟨.global, mode⟩ raw = .segment (.decode raw.low) := by
  rw [decode, h]
  rfl

theorem system_of_decode (l : Layout) (raw : RawEntry) (s : SystemEntry)
    (h : l.decode raw = .system s) :
    s.Canonical .long64 ∧ SystemKind.ofType? s.kind.type l.mode = some s.kind ∧
      (l.kind = .global ∨ s.kind.isInterruptTableGate) := by
  obtain ⟨-, -, hd⟩ | ⟨kind, -, ht, ha, hd⟩ | ⟨-, hd⟩ := l.decode_cases raw
  · rw [hd] at h
    cases h
  · rw [hd, Entry.system.injEq] at h
    subst h
    have htype : kind.type = _ := SystemKind.type_ofType? _ _ _ ht
    rw [← htype] at ht
    exact ⟨SystemEntry.canonical_decode kind raw, ht, ha⟩
  · rw [hd] at h
    cases h

theorem decode_transcoded_long64 (table : TableKind) (low : Quadword) (s : SystemEntry)
    (h : decode ⟨table, .protected32⟩ (.narrow low) = .system s) (other : SystemKind)
    (hother : SystemKind.ofType? s.kind.type .long64 = some other) :
    decode ⟨table, .long64⟩ (s.raw .long64) =
      .system { s with kind := other, paramCount := 0 } := by
  obtain ⟨hcanonical, htype, hallowed⟩ := system_of_decode _ _ s h
  obtain ⟨hnarrow, hwide, -⟩ := SystemKind.ofType?_protected32_of_long64 _ other hother
  have hk : s.kind = other.withWidth .bits32 := Option.some.inj (htype.symm.trans hnarrow)
  rw [hk, other.isInterruptTableGate_withWidth] at hallowed
  rw [decode_raw_of_ofType? ⟨table, .long64⟩ s .long64 other hother hallowed,
    s.decode_raw_long64 other hcanonical hk hwide]

theorem decode_transcoded_protected32 (table : TableKind) (low high : Quadword) (s : SystemEntry)
    (h : decode ⟨table, .long64⟩ (.wide low high) = .system s) :
    SystemKind.ofType? s.kind.type .protected32 = some (s.kind.withWidth .bits32) ∧
      decode ⟨table, .protected32⟩ (s.raw .protected32) =
        .system { s with
          kind := s.kind.withWidth .bits32
          address := .ofNat 64 (s.address.toNat % 2 ^ 32)
          stackIndex := 0 } := by
  obtain ⟨hcanonical, htype, hallowed⟩ := system_of_decode _ _ s h
  obtain ⟨hnarrow, hwide, htask⟩ := SystemKind.ofType?_protected32_of_long64 _ s.kind htype
  rw [← s.kind.isInterruptTableGate_withWidth .bits32] at hallowed
  rw [decode_raw_of_ofType? ⟨table, .protected32⟩ s .protected32 _ hnarrow hallowed,
    s.decode_raw_protected32 hcanonical hwide htask]
  exact ⟨hnarrow, rfl⟩

theorem decode_encoded_segment (s : SegmentEntry) (mode : Mode) (raw : RawEntry)
    (h : (Entry.segment s).encode mode = .ok raw) :
    ∀ other, decode ⟨.global, other⟩ raw = .segment s.kept := by
  intro other
  obtain ⟨-, rfl⟩ := (Entry.encode_segment_eq_ok_iff s mode raw).mp h
  rw [decode_of_isSet other (.narrow s.low) s.isSet_nonSystem_low]
  exact congrArg Entry.segment s.decode_low

theorem encode_decoded_segment (mode : Mode) (raw : RawEntry) (s : SegmentEntry)
    (h : decode ⟨.global, mode⟩ raw = .segment s) :
    ∃ written, ∀ other, (Entry.segment s).encode other = .ok written ∧
      decode ⟨.global, other⟩ written = .segment s := by
  obtain ⟨hs, -, hd⟩ | ⟨kind, -, -, -, hd⟩ | ⟨-, hd⟩ := decode_cases ⟨.global, mode⟩ raw
  · rw [hd, Entry.segment.injEq] at h
    subst h
    refine ⟨.narrow raw.low, fun other => ⟨?_, decode_of_isSet other _ hs⟩⟩
    rw [Entry.encode, SegmentEntry.encode_eq_ok _ (SegmentEntry.access_decode_le raw.low),
      SegmentEntry.low_decode raw.low hs]
    rfl
  · rw [hd] at h
    cases h
  · rw [hd] at h
    cases h

/-- Written for the other mode, a decoded entry keeps all that its type means there: a narrow one
loses its parameter count, a wide one the upper half of its address and its stack index, and none
gets a number that it did not have. Segments are the same in both modes. -/
theorem transcoded_entries (table : TableKind) :
    (∀ low s, decode ⟨table, .protected32⟩ (.narrow low) = .system s →
      ∃ written upper, (Entry.system s).encode .long64 = .ok (.wide written upper) ∧
        (∀ other, SystemKind.ofType? s.kind.type .long64 = some other →
          decode ⟨table, .long64⟩ (.wide written upper) =
            .system { s with kind := other, paramCount := 0 }) ∧
        (SystemKind.ofType? s.kind.type .long64 = none →
          decode ⟨table, .long64⟩ (.wide written upper) =
            .reserved (.wide written upper) true)) ∧
    (∀ low high s, decode ⟨table, .long64⟩ (.wide low high) = .system s →
      ∃ written other, (Entry.system s).encode .protected32 = .ok (.narrow written) ∧
        SystemKind.ofType? s.kind.type .protected32 = some other ∧
        decode ⟨table, .protected32⟩ (.narrow written) =
          .system { s with
            kind := other
            address := .ofNat 64 (s.address.toNat % 2 ^ 32)
            stackIndex := 0 }) ∧
    (∀ s : SegmentEntry,
      (Entry.segment s).encode .protected32 = (Entry.segment s).encode .long64 ∧
        ∀ raw, (Entry.segment s).encode .long64 = .ok raw →
          ∀ mode, decode ⟨.global, mode⟩ raw = .segment s.kept) ∧
    ∀ mode raw s, decode ⟨.global, mode⟩ raw = .segment s →
      ∃ written, ∀ other, (Entry.segment s).encode other = .ok written ∧
        decode ⟨.global, other⟩ written = .segment s := by
  refine ⟨fun low s h => ⟨s.low, Bits.upperHalf s.address, s.encode_eq_ok .long64, ?_, ?_⟩,
    fun low high s h => ?_, fun s => ⟨rfl, fun raw h => decode_encoded_segment s _ raw h⟩,
    encode_decoded_segment⟩
  · exact decode_transcoded_long64 table low s h
  · exact decode_raw_of_ofType?_eq_none ⟨table, .long64⟩ s .long64
  · obtain ⟨hnarrow, hdecode⟩ := decode_transcoded_protected32 table low high s h
    exact ⟨s.low, _, s.encode_eq_ok .protected32, hnarrow, hdecode⟩

/-- An interrupt gate of long mode with a stack index: the bits of the index are those of a
parameter count, which is not read from them. -/
theorem transcoded_interrupt_gate :
    let s : SystemEntry := SystemEntry.decode (.interruptGate .bits64)
      (.wide 0x80FF8E0300081234 0x55667788)
    s.address = 0x5566778880FF1234 ∧ s.stackIndex = 3 ∧
      ∃ written, (Entry.system s).encode .protected32 = .ok (.narrow written) ∧
        decode ⟨.interrupt, .protected32⟩ (.narrow written) =
          .system { s with
            kind := .interruptGate .bits32, address := 0x80FF1234, stackIndex := 0 } := by
  intro s
  have hdecode : decode ⟨.interrupt, .long64⟩ (.wide 0x80FF8E0300081234 0x55667788) =
      .system s := by decide
  obtain ⟨-, hwide, -⟩ := transcoded_entries .interrupt
  obtain ⟨written, other, hencode, hother, htranscoded⟩ := hwide _ _ s hdecode
  have hkind : SystemKind.interruptGate .bits32 = other := Option.some.inj hother
  have haddress : .ofNat 64 (s.address.toNat % 2 ^ 32) = (0x80FF1234 : Quadword) := by decide
  rw [← hkind, haddress] at htranscoded
  exact ⟨by decide, by decide, written, hencode, htranscoded⟩

end Layout

end DescriptorTables
