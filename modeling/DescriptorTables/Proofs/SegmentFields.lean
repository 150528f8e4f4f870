import DescriptorTables.Entry.SegmentEntry
import DescriptorTables.Proofs.EntryBits

namespace DescriptorTables

/-- The type of a segment without the bit that tells code from data. -/
def Bits.access : BitRange := ⟨40, 3, by decide⟩

namespace SegmentEntry

/-- The quadword that the segment is written as, when its access bits fit. -/
def low (s : SegmentEntry) : Quadword :=
  BitRange.setAll s.fields 0

def fieldsWith (s : SegmentEntry) (access : BitRange × Quadword) : List (BitRange × Quadword) :=
  Bits.limitFields (s.granularity.unscale s.limit) ++ Bits.baseFields s.base ++
    [access, (Bits.executable, Bits.flag (s.kind = .code)), (Bits.nonSystem, Bits.flag true)] ++
    Bits.accessFields s.ring s.isPresent ++
    [(Bits.available, Bits.flag s.isAvailable), (Bits.longMode, Bits.flag s.isLongMode),
      (Bits.operandSize, Bits.flag (s.operandSize = .bits32)),
      (Bits.granularity, Bits.flag (s.granularity = .page))]

/-- The fields with the access bits cut off below the bit for code, so that no two overlap. -/
def separateFields (s : SegmentEntry) : List (BitRange × Quadword) :=
  s.fieldsWith (Bits.access, Bits.access.cut (s.access.setWidth 64))

def ranges : List BitRange :=
  [Bits.limitLow, Bits.limitHigh, Bits.baseLow, Bits.baseHigh, Bits.access, Bits.executable,
    Bits.nonSystem, Bits.privilege, Bits.present, Bits.available, Bits.longMode, Bits.operandSize,
    Bits.granularity]

theorem map_fst_separateFields (s : SegmentEntry) : s.separateFields.map Prod.fst = ranges :=
  rfl

theorem pairwise_disjoint_ranges : ranges.Pairwise BitRange.Disjoint := by
  decide

theorem fields_eq_fieldsWith (s : SegmentEntry) :
    s.fields = s.fieldsWith (Bits.type, s.access.setWidth 64) :=
  rfl

theorem fits_fieldsWith (s : SegmentEntry) (access : BitRange × Quadword)
    (h : access.1.Fits access.2) : ∀ field ∈ s.fieldsWith access, field.1.Fits field.2 := by
  refine List.forall_mem_append.mpr ⟨List.forall_mem_append.mpr ⟨List.forall_mem_append.mpr
    ⟨List.forall_mem_append.mpr ⟨?_, ?_⟩, ?_⟩, ?_⟩, ?_⟩
  · exact Bits.fits_limitFields _
  · exact Bits.fits_baseFields s.base
  · simp only [List.forall_mem_cons]
    exact ⟨h, Bits.fits_flag Bits.executable _ (by decide),
      Bits.fits_flag Bits.nonSystem _ (by decide), List.forall_mem_nil _⟩
  · exact Bits.fits_accessFields s.ring s.isPresent
  · simp only [List.forall_mem_cons]
    exact ⟨Bits.fits_flag Bits.available _ (by decide), Bits.fits_flag Bits.longMode _ (by decide),
      Bits.fits_flag Bits.operandSize _ (by decide), Bits.fits_flag Bits.granularity _ (by decide),
      List.forall_mem_nil _⟩

theorem fits_access (access : BitVec 8) (h : access.toNat ≤ 15) :
    Bits.type.Fits (access.setWidth 64) := by
  refine (BitRange.fits_iff Bits.type _).mpr ?_
  intro i hi
  have hp : 2 ^ 4 ≤ 2 ^ i := Nat.pow_le_pow_right (by decide) hi
  have hz : access.getLsbD i = false := Nat.testBit_lt_two_pow (by omega)
  simp [hz]

theorem encode_eq_ok (s : SegmentEntry) (h : s.access.toNat ≤ 15) : s.encode = .ok s.low :=
  BitRange.assemble_eq_ok s.fields (s.fits_fieldsWith _ (fits_access s.access h))

/-- The bit for code is written last, so it does not matter what was written in its place. -/
theorem low_eq_setAll_separateFields (s : SegmentEntry) :
    s.low = BitRange.setAll s.separateFields 0 := by
  have hset : ∀ word, BitRange.setAll
      [(Bits.type, s.access.setWidth 64), (Bits.executable, Bits.flag (s.kind = .code)),
        (Bits.nonSystem, Bits.flag true)] word =
      BitRange.setAll [(Bits.access, Bits.access.cut (s.access.setWidth 64)),
        (Bits.executable, Bits.flag (s.kind = .code)), (Bits.nonSystem, Bits.flag true)] word := by
    intro word
    have ht := BitRange.set_bit_set_succ 40 3 (by decide) (Bits.flag (s.kind = .code))
      (s.access.setWidth 64) word
    have hc := BitRange.set_cut Bits.access (s.access.setWidth 64) word
    rw [← show Bits.access = ⟨40, 3, by decide⟩ from rfl, ← hc] at ht
    exact congrArg (Bits.nonSystem.set (Bits.flag true)) ht
  rw [low, fields_eq_fieldsWith]
  simp only [separateFields, fieldsWith, BitRange.setAll_append, hset]

theorem get_low (s : SegmentEntry) :
    ∀ field ∈ s.separateFields, field.1.get s.low = field.2 := by
  rw [low_eq_setAll_separateFields]
  apply BitRange.get_setAll_of_fits
  · exact pairwise_disjoint_ranges
  · exact s.fits_fieldsWith (Bits.access, Bits.access.cut (s.access.setWidth 64))
      (BitRange.fits_get ⟨0, 3, by decide⟩ _)

theorem isSet_low (s : SegmentEntry) (r : BitRange) (on : Bool) (hw : 0 < r.width)
    (hm : (r, Bits.flag on) ∈ s.separateFields) : Bits.isSet r s.low = on :=
  Bits.isSet_of_get r on s.low hw (s.get_low _ hm)

theorem isSet_nonSystem_low (s : SegmentEntry) : Bits.isSet Bits.nonSystem s.low :=
  s.isSet_low Bits.nonSystem true (by decide) (by simp [separateFields, fieldsWith])

theorem base_low (s : SegmentEntry) :
    Bits.base s.low = Bits.lowBits 32 s.base := by
  refine Bits.base_of_fields s.low s.base ?_
  intro field hm
  exact s.get_low field (by simp [separateFields, fieldsWith, hm])

theorem limit_low (s : SegmentEntry) : Bits.limit s.low = s.granularity.unscale s.limit := by
  refine Bits.limit_of_fields s.low _ (s.granularity.toNat_unscale_lt s.limit) ?_
  intro field hm
  exact s.get_low field (by simp [separateFields, fieldsWith, hm])

theorem pageGranular_low (s : SegmentEntry) : Bits.pageGranular s.low = s.granularity := by
  refine Bits.pageGranular_of_get s.granularity s.low ?_
  exact s.get_low (Bits.granularity, Bits.flag (s.granularity = .page))
    (by simp [separateFields, fieldsWith])

theorem ring_low (s : SegmentEntry) : Bits.ring s.low = s.ring := by
  have hg : Bits.privilege.get s.low = s.ring.setWidth 64 :=
    s.get_low (Bits.privilege, s.ring.setWidth 64)
      (by simp [separateFields, fieldsWith, Bits.accessFields])
  rw [Bits.ring, hg]
  exact BitRange.setWidth_setWidth_eq_self 2 s.ring (by decide)

/-- What is left of a segment that is written and read again. -/
def kept (s : SegmentEntry) : SegmentEntry :=
  { s with
    base := Bits.lowBits 32 s.base
    limit := s.granularity.scale (s.granularity.unscale s.limit)
    access := Bits.lowBits 3 s.access }

theorem type_and_seven (low : Quadword) :
    (Bits.type.get low).setWidth 8 &&& 7 = (Bits.access.get low).setWidth 8 := by
  apply BitVec.eq_of_getLsbD_eq
  intro i hi
  have hseven : (7 : BitVec 8).getLsbD i = decide (i < 3) := Nat.testBit_two_pow_sub_one 3 i
  rw [BitVec.getLsbD_and, hseven, BitVec.getLsbD_setWidth, BitVec.getLsbD_setWidth,
    BitRange.getLsbD_get, BitRange.getLsbD_get]
  change ((decide (i < 8) && (decide (i < 4) && low.getLsbD (40 + i))) && decide (i < 3)) =
    (decide (i < 8) && (decide (i < 3) && low.getLsbD (40 + i)))
  by_cases hw : i < 3
  · have hw' : i < 4 := by omega
    simp [hw, hw']
  · simp [hw]

theorem decode_low (s : SegmentEntry) : decode s.low = s.kept := by
  have haccess : (Bits.type.get s.low).setWidth 8 &&& 7 = s.kept.access := by
    rw [type_and_seven, s.get_low (Bits.access, Bits.access.cut (s.access.setWidth 64))
      (by simp [separateFields, fieldsWith])]
    have hcut := Bits.get_eq_lowBits 3 (by decide) (s.access.setWidth 64)
    exact (congrArg (BitVec.setWidth 8) hcut).trans (Bits.setWidth_lowBits 3 s.access (by decide))
  have hkind := s.isSet_low Bits.executable (s.kind = .code) (by decide)
    (by simp [separateFields, fieldsWith])
  have hpresent := s.isSet_low Bits.present s.isPresent (by decide)
    (by simp [separateFields, fieldsWith, Bits.accessFields])
  have havailable := s.isSet_low Bits.available s.isAvailable (by decide)
    (by simp [separateFields, fieldsWith])
  have hlong := s.isSet_low Bits.longMode s.isLongMode (by decide)
    (by simp [separateFields, fieldsWith])
  have hsize := s.isSet_low Bits.operandSize (s.operandSize = .bits32) (by decide)
    (by simp [separateFields, fieldsWith])
  rw [decode, haccess, base_low, limit_low, pageGranular_low, ring_low, hkind, hpresent,
    havailable, hlong, hsize, kept]
  congr 1
  · cases s.kind <;> rfl
  · cases s.operandSize <;> rfl

structure Canonical (s : SegmentEntry) : Prop where
  base_lt : s.base.toNat < 2 ^ 32
  limit : s.granularity.Represents s.limit
  access_le : s.access.toNat ≤ 7

theorem kept_eq_self_iff (s : SegmentEntry) : s.kept = s ↔ s.Canonical := by
  have hbase := Bits.lowBits_eq_self_iff 32 s.base
  have haccess := Bits.lowBits_eq_self_iff 3 s.access
  constructor
  · intro h
    refine ⟨hbase.mp (congrArg SegmentEntry.base h), ?_, ?_⟩
    · exact (s.granularity.scale_unscale_eq_iff s.limit).mp (congrArg SegmentEntry.limit h)
    · exact Nat.le_of_lt_succ (haccess.mp (congrArg SegmentEntry.access h))
  · intro h
    rw [kept, hbase.mpr h.base_lt, (s.granularity.scale_unscale_eq_iff s.limit).mpr h.limit,
      haccess.mpr (Nat.lt_succ_of_le h.access_le)]

end SegmentEntry

end DescriptorTables
