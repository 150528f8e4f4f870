import DescriptorTables.Entry.SystemEntry
import DescriptorTables.Proofs.EntryBits

namespace DescriptorTables

def Mode.addressBits : Mode → Quadword → Quadword
  | protected32, address => Bits.lowBits 32 address
  | long64, address => address

namespace SystemKind

def ranges (kind : SystemKind) : List BitRange :=
  (if kind.isSegment then
    [Bits.limitLow, Bits.limitHigh, Bits.baseLow, Bits.baseHigh, Bits.granularity]
  else [Bits.offsetLow, Bits.offsetHigh, Bits.selector]) ++
    (if kind.hasParamCount then [Bits.paramCount] else []) ++
    (if kind.hasStackIndex then [Bits.stackIndex] else []) ++
    [Bits.type, Bits.privilege, Bits.present]

theorem pairwise_disjoint_ranges (kind : SystemKind) :
    kind.ranges.Pairwise BitRange.Disjoint := by
  cases kind with
  | ldt | taskGate => decide
  | tss width busy => cases width <;> cases busy <;> decide
  | callGate width | interruptGate width | trapGate width => cases width <;> decide

theorem disjoint_nonSystem_ranges (kind : SystemKind) :
    ∀ r ∈ kind.ranges, Bits.nonSystem.Disjoint r := by
  cases kind with
  | ldt | taskGate => decide
  | tss width busy => cases width <;> cases busy <;> decide
  | callGate width | interruptGate width | trapGate width => cases width <;> decide

end SystemKind

namespace SystemEntry

def low (s : SystemEntry) : Quadword :=
  BitRange.setAll s.fields 0

def raw (s : SystemEntry) : Mode → RawEntry
  | .protected32 => .narrow s.low
  | .long64 => .wide s.low (Bits.upperHalf s.address)

theorem map_fst_fields (s : SystemEntry) : s.fields.map Prod.fst = s.kind.ranges := by
  unfold fields targetFields SystemKind.ranges
  cases s.kind.isSegment <;> cases s.kind.hasParamCount <;> cases s.kind.hasStackIndex <;> rfl

theorem fits_fields (s : SystemEntry) : ∀ field ∈ s.fields, field.1.Fits field.2 := by
  have htarget : ∀ field ∈ s.targetFields, field.1.Fits field.2 := by
    unfold targetFields
    split
    · refine List.forall_mem_append.mpr ⟨List.forall_mem_append.mpr ⟨?_, ?_⟩,
        List.forall_mem_singleton.mpr ?_⟩
      · exact Bits.fits_limitFields _
      · exact Bits.fits_baseFields s.address
      · exact Bits.fits_flag Bits.granularity _ (by decide)
    · refine List.forall_mem_append.mpr ⟨?_, List.forall_mem_singleton.mpr ?_⟩
      · exact Bits.fits_offsetFields s.address
      · exact BitRange.fits_setWidth Bits.selector 16 s.selector (by decide)
  have htype : Bits.type.Fits (.ofNat 64 s.kind.type) := by
    cases s.kind with
    | ldt | taskGate => decide
    | tss width busy => cases width <;> cases busy <;> decide
    | callGate width | interruptGate width | trapGate width => cases width <;> decide
  refine List.forall_mem_append.mpr ⟨List.forall_mem_append.mpr ⟨List.forall_mem_append.mpr
    ⟨htarget, ?_⟩, ?_⟩, List.forall_mem_cons.mpr ⟨htype, Bits.fits_accessFields _ _⟩⟩
  · split
    · exact List.forall_mem_singleton.mpr (BitRange.fits_get ⟨0, 5, by decide⟩ _)
    · exact List.forall_mem_nil _
  · split
    · exact List.forall_mem_singleton.mpr (BitRange.fits_get ⟨0, 3, by decide⟩ _)
    · exact List.forall_mem_nil _

theorem encode_eq_ok (s : SystemEntry) (mode : Mode) : s.encode mode = .ok (s.raw mode) := by
  rw [encode, BitRange.assemble_eq_ok s.fields s.fits_fields]
  cases mode <;> rfl

theorem isSome_high_raw (s : SystemEntry) (mode : Mode) :
    (s.raw mode).high.isSome = decide (mode = .long64) := by
  cases mode <;> rfl

theorem get_low (s : SystemEntry) : ∀ field ∈ s.fields, field.1.get s.low = field.2 := by
  apply BitRange.get_setAll_of_fits
  · rw [map_fst_fields]
    exact s.kind.pairwise_disjoint_ranges
  · exact s.fits_fields

theorem type_get_low (s : SystemEntry) : (Bits.type.get s.low).toNat = s.kind.type := by
  have hg : Bits.type.get s.low = .ofNat 64 s.kind.type :=
    s.get_low (Bits.type, .ofNat 64 s.kind.type) (by simp [fields])
  have ht := s.kind.type_lt
  rw [hg, BitVec.toNat_ofNat]
  omega

theorem isSet_nonSystem_low (s : SystemEntry) : Bits.isSet Bits.nonSystem s.low = false := by
  refine Bits.isSet_of_get Bits.nonSystem false s.low (by decide) ?_
  rw [low, BitRange.get_setAll_of_disjoint]
  · rfl
  · rw [map_fst_fields]
    exact s.kind.disjoint_nonSystem_ranges

theorem ring_low (s : SystemEntry) : Bits.ring s.low = s.ring := by
  have hg : Bits.privilege.get s.low = s.ring.setWidth 64 :=
    s.get_low (Bits.privilege, s.ring.setWidth 64) (by simp [fields, Bits.accessFields])
  rw [Bits.ring, hg]
  exact BitRange.setWidth_setWidth_eq_self 2 s.ring (by decide)

theorem isSet_present_low (s : SystemEntry) : Bits.isSet Bits.present s.low = s.isPresent := by
  refine Bits.isSet_of_get Bits.present s.isPresent s.low (by decide) ?_
  exact s.get_low (Bits.present, Bits.flag s.isPresent) (by simp [fields, Bits.accessFields])

theorem base_low (s : SystemEntry) (h : s.kind.isSegment) :
    Bits.base s.low = Bits.lowBits 32 s.address := by
  refine Bits.base_of_fields s.low s.address ?_
  intro field hm
  exact s.get_low field (by simp [fields, targetFields, h, hm])

theorem limit_low (s : SystemEntry) (h : s.kind.isSegment) :
    Bits.limit s.low = s.granularity.unscale s.limit := by
  refine Bits.limit_of_fields s.low _ (s.granularity.toNat_unscale_lt s.limit) ?_
  intro field hm
  exact s.get_low field (by simp [fields, targetFields, h, hm])

theorem pageGranular_low (s : SystemEntry) (h : s.kind.isSegment) :
    Bits.pageGranular s.low = s.granularity := by
  refine Bits.pageGranular_of_get s.granularity s.low ?_
  exact s.get_low (Bits.granularity, Bits.flag (s.granularity = .page))
    (by simp [fields, targetFields, h])

theorem offset_low (s : SystemEntry) (h : s.kind.isSegment = false) :
    Bits.offset s.low = Bits.lowBits 32 s.address := by
  refine Bits.offset_of_fields s.low s.address ?_
  intro field hm
  exact s.get_low field (by simp [fields, targetFields, h, hm])

theorem selector_low (s : SystemEntry) (h : s.kind.isSegment = false) :
    (Bits.selector.get s.low).setWidth 16 = s.selector := by
  have hg : Bits.selector.get s.low = s.selector.setWidth 64 :=
    s.get_low (Bits.selector, s.selector.setWidth 64) (by simp [fields, targetFields, h])
  rw [hg]
  exact BitRange.setWidth_setWidth_eq_self 16 s.selector (by decide)

theorem paramCount_low (s : SystemEntry) (h : s.kind.hasParamCount) :
    (Bits.paramCount.get s.low).setWidth 8 = Bits.lowBits 5 s.paramCount := by
  have hg := s.get_low (Bits.paramCount, BitRange.get ⟨0, 5, by decide⟩ (s.paramCount.setWidth 64))
    (by simp [fields, h])
  rw [hg, Bits.get_eq_lowBits]
  exact Bits.setWidth_lowBits 5 s.paramCount (by decide)

theorem stackIndex_low (s : SystemEntry) (h : s.kind.hasStackIndex) :
    (Bits.stackIndex.get s.low).setWidth 8 = Bits.lowBits 3 s.stackIndex := by
  have hg := s.get_low (Bits.stackIndex, BitRange.get ⟨0, 3, by decide⟩ (s.stackIndex.setWidth 64))
    (by simp [fields, h])
  rw [hg, Bits.get_eq_lowBits]
  exact Bits.setWidth_lowBits 3 s.stackIndex (by decide)

/-- What is left of an entry that is written for a mode and read again as the same kind. -/
def kept (s : SystemEntry) (mode : Mode) : SystemEntry where
  kind := s.kind
  address := if s.kind = .taskGate then 0 else mode.addressBits s.address
  limit := if s.kind.isSegment then s.granularity.scale (s.granularity.unscale s.limit) else 0
  granularity := if s.kind.isSegment then s.granularity else .byte
  ring := s.ring
  isPresent := s.isPresent
  selector := if s.kind.isSegment then 0 else s.selector
  paramCount := if s.kind.hasParamCount then Bits.lowBits 5 s.paramCount else 0
  stackIndex := if s.kind.hasStackIndex then Bits.lowBits 3 s.stackIndex else 0

theorem low_raw (s : SystemEntry) (mode : Mode) : (s.raw mode).low = s.low := by
  cases mode <;> rfl

theorem lowerHalf_or_extension_raw (s : SystemEntry) (mode : Mode) :
    Bits.lowBits 32 s.address |||
        ((s.raw mode).high.elim 0 Bits.extension.get <<< 32) = mode.addressBits s.address := by
  cases mode with
  | protected32 => simp [raw, RawEntry.narrow, Mode.addressBits]
  | long64 =>
    rw [raw, RawEntry.wide, Option.elim_some, Bits.extension_upperHalf]
    exact Bits.lowerHalf_or_upperHalf s.address

theorem decodeAddress_raw (s : SystemEntry) (mode : Mode) :
    decodeAddress s.kind (s.raw mode) =
      if s.kind = .taskGate then 0 else mode.addressBits s.address := by
  have hj := s.lowerHalf_or_extension_raw mode
  rw [decodeAddress, low_raw]
  by_cases hs : s.kind.isSegment
  · have ht : s.kind ≠ .taskGate := by
      intro he
      rw [he] at hs
      cases hs
    rw [if_pos hs, if_neg ht, s.base_low hs, hj]
  · rw [if_neg hs, s.offset_low (Bool.eq_false_iff.mpr hs), hj]

theorem decode_raw (s : SystemEntry) (mode : Mode) : decode s.kind (s.raw mode) = s.kept mode := by
  have hsegment : ∀ hs : s.kind.isSegment, Bits.pageGranular s.low = s.granularity ∧
      Bits.limit s.low = s.granularity.unscale s.limit := fun hs =>
    ⟨s.pageGranular_low hs, s.limit_low hs⟩
  have hgate : ∀ hs : ¬ s.kind.isSegment, (Bits.selector.get s.low).setWidth 16 = s.selector :=
    fun hs => s.selector_low (Bool.eq_false_iff.mpr hs)
  rw [decode, kept, decodeAddress_raw, low_raw, ring_low, isSet_present_low]
  congr 1
  · split
    · rename_i hs
      rw [(hsegment hs).1, (hsegment hs).2]
    · rfl
  · split
    · rename_i hs
      exact (hsegment hs).1
    · rfl
  · split
    · rfl
    · rename_i hs
      exact hgate hs
  · split
    · rename_i hp
      exact s.paramCount_low hp
    · rfl
  · split
    · rename_i hi
      exact s.stackIndex_low hi
    · rfl

structure Canonical (s : SystemEntry) (mode : Mode) : Prop where
  address_lt : mode = .protected32 → s.address.toNat < 2 ^ 32
  address_taskGate : s.kind = .taskGate → s.address = 0
  ofSegment : s.kind.isSegment → s.granularity.Represents s.limit ∧ s.selector = 0
  ofGate : s.kind.isGate → s.limit = 0 ∧ s.granularity = .byte
  paramCount_le : s.paramCount.toNat ≤ if s.kind.hasParamCount then 31 else 0
  stackIndex_le : s.stackIndex.toNat ≤ if s.kind.hasStackIndex then 7 else 0

theorem address_kept_iff (s : SystemEntry) (mode : Mode) :
    (if s.kind = .taskGate then 0 else mode.addressBits s.address) = s.address ↔
      (mode = .protected32 → s.address.toNat < 2 ^ 32) ∧ (s.kind = .taskGate → s.address = 0) := by
  by_cases ht : s.kind = .taskGate
  · have hz : s.address = 0 → s.address.toNat < 2 ^ 32 := by
      intro h
      rw [h]
      decide
    simp only [ht, forall_const]
    exact ⟨fun h => ⟨fun _ => hz h.symm, h.symm⟩, fun h => h.2.symm⟩
  · simp only [ht, false_implies, and_true]
    cases mode with
    | protected32 =>
      simpa [Mode.addressBits] using Bits.lowBits_eq_self_iff 32 s.address
    | long64 => simp [Mode.addressBits]

theorem narrowed_eq_self_iff (has : Bool) (width : Nat) (value : BitVec 8) :
    (if has then Bits.lowBits width value else 0) = value ↔
      value.toNat ≤ if has then 2 ^ width - 1 else 0 := by
  cases has with
  | false =>
    have hz : (0 : BitVec 8) = value ↔ value.toNat = 0 := by
      rw [eq_comm, ← BitVec.toNat_inj]
      rfl
    simpa using hz
  | true =>
    have hp := Nat.two_pow_pos width
    have hlt := Bits.lowBits_eq_self_iff width value
    simp only [if_true]
    rw [hlt]
    omega

theorem kept_eq_iff_fields (s : SystemEntry) (mode : Mode) :
    s.kept mode = s ↔ (s.kept mode).address = s.address ∧ (s.kept mode).limit = s.limit ∧
      (s.kept mode).granularity = s.granularity ∧ (s.kept mode).selector = s.selector ∧
      (s.kept mode).paramCount = s.paramCount ∧ (s.kept mode).stackIndex = s.stackIndex := by
  cases s
  simp [kept]

theorem kept_eq_self_iff (s : SystemEntry) (mode : Mode) :
    s.kept mode = s ↔ s.Canonical mode := by
  have hlimit := s.granularity.scale_unscale_eq_iff s.limit
  have haddress := s.address_kept_iff mode
  have hcount := narrowed_eq_self_iff s.kind.hasParamCount 5 s.paramCount
  have hindex := narrowed_eq_self_iff s.kind.hasStackIndex 3 s.stackIndex
  rw [kept_eq_iff_fields]
  constructor
  · rintro ⟨ha, hl, hg, hs, hp, hi⟩
    refine ⟨(haddress.mp ha).1, (haddress.mp ha).2, ?_, ?_, hcount.mp hp, hindex.mp hi⟩
    · intro hk
      exact ⟨hlimit.mp ((if_pos hk).symm.trans hl), (hs.symm.trans (if_pos hk))⟩
    · intro hk
      have hn : ¬ s.kind.isSegment := by simpa [SystemKind.isGate] using hk
      exact ⟨hl.symm.trans (if_neg hn), hg.symm.trans (if_neg hn)⟩
  · intro h
    refine ⟨haddress.mpr ⟨h.address_lt, h.address_taskGate⟩, ?_, ?_, ?_, hcount.mpr h.paramCount_le,
      hindex.mpr h.stackIndex_le⟩ <;> by_cases hk : s.kind.isSegment
    · exact (if_pos hk).trans (hlimit.mpr (h.ofSegment hk).1)
    · exact (if_neg hk).trans (h.ofGate (by simp [SystemKind.isGate, hk])).1.symm
    · exact if_pos hk
    · exact (if_neg hk).trans (h.ofGate (by simp [SystemKind.isGate, hk])).2.symm
    · exact (if_pos hk).trans (h.ofSegment hk).2.symm
    · exact if_neg hk

end SystemEntry

end DescriptorTables
