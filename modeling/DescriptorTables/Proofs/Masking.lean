import DescriptorTables.Proofs.Decoding
import DescriptorTables.Proofs.SegmentFields
import DescriptorTables.Proofs.SystemFields

namespace DescriptorTables

/-- The ranges of the low quadword that have no meaning in an entry of the kind. -/
def SystemKind.unused : SystemKind → List BitRange
  | ldt | tss _ _ => [⟨52, 3, by decide⟩]
  | taskGate => [Bits.offsetLow, ⟨32, 8, by decide⟩, Bits.offsetHigh]
  | callGate .bits16 | callGate .bits32 => [⟨37, 3, by decide⟩]
  | callGate .bits64 => [⟨32, 8, by decide⟩]
  | interruptGate .bits64 | trapGate .bits64 => [⟨35, 5, by decide⟩]
  | interruptGate _ | trapGate _ => [⟨32, 8, by decide⟩]

/-- The quadwords of a slot without the bits that the entry in it gives no meaning. -/
def Layout.masked (l : Layout) (raw : RawEntry) : RawEntry :=
  match l.decode raw with
  | .system s =>
    ⟨BitRange.clearAll s.kind.unused raw.low, raw.high.map (Bits.lowBits 32)⟩
  | _ => raw

namespace SegmentEntry

theorem covers_ranges : ∀ i < 64, BitRange.covers ranges i = true := by
  decide

theorem separateFields_decode (low : Quadword) (h : Bits.isSet Bits.nonSystem low) :
    ∀ field ∈ (decode low).separateFields, field.2 = field.1.get low := by
  have hlimit : (decode low).granularity.unscale (decode low).limit = Bits.limit low :=
    (Bits.pageGranular low).unscale_scale (Bits.limit low) (Bits.toNat_limit_lt low)
  have hbase : (decode low).base = Bits.base low ||| (0 <<< 32) := by simp [decode]
  have haccess : Bits.access.cut ((decode low).access.setWidth 64) = Bits.access.get low := by
    have ha : (decode low).access = (Bits.access.get low).setWidth 8 := type_and_seven low
    rw [ha, BitRange.setWidth_setWidth_get Bits.access 8 low (by decide)]
    exact BitRange.cut_eq_self Bits.access _ (BitRange.fits_get Bits.access low)
  have hcode : decide ((decode low).kind = .code) = Bits.isSet Bits.executable low := by
    rw [decode]
    cases Bits.isSet Bits.executable low <;> rfl
  have hsize : decide ((decode low).operandSize = .bits32) = Bits.isSet Bits.operandSize low := by
    rw [decode]
    cases Bits.isSet Bits.operandSize low <;> rfl
  refine List.forall_mem_append.mpr ⟨List.forall_mem_append.mpr ⟨List.forall_mem_append.mpr
    ⟨List.forall_mem_append.mpr ⟨?_, ?_⟩, ?_⟩, ?_⟩, ?_⟩
  · rw [hlimit]
    exact Bits.limitFields_copied low
  · rw [hbase]
    exact Bits.baseFields_copied low 0
  · simp only [List.forall_mem_cons]
    rw [hcode, ← h]
    exact ⟨haccess, Bits.flag_isSet Bits.executable low rfl, Bits.flag_isSet Bits.nonSystem low rfl,
      List.forall_mem_nil _⟩
  · exact Bits.accessFields_copied low
  · simp only [List.forall_mem_cons]
    rw [hsize]
    exact ⟨Bits.flag_isSet Bits.available low rfl, Bits.flag_isSet Bits.longMode low rfl,
      Bits.flag_isSet Bits.operandSize low rfl, Bits.flag_pageGranular low, List.forall_mem_nil _⟩

theorem low_decode (low : Quadword) (h : Bits.isSet Bits.nonSystem low) :
    (decode low).low = low := by
  rw [low_eq_setAll_separateFields,
    BitRange.setAll_get_eq_clearAll _ [] low (separateFields_decode low h)]
  · rfl
  · intro i hi _
    rw [map_fst_separateFields]
    exact covers_ranges i hi

theorem access_decode_le (low : Quadword) : (decode low).access.toNat ≤ 15 := by
  have h : (decode low).access.toNat ≤ 7 := by
    change ((Bits.type.get low).setWidth 8 &&& 7).toNat ≤ 7
    rw [BitVec.toNat_and]
    exact Nat.and_le_right
  omega

end SegmentEntry

namespace SystemKind

/-- The ranges that a decoded entry of the kind has copied: a task gate has no entry point. -/
def copiedRanges (kind : SystemKind) : List BitRange :=
  if kind = .taskGate then [Bits.selector, Bits.type, Bits.privilege, Bits.present]
  else kind.ranges

theorem covers_copiedRanges (kind : SystemKind) : ∀ i < 64, i ≠ Bits.nonSystem.start →
    BitRange.covers kind.copiedRanges i = !BitRange.covers kind.unused i := by
  cases kind with
  | ldt | taskGate => decide
  | tss width busy => cases width <;> cases busy <;> decide
  | callGate width | interruptGate width | trapGate width => cases width <;> decide

end SystemKind

namespace SystemEntry

def copiedFields (s : SystemEntry) : List (BitRange × Quadword) :=
  if s.kind = .taskGate then
    (Bits.selector, s.selector.setWidth 64) :: (Bits.type, .ofNat 64 s.kind.type) ::
      Bits.accessFields s.ring s.isPresent
  else s.fields

theorem map_fst_copiedFields (s : SystemEntry) :
    s.copiedFields.map Prod.fst = s.kind.copiedRanges := by
  unfold copiedFields SystemKind.copiedRanges
  split
  · rfl
  · exact s.map_fst_fields

theorem low_eq_setAll_copiedFields (s : SystemEntry) (h : s.kind = .taskGate → s.address = 0) :
    s.low = BitRange.setAll s.copiedFields 0 := by
  unfold copiedFields
  split
  · rename_i hk
    have hz : BitRange.setAll (Bits.offsetFields 0) 0 = 0 := by decide
    rw [low, fields, targetFields, hk, h hk]
    simp only [SystemKind.isSegment, Bool.false_eq_true, if_false, SystemKind.hasParamCount,
      SystemKind.hasStackIndex, List.append_nil, BitRange.setAll_append, hz]
    rfl
  · rfl

theorem targetFields_decode (kind : SystemKind) (raw : RawEntry) (ht : kind ≠ .taskGate) :
    ∀ field ∈ (decode kind raw).targetFields, field.2 = field.1.get raw.low := by
  have hkind : (decode kind raw).kind = kind := rfl
  have haddress : (decode kind raw).address = decodeAddress kind raw := rfl
  unfold targetFields
  rw [hkind, haddress, decodeAddress]
  by_cases hs : kind.isSegment
  · have hgranularity : (decode kind raw).granularity = Bits.pageGranular raw.low := if_pos hs
    have hlimit : (decode kind raw).limit = (Bits.pageGranular raw.low).scale (Bits.limit raw.low) :=
      if_pos hs
    rw [if_pos hs, if_pos hs, hgranularity, hlimit,
      Granularity.unscale_scale _ _ (Bits.toNat_limit_lt raw.low)]
    refine List.forall_mem_append.mpr ⟨List.forall_mem_append.mpr ⟨?_, ?_⟩,
      List.forall_mem_singleton.mpr ?_⟩
    · exact Bits.limitFields_copied raw.low
    · exact Bits.baseFields_copied raw.low _
    · exact Bits.flag_pageGranular raw.low
  · have hselector : (decode kind raw).selector = (Bits.selector.get raw.low).setWidth 16 :=
      if_neg hs
    rw [if_neg hs, if_neg hs, if_neg ht, hselector]
    refine List.forall_mem_append.mpr ⟨?_, List.forall_mem_singleton.mpr ?_⟩
    · exact Bits.offsetFields_copied raw.low _
    · exact BitRange.setWidth_setWidth_get Bits.selector 16 raw.low (by decide)

theorem copiedFields_decode (kind : SystemKind) (raw : RawEntry)
    (h : (Bits.type.get raw.low).toNat = kind.type) :
    ∀ field ∈ (decode kind raw).copiedFields, field.2 = field.1.get raw.low := by
  have hkind : (decode kind raw).kind = kind := rfl
  have htype : BitVec.ofNat 64 kind.type = Bits.type.get raw.low := by
    rw [← h]
    exact BitVec.ofNat_toNat 64 _
  have haccess : ∀ field ∈ (Bits.type, BitVec.ofNat 64 kind.type) ::
      Bits.accessFields (Bits.ring raw.low) (Bits.isSet Bits.present raw.low),
      field.2 = field.1.get raw.low :=
    List.forall_mem_cons.mpr ⟨htype, Bits.accessFields_copied raw.low⟩
  have hnarrow : ∀ r : BitRange, r.width ≤ 8 →
      r.cut (((r.get raw.low).setWidth 8).setWidth 64) = r.get raw.low := by
    intro r hr
    rw [BitRange.setWidth_setWidth_get r 8 raw.low hr]
    exact BitRange.cut_eq_self r _ (BitRange.fits_get r raw.low)
  unfold copiedFields
  rw [hkind]
  by_cases ht : kind = .taskGate
  · have hs : (decode kind raw).selector = (Bits.selector.get raw.low).setWidth 16 := by
      rw [ht]
      rfl
    rw [if_pos ht, hs]
    exact List.forall_mem_cons.mpr
      ⟨BitRange.setWidth_setWidth_get Bits.selector 16 raw.low (by decide), haccess⟩
  · rw [if_neg ht]
    refine List.forall_mem_append.mpr ⟨List.forall_mem_append.mpr ⟨List.forall_mem_append.mpr
      ⟨targetFields_decode kind raw ht, ?_⟩, ?_⟩, haccess⟩
    · rw [hkind]
      split
      · rename_i hp
        have hc : (decode kind raw).paramCount = (Bits.paramCount.get raw.low).setWidth 8 :=
          if_pos hp
        rw [hc]
        exact List.forall_mem_singleton.mpr (hnarrow Bits.paramCount (by decide))
      · exact List.forall_mem_nil _
    · rw [hkind]
      split
      · rename_i hi
        have hc : (decode kind raw).stackIndex = (Bits.stackIndex.get raw.low).setWidth 8 :=
          if_pos hi
        rw [hc]
        exact List.forall_mem_singleton.mpr (hnarrow Bits.stackIndex (by decide))
      · exact List.forall_mem_nil _

theorem low_decode (kind : SystemKind) (raw : RawEntry)
    (hs : Bits.isSet Bits.nonSystem raw.low = false)
    (h : (Bits.type.get raw.low).toNat = kind.type) :
    (decode kind raw).low = BitRange.clearAll kind.unused raw.low := by
  have ha : (decode kind raw).kind = .taskGate → (decode kind raw).address = 0 := by
    intro hk
    change kind = .taskGate at hk
    rw [hk]
    rfl
  rw [low_eq_setAll_copiedFields _ ha]
  refine BitRange.setAll_get_eq_clearAll _ _ raw.low (copiedFields_decode kind raw h) ?_
  intro i hi hset
  have hn : i ≠ Bits.nonSystem.start := by
    intro he
    rw [he] at hset
    exact Bool.false_ne_true (hs.symm.trans hset)
  rw [map_fst_copiedFields]
  exact kind.covers_copiedRanges i hi hn

theorem upperHalf_decode (kind : SystemKind) (low high : Quadword) (h : kind ≠ .taskGate) :
    Bits.upperHalf (decode kind (.wide low high)).address = Bits.lowBits 32 high := by
  have hupper : ∀ lower : Quadword, BitRange.Fits ⟨0, 32, by decide⟩ lower →
      Bits.upperHalf (lower ||| (Bits.extension.get high <<< 32)) =
        Bits.lowBits 32 high := by
    intro lower hl
    rw [Bits.upperHalf, BitRange.get_or_shiftLeft_of_ge 32 32 _ _ (by decide)
      ((BitRange.fits_iff _ _).mp hl)]
    have hcut := BitRange.cut_eq_self Bits.extension _ (BitRange.fits_get Bits.extension high)
    exact hcut.trans (Bits.get_eq_lowBits 32 (by decide) high)
  change Bits.upperHalf (decodeAddress kind (.wide low high)) = _
  rw [decodeAddress]
  split
  · exact hupper _ (BitRange.fits_join Bits.baseLow Bits.baseHigh low (by decide))
  · exact hupper _ (BitRange.fits_join Bits.offsetLow Bits.offsetHigh low (by decide))

end SystemEntry

namespace Layout

theorem raw_decode_eq_masked (l : Layout) (raw : RawEntry) (kind : SystemKind)
    (h : raw.high.isSome = l.needsExtension raw.low)
    (hs : Bits.isSet Bits.nonSystem raw.low = false)
    (ht : SystemKind.ofType? (Bits.type.get raw.low).toNat l.mode = some kind) :
    (SystemEntry.decode kind raw).raw l.mode =
      ⟨BitRange.clearAll kind.unused raw.low, raw.high.map (Bits.lowBits 32)⟩ := by
  have hlow := SystemEntry.low_decode kind raw hs (SystemKind.type_ofType? _ _ _ ht).symm
  rw [l.needsExtension_of_system raw.low kind hs ht] at h
  obtain ⟨low, high⟩ := raw
  cases hm : l.mode with
  | protected32 =>
    cases high with
    | none => exact congrArg RawEntry.narrow hlow
    | some high =>
      rw [hm] at h
      cases h
  | long64 =>
    cases high with
    | none =>
      rw [hm] at h
      cases h
    | some high =>
      have hk : kind ≠ .taskGate := by
        intro he
        rw [hm, he] at ht
        exact ofType?_long64_ne_taskGate _ ht
      exact congr (congrArg RawEntry.wide hlow) (SystemEntry.upperHalf_decode kind low high hk)

/-- Writing what was read from a slot gives back its quadwords, but for the bits without meaning. -/
theorem encode_decode_eq_masked (l : Layout) (raw : RawEntry)
    (h : raw.high.isSome = l.needsExtension raw.low) :
    (l.decode raw).encode l.mode = .ok (l.masked raw) := by
  obtain ⟨hs, hk, hd⟩ | ⟨kind, hs, ht, -, hd⟩ | ⟨hu, hd⟩ := l.decode_cases raw
  · rw [l.needsExtension_of_segment raw.low hs hk] at h
    obtain ⟨low, _ | high⟩ := raw
    · rw [masked, hd, Entry.encode, SegmentEntry.encode_eq_ok _ (SegmentEntry.access_decode_le low),
        SegmentEntry.low_decode low hs]
      rfl
    · cases h
  · rw [masked, hd, Entry.encode, SystemEntry.encode_eq_ok,
      l.raw_decode_eq_masked raw kind h hs ht]
    rfl
  · rw [masked, hd]
    rfl

theorem encode_decode_of_task_state :
    let l : Layout := ⟨.global, .long64⟩
    let raw : RawEntry := .wide 0x80FF891020000067 0xDEADBEEFFFFFFFFF
    raw.high.isSome = l.needsExtension raw.low ∧
      (l.decode raw).encode l.mode = .ok (.wide 0x808F891020000067 0xFFFFFFFF) := by
  intro l raw
  have h : raw.high.isSome = l.needsExtension raw.low := by decide
  refine ⟨h, ?_⟩
  rw [l.encode_decode_eq_masked raw h]
  exact congrArg Except.ok (by decide)

end Layout

end DescriptorTables
