import DescriptorTables.Proofs.ReadOutcomes
import DescriptorTables.Proofs.SlotBytes

namespace DescriptorTables

/-- The types that mean a system entry, as the architecture's manual lists them. -/
def Mode.systemTypes : Mode → List (Nat × SystemKind)
  | protected32 =>
    [(0x1, .tss .bits16 false), (0x2, .ldt), (0x3, .tss .bits16 true), (0x4, .callGate .bits16),
      (0x5, .taskGate), (0x6, .interruptGate .bits16), (0x7, .trapGate .bits16),
      (0x9, .tss .bits32 false), (0xB, .tss .bits32 true), (0xC, .callGate .bits32),
      (0xE, .interruptGate .bits32), (0xF, .trapGate .bits32)]
  | long64 =>
    [(0x2, .ldt), (0x9, .tss .bits64 false), (0xB, .tss .bits64 true), (0xC, .callGate .bits64),
      (0xE, .interruptGate .bits64), (0xF, .trapGate .bits64)]

structure SegmentEntry.StoredIn (b : SlotBytes) (s : SegmentEntry) : Prop where
  type : s.type = b.type
  access : s.access.toNat = b 5 % 8
  kind : s.kind = .code ↔ (b 5).testBit 3
  ring : s.ring.toNat = b.ring
  isPresent : s.isPresent = b.isPresent
  base : s.base.toNat = b.base
  limit : s.limit.toNat = b.limit
  isAvailable : s.isAvailable = (b 6).testBit 4
  isLongMode : s.isLongMode = (b 6).testBit 5
  operandSize : s.operandSize = .bits32 ↔ (b 6).testBit 6
  granularity : s.granularity = .page ↔ b.isPageGranular

/-- A system entry that has the members which the bytes of a slot spell, and none besides. -/
structure SystemEntry.StoredIn (mode : Mode) (b : SlotBytes) (s : SystemEntry) : Prop where
  kind : (b.type, s.kind) ∈ mode.systemTypes
  type : s.kind.type = b.type
  ring : s.ring.toNat = b.ring
  isPresent : s.isPresent = b.isPresent
  ofSegment : s.kind.isSegment → s.address.toNat = b.base + 2 ^ 32 * b.extension mode ∧
    s.limit.toNat = b.limit ∧ (s.granularity = .page ↔ b.isPageGranular) ∧ s.selector = 0
  ofGate : s.kind.isGate → s.selector.toNat = b.selector ∧ s.limit = 0 ∧ s.granularity = .byte
  address : s.kind.isGate → s.address.toNat =
    if s.kind = .taskGate then 0 else b.offset + 2 ^ 32 * b.extension mode
  paramCount : s.paramCount.toNat = if s.kind.hasParamCount then b 4 % 32 else 0
  stackIndex : s.stackIndex.toNat = if s.kind.hasStackIndex then b 4 % 8 else 0

def RawEntry.StoredIn (size : Nat) (b : SlotBytes) (raw : RawEntry) : Prop :=
  raw.low.toNat = b.quadword 0 ∧
    raw.high.map BitVec.toNat = if size = 16 then some (b.quadword 8) else none

def SystemKind.ForInterrupts (kind : SystemKind) : Prop :=
  kind = .taskGate ∨ (∃ width, kind = .interruptGate width) ∨ ∃ width, kind = .trapGate width

/-- An entry that is what a table of a layout makes of the bytes of a slot. -/
structure Entry.StoredIn (l : Layout) (b : SlotBytes) (e : Entry) : Prop where
  segment_iff : (∃ s, e = .segment s) ↔ b.isNonSystem ∧ l.kind = .global
  system_iff : (∃ s, e = .system s) ↔ b.isNonSystem = false ∧
    ∃ kind, (b.type, kind) ∈ l.mode.systemTypes ∧ (l.kind = .interrupt → kind.ForInterrupts)
  ofSegment : ∀ s, e = .segment s → s.StoredIn b
  ofSystem : ∀ s, e = .system s → s.StoredIn l.mode b
  ofReserved : ∀ raw unrecognized, e = .reserved raw unrecognized →
    raw.StoredIn l.slotSize b ∧ (unrecognized ↔ ∃ k < l.slotSize, b k ≠ 0)

namespace SystemKind

theorem mem_systemTypes (n : Nat) (mode : Mode) (kind : SystemKind)
    (h : ofType? n mode = some kind) : (n, kind) ∈ mode.systemTypes := by
  obtain rfl := type_ofType? n mode kind h
  revert h
  cases kind with
  | ldt | taskGate => cases mode <;> decide
  | tss width busy => cases width <;> cases busy <;> cases mode <;> decide
  | callGate width | interruptGate width | trapGate width =>
    cases width <;> cases mode <;> decide

theorem ofType?_of_mem (mode : Mode) :
    ∀ row ∈ mode.systemTypes, ofType? row.1 mode = some row.2 := by
  cases mode <;> decide

theorem ofType?_eq_some_iff (n : Nat) (mode : Mode) (kind : SystemKind) :
    ofType? n mode = some kind ↔ (n, kind) ∈ mode.systemTypes :=
  ⟨mem_systemTypes n mode kind, ofType?_of_mem mode (n, kind)⟩

theorem isInterruptTableGate_iff (kind : SystemKind) :
    kind.isInterruptTableGate ↔ kind.ForInterrupts := by
  cases kind <;> simp [isInterruptTableGate, isGate, isSegment, isCallGate, ForInterrupts]

end SystemKind

namespace Bits

theorem toNat_base_lt (low : Quadword) : (base low).toNat < 2 ^ 32 :=
  BitRange.toNat_lt_of_fits _ _ (BitRange.fits_join baseLow baseHigh low (by decide))

theorem toNat_offset_lt (low : Quadword) : (offset low).toNat < 2 ^ 32 :=
  BitRange.toNat_lt_of_fits _ _ (BitRange.fits_join offsetLow offsetHigh low (by decide))

end Bits

namespace SegmentEntry

theorem toNat_access_decode (low : Quadword) :
    (decode low).access.toNat = (Bits.type.get low).toNat % 2 ^ 3 := by
  have hlt : (Bits.type.get low).toNat < 2 ^ 4 :=
    BitRange.toNat_lt_of_fits _ _ (BitRange.fits_get Bits.type low)
  change ((Bits.type.get low).setWidth 8 &&& 7).toNat = _
  rw [BitVec.toNat_and, BitVec.toNat_setWidth, Nat.mod_eq_of_lt (by omega)]
  exact Nat.and_two_pow_sub_one_eq_mod _ 3

theorem type_eq (s : SegmentEntry) (h : s.access.toNat < 2 ^ 3) :
    s.type = s.access.toNat + if s.kind = .code then 2 ^ 3 else 0 := by
  have hor := Nat.shiftLeft_add_eq_or_of_lt h 1
  rw [type, BitVec.toNat_or, Nat.or_comm]
  split
  · exact hor.symm.trans (Nat.add_comm _ _)
  · exact Nat.zero_or _

theorem storedIn_decode {b : SlotBytes} {low : Quadword} (h : b.Spells 0 low) :
    (decode low).StoredIn b := by
  have haccess : (decode low).access.toNat = b 5 % 8 := by
    rw [toNat_access_decode, h.type, SlotBytes.type]
    exact Nat.mod_mod_of_dvd _ (by decide)
  have hkind : (decode low).kind = .code ↔ (b 5).testBit 3 := by
    have hset : Bits.isSet Bits.executable low = (b 5).testBit 3 :=
      h.isSet 5 3 (by decide) (by decide) (by decide)
    rw [decode, hset]
    cases (b 5).testBit 3 <;> simp
  have htype : (decode low).type = b.type := by
    rw [type_eq _ (by omega), haccess, SlotBytes.type]
    simp only [hkind, Nat.testBit_eq_decide_div_mod_eq]
    split <;> simp_all <;> omega
  have hsize : (decode low).operandSize = .bits32 ↔ (b 6).testBit 6 := by
    have hset : Bits.isSet Bits.operandSize low = (b 6).testBit 6 :=
      h.isSet 6 6 (by decide) (by decide) (by decide)
    rw [decode, hset]
    cases (b 6).testBit 6 <;> simp
  exact
    { type := htype
      access := haccess
      kind := hkind
      ring := h.ring
      isPresent := h.isPresent
      base := h.base
      limit := h.limit
      isAvailable := h.isSet 6 4 (by decide) (by decide) (by decide)
      isLongMode := h.isSet 6 5 (by decide) (by decide) (by decide)
      operandSize := hsize
      granularity := h.pageGranular }

end SegmentEntry

namespace SystemEntry

variable {mode : Mode} {b : SlotBytes} {raw : RawEntry}

theorem toNat_extension (hhigh : raw.high.isSome = decide (mode = .long64))
    (h : ∀ high, raw.high = some high → b.Spells 8 high) :
    (raw.high.elim 0 Bits.extension.get).toNat = b.extension mode := by
  cases he : raw.high with
  | none =>
    rw [he] at hhigh
    cases mode with
    | protected32 => rfl
    | long64 => cases hhigh
  | some high =>
    rw [he] at hhigh
    cases mode with
    | protected32 => cases hhigh
    | long64 => exact (h high he).extension

theorem toNat_address (lower : Quadword) (hlower : lower.toNat < 2 ^ 32)
    (hhigh : raw.high.isSome = decide (mode = .long64))
    (h : ∀ high, raw.high = some high → b.Spells 8 high) :
    (lower ||| ((raw.high.elim 0 Bits.extension.get) <<< 32)).toNat =
      lower.toNat + 2 ^ 32 * b.extension mode := by
  have hext := toNat_extension hhigh h
  have hlt : (raw.high.elim 0 Bits.extension.get).toNat < 2 ^ 32 := by
    cases raw.high with
    | none => decide
    | some high => exact BitRange.toNat_lt_of_fits _ _ (BitRange.fits_get Bits.extension high)
  rw [BitRange.toNat_or_shiftLeft 32 lower _ hlower (by omega), hext]

theorem storedIn_decode (kind : SystemKind) (hkind : (b.type, kind) ∈ mode.systemTypes)
    (htype : kind.type = b.type) (hlow : b.Spells 0 raw.low)
    (hhigh : raw.high.isSome = decide (mode = .long64))
    (h : ∀ high, raw.high = some high → b.Spells 8 high) :
    (decode kind raw).StoredIn mode b := by
  have hbase := Bits.toNat_base_lt raw.low
  have hoffset := Bits.toNat_offset_lt raw.low
  have hsegment : kind.isSegment →
      (decode kind raw).address.toNat = b.base + 2 ^ 32 * b.extension mode ∧
        (decode kind raw).limit.toNat = b.limit ∧
          ((decode kind raw).granularity = .page ↔ b.isPageGranular) ∧
            (decode kind raw).selector = 0 := by
    intro hs
    simp only [decode, decodeAddress, hs, if_true]
    exact ⟨by rw [toNat_address _ hbase hhigh h, hlow.base], hlow.limit, hlow.pageGranular, trivial⟩
  have hgate : kind.isGate → (decode kind raw).selector.toNat = b.selector ∧
      (decode kind raw).limit = 0 ∧ (decode kind raw).granularity = .byte := by
    intro hg
    have hs : kind.isSegment = false := by simpa [SystemKind.isGate] using hg
    simp only [decode, hs, Bool.false_eq_true, if_false]
    exact ⟨hlow.selector, trivial, trivial⟩
  have haddress : kind.isGate → (decode kind raw).address.toNat =
      if kind = .taskGate then 0 else b.offset + 2 ^ 32 * b.extension mode := by
    intro hg
    have hs : kind.isSegment = false := by simpa [SystemKind.isGate] using hg
    simp only [decode, decodeAddress, hs, Bool.false_eq_true, if_false]
    split
    · rfl
    · rw [toNat_address _ hoffset hhigh h, hlow.offset]
  have hcount : (decode kind raw).paramCount.toNat = if kind.hasParamCount then b 4 % 32 else 0 := by
    simp only [decode]
    split
    · exact hlow.fifthByte 5 (by decide) (by decide)
    · rfl
  have hindex : (decode kind raw).stackIndex.toNat = if kind.hasStackIndex then b 4 % 8 else 0 := by
    simp only [decode]
    split
    · exact hlow.fifthByte 3 (by decide) (by decide)
    · rfl
  exact
    { kind := hkind
      type := htype
      ring := hlow.ring
      isPresent := hlow.isPresent
      ofSegment := hsegment
      ofGate := hgate
      address := haddress
      paramCount := hcount
      stackIndex := hindex }

end SystemEntry

namespace Layout

theorem decode_eq_segment_iff (l : Layout) (raw : RawEntry) :
    (∃ s, l.decode raw = .segment s) ↔ Bits.isSet Bits.nonSystem raw.low ∧ l.kind = .global := by
  obtain ⟨hs, hk, hd⟩ | ⟨kind, hs, -, -, hd⟩ | ⟨hu, hd⟩ := l.decode_cases raw
  · exact ⟨fun _ => ⟨hs, hk⟩, fun _ => ⟨_, hd⟩⟩
  · simp [hd, hs]
  · simp only [hd, Entry.ofReserved, reduceCtorEq, exists_false, false_iff, not_and]
    exact fun hs hk => l.not_unassigned_of_segment raw.low hs hk hu

theorem decode_eq_system_iff (l : Layout) (raw : RawEntry) :
    (∃ s, l.decode raw = .system s) ↔ Bits.isSet Bits.nonSystem raw.low = false ∧
      ∃ kind, SystemKind.ofType? (Bits.type.get raw.low).toNat l.mode = some kind ∧
        (l.kind = .global ∨ kind.isInterruptTableGate) := by
  obtain ⟨hs, -, hd⟩ | ⟨kind, hs, ht, ha, hd⟩ | ⟨hu, hd⟩ := l.decode_cases raw
  · simp [hd, hs]
  · exact ⟨fun _ => ⟨hs, kind, ht, ha⟩, fun _ => ⟨_, hd⟩⟩
  · simp only [hd, Entry.ofReserved, reduceCtorEq, exists_false, false_iff]
    rintro ⟨hs, kind, ht, ha⟩
    exact l.not_unassigned_of_system raw.low kind hs ht ha hu

theorem forInterrupts_iff (l : Layout) (kind : SystemKind) :
    (l.kind = .global ∨ kind.isInterruptTableGate) ↔ (l.kind = .interrupt → kind.ForInterrupts) := by
  rw [kind.isInterruptTableGate_iff]
  cases l.kind <;> simp

variable {b : SlotBytes} {raw : RawEntry}

theorem storedIn_reserved (l : Layout) (hsize : raw.size = l.slotSize) (hlow : b.Spells 0 raw.low)
    (h : ∀ high, raw.high = some high → b.Spells 8 high) :
    raw.StoredIn l.slotSize b ∧ (raw.isZero ↔ ∀ k < l.slotSize, b k = 0) := by
  have hzero := hlow.eq_zero_iff
  simp only [Nat.zero_add] at hzero
  obtain ⟨low, _ | high⟩ := raw
  · have hslot : l.slotSize = 8 := hsize.symm
    rw [hslot]
    refine ⟨⟨hlow.toNat, rfl⟩, ?_⟩
    rw [← hzero]
    simp [RawEntry.isZero]
  · have hslot : l.slotSize = 16 := hsize.symm
    have hspells := h high rfl
    rw [hslot]
    refine ⟨⟨hlow.toNat, congrArg some hspells.toNat⟩, ?_⟩
    have hboth : (⟨low, some high⟩ : RawEntry).isZero ↔ low = 0 ∧ high = 0 := by
      simp [RawEntry.isZero]
    rw [hboth, hzero, hspells.eq_zero_iff]
    constructor
    · rintro ⟨hfirst, hsecond⟩ k hk
      by_cases hlt : k < 8
      · exact hfirst k hlt
      · have hnext := hsecond (k - 8) (by omega)
        rwa [Nat.add_sub_cancel' (by omega)] at hnext
    · intro hall
      exact ⟨fun k hk => hall k (by omega), fun k hk => hall (8 + k) (by omega)⟩

theorem storedIn_decode (l : Layout) (hhigh : raw.high.isSome = l.needsExtension raw.low)
    (hlow : b.Spells 0 raw.low) (h : ∀ high, raw.high = some high → b.Spells 8 high) :
    (l.decode raw).StoredIn l b := by
  have hsegment := l.decode_eq_segment_iff raw
  have hsystem := l.decode_eq_system_iff raw
  simp only [hlow.isNonSystem, hlow.type, l.forInterrupts_iff,
    SystemKind.ofType?_eq_some_iff] at hsegment hsystem
  refine ⟨hsegment, hsystem, ?_, ?_, ?_⟩
  · intro s hs
    obtain ⟨-, -, hd⟩ | ⟨kind, -, -, -, hd⟩ | ⟨-, hd⟩ := l.decode_cases raw
    · rw [← Entry.segment.inj (hd.symm.trans hs)]
      exact SegmentEntry.storedIn_decode hlow
    · cases hd.symm.trans hs
    · cases hd.symm.trans hs
  · intro s hs
    obtain ⟨-, -, hd⟩ | ⟨kind, hn, ht, -, hd⟩ | ⟨-, hd⟩ := l.decode_cases raw
    · cases hd.symm.trans hs
    · rw [← Entry.system.inj (hd.symm.trans hs)]
      rw [l.needsExtension_of_system raw.low kind hn ht] at hhigh
      rw [hlow.type] at ht
      exact SystemEntry.storedIn_decode kind (SystemKind.mem_systemTypes _ _ _ ht)
        (SystemKind.type_ofType? _ _ _ ht) hlow hhigh h
    · cases hd.symm.trans hs
  · intro other unrecognized hs
    obtain ⟨-, -, hd⟩ | ⟨kind, -, -, -, hd⟩ | ⟨-, hd⟩ := l.decode_cases raw
    · cases hd.symm.trans hs
    · cases hd.symm.trans hs
    · have hsize := l.size_eq_span_mul raw hhigh
      have hone : l.span (Entry.ofReserved raw) = 1 := rfl
      rw [hd, hone, Nat.one_mul] at hsize
      obtain ⟨hstored, hzero⟩ := l.storedIn_reserved hsize hlow h
      rw [hd, Entry.ofReserved] at hs
      obtain ⟨rfl, rfl⟩ := Entry.reserved.inj hs
      refine ⟨hstored, ?_⟩
      rw [Bool.not_eq_true', ← Bool.not_eq_true, hzero]
      simp

/-- What is read from a slot is what the architecture makes of the bytes in it. A region has
fewer bytes than there are offsets. -/
theorem storedIn_of_read (l : Layout) (region : Region) (index : Size) (e : Entry)
    (hsize : region.size < 2 ^ 64) (h : l.read region index = .ok e) :
    index.toNat * l.slotSize + l.span e * l.slotSize ≤ region.size ∧
      e.StoredIn l (region.bytesFrom (index.toNat * l.slotSize)) := by
  cases hr : l.readRaw region index with
  | error fault =>
    rw [read, hr] at h
    cases h
  | ok raw =>
    have hdecode : l.decode raw = e := by
      rw [read, hr] at h
      exact Except.ok.inj h
    have haddress := l.addressable_of_readRaw region index raw hsize hr
    have hindex : BitVec.ofNat 64 index.toNat = index :=
      (BitVec.ofNat_toNat 64 index).trans (BitVec.setWidth_eq index)
    rw [← hindex] at hr
    obtain ⟨hhigh, hwindow⟩ := (l.readRaw_eq_ok_iff region index.toNat raw haddress).mp hr
    obtain ⟨hlow, hupper⟩ := (region.window_eq_image_iff _ raw).mp hwindow
    have hfits := l.add_size_le_of_readRaw region index.toNat raw haddress hr
    rw [l.size_eq_span_mul raw hhigh, hdecode] at hfits
    refine ⟨hfits, ?_⟩
    rw [← hdecode]
    exact l.storedIn_decode hhigh (region.spells_bytesFrom _ 0 raw.low hlow) fun high he =>
      region.spells_bytesFrom _ 8 high (hupper high he)

/-- A busy task state segment in the second slot, with a base of eight bytes. -/
theorem address_of_read_task_state :
    let l : Layout := ⟨.global, .long64⟩
    let region : Region := #[0, 0, 0, 0, 0, 0, 0, 0, 0x67, 0, 0x33, 0x22, 0x11, 0xEB, 0xF1, 0x44,
      0x88, 0x77, 0x66, 0x55, 0xFF, 0xFF, 0xFF, 0xFF]
    let s : SystemEntry :=
      .decode (.tss .bits64 true) (.wide 0x44F1EB1122330067 0xFFFFFFFF55667788)
    region.size < 2 ^ 64 ∧ l.read region 1 = .ok (.system s) ∧
      (Entry.system s).StoredIn l (region.bytesFrom 8) ∧ s.address.toNat = 0x5566778844112233 := by
  intro l region s
  have hsize : region.size < 2 ^ 64 := by decide
  have hread : l.read region 1 = .ok (.system s) := by decide
  have hstored := (l.storedIn_of_read region 1 (.system s) hsize hread).2
  have haddress := ((hstored.ofSystem s rfl).ofSegment rfl).1
  refine ⟨hsize, hread, hstored, haddress.trans ?_⟩
  decide

end Layout

end DescriptorTables
