import DescriptorTables.Proofs.Reading

namespace DescriptorTables

namespace Region

theorem toNat_extent (region : Region) (h : region.size < 2 ^ 64) :
    region.extent.toNat = region.size := by
  rw [extent, BitVec.toNat_ofNat, Nat.mod_eq_of_lt h]

theorem quadword?_of_le (region : Region) (offset : Size)
    (h : offset.toNat + 8 ≤ region.size) :
    region.quadword? offset = some (.ofBytes (region.window offset.toNat 8)) := by
  rw [quadword?, if_pos h, window]
  simp [List.extract_eq_take_drop]

theorem quadword?_of_lt (region : Region) (offset : Size)
    (h : region.size < offset.toNat + 8) : region.quadword? offset = none :=
  if_neg (Nat.not_le.mpr h)

/-- The offset of the first quadword of a slot that is not all there. Where the slot begins behind
all the offsets, it is the last one. -/
def missingOffset (region : Region) (start : Nat) : Nat :=
  if 2 ^ 64 ≤ start then 2 ^ 64 - 1
  else if region.size < start + 8 then start
  else start + 8

end Region

namespace Layout

theorem slotSize_lt (l : Layout) : l.slotSize < 2 ^ 64 := by
  unfold slotSize
  split <;> decide

theorem offset?_cases (l : Layout) (index : Size) :
    (2 ^ 64 ≤ index.toNat * l.slotSize ∧ l.offset? index = none) ∨
    ∃ offset, offset.toNat = index.toNat * l.slotSize ∧ l.offset? index = some offset := by
  have hstride : (BitVec.ofNat 64 l.slotSize).toNat = l.slotSize := by
    rw [BitVec.toNat_ofNat, Nat.mod_eq_of_lt l.slotSize_lt]
  rw [offset?, BitVec.umulOverflow, hstride]
  by_cases h : 2 ^ 64 ≤ index.toNat * l.slotSize
  · exact .inl ⟨h, if_pos (decide_eq_true h)⟩
  · refine .inr ⟨_, ?_, if_neg fun hoverflow => h (of_decide_eq_true hoverflow)⟩
    rw [BitVec.toNat_mul, hstride, Nat.mod_eq_of_lt (Nat.not_le.mp h)]

/-- The bytes of a slot are all there, and so are those of the quadword after it where the first
one of the slot needs it. -/
def Readable (l : Layout) (region : Region) (start : Nat) : Prop :=
  start + 8 ≤ region.size ∧
    (l.needsExtension (.ofBytes (region.window start 8)) → start + 16 ≤ region.size)

def rawAt (l : Layout) (region : Region) (start : Nat) : RawEntry where
  low := .ofBytes (region.window start 8)
  high :=
    if l.needsExtension (.ofBytes (region.window start 8)) then
      some (.ofBytes (region.window (start + 8) 8))
    else none

theorem readRaw_cases (l : Layout) (region : Region) (index : Size)
    (hsize : region.size < 2 ^ 64) :
    (l.Readable region (index.toNat * l.slotSize) ∧
      l.readRaw region index = .ok (l.rawAt region (index.toNat * l.slotSize))) ∨
    (¬ l.Readable region (index.toNat * l.slotSize) ∧ ∃ offset,
      l.readRaw region index = .error (.outOfRange index offset region.extent) ∧
        offset.toNat = region.missingOffset (index.toNat * l.slotSize)) := by
  obtain ⟨hbehind, ho⟩ | ⟨offset, hstart, ho⟩ := l.offset?_cases index
  · refine .inr ⟨fun h => ?_, .allOnes 64, ?_, ?_⟩
    · have hlow := h.1
      omega
    · simp only [readRaw, ho]
    · rw [Region.missingOffset, if_pos hbehind]
      rfl
  have hlt : ¬ 2 ^ 64 ≤ index.toNat * l.slotSize := by
    have hoffset := offset.isLt
    omega
  rw [← hstart] at hlt ⊢
  by_cases hlow : region.size < offset.toNat + 8
  · refine .inr ⟨fun h => Nat.not_le.mpr hlow h.1, offset, ?_, ?_⟩
    · simp only [readRaw, ho, region.quadword?_of_lt offset hlow]
    · rw [Region.missingOffset, if_neg hlt, if_pos hlow]
  have hfirst := region.quadword?_of_le offset (Nat.not_lt.mp hlow)
  by_cases hwide : l.needsExtension (.ofBytes (region.window offset.toNat 8))
  · -- The low quadword lies in the region, so the offset of the high one is not beyond its end.
    have hsecond : (offset + 8).toNat = offset.toNat + 8 := by
      rw [BitVec.toNat_add]
      exact Nat.mod_eq_of_lt (Nat.lt_of_le_of_lt (Nat.not_lt.mp hlow) hsize)
    by_cases hhigh : offset.toNat + 16 ≤ region.size
    · have hextension := region.quadword?_of_le (offset + 8) (by rw [hsecond]; exact hhigh)
      refine .inl ⟨⟨Nat.not_lt.mp hlow, fun _ => hhigh⟩, ?_⟩
      simp only [readRaw, ho, hfirst, hwide, hextension, if_true, rawAt, hsecond, RawEntry.wide]
    · have hextension := region.quadword?_of_lt (offset + 8) (by rw [hsecond]; omega)
      refine .inr ⟨fun h => hhigh (h.2 hwide), offset + 8, ?_, ?_⟩
      · simp only [readRaw, ho, hfirst, hwide, hextension, if_true]
      · rw [hsecond, Region.missingOffset, if_neg hlt, if_neg hlow]
  · refine .inl ⟨⟨Nat.not_lt.mp hlow, fun h => absurd h hwide⟩, ?_⟩
    simp only [readRaw, ho, hfirst, hwide, if_false, rawAt, RawEntry.narrow, Bool.false_eq_true]

theorem addressable_of_readRaw (l : Layout) (region : Region) (index : Size) (raw : RawEntry)
    (hsize : region.size < 2 ^ 64) (h : l.readRaw region index = .ok raw) :
    index.toNat * l.slotSize + 8 < 2 ^ 64 := by
  obtain ⟨hr, -⟩ | ⟨-, offset, herror, -⟩ := l.readRaw_cases region index hsize
  · exact Nat.lt_of_le_of_lt hr.1 hsize
  · cases h.symm.trans herror

theorem window_of_readRaw (l : Layout) (region : Region) (index : Size) (raw : RawEntry)
    (hsize : region.size < 2 ^ 64) (h : l.readRaw region index = .ok raw) :
    raw.high.isSome = l.needsExtension raw.low ∧
      index.toNat * l.slotSize + raw.size ≤ region.size ∧
        region.window (index.toNat * l.slotSize) raw.size = raw.image := by
  have haddress := l.addressable_of_readRaw region index raw hsize h
  have hindex : BitVec.ofNat 64 index.toNat = index :=
    (BitVec.ofNat_toNat 64 index).trans (BitVec.setWidth_eq index)
  rw [← hindex] at h
  obtain ⟨hhigh, hwindow⟩ := (l.readRaw_eq_ok_iff region index.toNat raw haddress).mp h
  exact ⟨hhigh, l.add_size_le_of_readRaw region index.toNat raw haddress h, hwindow⟩

theorem readable_iff_of_interrupt (region : Region) (start : Nat) :
    Readable ⟨.interrupt, .long64⟩ region start ↔ start + 16 ≤ region.size :=
  ⟨fun h => h.2 rfl, fun h => ⟨by omega, fun _ => h⟩⟩

theorem read_of_ok (l : Layout) (region : Region) (index : Size) (raw : RawEntry)
    (h : l.readRaw region index = .ok raw) : l.read region index = .ok (l.decode raw) := by
  rw [read, h]
  rfl

theorem read_of_error (l : Layout) (region : Region) (index : Size) (fault : Fault)
    (h : l.readRaw region index = .error fault) : l.read region index = .error fault := by
  rw [read, h]
  rfl

/-- No step on the way to the quadwords of a slot goes beyond the last offset: what would is told
from the bytes that are there. -/
theorem offsets_in_range (l : Layout) (region : Region) (index : Size)
    (hsize : region.size < 2 ^ 64) :
    (∀ offset, l.offset? index = some offset → offset.toNat = index.toNat * l.slotSize) ∧
    (∀ offset : Size, 2 ^ 64 ≤ offset.toNat + 8 → region.quadword? offset = none) ∧
    ∀ offset : Size, (region.quadword? offset).isSome → (offset + 8).toNat = offset.toNat + 8 := by
  refine ⟨fun offset ho => ?_, fun offset h => ?_, fun offset h => ?_⟩
  · obtain ⟨-, hnone⟩ | ⟨other, hstart, hsome⟩ := l.offset?_cases index
    · cases ho.symm.trans hnone
    · rw [Option.some.inj (ho.symm.trans hsome), hstart]
  · exact region.quadword?_of_lt offset (Nat.lt_of_lt_of_le hsize h)
  · by_cases hlow : region.size < offset.toNat + 8
    · rw [region.quadword?_of_lt offset hlow] at h
      cases h
    · rw [BitVec.toNat_add]
      exact Nat.mod_eq_of_lt (Nat.lt_of_le_of_lt (Nat.not_lt.mp hlow) hsize)

/-- A slot is read exactly when its bytes exist, for every index there is; otherwise the fault says
where the missing ones would begin. -/
theorem read_iff_bytes_exist (l : Layout) (region : Region) (index : Size)
    (hsize : region.size < 2 ^ 64) :
    ((∃ raw, l.readRaw region index = .ok raw) ↔
      l.Readable region (index.toNat * l.slotSize)) ∧
    (l = ⟨.interrupt, .long64⟩ → ((∃ raw, l.readRaw region index = .ok raw) ↔
      index.toNat * l.slotSize + 16 ≤ region.size)) ∧
    ((∃ e, l.read region index = .ok e) ↔ ∃ raw, l.readRaw region index = .ok raw) ∧
    (∀ fault, l.readRaw region index = .error fault ↔ l.read region index = .error fault) ∧
    (∀ fault, l.readRaw region index = .error fault → ∃ offset regionSize,
      fault = .outOfRange index offset regionSize ∧ regionSize.toNat = region.size ∧
        offset.toNat = region.missingOffset (index.toNat * l.slotSize)) ∧
    (∀ offset, l.offset? index = some offset → offset.toNat = index.toNat * l.slotSize) ∧
    (∀ offset : Size, 2 ^ 64 ≤ offset.toNat + 8 → region.quadword? offset = none) ∧
    ∀ offset : Size, (region.quadword? offset).isSome →
      (offset + 8).toNat = offset.toNat + 8 := by
  have hextent := region.toNat_extent hsize
  have hoffsets := l.offsets_in_range region index hsize
  have hiff : (∃ raw, l.readRaw region index = .ok raw) ↔
      l.Readable region (index.toNat * l.slotSize) := by
    obtain ⟨hr, hok⟩ | ⟨hr, offset, herror, -⟩ := l.readRaw_cases region index hsize
    · exact ⟨fun _ => hr, fun _ => ⟨_, hok⟩⟩
    · simp [herror, hr]
  refine ⟨hiff, ?_, ?_, ?_, ?_, hoffsets⟩
  · rintro rfl
    exact hiff.trans (readable_iff_of_interrupt region _)
  · cases hraw : l.readRaw region index with
    | ok raw => simp [l.read_of_ok region index raw hraw]
    | error fault => simp [l.read_of_error region index fault hraw]
  · intro fault
    cases hraw : l.readRaw region index with
    | ok raw => simp [l.read_of_ok region index raw hraw]
    | error other =>
      rw [l.read_of_error region index other hraw, Except.error.injEq, Except.error.injEq]
  · intro fault hfault
    obtain ⟨-, hok⟩ | ⟨-, offset, herror, hoffset⟩ := l.readRaw_cases region index hsize
    · cases hfault.symm.trans hok
    · exact ⟨offset, region.extent, Except.error.inj (hfault.symm.trans herror), hextent, hoffset⟩

/-- The first index whose slot of 16 bytes begins behind all the offsets, and a task state segment
whose low quadword is the last one of the region. -/
theorem read_of_missing_quadwords :
    let vectors : Layout := ⟨.interrupt, .long64⟩
    let zeros : Region := #[0, 0, 0, 0, 0, 0, 0, 0, 0, 0, 0, 0, 0, 0, 0, 0]
    let index : Size := 0x1000000000000000
    let segments : Layout := ⟨.global, .long64⟩
    let halved : Region := #[0, 0, 0, 0, 0, 0, 0, 0, 0x67, 0, 0, 0, 0x10, 0x89, 0, 0]
    (zeros.size < 2 ^ 64 ∧ ∃ offset regionSize,
      vectors.read zeros index = .error (.outOfRange index offset regionSize) ∧
        offset.toNat = 2 ^ 64 - 1 ∧ regionSize.toNat = 16) ∧
    halved.size < 2 ^ 64 ∧ 8 + 8 ≤ halved.size ∧ ¬ segments.Readable halved 8 ∧
      ∃ offset regionSize, segments.read halved 1 = .error (.outOfRange 1 offset regionSize) ∧
        offset.toNat = 16 ∧ regionSize.toNat = 16 := by
  intro vectors zeros index segments halved
  have hzeros : zeros.size < 2 ^ 64 := by decide
  have hhalved : halved.size < 2 ^ 64 := by decide
  have hwide : segments.needsExtension (.ofBytes (halved.window 8 8)) := by decide
  have hunreadable : ¬ segments.Readable halved 8 := fun h => absurd (h.2 hwide) (by decide)
  refine ⟨⟨hzeros, ?_⟩, hhalved, by decide, hunreadable, ?_⟩
  · obtain ⟨-, hiff, -, hsame, hfault, -⟩ := vectors.read_iff_bytes_exist zeros index hzeros
    cases hraw : vectors.readRaw zeros index with
    | ok raw => exact absurd ((hiff rfl).mp ⟨raw, hraw⟩) (by decide)
    | error fault =>
      obtain ⟨offset, regionSize, rfl, hregion, hoffset⟩ := hfault fault hraw
      refine ⟨offset, regionSize, (hsame _).mp hraw, hoffset.trans ?_, hregion⟩
      decide
  · obtain ⟨hiff, -, -, hsame, hfault, -⟩ := segments.read_iff_bytes_exist halved 1 hhalved
    cases hraw : segments.readRaw halved 1 with
    | ok raw => exact absurd (hiff.mp ⟨raw, hraw⟩) hunreadable
    | error fault =>
      obtain ⟨offset, regionSize, rfl, hregion, hoffset⟩ := hfault fault hraw
      refine ⟨offset, regionSize, (hsame _).mp hraw, hoffset.trans ?_, hregion⟩
      decide

end Layout

end DescriptorTables
