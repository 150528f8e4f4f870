import DescriptorTables.Proofs.SlotLocality
import DescriptorTables.Proofs.TableRoundTrip

namespace DescriptorTables

namespace Region

theorem getElem?_write (region : Region) (offset : Nat) (bytes : List Byte) (i : Nat)
    (h : offset + bytes.length ≤ region.size) :
    (region.write offset bytes)[i]? =
      if offset ≤ i ∧ i < offset + bytes.length then bytes[i - offset]? else region[i]? := by
  have hlead : region.resize offset 0 = region.extract 0 offset := by
    rw [resize, truncate, Nat.sub_eq_zero_of_le (by omega), Array.replicate_zero,
      Array.append_empty]
  have hsize : (region.extract 0 offset).size = offset := by
    rw [Array.size_extract]
    omega
  have hbytes : bytes.toArray.size = bytes.length := List.size_toArray
  rw [write, hlead, Array.append_assoc]
  by_cases hbefore : i < offset
  · have hout : ¬ (offset ≤ i ∧ i < offset + bytes.length) := by omega
    have hlt : i < min offset region.size - 0 := by omega
    rw [if_neg hout, Array.getElem?_append_left (by omega), Array.getElem?_extract, if_pos hlt,
      Nat.zero_add]
  · rw [Array.getElem?_append_right (by omega), hsize]
    by_cases hinside : i < offset + bytes.length
    · have hin : offset ≤ i ∧ i < offset + bytes.length := by omega
      rw [if_pos hin, Array.getElem?_append_left (by omega), List.getElem?_toArray]
    · have hout : ¬ (offset ≤ i ∧ i < offset + bytes.length) := by omega
      have hindex : offset + bytes.length + (i - offset - bytes.length) = i := by omega
      rw [if_neg hout, Array.getElem?_append_right (by omega), hbytes, Array.getElem?_extract,
        hindex]
      by_cases hend : i < region.size
      · exact if_pos (by omega)
      · rw [Array.getElem?_eq_none (Nat.le_of_not_lt hend)]
        exact if_neg (by omega)

theorem size_write_of_le (region : Region) (offset : Nat) (bytes : List Byte)
    (h : offset + bytes.length ≤ region.size) : (region.write offset bytes).size = region.size := by
  rw [size_write]
  exact Nat.max_eq_left h

theorem window_write (region : Region) (offset : Nat) (bytes : List Byte)
    (h : offset + bytes.length ≤ region.size) :
    (region.write offset bytes).window offset bytes.length = bytes := by
  refine List.ext_getElem? fun k => ?_
  rw [window]
  by_cases hk : k < bytes.length
  · have hin : offset ≤ offset + k ∧ offset + k < offset + bytes.length := by omega
    rw [List.getElem?_take_of_lt hk, List.getElem?_drop, Array.getElem?_toList,
      region.getElem?_write offset bytes _ h, if_pos hin, Nat.add_sub_cancel_left]
  · rw [List.getElem?_eq_none (by rw [List.length_take]; omega),
      List.getElem?_eq_none (Nat.le_of_not_lt hk)]

theorem window_write_of_outside (region : Region) (offset : Nat) (bytes : List Byte)
    (start size : Nat) (h : offset + bytes.length ≤ region.size)
    (hout : ∀ i, start ≤ i → i < start + size → i < offset ∨ offset + bytes.length ≤ i) :
    (region.write offset bytes).window start size = region.window start size := by
  refine window_congr _ _ _ _ fun i hi hi' => ?_
  have hoffset := hout i hi hi'
  rw [region.getElem?_write offset bytes i h, if_neg (by omega)]

end Region

namespace Layout

/-- The bytes that are a slot's own, and those of the quadword after its first one where that one is
there and asks for it. -/
def Occupies (l : Layout) (region : Region) (slot i : Nat) : Prop :=
  (slot * l.slotSize ≤ i ∧ i < (slot + 1) * l.slotSize) ∨
    slot * l.slotSize + 8 ≤ region.size ∧
      l.needsExtension (.ofBytes (region.window (slot * l.slotSize) 8)) ∧
      slot * l.slotSize + 8 ≤ i ∧ i < slot * l.slotSize + 16

theorem read_write_of_outside (l : Layout) (region : Region) (offset : Nat) (bytes : List Byte)
    (slot : Size) (hsize : region.size < 2 ^ 64) (h : offset + bytes.length ≤ region.size)
    (hout : ∀ i, l.Occupies region slot.toNat i → i < offset ∨ offset + bytes.length ≤ i) :
    l.read (region.write offset bytes) slot = l.read region slot := by
  have hslot := l.eight_le_slotSize
  have hend : (slot.toNat + 1) * l.slotSize = slot.toNat * l.slotSize + l.slotSize :=
    Nat.succ_mul slot.toNat _
  have hsame := region.size_write_of_le offset bytes h
  have hraw : l.readRaw region slot = l.readRaw (region.write offset bytes) slot := by
    refine l.readRaw_congr _ _ slot hsize hsame.symm ?_ fun hneeds => ?_
    · refine (region.window_write_of_outside offset bytes _ 8 h fun i hi hi' => ?_).symm
      exact hout i (.inl ⟨hi, by omega⟩)
    · refine (region.window_write_of_outside offset bytes _ 8 h fun i hi hi' => ?_).symm
      -- What is missing from the region is not written to either.
      by_cases hlow : slot.toNat * l.slotSize + 8 ≤ region.size
      · exact hout i (.inr ⟨hlow, hneeds, hi, by omega⟩)
      · exact .inr (by omega)
  rw [read, read, hraw]

theorem read_write_self (l : Layout) (region : Region) (index : Size) (raw : RawEntry)
    (hsize : region.size < 2 ^ 64) (hhigh : raw.high.isSome = l.needsExtension raw.low)
    (hfits : index.toNat * l.slotSize + raw.size ≤ region.size) :
    l.read (region.write (index.toNat * l.slotSize) raw.image) index = .ok (l.decode raw) := by
  have hindex : BitVec.ofNat 64 index.toNat = index :=
    (BitVec.ofNat_toNat 64 index).trans (BitVec.setWidth_eq index)
  have hraw : 8 ≤ raw.size := by
    rw [size_eq_of_isSome raw _ rfl]
    split <;> decide
  have hwindow := region.window_write (index.toNat * l.slotSize) raw.image
    (by rw [RawEntry.length_image]; exact hfits)
  rw [RawEntry.length_image] at hwindow
  have hread := (l.readRaw_eq_ok_iff _ index.toNat raw (by omega)).mpr ⟨hhigh, hwindow⟩
  rw [hindex] at hread
  exact l.read_of_ok _ index raw hread

/-- An entry that is read back as it is written is what is read from the slot that it was put in,
and nothing else that is read from the region is different after that. -/
theorem read_of_entry_written (l : Layout) (region : Region) (index : Size) (e : Entry)
    (raw : RawEntry) (hsize : region.size < 2 ^ 64) (hencode : e.encode l.mode = .ok raw)
    (hdecode : l.decode raw = e)
    (hreserved : e.isReserved → raw.high.isSome = l.needsExtension raw.low)
    (hfits : index.toNat * l.slotSize + raw.size ≤ region.size) :
    (∀ i, (region.write (index.toNat * l.slotSize) raw.image)[i]? =
      if index.toNat * l.slotSize ≤ i ∧ i < index.toNat * l.slotSize + raw.size then
        (raw.bytes.take raw.size)[i - index.toNat * l.slotSize]?
      else region[i]?) ∧
    l.read (region.write (index.toNat * l.slotSize) raw.image) index = .ok e ∧
    ∀ slot : Size,
      (∀ i, l.Occupies region slot.toNat i →
        i < index.toNat * l.slotSize ∨ index.toNat * l.slotSize + raw.size ≤ i) →
      l.read (region.write (index.toNat * l.slotSize) raw.image) slot = l.read region slot := by
  have hlength := raw.length_image
  have hbytes : index.toNat * l.slotSize + raw.image.length ≤ region.size := by
    rw [hlength]
    exact hfits
  have hwritten : e.written l.mode = raw := by
    rw [Entry.written, hencode]
  have hhigh := l.isSome_high_written e ⟨raw, hencode, hdecode, hreserved⟩
  rw [hwritten] at hhigh
  refine ⟨fun i => ?_, ?_, fun slot hslot => ?_⟩
  · rw [region.getElem?_write _ raw.image i hbytes, hlength]
    rfl
  · rw [l.read_write_self region index raw hsize hhigh hfits, hdecode]
  · refine l.read_write_of_outside region _ raw.image slot hsize hbytes ?_
    rw [hlength]
    exact hslot

/-- A task state segment put in between a code segment and a slot that is not all there. -/
theorem read_of_task_state_written :
    let l : Layout := ⟨.global, .long64⟩
    let region : Region :=
      #[0xFF, 0xFF, 0, 0, 0, 0x9A, 0xAF, 0, 0xAA, 0xAA, 0xAA, 0xAA, 0xAA, 0xAA, 0xAA, 0xAA,
        0xAA, 0xAA, 0xAA, 0xAA, 0xAA, 0xAA, 0xAA, 0xAA, 0x67, 0, 0, 0]
    let raw : RawEntry := .wide 0x8000891020000067 0xFFFFFFFF
    let e : Entry := .system (.decode (.tss .bits64 false) raw)
    region.size < 2 ^ 64 ∧ e.encode l.mode = .ok raw ∧ l.decode raw = e ∧
      (e.isReserved → raw.high.isSome = l.needsExtension raw.low) ∧
      1 * l.slotSize + raw.size ≤ region.size ∧
      l.read (region.write 8 raw.image) 1 = .ok e ∧
      l.read (region.write 8 raw.image) 0 = l.read region 0 ∧
      l.read (region.write 8 raw.image) 3 = l.read region 3 := by
  intro l region raw e
  have hsize : region.size < 2 ^ 64 := by decide
  have hencode : e.encode l.mode = .ok raw :=
    (SystemEntry.encode_eq_ok _ l.mode).trans (congrArg Except.ok (by decide))
  have hdecode : l.decode raw = e := by decide
  have hreserved : e.isReserved → raw.high.isSome = l.needsExtension raw.low := fun h => by cases h
  have hfits : 1 * l.slotSize + raw.size ≤ region.size := by decide
  obtain ⟨-, hself, hother⟩ :=
    l.read_of_entry_written region 1 e raw hsize hencode hdecode hreserved hfits
  refine ⟨hsize, hencode, hdecode, hreserved, hfits, hself, hother 0 ?_, hother 3 ?_⟩
  · rintro i (⟨-, hi⟩ | ⟨-, hneeds, -⟩)
    · exact .inl hi
    · exact absurd hneeds (by decide)
  · rintro i (⟨hi, -⟩ | ⟨hlow, -⟩)
    · exact .inr hi
    · exact absurd hlow (by decide)

end Layout

end DescriptorTables
