import Mathlib.Algebra.Ring.Nat
import DescriptorTables.Slot
import DescriptorTables.Proofs.Decoding

namespace DescriptorTables

namespace Quadword

theorem getLsbD_ofBytes (bytes : List Byte) (i : Nat) (hi : i < 64) :
    (ofBytes bytes).getLsbD i = (bytes.getD (i / 8) 0).getLsbD (i % 8) := by
  induction bytes generalizing i with
  | nil => simp [ofBytes]
  | cons byte rest ih =>
    have hstep : ofBytes (byte :: rest) = (ofBytes rest <<< 8) ||| byte.setWidth 64 := rfl
    rw [hstep, BitVec.getLsbD_or, BitVec.getLsbD_shiftLeft, BitVec.getLsbD_setWidth]
    by_cases h : i < 8
    · have hd : i / 8 = 0 := Nat.div_eq_of_lt h
      have hm : i % 8 = i := Nat.mod_eq_of_lt h
      simp [h, hi, hd, hm]
    · have hd : i / 8 = (i - 8) / 8 + 1 := by omega
      have hm : i % 8 = (i - 8) % 8 := by omega
      have hb : byte.getLsbD i = false := BitVec.getLsbD_of_ge byte i (by omega)
      rw [hd, hm, List.getD_cons_succ, ← ih (i - 8) (by omega), hb]
      simp [h, hi]

theorem length_bytes (word : Quadword) : word.bytes.length = 8 := by
  simp [bytes]

theorem getElem_bytes (word : Quadword) (k : Nat) (hk : k < word.bytes.length) :
    word.bytes[k] = word.extractLsb' (8 * k) 8 := by
  simp [bytes]

theorem ofBytes_bytes (word : Quadword) : ofBytes word.bytes = word := by
  refine BitVec.eq_of_getLsbD_eq fun i hi => ?_
  have hk : i / 8 < word.bytes.length := by
    rw [length_bytes]
    omega
  have hm : i % 8 < 8 := Nat.mod_lt i (by decide)
  rw [getLsbD_ofBytes word.bytes i hi, ← List.getElem_eq_getD (h := hk) 0, getElem_bytes,
    BitVec.getLsbD_extractLsb', Nat.div_add_mod]
  simp [hm]

theorem bytes_ofBytes (bytes : List Byte) (h : bytes.length = 8) :
    (ofBytes bytes).bytes = bytes := by
  refine List.ext_getElem (by rw [length_bytes, h]) fun k hk hk' => ?_
  rw [getElem_bytes]
  refine BitVec.eq_of_getLsbD_eq fun i hi => ?_
  have hd : (8 * k + i) / 8 = k := by omega
  have hm : (8 * k + i) % 8 = i := by omega
  rw [BitVec.getLsbD_extractLsb', getLsbD_ofBytes bytes _ (by omega), hd, hm,
    ← List.getElem_eq_getD (h := hk') 0]
  simp [hi]

end Quadword

namespace Region

/-- The bytes of a region from an offset on, as many of a number of them as there are. -/
def window (region : Region) (offset size : Nat) : List Byte :=
  (region.toList.drop offset).take size

theorem length_window (region : Region) (offset size : Nat) :
    (region.window offset size).length = min size (region.size - offset) := by
  simp [window]

theorem window_add (region : Region) (offset first second : Nat) :
    region.window offset (first + second) =
      region.window offset first ++ region.window (offset + first) second := by
  rw [window, window, window, List.take_add, List.drop_drop]

theorem window_congr (first second : Region) (offset size : Nat)
    (h : ∀ i, offset ≤ i → i < offset + size → first[i]? = second[i]?) :
    first.window offset size = second.window offset size := by
  refine List.ext_getElem? fun k => ?_
  rw [window, window]
  by_cases hk : k < size
  · rw [List.getElem?_take_of_lt hk, List.getElem?_take_of_lt hk, List.getElem?_drop,
      List.getElem?_drop, Array.getElem?_toList, Array.getElem?_toList]
    exact h _ (Nat.le_add_right _ _) (Nat.add_lt_add_left hk offset)
  · rw [List.getElem?_eq_none, List.getElem?_eq_none] <;> rw [List.length_take] <;> omega

theorem quadword?_eq_some_iff (region : Region) (offset : Size) (word : Quadword) :
    region.quadword? offset = some word ↔ region.window offset.toNat 8 = word.bytes := by
  have hlist : (region.extract offset.toNat (offset.toNat + 8)).toList =
      region.window offset.toNat 8 := by
    simp [window, List.extract_eq_take_drop]
  rw [quadword?, hlist]
  constructor
  · intro h
    split at h
    · rename_i hsize
      have hlength : (region.window offset.toNat 8).length = 8 := by
        rw [length_window]
        omega
      rw [← Option.some.inj h, Quadword.bytes_ofBytes _ hlength]
    · cases h
  · intro h
    have hlength := congrArg List.length h
    rw [length_window, Quadword.length_bytes] at hlength
    rw [if_pos (by omega), h, Quadword.ofBytes_bytes]

end Region

namespace RawEntry

theorem image_narrow (low : Quadword) : (narrow low).image = low.bytes := by
  rw [image, bytes, narrow, size]
  exact List.take_left' (Quadword.length_bytes low)

theorem image_wide (low high : Quadword) : (wide low high).image = low.bytes ++ high.bytes := by
  rw [image, List.take_of_length_le]
  · rfl
  · rw [length_bytes]
    exact Nat.le_refl 16

end RawEntry

theorem Region.window_eq_image_iff (region : Region) (offset : Nat) (raw : RawEntry) :
    region.window offset raw.size = raw.image ↔
      region.window offset 8 = raw.low.bytes ∧
        ∀ high, raw.high = some high → region.window (offset + 8) 8 = high.bytes := by
  obtain ⟨low, _ | high⟩ := raw
  · constructor
    · intro h
      exact ⟨h.trans (RawEntry.image_narrow low), fun high he => by cases he⟩
    · intro h
      exact h.1.trans (RawEntry.image_narrow low).symm
  · have hsplit := region.window_add offset 8 8
    constructor
    · intro h
      have happend := hsplit.symm.trans (h.trans (RawEntry.image_wide low high))
      have hlength := congrArg List.length (h.trans (RawEntry.image_wide low high))
      rw [length_window, List.length_append, Quadword.length_bytes, Quadword.length_bytes,
        RawEntry.size] at hlength
      have heq := List.append_inj happend (by
        rw [length_window, Quadword.length_bytes]
        omega)
      refine ⟨heq.1, fun word he => ?_⟩
      rw [← Option.some.inj he]
      exact heq.2
    · rintro ⟨hlow, hhigh⟩
      have he := hsplit
      rw [hlow, hhigh high rfl] at he
      exact he.trans (RawEntry.image_wide low high).symm

namespace Layout

theorem eight_le_slotSize (l : Layout) : 8 ≤ l.slotSize := by
  unfold slotSize
  split <;> decide

theorem addressable_of_lt (l : Layout) (index slots : Nat) (h : index < slots)
    (hslots : slots * l.slotSize < 2 ^ 64) : index * l.slotSize + 8 < 2 ^ 64 := by
  have hnext := Nat.mul_le_mul_right l.slotSize (Nat.succ_le_of_lt h)
  have hsize := l.eight_le_slotSize
  rw [Nat.succ_mul] at hnext
  omega

theorem offset?_ofNat (l : Layout) (index : Nat) (h : index * l.slotSize + 8 < 2 ^ 64) :
    l.offset? (.ofNat 64 index) = some (.ofNat 64 (index * l.slotSize)) := by
  have hpos := l.slotSize_pos
  have hindex : index ≤ index * l.slotSize := Nat.le_mul_of_pos_right index hpos
  have hsize : l.slotSize < 2 ^ 64 := by
    unfold slotSize
    split <;> decide
  rw [offset?, ← BitVec.ofNat_mul, if_neg]
  rw [BitVec.umulOverflow, BitVec.toNat_ofNat, BitVec.toNat_ofNat,
    Nat.mod_eq_of_lt (by omega : index < 2 ^ 64), Nat.mod_eq_of_lt hsize]
  simp only [decide_eq_true_eq]
  omega

theorem readRaw_eq_ok_iff_quadword? (l : Layout) (region : Region) (index offset : Size)
    (raw : RawEntry) (h : l.offset? index = some offset) :
    l.readRaw region index = .ok raw ↔
      raw.high.isSome = l.needsExtension raw.low ∧ region.quadword? offset = some raw.low ∧
        ∀ high, raw.high = some high → region.quadword? (offset + 8) = some high := by
  obtain ⟨low, high⟩ := raw
  simp only [readRaw, h]
  cases region.quadword? offset with
  | none => simp
  | some word =>
    cases he : l.needsExtension word with
    | false =>
      simp only [he, Bool.false_eq_true, if_false, Except.ok.injEq, Option.some.injEq]
      constructor
      · intro hr
        cases hr
        exact ⟨he.symm, rfl, fun high hn => by cases hn⟩
      · rintro ⟨hs, rfl, -⟩
        rw [he, Option.isSome_eq_false_iff, Option.isNone_iff_eq_none] at hs
        rw [hs]
        rfl
    | true =>
      cases region.quadword? (offset + 8) with
      | none =>
        simp only [he, if_true, reduceCtorEq, Option.some.injEq, false_iff]
        rintro ⟨hs, rfl, hh⟩
        rw [he, Option.isSome_iff_exists] at hs
        obtain ⟨second, hs⟩ := hs
        exact hh second hs
      | some second =>
        simp only [he, if_true, Except.ok.injEq, Option.some.injEq]
        constructor
        · intro hr
          cases hr
          exact ⟨he.symm, rfl, fun high hn => Option.some.inj hn⟩
        · rintro ⟨hs, rfl, hh⟩
          rw [he, Option.isSome_iff_exists] at hs
          obtain ⟨third, hs⟩ := hs
          rw [hs, hh third hs]
          rfl

theorem readRaw_eq_ok_iff (l : Layout) (region : Region) (index : Nat) (raw : RawEntry)
    (h : index * l.slotSize + 8 < 2 ^ 64) :
    l.readRaw region (.ofNat 64 index) = .ok raw ↔
      raw.high.isSome = l.needsExtension raw.low ∧
        region.window (index * l.slotSize) raw.size = raw.image := by
  -- Neither offset wraps around, so each quadword is read from where it is in the region.
  have hfirst : (BitVec.ofNat 64 (index * l.slotSize)).toNat = index * l.slotSize := by
    rw [BitVec.toNat_ofNat]
    exact Nat.mod_eq_of_lt (by omega)
  have hsecond : (BitVec.ofNat 64 (index * l.slotSize) + 8).toNat = index * l.slotSize + 8 := by
    rw [BitVec.toNat_add, hfirst]
    exact Nat.mod_eq_of_lt h
  rw [l.readRaw_eq_ok_iff_quadword? region _ _ raw (l.offset?_ofNat index h),
    Region.window_eq_image_iff, Region.quadword?_eq_some_iff, hfirst]
  simp only [Region.quadword?_eq_some_iff, hsecond]

theorem add_size_le_of_readRaw (l : Layout) (region : Region) (index : Nat) (raw : RawEntry)
    (h : index * l.slotSize + 8 < 2 ^ 64) (hr : l.readRaw region (.ofNat 64 index) = .ok raw) :
    index * l.slotSize + raw.size ≤ region.size := by
  have hwindow := ((l.readRaw_eq_ok_iff region index raw h).mp hr).2
  have hlength := congrArg List.length hwindow
  rw [Region.length_window, RawEntry.length_image] at hlength
  have hpos : 0 < raw.size := by
    rw [size_eq_of_isSome raw _ rfl]
    split <;> decide
  omega

end Layout

end DescriptorTables
