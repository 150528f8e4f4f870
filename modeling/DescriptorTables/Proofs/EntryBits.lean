import DescriptorTables.Entry.Bits
import DescriptorTables.Proofs.FieldList

namespace DescriptorTables

namespace Granularity

/-- A limit that 20 stored bits can say in this unit: pages end with twelve ones. -/
def Represents : Granularity → BitVec 32 → Prop
  | byte, limit => limit.toNat < 2 ^ 20
  | page, limit => limit.toNat % 2 ^ 12 = 2 ^ 12 - 1

theorem toNat_scale (g : Granularity) (stored : BitVec 32) (h : stored.toNat < 2 ^ 20) :
    (g.scale stored).toNat = if g = page then 2 ^ 12 * stored.toNat + (2 ^ 12 - 1) else stored.toNat := by
  cases g with
  | byte => rfl
  | page =>
    have hs : stored.toNat <<< 12 < 2 ^ 32 := by
      rw [Nat.shiftLeft_eq]
      omega
    rw [scale, BitVec.toNat_or, BitVec.toNat_shiftLeft, Nat.mod_eq_of_lt hs]
    have hor := Nat.shiftLeft_add_eq_or_of_lt (show 0xFFF < 2 ^ 12 by decide) stored.toNat
    rw [Nat.shiftLeft_eq, Nat.mul_comm] at hor
    rw [Nat.shiftLeft_eq, Nat.mul_comm]
    exact hor.symm

theorem toNat_unscale (g : Granularity) (limit : BitVec 32) :
    (g.unscale limit).toNat = if g = page then limit.toNat / 2 ^ 12 else limit.toNat % 2 ^ 20 := by
  cases g with
  | byte => exact Nat.and_two_pow_sub_one_eq_mod limit.toNat 20
  | page => exact Nat.shiftRight_eq_div_pow limit.toNat 12

theorem toNat_unscale_lt (g : Granularity) (limit : BitVec 32) :
    (g.unscale limit).toNat < 2 ^ 20 := by
  have h := limit.isLt
  rw [toNat_unscale]
  split <;> omega

theorem unscale_scale (g : Granularity) (stored : BitVec 32) (h : stored.toNat < 2 ^ 20) :
    g.unscale (g.scale stored) = stored := by
  apply BitVec.eq_of_toNat_eq
  rw [toNat_unscale, toNat_scale g stored h]
  split <;> omega

theorem scale_unscale_eq_iff (g : Granularity) (limit : BitVec 32) :
    g.scale (g.unscale limit) = limit ↔ g.Represents limit := by
  have h := toNat_scale g (g.unscale limit) (g.toNat_unscale_lt limit)
  rw [toNat_unscale] at h
  rw [BitVec.toNat_inj.symm, h]
  cases g <;> simp only [Represents, reduceCtorEq, if_true, if_false] <;> omega

end Granularity

namespace BitRange

theorem fits_setWidth (r : BitRange) (n : Nat) (value : BitVec n) (h : n ≤ r.width) :
    r.Fits (value.setWidth 64) := by
  refine (fits_iff r _).mpr ?_
  intro i hi
  simp [BitVec.getLsbD_of_ge value i (by omega)]

theorem setWidth_setWidth_get (r : BitRange) (n : Nat) (word : Quadword) (h : r.width ≤ n) :
    ((r.get word).setWidth n).setWidth 64 = r.get word := by
  apply BitVec.eq_of_getLsbD_eq
  intro i hi
  rw [BitVec.getLsbD_setWidth, BitVec.getLsbD_setWidth, getLsbD_get]
  by_cases hw : i < r.width
  · have hn : i < n := by omega
    simp [hi, hn]
  · simp [hw]

theorem setWidth_setWidth_eq_self (n : Nat) (value : BitVec n) (h : n ≤ 64) :
    (value.setWidth 64).setWidth n = value := by
  apply BitVec.eq_of_getLsbD_eq
  intro i hi
  have hi' : i < 64 := by omega
  simp [hi, hi']

end BitRange

namespace Bits

theorem fits_flag (r : BitRange) (on : Bool) (h : 0 < r.width) : r.Fits (flag on) := by
  refine (BitRange.fits_iff r _).mpr ?_
  intro i hi
  have h0 : i ≠ 0 := by omega
  cases on <;> simp [flag, h0]

theorem isSet_of_get (r : BitRange) (on : Bool) (low : Quadword) (hw : 0 < r.width)
    (h : r.get low = flag on) : isSet r low = on := by
  have hget := BitRange.getLsbD_get r low 0
  rw [h] at hget
  cases on <;> simpa [isSet, flag, hw] using hget.symm

theorem flag_isSet (r : BitRange) (low : Quadword) (hw : r.width = 1) :
    flag (isSet r low) = r.get low := by
  apply BitVec.eq_of_getLsbD_eq
  intro i _
  rw [BitRange.getLsbD_get, hw]
  cases hi : i with
  | zero => cases hs : isSet r low <;> simp_all [flag, isSet]
  | succ j => cases hs : isSet r low <;> simp [flag]

theorem pageGranular_of_get (g : Granularity) (low : Quadword)
    (h : granularity.get low = flag (g = .page)) : pageGranular low = g := by
  rw [pageGranular, isSet_of_get granularity _ low (by decide) h]
  cases g <;> rfl

theorem flag_pageGranular (low : Quadword) :
    flag (pageGranular low = .page) = granularity.get low := by
  rw [← flag_isSet granularity low rfl, pageGranular]
  cases isSet granularity low <;> rfl

theorem fits_limitFields (stored : BitVec 32) :
    ∀ field ∈ limitFields stored, field.1.Fits field.2 := by
  refine List.forall_mem_cons.mpr ⟨?_, List.forall_mem_singleton.mpr ?_⟩
  · exact BitRange.fits_get ⟨0, 16, by decide⟩ _
  · exact BitRange.fits_get ⟨16, 4, by decide⟩ _

theorem fits_baseFields (base : Quadword) :
    ∀ field ∈ baseFields base, field.1.Fits field.2 := by
  refine List.forall_mem_cons.mpr ⟨?_, List.forall_mem_singleton.mpr ?_⟩
  · exact BitRange.fits_get ⟨0, 24, by decide⟩ base
  · exact BitRange.fits_get ⟨24, 8, by decide⟩ base

theorem fits_offsetFields (offset : Quadword) :
    ∀ field ∈ offsetFields offset, field.1.Fits field.2 := by
  refine List.forall_mem_cons.mpr ⟨?_, List.forall_mem_singleton.mpr ?_⟩
  · exact BitRange.fits_get ⟨0, 16, by decide⟩ offset
  · exact BitRange.fits_get ⟨16, 16, by decide⟩ offset

theorem fits_accessFields (ring : BitVec 2) (isPresent : Bool) :
    ∀ field ∈ accessFields ring isPresent, field.1.Fits field.2 := by
  refine List.forall_mem_cons.mpr ⟨?_, List.forall_mem_singleton.mpr ?_⟩
  · exact BitRange.fits_setWidth privilege 2 ring (by decide)
  · exact fits_flag present isPresent (by decide)

theorem setWidth_limit (low : Quadword) :
    (limit low).setWidth 64 = limitLow.join limitHigh low := by
  have hf := (BitRange.fits_iff _ _).mp (BitRange.fits_join limitLow limitHigh low (by decide))
  apply BitVec.eq_of_getLsbD_eq
  intro i hi
  rw [limit, BitVec.getLsbD_setWidth, BitVec.getLsbD_setWidth]
  change (decide (i < 64) && (decide (i < 32) && (limitLow.join limitHigh low).getLsbD i)) = _
  by_cases hw : i < 20
  · have h32 : i < 32 := by omega
    simp [hi, h32]
  · rw [hf i (Nat.le_of_not_lt hw), Bool.and_false, Bool.and_false]

theorem toNat_limit_lt (low : Quadword) : (limit low).toNat < 2 ^ 20 := by
  have h := BitRange.toNat_lt_of_fits _ _ (BitRange.fits_join limitLow limitHigh low (by decide))
  rw [← setWidth_limit, BitVec.toNat_setWidth_of_le (by decide)] at h
  exact h

theorem limitFields_copied (low : Quadword) :
    ∀ field ∈ limitFields (limit low), field.2 = field.1.get low := by
  rw [limitFields, setWidth_limit]
  refine List.forall_mem_cons.mpr ⟨?_, List.forall_mem_singleton.mpr ?_⟩
  · exact BitRange.get_join_lower limitLow limitHigh low
  · exact BitRange.get_join_upper limitLow limitHigh low (by decide)

theorem baseFields_copied (low upper : Quadword) :
    ∀ field ∈ baseFields (base low ||| (upper <<< 32)), field.2 = field.1.get low := by
  rw [baseFields, BitRange.get_or_shiftLeft_of_le _ 32 _ _ (by decide),
    BitRange.get_or_shiftLeft_of_le _ 32 _ _ (by decide)]
  refine List.forall_mem_cons.mpr ⟨?_, List.forall_mem_singleton.mpr ?_⟩
  · exact BitRange.get_join_lower baseLow baseHigh low
  · exact BitRange.get_join_upper baseLow baseHigh low (by decide)

theorem offsetFields_copied (low upper : Quadword) :
    ∀ field ∈ offsetFields (offset low ||| (upper <<< 32)), field.2 = field.1.get low := by
  rw [offsetFields, BitRange.get_or_shiftLeft_of_le _ 32 _ _ (by decide),
    BitRange.get_or_shiftLeft_of_le _ 32 _ _ (by decide)]
  refine List.forall_mem_cons.mpr ⟨?_, List.forall_mem_singleton.mpr ?_⟩
  · exact BitRange.get_join_lower offsetLow offsetHigh low
  · exact BitRange.get_join_upper offsetLow offsetHigh low (by decide)

theorem accessFields_copied (low : Quadword) :
    ∀ field ∈ accessFields (ring low) (isSet present low), field.2 = field.1.get low := by
  refine List.forall_mem_cons.mpr ⟨?_, List.forall_mem_singleton.mpr ?_⟩
  · exact BitRange.setWidth_setWidth_get privilege 2 low (by decide)
  · exact flag_isSet present low rfl

def lowBits {n : Nat} (width : Nat) (value : BitVec n) : BitVec n :=
  (value.setWidth width).setWidth n

theorem toNat_lowBits {n : Nat} (width : Nat) (value : BitVec n) :
    (lowBits width value).toNat = value.toNat % 2 ^ width := by
  rw [lowBits, BitVec.toNat_setWidth, BitVec.toNat_setWidth]
  exact Nat.mod_eq_of_lt (Nat.lt_of_le_of_lt (Nat.mod_le _ _) value.isLt)

theorem lowBits_eq_self_iff {n : Nat} (width : Nat) (value : BitVec n) :
    lowBits width value = value ↔ value.toNat < 2 ^ width := by
  constructor
  · intro h
    rw [← h, lowBits, BitVec.toNat_setWidth]
    exact Nat.lt_of_le_of_lt (Nat.mod_le _ _) (value.setWidth width).isLt
  · intro h
    apply BitVec.eq_of_toNat_eq
    rw [lowBits, BitVec.toNat_setWidth, BitVec.toNat_setWidth, Nat.mod_eq_of_lt h,
      Nat.mod_eq_of_lt value.isLt]

theorem get_eq_lowBits (width : Nat) (h : 0 + width ≤ 64) (word : Quadword) :
    BitRange.get ⟨0, width, h⟩ word = lowBits width word := by
  apply BitVec.eq_of_getLsbD_eq
  intro i hi
  rw [BitRange.getLsbD_get, lowBits, BitVec.getLsbD_setWidth, BitVec.getLsbD_setWidth]
  simp [hi]

theorem setWidth_lowBits {n : Nat} (width : Nat) (value : BitVec n) (h : n ≤ 64) :
    (lowBits width (value.setWidth 64)).setWidth n = lowBits width value := by
  apply BitVec.eq_of_getLsbD_eq
  intro i hi
  have hi' : i < 64 := by omega
  simp [lowBits, hi, hi']

theorem base_of_fields (low address : Quadword)
    (h : ∀ field ∈ baseFields address, field.1.get low = field.2) :
    base low = lowBits 32 address := by
  obtain ⟨hlow, hrest⟩ := List.forall_mem_cons.mp h
  have hhigh := List.forall_mem_singleton.mp hrest
  have hj := BitRange.join_eq_get baseLow baseHigh low address (by decide) hlow hhigh
  exact hj.trans (get_eq_lowBits 32 (by decide) address)

theorem offset_of_fields (low address : Quadword)
    (h : ∀ field ∈ offsetFields address, field.1.get low = field.2) :
    offset low = lowBits 32 address := by
  obtain ⟨hlow, hrest⟩ := List.forall_mem_cons.mp h
  have hhigh := List.forall_mem_singleton.mp hrest
  have hj := BitRange.join_eq_get offsetLow offsetHigh low address (by decide) hlow hhigh
  exact hj.trans (get_eq_lowBits 32 (by decide) address)

theorem limit_eq_lowBits_of_fields (low : Quadword) (stored : BitVec 32)
    (h : ∀ field ∈ limitFields stored, field.1.get low = field.2) :
    limit low = lowBits 20 stored := by
  obtain ⟨hlow, hrest⟩ := List.forall_mem_cons.mp h
  have hhigh := List.forall_mem_singleton.mp hrest
  have hj := BitRange.join_eq_get limitLow limitHigh low (stored.setWidth 64) (by decide) hlow hhigh
  have hl : limit low = (limitLow.join limitHigh low).setWidth 32 := rfl
  have hget := hj.trans (get_eq_lowBits 20 (by decide) (stored.setWidth 64))
  rw [hl, hget]
  exact setWidth_lowBits 20 stored (by decide)

theorem limit_of_fields (low : Quadword) (stored : BitVec 32) (hs : stored.toNat < 2 ^ 20)
    (h : ∀ field ∈ limitFields stored, field.1.get low = field.2) : limit low = stored := by
  have hcut := limit_eq_lowBits_of_fields low stored h
  exact hcut.trans ((lowBits_eq_self_iff 20 stored).mpr hs)

theorem extension_upperHalf (address : Quadword) :
    extension.get (upperHalf address) = upperHalf address :=
  BitRange.cut_eq_self extension (upperHalf address)
    (BitRange.fits_get ⟨32, 32, by decide⟩ address)

theorem lowerHalf_or_upperHalf (address : Quadword) :
    lowBits 32 address ||| (upperHalf address <<< 32) = address := by
  have hj := BitRange.join_eq_get ⟨0, 32, by decide⟩ ⟨32, 32, by decide⟩ address address
    (by decide) rfl rfl
  rw [← get_eq_lowBits 32 (by decide)]
  exact hj.trans (BitRange.get_all address)

end Bits

end DescriptorTables
