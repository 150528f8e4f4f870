import DescriptorTables.Proofs.EntryBits

namespace DescriptorTables

/-- Values put in their ranges one after the other, unless there is one that does not fit. -/
def BitRange.writeAll (fields : List (BitRange × Quadword)) (word : Quadword) :
    Except Overflow Quadword :=
  fields.foldlM (fun word field => field.1.write field.2 word) word

namespace Bits

def splitFields (base : Quadword) (stored : BitVec 32) : List (BitRange × Quadword) :=
  baseFields base ++ limitFields stored

theorem disjoint_base_limit :
    ∀ r ∈ [baseLow, baseHigh], ∀ s ∈ [limitLow, limitHigh], r.Disjoint s := by
  decide

theorem pairwise_disjoint_splitFields (base : Quadword) (stored : BitVec 32) :
    ((splitFields base stored).map Prod.fst).Pairwise BitRange.Disjoint := by
  change [baseLow, baseHigh, limitLow, limitHigh].Pairwise BitRange.Disjoint
  decide

theorem covers_splitFields (base : Quadword) (stored : BitVec 32) (i : Nat) :
    BitRange.covers ((splitFields base stored).map Prod.fst) i ↔
      i < 40 ∨ 48 ≤ i ∧ i < 52 ∨ 56 ≤ i ∧ i < 64 := by
  change BitRange.covers [baseLow, baseHigh, limitLow, limitHigh] i ↔ _
  simp only [BitRange.covers, BitRange.holds, List.any_cons, List.any_nil, Bool.or_false,
    Bool.or_eq_true, Bool.and_eq_true, decide_eq_true_eq, baseLow, baseHigh, limitLow, limitHigh]
  omega

theorem fits_splitFields (base : Quadword) (stored : BitVec 32) :
    ∀ field ∈ splitFields base stored, field.1.Fits field.2 :=
  List.forall_mem_append.mpr ⟨fits_baseFields base, fits_limitFields stored⟩

theorem splitFields_copied (word : Quadword) :
    ∀ field ∈ splitFields (base word) (limit word), field.2 = field.1.get word := by
  have hbase := baseFields_copied word 0
  simp only [BitVec.ofNat_eq_ofNat, BitVec.zero_shiftLeft, BitVec.or_zero] at hbase
  exact List.forall_mem_append.mpr ⟨hbase, limitFields_copied word⟩

/-- No setter is ever given a value that it would have to refuse. -/
theorem writeAll_baseFields (word base : Quadword) :
    BitRange.writeAll (baseFields base) word = .ok (setBase base word) :=
  BitRange.foldlM_write_eq_ok (baseFields base) word (fits_baseFields base)

theorem writeAll_limitFields (word : Quadword) (stored : BitVec 32) :
    BitRange.writeAll (limitFields stored) word = .ok (setLimit stored word) :=
  BitRange.foldlM_write_eq_ok (limitFields stored) word (fits_limitFields stored)

theorem setLimit_setBase (word base : Quadword) (stored : BitVec 32) :
    setLimit stored (setBase base word) = BitRange.setAll (splitFields base stored) word :=
  (BitRange.setAll_append (baseFields base) (limitFields stored) word).symm

theorem setBase_setLimit (word base : Quadword) (stored : BitVec 32) :
    setBase base (setLimit stored word) = setLimit stored (setBase base word) := by
  apply BitRange.setAll_comm
  exact disjoint_base_limit

theorem get_setLimit_setBase (word base : Quadword) (stored : BitVec 32) :
    ∀ field ∈ splitFields base stored,
      field.1.get (setLimit stored (setBase base word)) = field.2 := by
  rw [setLimit_setBase]
  apply BitRange.get_setAll_of_fits
  · exact pairwise_disjoint_splitFields base stored
  · exact fits_splitFields base stored

theorem base_setLimit_setBase (word base : Quadword) (stored : BitVec 32) :
    Bits.base (setLimit stored (setBase base word)) = lowBits 32 base := by
  apply base_of_fields
  exact (List.forall_mem_append.mp (get_setLimit_setBase word base stored)).1

theorem limit_setLimit_setBase (word base : Quadword) (stored : BitVec 32) :
    limit (setLimit stored (setBase base word)) = lowBits 20 stored := by
  apply limit_eq_lowBits_of_fields
  exact (List.forall_mem_append.mp (get_setLimit_setBase word base stored)).2

theorem base_setLimit (word : Quadword) (stored : BitVec 32) :
    base (setLimit stored word) = base word := by
  have hget : ∀ r ∈ [baseLow, baseHigh], r.get (setLimit stored word) = r.get word := by
    intro r hr
    apply BitRange.get_setAll_of_disjoint
    exact disjoint_base_limit r hr
  have hlow := hget baseLow (by decide)
  have hhigh := hget baseHigh (by decide)
  rw [base, base, hlow, hhigh]

theorem limit_setBase (word base : Quadword) : limit (setBase base word) = limit word := by
  have hget : ∀ r ∈ [limitLow, limitHigh], r.get (setBase base word) = r.get word := by
    intro r hr
    apply BitRange.get_setAll_of_disjoint
    intro s hs
    exact (disjoint_base_limit s hs r hr).symm
  have hlow := hget limitLow (by decide)
  have hhigh := hget limitHigh (by decide)
  rw [limit, limit, hlow, hhigh]

theorem getLsbD_setLimit_setBase (word base : Quadword) (stored : BitVec 32) (i : Nat)
    (h : ¬ (i < 40 ∨ 48 ≤ i ∧ i < 52 ∨ 56 ≤ i ∧ i < 64)) :
    (setLimit stored (setBase base word)).getLsbD i = word.getLsbD i := by
  rw [setLimit_setBase]
  apply BitRange.getLsbD_setAll_of_not_covered
  exact Bool.eq_false_iff.mpr (mt (covers_splitFields base stored i).mp h)

theorem setLimit_setBase_self (word : Quadword) :
    setLimit (limit word) (setBase (base word) word) = word := by
  rw [setLimit_setBase]
  apply BitRange.setAll_of_copied
  exact splitFields_copied word

/-- The two parts of a base and the two of a limit are set without regard to each other and to what
else the quadword holds. -/
theorem split_fields_independent (word base : Quadword) (stored : BitVec 32) :
    let both := setLimit stored (setBase base word)
    (BitRange.writeAll (baseFields base) word >>= BitRange.writeAll (limitFields stored)) =
      .ok both ∧
    (BitRange.writeAll (limitFields stored) word >>= BitRange.writeAll (baseFields base)) =
      .ok both ∧
    setBase base (setLimit stored word) = both ∧
    (Bits.base both).toNat = base.toNat % 2 ^ 32 ∧
    (limit both).toNat = stored.toNat % 2 ^ 20 ∧
    (∀ i, ¬ (i < 40 ∨ 48 ≤ i ∧ i < 52 ∨ 56 ≤ i ∧ i < 64) → both.getLsbD i = word.getLsbD i) ∧
    Bits.base (setLimit stored word) = Bits.base word ∧ limit (setBase base word) = limit word ∧
    setLimit (limit word) (setBase (Bits.base word) word) = word := by
  intro both
  have hbase : Bits.base both = lowBits 32 base := base_setLimit_setBase word base stored
  have hlimit : limit both = lowBits 20 stored := limit_setLimit_setBase word base stored
  refine ⟨?_, ?_, setBase_setLimit word base stored, ?_, ?_,
    getLsbD_setLimit_setBase word base stored, base_setLimit word stored, limit_setBase word base,
    setLimit_setBase_self word⟩
  · rw [writeAll_baseFields]
    exact writeAll_limitFields (setBase base word) stored
  · rw [writeAll_limitFields]
    exact (writeAll_baseFields (setLimit stored word) base).trans
      (congrArg Except.ok (setBase_setLimit word base stored))
  · rw [hbase]
    exact toNat_lowBits 32 base
  · rw [hlimit]
    exact toNat_lowBits 20 stored

end Bits

end DescriptorTables
