import Mathlib.Algebra.Ring.Nat
import DescriptorTables.BitRange

namespace DescriptorTables.BitRange

def Disjoint (r s : BitRange) : Prop :=
  r.start + r.width ≤ s.start ∨ s.start + s.width ≤ r.start

instance (r s : BitRange) : Decidable (r.Disjoint s) :=
  inferInstanceAs (Decidable (r.start + r.width ≤ s.start ∨ s.start + s.width ≤ r.start))

def holds (r : BitRange) (i : Nat) : Bool :=
  decide (r.start ≤ i) && decide (i < r.start + r.width)

def covers (ranges : List BitRange) (i : Nat) : Bool :=
  ranges.any fun r => r.holds i

theorem covers_cons (r : BitRange) (ranges : List BitRange) (i : Nat) :
    covers (r :: ranges) i = (r.holds i || covers ranges i) :=
  rfl

/-- As many low bits of a value as the range has room for. -/
def cut (r : BitRange) (value : Quadword) : Quadword :=
  get ⟨0, r.width, by have := r.start_add_width_le; omega⟩ value

def clear (r : BitRange) (word : Quadword) : Quadword :=
  word &&& ~~~r.mask

def clearAll (ranges : List BitRange) (word : Quadword) : Quadword :=
  ranges.foldl (fun word r => r.clear word) word

theorem getLsbD_cut (r : BitRange) (value : Quadword) (i : Nat) :
    (r.cut value).getLsbD i = (decide (i < r.width) && value.getLsbD i) := by
  simp only [cut, getLsbD_get, Nat.zero_add]

theorem cut_eq_self (r : BitRange) (value : Quadword) (h : r.Fits value) : r.cut value = value := by
  apply BitVec.eq_of_getLsbD_eq
  intro i _
  rw [getLsbD_cut]
  by_cases hi : i < r.width
  · simp [hi]
  · simp [hi, (fits_iff r value).mp h i (by omega)]

theorem get_set (r : BitRange) (value word : Quadword) : r.get (r.set value word) = r.cut value := by
  apply BitVec.eq_of_getLsbD_eq
  intro i _
  rw [getLsbD_get, getLsbD_cut, getLsbD_set]
  by_cases hi : i < r.width
  · simp [hi]
  · simp [hi]

theorem get_set_of_disjoint (r s : BitRange) (value word : Quadword) (h : r.Disjoint s) :
    r.get (s.set value word) = r.get word := by
  apply BitVec.eq_of_getLsbD_eq
  intro i _
  rw [getLsbD_get, getLsbD_get, getLsbD_set]
  by_cases hi : i < r.width
  · have hs : ¬ (s.start ≤ r.start + i ∧ r.start + i < s.start + s.width) := by
      unfold Disjoint at h
      omega
    simp only [hs, if_false]
  · simp [hi]

theorem set_cut (r : BitRange) (value word : Quadword) : r.set (r.cut value) word = r.set value word := by
  apply BitVec.eq_of_getLsbD_eq
  intro i _
  rw [getLsbD_set, getLsbD_set, getLsbD_cut]
  by_cases hi : r.start ≤ i ∧ i < r.start + r.width
  · have hw : i - r.start < r.width := by omega
    rw [if_pos hi, if_pos hi, decide_eq_true hw, Bool.true_and]
  · rw [if_neg hi, if_neg hi]

/-- The last bit of a range may be left out when it is written over anyway. -/
theorem set_bit_set_succ (start n : Nat) (h : start + (n + 1) ≤ 64) (top value word : Quadword) :
    set ⟨start + n, 1, by omega⟩ top (set ⟨start, n + 1, h⟩ value word) =
      set ⟨start + n, 1, by omega⟩ top (set ⟨start, n, by omega⟩ value word) := by
  apply BitVec.eq_of_getLsbD_eq
  intro i _
  simp only [getLsbD_set]
  by_cases htop : start + n ≤ i ∧ i < start + n + 1
  · rw [if_pos htop, if_pos htop]
  · rw [if_neg htop, if_neg htop]
    by_cases hi : start ≤ i ∧ i < start + n
    · have hs : start ≤ i ∧ i < start + (n + 1) := by omega
      rw [if_pos hi, if_pos hs]
    · have hs : ¬ (start ≤ i ∧ i < start + (n + 1)) := by omega
      rw [if_neg hi, if_neg hs]

theorem setAll_append (before after : List (BitRange × Quadword)) (word : Quadword) :
    setAll (before ++ after) word = setAll after (setAll before word) :=
  List.foldl_append

theorem get_setAll_of_disjoint (r : BitRange) (fields : List (BitRange × Quadword)) (word : Quadword)
    (h : ∀ s ∈ fields.map Prod.fst, r.Disjoint s) : r.get (setAll fields word) = r.get word := by
  induction fields generalizing word with
  | nil => rfl
  | cons field rest ih =>
    have hrest := ih (field.1.set field.2 word) fun s hs => h s (List.mem_cons_of_mem _ hs)
    rw [get_set_of_disjoint r field.1 field.2 word (h field.1 List.mem_cons_self)] at hrest
    exact hrest

theorem get_setAll (fields : List (BitRange × Quadword)) (word : Quadword) (r : BitRange)
    (value : Quadword) (hd : (fields.map Prod.fst).Pairwise Disjoint) (hm : (r, value) ∈ fields) :
    r.get (setAll fields word) = r.cut value := by
  induction fields generalizing word with
  | nil => cases hm
  | cons field rest ih =>
    obtain ⟨hfield, hrest⟩ := List.pairwise_cons.mp hd
    cases List.mem_cons.mp hm with
    | inl he =>
      subst he
      exact (get_setAll_of_disjoint r rest _ hfield).trans (get_set r value word)
    | inr hr => exact ih _ hrest hr

theorem getLsbD_set_get (r : BitRange) (word target : Quadword) (i : Nat) :
    (r.set (r.get word) target).getLsbD i =
      if r.holds i then word.getLsbD i else target.getLsbD i := by
  rw [getLsbD_set, getLsbD_get]
  by_cases hi : r.start ≤ i ∧ i < r.start + r.width
  · have hw : i - r.start < r.width := by omega
    have he : r.start + (i - r.start) = i := by omega
    simp [holds, hi, hw, he]
  · have hn : r.holds i = false := by simpa [holds] using hi
    simp [hi, hn]

theorem getLsbD_setAll_get (fields : List (BitRange × Quadword)) (word target : Quadword)
    (h : ∀ field ∈ fields, field.2 = field.1.get word) (i : Nat) :
    (setAll fields target).getLsbD i =
      if covers (fields.map Prod.fst) i then word.getLsbD i else target.getLsbD i := by
  induction fields generalizing target with
  | nil => rfl
  | cons field rest ih =>
    have hrest := ih (field.1.set field.2 target) fun other hother =>
      h other (List.mem_cons_of_mem _ hother)
    rw [h field List.mem_cons_self, getLsbD_set_get] at hrest
    rw [setAll, List.foldl_cons, ← setAll, h field List.mem_cons_self, hrest, List.map_cons,
      covers_cons]
    cases field.1.holds i <;> cases covers (rest.map Prod.fst) i <;> rfl

theorem getLsbD_clear (r : BitRange) (word : Quadword) (i : Nat) :
    (r.clear word).getLsbD i = (!r.holds i && word.getLsbD i) := by
  rw [clear, BitVec.getLsbD_and, BitVec.getLsbD_not, getLsbD_mask, ← holds]
  by_cases hi : i < 64
  · rw [decide_eq_true hi, Bool.true_and, Bool.and_comm]
  · simp [BitVec.getLsbD_of_ge word i (by omega)]

theorem getLsbD_clearAll (ranges : List BitRange) (word : Quadword) (i : Nat) :
    (clearAll ranges word).getLsbD i = (!covers ranges i && word.getLsbD i) := by
  induction ranges generalizing word with
  | nil => rfl
  | cons r rest ih =>
    refine (ih (r.clear word)).trans ?_
    rw [getLsbD_clear, covers_cons, Bool.not_or, ← Bool.and_assoc, Bool.and_comm (!covers rest i)]

theorem setAll_get_eq_clearAll (fields : List (BitRange × Quadword)) (ranges : List BitRange)
    (word : Quadword) (h : ∀ field ∈ fields, field.2 = field.1.get word)
    (hc : ∀ i < 64, word.getLsbD i = true →
      covers (fields.map Prod.fst) i = !covers ranges i) :
    setAll fields 0 = clearAll ranges word := by
  apply BitVec.eq_of_getLsbD_eq
  intro i hi
  rw [getLsbD_setAll_get fields word 0 h, getLsbD_clearAll]
  cases hw : word.getLsbD i with
  | false => simp
  | true => simp [hc i hi hw]

theorem set_comm (r s : BitRange) (value other word : Quadword) (h : r.Disjoint s) :
    r.set value (s.set other word) = s.set other (r.set value word) := by
  apply BitVec.eq_of_getLsbD_eq
  intro i _
  simp only [getLsbD_set]
  by_cases hr : r.start ≤ i ∧ i < r.start + r.width
  · have hs : ¬ (s.start ≤ i ∧ i < s.start + s.width) := by
      unfold Disjoint at h
      omega
    simp only [hr, hs, and_self, if_true, if_false]
  · simp only [hr, if_false]

theorem setAll_set_comm (fields : List (BitRange × Quadword)) (r : BitRange)
    (value word : Quadword) (h : ∀ s ∈ fields.map Prod.fst, r.Disjoint s) :
    setAll fields (r.set value word) = r.set value (setAll fields word) := by
  induction fields generalizing word with
  | nil => rfl
  | cons field rest ih =>
    have hfield := set_comm r field.1 value field.2 word (h field.1 List.mem_cons_self)
    have hrest := ih (field.1.set field.2 word) fun s hs => h s (List.mem_cons_of_mem _ hs)
    change setAll rest (field.1.set field.2 (r.set value word)) = _
    rw [← hfield]
    exact hrest

theorem setAll_comm (fields others : List (BitRange × Quadword)) (word : Quadword)
    (h : ∀ r ∈ fields.map Prod.fst, ∀ s ∈ others.map Prod.fst, r.Disjoint s) :
    setAll fields (setAll others word) = setAll others (setAll fields word) := by
  induction fields generalizing word with
  | nil => rfl
  | cons field rest ih =>
    have hfield := setAll_set_comm others field.1 field.2 word (h field.1 List.mem_cons_self)
    have hrest := ih (field.1.set field.2 word) fun r hr => h r (List.mem_cons_of_mem _ hr)
    change setAll rest (field.1.set field.2 (setAll others word)) = _
    rw [← hfield]
    exact hrest

theorem getLsbD_setAll_of_not_covered (fields : List (BitRange × Quadword)) (word : Quadword)
    (i : Nat) (h : covers (fields.map Prod.fst) i = false) :
    (setAll fields word).getLsbD i = word.getLsbD i := by
  induction fields generalizing word with
  | nil => rfl
  | cons field rest ih =>
    rw [List.map_cons, covers_cons, Bool.or_eq_false_iff] at h
    have hfield : ¬ (field.1.start ≤ i ∧ i < field.1.start + field.1.width) := by
      simpa [holds] using h.1
    have hstep := getLsbD_set field.1 field.2 word i
    rw [if_neg hfield] at hstep
    exact (ih (field.1.set field.2 word) h.2).trans hstep

theorem setAll_of_copied (fields : List (BitRange × Quadword)) (word : Quadword)
    (h : ∀ field ∈ fields, field.2 = field.1.get word) : setAll fields word = word := by
  apply BitVec.eq_of_getLsbD_eq
  intro i _
  rw [getLsbD_setAll_get fields word word h, ite_self]

theorem get_setAll_of_fits (fields : List (BitRange × Quadword)) (word : Quadword)
    (hd : (fields.map Prod.fst).Pairwise Disjoint) (hf : ∀ field ∈ fields, field.1.Fits field.2) :
    ∀ field ∈ fields, field.1.get (setAll fields word) = field.2 := by
  intro field hm
  have hget := get_setAll fields word field.1 field.2 hd hm
  exact hget.trans (cut_eq_self field.1 field.2 (hf field hm))

/-- The bits of two ranges, those of the second one above those of the first. -/
def join (r s : BitRange) (word : Quadword) : Quadword :=
  r.get word ||| (s.get word <<< r.width)

theorem get_or_shiftLeft_of_le (r : BitRange) (k : Nat) (lower upper : Quadword)
    (h : r.start + r.width ≤ k) : r.get (lower ||| (upper <<< k)) = r.get lower := by
  apply BitVec.eq_of_getLsbD_eq
  intro i hi
  rw [getLsbD_get, getLsbD_get]
  by_cases hw : i < r.width
  · have hk : r.start + i < k := by omega
    simp [hk]
  · simp [hw]

theorem get_or_shiftLeft_of_ge (k width : Nat) (lower upper : Quadword) (h : k + width ≤ 64)
    (hl : ∀ i, k ≤ i → lower.getLsbD i = false) :
    get ⟨k, width, h⟩ (lower ||| (upper <<< k)) = get ⟨0, width, by omega⟩ upper := by
  apply BitVec.eq_of_getLsbD_eq
  intro i hi
  rw [getLsbD_get, getLsbD_get]
  by_cases hw : i < width
  · have hk : k + i < 64 := by omega
    have he : k + i - k = i := by omega
    have hn : ¬ k + i < k := by omega
    simp only [BitVec.getLsbD_or, BitVec.getLsbD_shiftLeft, hl (k + i) (by omega), hw, hk, hn, he,
      decide_true, decide_false, Bool.not_false, Bool.true_and, Bool.false_or, Nat.zero_add]
  · simp [hw]

theorem get_join_lower (r s : BitRange) (word : Quadword) :
    get ⟨0, r.width, by have := r.start_add_width_le; omega⟩ (r.join s word) = r.get word := by
  rw [join, get_or_shiftLeft_of_le _ r.width _ _ (by simp)]
  exact cut_eq_self r _ (fits_get r word)

theorem get_join_upper (r s : BitRange) (word : Quadword) (h : r.width + s.width ≤ 64) :
    get ⟨r.width, s.width, h⟩ (r.join s word) = s.get word := by
  rw [join, get_or_shiftLeft_of_ge r.width s.width _ _ h ((fits_iff r _).mp (fits_get r word))]
  exact cut_eq_self s _ (fits_get s word)

theorem fits_join (r s : BitRange) (word : Quadword) (h : r.width + s.width ≤ 64) :
    Fits ⟨0, r.width + s.width, by omega⟩ (r.join s word) := by
  refine (fits_iff _ _).mpr ?_
  intro i hi
  replace hi : r.width + s.width ≤ i := hi
  have hr : ¬ i < r.width := by omega
  have hs : ¬ i - r.width < s.width := by omega
  simp [join, getLsbD_get, hr, hs]

theorem join_eq_get (r s : BitRange) (word value : Quadword) (h : r.width + s.width ≤ 64)
    (hr : r.get word = get ⟨0, r.width, by omega⟩ value)
    (hs : s.get word = get ⟨r.width, s.width, h⟩ value) :
    r.join s word = get ⟨0, r.width + s.width, by omega⟩ value := by
  apply BitVec.eq_of_getLsbD_eq
  intro i hi
  rw [join, hr, hs]
  simp only [BitVec.getLsbD_or, BitVec.getLsbD_shiftLeft, getLsbD_get, hi, decide_true,
    Bool.true_and, Nat.zero_add]
  by_cases hm : i < r.width
  · have hn : i < r.width + s.width := by omega
    simp [hm, hn]
  · have he : r.width + (i - r.width) = i := by omega
    have hn : i - r.width < s.width ↔ i < r.width + s.width := by omega
    simp [hm, he, hn]

theorem toNat_lt_of_fits (r : BitRange) (value : Quadword) (h : r.Fits value) :
    value.toNat < 2 ^ r.width := by
  have hz : value.toNat >>> r.width = 0 := by
    rw [← BitVec.toNat_ushiftRight, show value >>> r.width = 0 from h]
    rfl
  rw [Nat.shiftRight_eq_div_pow] at hz
  exact (Nat.div_eq_zero_iff_lt (Nat.two_pow_pos r.width)).mp hz

theorem get_all (word : Quadword) : get ⟨0, 64, by decide⟩ word = word := by
  apply BitVec.eq_of_getLsbD_eq
  intro i hi
  rw [getLsbD_get]
  simp only [hi, decide_true, Bool.true_and, Nat.zero_add]

end DescriptorTables.BitRange
