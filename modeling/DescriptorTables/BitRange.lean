namespace DescriptorTables

abbrev Byte := BitVec 8

abbrev Quadword := BitVec 64

/-- An index, offset, length or count, as wide as an address. -/
abbrev Size := BitVec 64

/-- Adjacent bits of a quadword, numbered from the least significant one. -/
structure BitRange where
  start : Nat
  width : Nat
  start_add_width_le : start + width ≤ 64 := by decide
  deriving DecidableEq

/-- A value wider than the bits it has to go into. -/
structure Overflow where
  range : BitRange
  value : Quadword
  deriving DecidableEq

namespace BitRange

def bit (index : Nat) (h : index + 1 ≤ 64 := by decide) : BitRange :=
  ⟨index, 1, h⟩

def mask (r : BitRange) : Quadword :=
  (BitVec.allOnes r.width).setWidth 64 <<< r.start

/-- The bits of the range, moved down to bit 0. -/
def get (r : BitRange) (word : Quadword) : Quadword :=
  (word.extractLsb' r.start r.width).setWidth 64

def set (r : BitRange) (value word : Quadword) : Quadword :=
  (word &&& ~~~r.mask) ||| ((value <<< r.start) &&& r.mask)

/-- Nothing of the value would be lost in the range. -/
def Fits (r : BitRange) (value : Quadword) : Prop :=
  value >>> r.width = 0

instance (r : BitRange) (value : Quadword) : Decidable (r.Fits value) :=
  inferInstanceAs (Decidable (value >>> r.width = 0))

/-- Like `set`, but a value that does not fit is refused instead of cut. -/
def write (r : BitRange) (value word : Quadword) : Except Overflow Quadword :=
  if r.Fits value then .ok (r.set value word) else .error ⟨r, value⟩

theorem getLsbD_mask (r : BitRange) (i : Nat) :
    r.mask.getLsbD i = (decide (r.start ≤ i) && decide (i < r.start + r.width)) := by
  have h := r.start_add_width_le
  simp only [mask, BitVec.getLsbD_shiftLeft, BitVec.getLsbD_setWidth, BitVec.getLsbD_allOnes]
  by_cases h₁ : r.start ≤ i <;> by_cases h₂ : i < r.start + r.width <;> simp [h₁, h₂] <;> omega

theorem getLsbD_get (r : BitRange) (word : Quadword) (i : Nat) :
    (r.get word).getLsbD i = (decide (i < r.width) && word.getLsbD (r.start + i)) := by
  have h := r.start_add_width_le
  simp only [get, BitVec.getLsbD_setWidth, BitVec.getLsbD_extractLsb']
  by_cases hi : i < r.width
  · simp only [hi, decide_true, Bool.true_and, Bool.and_eq_right_iff_imp, decide_eq_true_eq]
    omega
  · simp [hi]

theorem getLsbD_set (r : BitRange) (value word : Quadword) (i : Nat) :
    (r.set value word).getLsbD i =
      if r.start ≤ i ∧ i < r.start + r.width then value.getLsbD (i - r.start)
      else word.getLsbD i := by
  have h := r.start_add_width_le
  simp only [set, BitVec.getLsbD_or, BitVec.getLsbD_and, BitVec.getLsbD_not, getLsbD_mask,
    BitVec.getLsbD_shiftLeft]
  by_cases hi : i < 64
  · by_cases h₁ : r.start ≤ i <;> by_cases h₂ : i < r.start + r.width <;> simp [h₁, h₂, hi]
  · have hw : word.getLsbD i = false := BitVec.getLsbD_of_ge word i (by omega)
    have hr : ¬ (r.start ≤ i ∧ i < r.start + r.width) := by omega
    simp [hi, hw, hr]

theorem write_eq_ok (r : BitRange) (value word : Quadword) (h : r.Fits value) :
    r.write value word = .ok (r.set value word) :=
  if_pos h

theorem fits_iff (r : BitRange) (value : Quadword) :
    r.Fits value ↔ ∀ i, r.width ≤ i → value.getLsbD i = false := by
  constructor
  · intro h i hi
    have hi' := congrArg (fun w => w.getLsbD (i - r.width)) h
    have he : r.width + (i - r.width) = i := by omega
    simpa only [BitVec.getLsbD_ushiftRight, he, BitVec.ofNat_eq_ofNat, BitVec.getLsbD_zero] using hi'
  · intro h
    apply BitVec.eq_of_getLsbD_eq
    intro i _
    simpa only [BitVec.getLsbD_ushiftRight, BitVec.ofNat_eq_ofNat, BitVec.getLsbD_zero] using
      h (r.width + i) (by omega)

theorem fits_get (r : BitRange) (word : Quadword) : r.Fits (r.get word) := by
  refine (fits_iff r _).mpr ?_
  intro i hi
  have hw : ¬ i < r.width := by omega
  simp [getLsbD_get, hw]

/-- Each value put in its range, the later one kept where two ranges overlap. -/
def setAll (fields : List (BitRange × Quadword)) (word : Quadword) : Quadword :=
  fields.foldl (fun word field => field.1.set field.2 word) word

def assemble (fields : List (BitRange × Quadword)) : Except Overflow Quadword :=
  fields.foldlM (fun word field => field.1.write field.2 word) 0

theorem foldlM_write_eq_ok (fields : List (BitRange × Quadword)) (word : Quadword)
    (h : ∀ field ∈ fields, field.1.Fits field.2) :
    fields.foldlM (fun word field => field.1.write field.2 word) word =
      .ok (setAll fields word) := by
  induction fields generalizing word with
  | nil => rfl
  | cons field rest ih =>
    rw [List.foldlM_cons, write_eq_ok _ _ _ (h field List.mem_cons_self)]
    exact ih _ fun other hother => h other (List.mem_cons_of_mem _ hother)

theorem assemble_eq_ok (fields : List (BitRange × Quadword))
    (h : ∀ field ∈ fields, field.1.Fits field.2) : assemble fields = .ok (setAll fields 0) :=
  foldlM_write_eq_ok fields 0 h

theorem assemble_append_overflow (before after : List (BitRange × Quadword)) (r : BitRange)
    (value : Quadword) (hbefore : ∀ field ∈ before, field.1.Fits field.2)
    (hvalue : ¬ r.Fits value) :
    assemble (before ++ (r, value) :: after) = .error ⟨r, value⟩ := by
  rw [assemble, List.foldlM_append, foldlM_write_eq_ok before 0 hbefore]
  simp [write, hvalue, bind, Except.bind]

end BitRange

end DescriptorTables
