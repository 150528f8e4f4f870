import DescriptorTables.Entry.Basic
import DescriptorTables.Proofs.SegmentFields
import DescriptorTables.Proofs.SystemFields

namespace DescriptorTables

theorem BitRange.fits_iff_toNat_lt (r : BitRange) (value : Quadword) :
    r.Fits value ↔ value.toNat < 2 ^ r.width := by
  refine ⟨r.toNat_lt_of_fits value, fun h => (r.fits_iff value).mpr fun i hi => ?_⟩
  have hpow : 2 ^ r.width ≤ 2 ^ i := Nat.pow_le_pow_right (by decide) hi
  exact Nat.testBit_lt_two_pow (Nat.lt_of_lt_of_le h hpow)

namespace SegmentEntry

theorem fits_access_iff (access : BitVec 8) :
    Bits.type.Fits (access.setWidth 64) ↔ access.toNat ≤ 15 := by
  rw [BitRange.fits_iff_toNat_lt, BitVec.toNat_setWidth_of_le (by decide)]
  exact Nat.lt_succ_iff

/-- The access bits are the only field of a segment that is not cut to the width of its place. -/
theorem fits_of_mem_fields (s : SegmentEntry) (field : BitRange × Quadword)
    (h : field ∈ s.fields) :
    field.1.Fits field.2 ∨ field = (Bits.type, s.access.setWidth 64) := by
  obtain ⟨before, after, hsplit⟩ : ∃ before after, ∀ access,
      s.fieldsWith access = before ++ access :: after :=
    ⟨Bits.limitFields (s.granularity.unscale s.limit) ++ Bits.baseFields s.base, _, fun _ => rfl⟩
  have hothers := s.fits_fieldsWith (Bits.access, Bits.access.cut (s.access.setWidth 64))
    (BitRange.fits_get ⟨0, 3, by decide⟩ _)
  rw [hsplit] at hothers
  rw [fields_eq_fieldsWith, hsplit, List.mem_append, List.mem_cons] at h
  obtain hbefore | rfl | hafter := h
  · exact .inl (hothers field (List.mem_append_left _ hbefore))
  · exact .inr rfl
  · exact .inl (hothers field (List.mem_append_right _ (List.mem_cons_of_mem _ hafter)))

theorem encode_eq_error (s : SegmentEntry) (h : 15 < s.access.toNat) :
    s.encode = .error ⟨Bits.type, s.access.setWidth 64⟩ := by
  have hbefore : ∀ field ∈ Bits.limitFields (s.granularity.unscale s.limit) ++
      Bits.baseFields s.base, field.1.Fits field.2 :=
    List.forall_mem_append.mpr ⟨Bits.fits_limitFields _, Bits.fits_baseFields s.base⟩
  have haccess : ¬ Bits.type.Fits (s.access.setWidth 64) := by
    rw [fits_access_iff]
    omega
  exact BitRange.assemble_append_overflow _ _ Bits.type _ hbefore haccess

theorem encode_cases (s : SegmentEntry) :
    (s.access.toNat ≤ 15 ∧ s.encode = .ok s.low) ∨
    (15 < s.access.toNat ∧ s.encode = .error ⟨Bits.type, s.access.setWidth 64⟩) := by
  by_cases h : s.access.toNat ≤ 15
  · exact .inl ⟨h, s.encode_eq_ok h⟩
  · exact .inr ⟨Nat.lt_of_not_le h, s.encode_eq_error (Nat.lt_of_not_le h)⟩

end SegmentEntry

namespace Entry

theorem encode_segment_eq_ok_iff (s : SegmentEntry) (mode : Mode) (raw : RawEntry) :
    (segment s).encode mode = .ok raw ↔ s.access.toNat ≤ 15 ∧ raw = .narrow s.low := by
  rw [encode]
  obtain ⟨haccess, hok⟩ | ⟨haccess, herror⟩ := s.encode_cases
  · rw [hok]
    refine ⟨fun h => ⟨haccess, (Except.ok.inj h).symm⟩, ?_⟩
    rintro ⟨-, rfl⟩
    rfl
  · rw [herror]
    exact ⟨nofun, fun h => absurd h.1 (Nat.not_le.mpr haccess)⟩

/-- What is written for an entry, in order; a reserved one is not put together from fields. -/
def fields : Entry → List (BitRange × Quadword)
  | segment s => s.fields
  | system s => s.fields
  | reserved _ _ => []

def quadwords (mode : Mode) (low : Quadword) : Entry → RawEntry
  | segment _ => .narrow low
  | system s =>
    match mode with
    | .protected32 => .narrow low
    | .long64 => .wide low (Bits.upperHalf s.address)
  | reserved raw _ => raw

theorem encode_eq_map_assemble (e : Entry) (mode : Mode) :
    e.encode mode = (BitRange.assemble e.fields).map fun low => e.quadwords mode low := by
  cases e with
  | segment s => rfl
  | system s => cases mode <;> rfl
  | reserved raw unrecognized => rfl

theorem fits_of_mem_fields (e : Entry) (field : BitRange × Quadword) (h : field ∈ e.fields) :
    field.1.Fits field.2 ∨
      ∃ s, e = .segment s ∧ 15 < s.access.toNat ∧ field = (Bits.type, s.access.setWidth 64) := by
  cases e with
  | segment s =>
    obtain hfits | rfl := s.fits_of_mem_fields field h
    · exact .inl hfits
    · by_cases haccess : s.access.toNat ≤ 15
      · exact .inl ((SegmentEntry.fits_access_iff s.access).mpr haccess)
      · exact .inr ⟨s, rfl, Nat.lt_of_not_le haccess, rfl⟩
  | system s => exact .inl (s.fits_fields field h)
  | reserved raw unrecognized => cases h

/-- Writing an entry fails for the segments with more access bits than the four that a type has room
for, and for nothing else; every other value is no wider than its place. -/
theorem encode_fails_iff (e : Entry) (mode : Mode) :
    ((∃ overflow, e.encode mode = .error overflow) ↔
      ∃ s, e = .segment s ∧ 15 < s.access.toNat) ∧
    (e.encode mode = (BitRange.assemble e.fields).map fun low => e.quadwords mode low) ∧
    ∀ field ∈ e.fields, field.2.toNat < 2 ^ field.1.width ∨
      ∃ s, e = .segment s ∧ 15 < s.access.toNat ∧
        field = (⟨40, 4, by decide⟩, s.access.setWidth 64) := by
  refine ⟨?_, e.encode_eq_map_assemble mode, fun field hfield => ?_⟩
  · cases e with
    | segment s =>
      obtain ⟨haccess, hok⟩ | ⟨haccess, herror⟩ := s.encode_cases
      · simp [encode, hok, Except.map, haccess]
      · simp [encode, herror, Except.map, haccess]
    | system s => simp [encode, s.encode_eq_ok]
    | reserved raw unrecognized => simp [encode]
  · rw [← BitRange.fits_iff_toNat_lt]
    exact e.fits_of_mem_fields field hfield

end Entry

end DescriptorTables
