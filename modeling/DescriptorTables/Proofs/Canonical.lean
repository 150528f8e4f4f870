import DescriptorTables.Proofs.Decoding
import DescriptorTables.Proofs.SegmentFields
import DescriptorTables.Proofs.SystemFields

namespace DescriptorTables.Layout

/-- The entries that are told apart by how they are written: none has a member that its kind does
not have, or a value that its place in the quadwords is too narrow for. -/
def Canonical (l : Layout) : Entry → Prop
  | .segment s => l.kind = .global ∧ s.Canonical
  | .system s =>
    SystemKind.ofType? s.kind.type l.mode = some s.kind ∧
      (l.kind = .global ∨ s.kind.isInterruptTableGate) ∧ s.Canonical l.mode
  | .reserved raw unrecognized => unrecognized = !raw.isZero ∧ l.Unassigned raw.low

theorem decode_low_segment_iff (l : Layout) (s : SegmentEntry) :
    l.decode (.narrow s.low) = .segment s ↔ l.Canonical (.segment s) := by
  have hs : Bits.isSet Bits.nonSystem (RawEntry.narrow s.low).low := s.isSet_nonSystem_low
  obtain ⟨-, hk, hd⟩ | ⟨kind, hn, -⟩ | ⟨hu, hd⟩ := l.decode_cases (.narrow s.low)
  · rw [hd, show (RawEntry.narrow s.low).low = s.low from rfl, s.decode_low, Entry.segment.injEq,
      s.kept_eq_self_iff]
    exact ⟨fun h => ⟨hk, h⟩, fun h => h.2⟩
  · rw [hs] at hn
    cases hn
  · constructor
    · intro h
      rw [hd] at h
      cases h
    · rintro ⟨hk, -⟩
      exact absurd hu (l.not_unassigned_of_segment _ hs hk)

theorem decode_raw_system_iff (l : Layout) (s : SystemEntry) :
    l.decode (s.raw l.mode) = .system s ↔ l.Canonical (.system s) := by
  have hs := s.isSet_nonSystem_low
  have ht := s.type_get_low
  rw [← s.low_raw l.mode] at hs ht
  obtain ⟨hn, -⟩ | ⟨kind, -, hkind, ha, hd⟩ | ⟨hu, hd⟩ := l.decode_cases (s.raw l.mode)
  · rw [hs] at hn
    cases hn
  · rw [ht] at hkind
    constructor
    · intro h
      rw [hd, Entry.system.injEq] at h
      have hk : kind = s.kind := congrArg SystemEntry.kind h
      subst hk
      rw [s.decode_raw, s.kept_eq_self_iff] at h
      exact ⟨hkind, ha, h⟩
    · rintro ⟨hk, -, hc⟩
      have he : kind = s.kind := Option.some.inj (hkind.symm.trans hk)
      rw [hd, he, s.decode_raw, (s.kept_eq_self_iff l.mode).mpr hc]
  · constructor
    · intro h
      rw [hd] at h
      cases h
    · rintro ⟨hk, ha, -⟩
      rw [← ht] at hk
      exact absurd hu (l.not_unassigned_of_system _ s.kind hs hk ha)

theorem decode_reserved_iff (l : Layout) (raw : RawEntry) (unrecognized : Bool) :
    l.decode raw = .reserved raw unrecognized ↔ l.Canonical (.reserved raw unrecognized) := by
  obtain ⟨hs, hk, hd⟩ | ⟨kind, hs, hkind, ha, hd⟩ | ⟨hu, hd⟩ := l.decode_cases raw
  · constructor
    · intro h
      rw [hd] at h
      cases h
    · rintro ⟨-, hu⟩
      exact absurd hu (l.not_unassigned_of_segment raw.low hs hk)
  · constructor
    · intro h
      rw [hd] at h
      cases h
    · rintro ⟨-, hu⟩
      exact absurd hu (l.not_unassigned_of_system raw.low kind hs hkind ha)
  · rw [hd, Entry.ofReserved, Entry.reserved.injEq]
    exact ⟨fun h => ⟨h.2.symm, hu⟩, fun h => ⟨rfl, h.1.symm⟩⟩

/-- Entries that can be written are read back as they were exactly when they are canonical. -/
theorem decode_encode_eq_iff (l : Layout) (e : Entry)
    (h : ∀ s, e = .segment s → s.access.toNat ≤ 15) :
    ∃ raw, e.encode l.mode = .ok raw ∧ (l.decode raw = e ↔ l.Canonical e) := by
  cases e with
  | segment s =>
    refine ⟨.narrow s.low, ?_, l.decode_low_segment_iff s⟩
    rw [Entry.encode, s.encode_eq_ok (h s rfl)]
    rfl
  | system s => exact ⟨s.raw l.mode, s.encode_eq_ok l.mode, l.decode_raw_system_iff s⟩
  | reserved raw unrecognized => exact ⟨raw, rfl, l.decode_reserved_iff raw unrecognized⟩

/-- A data segment with an access bit that can be written but is not read back. -/
theorem decode_encode_of_wide_access :
    let l : Layout := ⟨.global, .protected32⟩
    let s : SegmentEntry := { SegmentEntry.decode 0x00CF92000000FFFF with access := 9 }
    (∀ other, Entry.segment s = .segment other → other.access.toNat ≤ 15) ∧
      ∃ raw, (Entry.segment s).encode l.mode = .ok raw ∧
        (l.decode raw = .segment s ↔ l.Canonical (.segment s)) := by
  intro l s
  have h : ∀ other, Entry.segment s = .segment other → other.access.toNat ≤ 15 := by
    intro other he
    rw [← Entry.segment.inj he]
    decide
  exact ⟨h, l.decode_encode_eq_iff (.segment s) h⟩

end DescriptorTables.Layout
