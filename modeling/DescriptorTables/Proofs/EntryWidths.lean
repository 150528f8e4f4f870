import DescriptorTables.Proofs.Masking
import DescriptorTables.Proofs.ReadOutcomes

namespace DescriptorTables

namespace SystemEntry

theorem size_raw (s : SystemEntry) (mode : Mode) :
    (s.raw mode).size = if mode = .long64 then 16 else 8 := by
  cases mode <;> rfl

theorem needsExtension_raw (s : SystemEntry) (l : Layout)
    (h : (SystemKind.ofType? s.kind.type l.mode).isSome) :
    l.needsExtension (s.raw l.mode).low = (s.raw l.mode).high.isSome := by
  obtain ⟨kind, hkind⟩ := Option.isSome_iff_exists.mp h
  rw [← s.type_get_low] at hkind
  rw [s.isSome_high_raw, s.low_raw]
  exact l.needsExtension_of_system s.low kind s.isSet_nonSystem_low hkind

theorem size_raw_eq_span_mul (s : SystemEntry) (l : Layout) :
    (s.raw l.mode).size = l.span (.system s) * l.slotSize := by
  obtain ⟨kind, mode⟩ := l
  rw [s.size_raw]
  cases kind <;> cases mode <;> rfl

end SystemEntry

namespace Layout

theorem exists_encode_decode (l : Layout) (raw : RawEntry)
    (h : raw.high.isSome = l.needsExtension raw.low) :
    ∃ written, (l.decode raw).encode l.mode = .ok written ∧ written.size = raw.size := by
  obtain ⟨hs, hk, hd⟩ | ⟨kind, hs, ht, -, hd⟩ | ⟨-, hd⟩ := l.decode_cases raw
  · rw [l.needsExtension_of_segment raw.low hs hk] at h
    refine ⟨.narrow (SegmentEntry.decode raw.low).low, ?_, (size_eq_of_isSome raw _ h).symm⟩
    rw [hd, Entry.encode, SegmentEntry.encode_eq_ok _ (SegmentEntry.access_decode_le raw.low)]
    rfl
  · rw [l.needsExtension_of_system raw.low kind hs ht] at h
    refine ⟨(SystemEntry.decode kind raw).raw l.mode, ?_, ?_⟩
    · rw [hd]
      exact SystemEntry.encode_eq_ok _ l.mode
    · rw [size_eq_of_isSome raw _ h, SystemEntry.size_raw]
      simp only [decide_eq_true_eq]
  · exact ⟨raw, by rw [hd]; rfl, rfl⟩

/-- The reader, the slots of an entry and the writer agree on how wide it is: for what is read from
a region, and for each system entry of a type that the mode has. -/
theorem widths_agree (l : Layout) :
    (∀ (region : Region) (index : Size) (raw : RawEntry), region.size < 2 ^ 64 →
      l.readRaw region index = .ok raw →
        (raw.high.isSome ↔ l.needsExtension raw.low) ∧
        raw.size = l.span (l.decode raw) * l.slotSize ∧
        (∃ written, (l.decode raw).encode l.mode = .ok written ∧ written.size = raw.size) ∧
        index.toNat * l.slotSize + raw.size ≤ region.size ∧
        region.window (index.toNat * l.slotSize) raw.size = raw.bytes.take raw.size) ∧
    ∀ s : SystemEntry, (SystemKind.ofType? s.kind.type l.mode).isSome →
      ∃ written, (Entry.system s).encode l.mode = .ok written ∧
        (l.needsExtension written.low ↔ written.high.isSome) ∧
        written.size = l.span (.system s) * l.slotSize := by
  constructor
  · intro region index raw hsize h
    obtain ⟨hhigh, hfits, hwindow⟩ := l.window_of_readRaw region index raw hsize h
    exact ⟨by rw [hhigh], l.size_eq_span_mul raw hhigh, l.exists_encode_decode raw hhigh, hfits,
      hwindow⟩
  · intro s h
    exact ⟨s.raw l.mode, s.encode_eq_ok l.mode, by rw [s.needsExtension_raw l h],
      s.size_raw_eq_span_mul l⟩

/-- A busy task state segment in the second slot of a long mode GDT, and an interrupt gate that
would be one of 32 bits. -/
theorem widths_of_long_mode_entries :
    let l : Layout := ⟨.global, .long64⟩
    let region : Region := #[0, 0, 0, 0, 0, 0, 0, 0, 0x67, 0, 0x33, 0x22, 0x11, 0xEB, 0xF1, 0x44,
      0x88, 0x77, 0x66, 0x55, 0xFF, 0xFF, 0xFF, 0xFF]
    let raw : RawEntry := .wide 0x44F1EB1122330067 0xFFFFFFFF55667788
    let gate : SystemEntry :=
      { SystemEntry.decode (.interruptGate .bits32) raw with paramCount := 0xFF }
    region.size < 2 ^ 64 ∧ l.readRaw region 1 = .ok raw ∧
      raw.size = l.span (l.decode raw) * l.slotSize ∧
      (SystemKind.ofType? gate.kind.type l.mode).isSome ∧
      ∃ written, (Entry.system gate).encode l.mode = .ok written ∧
        written.size = l.span (.system gate) * l.slotSize := by
  intro l region raw gate
  have hsize : region.size < 2 ^ 64 := by decide
  have hread : l.readRaw region 1 = .ok raw := by decide
  have htype : (SystemKind.ofType? gate.kind.type l.mode).isSome := rfl
  obtain ⟨hregion, hsystem⟩ := l.widths_agree
  obtain ⟨written, hwritten, -, hspan⟩ := hsystem gate htype
  exact ⟨hsize, hread, (hregion region 1 raw hsize hread).2.1, htype, written, hwritten, hspan⟩

end Layout

end DescriptorTables
