import DescriptorTables.Entry.Basic

namespace DescriptorTables.Layout

/-- A low quadword that no segment and no system entry of the table begins with. -/
def Unassigned (l : Layout) (low : Quadword) : Prop :=
  if Bits.isSet Bits.nonSystem low then l.kind = .interrupt
  else ∀ kind, SystemKind.ofType? (Bits.type.get low).toNat l.mode = some kind →
    l.kind = .interrupt ∧ kind.isInterruptTableGate = false

theorem not_unassigned_of_segment (l : Layout) (low : Quadword)
    (hs : Bits.isSet Bits.nonSystem low) (hk : l.kind = .global) : ¬ l.Unassigned low := by
  intro h
  rw [Unassigned, if_pos hs, hk] at h
  cases h

theorem not_unassigned_of_system (l : Layout) (low : Quadword) (kind : SystemKind)
    (hs : Bits.isSet Bits.nonSystem low = false)
    (ht : SystemKind.ofType? (Bits.type.get low).toNat l.mode = some kind)
    (ha : l.kind = .global ∨ kind.isInterruptTableGate) : ¬ l.Unassigned low := by
  intro h
  rw [Unassigned, hs, if_neg Bool.false_ne_true] at h
  obtain ⟨hi, hg⟩ := h kind ht
  rw [hi, hg] at ha
  cases ha with
  | inl h => cases h
  | inr h => cases h

theorem decode_cases (l : Layout) (raw : RawEntry) :
    (Bits.isSet Bits.nonSystem raw.low ∧ l.kind = .global ∧
      l.decode raw = .segment (.decode raw.low)) ∨
    (∃ kind, Bits.isSet Bits.nonSystem raw.low = false ∧
      SystemKind.ofType? (Bits.type.get raw.low).toNat l.mode = some kind ∧
      (l.kind = .global ∨ kind.isInterruptTableGate) ∧
      l.decode raw = .system (.decode kind raw)) ∨
    (l.Unassigned raw.low ∧ l.decode raw = .ofReserved raw) := by
  unfold decode systemKind? Unassigned
  cases hs : Bits.isSet Bits.nonSystem raw.low with
  | true =>
    cases hk : l.kind with
    | global => exact .inl ⟨rfl, rfl, rfl⟩
    | interrupt => exact .inr (.inr ⟨rfl, rfl⟩)
  | false =>
    cases ht : SystemKind.ofType? (Bits.type.get raw.low).toNat l.mode with
    | none => exact .inr (.inr ⟨by simp, by simp⟩)
    | some kind =>
      by_cases ha : l.kind = .global ∨ kind.isInterruptTableGate
      · exact .inr (.inl ⟨kind, rfl, rfl, ha, by simp [ha]⟩)
      · have hk : l.kind = .interrupt := by
          cases hl : l.kind with
          | interrupt => rfl
          | global => exact absurd (.inl hl) ha
        have hg : kind.isInterruptTableGate = false := by
          cases hi : kind.isInterruptTableGate with
          | false => rfl
          | true => exact absurd (.inr hi) ha
        exact .inr (.inr ⟨by simp [hk, hg], by simp [hk, hg]⟩)

theorem ofType?_long64_ne_taskGate (type : Nat) :
    SystemKind.ofType? type .long64 ≠ some .taskGate := by
  intro h
  unfold SystemKind.ofType? at h
  split at h <;> simp_all

theorem needsExtension_of_segment (l : Layout) (low : Quadword)
    (hs : Bits.isSet Bits.nonSystem low) (hk : l.kind = .global) :
    l.needsExtension low = false := by
  rw [needsExtension, systemKind?, if_pos hs, hk]
  cases l.mode <;> rfl

theorem needsExtension_of_system (l : Layout) (low : Quadword) (kind : SystemKind)
    (hs : Bits.isSet Bits.nonSystem low = false)
    (ht : SystemKind.ofType? (Bits.type.get low).toNat l.mode = some kind) :
    l.needsExtension low = decide (l.mode = .long64) := by
  rw [needsExtension, systemKind?, hs, if_neg Bool.false_ne_true, ht]
  cases l.kind <;> cases l.mode <;> rfl

/-- A slot without a segment or a system entry is one quadword, but for the wide slots of an
interrupt table in long mode. -/
theorem needsExtension_of_unassigned (l : Layout) (low : Quadword) (hu : l.Unassigned low) :
    l.needsExtension low = decide (l = ⟨.interrupt, .long64⟩) := by
  obtain ⟨kind, mode⟩ := l
  cases kind with
  | interrupt => cases mode <;> rfl
  | global =>
    have hn : (⟨.global, mode⟩ : Layout).systemKind? low = none := by
      unfold systemKind?
      split
      · rfl
      · rename_i hs
        rw [Unassigned, if_neg hs] at hu
        cases ht : SystemKind.ofType? (Bits.type.get low).toNat mode with
        | none => rfl
        | some kind => cases (hu kind ht).1
    cases mode with
    | protected32 => rfl
    | long64 =>
      change ((⟨.global, .long64⟩ : Layout).systemKind? low).isSome = _
      rw [hn]
      rfl

theorem size_eq_of_isSome (raw : RawEntry) (wide : Bool) (h : raw.high.isSome = wide) :
    raw.size = if wide then 16 else 8 := by
  rw [← h, RawEntry.size]
  cases raw.high <;> rfl

theorem size_eq_span_mul (l : Layout) (raw : RawEntry)
    (h : raw.high.isSome = l.needsExtension raw.low) :
    raw.size = l.span (l.decode raw) * l.slotSize := by
  obtain ⟨kind, mode⟩ := l
  obtain ⟨hs, hk, hd⟩ | ⟨system, hs, ht, -, hd⟩ | ⟨hu, hd⟩ := decode_cases ⟨kind, mode⟩ raw
  · rw [needsExtension_of_segment _ _ hs hk] at h
    rw [hd, size_eq_of_isSome raw _ h]
    cases hk
    cases mode <;> rfl
  · rw [needsExtension_of_system _ _ system hs ht] at h
    rw [hd, size_eq_of_isSome raw _ h]
    cases kind <;> cases mode <;> rfl
  · rw [needsExtension_of_unassigned _ _ hu] at h
    rw [hd, size_eq_of_isSome raw _ h]
    cases kind <;> cases mode <;> rfl

end DescriptorTables.Layout
