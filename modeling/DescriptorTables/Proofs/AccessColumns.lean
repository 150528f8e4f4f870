import DescriptorTables.Proofs.DistinctRecords
import DescriptorTables.Proofs.FieldOverflow
import DescriptorTables.Proofs.RecordLimits

namespace DescriptorTables

namespace SegmentEntry

/-- A data segment with the access bit that has the place of the bit for code: when the segment is
written, its kind has the last word there. -/
def Overruled (s : SegmentEntry) : Prop :=
  s.kind = .data ∧ s.access.getLsbD 3

instance (s : SegmentEntry) : Decidable s.Overruled :=
  inferInstanceAs (Decidable (s.kind = .data ∧ s.access.getLsbD 3))

theorem getLsbD_access_iff (access : BitVec 8) (h : access.toNat ≤ 15) :
    access.getLsbD 3 ↔ 8 ≤ access.toNat := by
  have hbit : access.getLsbD 3 = access.toNat.testBit 3 := rfl
  rw [hbit, Nat.testBit_eq_decide_div_mod_eq, decide_eq_true_eq]
  omega

theorem toNat_type_low (s : SegmentEntry) :
    (Bits.type.get s.low).toNat = s.access.toNat % 8 + if s.kind = .code then 8 else 0 := by
  have hlt : (Bits.type.get s.low).toNat < 2 ^ 4 :=
    BitRange.toNat_lt_of_fits _ _ (BitRange.fits_get Bits.type s.low)
  have haccess : (Bits.type.get s.low).toNat % 2 ^ 3 = s.access.toNat % 2 ^ 3 :=
    calc (Bits.type.get s.low).toNat % 2 ^ 3
        = (decode s.low).access.toNat := (toNat_access_decode s.low).symm
      _ = (Bits.lowBits 3 s.access).toNat := by rw [s.decode_low, kept]
      _ = s.access.toNat % 2 ^ 3 := by
        rw [Bits.lowBits, BitVec.toNat_setWidth_of_le (by decide), BitVec.toNat_setWidth]
  have hcode : (Bits.type.get s.low).toNat.testBit 3 = decide (s.kind = .code) := by
    have hbit := BitRange.getLsbD_get Bits.type s.low 3
    exact hbit.trans (s.isSet_low Bits.executable (s.kind = .code) (by decide)
      (by simp [separateFields, fieldsWith]))
  rw [Nat.testBit_eq_decide_div_mod_eq] at hcode
  by_cases hkind : s.kind = .code <;> simp [hkind] at hcode ⊢ <;> omega

theorem type_eq_add (s : SegmentEntry) (h : s.access.toNat ≤ 15) :
    s.type = (Bits.type.get s.low).toNat + if s.Overruled then 8 else 0 := by
  have hcode : ∀ access : BitVec 8, access.toNat ≤ 15 →
      (access ||| 8).toNat = access.toNat % 8 + 8 := by decide
  have hbit := getLsbD_access_iff s.access h
  rw [toNat_type_low, type]
  cases hkind : s.kind with
  | code =>
    have hnot : ¬ s.Overruled := fun ho => by
      rw [Overruled, hkind] at ho
      cases ho.1
    rw [if_pos rfl, if_pos rfl, if_neg hnot]
    exact hcode s.access h
  | data =>
    have hiff : s.Overruled ↔ 8 ≤ s.access.toNat := by
      rw [Overruled, hkind, ← hbit]
      exact ⟨fun ho => ho.2, fun ho => ⟨rfl, ho⟩⟩
    have hsame : s.access ||| 0 = s.access := BitVec.or_zero
    simp only [hiff, reduceCtorEq, if_false]
    rw [hsame]
    split <;> omega

theorem isSet_present_low (s : SegmentEntry) : Bits.isSet Bits.present s.low = s.isPresent :=
  s.isSet_low Bits.present s.isPresent (by decide)
    (by simp [separateFields, fieldsWith, Bits.accessFields])

end SegmentEntry

namespace Entry

def Overruled : Entry → Prop
  | segment s => s.Overruled
  | _ => False

instance (e : Entry) : Decidable e.Overruled :=
  match e with
  | segment s => inferInstanceAs (Decidable s.Overruled)
  | system _ => inferInstanceAs (Decidable False)
  | reserved _ _ => inferInstanceAs (Decidable False)

theorem columns?_of_not_reserved (e : Entry) (h : e.isReserved = false) :
    ∃ c flags, e.columns? = some (c, flags) := by
  cases e with
  | segment s => exact ⟨_, _, rfl⟩
  | system s => exact ⟨_, _, rfl⟩
  | reserved raw unrecognized => cases h

theorem type?_of_columns? (e : Entry) (c : Columns) (flags : Phrase)
    (hc : e.columns? = some (c, flags)) : e.type? = some c.type := by
  cases e with
  | segment s =>
    cases hc
    rfl
  | system s =>
    cases hc
    rfl
  | reserved raw unrecognized => cases hc

theorem columns_of_encode (e : Entry) (mode : Mode) (raw : RawEntry) (c : Columns)
    (flags : Phrase) (hc : e.columns? = some (c, flags)) (h : e.encode mode = .ok raw) :
    c.type = (raw.low.extractLsb' 40 4).toNat + (if e.Overruled then 8 else 0) ∧
      (!c.isSystem) = raw.low.getLsbD 44 ∧ c.ring = raw.low.extractLsb' 45 2 ∧
      c.isPresent = raw.low.getLsbD 47 ∧ (e.Overruled → (raw.low.extractLsb' 40 4).toNat < 8) := by
  have htype : ∀ low : Quadword, (low.extractLsb' 40 4).toNat = (Bits.type.get low).toNat :=
    fun low => (BitVec.toNat_setWidth_of_le (by decide)).symm
  have hring : ∀ low : Quadword, low.extractLsb' 45 2 = Bits.ring low :=
    fun low => (BitRange.setWidth_setWidth_eq_self 2 _ (by decide)).symm
  rw [htype, hring]
  cases e with
  | segment s =>
    obtain ⟨haccess, rfl⟩ := (encode_segment_eq_ok_iff s mode raw).mp h
    cases hc
    refine ⟨s.type_eq_add haccess, s.isSet_nonSystem_low.symm, s.ring_low.symm,
      s.isSet_present_low.symm, fun ho => ?_⟩
    have hdata : s.kind ≠ .code := by
      rw [ho.1]
      decide
    have htype := s.toNat_type_low
    rw [if_neg hdata] at htype
    exact htype.trans_lt (Nat.mod_lt _ (by decide))
  | system s =>
    obtain rfl := Except.ok.inj ((s.encode_eq_ok mode).symm.trans h)
    cases hc
    rw [s.low_raw]
    exact ⟨s.type_get_low.symm, s.isSet_nonSystem_low.symm, s.ring_low.symm,
      s.isSet_present_low.symm, False.elim⟩
  | reserved other unrecognized => cases hc

end Entry

namespace Record

/-- The words of a record that tell type, kind, ring and presence: those after the selector. -/
def shownAccess (record : String) : List String :=
  ((Blank.words record).drop 5).take 4

/-- The words for what bits 40 to 47 of a quadword say. -/
def accessWords (low : Quadword) : List String :=
  [named "type" (Numeral.upperHex 1 (low.extractLsb' 40 4).toNat),
    named "s" (digit (low.getLsbD 44)),
    named "dpl" (Numeral.decimal 1 (low.extractLsb' 45 2).toNat),
    presence (low.getLsbD 47)]

theorem shownAccess_text_entry (mode : Mode) (n : Size) (e : Entry) (c : Columns) (flags : Phrase)
    (hc : e.columns? = some (c, flags)) (hfits : Fits (entry mode n e)) :
    shownAccess (text (entry mode n e)) =
      [named "type" (Numeral.upperHex 1 c.type), named "s" (digit (!c.isSystem)),
        named "dpl" (Numeral.decimal 1 c.ring.toNat), presence c.isPresent] := by
  rw [shownAccess, text_of_fits _ hfits, words_entry]
  cases e with
  | segment s =>
    cases hc
    rfl
  | system s =>
    cases hc
    rfl
  | reserved raw unrecognized => cases hc

theorem fits_of_encode (shown mode : Mode) (n : Size) (e : Entry) (raw : RawEntry)
    (h : e.encode mode = .ok raw) : Fits (entry shown n e) := by
  refine fits_entry_of_not_overlong shown n e fun s he hoverlong => ?_
  subst he
  have haccess := ((Entry.encode_segment_eq_ok_iff s mode raw).mp h).1
  exact absurd haccess (Nat.not_le.mpr hoverlong.access)

/-- The record of an entry shows the access byte that the entry is written with, but that the type
of an overruled segment is shown with the bit for code. -/
theorem shownAccess_of_encode (shown mode : Mode) (n : Size) (e : Entry) (raw : RawEntry)
    (hreserved : e.isReserved = false) (h : e.encode mode = .ok raw) :
    (shownAccess (text (entry shown n e)) = accessWords raw.low ↔ ¬ e.Overruled) ∧
    (e.type? = some (raw.low.extractLsb' 40 4).toNat ↔ ¬ e.Overruled) ∧
    (e.Overruled → (raw.low.extractLsb' 40 4).toNat < 8 ∧
      shownAccess (text (entry shown n e)) =
        named "type" (Numeral.upperHex 1 ((raw.low.extractLsb' 40 4).toNat + 8)) ::
          (accessWords raw.low).tail) := by
  obtain ⟨c, flags, hc⟩ := e.columns?_of_not_reserved hreserved
  obtain ⟨htype, hsystem, hring, hpresent, hless⟩ :=
    e.columns_of_encode mode raw c flags hc h
  have hshown := shownAccess_text_entry shown n e c flags hc (fits_of_encode shown mode n e raw h)
  rw [hsystem, hring, hpresent] at hshown
  have htype? : e.type? = some c.type := Entry.type?_of_columns? e c flags hc
  have hiff : c.type = (raw.low.extractLsb' 40 4).toNat ↔ ¬ e.Overruled := by
    rw [htype]
    by_cases ho : e.Overruled <;> simp [ho]
  refine ⟨?_, ?_, fun ho => ⟨hless ho, ?_⟩⟩
  · rw [← hiff, hshown, accessWords]
    refine ⟨fun heq => ?_, fun heq => by rw [heq]⟩
    exact Numeral.upperHex_inj 1 _ _ (named_inj _ _ _ (List.cons.inj heq).1)
  · rw [htype?, Option.some_inj, hiff]
  · rw [hshown, htype, if_pos ho]
    rfl

/-- A data segment that can be read only, for which the bit for code is asked too. -/
theorem shownAccess_of_overruled_segment :
    let s : SegmentEntry := { SegmentEntry.decode 0x00CFF2000000FFFF with access := 9 }
    let raw : RawEntry := .narrow 0x00CFF1000000FFFF
    (Entry.segment s).isReserved = false ∧ (Entry.segment s).encode .long64 = .ok raw ∧
      (Entry.segment s).Overruled ∧ (Entry.segment s).type? ≠ some 1 ∧
      accessWords raw.low = ["type=0x1", "s=1", "dpl=3", "present"] ∧
      shownAccess (text (entry .protected32 1 (.segment s))) =
        ["type=0x9", "s=1", "dpl=3", "present"] := by
  intro s raw
  have hreserved : (Entry.segment s).isReserved = false := rfl
  have hencode : (Entry.segment s).encode .long64 = .ok raw := by decide
  have hoverruled : (Entry.segment s).Overruled := by decide
  obtain ⟨-, htype, hshown⟩ :=
    shownAccess_of_encode .protected32 .long64 1 (.segment s) raw hreserved hencode
  have hlow : 1 = (raw.low.extractLsb' 40 4).toNat := by decide
  have hdiffers : (Entry.segment s).type? ≠ some 1 := fun h =>
    htype.mp (h.trans (congrArg some hlow)) hoverruled
  refine ⟨hreserved, hencode, hoverruled, hdiffers, by decide, ?_⟩
  rw [(hshown hoverruled).2]
  decide

theorem shownAccess_ne_accessWords :
    ¬ ∀ (shown mode : Mode) (n : Size) (e : Entry) (raw : RawEntry),
      e.isReserved = false → e.encode mode = .ok raw →
        shownAccess (text (entry shown n e)) = accessWords raw.low := by
  intro h
  let s : SegmentEntry := { SegmentEntry.decode 0x00CF92000000FFFF with access := 8 }
  have hencode : (Entry.segment s).encode .protected32 = .ok (.narrow 0x00CF90000000FFFF) := by
    decide
  have hfits := fits_of_encode .protected32 .protected32 1 (.segment s) _ hencode
  have hshown := h .protected32 .protected32 1 (.segment s) _ rfl hencode
  rw [shownAccess_text_entry _ _ _ s.columns _ rfl hfits] at hshown
  exact absurd hshown (by decide)

end Record

end DescriptorTables
