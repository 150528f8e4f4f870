import DescriptorTables.Proofs.ByteLayout
import DescriptorTables.Proofs.RecordWidths
import DescriptorTables.Proofs.SystemFields

namespace DescriptorTables

theorem Granularity.text_inj (g other : Granularity) (h : g.text = other.text) : g = other := by
  cases g with
  | byte =>
    cases other with
    | byte => rfl
    | page => exact absurd h (by decide)
  | page =>
    cases other with
    | byte => exact absurd h (by decide)
    | page => rfl

theorem OperandSize.bits_inj (size other : OperandSize) (h : size.bits = other.bits) :
    size = other := by
  cases size <;> cases other <;> simp [OperandSize.bits] at h ⊢

namespace RawEntry

theorem text_inj (raw other : RawEntry) (h : raw.text = other.text) : raw = other := by
  have hlength : ∀ word : Quadword, (Numeral.upperHexDigits 16 word.toNat).length = 16 :=
    fun word => Numeral.length_upperHexDigits 16 _ (by decide)
      (Nat.lt_of_lt_of_eq word.isLt (by decide))
  have hchars := congrArg String.toList h
  obtain ⟨low, _ | high⟩ := raw
  · obtain ⟨low', _ | high'⟩ := other
    · exact congrArg narrow (BitVec.eq_of_toNat_eq (Numeral.upperHex_inj 16 _ _ h))
    · have hcount := congrArg List.length hchars
      simp [text, Numeral.toList_upperHex, hlength] at hcount
  · obtain ⟨low', _ | high'⟩ := other
    · have hcount := congrArg List.length hchars
      simp [text, Numeral.toList_upperHex, hlength] at hcount
    · simp only [text, Numeral.toList_upperHex, String.toList_append, String.toList_ofList,
        List.append_assoc, List.cons_append, List.cons.injEq, true_and] at hchars
      obtain ⟨hhigh, hlow⟩ := List.append_inj hchars ((hlength high).trans (hlength high').symm)
      have hlow := List.append_cancel_left hlow
      rw [BitVec.eq_of_toNat_eq (Numeral.upperHexDigits_inj 16 _ _ hhigh),
        BitVec.eq_of_toNat_eq (Numeral.upperHexDigits_inj 16 _ _ hlow)]

end RawEntry

attribute [ext] SegmentEntry SystemEntry

/-- An entry without a member that its record does not show. -/
def Entry.Tidy : Entry → Prop
  | .segment s => s.access.toNat < 2 ^ 3
  | .system s => s.Canonical .long64
  | .reserved raw unrecognized => unrecognized = !raw.isZero

namespace SystemEntry

theorem toNat_paramCount_decode_le (kind : SystemKind) (raw : RawEntry) :
    (decode kind raw).paramCount.toNat ≤ if kind.hasParamCount then 31 else 0 := by
  have hlt : (Bits.paramCount.get raw.low).toNat < 2 ^ 5 :=
    BitRange.toNat_lt_of_fits _ _ (BitRange.fits_get Bits.paramCount raw.low)
  simp only [decode]
  split
  · rw [BitVec.toNat_setWidth, Nat.mod_eq_of_lt (by omega)]
    omega
  · exact Nat.le_refl 0

theorem toNat_stackIndex_decode_le (kind : SystemKind) (raw : RawEntry) :
    (decode kind raw).stackIndex.toNat ≤ if kind.hasStackIndex then 7 else 0 := by
  have hlt : (Bits.stackIndex.get raw.low).toNat < 2 ^ 3 :=
    BitRange.toNat_lt_of_fits _ _ (BitRange.fits_get Bits.stackIndex raw.low)
  simp only [decode]
  split
  · rw [BitVec.toNat_setWidth, Nat.mod_eq_of_lt (by omega)]
    omega
  · exact Nat.le_refl 0

theorem canonical_decode (kind : SystemKind) (raw : RawEntry) :
    (decode kind raw).Canonical .long64 := by
  have haddress : (decode kind raw).kind = .taskGate → (decode kind raw).address = 0 := by
    intro h
    change kind = .taskGate at h
    subst h
    rfl
  have hsegment : kind.isSegment →
      (decode kind raw).granularity.Represents (decode kind raw).limit ∧
        (decode kind raw).selector = 0 := by
    intro h
    simp only [decode, if_pos h, and_true]
    rw [← Granularity.scale_unscale_eq_iff, Granularity.unscale_scale _ _ (Bits.toNat_limit_lt _)]
  have hgate : kind.isGate →
      (decode kind raw).limit = 0 ∧ (decode kind raw).granularity = .byte := by
    intro h
    have hs : kind.isSegment = false := by simpa [SystemKind.isGate] using h
    simp [decode, hs]
  exact
    { address_lt := fun h => Mode.noConfusion h
      address_taskGate := haddress
      ofSegment := hsegment
      ofGate := hgate
      paramCount_le := toNat_paramCount_decode_le kind raw
      stackIndex_le := toNat_stackIndex_decode_le kind raw }

end SystemEntry

theorem Layout.tidy_decode (l : Layout) (raw : RawEntry) : (l.decode raw).Tidy := by
  obtain ⟨-, -, hd⟩ | ⟨kind, -, -, -, hd⟩ | ⟨-, hd⟩ := l.decode_cases raw
  · rw [hd, Entry.Tidy, SegmentEntry.toNat_access_decode]
    exact Nat.mod_lt _ (by decide)
  · rw [hd]
    exact SystemEntry.canonical_decode kind raw
  · rw [hd]
    rfl

theorem Entry.Tidy.type_lt {e : Entry} (h : e.Tidy) (c : Columns) (flags : Phrase)
    (hc : e.columns? = some (c, flags)) : c.type < 16 := by
  cases e with
  | segment s =>
    cases hc
    change s.type < 16
    have haccess : s.access.toNat < 2 ^ 3 := h
    rw [s.type_eq haccess]
    split <;> omega
  | system s =>
    cases hc
    exact s.kind.type_lt
  | reserved raw unrecognized => cases hc

namespace Record

theorem named_inj (name value other : String) (h : named name value = named name other) :
    value = other := by
  have hchars := congrArg String.toList h
  simp only [named, String.toList_append, List.append_cancel_left_eq] at hchars
  exact String.toList_inj.mp hchars

theorem hexOrDashes_inj (width : Nat) (value other : Option Nat)
    (h : hexOrDashes width value = hexOrDashes width other) : value = other := by
  have hchars := congrArg String.toList h
  cases value with
  | none =>
    cases other with
    | none => rfl
    | some m => simp [hexOrDashes, List.replicate_succ, Numeral.toList_upperHex] at hchars
  | some n =>
    cases other with
    | none => simp [hexOrDashes, List.replicate_succ, Numeral.toList_upperHex] at hchars
    | some m => exact congrArg some (Numeral.upperHex_inj width n m h)

theorem digit_inj (on other : Bool) (h : digit on = digit other) : on = other := by
  revert on other
  decide

theorem presence_inj (isPresent other : Bool) (h : presence isPresent = presence other) :
    isPresent = other := by
  revert isPresent other
  decide

theorem option_toNat_inj {n : Nat} (value other : Option (BitVec n))
    (h : value.map BitVec.toNat = other.map BitVec.toNat) : value = other :=
  Option.map_injective (fun _ _ => BitVec.eq_of_toNat_eq) h

theorem columnWords_inj (mode : Mode) (c other : Columns) (hkeyword : c.keyword = other.keyword)
    (h : columnWords mode c = columnWords mode other) : c = other := by
  simp only [columnWords, List.cons.injEq] at h
  obtain ⟨hlabel, haddress, hlimit, hselector, htype, hsystem, hring, hpresent, -⟩ := h
  rw [hkeyword] at haddress
  have haddress := option_toNat_inj _ _ (hexOrDashes_inj _ _ _ (named_inj _ _ _ haddress))
  have hlimit := option_toNat_inj _ _ (hexOrDashes_inj _ _ _ (named_inj _ _ _ hlimit))
  have hselector := option_toNat_inj _ _ (hexOrDashes_inj _ _ _ (named_inj _ _ _ hselector))
  have htype := Numeral.upperHex_inj 1 _ _ (named_inj _ _ _ htype)
  have hsystem := digit_inj _ _ (named_inj _ _ _ hsystem)
  have hring := BitVec.eq_of_toNat_eq (Numeral.decimal_inj 1 _ _ (named_inj _ _ _ hring))
  have hpresent := presence_inj _ _ hpresent
  rw [Bool.not_inj_iff] at hsystem
  cases c
  cases other
  simp only [Columns.mk.injEq]
  exact ⟨hlabel, hkeyword, haddress, hlimit, hselector, htype, hsystem, hring, hpresent⟩

theorem segment_inj (s other : SegmentEntry) (hs : s.access.toNat < 2 ^ 3)
    (hother : other.access.toNat < 2 ^ 3) (hcolumns : s.columns = other.columns)
    (hflags : segmentFlagWords s = segmentFlagWords other) : s = other := by
  simp only [segmentFlagWords, List.cons.injEq] at hflags
  obtain ⟨hgran, hop, hlong, havl, -, -⟩ := hflags
  have hkind : s.kind = other.kind :=
    SegmentKind.label_inj _ _ (congrArg Columns.label hcolumns)
  have htype : s.type = other.type := congrArg Columns.type hcolumns
  have haccess : s.access = other.access := by
    rw [s.type_eq hs, other.type_eq hother, hkind] at htype
    exact BitVec.eq_of_toNat_eq (Nat.add_right_cancel htype)
  have hgranularity := Granularity.text_inj _ _ (named_inj _ _ _ hgran)
  have hsize := OperandSize.bits_inj _ _ (Numeral.decimal_inj 1 _ _ (named_inj _ _ _ hop))
  exact SegmentEntry.ext (Option.some.inj (congrArg Columns.address hcolumns))
    (Option.some.inj (congrArg Columns.limit hcolumns)) hkind haccess
    (congrArg Columns.ring hcolumns) (congrArg Columns.isPresent hcolumns)
    (digit_inj _ _ (named_inj _ _ _ havl)) (digit_inj _ _ (named_inj _ _ _ hlong)) hsize
    hgranularity

theorem isSegment_of_hasStackIndex :
    ∀ kind ∈ SystemKind.all, kind.hasStackIndex → kind.isSegment = false := by
  decide

theorem isSegment_of_hasParamCount :
    ∀ kind ∈ SystemKind.all, kind.hasParamCount →
      kind.isSegment = false ∧ kind.hasStackIndex = false := by
  decide

/-- A member that some kinds do not show, and that is the same by itself in those. -/
theorem eq_of_shown {α : Type} (hidden : Prop) [Decidable hidden] (value other : α)
    (hhidden : hidden → value = other)
    (h : (if hidden then none else some value) = if hidden then none else some other) :
    value = other := by
  by_cases hp : hidden
  · exact hhidden hp
  · rw [if_neg hp, if_neg hp] at h
    exact Option.some.inj h

theorem eq_of_small (has : Bool) (bound : Nat) (value other : BitVec 8)
    (hle : value.toNat ≤ if has then bound else 0) (hle' : other.toNat ≤ if has then bound else 0)
    (h : has → value.toNat = other.toNat) : value = other := by
  refine BitVec.eq_of_toNat_eq ?_
  cases has with
  | true => exact h rfl
  | false => exact (Nat.le_zero.mp hle).trans (Nat.le_zero.mp hle').symm

/-- What the columns leave out is zero, and the kind tells what that is. -/
theorem systemColumns_inj (s other : SystemEntry) (hs : s.Canonical .long64)
    (hother : other.Canonical .long64) (hkind : s.kind = other.kind)
    (h : s.columns = other.columns) :
    s.address = other.address ∧ s.limit = other.limit ∧ s.selector = other.selector := by
  have haddress := congrArg Columns.address h
  have hlimit := congrArg Columns.limit h
  have hselector := congrArg Columns.selector h
  simp only [SystemEntry.columns, ← hkind] at haddress hlimit hselector
  refine ⟨eq_of_shown _ _ _ (fun ht => ?_) haddress, ?_, eq_of_shown _ _ _ (fun hk => ?_) hselector⟩
  · rw [hs.address_taskGate ht, hother.address_taskGate (hkind ▸ ht)]
  · by_cases hk : s.kind.isSegment
    · rw [if_pos hk, if_pos hk] at hlimit
      exact Option.some.inj hlimit
    · have hg : s.kind.isGate := by simp [SystemKind.isGate, hk]
      rw [(hs.ofGate hg).1, (hother.ofGate (hkind ▸ hg)).1]
  · rw [(hs.ofSegment hk).2, (hother.ofSegment (hkind ▸ hk)).2]

theorem systemFlag_inj (s other : SystemEntry) (hs : s.Canonical .long64)
    (hother : other.Canonical .long64) (hkind : s.kind = other.kind)
    (h : systemFlagWord s = systemFlagWord other) :
    s.granularity = other.granularity ∧ s.paramCount = other.paramCount ∧
      s.stackIndex = other.stackIndex := by
  have hcount := hother.paramCount_le
  have hindex := hother.stackIndex_le
  rw [← hkind] at hcount hindex
  simp only [systemFlagWord, ← hkind] at h
  refine ⟨?_, eq_of_small _ _ _ _ hs.paramCount_le hcount fun hp => ?_,
    eq_of_small _ _ _ _ hs.stackIndex_le hindex fun hi => ?_⟩
  · by_cases hk : s.kind.isSegment
    · rw [if_pos hk, if_pos hk] at h
      exact Granularity.text_inj _ _ (named_inj _ _ _ h)
    · have hg : s.kind.isGate := by simp [SystemKind.isGate, hk]
      rw [(hs.ofGate hg).2, (hother.ofGate (hkind ▸ hg)).2]
  · obtain ⟨hk, hi⟩ := isSegment_of_hasParamCount s.kind (SystemKind.mem_all _) hp
    simp only [hk, hi, hp, Bool.false_eq_true, if_false, if_true] at h
    exact Numeral.decimal_inj 2 _ _ (named_inj _ _ _ h)
  · have hk := isSegment_of_hasStackIndex s.kind (SystemKind.mem_all _) hi
    simp only [hk, hi, Bool.false_eq_true, if_false, if_true] at h
    exact Numeral.decimal_inj 1 _ _ (named_inj _ _ _ h)

theorem system_inj (s other : SystemEntry) (hs : s.Canonical .long64)
    (hother : other.Canonical .long64) (hcolumns : s.columns = other.columns)
    (hflag : systemFlagWord s = systemFlagWord other) : s = other := by
  have hkind : s.kind = other.kind := SystemKind.label_inj _ _ (congrArg Columns.label hcolumns)
  obtain ⟨haddress, hlimit, hselector⟩ := systemColumns_inj s other hs hother hkind hcolumns
  obtain ⟨hgranularity, hcount, hindex⟩ := systemFlag_inj s other hs hother hkind hflag
  exact SystemEntry.ext hkind haddress hlimit hgranularity (congrArg Columns.ring hcolumns)
    (congrArg Columns.isPresent hcolumns) hselector hcount hindex

theorem indexWord_inj (n m : Size) (h : indexWord n = indexWord m) : n = m := by
  have hchars := congrArg String.toList h
  simp only [indexWord, String.toList_append, List.append_assoc, List.append_cancel_left_eq,
    List.append_cancel_right_eq] at hchars
  exact BitVec.eq_of_toNat_eq (Numeral.decimal_inj 4 _ _ (String.toList_inj.mp hchars))

theorem length_columnWords (mode : Mode) (c : Columns) : (columnWords mode c).length = 8 :=
  rfl

theorem length_entryWords (mode : Mode) (n : Size) (e : Entry) :
    (entryWords mode n e).length =
      match e with
      | .segment _ => 14
      | .system _ => 10
      | .reserved _ _ => 3 := by
  cases e <;> rfl

theorem entryWords_inj (mode : Mode) (n m : Size) (e other : Entry) (he : e.Tidy)
    (hother : other.Tidy) (h : entryWords mode n e = entryWords mode m other) :
    n = m ∧ e = other := by
  have hcount := congrArg List.length h
  rw [length_entryWords, length_entryWords] at hcount
  cases e with
  | segment s =>
    cases other with
    | segment t =>
      simp only [entryWords, List.cons_append, List.cons.injEq] at h
      obtain ⟨hindex, hwords⟩ := h
      obtain ⟨hcolumns, hflags⟩ := List.append_inj hwords
        ((length_columnWords mode _).trans (length_columnWords mode _).symm)
      have hcolumns := columnWords_inj mode s.columns t.columns rfl hcolumns
      exact ⟨indexWord_inj n m hindex, congrArg Entry.segment
        (segment_inj s t he hother hcolumns hflags)⟩
    | system t => cases hcount
    | reserved raw unrecognized => cases hcount
  | system s =>
    cases other with
    | segment t => cases hcount
    | system t =>
      simp only [entryWords, List.cons_append, List.cons.injEq] at h
      obtain ⟨hindex, hwords⟩ := h
      obtain ⟨hcolumns, hflag⟩ := List.append_inj hwords
        ((length_columnWords mode _).trans (length_columnWords mode _).symm)
      have hlabel : s.kind.label = t.kind.label := (List.cons.inj hcolumns).1
      have hkind := SystemKind.label_inj _ _ hlabel
      have hkeyword : s.columns.keyword = t.columns.keyword := by
        simp only [SystemEntry.columns, hkind]
      have hcolumns := columnWords_inj mode s.columns t.columns hkeyword hcolumns
      exact ⟨indexWord_inj n m hindex, congrArg Entry.system
        (system_inj s t he hother hcolumns (List.cons.inj hflag).1)⟩
    | reserved raw unrecognized => cases hcount
  | reserved raw unrecognized =>
    cases other with
    | segment t => cases hcount
    | system t => cases hcount
    | reserved raw' unrecognized' =>
      simp only [entryWords, List.cons.injEq] at h
      obtain ⟨hindex, -, hraw, -⟩ := h
      have hraw := RawEntry.text_inj _ _ (named_inj _ _ _ hraw)
      have hzero : unrecognized = unrecognized' := by
        have hself : unrecognized = !raw.isZero := he
        have hother : unrecognized' = !raw'.isZero := hother
        rw [hself, hother, hraw]
      rw [hraw, hzero]
      exact ⟨indexWord_inj n m hindex, rfl⟩

theorem text_entry_eq (mode : Mode) (n : Size) (e : Entry) (h : e.Tidy) :
    text (entry mode n e) = (entry mode n e).text :=
  text_of_fits _ (fits_entry mode n e h.type_lt)

theorem text_entry_inj (mode : Mode) (n m : Size) (e other : Entry) (he : e.Tidy)
    (hother : other.Tidy) (h : text (entry mode n e) = text (entry mode m other)) :
    n = m ∧ e = other := by
  rw [text_entry_eq mode n e he, text_entry_eq mode m other hother] at h
  have hwords := congrArg Blank.words h
  rw [words_entry, words_entry] at hwords
  exact entryWords_inj mode n m e other he hother hwords

/-- A record shows all of the entry that it is about, and the slot. -/
theorem text_entry_decode_eq_iff (mode : Mode) (i j : Size) (l k : Layout) (raw other : RawEntry) :
    text (entry mode i (l.decode raw)) = (entry mode i (l.decode raw)).text ∧
      (text (entry mode i (l.decode raw)) = text (entry mode j (k.decode other)) ↔
        i = j ∧ l.decode raw = k.decode other) := by
  have hraw := l.tidy_decode raw
  refine ⟨text_entry_eq mode i _ hraw,
    fun h => text_entry_inj mode i j _ _ hraw (k.tidy_decode other) h, ?_⟩
  rintro ⟨hi, he⟩
  rw [hi, he]

end Record

end DescriptorTables
