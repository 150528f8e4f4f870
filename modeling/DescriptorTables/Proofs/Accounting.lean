import DescriptorTables.Listing
import DescriptorTables.Proofs.Coverage
import DescriptorTables.Proofs.SlotRecords

namespace DescriptorTables

namespace Visit

def records (l : Layout) (o : Options) (v : Visit) : List String :=
  (v.lines l o).map Record.text

theorem filterMap_record?_events (l : Layout) (o : Options) (v : Visit) :
    (v.events l o).filterMap Event.record? = v.records l o := by
  have hmessages : Event.record? ∘ Event.message = fun _ => none := rfl
  have hlines : Event.record? ∘ Event.ofLine = some ∘ Record.text := rfl
  rw [events, records, List.filterMap_append, List.filterMap_map, List.filterMap_map, hmessages,
    hlines, List.filterMap_eq_map]
  simp

theorem upperHalf_cases (l : Layout) (index : Nat) (raw : RawEntry)
    (h : raw.high.isSome = l.needsExtension raw.low) :
    (l.span (l.decode raw) = 1 ∧ upperHalf l index raw = []) ∨
    (l.span (l.decode raw) = 2 ∧ ∃ high, raw.high = some high ∧
      upperHalf l index raw = [Record.upperHalf (.ofNat 64 (index + 1)) (.ofNat 64 index) high]) := by
  have hsize := l.size_eq_span_mul raw h
  cases l.span_eq_one_or_two (l.decode raw) with
  | inl hone =>
    refine .inl ⟨hone, ?_⟩
    rw [upperHalf, hone]
    cases raw.high <;> rfl
  | inr htwo =>
    rw [htwo, ((l.span_eq_two_iff _).mp htwo).1] at hsize
    cases hhigh : raw.high with
    | none =>
      rw [RawEntry.size, hhigh] at hsize
      cases hsize
    | some high =>
      refine .inr ⟨htwo, high, rfl, ?_⟩
      rw [upperHalf, htwo, hhigh]
      rfl

theorem countP_raw_lines (o : Options) (e : Entry) (raw : RawEntry) :
    ((if o.raw && !e.isReserved then [Record.raw raw] else []).map Record.text).countP
      Record.isUpperHalf = 0 := by
  split
  · rw [List.map_singleton, List.countP_singleton, Record.isUpperHalf_raw]
    rfl
  · rfl

end Visit

namespace Table

theorem slots_le (t : Table) : t.slots ≤ 8192 := by
  have hbound := t.slots_mul_slotSize_le
  have hmul := Nat.mul_le_mul_left t.slots t.layout.eight_le_slotSize
  omega

theorem records_eq (t : Table) (o : Options) (region : Region) :
    t.records o region =
      Record.text (Record.header t.layout t.register (.ofNat 64 t.slots)) ::
        (t.fault?.map fun f => Record.text (Record.warning f)).toList ++
          (t.visits region).flatMap (Visit.records t.layout o) := by
  rw [records, listing, List.filterMap_append, List.filterMap_flatMap, heading]
  simp only [Visit.filterMap_record?_events]
  cases t.fault? <;> rfl

theorem toNat_slot (t : Table) (index : Nat) (h : index < t.slots) :
    (BitVec.ofNat 64 index).toNat = index ∧ (BitVec.ofNat 64 index).toNat < 10 ^ 4 := by
  have hslots := t.slots_le
  have htoNat := Record.toNat_slot index (by omega)
  exact ⟨htoNat, by omega⟩

theorem countP_upperHalf_lines (t : Table) (region : Region) (index : Nat) (raw : RawEntry)
    (hv : .found index raw ∈ t.visits region) :
    ((Visit.upperHalf t.layout index raw).map Record.text).countP Record.isUpperHalf =
      t.layout.span (t.layout.decode raw) - 1 := by
  have hbound := ((t.chain_visits region).bounds _ hv).2
  change index + t.layout.span (t.layout.decode raw) ≤ t.slots at hbound
  have hhigh := (t.found_mem_visits region index raw hv).2
  obtain ⟨hone, hlines⟩ | ⟨htwo, high, -, hlines⟩ := Visit.upperHalf_cases t.layout index raw hhigh
  · rw [hlines, hone]
    rfl
  · have hlt := (t.toNat_slot (index + 1) (by omega)).2
    rw [hlines, htwo, List.map_singleton, List.countP_singleton,
      if_pos (Record.isUpperHalf_upperHalf _ _ high hlt)]

theorem countP_upperHalf_records (t : Table) (o : Options) (region : Region) (v : Visit)
    (hv : v ∈ t.visits region) :
    (v.records t.layout o).countP Record.isUpperHalf = v.span t.layout - 1 := by
  have hbound := ((t.chain_visits region).bounds v hv).2
  have hspan := v.one_le_span t.layout
  have hlt := (t.toNat_slot v.index (by omega)).2
  cases v with
  | missing index fault =>
    have hfault := Record.isUpperHalf_fault (.ofNat 64 index) fault hlt
    rw [Visit.records, Visit.lines, List.map_singleton, List.countP_singleton, hfault]
    rfl
  | found index raw =>
    have hentry := Record.isUpperHalf_entry t.layout.mode (.ofNat 64 index) (t.layout.decode raw) hlt
    have hupper := t.countP_upperHalf_lines region index raw hv
    rw [Visit.records, Visit.lines]
    split
    · rename_i hskip
      rw [Bool.and_eq_true] at hskip
      cases he : t.layout.decode raw with
      | segment s | system s =>
        rw [he] at hskip
        cases hskip.2
      | reserved raw' unrecognized =>
        rw [Visit.span, he]
        rfl
    · rw [List.map_append, List.map_cons, List.countP_append, List.countP_cons, hentry,
        Visit.countP_raw_lines o _ raw, hupper]
      simp [Visit.span]

theorem length_visits (t : Table) (region : Region) :
    (t.summary region).errors + (t.summary region).reserved + (t.summary region).decoded =
      (t.visits region).length := by
  have hcount : ∀ visits : List Visit,
      visits.countP (fun v => v.isMissing) +
        (visits.filterMap (Visit.entry? t.layout)).countP (fun e => e.isReserved) +
          (visits.filterMap (Visit.entry? t.layout)).countP (fun e => !e.isReserved) =
        visits.length := by
    intro visits
    induction visits with
    | nil => rfl
    | cons v rest ih =>
      cases v with
      | missing index fault =>
        have hmissing : (Visit.missing index fault).isMissing = true := rfl
        rw [List.countP_cons, hmissing, if_pos rfl, List.filterMap_cons_none rfl, List.length_cons]
        omega
      | found index raw =>
        have hmissing : (Visit.found index raw).isMissing = false := rfl
        have hentry : Visit.entry? t.layout (.found index raw) = some (t.layout.decode raw) := rfl
        rw [List.countP_cons, hmissing, List.filterMap_cons_some hentry, List.countP_cons,
          List.countP_cons, List.length_cons]
        cases hreserved : (t.layout.decode raw).isReserved with
        | false =>
          simp only [Bool.not_false, Bool.false_eq_true, if_false, if_true]
          omega
        | true =>
          simp only [Bool.not_true, Bool.false_eq_true, if_false, if_true]
          omega
  exact hcount (t.visits region)

theorem countP_upperHalf_heading (t : Table) :
    (Record.text (Record.header t.layout t.register (.ofNat 64 t.slots)) ::
      (t.fault?.map fun f => Record.text (Record.warning f)).toList).countP Record.isUpperHalf =
        0 := by
  rw [List.countP_cons, Record.isUpperHalf_header]
  cases t.fault? with
  | none => rfl
  | some f =>
    rw [Option.map_some, Option.toList_some, List.countP_singleton, Record.isUpperHalf_warning]
    rfl

theorem sum_eq_slots (t : Table) (o : Options) (region : Region) :
    (t.summary region).errors + (t.summary region).reserved + (t.summary region).decoded +
      (t.records o region).countP Record.isUpperHalf = t.slots := by
  have hspans : (t.records o region).countP Record.isUpperHalf =
      ((t.visits region).map fun v => v.span t.layout - 1).sum := by
    rw [t.records_eq, List.countP_append, t.countP_upperHalf_heading, Nat.zero_add,
      List.countP_flatMap]
    exact congrArg List.sum (List.map_congr_left fun v hv => t.countP_upperHalf_records o region v hv)
  have htotal := (t.chain_visits region).add_length_add_sum
  rw [t.length_visits, hspans]
  omega

end Table

namespace Record

def Numbered : Nat → List String → Prop
  | _, [] => True
  | slot, record :: rest => Carries slot record ∧ Numbered (slot + 1) rest

theorem numbered_append (slot : Nat) (first second : List String) (hfirst : Numbered slot first)
    (hsecond : Numbered (slot + first.length) second) : Numbered slot (first ++ second) := by
  induction first generalizing slot with
  | nil => exact hsecond
  | cons record rest ih =>
    refine ⟨hfirst.1, ih (slot + 1) hfirst.2 ?_⟩
    rw [Nat.add_right_comm]
    exact hsecond

theorem Numbered.carries (slot : Nat) (records : List String) (h : Numbered slot records) (i : Nat)
    (hi : i < records.length) : Carries (slot + i) records[i] := by
  induction records generalizing slot i with
  | nil => cases hi
  | cons record rest ih =>
    cases i with
    | zero => exact h.1
    | succ i =>
      have hrest := ih (slot + 1) h.2 i (Nat.lt_of_succ_lt_succ hi)
      rw [Nat.add_right_comm] at hrest
      exact hrest

end Record

theorem Visit.Chain.numbered_flatMap {l : Layout} {stop start : Nat} {visits : List Visit}
    (h : Chain l stop start visits) (records : Visit → List String)
    (hrecords : ∀ v ∈ visits,
      (records v).length = v.span l ∧ Record.Numbered v.index (records v)) :
    start + (visits.flatMap records).length = stop ∧
      Record.Numbered start (visits.flatMap records) := by
  induction h with
  | nil => exact ⟨rfl, trivial⟩
  | cons v rest hrest ih =>
    obtain ⟨hlength, hnumbered⟩ := hrecords v List.mem_cons_self
    obtain ⟨htotal, hafter⟩ := ih fun u hu => hrecords u (List.mem_cons_of_mem v hu)
    rw [List.flatMap_cons, List.length_append, ← Nat.add_assoc, hlength]
    refine ⟨htotal, Record.numbered_append _ _ _ hnumbered ?_⟩
    rw [hlength]
    exact hafter

namespace Table

theorem numbered_records (t : Table) (region : Region) (v : Visit) (hv : v ∈ t.visits region) :
    (v.records t.layout {}).length = v.span t.layout ∧
      Record.Numbered v.index (v.records t.layout {}) := by
  have hbound := ((t.chain_visits region).bounds v hv).2
  have hspan := v.one_le_span t.layout
  have hlt := (t.toNat_slot v.index (by omega)).2
  have hslots := t.slots_le
  cases v with
  | missing index fault =>
    change index + 1 ≤ t.slots at hbound
    obtain ⟨rest, htext⟩ := Record.exists_text_fault (.ofNat 64 index) fault hlt
    refine ⟨rfl, ?_, trivial⟩
    rw [htext]
    exact Record.carries_caption index _ rest (by omega)
  | found index raw =>
    change index + t.layout.span (t.layout.decode raw) ≤ t.slots at hbound
    have hentry : Record.Carries index
        (Record.text (Record.entry t.layout.mode (.ofNat 64 index) (t.layout.decode raw))) := by
      obtain ⟨rest, htext⟩ :=
        Record.exists_text_entry t.layout.mode (.ofNat 64 index) (t.layout.decode raw) hlt
      rw [htext]
      exact Record.carries_caption index _ rest (by omega)
    have hrecords : (Visit.found index raw).records t.layout {} =
        Record.text (Record.entry t.layout.mode (.ofNat 64 index) (t.layout.decode raw)) ::
          (Visit.upperHalf t.layout index raw).map Record.text := rfl
    rw [hrecords]
    have hhigh := (t.found_mem_visits region index raw hv).2
    obtain ⟨hone, hlines⟩ | ⟨htwo, high, -, hlines⟩ := Visit.upperHalf_cases t.layout index raw hhigh
    · rw [hlines]
      exact ⟨hone.symm, hentry, trivial⟩
    · obtain ⟨rest, htext⟩ := Record.exists_text_upperHalf (.ofNat 64 (index + 1)) (.ofNat 64 index)
        high (t.toNat_slot (index + 1) (by omega)).2
      rw [hlines]
      refine ⟨htwo.symm, hentry, ?_, trivial⟩
      rw [htext]
      exact Record.carries_caption (index + 1) _ rest (by omega)

theorem isSome_fault?_iff (t : Table) :
    t.fault?.isSome ↔ ¬ t.layout.slotSize ∣ t.register.limit.toNat + 1 := by
  rw [Nat.dvd_iff_mod_eq_zero]
  change _ ↔ ¬ t.register.size % t.layout.slotSize = 0
  rw [fault?]
  split
  · rename_i h
    exact ⟨fun hn => (by cases hn), fun hn => absurd h hn⟩
  · rename_i h
    exact ⟨fun _ => h, fun _ => rfl⟩

/-- The walk over a table is done at the last slot exactly, and each slot is of one class; the
summary and the records account for each slot once. -/
theorem slots_accounted (t : Table) (region : Region) :
    t.slots = (t.register.limit.toNat + 1) / t.layout.slotSize ∧
    Visit.Chain t.layout t.slots 0 (t.visits region) ∧
    (∀ slot < t.slots, ∃ c, t.Classified region slot c ∧
      ∀ d, t.Classified region slot d → d = c) ∧
    (∀ slot c, t.Classified region slot c → slot < t.slots) ∧
    (∀ slot c, t.Classified region slot c → c ≠ .upperHalf →
      c = .ofRead (t.layout.read (t.bytes region) (.ofNat 64 slot))) ∧
    (∀ slot, t.Classified region slot .upperHalf →
      t.layout = ⟨.global, .long64⟩ ∧ ∃ owner s, slot = owner + 1 ∧
        t.Classified region owner .decoded ∧
          t.layout.read (t.bytes region) (.ofNat 64 owner) = .ok (.system s)) ∧
    (∀ o, (t.summary region).errors + (t.summary region).reserved + (t.summary region).decoded +
      (t.records o region).countP Record.isUpperHalf = (t.summary region).slots) ∧
    (t.summary region).slots = t.slots ∧
    ((t.summary region).malformed ↔ ¬ t.layout.slotSize ∣ t.register.limit.toNat + 1) ∧
    ∃ slotRecords : List String,
      t.records {} region =
        Record.text (Record.header t.layout t.register (.ofNat 64 t.slots)) ::
          (t.fault?.map fun f => Record.text (Record.warning f)).toList ++ slotRecords ∧
      slotRecords.length = t.slots ∧
      ∀ i (h : i < slotRecords.length), Record.Carries i slotRecords[i] := by
  obtain ⟨hlength, hnumbered⟩ := (t.chain_visits region).numbered_flatMap
    (Visit.records t.layout {}) (t.numbered_records region)
  refine ⟨rfl, t.chain_visits region, t.classified_unique region, t.lt_slots_of_classified region,
    t.eq_ofRead_of_classified region, t.owner_of_upperHalf region,
    fun o => t.sum_eq_slots o region, rfl, t.isSome_fault?_iff, _, t.records_eq {} region, ?_, ?_⟩
  · rw [← hlength, Nat.zero_add]
  · intro i h
    have hcarries := hnumbered.carries 0 _ i h
    rw [Nat.zero_add] at hcarries
    exact hcarries

end Table

end DescriptorTables
