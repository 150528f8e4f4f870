import DescriptorTables.Proofs.ShortRegions

namespace DescriptorTables

namespace Layout

/-- Two regions of one size that have the same bytes in all the slots but one. -/
structure AgreeOutside (l : Layout) (k : Nat) (first second : Region) : Prop where
  size : first.size = second.size
  bytes : ∀ i, i < k * l.slotSize ∨ (k + 1) * l.slotSize ≤ i → first[i]? = second[i]?

/-- Reading a slot depends on the size of the region and on the quadwords of the slot alone, on the
high one of these only where the low one asks for it. -/
theorem readRaw_congr (l : Layout) (first second : Region) (index : Size)
    (hlt : first.size < 2 ^ 64) (hsize : first.size = second.size)
    (hlow : first.window (index.toNat * l.slotSize) 8 =
      second.window (index.toNat * l.slotSize) 8)
    (hhigh : l.needsExtension (.ofBytes (first.window (index.toNat * l.slotSize) 8)) →
      first.window (index.toNat * l.slotSize + 8) 8 =
        second.window (index.toNat * l.slotSize + 8) 8) :
    l.readRaw first index = l.readRaw second index := by
  have hreadable : l.Readable first (index.toNat * l.slotSize) ↔
      l.Readable second (index.toNat * l.slotSize) := by
    rw [Readable, Readable, hlow, hsize]
  have hraw : l.rawAt first (index.toNat * l.slotSize) =
      l.rawAt second (index.toNat * l.slotSize) := by
    rw [rawAt, rawAt, ← hlow]
    split
    · rename_i hneeds
      rw [hhigh hneeds]
    · rfl
  obtain ⟨hr, hok⟩ | ⟨hr, offset, herror, hoffset⟩ := l.readRaw_cases first index hlt
  · obtain ⟨-, hok'⟩ | ⟨hr', -⟩ := l.readRaw_cases second index (hsize ▸ hlt)
    · rw [hok, hok', hraw]
    · exact absurd (hreadable.mp hr) hr'
  · obtain ⟨hr', -⟩ | ⟨-, offset', herror', hoffset'⟩ := l.readRaw_cases second index (hsize ▸ hlt)
    · exact absurd (hreadable.mpr hr') hr
    · have hmissing : offset = offset' := by
        apply BitVec.eq_of_toNat_eq
        rw [hoffset, hoffset', Region.missingOffset, Region.missingOffset, hsize]
      rw [herror, herror', hmissing, Region.extent, Region.extent, hsize]

theorem slotSize_of_needsExtension (l : Layout) (low : Quadword) (hl : l ≠ ⟨.global, .long64⟩)
    (h : l.needsExtension low) : l.slotSize = 16 := by
  obtain ⟨kind, mode⟩ := l
  cases mode with
  | protected32 => cases kind <;> cases h
  | long64 =>
    cases kind with
    | interrupt => rfl
    | global => exact absurd rfl hl

namespace AgreeOutside

variable {l : Layout} {k : Nat} {first second : Region}

theorem window_eq (h : l.AgreeOutside k first second) (slot offset : Nat) (hslot : slot ≠ k)
    (hlower : slot * l.slotSize ≤ offset) (hupper : offset + 8 ≤ (slot + 1) * l.slotSize) :
    first.window offset 8 = second.window offset 8 := by
  refine first.window_congr second offset 8 fun i hi hi' => h.bytes i ?_
  obtain hlt | hgt := Nat.lt_or_gt_of_ne hslot
  · have hnext := Nat.mul_le_mul_right l.slotSize (show slot + 1 ≤ k from hlt)
    exact .inl (by omega)
  · have hnext := Nat.mul_le_mul_right l.slotSize (show k + 1 ≤ slot from hgt)
    exact .inr (by omega)

theorem truncate (h : l.AgreeOutside k first second) (size : Nat) :
    l.AgreeOutside k (first.truncate size) (second.truncate size) := by
  refine ⟨?_, fun i hi => ?_⟩
  · rw [Region.truncate, Region.truncate, Array.size_extract, Array.size_extract, h.size]
  · rw [Region.truncate, Region.truncate, Array.getElem?_extract, Array.getElem?_extract, h.size,
      Nat.zero_add, h.bytes i hi]

end AgreeOutside

end Layout

namespace Table

theorem visit_eq_of_agreeOutside (t : Table) (k : Nat) (first second : Region)
    (h : t.layout.AgreeOutside k first second) (slot : Nat) (hlt : slot < t.slots)
    (hslot : slot ≠ k)
    (hnext : t.layout = ⟨.global, .long64⟩ → slot + 1 = k → t.systemAt? first slot = none) :
    t.layout.visit (t.bytes first) slot = t.layout.visit (t.bytes second) slot := by
  have hbytes : t.layout.AgreeOutside k (t.bytes first) (t.bytes second) := h.truncate _
  have hsize := t.layout.eight_le_slotSize
  have htable := t.slots_mul_slotSize_le
  have htruncated := t.size_bytes_le first
  have hend : (slot + 1) * t.layout.slotSize = slot * t.layout.slotSize + t.layout.slotSize :=
    Nat.succ_mul slot _
  have hread : t.layout.readRaw (t.bytes first) (.ofNat 64 slot) =
      t.layout.readRaw (t.bytes second) (.ofNat 64 slot) := by
    apply t.layout.readRaw_congr _ _ _ (by omega) hbytes.size
    · rw [(t.toNat_slot slot hlt).1]
      exact hbytes.window_eq slot _ hslot (Nat.le_refl _) (by omega)
    · rw [(t.toNat_slot slot hlt).1]
      intro hneeds
      -- The high quadword is in the next slot of a long mode GDT, else in the same slot.
      by_cases hl : t.layout = ⟨.global, .long64⟩
      · have height := t.slotSize_eq_eight hl
        rw [t.layout.needsExtension_of_global hl, ← systemAt?] at hneeds
        have hother : slot + 1 ≠ k := by
          intro hk
          rw [hnext hl hk] at hneeds
          cases hneeds
        refine hbytes.window_eq (slot + 1) _ hother (by omega) ?_
        rw [Nat.succ_mul]
        omega
      · have hsixteen := t.layout.slotSize_of_needsExtension _ hl hneeds
        exact hbytes.window_eq slot _ hslot (by omega) (by omega)
  rw [Layout.visit, Layout.visit, hread]

theorem visitAt?_of_le (t : Table) (region : Region) (slot : Nat) (h : t.slots ≤ slot) :
    t.visitAt? region slot = none := by
  refine List.find?_eq_none.mpr fun v hv hcovers => ?_
  have hend := ((t.chain_visits region).bounds v hv).2
  have hupper := (of_decide_eq_true hcovers).2
  omega

theorem visits_eq_append (t : Table) (region : Region) (n index : Nat) (hn : n < t.slots)
    (h : t.layout.visit (t.bytes region) n ∈ t.layout.visits (t.bytes region) t.slots index) :
    ∃ before, t.layout.visits (t.bytes region) t.slots index =
        before ++ t.layout.visits (t.bytes region) t.slots n ∧
      ∀ v ∈ before, v.index + v.span t.layout ≤ n := by
  induction index using Layout.visits.induct t.layout (t.bytes region) t.slots with
  | case1 index hlt ih =>
    by_cases he : index = n
    · rw [he]
      exact ⟨[], rfl, fun v hv => by cases hv⟩
    have hindex := t.index_visit region index hlt
    have hnindex := t.index_visit region n hn
    rw [Layout.visits, if_pos hlt] at h
    obtain hfirst | hrest := List.mem_cons.mp h
    · rw [hfirst, hindex] at hnindex
      exact absurd hnindex he
    · have hbounds := ((t.chain_visits_from region _ (t.add_span_visit_le region index hlt)).bounds
        _ hrest).1
      obtain ⟨before, hbefore, hspans⟩ := ih hrest
      refine ⟨t.layout.visit (t.bytes region) index :: before, ?_, ?_⟩
      · rw [List.cons_append, ← hbefore, Layout.visits, if_pos hlt]
      · refine List.forall_mem_cons.mpr ⟨?_, hspans⟩
        rw [hindex, ← hnindex]
        exact hbounds
  | case2 index hge =>
    rw [Layout.visits, if_neg hge] at h
    cases h

theorem find?_visits_of_lt (t : Table) (region : Region) (slot index : Nat)
    (hindex : index ≤ t.slots) (h : slot < index) :
    (t.layout.visits (t.bytes region) t.slots index).find?
      (fun v => v.Covers t.layout slot) = none := by
  refine List.find?_eq_none.mpr fun v hv hcovers => ?_
  have hstart := ((t.chain_visits_from region index hindex).bounds v hv).1
  have hlower := (of_decide_eq_true hcovers).1
  omega

theorem find?_visits_congr (t : Table) (first second : Region) (slot index : Nat)
    (h : ∀ v ∈ t.layout.visits (t.bytes first) t.slots index, v.index ≤ slot →
      t.layout.visit (t.bytes second) v.index = v) :
    (t.layout.visits (t.bytes first) t.slots index).find? (fun v => v.Covers t.layout slot) =
      (t.layout.visits (t.bytes second) t.slots index).find? fun v => v.Covers t.layout slot := by
  induction index using Layout.visits.induct t.layout (t.bytes first) t.slots with
  | case1 index hlt ih =>
    -- Behind the slot the walks may part, as nothing there covers it.
    by_cases hslot : slot < index
    · rw [t.find?_visits_of_lt first slot index (Nat.le_of_lt hlt) hslot,
        t.find?_visits_of_lt second slot index (Nat.le_of_lt hlt) hslot]
    have hfirst : t.layout.visits (t.bytes first) t.slots index =
        t.layout.visit (t.bytes first) index :: t.layout.visits (t.bytes first) t.slots
          (index + (t.layout.visit (t.bytes first) index).span t.layout) := by
      rw [Layout.visits, if_pos hlt]
    rw [hfirst] at h
    obtain ⟨hvisit, hrest⟩ := List.forall_mem_cons.mp h
    rw [t.index_visit first index hlt] at hvisit
    have hsecond : t.layout.visits (t.bytes second) t.slots index =
        t.layout.visit (t.bytes first) index :: t.layout.visits (t.bytes second) t.slots
          (index + (t.layout.visit (t.bytes first) index).span t.layout) := by
      rw [Layout.visits, if_pos hlt, hvisit (Nat.le_of_not_lt hslot)]
    rw [hfirst, hsecond, List.find?_cons, List.find?_cons, ih hrest]
  | case2 index hge => rw [Layout.visits, if_neg hge, Layout.visits, if_neg hge]

theorem exists_visits_eq_append (t : Table) (region : Region) (n : Nat) (hn : n < t.slots)
    (hupper : ¬ t.Classified region n .upperHalf) :
    ∃ before, t.visits region = before ++ t.layout.visits (t.bytes region) t.slots n ∧
      ∀ v ∈ before, v.index + v.span t.layout ≤ n :=
  t.visits_eq_append region n 0 hn (t.visit_mem_visits region n hn hupper)

theorem visitAt?_eq_find? (t : Table) (region : Region) (n slot : Nat) (hn : n < t.slots)
    (hslot : n ≤ slot) (hupper : ¬ t.Classified region n .upperHalf) :
    t.visitAt? region slot =
      (t.layout.visits (t.bytes region) t.slots n).find? fun v => v.Covers t.layout slot := by
  obtain ⟨before, hvisits, hspans⟩ := t.exists_visits_eq_append region n hn hupper
  have hbefore : (before.find? fun v => v.Covers t.layout slot) = none := by
    refine List.find?_eq_none.mpr fun v hv hcovers => ?_
    have hend := hspans v hv
    have hbehind := (of_decide_eq_true hcovers).2
    omega
  rw [visitAt?, hvisits, List.find?_append, hbefore, Option.none_or]

theorem recordsAt_congr (t : Table) (o : Options) (first second : Region) (n slot : Nat)
    (hn : n ≤ slot) (hfirst : ¬ t.Classified first n .upperHalf)
    (hsecond : ¬ t.Classified second n .upperHalf)
    (h : ∀ v ∈ t.visits first, n ≤ v.index → v.index ≤ slot →
      t.layout.visit (t.bytes second) v.index = v) :
    t.recordsAt o first slot = t.recordsAt o second slot := by
  have hvisit : t.visitAt? first slot = t.visitAt? second slot := by
    by_cases hslot : slot < t.slots
    · have hlt := Nat.lt_of_le_of_lt hn hslot
      rw [t.visitAt?_eq_find? first n slot hlt hn hfirst,
        t.visitAt?_eq_find? second n slot hlt hn hsecond]
      refine t.find?_visits_congr first second slot n fun v hv hle => ?_
      have hstart := ((t.chain_visits_from first n (Nat.le_of_lt hlt)).bounds v hv).1
      obtain ⟨before, hvisits, -⟩ := t.exists_visits_eq_append first n hlt hfirst
      exact h v (hvisits ▸ List.mem_append_right before hv) hstart hle
    · rw [t.visitAt?_of_le first slot (Nat.le_of_not_lt hslot),
        t.visitAt?_of_le second slot (Nat.le_of_not_lt hslot)]
  rw [recordsAt, recordsAt, hvisit]

/-- Bytes that differ in one slot make a difference to the records about that slot. In a long mode GDT
they may make one to a system entry that goes on in the slot, and to the slots behind it up to the
first one where an entry may begin in both tables. -/
theorem recordsAt_of_agreeOutside (t : Table) (o : Options) (k : Nat) (first second : Region)
    (h : t.layout.AgreeOutside k first second) :
    (t.layout ≠ ⟨.global, .long64⟩ → ∀ slot, slot ≠ k →
      t.recordsAt o first slot = t.recordsAt o second slot) ∧
    (t.layout = ⟨.global, .long64⟩ →
      (∀ slot, slot + 1 < k → t.recordsAt o first slot = t.recordsAt o second slot) ∧
      (∀ slot, slot + 1 = k → ¬ t.StartsSystem first slot →
        t.recordsAt o first slot = t.recordsAt o second slot) ∧
      ∀ n, k < n → ¬ t.Classified first n .upperHalf → ¬ t.Classified second n .upperHalf →
        ∀ slot, n ≤ slot → t.recordsAt o first slot = t.recordsAt o second slot) := by
  -- A visit to another slot has the same outcome unless the slot after it is the one that differs.
  have hsame : ∀ v ∈ t.visits first, v.index ≠ k →
      (t.layout = ⟨.global, .long64⟩ → v.index + 1 = k → ¬ t.StartsSystem first v.index) →
      t.layout.visit (t.bytes second) v.index = v := by
    intro v hv hne hstarts
    obtain ⟨hlt, he⟩ := t.eq_visit_of_mem first v hv
    rw [← t.visit_eq_of_agreeOutside k first second h v.index hlt hne, ← he]
    intro hl hk
    have hsystem := hstarts hl hk
    rw [StartsSystem, not_and] at hsystem
    exact Option.not_isSome_iff_eq_none.mp (hsystem (t.not_upperHalf_of_visited first v hv))
  have hzero := t.not_upperHalf_zero
  refine ⟨fun hl slot hslot => ?_, fun hl => ⟨fun slot hslot => ?_, fun slot hslot hs => ?_,
    fun n hn hfirst hsecond slot hle => ?_⟩⟩
  · have hnone : ∀ region, ¬ t.Classified region slot .upperHalf := fun region hupper =>
      hl (t.owner_of_upperHalf region slot hupper).1
    refine t.recordsAt_congr o first second slot slot (Nat.le_refl _) (hnone first)
      (hnone second) fun v hv hlower hupper => ?_
    exact hsame v hv (by omega) fun hglobal => absurd hglobal hl
  · refine t.recordsAt_congr o first second 0 slot (Nat.zero_le _) (hzero first) (hzero second) ?_
    intro v hv _ hupper
    exact hsame v hv (by omega) fun _ hk => by omega
  · refine t.recordsAt_congr o first second 0 slot (Nat.zero_le _) (hzero first) (hzero second) ?_
    intro v hv _ hupper
    refine hsame v hv (by omega) fun _ hk => ?_
    obtain rfl : v.index = slot := by omega
    exact hs
  · refine t.recordsAt_congr o first second n slot hle hfirst hsecond fun v hv hlower hupper => ?_
    exact hsame v hv (by omega) fun _ hk => by omega

/-- A task state segment in one of two tables, and zeros in the other, make no difference to the
code segment after the next slot. -/
theorem recordsAt_of_cleared_segment :
    let t : Table := ⟨⟨.global, .long64⟩, ⟨0x1000, 31⟩⟩
    let first : Region :=
      #[0, 0, 0, 0, 0, 0, 0, 0, 0x67, 0, 0, 0, 0x10, 0x89, 0, 0,
        0, 0, 0, 0, 0, 0, 0, 0, 0xFF, 0xFF, 0, 0, 0, 0x9A, 0xAF, 0]
    let second : Region :=
      #[0, 0, 0, 0, 0, 0, 0, 0, 0, 0, 0, 0, 0, 0, 0, 0,
        0, 0, 0, 0, 0, 0, 0, 0, 0xFF, 0xFF, 0, 0, 0, 0x9A, 0xAF, 0]
    t.layout.AgreeOutside 1 first second ∧ t.recordsAt {} first 0 = t.recordsAt {} second 0 ∧
      t.recordsAt {} first 3 = t.recordsAt {} second 3 := by
  intro t first second
  have hagree : t.layout.AgreeOutside 1 first second := by
    refine ⟨rfl, fun i hi => ?_⟩
    have hbytes : ∀ i < 32, i < 8 ∨ 16 ≤ i → first[i]? = second[i]? := by decide
    by_cases hlt : i < 32
    · exact hbytes i hlt hi
    · have hend := Nat.le_of_not_lt hlt
      rw [Array.getElem?_eq_none hend, Array.getElem?_eq_none hend]
  have hfirst : ¬ t.Classified first 3 .upperHalf :=
    t.not_upperHalf_succ first 2 (.reserved (.narrow 0) false) (by decide) (by simp)
  have hsecond : ¬ t.Classified second 3 .upperHalf :=
    t.not_upperHalf_succ second 2 (.reserved (.narrow 0) false) (by decide) (by simp)
  have hnull : ¬ t.StartsSystem first 0 := fun hs => absurd hs.2 (by decide)
  obtain ⟨-, hglobal⟩ := t.recordsAt_of_agreeOutside {} 1 first second hagree
  obtain ⟨-, hbefore, hafter⟩ := hglobal rfl
  exact ⟨hagree, hbefore 0 rfl hnull,
    hafter 3 (by decide) hfirst hsecond 3 (Nat.le_refl 3)⟩

end Table

end DescriptorTables
