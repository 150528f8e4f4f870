import DescriptorTables.Proofs.ShortRegions

namespace DescriptorTables

theorem Region.window_append (region extra : Region) (offset size : Nat)
    (h : offset + size ≤ region.size) :
    Region.window (region ++ extra) offset size = region.window offset size :=
  window_congr _ _ _ _ fun i _ hi => Array.getElem?_append_left (by omega)

namespace Layout

theorem visit_append (l : Layout) (region extra : Region) (index : Nat)
    (haddress : index * l.slotSize + 8 < 2 ^ 64) (h : (l.visit region index).isMissing = false) :
    l.visit (region ++ extra) index = l.visit region index := by
  rw [visit] at h ⊢
  cases hr : l.readRaw region (.ofNat 64 index) with
  | error fault =>
    rw [hr] at h
    cases h
  | ok raw =>
    obtain ⟨hhigh, hwindow⟩ := (l.readRaw_eq_ok_iff region index raw haddress).mp hr
    have hfits := l.add_size_le_of_readRaw region index raw haddress hr
    have hlonger : l.readRaw (region ++ extra) (.ofNat 64 index) = .ok raw := by
      rw [l.readRaw_eq_ok_iff _ index raw haddress, region.window_append extra _ _ hfits]
      exact ⟨hhigh, hwindow⟩
    rw [visit, hr, hlonger]

/-- A walk goes the same way as one through a longer region until it finds nothing. -/
theorem takeWhile_visits_append (l : Layout) (region extra : Region) (slots index : Nat)
    (hslots : slots * l.slotSize < 2 ^ 64) :
    ((l.visits region slots index).takeWhile fun v => !v.isMissing) <+:
      (l.visits (region ++ extra) slots index).takeWhile fun v => !v.isMissing := by
  induction index using Layout.visits.induct l region slots with
  | case1 index hlt ih =>
    have haddress := l.addressable_of_lt index slots hlt hslots
    rw [visits, if_pos hlt]
    cases hmissing : (l.visit region index).isMissing with
    | true =>
      rw [List.takeWhile_cons_of_neg (by simp [hmissing])]
      exact List.nil_prefix
    | false =>
      -- The same entry is as wide in both regions, so both walks go on at the same slot.
      have hlonger : l.visits (region ++ extra) slots index = l.visit region index ::
          l.visits (region ++ extra) slots (index + (l.visit region index).span l) := by
        rw [visits, if_pos hlt, l.visit_append region extra index haddress hmissing]
      rw [hlonger, List.takeWhile_cons_of_pos (by simp [hmissing]),
        List.takeWhile_cons_of_pos (by simp [hmissing])]
      exact List.cons_prefix_cons.mpr ⟨rfl, ih⟩
  | case2 index hge =>
    rw [visits, if_neg hge]
    exact List.nil_prefix

end Layout

theorem Visit.Chain.stop_eq {l : Layout} {start first second : Nat} {visits : List Visit}
    (h : Chain l first start visits) (h' : Chain l second start visits) : first = second :=
  h.add_length_add_sum.symm.trans h'.add_length_add_sum

namespace Table

theorem bytes_append (t : Table) (region extra : Region) :
    t.bytes (region ++ extra) =
      t.bytes region ++ extra.truncate (t.slots * t.layout.slotSize - region.size) := by
  rw [bytes, bytes, Region.truncate, Region.truncate, Region.truncate, Array.extract_append,
    Nat.zero_sub]

theorem reached_append (t : Table) (region extra : Region) :
    t.reached region <+: t.reached (region ++ extra) := by
  have hslots := t.slots_mul_slotSize_le
  rw [reached, reached, visits, visits, bytes_append]
  exact t.layout.takeWhile_visits_append _ _ t.slots 0 (by omega)

theorem reach_append (t : Table) (region extra : Region) :
    t.reach region ≤ t.reach (region ++ extra) := by
  obtain ⟨added, hreached⟩ := t.reached_append region extra
  have hchain := (t.chain_reached (region ++ extra)).1
  rw [← hreached] at hchain
  obtain ⟨middle, hfirst, hadded⟩ := hchain.split
  rw [(t.chain_reached region).1.stop_eq hfirst]
  exact hadded.start_le

theorem entries_eq (t : Table) (region : Region) :
    (t.visits region).filterMap (Visit.entry? t.layout) =
      (t.reached region).filterMap (Visit.entry? t.layout) := by
  have hnone : (t.unreached region).filterMap (Visit.entry? t.layout) = [] := by
    refine List.filterMap_eq_nil_iff.mpr fun v hv => ?_
    obtain ⟨fault, he⟩ := v.exists_of_isMissing (t.isMissing_of_mem_unreached region v hv)
    rw [he]
    rfl
  rw [← t.reached_append_unreached region, List.filterMap_append, hnone, List.append_nil]

theorem takeWhile_records (t : Table) (o : Options) (region : Region) :
    ((t.records o region).takeWhile fun record => !Record.isOutOfRange record) =
      t.heading.filterMap Event.record? ++
        (t.reached region).flatMap (Visit.records t.layout o) := by
  have hheading : ∀ record ∈ t.heading.filterMap Event.record?, !Record.isOutOfRange record := by
    intro record hrecord
    rw [t.isOutOfRange_heading record hrecord]
    rfl
  have hreached : ∀ record ∈ (t.reached region).flatMap (Visit.records t.layout o),
      !Record.isOutOfRange record := by
    intro record hrecord
    obtain ⟨v, hv, hrecord⟩ := List.mem_flatMap.mp hrecord
    have hmem : v ∈ t.visits region := (List.takeWhile_prefix _).subset hv
    rw [t.isOutOfRange_of_mem_records o region v hmem record hrecord,
      t.isMissing_of_mem_reached region v hv]
    rfl
  have hunreached : (((t.unreached region).flatMap (Visit.records t.layout o)).takeWhile
      fun record => !Record.isOutOfRange record) = [] := by
    cases he : t.unreached region with
    | nil => rfl
    | cons v rest =>
      have hv : v ∈ t.unreached region := he ▸ List.mem_cons_self
      have hmem : v ∈ t.visits region := (List.dropWhile_suffix _).subset hv
      have hmissing := t.isMissing_of_mem_unreached region v hv
      obtain ⟨fault, hfault⟩ := v.exists_of_isMissing hmissing
      have hrecords := t.isOutOfRange_of_mem_records o region v hmem
      rw [hmissing, hfault, Visit.records_missing] at hrecords
      rw [List.flatMap_cons, hfault, Visit.records_missing, List.singleton_append]
      refine List.takeWhile_cons_of_neg ?_
      rw [hrecords _ (List.mem_singleton_self _)]
      exact Bool.false_ne_true
  rw [records_eq_append, List.takeWhile_append_of_pos hheading, ← t.reached_append_unreached region,
    List.flatMap_append, List.takeWhile_append_of_pos hreached, hunreached, List.append_nil]

/-- More memory adds to what is reported of a table and changes none of it; what lies behind the
table adds nothing. -/
theorem records_of_longer_region (t : Table) (o : Options) (region extra : Region) :
    ((t.records o region).takeWhile fun record => !Record.isOutOfRange record) <+:
      t.records o (region ++ extra) ∧
    (t.summary region).decoded ≤ (t.summary (region ++ extra)).decoded ∧
    (t.summary region).reserved ≤ (t.summary (region ++ extra)).reserved ∧
    (t.summary (region ++ extra)).errors ≤ (t.summary region).errors ∧
    (t.summary (region ++ extra)).slots = (t.summary region).slots ∧
    (t.summary (region ++ extra)).malformed = (t.summary region).malformed ∧
    (t.slots * t.layout.slotSize ≤ region.size →
      t.records o (region ++ extra) = t.records o region ∧
        t.summary (region ++ extra) = t.summary region) := by
  have hreached := t.reached_append region extra
  have hentries := hreached.filterMap (Visit.entry? t.layout)
  rw [← entries_eq, ← entries_eq] at hentries
  refine ⟨?_, hentries.countP_le, hentries.countP_le, ?_, rfl, rfl, fun hfull => ?_⟩
  · obtain ⟨added, hadded⟩ := hreached
    refine List.IsPrefix.trans ?_
      (List.takeWhile_prefix fun record => !Record.isOutOfRange record)
    rw [takeWhile_records, takeWhile_records, ← hadded, List.flatMap_append, ← List.append_assoc]
    exact List.prefix_append _ _
  · have hfirst := t.reach_add_errors region
    have hsecond := t.reach_add_errors (region ++ extra)
    have hle := t.reach_append region extra
    omega
  · have hbytes : t.bytes (region ++ extra) = t.bytes region := by
      rw [bytes_append, Nat.sub_eq_zero_of_le hfull, Region.truncate, Array.extract_zero,
        Array.append_empty]
    simp only [records, listing, summary, visits, hbytes, and_self]

/-- A task state segment that begins in the last slot does not go on behind the table. -/
theorem records_of_segment_at_the_end :
    let t : Table := ⟨⟨.global, .long64⟩, ⟨0x1000, 15⟩⟩
    let region : Region := #[0, 0, 0, 0, 0, 0, 0, 0, 0x67, 0, 0, 0, 0x10, 0x89, 0, 0]
    let extra : Region := #[0x80, 0xFF, 0xFF, 0xFF, 0, 0, 0, 0]
    t.layout.needsExtension (.ofBytes (region.window 8 8)) ∧
      t.records {} (region ++ extra) = t.records {} region := by
  intro t region extra
  obtain ⟨-, -, -, -, -, -, hfull⟩ := t.records_of_longer_region {} region extra
  exact ⟨by decide, (hfull (by decide)).1⟩

end Table

end DescriptorTables
