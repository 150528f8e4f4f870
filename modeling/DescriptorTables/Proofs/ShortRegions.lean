import Mathlib.Data.List.TakeWhile
import DescriptorTables.Proofs.ReadOutcomes
import DescriptorTables.Proofs.RecordsBySlot

namespace DescriptorTables

/-- Where a slot can be read, the ones before it can: the quadword after any of these is not beyond
the first one of the slot. -/
theorem Layout.readable_of_lt (l : Layout) (region : Region) (first second : Nat)
    (h : first < second) (hr : l.Readable region (second * l.slotSize)) :
    l.Readable region (first * l.slotSize) := by
  have hnext := Nat.mul_le_mul_right l.slotSize (Nat.succ_le_of_lt h)
  have hsize := l.eight_le_slotSize
  have hlow := hr.1
  rw [Nat.succ_mul] at hnext
  exact ⟨by omega, fun _ => by omega⟩

theorem Layout.readable_iff_of_ne (l : Layout) (hl : l ≠ ⟨.global, .long64⟩) (region : Region)
    (slot : Nat) :
    l.Readable region (slot * l.slotSize) ↔ slot < region.size / l.slotSize := by
  have hfits : l.Readable region (slot * l.slotSize) ↔
      slot * l.slotSize + l.slotSize ≤ region.size := by
    obtain ⟨kind, mode⟩ := l
    cases mode with
    | protected32 =>
      cases kind <;> exact ⟨fun h => h.1, fun h => ⟨h, fun hn => by cases hn⟩⟩
    | long64 =>
      cases kind with
      | interrupt => exact readable_iff_of_interrupt region _
      | global => exact absurd rfl hl
  rw [hfits, ← Nat.succ_mul, ← Nat.le_div_iff_mul_le l.slotSize_pos]
  rfl

theorem Layout.needsExtension_of_global (l : Layout) (hl : l = ⟨.global, .long64⟩)
    (low : Quadword) : l.needsExtension low = (l.systemKind? low).isSome := by
  rw [hl]
  rfl

namespace Visit

theorem exists_of_isMissing (v : Visit) (h : v.isMissing) :
    ∃ fault, v = .missing v.index fault := by
  cases v with
  | missing index fault => exact ⟨fault, rfl⟩
  | found index raw => cases h

theorem span_of_isMissing (l : Layout) (v : Visit) (h : v.isMissing) : v.span l = 1 := by
  obtain ⟨fault, hv⟩ := v.exists_of_isMissing h
  rw [hv]
  rfl

theorem Chain.split {l : Layout} {stop start : Nat} {first second : List Visit}
    (h : Chain l stop start (first ++ second)) :
    ∃ middle, Chain l middle start first ∧ Chain l stop middle second := by
  induction first generalizing start with
  | nil => exact ⟨start, .nil, h⟩
  | cons v rest ih =>
    cases h with
    | cons _ _ hrest =>
      obtain ⟨middle, hfirst, hsecond⟩ := ih hrest
      exact ⟨middle, .cons v rest hfirst, hsecond⟩

theorem Chain.pairwise_index_lt {l : Layout} {stop start : Nat} {visits : List Visit}
    (h : Chain l stop start visits) : visits.Pairwise fun u v => u.index < v.index := by
  induction h with
  | nil => exact .nil
  | cons v rest hrest ih =>
    refine .cons (fun u hu => ?_) ih
    have hspan := v.one_le_span l
    have hlower := (hrest.bounds u hu).1
    omega

theorem Chain.add_length_of_isMissing {l : Layout} {stop start : Nat} {visits : List Visit}
    (h : Chain l stop start visits) (hmissing : ∀ v ∈ visits, v.isMissing) :
    start + visits.length = stop := by
  induction h with
  | nil => rfl
  | cons v rest hrest ih =>
    have htotal := ih fun u hu => hmissing u (List.mem_cons_of_mem v hu)
    rw [v.span_of_isMissing l (hmissing v List.mem_cons_self)] at htotal
    rw [List.length_cons, Nat.add_comm rest.length, ← Nat.add_assoc]
    exact htotal

end Visit

namespace Table

theorem size_bytes (t : Table) (region : Region) :
    (t.bytes region).size = min region.size (t.slots * t.layout.slotSize) := by
  rw [bytes, Region.truncate, Array.size_extract, Nat.sub_zero, Nat.min_comm]

theorem isMissing_visit_iff (t : Table) (region : Region) (slot : Nat) (h : slot < t.slots) :
    (t.layout.visit (t.bytes region) slot).isMissing ↔
      ¬ t.layout.Readable (t.bytes region) (slot * t.layout.slotSize) := by
  have hslots := t.slots_mul_slotSize_le
  have hbytes := t.size_bytes_le region
  have hcases := t.layout.readRaw_cases (t.bytes region) (.ofNat 64 slot) (by omega)
  rw [(t.toNat_slot slot h).1] at hcases
  obtain ⟨hr, hok⟩ | ⟨hr, offset, herror, -⟩ := hcases
  · rw [Layout.visit, hok]
    exact iff_of_false Bool.false_ne_true fun hn => hn hr
  · rw [Layout.visit, herror]
    exact iff_of_true rfl hr

theorem isMissing_iff_of_mem (t : Table) (region : Region) (v : Visit) (hv : v ∈ t.visits region) :
    v.isMissing ↔ ¬ t.layout.Readable (t.bytes region) (v.index * t.layout.slotSize) := by
  obtain ⟨hlt, he⟩ := t.eq_visit_of_mem region v hv
  have hiff := t.isMissing_visit_iff region v.index hlt
  rwa [← he] at hiff

theorem pairwise_isMissing (t : Table) (region : Region) :
    (t.visits region).Pairwise fun u v => u.isMissing → v.isMissing := by
  refine (t.chain_visits region).pairwise_index_lt.imp_of_mem fun {u v} hu hv hlt hmissing => ?_
  rw [t.isMissing_iff_of_mem region u hu] at hmissing
  rw [t.isMissing_iff_of_mem region v hv]
  exact fun hr => hmissing (t.layout.readable_of_lt _ _ _ hlt hr)

def reached (t : Table) (region : Region) : List Visit :=
  (t.visits region).takeWhile fun v => !v.isMissing

def unreached (t : Table) (region : Region) : List Visit :=
  (t.visits region).dropWhile fun v => !v.isMissing

theorem reached_append_unreached (t : Table) (region : Region) :
    t.reached region ++ t.unreached region = t.visits region :=
  List.takeWhile_append_dropWhile

theorem isMissing_of_mem_reached (t : Table) (region : Region) (v : Visit)
    (hv : v ∈ t.reached region) : v.isMissing = false := by
  have hfound := List.mem_takeWhile_imp hv
  rwa [Bool.not_eq_true'] at hfound

theorem isMissing_of_mem_unreached (t : Table) (region : Region) (v : Visit)
    (hv : v ∈ t.unreached region) : v.isMissing := by
  have hpairwise := t.pairwise_isMissing region
  rw [← t.reached_append_unreached region, List.pairwise_append] at hpairwise
  have hhead := List.head?_dropWhile_not (fun v : Visit => !v.isMissing) (t.visits region)
  rw [← unreached] at hhead
  cases he : t.unreached region with
  | nil =>
    rw [he] at hv
    cases hv
  | cons first rest =>
    -- The first of them was not dropped, so it finds nothing, and neither do those after it.
    rw [he] at hv hhead hpairwise
    have hfirst : first.isMissing := (Bool.not_eq_false' _).mp hhead
    obtain rfl | hv := List.mem_cons.mp hv
    · exact hfirst
    · exact (List.pairwise_cons.mp hpairwise.2.1).1 v hv hfirst

theorem errors_eq_length (t : Table) (region : Region) :
    (t.summary region).errors = (t.unreached region).length := by
  have hreached : (t.reached region).countP (fun v => v.isMissing) = 0 :=
    List.countP_eq_zero.mpr fun v hv => by simp [t.isMissing_of_mem_reached region v hv]
  have hunreached : (t.unreached region).countP (fun v => v.isMissing) =
      (t.unreached region).length :=
    List.countP_eq_length.mpr (t.isMissing_of_mem_unreached region)
  change (t.visits region).countP (fun v => v.isMissing) = _
  rw [← t.reached_append_unreached region, List.countP_append, hreached, hunreached, Nat.zero_add]

/-- The slot where the reading ends: the first one that cannot be read, or the end of the table. -/
def reach (t : Table) (region : Region) : Nat :=
  t.slots - (t.summary region).errors

theorem chain_reached (t : Table) (region : Region) :
    Visit.Chain t.layout (t.reach region) 0 (t.reached region) ∧
      Visit.Chain t.layout t.slots (t.reach region) (t.unreached region) := by
  have hchain := t.chain_visits region
  rw [← t.reached_append_unreached region] at hchain
  obtain ⟨middle, hreached, hunreached⟩ := hchain.split
  have hstop := hunreached.add_length_of_isMissing (t.isMissing_of_mem_unreached region)
  have hmiddle : middle = t.reach region := by
    rw [reach, errors_eq_length]
    omega
  rw [← hmiddle]
  exact ⟨hreached, hunreached⟩

theorem reach_add_errors (t : Table) (region : Region) :
    t.reach region + (t.summary region).errors = t.slots := by
  have hstop := (t.chain_reached region).2.add_length_of_isMissing
    (t.isMissing_of_mem_unreached region)
  rwa [← errors_eq_length] at hstop

theorem outOfRange_iff (t : Table) (region : Region) (slot : Nat) :
    t.Classified region slot .outOfRange ↔ t.reach region ≤ slot ∧ slot < t.slots := by
  have hunreached := (t.chain_reached region).2
  have hvisits := t.reached_append_unreached region
  constructor
  · intro h
    cases h with
    | outOfRange _ fault hv =>
      rw [← hvisits, List.mem_append] at hv
      cases hv with
      | inl hv => cases t.isMissing_of_mem_reached region _ hv
      | inr hv => exact hunreached.bounds _ hv
  · rintro ⟨hlower, hupper⟩
    obtain ⟨v, ⟨hv, hcovers⟩, -⟩ := hunreached.existsUnique_covers slot hlower hupper
    have hmissing := t.isMissing_of_mem_unreached region v hv
    have hspan := v.span_of_isMissing t.layout hmissing
    obtain ⟨fault, he⟩ := v.exists_of_isMissing hmissing
    have hindex : v.index = slot := by
      have hbegin := hcovers.1
      have hend := hcovers.2
      omega
    rw [he, hindex] at hv
    refine .outOfRange slot fault ?_
    rw [← hvisits]
    exact List.mem_append_right _ hv

theorem isOutOfRange_of_mem_records (t : Table) (o : Options) (region : Region) (v : Visit)
    (hv : v ∈ t.visits region) (record : String) (hrecord : record ∈ v.records t.layout o) :
    Record.isOutOfRange record = v.isMissing := by
  have hlt := (t.toNat_slot v.index (t.eq_visit_of_mem region v hv).1).2
  cases v with
  | missing index fault =>
    rw [Visit.records_missing, List.mem_singleton] at hrecord
    rw [hrecord]
    exact Record.isOutOfRange_fault _ fault hlt
  | found index raw =>
    rw [Visit.records_found _ _ _ _ (List.ne_nil_of_mem hrecord), List.map_append, List.mem_cons,
      List.mem_append] at hrecord
    obtain rfl | hraw | hupper := hrecord
    · exact Record.isLabelled_entry _ Record.isMark_outOfRange _ _ _ hlt
    · split at hraw
      · rw [List.mem_singleton.mp hraw]
        exact Record.isLabelled_raw _ Record.isMark_outOfRange raw
      · cases hraw
    · have hspan := ((t.chain_visits region).bounds _ hv).2
      change index + t.layout.span (t.layout.decode raw) ≤ t.slots at hspan
      have hhigh := (t.found_mem_visits region index raw hv).2
      obtain ⟨-, hlines⟩ | ⟨htwo, high, -, hlines⟩ := Visit.upperHalf_cases t.layout index raw hhigh
      · rw [hlines] at hupper
        cases hupper
      · rw [hlines] at hupper
        rw [List.mem_singleton.mp hupper]
        exact Record.isOutOfRange_upperHalf _ _ high (t.toNat_slot (index + 1) (by omega)).2

theorem isOutOfRange_heading (t : Table) (record : String)
    (h : record ∈ t.heading.filterMap Event.record?) : Record.isOutOfRange record = false := by
  have hheading : t.heading.filterMap Event.record? =
      Record.text (Record.header t.layout t.register (.ofNat 64 t.slots)) ::
        (t.fault?.map fun f => Record.text (Record.warning f)).toList := by
    rw [heading]
    cases t.fault? <;> rfl
  rw [hheading, List.mem_cons, Option.mem_toList, Option.map_eq_some_iff] at h
  obtain rfl | ⟨f, -, rfl⟩ := h
  · exact Record.isLabelled_header _ Record.isMark_outOfRange _ _ _
  · exact Record.isLabelled_warning _ Record.isMark_outOfRange f

theorem countP_outOfRange_visit (t : Table) (o : Options) (region : Region) (v : Visit)
    (hv : v ∈ t.visits region) :
    (v.records t.layout o).countP Record.isOutOfRange = if v.isMissing then 1 else 0 := by
  have hrecords := t.isOutOfRange_of_mem_records o region v hv
  cases v with
  | missing index fault =>
    have hrecord := hrecords _ (List.mem_singleton_self _)
    rw [Visit.records_missing, List.countP_singleton, hrecord]
  | found index raw =>
    exact List.countP_eq_zero.mpr fun record h => by simp [hrecords record h, Visit.isMissing]

theorem countP_outOfRange_records (t : Table) (o : Options) (region : Region) :
    (t.records o region).countP Record.isOutOfRange = (t.summary region).errors := by
  have hheading : (t.heading.filterMap Event.record?).countP Record.isOutOfRange = 0 :=
    List.countP_eq_zero.mpr fun record h => by simp [t.isOutOfRange_heading record h]
  have hcount : ∀ visits : List Visit, (∀ v ∈ visits, v ∈ t.visits region) →
      (visits.flatMap (Visit.records t.layout o)).countP Record.isOutOfRange =
        visits.countP fun v => v.isMissing := by
    intro visits
    induction visits with
    | nil => exact fun _ => rfl
    | cons v rest ih =>
      intro hmem
      obtain ⟨hv, hrest⟩ := List.forall_mem_cons.mp hmem
      rw [List.flatMap_cons, List.countP_append, t.countP_outOfRange_visit o region v hv, ih hrest,
        List.countP_cons, Nat.add_comm]
  rw [records_eq_append, List.countP_append, hheading, Nat.zero_add,
    hcount _ fun v hv => hv]
  rfl

theorem recordsAt_of_outOfRange (t : Table) (o : Options) (region : Region) (slot : Nat)
    (h : t.Classified region slot .outOfRange) :
    ∃ record, t.recordsAt o region slot = [record] ∧ Record.Carries slot record ∧
      Record.isOutOfRange record := by
  obtain ⟨hindex, hlt⟩ := t.toNat_slot slot (t.lt_slots_of_classified region slot _ h)
  cases h with
  | outOfRange _ fault hv =>
    obtain ⟨rest, htext⟩ := Record.exists_text_fault (.ofNat 64 slot) fault hlt
    refine ⟨_, t.recordsAt_of_missing o region slot fault hv, ?_,
      Record.isOutOfRange_fault _ fault hlt⟩
    rw [htext]
    exact Record.carries_caption slot _ rest (by omega)

theorem isOutOfRange_of_mem_recordsAt (t : Table) (o : Options) (region : Region) (slot : Nat)
    (record : String) (hrecord : record ∈ t.recordsAt o region slot) :
    Record.isOutOfRange record ↔ t.Classified region slot .outOfRange := by
  cases hat : t.visitAt? region slot with
  | none =>
    rw [recordsAt, hat] at hrecord
    cases hrecord
  | some v =>
    obtain ⟨hv, hcovers⟩ := (t.visitAt?_eq_some_iff region slot v).mp hat
    have hslot := Nat.lt_of_lt_of_le hcovers.2 ((t.chain_visits region).bounds v hv).2
    have hlines := v.lines_eq_flatMap_linesAt t.layout o fun index raw he =>
      (t.found_mem_visits region index raw (he ▸ hv)).2
    rw [recordsAt, hat, Option.elim_some] at hrecord
    have hvisit : record ∈ v.records t.layout o := by
      rw [Visit.records, hlines, List.map_flatMap]
      exact List.mem_flatMap.mpr ⟨slot, List.mem_range'_1.mpr hcovers, hrecord⟩
    rw [t.isOutOfRange_of_mem_records o region v hv record hvisit,
      t.classified_outOfRange_iff region slot hslot v hv hcovers]
    cases v <;> simp [Visit.isMissing, Visit.content]

def FirstOutOfRange (t : Table) (o : Options) (region : Region) (k : Nat) : Prop :=
  (∃ record ∈ t.recordsAt o region k, Record.isOutOfRange record) ∧
    ∀ slot < k, ∀ record ∈ t.recordsAt o region slot, Record.isOutOfRange record = false

theorem firstOutOfRange_iff (t : Table) (o : Options) (region : Region) (k : Nat) :
    t.FirstOutOfRange o region k ↔ k = t.reach region ∧ k < t.slots := by
  have hrecord : ∀ slot, (∃ record ∈ t.recordsAt o region slot, Record.isOutOfRange record) ↔
      t.Classified region slot .outOfRange := by
    intro slot
    constructor
    · rintro ⟨record, hmem, houtside⟩
      exact (t.isOutOfRange_of_mem_recordsAt o region slot record hmem).mp houtside
    · intro h
      obtain ⟨record, hrecords, -, houtside⟩ := t.recordsAt_of_outOfRange o region slot h
      exact ⟨record, hrecords ▸ List.mem_singleton_self record, houtside⟩
  have hnone : ∀ slot,
      (∀ record ∈ t.recordsAt o region slot, Record.isOutOfRange record = false) ↔
        ¬ t.Classified region slot .outOfRange := by
    intro slot
    rw [← hrecord slot]
    simp
  simp only [FirstOutOfRange, hrecord, hnone, t.outOfRange_iff]
  have hreach := t.reach_add_errors region
  constructor
  · rintro ⟨⟨hlower, hupper⟩, hbefore⟩
    refine ⟨Nat.le_antisymm ?_ hlower, hupper⟩
    refine Nat.le_of_not_lt fun hlt => hbefore _ hlt ⟨Nat.le_refl _, by omega⟩
  · rintro ⟨rfl, hupper⟩
    exact ⟨⟨Nat.le_refl _, hupper⟩, fun slot hslot h => Nat.not_le.mpr hslot h.1⟩

theorem reach_eq (t : Table) (region : Region) (k : Nat) (hk : k ≤ t.slots)
    (hbefore : ∀ slot < k, ¬ t.Classified region slot .outOfRange)
    (hat : k < t.slots → t.Classified region k .outOfRange) : t.reach region = k := by
  simp only [outOfRange_iff] at hbefore hat
  have hreach := t.reach_add_errors region
  refine Nat.le_antisymm ?_ (Nat.le_of_not_lt fun hlt => ?_)
  · obtain hlt | rfl := Nat.lt_or_eq_of_le hk
    · exact (hat hlt).1
    · omega
  · exact hbefore _ hlt ⟨Nat.le_refl _, by omega⟩

theorem not_readable_of_outOfRange (t : Table) (region : Region) (slot : Nat)
    (h : t.Classified region slot .outOfRange) :
    ¬ t.layout.Readable (t.bytes region) (slot * t.layout.slotSize) := by
  cases h with
  | outOfRange _ fault hv => exact (t.isMissing_iff_of_mem region _ hv).mp rfl

theorem outOfRange_of_not_readable (t : Table) (region : Region) (slot : Nat)
    (hslot : slot < t.slots) (hupper : ¬ t.Classified region slot .upperHalf)
    (hr : ¬ t.layout.Readable (t.bytes region) (slot * t.layout.slotSize)) :
    t.Classified region slot .outOfRange := by
  have hv := t.visit_mem_visits region slot hslot hupper
  have hmissing := (t.isMissing_visit_iff region slot hslot).mpr hr
  obtain ⟨fault, he⟩ := Visit.exists_of_isMissing _ hmissing
  rw [t.index_visit region slot hslot] at he
  exact .outOfRange slot fault (he ▸ hv)

theorem succ_mul_le_of_upperHalf (t : Table) (region : Region) (slot : Nat)
    (h : t.Classified region slot .upperHalf) :
    (slot + 1) * t.layout.slotSize ≤ (t.bytes region).size := by
  have hslots := t.slots_mul_slotSize_le
  cases h with
  | upperHalf owner raw hv hspan =>
    have hindex : owner < t.slots := (t.eq_visit_of_mem region _ hv).1
    have haddress := t.layout.addressable_of_lt owner t.slots hindex (by omega)
    obtain ⟨hread, hhigh⟩ := t.found_mem_visits region owner raw hv
    have hfits := t.layout.add_size_le_of_readRaw _ owner raw haddress hread
    rw [t.layout.size_eq_span_mul raw hhigh, hspan, ← Nat.add_mul] at hfits
    exact hfits

theorem size_bytes_div_le (t : Table) (region : Region) :
    (t.bytes region).size / t.layout.slotSize ≤ t.slots :=
  Nat.div_le_of_le_mul (Nat.mul_comm _ _ ▸ t.size_bytes_le region)

theorem reach_of_ne (t : Table) (region : Region) (hl : t.layout ≠ ⟨.global, .long64⟩) :
    t.reach region = (t.bytes region).size / t.layout.slotSize := by
  have hreadable := t.layout.readable_iff_of_ne hl (t.bytes region)
  refine t.reach_eq region _ (t.size_bytes_div_le region) (fun slot hslot h => ?_) fun hlt => ?_
  · exact t.not_readable_of_outOfRange region slot h ((hreadable slot).mpr hslot)
  · refine t.outOfRange_of_not_readable region _ hlt (fun hupper => ?_) fun hr => ?_
    · exact hl (t.owner_of_upperHalf region _ hupper).1
    · exact Nat.lt_irrefl _ ((hreadable _).mp hr)

def systemAt? (t : Table) (region : Region) (slot : Nat) : Option SystemKind :=
  t.layout.systemKind? (.ofBytes ((t.bytes region).window (slot * t.layout.slotSize) 8))

/-- A system entry begins in the slot, whether or not all of it is there. -/
def StartsSystem (t : Table) (region : Region) (slot : Nat) : Prop :=
  ¬ t.Classified region slot .upperHalf ∧ (t.systemAt? region slot).isSome

section LongModeGlobal

variable (t : Table) (region : Region) (hl : t.layout = ⟨.global, .long64⟩)
include hl

theorem slotSize_eq_eight : t.layout.slotSize = 8 := by
  rw [hl]
  rfl

theorem size_bytes_div_eight_le : (t.bytes region).size / 8 ≤ t.slots := by
  have hbound := t.size_bytes_div_le region
  rwa [t.slotSize_eq_eight hl] at hbound

theorem readable_iff_of_global (slot : Nat) :
    t.layout.Readable (t.bytes region) (slot * t.layout.slotSize) ↔
      slot < (t.bytes region).size / 8 ∧
        ((t.systemAt? region slot).isSome → slot + 1 < (t.bytes region).size / 8) := by
  have hsize := t.slotSize_eq_eight hl
  rw [Layout.Readable, t.layout.needsExtension_of_global hl, systemAt?, hsize]
  exact and_congr (by omega) (imp_congr_right fun _ => by omega)

theorem reach_of_startsSystem (last : Nat) (hlast : last + 1 = (t.bytes region).size / 8)
    (hs : t.StartsSystem region last) : t.reach region = last := by
  have hbound := t.size_bytes_div_eight_le region hl
  refine t.reach_eq region last (by omega) (fun slot hslot h => ?_) fun hlt => ?_
  · refine t.not_readable_of_outOfRange region slot h ?_
    rw [t.readable_iff_of_global region hl]
    exact ⟨by omega, fun _ => by omega⟩
  · refine t.outOfRange_of_not_readable region last hlt hs.1 fun hr => ?_
    have hnext := ((t.readable_iff_of_global region hl last).mp hr).2 hs.2
    omega

theorem reach_of_not_startsSystem
    (hs : ∀ last, last + 1 = (t.bytes region).size / 8 → ¬ t.StartsSystem region last) :
    t.reach region = (t.bytes region).size / 8 := by
  have hbound := t.size_bytes_div_eight_le region hl
  refine t.reach_eq region _ hbound (fun slot hslot h => ?_) fun hlt => ?_
  · have hr := t.not_readable_of_outOfRange region slot h
    rw [t.readable_iff_of_global region hl] at hr
    refine hr ⟨hslot, fun hsystem => Nat.lt_of_le_of_ne hslot fun he => hs slot he ⟨?_, hsystem⟩⟩
    intro hupper
    cases t.eq_of_classified region slot _ _ h hupper
  · refine t.outOfRange_of_not_readable region _ hlt (fun hupper => ?_) fun hr => ?_
    · -- Its owner would have been read with a high quadword that is not all there.
      have hend := t.succ_mul_le_of_upperHalf region _ hupper
      rw [t.slotSize_eq_eight hl] at hend
      omega
    · exact Nat.lt_irrefl _ ((t.readable_iff_of_global region hl _).mp hr).1

end LongModeGlobal

/-- Out-of-range slots come last, and how many they are can be told from the bytes: the first one is
the one that is not all there, or a system entry before it that has only its low quadword. -/
theorem outOfRange_suffix (t : Table) (o : Options) (region : Region) :
    let size := min region.size (t.slots * t.layout.slotSize)
    (∀ k, t.FirstOutOfRange o region k → k < t.slots ∧
      (∀ slot, k ≤ slot → slot < t.slots → ∃ record, t.recordsAt o region slot = [record] ∧
        Record.Carries slot record ∧ Record.isOutOfRange record) ∧
      (∀ slot < k, ∀ record ∈ t.recordsAt o region slot, Record.isOutOfRange record = false) ∧
      (t.summary region).errors = t.slots - k) ∧
    (t.records o region).countP Record.isOutOfRange = (t.summary region).errors ∧
    ((t.summary region).errors = 0 ↔ ∀ k, ¬ t.FirstOutOfRange o region k) ∧
    (t.layout ≠ ⟨.global, .long64⟩ →
      (0 < (t.summary region).errors ↔ size / t.layout.slotSize < t.slots) ∧
      ∀ k, t.FirstOutOfRange o region k → k = size / t.layout.slotSize) ∧
    (t.layout = ⟨.global, .long64⟩ →
      (0 < size / 8 ∧ t.StartsSystem region (size / 8 - 1) →
        ∀ k, t.FirstOutOfRange o region k ↔ k = size / 8 - 1) ∧
      (¬ (0 < size / 8 ∧ t.StartsSystem region (size / 8 - 1)) →
        ((t.summary region).errors = 0 ↔ size / 8 = t.slots) ∧
        ∀ k, t.FirstOutOfRange o region k → k = size / 8)) := by
  intro size
  have hreach := t.reach_add_errors region
  have hsize : (t.bytes region).size = size := t.size_bytes region
  simp only [firstOutOfRange_iff]
  refine ⟨?_, t.countP_outOfRange_records o region, ?_, fun hl => ?_, fun hl => ⟨?_, fun hs => ?_⟩⟩
  · rintro k ⟨rfl, hk⟩
    refine ⟨hk, fun slot hlower hupper => ?_, fun slot hslot record hrecord => ?_, by omega⟩
    · exact t.recordsAt_of_outOfRange o region slot
        ((t.outOfRange_iff region slot).mpr ⟨hlower, hupper⟩)
    · refine Bool.eq_false_iff.mpr fun houtside => Nat.not_le.mpr hslot ?_
      rw [t.isOutOfRange_of_mem_recordsAt o region slot record hrecord, outOfRange_iff] at houtside
      exact houtside.1
  · refine ⟨fun hnone k hk => by omega, fun hnone => ?_⟩
    have hlast := hnone (t.reach region)
    omega
  · have hbound := t.size_bytes_div_le region
    have hk := t.reach_of_ne region hl
    rw [hsize] at hk hbound
    exact ⟨by omega, fun k h => by omega⟩
  · rintro ⟨hpos, hs⟩
    have hbound := t.size_bytes_div_eight_le region hl
    have hk := t.reach_of_startsSystem region hl (size / 8 - 1) (by omega) hs
    exact fun k => by omega
  · have hbound := t.size_bytes_div_eight_le region hl
    have hk := t.reach_of_not_startsSystem region hl fun last hlast hstarts =>
      hs ⟨by omega, by rwa [← hsize, ← hlast]⟩
    exact ⟨by omega, fun k h => by omega⟩

/-- Of four slots, the second one begins a task state segment at the end of the region. -/
theorem outOfRange_from_halved_segment :
    let t : Table := ⟨⟨.global, .long64⟩, ⟨0x1000, 31⟩⟩
    let region : Region := #[0, 0, 0, 0, 0, 0, 0, 0, 0x67, 0, 0, 0, 0x10, 0x89, 0, 0]
    t.FirstOutOfRange {} region 1 ∧ (t.summary region).errors = 3 := by
  intro t region
  obtain ⟨hfirst, -, -, -, hglobal⟩ := t.outOfRange_suffix {} region
  have hupper : ¬ t.Classified region 1 .upperHalf :=
    t.not_upperHalf_succ region 0 (.reserved (.narrow 0) false) (by decide) (by simp)
  have hlast : min region.size (t.slots * t.layout.slotSize) / 8 - 1 = 1 := by decide
  have houtside := (hglobal rfl).1
  rw [hlast] at houtside
  have houtside := (houtside ⟨by decide, hupper, by decide⟩ 1).mpr rfl
  have herrors := (hfirst 1 houtside).2.2.2
  have hslots : t.slots = 4 := by decide
  rw [hslots] at herrors
  exact ⟨houtside, herrors⟩

end Table

end DescriptorTables
