import DescriptorTables.Walk
import DescriptorTables.Proofs.Reading

namespace DescriptorTables

namespace Visit

def index : Visit → Nat
  | missing index _ => index
  | found index _ => index

/-- The slots that are done with after a visit and were not before it. -/
def Covers (l : Layout) (v : Visit) (slot : Nat) : Prop :=
  v.index ≤ slot ∧ slot < v.index + v.span l

theorem covers_index (l : Layout) (v : Visit) : v.Covers l v.index :=
  ⟨Nat.le_refl v.index, Nat.lt_add_of_pos_right (v.one_le_span l)⟩

/-- Visits each of which begins where the one before it is done, up to a last slot. -/
inductive Chain (l : Layout) (stop : Nat) : Nat → List Visit → Prop
  | nil : Chain l stop stop []
  | cons (v : Visit) (rest : List Visit) (h : Chain l stop (v.index + v.span l) rest) :
      Chain l stop v.index (v :: rest)

theorem Chain.of_index {l : Layout} {stop start : Nat} (v : Visit) (rest : List Visit)
    (hv : v.index = start) (h : Chain l stop (start + v.span l) rest) :
    Chain l stop start (v :: rest) := by
  subst hv
  exact .cons v rest h

theorem Chain.start_le {l : Layout} {stop start : Nat} {visits : List Visit}
    (h : Chain l stop start visits) : start ≤ stop := by
  induction h with
  | nil => exact Nat.le_refl stop
  | cons v rest h ih => exact Nat.le_trans (Nat.le_add_right _ _) ih

theorem Chain.bounds {l : Layout} {stop start : Nat} {visits : List Visit}
    (h : Chain l stop start visits) (v : Visit) (hv : v ∈ visits) :
    start ≤ v.index ∧ v.index + v.span l ≤ stop := by
  induction h with
  | nil => cases hv
  | cons first rest hrest ih =>
    obtain rfl | hv := List.mem_cons.mp hv
    · exact ⟨Nat.le_refl _, hrest.start_le⟩
    · obtain ⟨hlower, hupper⟩ := ih hv
      exact ⟨Nat.le_trans (Nat.le_add_right _ _) hlower, hupper⟩

theorem Chain.existsUnique_covers {l : Layout} {stop start : Nat} {visits : List Visit}
    (h : Chain l stop start visits) (slot : Nat) (hstart : start ≤ slot) (hstop : slot < stop) :
    ∃ v, (v ∈ visits ∧ v.Covers l slot) ∧ ∀ u ∈ visits, u.Covers l slot → u = v := by
  induction h with
  | nil => omega
  | cons first rest hrest ih =>
    by_cases hslot : slot < first.index + first.span l
    · refine ⟨first, ⟨List.mem_cons_self, hstart, hslot⟩, fun u hu hcovers => ?_⟩
      obtain rfl | hu := List.mem_cons.mp hu
      · rfl
      -- The visits after the first one begin behind the slot.
      · have hlower := (hrest.bounds u hu).1
        have hupper := hcovers.1
        omega
    · obtain ⟨v, ⟨hv, hcovers⟩, hunique⟩ := ih (Nat.le_of_not_lt hslot)
      refine ⟨v, ⟨List.mem_cons_of_mem first hv, hcovers⟩, fun u hu hu' => ?_⟩
      obtain rfl | hu := List.mem_cons.mp hu
      · exact absurd hu'.2 hslot
      · exact hunique u hu hu'

theorem Chain.add_length_add_sum {l : Layout} {stop start : Nat} {visits : List Visit}
    (h : Chain l stop start visits) :
    start + visits.length + (visits.map fun v => v.span l - 1).sum = stop := by
  induction h with
  | nil => simp
  | cons v rest hrest ih =>
    have hspan := v.one_le_span l
    simp only [List.length_cons, List.map_cons, List.sum_cons]
    omega

end Visit

namespace Table

theorem slots_mul_slotSize_le (t : Table) : t.slots * t.layout.slotSize ≤ 65536 := by
  have hlimit := t.register.limit.isLt
  have hsize : t.register.size ≤ 65536 := hlimit
  exact Nat.le_trans (Nat.div_mul_le_self _ _) hsize

theorem size_bytes_le (t : Table) (region : Region) :
    (t.bytes region).size ≤ t.slots * t.layout.slotSize := by
  rw [bytes, Region.truncate, Array.size_extract]
  omega

/-- What a visit to a slot of a table can be. An entry is found only when all the slots that it
takes up are in the table. -/
theorem visit_cases (t : Table) (region : Region) (index : Nat) (h : index < t.slots) :
    (∃ fault, t.layout.readRaw (t.bytes region) (.ofNat 64 index) = .error fault ∧
      t.layout.visit (t.bytes region) index = .missing index fault) ∨
    (∃ raw, t.layout.readRaw (t.bytes region) (.ofNat 64 index) = .ok raw ∧
      t.layout.visit (t.bytes region) index = .found index raw ∧
      raw.high.isSome = t.layout.needsExtension raw.low ∧
      index + t.layout.span (t.layout.decode raw) ≤ t.slots) := by
  have hslots := t.slots_mul_slotSize_le
  have haddress := t.layout.addressable_of_lt index t.slots h (by omega)
  cases hr : t.layout.readRaw (t.bytes region) (.ofNat 64 index) with
  | error fault => exact .inl ⟨fault, rfl, by rw [Layout.visit, hr]⟩
  | ok raw =>
    have hhigh := ((t.layout.readRaw_eq_ok_iff _ index raw haddress).mp hr).1
    have hfits := t.layout.add_size_le_of_readRaw _ index raw haddress hr
    rw [t.layout.size_eq_span_mul raw hhigh, ← Nat.add_mul] at hfits
    refine .inr ⟨raw, rfl, by rw [Layout.visit, hr], hhigh, ?_⟩
    exact Nat.le_of_mul_le_mul_right (Nat.le_trans hfits (t.size_bytes_le region))
      t.layout.slotSize_pos

theorem index_visit (t : Table) (region : Region) (index : Nat) (h : index < t.slots) :
    (t.layout.visit (t.bytes region) index).index = index := by
  obtain ⟨fault, -, hv⟩ | ⟨raw, -, hv, -⟩ := t.visit_cases region index h
  · rw [hv]
    rfl
  · rw [hv]
    rfl

theorem add_span_visit_le (t : Table) (region : Region) (index : Nat) (h : index < t.slots) :
    index + (t.layout.visit (t.bytes region) index).span t.layout ≤ t.slots := by
  obtain ⟨fault, -, hv⟩ | ⟨raw, -, hv, -, hspan⟩ := t.visit_cases region index h
  · rw [hv]
    exact h
  · rw [hv]
    exact hspan

theorem chain_visits_from (t : Table) (region : Region) (index : Nat) (h : index ≤ t.slots) :
    Visit.Chain t.layout t.slots index (t.layout.visits (t.bytes region) t.slots index) := by
  induction index using Layout.visits.induct t.layout (t.bytes region) t.slots with
  | case1 index hlt ih =>
    have hrest := ih (t.add_span_visit_le region index hlt)
    rw [Layout.visits, if_pos hlt]
    exact .of_index _ _ (t.index_visit region index hlt) hrest
  | case2 index hge =>
    have he : index = t.slots := Nat.le_antisymm h (Nat.le_of_not_lt hge)
    rw [Layout.visits, if_neg hge, he]
    exact .nil

theorem chain_visits (t : Table) (region : Region) :
    Visit.Chain t.layout t.slots 0 (t.visits region) :=
  t.chain_visits_from region 0 (Nat.zero_le _)

theorem eq_visit_of_mem (t : Table) (region : Region) (v : Visit) (hv : v ∈ t.visits region) :
    v.index < t.slots ∧ v = t.layout.visit (t.bytes region) v.index := by
  have hfrom : ∀ index, v ∈ t.layout.visits (t.bytes region) t.slots index →
      v.index < t.slots ∧ v = t.layout.visit (t.bytes region) v.index := by
    intro index
    induction index using Layout.visits.induct t.layout (t.bytes region) t.slots with
    | case1 index hlt ih =>
      intro hv
      rw [Layout.visits, if_pos hlt] at hv
      obtain rfl | hv := List.mem_cons.mp hv
      · rw [t.index_visit region index hlt]
        exact ⟨hlt, rfl⟩
      · exact ih hv
    | case2 index hge =>
      intro hv
      rw [Layout.visits, if_neg hge] at hv
      cases hv
  exact hfrom 0 hv

theorem missing_mem_visits (t : Table) (region : Region) (index : Nat) (fault : Fault)
    (hv : .missing index fault ∈ t.visits region) :
    t.layout.readRaw (t.bytes region) (.ofNat 64 index) = .error fault := by
  obtain ⟨hlt, he⟩ := t.eq_visit_of_mem region _ hv
  change index < t.slots at hlt
  change _ = t.layout.visit (t.bytes region) index at he
  obtain ⟨other, hr, hv⟩ | ⟨raw, -, hv, -⟩ := t.visit_cases region index hlt
  · rw [hv] at he
    cases he
    exact hr
  · rw [hv] at he
    cases he

theorem found_mem_visits (t : Table) (region : Region) (index : Nat) (raw : RawEntry)
    (hv : .found index raw ∈ t.visits region) :
    t.layout.readRaw (t.bytes region) (.ofNat 64 index) = .ok raw ∧
      raw.high.isSome = t.layout.needsExtension raw.low := by
  obtain ⟨hlt, he⟩ := t.eq_visit_of_mem region _ hv
  change index < t.slots at hlt
  change _ = t.layout.visit (t.bytes region) index at he
  obtain ⟨other, -, hv⟩ | ⟨other, hr, hv, hhigh, -⟩ := t.visit_cases region index hlt
  · rw [hv] at he
    cases he
  · rw [hv] at he
    cases he
    exact ⟨hr, hhigh⟩

theorem read_of_missing (t : Table) (region : Region) (index : Nat) (fault : Fault)
    (hv : .missing index fault ∈ t.visits region) :
    t.layout.read (t.bytes region) (.ofNat 64 index) = .error fault := by
  rw [Layout.read, t.missing_mem_visits region index fault hv]
  rfl

theorem read_of_found (t : Table) (region : Region) (index : Nat) (raw : RawEntry)
    (hv : .found index raw ∈ t.visits region) :
    t.layout.read (t.bytes region) (.ofNat 64 index) = .ok (t.layout.decode raw) := by
  rw [Layout.read, (t.found_mem_visits region index raw hv).1]
  rfl

end Table

namespace Layout

theorem span_eq_one_or_two (l : Layout) (e : Entry) : l.span e = 1 ∨ l.span e = 2 := by
  unfold span
  split
  · exact .inr rfl
  · exact .inl rfl

theorem span_eq_two_iff (l : Layout) (e : Entry) :
    l.span e = 2 ↔ l = ⟨.global, .long64⟩ ∧ ∃ s, e = .system s := by
  obtain ⟨kind, mode⟩ := l
  cases e with
  | segment s => cases kind <;> cases mode <;> simp [span]
  | system s => cases kind <;> cases mode <;> simp [span]
  | reserved raw unrecognized => cases kind <;> cases mode <;> simp [span]

end Layout

inductive SlotClass
  | outOfRange
  | reserved
  | decoded
  | upperHalf
  deriving DecidableEq

def SlotClass.ofRead : Except Fault Entry → SlotClass
  | .error _ => outOfRange
  | .ok e => if e.isReserved then reserved else decoded

/-- The class that a visit to a slot, or to the one before it, gives it. -/
inductive Table.Classified (t : Table) (region : Region) : Nat → SlotClass → Prop
  | outOfRange (slot : Nat) (fault : Fault) (h : .missing slot fault ∈ t.visits region) :
      Classified t region slot .outOfRange
  | reserved (slot : Nat) (raw : RawEntry) (h : .found slot raw ∈ t.visits region)
      (hr : (t.layout.decode raw).isReserved) : Classified t region slot .reserved
  | decoded (slot : Nat) (raw : RawEntry) (h : .found slot raw ∈ t.visits region)
      (hr : (t.layout.decode raw).isReserved = false) : Classified t region slot .decoded
  | upperHalf (slot : Nat) (raw : RawEntry) (h : .found slot raw ∈ t.visits region)
      (hspan : t.layout.span (t.layout.decode raw) = 2) : Classified t region (slot + 1) .upperHalf

def Visit.slotClass (l : Layout) (slot : Nat) : Visit → SlotClass
  | missing _ _ => .outOfRange
  | found index raw => if slot = index then .ofRead (.ok (l.decode raw)) else .upperHalf

namespace Table

theorem classified_iff (t : Table) (region : Region) (slot : Nat) (c : SlotClass) :
    t.Classified region slot c ↔
      ∃ v ∈ t.visits region, v.Covers t.layout slot ∧ v.slotClass t.layout slot = c := by
  constructor
  · intro h
    cases h with
    | outOfRange _ fault h => exact ⟨_, h, Visit.covers_index _ _, rfl⟩
    | reserved _ raw h hr =>
      refine ⟨_, h, Visit.covers_index _ _, ?_⟩
      rw [Visit.slotClass, if_pos rfl, SlotClass.ofRead, hr]
      rfl
    | decoded _ raw h hr =>
      refine ⟨_, h, Visit.covers_index _ _, ?_⟩
      rw [Visit.slotClass, if_pos rfl, SlotClass.ofRead, hr]
      rfl
    | upperHalf owner raw h hspan =>
      refine ⟨_, h, ⟨Nat.le_succ owner, ?_⟩, if_neg (Nat.succ_ne_self owner)⟩
      change owner + 1 < owner + t.layout.span (t.layout.decode raw)
      omega
  · rintro ⟨v, hv, ⟨hlower, hupper⟩, rfl⟩
    cases v with
    | missing index fault =>
      change index ≤ slot at hlower
      change slot < index + 1 at hupper
      have he : slot = index := by omega
      rw [he]
      exact .outOfRange index fault hv
    | found index raw =>
      change index ≤ slot at hlower
      change slot < index + t.layout.span (t.layout.decode raw) at hupper
      rw [Visit.slotClass]
      by_cases he : slot = index
      · rw [if_pos he, he, SlotClass.ofRead]
        cases hr : (t.layout.decode raw).isReserved with
        | false => exact .decoded index raw hv hr
        | true => exact .reserved index raw hv hr
      · have hspan : t.layout.span (t.layout.decode raw) = 2 := by
          have htwo := t.layout.span_eq_one_or_two (t.layout.decode raw)
          omega
        have hs : slot = index + 1 := by omega
        rw [if_neg he, hs]
        exact .upperHalf index raw hv hspan

theorem classified_unique (t : Table) (region : Region) (slot : Nat) (h : slot < t.slots) :
    ∃ c, t.Classified region slot c ∧ ∀ d, t.Classified region slot d → d = c := by
  obtain ⟨v, ⟨hv, hcovers⟩, hunique⟩ :=
    (t.chain_visits region).existsUnique_covers slot (Nat.zero_le slot) h
  refine ⟨v.slotClass t.layout slot, (t.classified_iff region slot _).mpr ⟨v, hv, hcovers, rfl⟩,
    fun d hd => ?_⟩
  obtain ⟨u, hu, hu', rfl⟩ := (t.classified_iff region slot d).mp hd
  rw [hunique u hu hu']

theorem lt_slots_of_classified (t : Table) (region : Region) (slot : Nat) (c : SlotClass)
    (h : t.Classified region slot c) : slot < t.slots := by
  obtain ⟨v, hv, hcovers, -⟩ := (t.classified_iff region slot c).mp h
  exact Nat.lt_of_lt_of_le hcovers.2 ((t.chain_visits region).bounds v hv).2

theorem eq_of_classified (t : Table) (region : Region) (slot : Nat) (c d : SlotClass)
    (hc : t.Classified region slot c) (hd : t.Classified region slot d) : c = d := by
  obtain ⟨e, -, hunique⟩ :=
    t.classified_unique region slot (t.lt_slots_of_classified region slot c hc)
  rw [hunique c hc, hunique d hd]

theorem visit_mem_visits (t : Table) (region : Region) (slot : Nat) (hslot : slot < t.slots)
    (h : ¬ t.Classified region slot .upperHalf) :
    t.layout.visit (t.bytes region) slot ∈ t.visits region := by
  have hvisit : ∀ v ∈ t.visits region, v.index = slot →
      t.layout.visit (t.bytes region) slot ∈ t.visits region := by
    rintro v hv rfl
    rw [← (t.eq_visit_of_mem region v hv).2]
    exact hv
  obtain ⟨c, hc, -⟩ := t.classified_unique region slot hslot
  cases hc with
  | outOfRange _ fault hv => exact hvisit _ hv rfl
  | reserved _ raw hv hr => exact hvisit _ hv rfl
  | decoded _ raw hv hr => exact hvisit _ hv rfl
  | upperHalf owner raw hv hspan => exact absurd (.upperHalf owner raw hv hspan) h

theorem eq_ofRead_of_classified (t : Table) (region : Region) (slot : Nat) (c : SlotClass)
    (h : t.Classified region slot c) (hc : c ≠ .upperHalf) :
    c = .ofRead (t.layout.read (t.bytes region) (.ofNat 64 slot)) := by
  cases h with
  | outOfRange _ fault h => rw [t.read_of_missing region slot fault h, SlotClass.ofRead]
  | reserved _ raw h hr => rw [t.read_of_found region slot raw h, SlotClass.ofRead, hr, if_pos rfl]
  | decoded _ raw h hr =>
    rw [t.read_of_found region slot raw h, SlotClass.ofRead, hr, if_neg Bool.false_ne_true]
  | upperHalf owner raw h hspan => exact absurd rfl hc

/-- Only a system entry of a long mode GDT has a second slot, the one right after its first. -/
theorem owner_of_upperHalf (t : Table) (region : Region) (slot : Nat)
    (h : t.Classified region slot .upperHalf) :
    t.layout = ⟨.global, .long64⟩ ∧ ∃ owner s, slot = owner + 1 ∧
      t.Classified region owner .decoded ∧
        t.layout.read (t.bytes region) (.ofNat 64 owner) = .ok (.system s) := by
  cases h with
  | upperHalf owner raw h hspan =>
    obtain ⟨hl, s, hs⟩ := (t.layout.span_eq_two_iff _).mp hspan
    refine ⟨hl, owner, s, rfl, .decoded owner raw h (by rw [hs]; rfl), ?_⟩
    rw [t.read_of_found region owner raw h, hs]

theorem not_upperHalf_of_visited (t : Table) (region : Region) (v : Visit)
    (hv : v ∈ t.visits region) : ¬ t.Classified region v.index .upperHalf := by
  intro hupper
  cases v with
  | missing index fault =>
    cases t.eq_of_classified region index _ _ hupper (.outOfRange index fault hv)
  | found index raw =>
    cases hr : (t.layout.decode raw).isReserved with
    | false => cases t.eq_of_classified region index _ _ hupper (.decoded index raw hv hr)
    | true => cases t.eq_of_classified region index _ _ hupper (.reserved index raw hv hr)

theorem not_upperHalf_zero (t : Table) (region : Region) :
    ¬ t.Classified region 0 .upperHalf := by
  intro h
  obtain ⟨-, owner, s, hslot, -⟩ := t.owner_of_upperHalf region 0 h
  cases hslot

theorem not_upperHalf_succ (t : Table) (region : Region) (slot : Nat) (e : Entry)
    (hread : t.layout.read (t.bytes region) (.ofNat 64 slot) = .ok e) (he : ∀ s, e ≠ .system s) :
    ¬ t.Classified region (slot + 1) .upperHalf := by
  intro h
  obtain ⟨-, owner, s, hslot, -, howned⟩ := t.owner_of_upperHalf region _ h
  obtain rfl := Nat.succ.inj hslot
  exact he s (Except.ok.inj (hread.symm.trans howned))

end Table

end DescriptorTables
