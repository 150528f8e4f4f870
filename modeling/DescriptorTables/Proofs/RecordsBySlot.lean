import DescriptorTables.Proofs.RawListing

namespace DescriptorTables

namespace Visit

instance (l : Layout) (v : Visit) (slot : Nat) : Decidable (v.Covers l slot) :=
  inferInstanceAs (Decidable (_ ∧ _))

def linesAt (l : Layout) (o : Options) (slot : Nat) : Visit → List Line
  | missing index fault => [Record.fault (.ofNat 64 index) fault]
  | found index raw =>
    if slot = index then
      if o.skipUnused && (l.decode raw).isUnused then []
      else
        Record.entry l.mode (.ofNat 64 index) (l.decode raw) ::
          if o.raw && !(l.decode raw).isReserved then [Record.raw raw] else []
    else upperHalf l index raw

theorem lines_eq_flatMap_linesAt (l : Layout) (o : Options) (v : Visit)
    (h : ∀ index raw, v = .found index raw → raw.high.isSome = l.needsExtension raw.low) :
    v.lines l o = (List.range' v.index (v.span l)).flatMap fun slot => v.linesAt l o slot := by
  cases v with
  | missing index fault => rfl
  | found index raw =>
    have hown : (found index raw).lines l o =
        (found index raw).linesAt l o index ++ upperHalf l index raw := by
      rw [lines, linesAt, if_pos rfl]
      split
      · rename_i hskip
        have hunused := (Bool.and_eq_true_iff.mp hskip).2
        have hspan := l.span_of_isReserved _ (Entry.isReserved_of_isUnused _ hunused)
        rw [upperHalf, hspan]
        rfl
      · rfl
    rw [hown]
    obtain ⟨hone, hlines⟩ | ⟨htwo, high, -, hlines⟩ := upperHalf_cases l index raw (h index raw rfl)
    · rw [Visit.span, hone, hlines]
      simp [Visit.index]
    · have hnext : (found index raw).linesAt l o (index + 1) = upperHalf l index raw :=
        if_neg (Nat.succ_ne_self index)
      rw [Visit.span, htwo]
      simp [Visit.index, List.range'_succ, hnext]

theorem Chain.find?_eq_some_iff {l : Layout} {stop start : Nat} {visits : List Visit}
    (h : Chain l stop start visits) (slot : Nat) (v : Visit) :
    visits.find? (fun u => u.Covers l slot) = some v ↔ v ∈ visits ∧ v.Covers l slot := by
  constructor
  · intro hfind
    have hcovers : v.Covers l slot := by simpa using List.find?_some hfind
    exact ⟨List.mem_of_find?_eq_some hfind, hcovers⟩
  · rintro ⟨hv, hcovers⟩
    obtain ⟨hlower, hupper⟩ := h.bounds v hv
    obtain ⟨w, -, hunique⟩ := h.existsUnique_covers slot (Nat.le_trans hlower hcovers.1)
      (Nat.lt_of_lt_of_le hcovers.2 hupper)
    have hfound : (visits.find? fun u => u.Covers l slot).isSome :=
      List.find?_isSome.mpr ⟨v, hv, decide_eq_true hcovers⟩
    obtain ⟨u, hu⟩ := Option.isSome_iff_exists.mp hfound
    have hcovered : u.Covers l slot := by simpa using List.find?_some hu
    rw [hu, hunique u (List.mem_of_find?_eq_some hu) hcovered, hunique v hv hcovers]

/-- What is made of the visits one after the other is made of the slots one after the other. -/
theorem Chain.flatMap_eq {α : Type} {l : Layout} {stop start : Nat} {visits : List Visit}
    (h : Chain l stop start visits) (f : Visit → List α) (g : Nat → Visit → List α)
    (hfg : ∀ v ∈ visits, f v = (List.range' v.index (v.span l)).flatMap fun slot => g slot v) :
    visits.flatMap f = (List.range' start (stop - start)).flatMap fun slot =>
      (visits.find? fun v => v.Covers l slot).elim [] (g slot) := by
  induction h with
  | nil => simp
  | cons v rest hrest ih =>
    have hstop := hrest.start_le
    have hsplit : stop - v.index = v.span l + (stop - (v.index + v.span l)) := by omega
    have hfirst : ∀ slot ∈ List.range' v.index (v.span l),
        ((v :: rest).find? fun u => u.Covers l slot).elim [] (g slot) = g slot v := by
      intro slot hslot
      have hcovers : v.Covers l slot := List.mem_range'_1.mp hslot
      simp only [List.find?_cons, hcovers, decide_true, Option.elim_some]
    have hothers : ∀ slot ∈ List.range' (v.index + v.span l) (stop - (v.index + v.span l)),
        ((v :: rest).find? fun u => u.Covers l slot).elim [] (g slot) =
          (rest.find? fun u => u.Covers l slot).elim [] (g slot) := by
      intro slot hslot
      have hbehind : ¬ v.Covers l slot := fun hcovers =>
        Nat.not_le.mpr hcovers.2 (List.mem_range'_1.mp hslot).1
      simp only [List.find?_cons, hbehind, decide_false]
    rw [List.flatMap_cons, hfg v List.mem_cons_self, hsplit, ← List.range'_append_1,
      List.flatMap_append, List.flatMap_congr hfirst, List.flatMap_congr hothers,
      ih fun u hu => hfg u (List.mem_cons_of_mem v hu)]

end Visit

namespace Table

def visitAt? (t : Table) (region : Region) (slot : Nat) : Option Visit :=
  (t.visits region).find? fun v => v.Covers t.layout slot

def recordsAt (t : Table) (o : Options) (region : Region) (slot : Nat) : List String :=
  (t.visitAt? region slot).elim [] fun v => (v.linesAt t.layout o slot).map Record.text

theorem visitAt?_eq_some_iff (t : Table) (region : Region) (slot : Nat) (v : Visit) :
    t.visitAt? region slot = some v ↔ v ∈ t.visits region ∧ v.Covers t.layout slot :=
  (t.chain_visits region).find?_eq_some_iff slot v

/-- A listing goes from slot to slot, and nothing in it stands apart from them but the heading. -/
theorem records_eq_flatMap_recordsAt (t : Table) (o : Options) (region : Region) :
    t.records o region = t.heading.filterMap Event.record? ++
      (List.range t.slots).flatMap (t.recordsAt o region) := by
  have hvisits := (t.chain_visits region).flatMap_eq (Visit.records t.layout o)
    (fun slot v => (v.linesAt t.layout o slot).map Record.text) (fun v hv => by
      rw [Visit.records, Visit.lines_eq_flatMap_linesAt t.layout o v, List.map_flatMap]
      rintro index raw rfl
      exact (t.found_mem_visits region index raw hv).2)
  rw [Nat.sub_zero, ← List.range_eq_range'] at hvisits
  rw [records_eq_append, hvisits]
  rfl

theorem recordsAt_of_missing (t : Table) (o : Options) (region : Region) (slot : Nat)
    (fault : Fault) (h : .missing slot fault ∈ t.visits region) :
    t.recordsAt o region slot = [Record.text (Record.fault (.ofNat 64 slot) fault)] := by
  have hcovers : (Visit.missing slot fault).Covers t.layout slot := Visit.covers_index _ _
  rw [recordsAt, (t.visitAt?_eq_some_iff region slot _).mpr ⟨h, hcovers⟩]
  rfl

theorem recordsAt_of_found (t : Table) (o : Options) (region : Region) (slot : Nat)
    (raw : RawEntry) (h : .found slot raw ∈ t.visits region) :
    t.recordsAt o region slot =
      if o.skipUnused && (t.layout.decode raw).isUnused then []
      else
        Record.text (Record.entry t.layout.mode (.ofNat 64 slot) (t.layout.decode raw)) ::
          if o.raw && !(t.layout.decode raw).isReserved then [Record.text (Record.raw raw)]
          else [] := by
  have hcovers : (Visit.found slot raw).Covers t.layout slot := Visit.covers_index _ _
  rw [recordsAt, (t.visitAt?_eq_some_iff region slot _).mpr ⟨h, hcovers⟩, Option.elim_some,
    Visit.linesAt, if_pos rfl]
  split
  · rfl
  · split <;> rfl

theorem recordsAt_of_upperHalf (t : Table) (region : Region) (slot : Nat)
    (h : t.Classified region slot .upperHalf) :
    ∃ owner raw high, slot = owner + 1 ∧
      t.layout.readRaw (t.bytes region) (.ofNat 64 owner) = .ok raw ∧ raw.high = some high ∧
        ∀ o, t.recordsAt o region slot =
          [Record.text (Record.upperHalf (.ofNat 64 slot) (.ofNat 64 owner) high)] := by
  cases h with
  | upperHalf owner raw h hspan =>
    obtain ⟨hread, hhigh⟩ := t.found_mem_visits region owner raw h
    obtain ⟨hone, -⟩ | ⟨-, high, hsome, hlines⟩ := Visit.upperHalf_cases t.layout owner raw hhigh
    · omega
    have hcovers : (Visit.found owner raw).Covers t.layout (owner + 1) := by
      refine ⟨Nat.le_succ owner, ?_⟩
      change owner + 1 < owner + t.layout.span (t.layout.decode raw)
      omega
    refine ⟨owner, raw, high, rfl, hread, hsome, fun o => ?_⟩
    rw [recordsAt, (t.visitAt?_eq_some_iff region _ _).mpr ⟨h, hcovers⟩, Option.elim_some,
      Visit.linesAt, if_neg (Nat.succ_ne_self owner), hlines]
    rfl

end Table

end DescriptorTables
