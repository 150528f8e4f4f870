import DescriptorTables.Proofs.RawListing

namespace DescriptorTables

namespace Summary

def missed (s : Summary) : Summary :=
  { s with errors := s.errors + 1 }

def counted (s : Summary) (e : Entry) : Summary :=
  if e.isReserved then { s with reserved := s.reserved + 1 }
  else { s with decoded := s.decoded + 1 }

end Summary

structure Pass where
  summary : Summary
  events : List Event

namespace Pass

def missed (l : Layout) (p : Pass) (index : Nat) (fault : Fault) : Pass where
  summary := p.summary.missed
  events := p.events ++ [.message ⟨.trace, l.kind.text ++ ": " ++ fault.message⟩,
    .ofLine (Record.fault (.ofNat 64 index) fault)]

def skipped (p : Pass) (e : Entry) : Pass :=
  { p with summary := p.summary.counted e }

def listed (l : Layout) (o : Options) (p : Pass) (index : Nat) (raw : RawEntry) : Pass where
  summary := p.summary.counted (l.decode raw)
  events := p.events ++
    (Record.entry l.mode (.ofNat 64 index) (l.decode raw) ::
      (if o.raw && !(l.decode raw).isReserved then [Record.raw raw] else []) ++
        Visit.upperHalf l index raw).map .ofLine

end Pass

/-- From one slot to the next in a single loop, which counts and lists what it finds and leaves a
slot behind as soon as it is done with it. -/
def Layout.pass (l : Layout) (o : Options) (region : Region) (slots index : Nat) (p : Pass) : Pass :=
  if index < slots then
    match l.readRaw region (.ofNat 64 index) with
    | .error fault => l.pass o region slots (index + 1) (p.missed l index fault)
    | .ok raw =>
      if (l.decode raw).isUnused && o.skipUnused then
        l.pass o region slots (index + 1) (p.skipped (l.decode raw))
      else
        l.pass o region slots (index + l.span (l.decode raw)) (p.listed l o index raw)
  else p
termination_by slots - index
decreasing_by
  · omega
  · omega
  · have h := l.span_pos (l.decode raw)
    omega

def Table.pass (t : Table) (o : Options) (region : Region) : Pass :=
  t.layout.pass o (t.bytes region) t.slots 0
    { summary :=
        { slots := t.slots, decoded := 0, reserved := 0, errors := 0, malformed := t.fault?.isSome }
      events := t.heading }

namespace Summary

/-- No option has a part in what a visit counts for. -/
def after (l : Layout) (s : Summary) : Visit → Summary
  | .missing _ _ => s.missed
  | .found _ raw => s.counted (l.decode raw)

def tally (l : Layout) (s : Summary) (visits : List Visit) : Summary :=
  { s with
    decoded := s.decoded + (visits.filterMap (Visit.entry? l)).countP fun e => !e.isReserved
    reserved := s.reserved + (visits.filterMap (Visit.entry? l)).countP fun e => e.isReserved
    errors := s.errors + visits.countP fun v => v.isMissing }

theorem tally_cons (l : Layout) (s : Summary) (v : Visit) (rest : List Visit) :
    s.tally l (v :: rest) = (s.after l v).tally l rest := by
  cases v with
  | missing index fault =>
    have hentry : Visit.entry? l (.missing index fault) = none := rfl
    simp [tally, after, missed, hentry, Visit.isMissing, Nat.add_assoc, Nat.add_comm]
  | found index raw =>
    have hentry : Visit.entry? l (.found index raw) = some (l.decode raw) := rfl
    cases h : (l.decode raw).isReserved <;>
      simp [tally, after, counted, hentry, Visit.isMissing, h, Nat.add_assoc, Nat.add_comm]

end Summary

namespace Pass

def after (l : Layout) (o : Options) (p : Pass) (v : Visit) : Pass where
  summary := p.summary.after l v
  events := p.events ++ v.events l o

theorem after_missing (l : Layout) (o : Options) (p : Pass) (index : Nat) (fault : Fault) :
    p.after l o (.missing index fault) = p.missed l index fault :=
  rfl

theorem after_skipped (l : Layout) (o : Options) (p : Pass) (index : Nat) (raw : RawEntry)
    (h : (l.decode raw).isUnused && o.skipUnused) :
    p.after l o (.found index raw) = p.skipped (l.decode raw) := by
  rw [Bool.and_comm] at h
  simp [after, skipped, Summary.after, Visit.events, Visit.messages, Visit.lines, h]

theorem after_listed (l : Layout) (o : Options) (p : Pass) (index : Nat) (raw : RawEntry)
    (h : ¬ ((l.decode raw).isUnused && o.skipUnused)) :
    p.after l o (.found index raw) = p.listed l o index raw := by
  rw [Bool.and_comm] at h
  simp [after, listed, Summary.after, Visit.events, Visit.messages, Visit.lines, h]

theorem foldl_after (l : Layout) (o : Options) (p : Pass) (visits : List Visit) :
    visits.foldl (after l o) p =
      ⟨p.summary.tally l visits, p.events ++ visits.flatMap (Visit.events l o)⟩ := by
  induction visits generalizing p with
  | nil => simp [Summary.tally]
  | cons v rest ih =>
    rw [List.foldl_cons, ih, Summary.tally_cons, List.flatMap_cons, ← List.append_assoc]
    rfl

end Pass

namespace Layout

theorem pass_eq_foldl (l : Layout) (o : Options) (region : Region) (slots index : Nat) (p : Pass) :
    l.pass o region slots index p = (l.visits region slots index).foldl (Pass.after l o) p := by
  induction index, p using Layout.pass.induct l o region slots with
  | case1 index p hlt fault hr ih =>
    have hv : l.visit region index = .missing index fault := by rw [visit, hr]
    rw [pass, if_pos hlt, visits, if_pos hlt, List.foldl_cons, hv, hr, Pass.after_missing]
    exact ih
  | case2 index p hlt raw hr hskip ih =>
    have hv : l.visit region index = .found index raw := by rw [visit, hr]
    -- What is left out is reserved, so the next slot is also where a visit goes on.
    have hspan : l.span (l.decode raw) = 1 :=
      l.span_of_isReserved _ (Entry.isReserved_of_isUnused _ (Bool.and_eq_true_iff.mp hskip).1)
    rw [pass, if_pos hlt, visits, if_pos hlt, List.foldl_cons, hv, hr,
      Pass.after_skipped l o p index raw hskip, Visit.span, hspan]
    simp only [hskip, if_true]
    exact ih
  | case3 index p hlt raw hr hskip ih =>
    have hv : l.visit region index = .found index raw := by rw [visit, hr]
    rw [pass, if_pos hlt, visits, if_pos hlt, List.foldl_cons, hv, hr,
      Pass.after_listed l o p index raw hskip, Visit.span]
    simp only [hskip, if_false, Bool.false_eq_true]
    exact ih
  | case4 index p hge =>
    rw [pass, if_neg hge, visits, if_neg hge, List.foldl_nil]

end Layout

/-- The loop counts the same whatever it lists, and lists what the visits to the slots do. -/
theorem Table.pass_eq (t : Table) (o : Options) (region : Region) :
    t.pass o region = ⟨t.summary region, t.listing o region⟩ := by
  rw [pass, Layout.pass_eq_foldl, Pass.foldl_after]
  simp [Summary.tally, summary, listing, visits]

end DescriptorTables
