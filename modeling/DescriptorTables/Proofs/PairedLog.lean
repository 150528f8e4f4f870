import DescriptorTables.Output
import DescriptorTables.Proofs.ShortRegions
import DescriptorTables.Proofs.SinglePass

namespace DescriptorTables

/-- Where the remarks and the records of a listing go as they come up, one after the other. -/
structure Destination (σ : Type) where
  remark : σ → Message → σ
  emit : σ → String → σ

namespace Destination

variable {σ : Type}

def take (d : Destination σ) (s : σ) : Event → σ
  | .message m => d.remark s m
  | .record text => d.emit s text

def list : Destination (List String) where
  remark records _ := records
  emit records text := records ++ [text]

def remarks : Destination (List Message) where
  remark messages m := messages ++ [m]
  emit messages _ := messages

/-- A log with a maximum, which records reach at a level of their own. -/
def log (level : Level) (maximum : Option Level) : Destination (List Message) where
  remark messages m := messages ++ Message.upTo maximum [m]
  emit messages text := messages ++ Message.upTo maximum [⟨level, text⟩]

def headed (d : Destination σ) (t : Table) (s : σ) : σ :=
  let started := d.remark s t.startMessage
  let described := d.emit started
    (Record.text (Record.header t.layout t.register (.ofNat 64 t.slots)))
  match t.fault? with
  | some f => d.emit (d.remark described (t.faultMessage f)) (Record.text (Record.warning f))
  | none => described

def upperHalf (d : Destination σ) (l : Layout) (index : Nat) (raw : RawEntry) (s : σ) : σ :=
  match l.span (l.decode raw), raw.high with
  | 2, some high =>
    d.emit s (Record.text (Record.upperHalf (.ofNat 64 (index + 1)) (.ofNat 64 index) high))
  | _, _ => s

def listed (d : Destination σ) (l : Layout) (o : Options) (index : Nat) (raw : RawEntry)
    (s : σ) : σ :=
  let e := l.decode raw
  let entered := d.emit s (Record.text (Record.entry l.mode (.ofNat 64 index) e))
  let followed :=
    if o.raw && !e.isReserved then d.emit entered (Record.text (Record.raw raw)) else entered
  d.upperHalf l index raw followed

end Destination

/-- The loop over the slots of a table with a destination for what it has to say. -/
def Layout.deliver {σ : Type} (l : Layout) (o : Options) (d : Destination σ) (region : Region)
    (slots index : Nat) (summary : Summary) (s : σ) : Summary × σ :=
  if index < slots then
    match l.readRaw region (.ofNat 64 index) with
    | .error fault =>
      let remarked := d.remark s ⟨.trace, l.kind.text ++ ": " ++ fault.message⟩
      let emitted := d.emit remarked (Record.text (Record.fault (.ofNat 64 index) fault))
      l.deliver o d region slots (index + 1) summary.missed emitted
    | .ok raw =>
      if (l.decode raw).isUnused && o.skipUnused then
        l.deliver o d region slots (index + 1) (summary.counted (l.decode raw)) s
      else
        l.deliver o d region slots (index + l.span (l.decode raw)) (summary.counted (l.decode raw))
          (d.listed l o index raw s)
  else (summary, s)
termination_by slots - index
decreasing_by
  · omega
  · omega
  · have h := l.span_pos (l.decode raw)
    omega

def Table.deliver {σ : Type} (t : Table) (o : Options) (d : Destination σ) (region : Region)
    (s : σ) : Summary × σ :=
  t.layout.deliver o d (t.bytes region) t.slots 0
    { slots := t.slots, decoded := 0, reserved := 0, errors := 0, malformed := t.fault?.isSome }
    (d.headed t s)

section Delivery

variable {σ : Type} (d : Destination σ) (o : Options) (region : Region)

namespace Destination

theorem foldl_upperHalf (l : Layout) (index : Nat) (raw : RawEntry) (s : σ) :
    ((Visit.upperHalf l index raw).map .ofLine).foldl d.take s = d.upperHalf l index raw s := by
  rw [Visit.upperHalf, upperHalf]
  obtain hone | htwo := l.span_eq_one_or_two (l.decode raw)
  · rw [hone]
    rfl
  · rw [htwo]
    cases raw.high <;> rfl

theorem foldl_listed (l : Layout) (p : Pass) (index : Nat) (raw : RawEntry) (s : σ) :
    (p.listed l o index raw).events.foldl d.take s =
      d.listed l o index raw (p.events.foldl d.take s) := by
  rw [Pass.listed, List.foldl_append, List.map_append, List.foldl_append, foldl_upperHalf, listed]
  apply congrArg
  split <;> rfl

theorem foldl_heading (t : Table) (s : σ) : t.heading.foldl d.take s = d.headed t s := by
  rw [Table.heading, headed]
  cases t.fault? <;> rfl

end Destination

/-- The destination has taken, at each turn of the loop, what the pass has listed so far. -/
theorem Layout.deliver_eq_pass (l : Layout) (slots index : Nat) (p : Pass) (s : σ) :
    l.deliver o d region slots index p.summary (p.events.foldl d.take s) =
      ((l.pass o region slots index p).summary,
        (l.pass o region slots index p).events.foldl d.take s) := by
  induction index, p using Layout.pass.induct l o region slots with
  | case1 index p hlt fault hr ih =>
    rw [pass, deliver, if_pos hlt, if_pos hlt, hr]
    rw [Pass.missed, List.foldl_append] at ih
    exact ih
  | case2 index p hlt raw hr hskip ih =>
    rw [pass, deliver, if_pos hlt, if_pos hlt, hr]
    simp only [hskip, if_true]
    exact ih
  | case3 index p hlt raw hr hskip ih =>
    rw [pass, deliver, if_pos hlt, if_pos hlt, hr]
    simp only [hskip, if_false, Bool.false_eq_true]
    rw [← d.foldl_listed o l p index raw s]
    exact ih
  | case4 index p hge =>
    rw [pass, deliver, if_neg hge, if_neg hge]

theorem Table.deliver_eq (t : Table) (s : σ) :
    t.deliver o d region s = (t.summary region, (t.listing o region).foldl d.take s) := by
  have hpass : t.deliver o d region s =
      ((t.pass o region).summary, (t.pass o region).events.foldl d.take s) := by
    rw [pass, ← Layout.deliver_eq_pass, d.foldl_heading t s, deliver]
  rw [hpass, t.pass_eq o region]

end Delivery

namespace Destination

theorem foldl_take_eq_append {α : Type} (d : Destination (List α)) (added : Event → List α)
    (h : ∀ s e, d.take s e = s ++ added e) (s : List α) (events : List Event) :
    events.foldl d.take s = s ++ events.flatMap added := by
  induction events generalizing s with
  | nil => exact (List.append_nil s).symm
  | cons e rest ih =>
    rw [List.foldl_cons, ih, h, List.append_assoc]
    rfl

theorem foldl_list (s : List String) (events : List Event) :
    events.foldl list.take s = s ++ events.filterMap Event.record? := by
  rw [List.filterMap_eq_flatMap_toList]
  apply foldl_take_eq_append
  intro s e
  cases e with
  | message m => exact (List.append_nil s).symm
  | record text => rfl

theorem foldl_remarks (s : List Message) (events : List Event) :
    events.foldl remarks.take s = s ++ events.filterMap Event.message? := by
  rw [List.filterMap_eq_flatMap_toList]
  apply foldl_take_eq_append
  intro s e
  cases e with
  | message m => rfl
  | record text => exact (List.append_nil s).symm

theorem foldl_log (level : Level) (maximum : Option Level) (s : List Message)
    (events : List Event) :
    events.foldl (log level maximum).take s =
      s ++ Message.upTo maximum (Output.log level events) := by
  have hkept : Message.upTo maximum (Output.log level events) =
      events.flatMap fun e => Message.upTo maximum (Output.log level [e]) := by
    induction events with
    | nil => rfl
    | cons e rest ih =>
      rw [List.flatMap_cons, ← ih]
      exact List.filter_append (Output.log level [e]) (Output.log level rest)
  rw [hkept]
  apply foldl_take_eq_append
  intro s e
  cases e <;> rfl

end Destination

theorem Message.upTo_trace (messages : List Message) :
    Message.upTo (some .trace) messages = messages := by
  apply List.filter_eq_self.mpr
  intro m _
  obtain ⟨level, text⟩ := m
  cases level <;> rfl

namespace Record

theorem exists_text_fault_append (n : Size) (f : Fault) (hn : n.toNat < 10 ^ 4) :
    ∃ lead : String, text (fault n f) = lead ++ f.message ∧ lead.utf8ByteSize = 24 := by
  refine ⟨indexWord n ++ (" " ++ (padded 16 "<out-of-range>" ++ " ")), ?_, ?_⟩
  · rw [text_of_fits _ (fits_fault n f), fault, text_phrase]
    simp only [String.join_cons, String.join_nil, String.append_empty, String.append_assoc]
  · have hdigits := Numeral.utf8ByteSize_decimal 4 n.toNat (by decide) hn
    have hindex := utf8ByteSize_indexWord n
    have hlabel : (" " ++ (padded 16 "<out-of-range>" ++ " ")).utf8ByteSize = 18 := by decide
    rw [String.utf8ByteSize_append, hlabel, hindex, hdigits]

end Record

/-- A listing of slots in which a record that is out of range comes right after a remark with the
text that it ends in, and no other record has a remark before it. -/
inductive Event.Paired (l : Layout) : List Event → Prop
  | nil : Paired l []
  | plain (record : String) (rest : List Event) (h : Record.isOutOfRange record = false)
      (hrest : Paired l rest) : Paired l (.record record :: rest)
  | outOfRange (lead text : String) (rest : List Event) (hlead : lead.utf8ByteSize = 24)
      (h : Record.isOutOfRange (lead ++ text)) (hrest : Paired l rest) :
      Paired l (.message ⟨.trace, l.kind.text ++ ": " ++ text⟩ :: .record (lead ++ text) :: rest)

namespace Event.Paired

variable {l : Layout}

theorem append {first second : List Event} (hfirst : Paired l first) (hsecond : Paired l second) :
    Paired l (first ++ second) := by
  induction hfirst with
  | nil => exact hsecond
  | plain record rest h hrest ih => exact .plain record _ h ih
  | outOfRange lead text rest hlead h hrest ih => exact .outOfRange lead text _ hlead h ih

theorem flatMap {α : Type} (steps : List α) (events : α → List Event)
    (h : ∀ step ∈ steps, Paired l (events step)) : Paired l (steps.flatMap events) := by
  induction steps with
  | nil => exact .nil
  | cons step rest ih =>
    obtain ⟨hstep, hrest⟩ := List.forall_mem_cons.mp h
    exact hstep.append (ih hrest)

theorem of_plain (records : List String)
    (h : ∀ record ∈ records, Record.isOutOfRange record = false) :
    Paired l (records.map .record) := by
  induction records with
  | nil => exact .nil
  | cons record rest ih =>
    obtain ⟨hrecord, hrest⟩ := List.forall_mem_cons.mp h
    exact .plain record _ hrecord (ih hrest)

end Event.Paired

namespace Visit

theorem filterMap_message?_events (l : Layout) (o : Options) (v : Visit) :
    (v.events l o).filterMap Event.message? = v.messages l := by
  have hmessages : Event.message? ∘ Event.message = some := rfl
  have hlines : Event.message? ∘ Event.ofLine = fun _ => none := rfl
  rw [events, List.filterMap_append, List.filterMap_map, List.filterMap_map, hmessages, hlines,
    List.filterMap_some]
  simp

end Visit

namespace Table

def slotEvents (t : Table) (o : Options) (region : Region) : List Event :=
  (t.visits region).flatMap (Visit.events t.layout o)

theorem paired_events (t : Table) (o : Options) (region : Region) (v : Visit)
    (hv : v ∈ t.visits region) : Event.Paired t.layout (v.events t.layout o) := by
  have hrecords := t.isOutOfRange_of_mem_records o region v hv
  cases v with
  | missing index fault =>
    have hlt := (t.toNat_slot index (t.eq_visit_of_mem region _ hv).1).2
    obtain ⟨lead, htext, hlead⟩ := Record.exists_text_fault_append (.ofNat 64 index) fault hlt
    have hevents : (Visit.missing index fault).events t.layout o =
        [.message ⟨.trace, t.layout.kind.text ++ ": " ++ fault.message⟩,
          .record (lead ++ fault.message)] := by
      rw [← htext]
      rfl
    have hout := hrecords _ (List.mem_singleton_self _)
    rw [htext] at hout
    rw [hevents]
    exact .outOfRange lead fault.message [] hlead hout .nil
  | found index raw =>
    have hevents : (Visit.found index raw).events t.layout o =
        ((Visit.found index raw).records t.layout o).map .record := by
      rw [Visit.records, List.map_map]
      rfl
    rw [hevents]
    exact .of_plain _ hrecords

theorem records_slotEvents (t : Table) (o : Options) (region : Region) :
    (t.slotEvents o region).filterMap Event.record? =
      (t.visits region).flatMap (Visit.records t.layout o) := by
  rw [slotEvents, List.filterMap_flatMap]
  simp only [Visit.filterMap_record?_events]

theorem messages_slotEvents (t : Table) (o : Options) (region : Region) :
    (t.slotEvents o region).filterMap Event.message? =
      (t.visits region).flatMap (Visit.messages t.layout) := by
  rw [slotEvents, List.filterMap_flatMap]
  simp only [Visit.filterMap_message?_events]

theorem records_eq_slotEvents (t : Table) (o : Options) (region : Region) :
    t.records o region =
      Record.text (Record.header t.layout t.register (.ofNat 64 t.slots)) ::
        (t.fault?.map fun f => Record.text (Record.warning f)).toList ++
          (t.slotEvents o region).filterMap Event.record? := by
  rw [records_eq, records_slotEvents]

theorem messages_eq (t : Table) (o : Options) (region : Region) :
    t.messages o region =
      t.startMessage :: (t.fault?.map t.faultMessage).toList ++
        (t.slotEvents o region).filterMap Event.message? := by
  rw [messages, listing, List.filterMap_append, heading, slotEvents]
  cases t.fault? <;> rfl

theorem log_listing (t : Table) (o : Options) (level : Level) (region : Region) :
    Output.log level (t.listing o region) =
      t.startMessage ::
        ⟨level, Record.text (Record.header t.layout t.register (.ofNat 64 t.slots))⟩ ::
          (t.fault?.elim [] fun f => [t.faultMessage f, ⟨level, Record.text (Record.warning f)⟩]) ++
            Output.log level (t.slotEvents o region) := by
  rw [listing, Output.log, List.map_append, heading]
  cases t.fault? <;> rfl

theorem countP_trace_messages (t : Table) (o : Options) (region : Region) :
    (t.messages o region).countP (fun m => m.level = .trace) = (t.summary region).errors := by
  have hheading : (t.startMessage :: (t.fault?.map t.faultMessage).toList).countP
      (fun m => m.level = .trace) = 0 := by
    cases t.fault? <;> rfl
  have hvisits : ∀ visits : List Visit,
      (visits.flatMap (Visit.messages t.layout)).countP (fun m => m.level = .trace) =
        visits.countP fun v => v.isMissing := by
    intro visits
    induction visits with
    | nil => rfl
    | cons v rest ih =>
      rw [List.flatMap_cons, List.countP_append, ih, List.countP_cons, Nat.add_comm]
      cases v <;> rfl
  rw [messages_eq, List.countP_append, hheading, messages_slotEvents, hvisits, Nat.zero_add]
  rfl

theorem deliver_list (t : Table) (o : Options) (region : Region) :
    t.deliver o .list region [] = (t.summary region, t.records o region) := by
  rw [deliver_eq, Destination.foldl_list, List.nil_append, records]

theorem deliver_remarks (t : Table) (o : Options) (region : Region) :
    t.deliver o .remarks region [] = (t.summary region, t.messages o region) := by
  rw [deliver_eq, Destination.foldl_remarks, List.nil_append, messages]

theorem deliver_log (t : Table) (o : Options) (level : Level) (maximum : Option Level)
    (region : Region) :
    t.deliver o (.log level maximum) region [] =
      (t.summary region, Message.upTo maximum (Output.log level (t.listing o region))) := by
  rw [deliver_eq, Destination.foldl_log, List.nil_append]

/-- A log has a listing in its order: the start, the header, a warning twice over where a part of a
slot is left over, and the records about the slots with a remark right before each that is out of
range. A maximum keeps what is more verbose out of it and has no part in the summary. -/
theorem log_paired (t : Table) (o : Options) (region : Region) :
    t.deliver o .list region [] = (t.summary region, t.records o region) ∧
    t.deliver o .remarks region [] = (t.summary region, t.messages o region) ∧
    (∀ level, t.deliver o (.log level (some .trace)) region [] =
      (t.summary region, Output.log level (t.listing o region))) ∧
    (∀ level maximum, t.deliver o (.log level maximum) region [] =
      (t.summary region, (Output.log level (t.listing o region)).filter fun m =>
        maximum.any fun most => m.level.rank ≤ most.rank)) ∧
    t.records o region =
      Record.text (Record.header t.layout t.register (.ofNat 64 t.slots)) ::
        (t.fault?.map fun f => Record.text (Record.warning f)).toList ++
          (t.slotEvents o region).filterMap Event.record? ∧
    t.messages o region =
      t.startMessage :: (t.fault?.map t.faultMessage).toList ++
        (t.slotEvents o region).filterMap Event.message? ∧
    (∀ level, Output.log level (t.listing o region) =
      t.startMessage ::
        ⟨level, Record.text (Record.header t.layout t.register (.ofNat 64 t.slots))⟩ ::
          (t.fault?.elim [] fun f => [t.faultMessage f, ⟨level, Record.text (Record.warning f)⟩]) ++
            Output.log level (t.slotEvents o region)) ∧
    t.startMessage.level = .debug ∧ (∀ f, (t.faultMessage f).level = .warn) ∧
    (t.fault?.isSome ↔ ¬ t.layout.slotSize ∣ t.register.limit.toNat + 1) ∧
    (t.summary region).malformed = t.fault?.isSome ∧
    Event.Paired t.layout (t.slotEvents o region) ∧
    (t.slotEvents o region).filterMap Event.record? =
      (t.visits region).flatMap (Visit.records t.layout o) ∧
    (∀ v ∈ t.visits region, ∀ record ∈ v.records t.layout o,
      Record.isOutOfRange record = v.isMissing) ∧
    (t.messages o region).countP (fun m => m.level = .trace) = (t.summary region).errors := by
  refine ⟨t.deliver_list o region, t.deliver_remarks o region, ?_, ?_,
    t.records_eq_slotEvents o region, t.messages_eq o region,
    fun level => t.log_listing o level region, rfl, fun _ => rfl, t.isSome_fault?_iff, rfl, ?_,
    t.records_slotEvents o region, t.isOutOfRange_of_mem_records o region,
    t.countP_trace_messages o region⟩
  · intro level
    rw [deliver_log, Message.upTo_trace]
  · intro level maximum
    exact t.deliver_log o level maximum region
  · exact .flatMap _ _ (t.paired_events o region)

end Table

end DescriptorTables
