import Mathlib.Data.List.Nodup
import DescriptorTables.Proofs.SlotRecords
import DescriptorTables.Proofs.Words

namespace DescriptorTables

namespace SystemKind

def all : List SystemKind :=
  [ldt, tss .bits16 false, tss .bits16 true, tss .bits32 false, tss .bits32 true,
    tss .bits64 false, tss .bits64 true, taskGate, callGate .bits16, callGate .bits32,
    callGate .bits64, interruptGate .bits16, interruptGate .bits32, interruptGate .bits64,
    trapGate .bits16, trapGate .bits32, trapGate .bits64]

theorem mem_all (kind : SystemKind) : kind ∈ all := by
  cases kind with
  | ldt | taskGate => decide
  | tss width busy => cases width <;> cases busy <;> decide
  | callGate width | interruptGate width | trapGate width => cases width <;> decide

theorem nodup_labels : (all.map label).Nodup := by
  decide

theorem label_inj (kind other : SystemKind) (h : kind.label = other.label) : kind = other :=
  List.inj_on_of_nodup_map nodup_labels (mem_all kind) (mem_all other) h

theorem isWord_labels : ∀ kind ∈ all, IsWord kind.label ∧ kind.label.utf8ByteSize ≤ 16 := by
  decide

end SystemKind

namespace SegmentKind

def label : SegmentKind → String
  | code => "code-segment"
  | data => "data-segment"

theorem label_inj (kind other : SegmentKind) (h : kind.label = other.label) : kind = other := by
  cases kind with
  | code =>
    cases other with
    | code => rfl
    | data => exact absurd h (by decide)
  | data =>
    cases other with
    | code => exact absurd h (by decide)
    | data => rfl

theorem isWord_label (kind : SegmentKind) : IsWord kind.label ∧ kind.label.utf8ByteSize ≤ 16 := by
  cases kind <;> decide

end SegmentKind

/-- The columns and the flags in the record of an entry that has a meaning. -/
def Entry.columns? : Entry → Option (Columns × Phrase)
  | .segment s => some (s.columns, Record.segmentFlags s)
  | .system s => some (s.columns, Record.systemFlags s)
  | .reserved _ _ => none

structure Columns.WellFormed (c : Columns) : Prop where
  label : IsWord c.label ∧ c.label.utf8ByteSize ≤ 16
  keyword : c.keyword = "base" ∨ c.keyword = "offs"

theorem Columns.WellFormed.visible_keyword {c : Columns} (h : c.WellFormed) :
    Visible c.keyword := by
  obtain he | he := h.keyword <;> rw [he] <;> decide

theorem SegmentEntry.wellFormed_columns (s : SegmentEntry) : s.columns.WellFormed :=
  ⟨s.kind.isWord_label, .inl rfl⟩

theorem SystemEntry.wellFormed_columns (s : SystemEntry) : s.columns.WellFormed := by
  refine ⟨SystemKind.isWord_labels s.kind (SystemKind.mem_all s.kind), ?_⟩
  rw [columns]
  cases s.kind.isSegment with
  | true => exact .inl rfl
  | false => exact .inr rfl

theorem Columns.WellFormed.utf8ByteSize_padded_label {c : Columns} (h : c.WellFormed) :
    (Record.padded 16 c.label).utf8ByteSize = 16 :=
  Record.utf8ByteSize_padded 16 c.label h.label.1.1.printable h.label.2

theorem Entry.wellFormed_columns (e : Entry) (c : Columns) (flags : Phrase)
    (h : e.columns? = some (c, flags)) : c.WellFormed := by
  cases e with
  | segment s =>
    cases h
    exact s.wellFormed_columns
  | system s =>
    cases h
    exact s.wellFormed_columns
  | reserved raw unrecognized => cases h

theorem Entry.isWord_label (e : Entry) : IsWord e.label ∧ e.label.utf8ByteSize ≤ 16 := by
  cases e with
  | segment s => exact s.wellFormed_columns.label
  | system s => exact s.wellFormed_columns.label
  | reserved raw unrecognized =>
    rw [label]
    cases unrecognized <;> decide

theorem Entry.printable_padded_label (e : Entry) : Printable (Record.padded 16 e.label) :=
  Record.printable_padded 16 e.label e.isWord_label.1.1.printable

theorem Entry.utf8ByteSize_padded_label (e : Entry) :
    (Record.padded 16 e.label).utf8ByteSize = 16 :=
  Record.utf8ByteSize_padded 16 e.label e.isWord_label.1.1.printable e.isWord_label.2

def Mode.hexWidth : Mode → Nat
  | protected32 => 8
  | long64 => 16

namespace Record

def named (name value : String) : String :=
  name ++ "=" ++ value

/-- A number, or as many dashes as there would be characters. -/
def hexOrDashes (width : Nat) : Option Nat → String
  | some n => Numeral.upperHex width n
  | none => String.ofList (List.replicate (width + 2) '-')

def presence (isPresent : Bool) : String :=
  if isPresent then "present" else "not-present"

def indexWord (n : Size) : String :=
  "[" ++ Numeral.decimal 4 n.toNat ++ "]"

theorem isWord_named (name value : String) (hname : Visible name) (hvalue : Visible value) :
    IsWord (named name value) := by
  refine ⟨(hname.append (by decide)).append hvalue, fun h => ?_⟩
  have hchars := congrArg String.toList h
  simp [named] at hchars

theorem visible_hexOrDashes (width : Nat) (value : Option Nat) :
    Visible (hexOrDashes width value) := by
  cases value with
  | none => exact Between.replicate _ '-' (by decide)
  | some n => exact Visible.upperHex width n

theorem visible_digit (on : Bool) : Visible (digit on) := by
  cases on <;> decide

theorem isWord_presence (isPresent : Bool) : IsWord (presence isPresent) := by
  cases isPresent <;> decide

theorem isWord_indexWord (n : Size) : IsWord (indexWord n) := by
  have hbracket : Visible "[" := by decide
  refine ⟨(hbracket.append (Visible.decimal 4 _)).append (by decide), fun h => ?_⟩
  have hchars := congrArg String.toList h
  simp [indexWord] at hchars

theorem join_index (n : Size) : String.join (index n) = indexWord n ++ " " := by
  have hend : "] " = "]" ++ " " := rfl
  simp only [index, indexWord, String.join_cons, String.join_nil, String.append_empty, hend,
    String.append_assoc]

theorem join_address (mode : Mode) (name : String) (value : Option Quadword) :
    String.join (address mode name value) =
      named name (hexOrDashes mode.hexWidth (value.map BitVec.toNat)) := by
  cases mode <;> cases value <;>
    simp only [address, named, hexOrDashes, String.join_cons, String.join_nil, String.append_empty,
      String.append_assoc] <;> rfl

theorem join_limit (value : Option (BitVec 32)) :
    String.join (limit value) = " limit=" ++ hexOrDashes 8 (value.map BitVec.toNat) := by
  cases value <;> rfl

theorem join_selector (value : Option (BitVec 16)) :
    String.join (selector value) = " sel=" ++ hexOrDashes 4 (value.map BitVec.toNat) := by
  cases value <;> rfl

def cells (mode : Mode) (c : Columns) : List String :=
  [padded 16 c.label ++ " ",
    named c.keyword (hexOrDashes mode.hexWidth (c.address.map BitVec.toNat)),
    " limit=" ++ hexOrDashes 8 (c.limit.map BitVec.toNat),
    " sel=" ++ hexOrDashes 4 (c.selector.map BitVec.toNat),
    " type=" ++ Numeral.upperHex 1 c.type,
    " s=" ++ digit (!c.isSystem),
    " dpl=" ++ Numeral.decimal 1 c.ring.toNat,
    " ", padded 11 (presence c.isPresent), " "]

theorem text_columns (mode : Mode) (c : Columns) :
    (columns mode c).text = String.join (cells mode c) := by
  simp only [columns, cells, presence, Line.text, List.flatten_cons, List.flatten_nil,
    List.append_nil, String.join_append, join_address, join_limit, join_selector, String.join_cons,
    String.join_nil, String.append_empty, String.append_assoc]

def described (mode : Mode) (n : Size) (c : Columns) (flags : Phrase) : Line :=
  index n :: columns mode c ++ [flags]

theorem text_described (mode : Mode) (n : Size) (c : Columns) (flags : Phrase) :
    (described mode n c flags).text =
      indexWord n ++ (" " ++ (String.join (cells mode c) ++ String.join flags)) := by
  have hcolumns := text_columns mode c
  rw [Line.text] at hcolumns
  simp only [described, Line.text, List.cons_append, List.flatten_cons, List.flatten_append,
    String.join_append, join_index, hcolumns, List.flatten_nil, List.append_nil,
    String.append_assoc]

def columnWords (mode : Mode) (c : Columns) : List String :=
  [c.label, named c.keyword (hexOrDashes mode.hexWidth (c.address.map BitVec.toNat)),
    named "limit" (hexOrDashes 8 (c.limit.map BitVec.toNat)),
    named "sel" (hexOrDashes 4 (c.selector.map BitVec.toNat)),
    named "type" (Numeral.upperHex 1 c.type), named "s" (digit (!c.isSystem)),
    named "dpl" (Numeral.decimal 1 c.ring.toNat), presence c.isPresent]

theorem isWord_columnWords (mode : Mode) (c : Columns) (h : c.WellFormed) :
    ∀ word ∈ columnWords mode c, IsWord word := by
  simp only [columnWords, List.forall_mem_cons]
  exact ⟨h.label.1, isWord_named c.keyword _ h.visible_keyword (visible_hexOrDashes _ _),
    isWord_named "limit" _ (by decide) (visible_hexOrDashes 8 _),
    isWord_named "sel" _ (by decide) (visible_hexOrDashes 4 _),
    isWord_named "type" _ (by decide) (Visible.upperHex 1 c.type),
    isWord_named "s" _ (by decide) (visible_digit (!c.isSystem)),
    isWord_named "dpl" _ (by decide) (Visible.decimal 1 c.ring.toNat),
    isWord_presence c.isPresent, fun word hword => by cases hword⟩

theorem words_cells (mode : Mode) (c : Columns) (rest : String) (h : c.WellFormed) :
    Blank.words (String.join (cells mode c) ++ rest) = columnWords mode c ++ Blank.words rest := by
  have htext : String.join (cells mode c) ++ rest =
      padded 16 c.label ++ (" " ++
        (named c.keyword (hexOrDashes mode.hexWidth (c.address.map BitVec.toNat)) ++ (" " ++
        (named "limit" (hexOrDashes 8 (c.limit.map BitVec.toNat)) ++ (" " ++
        (named "sel" (hexOrDashes 4 (c.selector.map BitVec.toNat)) ++ (" " ++
        (named "type" (Numeral.upperHex 1 c.type) ++ (" " ++
        (named "s" (digit (!c.isSystem)) ++ (" " ++
        (named "dpl" (Numeral.decimal 1 c.ring.toNat) ++ (" " ++
        (padded 11 (presence c.isPresent) ++ (" " ++ rest))))))))))))))) := by
    have hlimit : " limit=" = " " ++ ("limit" ++ "=") := rfl
    have hselector : " sel=" = " " ++ ("sel" ++ "=") := rfl
    have htype : " type=" = " " ++ ("type" ++ "=") := rfl
    have hsystem : " s=" = " " ++ ("s" ++ "=") := rfl
    have hring : " dpl=" = " " ++ ("dpl" ++ "=") := rfl
    simp only [cells, String.join_cons, String.join_nil, String.append_empty, named,
      String.append_assoc, hlimit, hselector, htype, hsystem, hring]
  have hwords := isWord_columnWords mode c h
  simp only [columnWords, List.forall_mem_cons] at hwords
  obtain ⟨hlabel, haddress, hlimit, hselector, htype, hsystem, hring, hpresent, -⟩ := hwords
  rw [htext, words_padded _ _ _ hlabel, Blank.words_cons _ _ haddress,
    Blank.words_cons _ _ hlimit, Blank.words_cons _ _ hselector, Blank.words_cons _ _ htype,
    Blank.words_cons _ _ hsystem, Blank.words_cons _ _ hring, words_padded _ _ _ hpresent]
  rfl

def segmentFlagWords (s : SegmentEntry) : List String :=
  [named "gran" s.granularity.text, named "op" (Numeral.decimal 1 s.operandSize.bits),
    named "long" (digit s.isLongMode), named "avl" (digit s.isAvailable),
    named "attr" (String.join (attributes s))]

def systemFlagWord (s : SystemEntry) : String :=
  if s.kind.isSegment then named "gran" s.granularity.text
  else if s.kind.hasStackIndex then named "ist" (Numeral.decimal 1 s.stackIndex.toNat)
  else if s.kind.hasParamCount then named "parm" (Numeral.decimal 2 s.paramCount.toNat)
  else "-"

theorem visible_text (g : Granularity) : Visible g.text := by
  cases g <;> decide

theorem visible_attributes (s : SegmentEntry) : Visible (String.join (attributes s)) := by
  refine Between.join fun letter hletter => ?_
  simp only [attributes, List.mem_cons, List.not_mem_nil, or_false] at hletter
  obtain rfl | rfl | rfl := hletter
  · cases s.kind <;> split <;> decide
  · cases s.kind <;> split <;> decide
  · split <;> decide

theorem join_segmentFlags (s : SegmentEntry) :
    String.join (segmentFlags s) =
      named "gran" s.granularity.text ++ (" " ++
        (named "op" (Numeral.decimal 1 s.operandSize.bits) ++ (" " ++
        (named "long" (digit s.isLongMode) ++ (" " ++
        (named "avl" (digit s.isAvailable) ++ (" " ++
        named "attr" (String.join (attributes s))))))))) := by
  have hgran : "gran=" = "gran" ++ "=" := rfl
  have hop : " op=" = " " ++ ("op" ++ "=") := rfl
  have hlong : " long=" = " " ++ ("long" ++ "=") := rfl
  have havl : " avl=" = " " ++ ("avl" ++ "=") := rfl
  have hattr : " attr=" = " " ++ ("attr" ++ "=") := rfl
  simp only [segmentFlags, String.join_append, String.join_cons, String.join_nil,
    String.append_empty, hgran, hop, hlong, havl, hattr, named, String.append_assoc]

theorem isWord_segmentFlagWords (s : SegmentEntry) : ∀ word ∈ segmentFlagWords s, IsWord word := by
  simp only [segmentFlagWords, List.forall_mem_cons]
  exact ⟨isWord_named "gran" _ (by decide) (visible_text s.granularity),
    isWord_named "op" _ (by decide) (Visible.decimal 1 s.operandSize.bits),
    isWord_named "long" _ (by decide) (visible_digit s.isLongMode),
    isWord_named "avl" _ (by decide) (visible_digit s.isAvailable),
    isWord_named "attr" _ (by decide) (visible_attributes s), fun word hword => by cases hword⟩

theorem words_segmentFlags (s : SegmentEntry) :
    Blank.words (String.join (segmentFlags s)) = segmentFlagWords s := by
  have hwords := isWord_segmentFlagWords s
  simp only [segmentFlagWords, List.forall_mem_cons] at hwords
  obtain ⟨hgran, hop, hlong, havl, hattr, -⟩ := hwords
  rw [join_segmentFlags, Blank.words_cons _ _ hgran, Blank.words_cons _ _ hop,
    Blank.words_cons _ _ hlong, Blank.words_cons _ _ havl, Blank.words_of_isWord _ hattr]
  rfl

theorem join_systemFlags (s : SystemEntry) : String.join (systemFlags s) = systemFlagWord s := by
  unfold systemFlags systemFlagWord
  split
  · rfl
  · split
    · rfl
    · split <;> rfl

theorem isWord_systemFlagWord (s : SystemEntry) : IsWord (systemFlagWord s) := by
  unfold systemFlagWord
  split
  · exact isWord_named "gran" _ (by decide) (visible_text s.granularity)
  · split
    · exact isWord_named "ist" _ (by decide) (Visible.decimal 1 _)
    · split
      · exact isWord_named "parm" _ (by decide) (Visible.decimal 2 _)
      · decide

theorem visible_raw (raw : RawEntry) : Visible raw.text := by
  obtain ⟨low, _ | high⟩ := raw
  · exact Visible.upperHex 16 low.toNat
  · have hhigh := Visible.upperHex 16 high.toNat
    exact (hhigh.append (by decide)).append (Visible.ofHexDigits 16 low.toNat)

/-- The words that the record of an entry is read as. -/
def entryWords (mode : Mode) (n : Size) : Entry → List String
  | .segment s => indexWord n :: columnWords mode s.columns ++ segmentFlagWords s
  | .system s => indexWord n :: columnWords mode s.columns ++ [systemFlagWord s]
  | .reserved raw unrecognized =>
    [indexWord n, if unrecognized then "reserved" else "unused", named "raw" raw.text]

theorem text_reserved (mode : Mode) (n : Size) (raw : RawEntry) (unrecognized : Bool) :
    (entry mode n (.reserved raw unrecognized)).text =
      indexWord n ++ (" " ++ (padded 16 (Entry.reserved raw unrecognized).label ++ (" " ++
        named "raw" raw.text))) := by
  have hraw : " raw=" = " " ++ ("raw" ++ "=") := rfl
  simp only [entry, Entry.label, Line.text, List.flatten_cons, String.join_append, join_index,
    List.flatten_nil, List.append_nil, String.join_cons, String.join_nil, String.append_empty,
    hraw, named, String.append_assoc]

theorem words_entry (mode : Mode) (n : Size) (e : Entry) :
    Blank.words (entry mode n e).text = entryWords mode n e := by
  have hindex := isWord_indexWord n
  cases e with
  | segment s =>
    change Blank.words (described mode n s.columns (segmentFlags s)).text = _
    rw [text_described, Blank.words_cons _ _ hindex,
      words_cells mode _ _ s.wellFormed_columns, words_segmentFlags]
    rfl
  | system s =>
    change Blank.words (described mode n s.columns (systemFlags s)).text = _
    rw [text_described, Blank.words_cons _ _ hindex,
      words_cells mode _ _ s.wellFormed_columns, join_systemFlags,
      Blank.words_of_isWord _ (isWord_systemFlagWord s)]
    rfl
  | reserved raw unrecognized =>
    have hlabel := (Entry.reserved raw unrecognized).isWord_label
    have hraw := isWord_named "raw" raw.text (by decide) (visible_raw raw)
    rw [text_reserved, Blank.words_cons _ _ hindex, words_padded _ _ _ hlabel.1,
      Blank.words_of_isWord _ hraw]
    rfl

theorem entryWords_eq_cons (mode : Mode) (n : Size) (e : Entry) :
    ∃ rest, entryWords mode n e = indexWord n :: e.label :: rest := by
  cases e with
  | segment s => exact ⟨_, rfl⟩
  | system s => exact ⟨_, rfl⟩
  | reserved raw unrecognized => exact ⟨_, rfl⟩

end Record

end DescriptorTables
