import DescriptorTables.Entry.Basic
import DescriptorTables.Register
import DescriptorTables.Fault
import DescriptorTables.Text.Line

namespace DescriptorTables

/-- The columns that segments and system entries have in common. -/
structure Columns where
  label : String
  keyword : String
  address : Option Quadword
  limit : Option (BitVec 32)
  selector : Option (BitVec 16)
  type : Nat
  isSystem : Bool
  ring : BitVec 2
  isPresent : Bool

def SegmentEntry.columns (s : SegmentEntry) : Columns where
  label :=
    match s.kind with
    | .code => "code-segment"
    | .data => "data-segment"
  keyword := "base"
  address := some s.base
  limit := some s.limit
  selector := none
  type := s.type
  isSystem := false
  ring := s.ring
  isPresent := s.isPresent

def SystemEntry.columns (s : SystemEntry) : Columns where
  label := s.kind.label
  keyword := if s.kind.isSegment then "base" else "offs"
  address := if s.kind = .taskGate then none else some s.address
  limit := if s.kind.isSegment then some s.limit else none
  selector := if s.kind.isSegment then none else some s.selector
  type := s.kind.type
  isSystem := true
  ring := s.ring
  isPresent := s.isPresent

namespace Record

def capacity : Nat :=
  160

def text (line : Line) : String :=
  line.clip (some capacity)

def padded (width : Nat) (text : String) : String :=
  String.ofList (text.toList.rightpad width ' ')

def digit (on : Bool) : String :=
  if on then "1" else "0"

def index (n : Size) : Phrase :=
  ["[", Numeral.decimal 4 n.toNat, "] "]

/-- Addresses are as wide as the mode has them, also where there is none. -/
def address (mode : Mode) (keyword : String) (value : Option Quadword) : Phrase :=
  match value, mode with
  | some value, .protected32 => [keyword, "=", Numeral.upperHex 8 value.toNat]
  | some value, .long64 => [keyword, "=", Numeral.upperHex 16 value.toNat]
  | none, .protected32 => [keyword, "=----------"]
  | none, .long64 => [keyword, "=------------------"]

def limit : Option (BitVec 32) → Phrase
  | some limit => [" limit=", Numeral.upperHex 8 limit.toNat]
  | none => [" limit=----------"]

def selector : Option (BitVec 16) → Phrase
  | some selector => [" sel=", Numeral.upperHex 4 selector.toNat]
  | none => [" sel=------"]

def columns (mode : Mode) (c : Columns) : Line :=
  [[padded 16 c.label, " "],
    address mode c.keyword c.address,
    limit c.limit,
    selector c.selector,
    [" type=", Numeral.upperHex 1 c.type, " s=", digit (!c.isSystem)],
    [" dpl=", Numeral.decimal 1 c.ring.toNat, " ",
      padded 11 (if c.isPresent then "present" else "not-present"), " "]]

def attributes (s : SegmentEntry) : Phrase :=
  let letters :=
    match s.kind with
    | .code => ("R", "C")
    | .data => ("W", "E")
  [if s.access.getLsbD 1 then letters.1 else "-",
    if s.access.getLsbD 2 then letters.2 else "-",
    if s.access.getLsbD 0 then "A" else "-"]

def segmentFlags (s : SegmentEntry) : Phrase :=
  ["gran=", s.granularity.text,
    " op=", Numeral.decimal 1 s.operandSize.bits,
    " long=", digit s.isLongMode,
    " avl=", digit s.isAvailable,
    " attr="] ++ attributes s

def systemFlags (s : SystemEntry) : Phrase :=
  if s.kind.isSegment then ["gran=", s.granularity.text]
  else if s.kind.hasStackIndex then ["ist=", Numeral.decimal 1 s.stackIndex.toNat]
  else if s.kind.hasParamCount then ["parm=", Numeral.decimal 2 s.paramCount.toNat]
  else ["-"]

def entry (mode : Mode) (n : Size) : Entry → Line
  | .segment s => index n :: columns mode s.columns ++ [segmentFlags s]
  | .system s => index n :: columns mode s.columns ++ [systemFlags s]
  | .reserved raw unrecognized =>
    [index n,
      [padded 16 (if unrecognized then "reserved" else "unused"), " raw=", raw.text]]

def upperHalf (n owner : Size) (high : Quadword) : Line :=
  [index n ++
    [padded 16 "(upper half)", " raw=", Numeral.upperHex 16 high.toNat,
      " of=[", Numeral.decimal 4 owner.toNat, "]"]]

def fault (n : Size) (f : Fault) : Line :=
  [index n ++ [padded 16 "<out-of-range>", " ", f.message]]

def raw (r : RawEntry) : Line :=
  [["       raw=", r.text]]

def warning (f : Fault) : Line :=
  [["warning: ", f.message]]

def header (l : Layout) (r : Register) (slots : Size) : Line :=
  [[l.kind.text, " "],
    address l.mode "base" (some r.base),
    [" limit=", Numeral.upperHex 4 r.limit.toNat, " mode=", l.mode.text,
      " entry=", Numeral.decimal 1 l.slotSize, " slots=", Numeral.decimal 4 slots.toNat]]

end Record

end DescriptorTables
