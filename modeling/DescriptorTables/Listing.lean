import DescriptorTables.Options
import DescriptorTables.Record
import DescriptorTables.Walk

namespace DescriptorTables

/-- A step of a listing: a remark for the log or a record for the reader. -/
inductive Event
  | message (m : Message)
  | record (text : String)
  deriving DecidableEq

namespace Event

def message? : Event → Option Message
  | message m => some m
  | record _ => none

def record? : Event → Option String
  | message _ => none
  | record text => some text

def ofLine (line : Line) : Event :=
  .record (Record.text line)

end Event

namespace Visit

/-- The slot after a wide entry, when a slot of its own holds the high quadword. -/
def upperHalf (l : Layout) (index : Nat) (raw : RawEntry) : List Line :=
  match l.span (l.decode raw), raw.high with
  | 2, some high => [Record.upperHalf (.ofNat 64 (index + 1)) (.ofNat 64 index) high]
  | _, _ => []

def lines (l : Layout) (o : Options) : Visit → List Line
  | missing index fault => [Record.fault (.ofNat 64 index) fault]
  | found index raw =>
    let e := l.decode raw
    if o.skipUnused && e.isUnused then []
    else
      Record.entry l.mode (.ofNat 64 index) e ::
        (if o.raw && !e.isReserved then [Record.raw raw] else []) ++ upperHalf l index raw

def messages (l : Layout) : Visit → List Message
  | missing _ fault => [⟨.trace, l.kind.text ++ ": " ++ fault.message⟩]
  | found _ _ => []

def events (l : Layout) (o : Options) (v : Visit) : List Event :=
  (v.messages l).map .message ++ (v.lines l o).map .ofLine

end Visit

namespace Table

def startMessage (t : Table) : Message :=
  ⟨.debug, "Dumping " ++ t.layout.kind.text ++ " at " ++ Numeral.upperHex 1 t.register.base.toNat ++
    ": " ++ Numeral.decimal 1 t.slots ++ " slots of " ++ Numeral.decimal 1 t.layout.slotSize ++
    " bytes (" ++ t.layout.mode.text ++ ")"⟩

def faultMessage (t : Table) (f : Fault) : Message :=
  ⟨.warn, t.layout.kind.text ++ " at " ++ Numeral.upperHex 1 t.register.base.toNat ++ ": " ++
    f.message⟩

def heading (t : Table) : List Event :=
  [.message t.startMessage,
    .ofLine (Record.header t.layout t.register (.ofNat 64 t.slots))] ++
    match t.fault? with
    | some f => [.message (t.faultMessage f), .ofLine (Record.warning f)]
    | none => []

def listing (t : Table) (o : Options) (region : Region) : List Event :=
  t.heading ++ (t.visits region).flatMap (Visit.events t.layout o)

def records (t : Table) (o : Options) (region : Region) : List String :=
  (t.listing o region).filterMap Event.record?

def messages (t : Table) (o : Options) (region : Region) : List Message :=
  (t.listing o region).filterMap Event.message?

end Table

end DescriptorTables
