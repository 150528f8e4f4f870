import DescriptorTables.Entry.SegmentEntry
import DescriptorTables.Entry.SystemEntry

namespace DescriptorTables

/-- What an entry means to the processor. A reserved one keeps its quadwords as they are; it is
unrecognized when they are not all zero. -/
inductive Entry
  | segment (s : SegmentEntry)
  | system (s : SystemEntry)
  | reserved (raw : RawEntry) (unrecognized : Bool)
  deriving DecidableEq

namespace Entry

def ofReserved (raw : RawEntry) : Entry :=
  .reserved raw !raw.isZero

def isReserved : Entry → Bool
  | reserved _ _ => true
  | _ => false

def isUnused : Entry → Bool
  | reserved _ unrecognized => !unrecognized
  | _ => false

def encode (e : Entry) (mode : Mode) : Except Overflow RawEntry :=
  match e with
  | segment s => s.encode.map .narrow
  | system s => s.encode mode
  | reserved raw _ => .ok raw

def type? : Entry → Option Nat
  | segment s => some s.type
  | system s => some s.kind.type
  | reserved _ _ => none

def ring? : Entry → Option (BitVec 2)
  | segment s => some s.ring
  | system s => some s.ring
  | reserved _ _ => none

def isPresent : Entry → Bool
  | segment s => s.isPresent
  | system s => s.isPresent
  | reserved _ _ => false

end Entry

namespace Layout

def systemKind? (l : Layout) (low : Quadword) : Option SystemKind :=
  if Bits.isSet Bits.nonSystem low then none
  else SystemKind.ofType? (Bits.type.get low).toNat l.mode

/-- Whether an entry with this low quadword goes on in a high one. -/
def needsExtension (l : Layout) (low : Quadword) : Bool :=
  match l.kind, l.mode with
  | .interrupt, .long64 => true
  | .global, .long64 => (l.systemKind? low).isSome
  | _, .protected32 => false

def decode (l : Layout) (raw : RawEntry) : Entry :=
  if l.kind = .global && Bits.isSet Bits.nonSystem raw.low then .segment (.decode raw.low)
  else
    match l.systemKind? raw.low with
    | some kind =>
      if l.kind = .global || kind.isInterruptTableGate then .system (.decode kind raw)
      else .ofReserved raw
    | none => .ofReserved raw

/-- The number of slots that an entry takes up. -/
def span (l : Layout) (e : Entry) : Nat :=
  match e, l.kind, l.mode with
  | .system _, .global, .long64 => 2
  | _, _, _ => 1

theorem span_pos (l : Layout) (e : Entry) : 0 < l.span e := by
  unfold span
  split <;> decide

end Layout

end DescriptorTables
