import DescriptorTables.Entry.Bits
import DescriptorTables.Entry.Raw
import DescriptorTables.Entry.SystemKind

namespace DescriptorTables

/-- A system segment or a gate. The address is the base of a segment and the entry point of a gate;
members that the kind does not have are zero in a decoded entry. -/
structure SystemEntry where
  kind : SystemKind
  address : Quadword
  limit : BitVec 32
  granularity : Granularity
  ring : BitVec 2
  isPresent : Bool
  selector : BitVec 16
  paramCount : BitVec 8
  stackIndex : BitVec 8
  deriving DecidableEq

namespace SystemEntry

/-- A task gate has no address: the task that it names knows where it goes on. -/
def decodeAddress (kind : SystemKind) (raw : RawEntry) : Quadword :=
  let upper := (raw.high.elim 0 Bits.extension.get) <<< 32
  if kind.isSegment then Bits.base raw.low ||| upper
  else if kind = .taskGate then 0
  else Bits.offset raw.low ||| upper

def decode (kind : SystemKind) (raw : RawEntry) : SystemEntry where
  kind := kind
  address := decodeAddress kind raw
  limit :=
    if kind.isSegment then (Bits.pageGranular raw.low).scale (Bits.limit raw.low) else 0
  granularity := if kind.isSegment then Bits.pageGranular raw.low else .byte
  ring := Bits.ring raw.low
  isPresent := Bits.isSet Bits.present raw.low
  selector := if kind.isSegment then 0 else (Bits.selector.get raw.low).setWidth 16
  paramCount := if kind.hasParamCount then (Bits.paramCount.get raw.low).setWidth 8 else 0
  stackIndex := if kind.hasStackIndex then (Bits.stackIndex.get raw.low).setWidth 8 else 0

/-- What a segment stores where a gate stores its entry point. -/
def targetFields (s : SystemEntry) : List (BitRange × Quadword) :=
  if s.kind.isSegment then
    Bits.limitFields (s.granularity.unscale s.limit) ++ Bits.baseFields s.address ++
      [(Bits.granularity, Bits.flag (s.granularity = .page))]
  else Bits.offsetFields s.address ++ [(Bits.selector, s.selector.setWidth 64)]

/-- The parameter count and the stack index keep as many low bits as the entry has room for. -/
def fields (s : SystemEntry) : List (BitRange × Quadword) :=
  s.targetFields ++
    (if s.kind.hasParamCount then
      [(Bits.paramCount, BitRange.get ⟨0, 5, by decide⟩ (s.paramCount.setWidth 64))] else []) ++
    (if s.kind.hasStackIndex then
      [(Bits.stackIndex, BitRange.get ⟨0, 3, by decide⟩ (s.stackIndex.setWidth 64))] else []) ++
    (Bits.type, .ofNat 64 s.kind.type) :: Bits.accessFields s.ring s.isPresent

def encode (s : SystemEntry) (mode : Mode) : Except Overflow RawEntry :=
  (BitRange.assemble s.fields).map fun low =>
    match mode with
    | .protected32 => .narrow low
    | .long64 => .wide low (Bits.upperHalf s.address)

end SystemEntry

end DescriptorTables
