import DescriptorTables.Entry.Bits

namespace DescriptorTables

inductive SegmentKind
  | code
  | data
  deriving DecidableEq

inductive OperandSize
  | bits16
  | bits32
  deriving DecidableEq

def OperandSize.bits : OperandSize → Nat
  | bits16 => 16
  | bits32 => 32

/-- A code or data segment. Of the access bits, bit 0 says that the segment was accessed, bit 1 that
it can be read (code) or written (data), and bit 2 that it conforms (code) or grows down (data). -/
structure SegmentEntry where
  base : Quadword
  limit : BitVec 32
  kind : SegmentKind
  access : BitVec 8
  ring : BitVec 2
  isPresent : Bool
  isAvailable : Bool
  isLongMode : Bool
  operandSize : OperandSize
  granularity : Granularity
  deriving DecidableEq

namespace SegmentEntry

def decode (low : Quadword) : SegmentEntry where
  base := Bits.base low
  limit := (Bits.pageGranular low).scale (Bits.limit low)
  kind := if Bits.isSet Bits.executable low then .code else .data
  access := (Bits.type.get low).setWidth 8 &&& 7
  ring := Bits.ring low
  isPresent := Bits.isSet Bits.present low
  isAvailable := Bits.isSet Bits.available low
  isLongMode := Bits.isSet Bits.longMode low
  operandSize := if Bits.isSet Bits.operandSize low then .bits32 else .bits16
  granularity := Bits.pageGranular low

def type (s : SegmentEntry) : Nat :=
  (s.access ||| (if s.kind = .code then 8 else 0)).toNat

/-- The fourth access bit has the place of the bit for code, which is written after it. -/
def fields (s : SegmentEntry) : List (BitRange × Quadword) :=
  Bits.limitFields (s.granularity.unscale s.limit) ++ Bits.baseFields s.base ++
    [(Bits.type, s.access.setWidth 64), (Bits.executable, Bits.flag (s.kind = .code)),
      (Bits.nonSystem, Bits.flag true)] ++
    Bits.accessFields s.ring s.isPresent ++
    [(Bits.available, Bits.flag s.isAvailable), (Bits.longMode, Bits.flag s.isLongMode),
      (Bits.operandSize, Bits.flag (s.operandSize = .bits32)),
      (Bits.granularity, Bits.flag (s.granularity = .page))]

def encode (s : SegmentEntry) : Except Overflow Quadword :=
  BitRange.assemble s.fields

end SegmentEntry

end DescriptorTables
