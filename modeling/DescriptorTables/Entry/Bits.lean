import DescriptorTables.BitRange
import DescriptorTables.Granularity

namespace DescriptorTables.Bits

def limitLow : BitRange := ⟨0, 16, by decide⟩
def baseLow : BitRange := ⟨16, 24, by decide⟩
def type : BitRange := ⟨40, 4, by decide⟩
def executable : BitRange := .bit 43
def nonSystem : BitRange := .bit 44
def privilege : BitRange := ⟨45, 2, by decide⟩
def present : BitRange := .bit 47
def limitHigh : BitRange := ⟨48, 4, by decide⟩
def available : BitRange := .bit 52
def longMode : BitRange := .bit 53
def operandSize : BitRange := .bit 54
def granularity : BitRange := .bit 55
def baseHigh : BitRange := ⟨56, 8, by decide⟩

def offsetLow : BitRange := ⟨0, 16, by decide⟩
def selector : BitRange := ⟨16, 16, by decide⟩
def paramCount : BitRange := ⟨32, 5, by decide⟩
def stackIndex : BitRange := ⟨32, 3, by decide⟩
def offsetHigh : BitRange := ⟨48, 16, by decide⟩

def extension : BitRange := ⟨0, 32, by decide⟩

def flag (on : Bool) : Quadword :=
  if on then 1 else 0

def isSet (r : BitRange) (word : Quadword) : Bool :=
  word.getLsbD r.start

/-- The lower 32 bits of an address are stored as 24 bits and 8 bits further up. -/
def base (low : Quadword) : Quadword :=
  baseLow.get low ||| (baseHigh.get low <<< 24)

def baseFields (base : Quadword) : List (BitRange × Quadword) :=
  [(baseLow, BitRange.get ⟨0, 24, by decide⟩ base), (baseHigh, BitRange.get ⟨24, 8, by decide⟩ base)]

def setBase (base low : Quadword) : Quadword :=
  BitRange.setAll (baseFields base) low

/-- The 20 bits of a limit are stored as 16 bits and 4 bits further up. -/
def limit (low : Quadword) : BitVec 32 :=
  (limitLow.get low ||| (limitHigh.get low <<< 16)).setWidth 32

def limitFields (stored : BitVec 32) : List (BitRange × Quadword) :=
  [(limitLow, BitRange.get ⟨0, 16, by decide⟩ (stored.setWidth 64)),
    (limitHigh, BitRange.get ⟨16, 4, by decide⟩ (stored.setWidth 64))]

def setLimit (stored : BitVec 32) (low : Quadword) : Quadword :=
  BitRange.setAll (limitFields stored) low

/-- The lower 32 bits of an entry point, around the selector and the flags of a gate. -/
def offset (low : Quadword) : Quadword :=
  offsetLow.get low ||| (offsetHigh.get low <<< 16)

def offsetFields (offset : Quadword) : List (BitRange × Quadword) :=
  [(offsetLow, BitRange.get ⟨0, 16, by decide⟩ offset),
    (offsetHigh, BitRange.get ⟨16, 16, by decide⟩ offset)]

/-- The bits of an address that only a wide entry has room for. -/
def upperHalf (address : Quadword) : Quadword :=
  BitRange.get ⟨32, 32, by decide⟩ address

def ring (low : Quadword) : BitVec 2 :=
  (privilege.get low).setWidth 2

def pageGranular (low : Quadword) : Granularity :=
  if isSet granularity low then .page else .byte

def accessFields (ring : BitVec 2) (isPresent : Bool) : List (BitRange × Quadword) :=
  [(privilege, ring.setWidth 64), (present, flag isPresent)]

end DescriptorTables.Bits
