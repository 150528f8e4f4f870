import DescriptorTables.Layout
import DescriptorTables.Text.Numeral

namespace DescriptorTables

/-- The processor's record of where a table is; the limit is the offset of its last byte. -/
structure Register where
  base : Quadword
  limit : BitVec 16
  deriving DecidableEq

namespace Register

def size (r : Register) : Nat :=
  r.limit.toNat + 1

/-- The mode of the tables that a 64-bit processor uses itself. -/
def nativeMode : Mode :=
  .long64

def text (r : Register) : String :=
  "DescriptorTablePointer \x7b Limit: " ++ Numeral.decimal 1 r.limit.toNat ++
    ", Base: " ++ Numeral.lowerHex 1 r.base.toNat ++ " \x7d"

end Register

end DescriptorTables
