import DescriptorTables.BitRange
import DescriptorTables.Text.Numeral

namespace DescriptorTables

/-- Why a table cannot be read as it is described. -/
inductive Fault
  | outOfRange (index offset regionSize : Size)
  | malformedTable (size slotSize : Size)
  deriving DecidableEq

def Fault.message : Fault → String
  | outOfRange index offset regionSize =>
    "slot " ++ Numeral.decimal 1 index.toNat ++
      " at offset " ++ Numeral.upperHex 1 offset.toNat ++
      " lies beyond the " ++ Numeral.upperHex 1 regionSize.toNat ++ "-byte table region"
  | malformedTable size slotSize =>
    "table size " ++ Numeral.upperHex 1 size.toNat ++
      " is not a multiple of the " ++ Numeral.decimal 1 slotSize.toNat ++ "-byte entry size"

end DescriptorTables
