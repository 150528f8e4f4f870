import DescriptorTables.Fault
import DescriptorTables.Region
import DescriptorTables.Register

namespace DescriptorTables

structure Table where
  layout : Layout
  register : Register
  deriving DecidableEq

namespace Table

def slots (t : Table) : Nat :=
  t.register.size / t.layout.slotSize

/-- A table whose size leaves a part of a slot over is malformed. -/
def fault? (t : Table) : Option Fault :=
  if t.register.size % t.layout.slotSize = 0 then none
  else some (.malformedTable (.ofNat 64 t.register.size) (.ofNat 64 t.layout.slotSize))

/-- The bytes of a region that belong to whole slots. -/
def bytes (t : Table) (region : Region) : Region :=
  region.truncate (t.slots * t.layout.slotSize)

end Table

end DescriptorTables
