import DescriptorTables.Entry.Basic
import DescriptorTables.Fault
import DescriptorTables.Region

namespace DescriptorTables.Layout

/-- The quadwords in a slot. The fault names the first quadword that is not all there. -/
def readRaw (l : Layout) (region : Region) (index : Size) : Except Fault RawEntry :=
  match l.offset? index with
  | none => .error (.outOfRange index (.allOnes 64) region.extent)
  | some offset =>
    match region.quadword? offset with
    | none => .error (.outOfRange index offset region.extent)
    | some low =>
      if l.needsExtension low then
        match region.quadword? (offset + 8) with
        | none => .error (.outOfRange index (offset + 8) region.extent)
        | some high => .ok (.wide low high)
      else .ok (.narrow low)

def read (l : Layout) (region : Region) (index : Size) : Except Fault Entry :=
  (l.readRaw region index).map l.decode

end DescriptorTables.Layout
