import DescriptorTables.Entry.Raw

namespace DescriptorTables

/-- The first byte holds the least significant bits; bytes past the eighth do not count. -/
def Quadword.ofBytes (bytes : List Byte) : Quadword :=
  bytes.foldr (fun byte word => (word <<< 8) ||| byte.setWidth 64) 0

abbrev Region := Array Byte

namespace Region

def extent (region : Region) : Size :=
  .ofNat 64 region.size

def quadword? (region : Region) (offset : Size) : Option Quadword :=
  if offset.toNat + 8 ≤ region.size then
    some (.ofBytes (region.extract offset.toNat (offset.toNat + 8)).toList)
  else none

def truncate (region : Region) (size : Nat) : Region :=
  region.extract 0 size

def resize (region : Region) (size : Nat) (fill : Byte) : Region :=
  region.truncate size ++ Array.replicate (size - region.size) fill

/-- Bytes put over those from an offset on, with zeros before them where the region was too short. -/
def write (region : Region) (offset : Nat) (bytes : List Byte) : Region :=
  region.resize offset 0 ++ bytes.toArray ++ region.extract (offset + bytes.length) region.size

theorem size_resize (region : Region) (size : Nat) (fill : Byte) :
    (region.resize size fill).size = size := by
  simp only [resize, truncate, Array.size_append, Array.size_extract, Array.size_replicate]
  omega

theorem size_write (region : Region) (offset : Nat) (bytes : List Byte) :
    (region.write offset bytes).size = max region.size (offset + bytes.length) := by
  simp only [write, Array.size_append, size_resize, List.size_toArray, Array.size_extract]
  omega

end Region

end DescriptorTables
