import DescriptorTables.Listing

namespace DescriptorTables

/-- The bytes of a table while they are put together, and how they are to be listed. -/
structure Image where
  bytes : Region := #[]
  register : Register := ⟨0, 0⟩
  mode : Mode := .protected32
  options : Options := {}

inductive MoveError
  | unreadable (fault : Fault)
  | unwritable (overflow : Overflow)

namespace Image

def layout (image : Image) (kind : TableKind) : Layout :=
  ⟨kind, image.mode⟩

def table (image : Image) (kind : TableKind) : Table :=
  ⟨image.layout kind, image.register⟩

def resize (image : Image) (size : Nat) (fill : Byte) : Image :=
  { image with bytes := image.bytes.resize size fill }

def put (image : Image) (offset : Nat) (raw : RawEntry) : Image :=
  { image with bytes := image.bytes.write offset raw.image }

def recoded (image : Image) (l : Layout) (index : Size) (mode : Mode) : Except MoveError RawEntry :=
  match l.read image.bytes index with
  | .error fault => .error (.unreadable fault)
  | .ok e => (e.encode mode).mapError .unwritable

def read (image : Image) (kind : TableKind) (index : Size) : Except Fault Entry :=
  (image.layout kind).read image.bytes index

end Image

end DescriptorTables
