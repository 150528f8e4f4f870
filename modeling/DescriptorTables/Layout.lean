import DescriptorTables.BitRange

namespace DescriptorTables

inductive Mode
  | protected32
  | long64
  deriving DecidableEq

inductive TableKind
  | interrupt
  | global
  deriving DecidableEq

/-- What decides how the bytes of a table are read. -/
structure Layout where
  kind : TableKind
  mode : Mode
  deriving DecidableEq

def Mode.text : Mode → String
  | .protected32 => "protected32"
  | .long64 => "long64"

def TableKind.text : TableKind → String
  | .interrupt => "IDT"
  | .global => "GDT"

namespace Layout

def slotSize (l : Layout) : Nat :=
  match l.kind, l.mode with
  | .interrupt, .long64 => 16
  | _, _ => 8

theorem slotSize_pos (l : Layout) : 0 < l.slotSize := by
  unfold slotSize
  split <;> decide

/-- Where a slot begins, when a `Size` can say it. -/
def offset? (l : Layout) (index : Size) : Option Size :=
  let stride : Size := .ofNat 64 l.slotSize
  if index.umulOverflow stride then none else some (index * stride)

end Layout

end DescriptorTables
