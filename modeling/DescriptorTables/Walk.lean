import DescriptorTables.Slot
import DescriptorTables.Table

namespace DescriptorTables

/-- A slot where an entry should begin, and what is found there. -/
inductive Visit
  | missing (index : Nat) (fault : Fault)
  | found (index : Nat) (raw : RawEntry)
  deriving DecidableEq

namespace Visit

def isMissing : Visit → Bool
  | missing _ _ => true
  | found _ _ => false

def entry? (l : Layout) : Visit → Option Entry
  | missing _ _ => none
  | found _ raw => some (l.decode raw)

/-- The number of slots that are done with; one that cannot be read counts alone. -/
def span (l : Layout) : Visit → Nat
  | missing _ _ => 1
  | found _ raw => l.span (l.decode raw)

theorem one_le_span (l : Layout) (v : Visit) : 1 ≤ v.span l := by
  cases v with
  | missing _ _ => exact Nat.le_refl 1
  | found _ raw => exact l.span_pos (l.decode raw)

end Visit

namespace Layout

def visit (l : Layout) (region : Region) (index : Nat) : Visit :=
  match l.readRaw region (.ofNat 64 index) with
  | .error fault => .missing index fault
  | .ok raw => .found index raw

def visits (l : Layout) (region : Region) (slots index : Nat) : List Visit :=
  if index < slots then
    l.visit region index :: l.visits region slots (index + (l.visit region index).span l)
  else []
termination_by slots - index
decreasing_by
  have h := (l.visit region index).one_le_span l
  omega

end Layout

def Table.visits (t : Table) (region : Region) : List Visit :=
  t.layout.visits (t.bytes region) t.slots 0

structure Summary where
  slots : Nat
  decoded : Nat
  reserved : Nat
  errors : Nat
  malformed : Bool
  deriving DecidableEq

def Table.summary (t : Table) (region : Region) : Summary :=
  let visits := t.visits region
  let entries := visits.filterMap (Visit.entry? t.layout)
  { slots := t.slots
    decoded := entries.countP fun e => !e.isReserved
    reserved := entries.countP fun e => e.isReserved
    errors := visits.countP fun v => v.isMissing
    malformed := t.fault?.isSome }

end DescriptorTables
