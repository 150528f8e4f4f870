namespace DescriptorTables

/-- A set of characters as closed ranges of code points. -/
abbrev CodePoints := List (Nat × Nat)

namespace CodePoints

def contains (set : CodePoints) (c : Char) : Bool :=
  set.any fun range => range.1 ≤ c.toNat && c.toNat ≤ range.2

end CodePoints

end DescriptorTables
