namespace DescriptorTables

/-- The unit that the 20 stored bits of a limit count in. -/
inductive Granularity
  | byte
  | page
  deriving DecidableEq

namespace Granularity

def text : Granularity → String
  | byte => "byte"
  | page => "4KiB"

/-- The last byte offset that a stored limit stands for. -/
def scale : Granularity → BitVec 32 → BitVec 32
  | byte, stored => stored
  | page, stored => (stored <<< 12) ||| 0xFFF#32

/-- The stored limit for a last byte offset; what its 20 bits cannot say is dropped. -/
def unscale : Granularity → BitVec 32 → BitVec 32
  | byte, limit => limit &&& 0xFFFFF#32
  | page, limit => limit >>> 12

end Granularity

end DescriptorTables
