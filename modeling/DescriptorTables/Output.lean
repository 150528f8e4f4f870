import DescriptorTables.Listing

namespace DescriptorTables.Output

/-- Records one to a line, in a text of limited size. A record that does not fit is left out; one
that just fits goes without its line end. -/
def text (capacity : Capacity) (records : List String) : String :=
  Line.clip capacity (records.map fun record => [record, "\n"])

def defaultLevel : Level :=
  .info

def log (level : Level) (events : List Event) : List Message :=
  events.map fun
    | .message m => m
    | .record text => ⟨level, text⟩

end DescriptorTables.Output
