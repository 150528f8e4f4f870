namespace DescriptorTables

/-- How verbose a message is, the least verbose level first. -/
inductive Level
  | error
  | warn
  | info
  | debug
  | trace
  deriving DecidableEq

def Level.rank : Level → Nat
  | error => 1
  | warn => 2
  | info => 3
  | debug => 4
  | trace => 5

def Level.text : Level → String
  | error => "ERROR"
  | warn => "WARN"
  | info => "INFO"
  | debug => "DEBUG"
  | trace => "TRACE"

structure Message where
  level : Level
  text : String
  deriving DecidableEq

/-- The messages that are at most as verbose as a level; none of them without one. -/
def Message.upTo (maximum : Option Level) (messages : List Message) : List Message :=
  messages.filter fun m => maximum.any fun level => m.level.rank ≤ level.rank

end DescriptorTables
