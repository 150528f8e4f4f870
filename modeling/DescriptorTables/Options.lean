import DescriptorTables.Log
import DescriptorTables.Text.Blank
import DescriptorTables.Text.Quoted

namespace DescriptorTables

/-- What a listing leaves out and adds. -/
structure Options where
  skipUnused : Bool := false
  raw : Bool := false
  deriving DecidableEq

inductive Argument
  | skipUnused
  | raw
  | unknown (word : String)
  deriving DecidableEq

namespace Argument

def ofWord (word : String) : Argument :=
  if word = "--skip-unused" then skipUnused
  else if word = "--raw" then raw
  else unknown word

def list (text : String) : List Argument :=
  (Blank.words text).map ofWord

def message? : Argument → Option Message
  | unknown word => some ⟨.warn, "Unknown dump argument: " ++ Quoted.encode word⟩
  | _ => none

end Argument

namespace Options

/-- An option is on when its argument is among the others, wherever and however often. -/
def ofArguments (arguments : List Argument) : Options :=
  ⟨arguments.contains .skipUnused, arguments.contains .raw⟩

def parse (text : String) : Options :=
  ofArguments (Argument.list text)

def boolText (on : Bool) : String :=
  if on then "true" else "false"

def message (o : Options) : Message :=
  ⟨.debug, "Dump parameters: Parameters \x7b skip_unused: " ++ boolText o.skipUnused ++
    ", raw: " ++ boolText o.raw ++ " \x7d"⟩

def parseMessages (text : String) : List Message :=
  (Argument.list text).filterMap Argument.message? ++ [(parse text).message]

end Options

end DescriptorTables
