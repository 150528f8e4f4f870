import DescriptorTables.Text.Combining
import DescriptorTables.Text.Invisible
import DescriptorTables.Text.Numeral

namespace DescriptorTables.Quoted

/-- Whether a character, put between quotes, is seen for what it is. -/
def standsForItself (c : Char) : Bool :=
  !(Invisible.codePoints.contains c || Combining.codePoints.contains c)

def escape (c : Char) : List Char :=
  match c with
  | '"' => ['\\', '"']
  | '\\' => ['\\', '\\']
  | '\x00' => ['\\', '0']
  | '\t' => ['\\', 't']
  | '\r' => ['\\', 'r']
  | '\n' => ['\\', 'n']
  | c =>
    if standsForItself c then [c]
    else ['\\', 'u', '\x7b'] ++ Numeral.lowerHexDigits 1 c.toNat ++ ['\x7d']

/-- A text between double quotes, with every character in it told apart by what is seen. -/
def encode (text : String) : String :=
  String.ofList ('"' :: text.toList.flatMap escape ++ ['"'])

end DescriptorTables.Quoted
