namespace DescriptorTables.Numeral

def decimal (width n : Nat) : String :=
  String.ofList ((Nat.toDigits 10 n).leftpad width '0')

def lowerHexDigits (width n : Nat) : List Char :=
  (Nat.toDigits 16 n).leftpad width '0'

def upperHexDigits (width n : Nat) : List Char :=
  (lowerHexDigits width n).map Char.toUpper

def lowerHex (width n : Nat) : String :=
  "0x" ++ String.ofList (lowerHexDigits width n)

def upperHex (width n : Nat) : String :=
  "0x" ++ String.ofList (upperHexDigits width n)

end DescriptorTables.Numeral
