import DescriptorTables.BitRange
import DescriptorTables.Text.Numeral

namespace DescriptorTables

/-- The quadwords of an entry before they are given a meaning. -/
structure RawEntry where
  low : Quadword
  high : Option Quadword
  deriving DecidableEq

def Quadword.bytes (word : Quadword) : List Byte :=
  (List.range 8).map fun i => word.extractLsb' (8 * i) 8

namespace RawEntry

def narrow (low : Quadword) : RawEntry :=
  ⟨low, none⟩

def wide (low high : Quadword) : RawEntry :=
  ⟨low, some high⟩

def isZero (raw : RawEntry) : Bool :=
  raw.low == 0 && raw.high.all (· == 0)

def size (raw : RawEntry) : Nat :=
  match raw.high with
  | some _ => 16
  | none => 8

/-- Both quadwords, least significant byte first, with zeros for a missing high one. -/
def bytes (raw : RawEntry) : List Byte :=
  Quadword.bytes raw.low ++ Quadword.bytes (raw.high.getD 0)

def image (raw : RawEntry) : List Byte :=
  raw.bytes.take raw.size

def text (raw : RawEntry) : String :=
  match raw.high with
  | some high =>
    Numeral.upperHex 16 high.toNat ++ "_" ++
      String.ofList (Numeral.upperHexDigits 16 raw.low.toNat)
  | none => Numeral.upperHex 16 raw.low.toNat

theorem length_bytes (raw : RawEntry) : raw.bytes.length = 16 := by
  simp [bytes, Quadword.bytes]

theorem length_image (raw : RawEntry) : raw.image.length = raw.size := by
  cases h : raw.high <;> simp [image, length_bytes, size, h]

end RawEntry

end DescriptorTables
