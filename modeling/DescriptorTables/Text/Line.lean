namespace DescriptorTables

/-- The greatest number of UTF-8 bytes that a destination takes; `none` when it takes any. -/
abbrev Capacity := Option Nat

def Capacity.admits (capacity : Capacity) (size : Nat) : Bool :=
  capacity.all (size ≤ ·)

abbrev Phrase := List String

abbrev Line := List Phrase

def Line.text (line : Line) : String :=
  String.join line.flatten

/-- A piece is taken whole or not at all, and one that is not taken ends its phrase. -/
def Phrase.appendTo (capacity : Capacity) (written : String) : Phrase → String
  | [] => written
  | piece :: rest =>
    if capacity.admits (written.utf8ByteSize + piece.utf8ByteSize) then
      appendTo capacity (written ++ piece) rest
    else written

/-- What a destination holds after each phrase was offered to it. -/
def Line.clip (capacity : Capacity) (line : Line) : String :=
  line.foldl (Phrase.appendTo capacity) ""

theorem Phrase.appendTo_none (written : String) (phrase : Phrase) :
    Phrase.appendTo none written phrase = written ++ String.join phrase := by
  induction phrase generalizing written with
  | nil => simp [Phrase.appendTo]
  | cons piece rest ih =>
    simp [Phrase.appendTo, Capacity.admits, ih, String.append_assoc]

theorem Line.clip_none (line : Line) : line.clip none = line.text := by
  have h : ∀ written, line.foldl (Phrase.appendTo none) written =
      written ++ String.join line.flatten := by
    induction line with
    | nil => simp
    | cons phrase rest ih =>
      intro written
      simp [ih, Phrase.appendTo_none, String.append_assoc]
  simpa [Line.clip, Line.text] using h ""

end DescriptorTables
