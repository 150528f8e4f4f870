import DescriptorTables.Text.CodePoints

namespace DescriptorTables.Blank

/-- The characters that Unicode counts as white space. -/
def codePoints : CodePoints :=
  [(0x9, 0xD), (0x20, 0x20), (0x85, 0x85), (0xA0, 0xA0), (0x1680, 0x1680), (0x2000, 0x200A),
    (0x2028, 0x2029), (0x202F, 0x202F), (0x205F, 0x205F), (0x3000, 0x3000)]

def isBlank (c : Char) : Bool :=
  codePoints.contains c

def words (text : String) : List String :=
  ((text.toList.splitOnP isBlank).filter (fun run => !run.isEmpty)).map String.ofList

theorem words_append_blank (a b : String) (w : Char) (hw : isBlank w) :
    words (a ++ String.singleton w ++ b) = words a ++ words b := by
  simp [words, List.splitOnP_append_cons, hw]

end DescriptorTables.Blank
