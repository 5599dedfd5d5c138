import SnippetRunner.Text.Quoted

/-!
Texts that may hold nothing beyond ASCII, such as the values of headers. Any other text is
refused for the first run of characters in it that ASCII does not have.
-/
namespace SnippetRunner.Text

def isAscii (c : Char) : Bool := c.toNat < 128

/-- A run of characters that ASCII does not have, and where in a text it begins. -/
structure AsciiFault where
  position : Nat
  first : Char
  others : List Char
  deriving DecidableEq, Repr

def asciiFault? (s : String) : Option AsciiFault :=
  match s.toList.dropWhile isAscii with
  | [] => none
  | c :: rest => some ⟨(s.toList.takeWhile isAscii).length, c, rest.takeWhile (!isAscii ·)⟩

def AsciiFault.message (f : AsciiFault) : String :=
  let place :=
    if f.others.isEmpty then
      s!"character '{String.ofList (escaped f.first)}' in position {f.position}"
    else s!"characters in position {f.position}-{f.position + f.others.length}"
  s!"'ascii' codec can't encode {place}: ordinal not in range(128)"

end SnippetRunner.Text
