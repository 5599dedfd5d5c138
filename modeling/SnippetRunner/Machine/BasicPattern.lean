import SnippetRunner.Text.Wildcard

/-!
Basic regular expressions of line editors: single characters, the dot, bracketed classes,
repetition by a star, and the marks for the start and the end of a line. A match starts as
far left as possible and repetitions take as much as they can.
-/
namespace SnippetRunner.Machine

inductive PatternItem
  | any
  | exactly (c : Char)
  | oneOf (set : Text.CharClass)
  | lineStart
  | lineEnd
  | repeated (item : PatternItem)
  deriving Repr

def readItems : Nat → Bool → List Char → List PatternItem
  | 0, _, _ => []
  | _ + 1, _, [] => []
  | fuel + 1, first, c :: rest =>
    let single : PatternItem × List Char :=
      if c == '.' then (.any, rest)
      else if c == '^' && first then (.lineStart, rest)
      else if c == '$' && rest.isEmpty then (.lineEnd, rest)
      else if c == '\\' then
        match rest with
        | d :: after => (.exactly d, after)
        | [] => (.exactly '\\', [])
      else if c == '[' then
        let (negated, body) := match rest with
          | '^' :: more => (true, more)
          | more => (false, more)
        match Text.classBody? body with
        | some (members, after) => (.oneOf ⟨negated, Text.classMembers members⟩, after)
        | none => (.exactly '[', rest)
      else (.exactly c, rest)
    match single with
    | (item, '*' :: after) =>
      match item with
      | .lineStart => item :: .exactly '*' :: readItems fuel false after
      | _ => .repeated item :: readItems fuel false after
    | (item, after) => item :: readItems fuel false after

def patternItems (text : String) : List PatternItem :=
  readItems (text.length + 1) true text.toList

def PatternItem.holds (c : Char) : PatternItem → Bool
  | .any => true
  | .exactly x => c == x
  | .oneOf set => set.holds c
  | _ => false

/-- The longest match of the items at a place, as the text after it. -/
def matchHere (atStart : Bool) : List PatternItem → List Char → Option (List Char)
  | [], cs => some cs
  | .lineStart :: items, cs => if atStart then matchHere atStart items cs else none
  | .lineEnd :: items, cs => if cs.isEmpty then matchHere atStart items cs else none
  | .repeated item :: items, cs => most item items cs
  | item :: items, cs =>
    match cs with
    | c :: rest => if item.holds c then matchHere false items rest else none
    | [] => none
where
  /-- As many repetitions as leave a match for what follows. -/
  most (item : PatternItem) (items : List PatternItem) : List Char → Option (List Char)
    | [] => matchHere atStart items []
    | c :: rest =>
      if item.holds c then
        match most item items rest with
        | some after => some after
        | none => matchHere atStart items (c :: rest)
      else matchHere atStart items (c :: rest)

/-- What stands before the leftmost match, the match, and what stands after it. -/
def findMatch (items : List PatternItem) (atStart : Bool) :
    List Char → Option (List Char × List Char × List Char)
  | [] => (matchHere atStart items []).map fun _ => ([], [], [])
  | c :: rest =>
    match matchHere atStart items (c :: rest) with
    | some after => some ([], (c :: rest).take (rest.length + 1 - after.length), after)
    | none => (findMatch items false rest).map fun r => (c :: r.1, r.2)

def expandReplacement (found : List Char) : List Char → List Char
  | [] => []
  | '\\' :: 'n' :: rest => '\n' :: expandReplacement found rest
  | '\\' :: c :: rest => c :: expandReplacement found rest
  | '&' :: rest => found ++ expandReplacement found rest
  | c :: rest => c :: expandReplacement found rest

def replaceMatches (items : List PatternItem) (replacement : List Char) (everywhere : Bool) :
    Nat → Bool → List Char → Option (List Char)
  | 0, _, _ => none
  | fuel + 1, atStart, cs =>
    match findMatch items atStart cs with
    | none => none
    | some (before, found, after) =>
      let here := before ++ expandReplacement found replacement
      if everywhere && !after.isEmpty then
        if found.isEmpty then
          match after with
          | c :: rest =>
            some (here ++ c ::
              (replaceMatches items replacement everywhere fuel false rest).getD rest)
          | [] => some here
        else
          some (here ++ (replaceMatches items replacement everywhere fuel false after).getD after)
      else some (here ++ after)

end SnippetRunner.Machine
