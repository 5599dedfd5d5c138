/-!
Octets and text. Encoding is UTF-8. Decoding never fails: an octet sequence that cannot be
continued yields one replacement character for its longest valid beginning, and the octet
that broke it is looked at afresh. The decoder is a machine over single octets, so what it
has written for the first octets is final whatever comes after them.
-/
namespace SnippetRunner.Text

/-- Between characters, or inside one: `need` octets are missing, `value` holds the bits so
far, and the next octet lies in `low..high`. -/
inductive Utf8State
  | start
  | inside (need value low high : Nat)
  deriving DecidableEq, Repr

def replacement : Char := '\uFFFD'

def utf8First (b : Nat) : List Char × Utf8State :=
  if b < 0x80 then ([Char.ofNat b], .start)
  else if 0xC2 ≤ b && b ≤ 0xDF then ([], .inside 1 (b - 0xC0) 0x80 0xBF)
  else if b == 0xE0 then ([], .inside 2 0 0xA0 0xBF)
  else if b == 0xED then ([], .inside 2 13 0x80 0x9F)
  else if 0xE1 ≤ b && b ≤ 0xEF then ([], .inside 2 (b - 0xE0) 0x80 0xBF)
  else if b == 0xF0 then ([], .inside 3 0 0x90 0xBF)
  else if b == 0xF4 then ([], .inside 3 4 0x80 0x8F)
  else if 0xF1 ≤ b && b ≤ 0xF3 then ([], .inside 3 (b - 0xF0) 0x80 0xBF)
  else ([replacement], .start)

def utf8Step (b : Nat) : Utf8State → List Char × Utf8State
  | .start => utf8First b
  | .inside need value low high =>
    if low ≤ b && b ≤ high then
      let value := value * 64 + (b - 0x80)
      if need ≤ 1 then ([Char.ofNat value], .start)
      else ([], .inside (need - 1) value 0x80 0xBF)
    else
      let (out, state) := utf8First b
      (replacement :: out, state)

def utf8End : Utf8State → List Char
  | .start => []
  | .inside .. => [replacement]

/-- The text written so far, latest character first, and the state. -/
def utf8Run (bytes : List UInt8) : List Char × Utf8State :=
  bytes.foldl
    (fun acc b =>
      let (out, state) := utf8Step b.toNat acc.2
      (out.reverse ++ acc.1, state))
    ([], .start)

def decodeChars (bytes : List UInt8) : List Char :=
  let (written, state) := utf8Run bytes
  written.reverse ++ utf8End state

def decodeUtf8 (bytes : List UInt8) : String :=
  String.ofList (decodeChars bytes)

def utf8Octets (c : Char) : List UInt8 :=
  let n := c.toNat
  if n < 0x80 then [n.toUInt8]
  else if n < 0x800 then [(0xC0 + n / 64).toUInt8, (0x80 + n % 64).toUInt8]
  else if n < 0x10000 then
    [(0xE0 + n / 4096).toUInt8, (0x80 + n / 64 % 64).toUInt8, (0x80 + n % 64).toUInt8]
  else
    [(0xF0 + n / 262144).toUInt8, (0x80 + n / 4096 % 64).toUInt8,
     (0x80 + n / 64 % 64).toUInt8, (0x80 + n % 64).toUInt8]

def encodeUtf8 (s : String) : List UInt8 :=
  s.toList.flatMap utf8Octets

end SnippetRunner.Text
