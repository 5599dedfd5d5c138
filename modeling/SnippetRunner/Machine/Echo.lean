import SnippetRunner.Machine.Child

/-!
Writing of arguments: echo with and without escapes, and formatted printing. Octal escapes
stand for single octets, so that any octets can be written.
-/
namespace SnippetRunner.Machine

open Text (utf8Octets encodeUtf8 hexDigit?)

def octalDigit? (c : Char) : Option Nat :=
  if '0' ≤ c && c ≤ '7' then some (c.toNat - 48) else none

/-- Up to so many octal digits at the head of a text, as an octet. -/
def takeOctal (most : Nat) (cs : List Char) : Option UInt8 × List Char :=
  match (cs.take most).takeWhile fun c => (octalDigit? c).isSome with
  | [] => (none, cs)
  | ds =>
    (some ((ds.filterMap octalDigit?).foldl (fun n d => n * 8 + d) 0).toUInt8, cs.drop ds.length)

/-- What an escape writes, `none` when everything is to stop, and what follows it. -/
def takeEscape (dialect : Dialect) (zeroFirst : Bool) (cs : List Char) :
    Option (List UInt8) × List Char :=
  match cs with
  | 'n' :: rest => (some [10], rest)
  | 't' :: rest => (some [9], rest)
  | 'r' :: rest => (some [13], rest)
  | 'a' :: rest => (some [7], rest)
  | 'b' :: rest => (some [8], rest)
  | 'f' :: rest => (some [12], rest)
  | 'v' :: rest => (some [11], rest)
  | '\\' :: rest => (some [92], rest)
  | 'c' :: rest => (none, rest)
  | 'e' :: rest => (some (if dialect == .extended then [27] else [92, 101]), rest)
  | 'x' :: rest =>
    match dialect, (rest.take 2).takeWhile fun c => (hexDigit? c).isSome with
    | .extended, d :: ds =>
      let n := ((d :: ds).filterMap hexDigit?).foldl (fun n d => n * 16 + d) 0
      (some [n.toUInt8], rest.drop (ds.length + 1))
    | _, _ => (some [92, 120], rest)
  | '0' :: rest =>
    if zeroFirst then
      match takeOctal 3 rest with
      | (some b, after) => (some [b], after)
      | (none, after) => (some [0], after)
    else
      match takeOctal 3 ('0' :: rest) with
      | (some b, after) => (some [b], after)
      | (none, after) => (some [0], after)
  | c :: rest =>
    match if zeroFirst && dialect == .extended then (none, cs) else takeOctal 3 cs with
    | (some b, after) => (some [b], after)
    | (none, _) => (some (92 :: utf8Octets c), rest)
  | [] => (some [92], [])

/-- A text with its escapes carried out, and whether everything is to stop. -/
def unescape (dialect : Dialect) (zeroFirst : Bool) : Nat → List Char → List UInt8 × Bool
  | 0, _ => ([], false)
  | _ + 1, [] => ([], false)
  | fuel + 1, '\\' :: rest =>
    match takeEscape dialect zeroFirst rest with
    | (none, _) => ([], true)
    | (some here, after) =>
      let (more, stop) := unescape dialect zeroFirst fuel after
      (here ++ more, stop)
  | fuel + 1, c :: rest =>
    let (more, stop) := unescape dialect zeroFirst fuel rest
    (utf8Octets c ++ more, stop)

def isEchoOption (s : String) : Bool :=
  match s.toList with
  | '-' :: c :: cs => (c :: cs).all fun c => c == 'n' || c == 'e' || c == 'E'
  | _ => false

/-- What echo writes. The plain shell always carries out escapes and knows one option. -/
def echoOctets (dialect : Dialect) (args : List String) : List UInt8 :=
  match dialect with
  | .plain =>
    let (silent, args) := match args with
      | "-n" :: rest => (true, rest)
      | args => (false, args)
    let text := String.intercalate " " args
    let (out, stop) := unescape .plain true (text.length + 1) text.toList
    if silent || stop then out else out ++ [10]
  | .extended =>
    let options := args.takeWhile isEchoOption
    let text := String.intercalate " " (args.drop options.length)
    let has (c : Char) : Bool := options.any fun o => o.toList.contains c
    let (out, stop) :=
      if has 'e' && !has 'E' then unescape .extended true (text.length + 1) text.toList
      else (encodeUtf8 text, false)
    if has 'n' || stop then out else out ++ [10]

structure Conversion where
  flags : List Char
  width : Nat
  precision : Option Nat
  kind : Char

def takeConversion (cs : List Char) : Option (Conversion × List Char) :=
  let flags := cs.takeWhile fun c => c == '-' || c == '0' || c == '+' || c == ' ' || c == '#'
  let rest := cs.drop flags.length
  let width := rest.takeWhile Text.isAsciiDigit
  let rest := rest.drop width.length
  let value (ds : List Char) : Nat := Text.digitsValue (ds.filterMap Text.asciiDigit?)
  let (precision, rest) := match rest with
    | '.' :: more =>
      let ds := more.takeWhile Text.isAsciiDigit
      (some (value ds), more.drop ds.length)
    | more => (none, more)
  match rest with
  | kind :: after => some (⟨flags, value width, precision, kind⟩, after)
  | [] => none

def integerArgument (arg : String) : Int :=
  match arg.toList with
  | '\'' :: c :: _ => (c.toNat : Int)
  | '"' :: c :: _ => (c.toNat : Int)
  | '0' :: 'x' :: ds => (((ds.filterMap hexDigit?).foldl (fun n d => n * 16 + d) 0 : Nat) : Int)
  | '0' :: d :: ds =>
    ((((d :: ds).filterMap octalDigit?).foldl (fun n d => n * 8 + d) 0 : Nat) : Int)
  | _ =>
    match Text.parseInteger arg with
    | .ok n => n
    | .error _ => 0

def toBase (base : Nat) (upper : Bool) (n : Int) : String :=
  let n := if n < 0 then (n + (Nat.pow 2 64 : Nat)).toNat else n.toNat
  let ds := Nat.toDigits base n
  String.ofList (if upper then ds.map Char.toUpper else ds)

def padTo (k : Conversion) (out : List UInt8) : List UInt8 :=
  let fill : List UInt8 :=
    List.replicate (k.width - out.length) (if k.flags.contains '0' then 48 else 32)
  if k.flags.contains '-' then out ++ List.replicate (k.width - out.length) 32
  else
    match fill, out with
    | 48 :: _, 45 :: digits => 45 :: (fill ++ digits)
    | _, _ => fill ++ out

/-- What a conversion writes for an argument, and whether everything is to stop. -/
def convertArgument (dialect : Dialect) (k : Conversion) (arg : String) : List UInt8 × Bool :=
  let number (s : String) : List UInt8 × Bool := (padTo k (encodeUtf8 s), false)
  let signed (n : Int) : String := (if n ≥ 0 && k.flags.contains '+' then "+" else "") ++ toString n
  match k.kind with
  | 's' =>
    let out := encodeUtf8 arg
    (padTo { k with flags := k.flags.filter (· != '0') }
      (match k.precision with
        | some p => out.take p
        | none => out), false)
  | 'c' => (padTo k ((encodeUtf8 arg).take 1), false)
  | 'b' =>
    let (out, stop) := unescape dialect true (arg.length + 1) arg.toList
    (padTo k out, stop)
  | 'd' => number (signed (integerArgument arg))
  | 'i' => number (signed (integerArgument arg))
  | 'u' => number (toBase 10 false (integerArgument arg))
  | 'x' => number (toBase 16 false (integerArgument arg))
  | 'X' => number (toBase 16 true (integerArgument arg))
  | 'o' => number (toBase 8 false (integerArgument arg))
  | _ => ([], true)

/-- One pass over a format: what it writes, the arguments left, and whether to stop. -/
def printOnce (dialect : Dialect) : Nat → List Char → List String →
    List UInt8 × List String × Bool
  | 0, _, args => ([], args, true)
  | _ + 1, [], args => ([], args, false)
  | fuel + 1, '\\' :: rest, args =>
    match takeEscape dialect false rest with
    | (none, _) => ([], args, true)
    | (some here, after) =>
      let (more, args, stop) := printOnce dialect fuel after args
      (here ++ more, args, stop)
  | fuel + 1, '%' :: '%' :: rest, args =>
    let (more, args, stop) := printOnce dialect fuel rest args
    (37 :: more, args, stop)
  | fuel + 1, '%' :: rest, args =>
    match takeConversion rest with
    | none => ([37], args, false)
    | some (k, after) =>
      let (here, stop) := convertArgument dialect k (args.headD "")
      if stop then (here, args, true)
      else
        let (more, args, stop) := printOnce dialect fuel after args.tail
        (here ++ more, args, stop)
  | fuel + 1, c :: rest, args =>
    let (more, args, stop) := printOnce dialect fuel rest args
    (utf8Octets c ++ more, args, stop)

/-- The format is used again while it takes arguments and some are left. -/
def printAll (dialect : Dialect) (format : List Char) : Nat → List String → List UInt8
  | 0, _ => []
  | fuel + 1, args =>
    let (out, left, stop) := printOnce dialect (format.length + 1) format args
    if stop || left.isEmpty || left.length == args.length then out
    else out ++ printAll dialect format fuel left

def printOctets (dialect : Dialect) (format : String) (args : List String) : List UInt8 :=
  printAll dialect format.toList (args.length + 1) args

end SnippetRunner.Machine
