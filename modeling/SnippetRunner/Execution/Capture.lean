import SnippetRunner.Text.Utf8

/-!
Bounded collection of output. A capture keeps the first octets up to its limit and remembers
whether any were turned away, however the output was cut into chunks.
-/
namespace SnippetRunner

structure Capture where
  limit : Int
  /-- What was kept, latest chunk first. -/
  chunks : List (List UInt8)
  length : Nat
  truncated : Bool
  deriving DecidableEq, Repr

namespace Capture

def ofLimit (limit : Int) : Capture := ⟨limit, [], 0, false⟩

def room (c : Capture) : Nat := (c.limit - c.length).toNat

/-- Takes in a chunk; an empty one changes nothing. -/
def add (c : Capture) (chunk : List UInt8) : Capture :=
  if chunk.isEmpty then c
  else if c.room == 0 then { c with truncated := true }
  else
    let kept := chunk.take c.room
    { c with
      chunks := kept :: c.chunks
      length := c.length + kept.length
      truncated := c.truncated || decide (chunk.length > c.room) }

def addAll (c : Capture) (chunks : List (List UInt8)) : Capture :=
  chunks.foldl add c

def octets (c : Capture) : List UInt8 := c.chunks.reverse.flatten

def text (c : Capture) : String := Text.decodeUtf8 c.octets

end Capture

end SnippetRunner
