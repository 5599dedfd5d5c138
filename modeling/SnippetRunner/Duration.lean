import SnippetRunner.Decimal.Shortest

/-!
Lengths of time. A duration keeps the text by which it was given, for messages, and its
length in whole milliseconds, rounded away from zero; zero milliseconds stand for no limit.
-/
namespace SnippetRunner

structure Duration where
  text : String
  milliseconds : Int
  deriving DecidableEq, Repr

namespace Duration

def none : Duration := ⟨"0", 0⟩

def ofSeconds (n : Int) : Duration := ⟨toString n, n * 1000⟩

def ofBinary64 (x : Binary64) : Duration := ⟨x.text, (x.thousandths?).getD 0⟩

end Duration

end SnippetRunner
