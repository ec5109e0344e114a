/-!
# Quotes around a literal

The value of a string literal is its text without the quote characters at both
ends.  All of them go, of all three sorts: a literal whose own text begins or
ends with a quote loses that quote too.
-/

namespace DroppedResult

/-- A double quote, a single quote or a backtick. -/
def isQuote (c : Char) : Bool :=
  c == '\x22' || c == '\x27' || c == '\x60'

def trimQuotes (s : String) : String :=
  String.ofList ((s.toList.dropWhile isQuote).reverse.dropWhile isQuote).reverse

end DroppedResult
