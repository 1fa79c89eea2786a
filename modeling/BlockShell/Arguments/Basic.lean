import BlockShell.Table
import BlockShell.Text.Split

/-!
# Arguments

The arguments of a command are `key=value` pairs.  A text is cut at a delimiter; a segment without
an equals sign is no pair, a segment with one is cut at the first, and keys and values lose the
blanks around them.  The last pair of a key counts.
-/

namespace BlockShell

/-- The values that are given, by their keys. -/
abbrev Arguments := Table String

namespace Arguments

/-- Separates the arguments of a command. -/
def wordDelimiter : Char := ' '

/-- Separates the legs of a composite target. -/
def legDelimiter : Char := ':'

/-- Separates the fields of a leg. -/
def fieldDelimiter : Char := ';'

/-- Separates the items of a list. -/
def itemDelimiter : Char := ','

/-- The pair that a segment writes, if it has an equals sign. -/
def pair? (segment : String) : Option (String × String) :=
  (Text.cutAt? (· == '=') segment).map fun e => (Text.trim e.1, Text.trim e.2)

/-- The arguments that a text writes between its delimiters. -/
def ofText (delimiter : Char) (text : String) : Arguments :=
  Table.ofList ((Text.pieces delimiter text).filterMap pair?)

end Arguments

end BlockShell
