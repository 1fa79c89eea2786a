import BlockShell.Json.Token

/-!
# Reading JSON

The reader takes one token after the other and keeps a stack of the containers it is in, so it
nests as deep as the text does.  A text is read if its tokens lead from nothing to exactly one
complete value.
-/

namespace BlockShell.Json

/-- A container whose end has not been read; what it holds so far, the last first. -/
inductive Frame where
  | array (items : List Json)
  /-- The object whose member `key` is being read. -/
  | object (members : List (Text × Json)) (key : Text)

/-- What the reader expects next. -/
inductive Reader where
  | value (stack : List Frame)
  /-- The first item of an array, or its end. -/
  | item (stack : List Frame)
  /-- The first key of an object, or its end. -/
  | member (stack : List Frame)
  | key (members : List (Text × Json)) (stack : List Frame)
  | colon (members : List (Text × Json)) (key : Text) (stack : List Frame)
  /-- A value is complete: a comma, or the end of the container or of the text. -/
  | after (v : Json) (stack : List Frame)

namespace Reader

/-- Takes the first token of a value. -/
def start (stack : List Frame) : Token → Option Reader
  | .null => some (.after .null stack)
  | .bool b => some (.after (.bool b) stack)
  | .number n => some (.after (.number n) stack)
  | .string s => some (.after (.string s) stack)
  | .openArray => some (.item stack)
  | .openObject => some (.member stack)
  | _ => none

/-- Takes a token, unless it is none of those expected. -/
def step : Reader → Token → Option Reader
  | .value stack, t => start stack t
  | .item stack, .closeArray => some (.after (.array []) stack)
  | .item stack, t => start (.array [] :: stack) t
  | .member stack, .closeObject => some (.after (.object []) stack)
  | .member stack, .string s => some (.colon [] s stack)
  | .key members stack, .string s => some (.colon members s stack)
  | .colon members k stack, .colon => some (.value (.object members k :: stack))
  | .after v (.array items :: stack), .comma => some (.value (.array (v :: items) :: stack))
  | .after v (.array items :: stack), .closeArray =>
    some (.after (.array (v :: items).reverse) stack)
  | .after v (.object members k :: stack), .comma => some (.key ((k, v) :: members) stack)
  | .after v (.object members k :: stack), .closeObject =>
    some (.after (.object ((k, v) :: members).reverse) stack)
  | _, _ => none

/-- Takes tokens one after the other. -/
def run (r : Reader) (tokens : List Token) : Option Reader := tokens.foldlM step r

end Reader

/-- The value that tokens write. -/
def ofTokens? (tokens : List Token) : Option Json :=
  match Reader.run (.value []) tokens with
  | some (.after v []) => some v
  | _ => none

/-- The value that a text writes. -/
def read? (s : String) : Option Json := (Token.list? s.toList).bind ofTokens?

end BlockShell.Json
