import BlockShell.Double
import BlockShell.Settings.Bracket
import BlockShell.Text.Blank

/-!
# Variables of the environment

The text of a variable may denote something else than a text: a truth value, a number, a sequence or
a map.  A text that would be taken for one of these can be put into quotes.  What is no well-formed
literal of any kind denotes itself, without the blanks around it.
-/

namespace BlockShell

/-- What a variable can denote instead of a text.  What a sequence or a map holds plays no part. -/
inductive NonText where
  | flag (b : Bool)
  | unsigned (n : UInt64)
  | signed (n : Int)
  | float (x : Double)
  | sequence
  | map
  deriving Repr, DecidableEq

/-- What is denoted, in words. -/
def NonText.description : NonText → String
  | flag b => "bool " ++ if b then "true" else "false"
  | unsigned n => "unsigned int `" ++ toString n ++ "`"
  | signed n => "signed int `" ++ toString n ++ "`"
  | float x => "float `" ++ x.text ++ "`"
  | sequence => "sequence"
  | map => "map"

namespace Variable

/-- The truth value that a text writes. -/
def flag? (s : String) : Option Bool :=
  if s = "true" then some true else if s = "false" then some false else none

/-- The truth value or the number that a text writes.  A number of more than 64 bits without a point
is a text. -/
def scalar? (s : String) : Option NonText :=
  (flag? s).map .flag <|> (Double.ofText? s).map .float <|> (Text.word? s).map .unsigned <|>
    (Text.signedWord? s).map .signed

/-- The text that the text of a variable denotes, or what it denotes instead.  Outside of brackets
and quotes, a comma makes a sequence. -/
def read (raw : String) : Except NonText String :=
  let s := Text.trim raw
  match s.toList with
  | '"' :: cs =>
    match Quoted.read? cs with
    | some (content, []) => .ok (String.ofList content)
    | _ => .ok s
  | ['\'', c, '\''] => .ok (String.singleton c)
  | '\'' :: _ => .ok s
  | '[' :: cs => if Bracket.closesItem .square [] cs then .error .sequence else .ok s
  | '\x7b' :: cs => if Bracket.closesItem .curly [] cs then .error .map else .ok s
  | cs =>
    if ',' ∈ cs then .error .sequence
    else
      match scalar? s with
      | some x => .error x
      | none => .ok s

end Variable

end BlockShell
