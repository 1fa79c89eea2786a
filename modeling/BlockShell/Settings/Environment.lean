import BlockShell.Settings.Variable

/-!
# Environments

An environment is a list of variables.  A name that starts with `UBLKSH_`, in letters of either
case, leads along a path of keys, between which there are points or two underscores each.  A single
key is a setting's own; a longer path leads into a map.  Of several variables that concern one
setting the last one counts.
-/

namespace BlockShell

/-- The names and the texts of variables, in order. -/
abbrev Environment := List (String × String)

namespace Environment

/-- The variable that an entry describes: its name, an equals sign, and its text.  A name is not
empty, so an equals sign in front is part of it. -/
def assignment? (entry : String) : Option (String × String) :=
  match entry.toList with
  | [] => none
  | c :: cs =>
    match cs.dropWhile (· != '=') with
    | [] => none
    | _ :: text => some (String.ofList (c :: cs.takeWhile (· != '=')), String.ofList text)

/-- The variables that entries describe. -/
def ofEntries (entries : List String) : Environment := entries.filterMap assignment?

/-! ## Names -/

/-- What the names start with. -/
def stem : String := "UBLKSH_"

/-- What follows the stem. -/
def afterStem? (cs : List Char) : Option (List Char) :=
  let n := stem.toList.length
  if (cs.take n).map Char.toLower = stem.toList.map Char.toLower then some (cs.drop n) else none

/-- Puts a point in the place of two underscores. -/
def pointed : List Char → List Char
  | '_' :: '_' :: cs => '.' :: pointed cs
  | c :: cs => c :: pointed cs
  | [] => []

/-- The path of keys to which a name leads, in small letters.  Blanks around the name and around the
path do not count, and no key is empty. -/
def path? (name : String) : Option (List String) := do
  let cs ← afterStem? (Text.trimChars name.toList)
  let keys := Text.pieces '.' (String.ofList ((Text.trimChars (pointed cs)).map Char.toLower))
  if "" ∈ keys then none else some keys

/-! ## Values -/

/-- What a variable denotes, if it concerns a key. -/
def value? (key : String) (entry : String × String) : Option (Except NonText String) := do
  match ← path? entry.1 with
  | [] => none
  | k :: keys =>
    if k = key then some (if keys.isEmpty then Variable.read entry.2 else .error .map) else none

/-- What the environment gives for a key. -/
def get? (env : Environment) (key : String) : Option (Except NonText String) :=
  (env.filterMap (value? key)).getLast?

end Environment

end BlockShell
