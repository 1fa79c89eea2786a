import BlockShell.Change
import BlockShell.Command.Word

/-!
# Commands

A line holds at most one command: its first word, then arguments.  Blanks around the line do not
count and a blank line holds no command.  Nothing is asked of an engine before a line has been read
as a whole.
-/

namespace BlockShell

/-- What a line may ask for. -/
inductive Command where
  | change (c : Change)
  | list
  | help (topic : Option String)
  | exit
  deriving Repr, DecidableEq

/-- Why a line is no command. -/
inductive CommandError where
  | unknown (word : String)
  | arguments (command : Word) (cause : FieldError)
  deriving Repr, DecidableEq

/-- The error in words. -/
def CommandError.message : CommandError → String
  | unknown word => s!"unknown command '{word}'; type 'help' to list commands"
  | arguments command cause => command.text ++ ": " ++ cause.message

namespace Command

/-- The change that a command asks for with the arguments in `rest`. -/
def readChange (word : Word) (rest : String) (ofArguments : Arguments → Except FieldError Change) :
    Except CommandError Command :=
  match ofArguments (.ofText Arguments.wordDelimiter rest) with
  | .ok c => .ok (change c)
  | .error cause => .error (.arguments word cause)

/-- The command with the given word, `rest` being what follows the word. -/
def ofWord (word : Word) (rest : String) : Except CommandError Command :=
  match word with
  | .targetCreate => readChange word rest Change.createOf
  | .targetDestroy => readChange word rest Change.destroyOf
  | .targetList => .ok list
  | .bdevMap => readChange word rest Change.mapOf
  | .bdevUnmap => readChange word rest Change.unmapOf
  | .help => .ok (help (Text.firstWord? rest))
  | .exit => .ok exit

/-- The first word of a trimmed text and what follows the blank behind it. -/
def splitWord (text : String) : String × String := (Text.cutAt? Text.isBlank text).getD (text, "")

/-- The command on a line, if it holds one. -/
def read? (line : String) : Except CommandError (Option Command) :=
  let text := Text.trim line
  if text = "" then .ok none
  else
    let (word, rest) := splitWord text
    match Word.ofText? word with
    | none => .error (.unknown word)
    | some w => (ofWord w rest).map some

end Command

end BlockShell
