/-!
# The command line

The arguments of the program are options, then the words of a shell command.  Options end at the
first argument that is none, or at `--`, which is dropped.  An option's value follows it, or stands
behind an equals sign.  A value must not look like an option, no option may be given twice, and a
script excludes a command.
-/

namespace BlockShell

/-- What the options of the program and the words after them give. -/
structure Options where
  script : Option String
  journal : Option String
  /-- The words of a shell command, none for a session. -/
  words : List String
  deriving Repr, DecidableEq

/-- What the arguments of the program ask for. -/
inductive Invocation where
  | start (options : Options)
  | help
  | misuse
  deriving Repr, DecidableEq

namespace Invocation

/-- The options that have a value. -/
inductive OptionName where
  | script
  | journal
  deriving Repr, DecidableEq

/-- What a single argument is, before the first word. -/
inductive Argument where
  | word
  | endOfOptions
  | option (name : OptionName) (value : Option String)
  | help
  | unknown
  deriving Repr, DecidableEq

/-- An argument with a hyphen in front is an option; a single hyphen is none. -/
def looksLikeOption (argument : String) : Bool :=
  match argument.toList with
  | '-' :: _ :: _ => true
  | _ => false

/-- An option's name, and its value if there is an equals sign. -/
def splitLong (cs : List Char) : String × Option String :=
  (String.ofList (cs.takeWhile (· != '=')),
    match cs.dropWhile (· != '=') with
    | [] => none
    | _ :: value => some (String.ofList value))

/-- The option whose text follows two hyphens. -/
def longOption (cs : List Char) : Argument :=
  match splitLong cs with
  | ("script", value) => .option .script value
  | ("journal", value) => .option .journal value
  | ("help", none) => .help
  | _ => .unknown

/-- What an argument is by its text alone. -/
def Argument.ofText (argument : String) : Argument :=
  match argument.toList with
  | ['-', '-'] => .endOfOptions
  | '-' :: '-' :: cs => longOption cs
  | '-' :: 'h' :: _ => .help
  | '-' :: _ :: _ => .unknown
  | _ => .word

/-- Gives an option its value, unless it has one. -/
def assign? (name : OptionName) (value : String) (o : Options) : Option Options :=
  match name with
  | .script => if o.script.isSome then none else some { o with script := some value }
  | .journal => if o.journal.isSome then none else some { o with journal := some value }

/-- What complete options ask for: a script and a command exclude each other. -/
def finish (o : Options) : Invocation :=
  if o.script.isSome && !o.words.isEmpty then misuse else start o

/-- What the arguments that are left ask for, after those before them have given some options. -/
def readFrom (o : Options) : List String → Invocation
  | [] => finish o
  | argument :: rest =>
    match Argument.ofText argument with
    | .word => finish { o with words := argument :: rest }
    | .endOfOptions => finish { o with words := rest }
    | .help => help
    | .unknown => misuse
    | .option name (some value) =>
      match assign? name value o with
      | some o => readFrom o rest
      | none => misuse
    | .option name none =>
      match rest with
      | [] => misuse
      | value :: rest =>
        if looksLikeOption value then misuse
        else
          match assign? name value o with
          | some o => readFrom o rest
          | none => misuse

/-- What the arguments of the program ask for as a whole. -/
def read (arguments : List String) : Invocation := readFrom ⟨none, none, []⟩ arguments

end Invocation

end BlockShell
