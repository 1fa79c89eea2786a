import BlockShell.Target.Kind

/-!
# Command words

The first word of a line names the command.  Two commands have short forms.  Each command has a
summary, which the overview lists, and a help text of its own.
-/

namespace BlockShell

/-- A command by its name. -/
inductive Word where
  | targetCreate
  | targetDestroy
  | targetList
  | bdevMap
  | bdevUnmap
  | help
  | exit
  deriving Repr, DecidableEq

namespace Word

/-- Every command, in the order in which help lists them. -/
def all : List Word := [targetCreate, targetDestroy, targetList, bdevMap, bdevUnmap, help, exit]

/-- The name of a command, as it is written. -/
def text : Word → String
  | targetCreate => "target_create"
  | targetDestroy => "target_destroy"
  | targetList => "target_list"
  | bdevMap => "bdev_map"
  | bdevUnmap => "bdev_unmap"
  | help => "help"
  | exit => "exit"

/-- Other ways to write a command. -/
def shortForms : Word → List String
  | help => ["?"]
  | exit => ["x", "q"]
  | _ => []

/-- The command that is written so, if there is one. -/
def ofText? (s : String) : Option Word := all.find? fun w => w.text == s || s ∈ w.shortForms

/-! ## Help -/

/-- What a command does, in a sentence. -/
def summary : Word → String
  | targetCreate => "Creates a new target."
  | targetDestroy => "Destroys an existing target."
  | targetList => "Lists live targets."
  | bdevMap => "Maps a new block device to an existing target."
  | bdevUnmap => "Unmaps an existing block device from its target."
  | help => "Shows help for all commands or for one command."
  | exit => "Quits the shell. Shorthand: x q Ctrl-D."

/-- The help text of one command. -/
def details : Word → String
  | targetCreate => "\n".intercalate [
      "Creates a new target.",
      "  target_create name=<str> capacity_sectors=<uint> type=<kind>",
      "                [cache_len_sectors=<uint>] [cache_write_through_enable=<0|1>]",
      "                [<type-specific fields>]",
      "  default:        path=<path>",
      "  raid0, raid5:   strip_len_sectors=<uint> paths=<path>,<path>...",
      "  raid1:          paths=<path>,<path>... [read_len_sectors_per_path=<uint>]",
      "  raid4:          strip_len_sectors=<uint> data_paths=<path>,... parity_path=<path>",
      "  raid10/40/50:   strip_len_sectors=<uint> raid1s|raid4s|raid5s=<leg>:<leg>...",
      "                  where each leg is \"field=value;field=value\"",
      "  kinds: " ++ ", ".intercalate (Kind.all.map Kind.name)]
  | targetDestroy => "\n".intercalate [
      "Destroys an existing target that has no mapped block devices.",
      "  target_destroy name=<str>"]
  | bdevMap => "\n".intercalate [
      "Maps a new block device to an existing target.",
      "  bdev_map bdev_suffix=<str> target_name=<str> [read_only=<0|1>]"]
  | bdevUnmap => "\n".intercalate [
      "Unmaps an existing block device from its target.",
      "  bdev_unmap bdev_suffix=<str>"]
  | w => w.summary

/-- The column at which summaries start in the overview, behind the two blanks before a word. -/
def summaryColumn : Nat := 16

/-- The line of a command in the overview. -/
def overviewLine (w : Word) : String :=
  "  " ++ w.text ++ String.ofList (List.replicate (summaryColumn - w.text.length) ' ') ++ w.summary

/-- Every command with its summary. -/
def overview : String := "\n".intercalate ("Commands:" :: all.map overviewLine)

/-- The answer to a request for help, on one command or on all. -/
def helpOn : Option String → String
  | none => overview
  | some topic =>
    match ofText? topic with
    | some w => w.details
    | none => s!"no help on '{topic}'"

@[simp] theorem ofText?_text (w : Word) : ofText? w.text = some w := by cases w <;> decide

end Word

end BlockShell
