import BlockShell.Journal
import BlockShell.Settings.Environment

/-!
# Settings

A shell is set up by three settings.  Each can be set in the environment, but only to a text, and
none may be blank.
-/

namespace BlockShell

/-- What can be set. -/
inductive Setting where
  | prompt
  | logFilter
  | journalPath
  deriving Repr, DecidableEq

/-- The key of a setting. -/
def Setting.key : Setting → String
  | prompt => "prompt"
  | logFilter => "log_filter"
  | journalPath => "journal_path"

/-- The key as it is written in the name of a variable. -/
def Setting.variableKey : Setting → String
  | prompt => "PROMPT"
  | logFilter => "LOG_FILTER"
  | journalPath => "JOURNAL_PATH"

/-- The name of the variable, as it is advised to be written. -/
def Setting.variableName (s : Setting) : String := Environment.stem ++ s.variableKey

/-- What a shell is set up with. -/
structure Settings where
  prompt : String
  logFilter : String
  journalPath : Option String
  deriving Repr, DecidableEq

/-- Why the settings are refused. -/
inductive SettingsError where
  /-- The environment gives something else than a text. -/
  | notText (s : Setting) (found : NonText)
  | blank (s : Setting)
  deriving Repr, DecidableEq

/-- The error in words, with advice on what to set. -/
def SettingsError.message : SettingsError → String
  | notText s found =>
    "configuration parsing failed: Failed to merge CLI with configuration: invalid type: found " ++
      found.description ++ ", expected a string for key \"" ++ s.variableKey ++ "\" in `" ++
      Environment.stem ++ "` environment variable(s)"
  | blank s =>
    "missing configuration field: " ++ s.key ++ " must not be blank: set " ++ s.variableName ++
      " or add " ++ s.key ++ " to ublksh.toml"

namespace Settings

/-- The settings if nothing is set. -/
def defaults : Settings := ⟨"ublksh > ", "warn", none⟩

/-- The text that an environment gives for a setting, if it gives anything. -/
def textIn (env : Environment) (s : Setting) : Except SettingsError (Option String) :=
  match env.get? s.key with
  | none => .ok none
  | some value => (value.mapError (.notText s)).map some

/-- The settings in an environment, read in the order of their keys. -/
def ofEnvironment (env : Environment) : Except SettingsError Settings := do
  let journalPath ← textIn env .journalPath
  let logFilter ← textIn env .logFilter
  let prompt ← textIn env .prompt
  return ⟨prompt.getD defaults.prompt, logFilter.getD defaults.logFilter, journalPath⟩

/-- A given journal path takes the place of the one that is set. -/
def withJournalPath (s : Settings) (path : Option String) : Settings :=
  { s with journalPath := path <|> s.journalPath }

/-- Refuses a blank value. -/
def check (setting : Setting) (value : String) : Except SettingsError Unit :=
  if Text.allBlank value then .error (.blank setting) else .ok ()

/-- The first setting that is blank, in the order prompt, log filter, journal path. -/
def validate (s : Settings) : Except SettingsError Unit := do
  check .prompt s.prompt
  check .logFilter s.logFilter
  match s.journalPath with
  | none => return ()
  | some path => check .journalPath path

/-- The settings of a run, whose arguments may give a journal path.  They are checked once they are
complete. -/
def resolve (env : Environment) (path : Option String) : Except SettingsError Settings := do
  let s := (← ofEnvironment env).withJournalPath path
  s.validate
  return s

/-- The journal, whose path loses the blanks around it. -/
def journal? (s : Settings) : Option Journal := s.journalPath.map fun p => ⟨⟨Text.trim p⟩⟩

end Settings

end BlockShell
