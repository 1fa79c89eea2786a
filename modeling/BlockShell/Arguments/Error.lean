/-!
# What can be wrong with an argument

Every cause keeps the field and the text it is about; `message` is its wording.  A failure inside
the leg of a composite target names the leg and carries the cause found there.
-/

namespace BlockShell

/-- Why the arguments of a command are refused. -/
inductive FieldError where
  | missing (field : String)
  | invalid (field value : String)
  | unknownKind (value : String)
  | reusedPath (field path : String)
  /-- The leg at `position`, counted from zero, of the leg list in `field`. -/
  | inLeg (field : String) (position : Nat) (cause : FieldError)
  deriving Repr, DecidableEq

namespace FieldError

/-- The cause in words. -/
def message : FieldError → String
  | missing field => s!"no '{field}' given in the arguments"
  | invalid field value => s!"'{field}' given as '{value}' is not a valid value"
  | unknownKind value => s!"unknown target type '{value}'"
  | reusedPath field path => s!"'{field}' reuses path '{path}'"
  | inLeg field position cause => s!"{field} leg #" ++ toString position ++ ": " ++ cause.message

/-- The cause behind every leg it was found in. -/
def rootCause : FieldError → FieldError
  | inLeg _ _ cause => cause.rootCause
  | e => e

end FieldError

end BlockShell
