import BlockShell.Proofs.Target.Checks
import BlockShell.Proofs.Target.Reading

/-!
# Messages of a single line

An error message quotes names, values, paths and words as they were given.  They are all cut out of one
line, and a line holds no line feed; so neither does what is read from it or what is wrong with it
(`Command.singleLine_read?`), nor the message that says so (`CommandError.singleLine_message`).
-/

namespace BlockShell

/-! ## Texts and results -/

namespace Text

/-- A text without a line feed. -/
def SingleLine (s : String) : Prop := '\n' ∉ s.toList

instance (s : String) : Decidable (SingleLine s) := inferInstanceAs (Decidable ('\n' ∉ s.toList))

theorem SingleLine.mono {s t : String} (ht : SingleLine t) (h : ∀ c ∈ s.toList, c ∈ t.toList) :
    SingleLine s :=
  fun hc => ht (h _ hc)

theorem SingleLine.append {s t : String} (hs : SingleLine s) (ht : SingleLine t) :
    SingleLine (s ++ t) := by
  unfold SingleLine
  rw [String.toList_append, List.mem_append]
  exact not_or.2 ⟨hs, ht⟩

theorem singleLine_toString (n : Nat) : SingleLine (toString n) := by
  intro h
  exact absurd (isDigit_of_mem_toString h) (by decide)

end Text

/-- An error satisfies `p`, and a value satisfies `q`. -/
def Meets {ε α : Type} (p : ε → Prop) (q : α → Prop) : Except ε α → Prop
  | .error e => p e
  | .ok a => q a

theorem Meets.map {ε α β : Type} {p : ε → Prop} {q : α → Prop} {q' : β → Prop} {x : Except ε α}
    (h : Meets p q x) {f : α → β} (hf : ∀ a, q a → q' (f a)) : Meets p q' (x.map f) := by
  cases x with
  | error e => exact h
  | ok a => exact hf a h

/-! ## Errors in arguments -/

/-- Every text that the error is about is a single line. -/
def FieldError.SingleLine : FieldError → Prop
  | missing field => Text.SingleLine field
  | invalid field value => Text.SingleLine field ∧ Text.SingleLine value
  | unknownKind value => Text.SingleLine value
  | reusedPath field path => Text.SingleLine field ∧ Text.SingleLine path
  | inLeg field _ cause => Text.SingleLine field ∧ cause.SingleLine

theorem FieldError.singleLine_message {e : FieldError} (h : e.SingleLine) :
    Text.SingleLine e.message := by
  induction e with
  | missing field => exact .append (.append (by decide) h) (by decide)
  | invalid field value =>
    exact .append (.append (.append (.append (by decide) h.1) (by decide)) h.2) (by decide)
  | unknownKind value => exact .append (.append (by decide) h) (by decide)
  | reusedPath field path =>
    exact .append (.append (.append (.append (by decide) h.1) (by decide)) h.2) (by decide)
  | inLeg field position cause ih =>
    have hplace : Text.SingleLine (s!"{field} leg #" ++ toString position) :=
      .append (.append h.1 (by decide)) (Text.singleLine_toString position)
    exact .append (.append hplace (by decide)) (ih h.2)

/-- Every value is a single line. -/
def Arguments.SingleLines (args : Arguments) : Prop :=
  ∀ field value, args.get? field = some value → Text.SingleLine value

namespace Arguments

theorem singleLines_ofText {d : Char} {text : String} (h : Text.SingleLine text) :
    (ofText d text).SingleLines :=
  fun _ _ hget => h.mono (get?_ofText hget).2

theorem singleLines_givenLeg {group : String} (h : Text.SingleLine group) :
    (givenLeg group).SingleLines := by
  rw [← ofLeg_eq]
  exact singleLines_ofText (h.mono fun _ hc => (mem_of_mem_dropQuotes hc).1)

variable {args : Arguments} (h : args.SingleLines)
include h

theorem SingleLines.givenText (field : String) : Text.SingleLine (args.givenText field) := by
  cases hget : args.get? field with
  | none =>
    rw [givenText_of_absent args field hget]
    decide
  | some value =>
    rw [givenText_of_get? args field hget]
    exact h field value hget

theorem SingleLines.givenGroups (field : String) :
    ∀ group ∈ args.givenGroups field, Text.SingleLine group :=
  fun _ hgroup => (h.givenText field).mono fun _ hc => Text.mem_of_mem_pieces hgroup hc

end Arguments

/-! ## Checks -/

/-- The field that is reported when the check fails. -/
def Check.field : Check → String
  | nonempty field | positive field | number field | flag field | kind field | items field => field
  | apart field _ => field

section Checks

variable {args : Arguments} (h : args.SingleLines) {checks : List Check}
include h

/-- A check that fails reports its field and what is given there. -/
theorem Check.singleLine_failure? {c : Check} (hc : Text.SingleLine c.field) {e : FieldError}
    (he : c.failure? args = some e) : e.SingleLine := by
  cases c with
  | nonempty field | items field =>
    obtain ⟨-, he⟩ := Option.ite_some_none_eq_some.1 he
    exact he ▸ hc
  | positive field =>
    dsimp only [failure?] at he
    split at he
    · cases he
      exact hc
    · next value hvalue =>
      obtain ⟨-, he⟩ := Option.ite_some_none_eq_some.1 he
      exact he ▸ ⟨hc, h field value hvalue⟩
  | number field | flag field =>
    obtain ⟨value, hvalue, he⟩ := Option.bind_eq_some_iff.1 he
    obtain ⟨-, he⟩ := Option.ite_some_none_eq_some.1 he
    exact he ▸ ⟨hc, h field value hvalue⟩
  | kind field =>
    dsimp only [failure?] at he
    split at he
    · cases he
      exact hc
    · next value hvalue =>
      obtain ⟨-, he⟩ := Option.ite_none_left_eq_some.1 he
      cases he
      exact h field value hvalue
  | apart field list =>
    obtain ⟨-, he⟩ := Option.ite_some_none_eq_some.1 he
    exact he ▸ ⟨hc, h.givenText field⟩

theorem singleLine_failures (hchecks : ∀ c ∈ checks, Text.SingleLine c.field) :
    ∀ e ∈ failures args checks, e.SingleLine := by
  intro e he
  obtain ⟨c, hc, hfailure⟩ := List.mem_filterMap.1 he
  exact c.singleLine_failure? h (hchecks c hc) hfailure

end Checks

theorem singleLine_legFailures {field : String} (hfield : Text.SingleLine field) {checks : List Check}
    (hchecks : ∀ c ∈ checks, Text.SingleLine c.field) {groups : List String}
    (hgroups : ∀ group ∈ groups, Text.SingleLine group) (position : Nat) :
    ∀ e ∈ legFailures field checks groups position, e.SingleLine := by
  intro e he
  obtain ⟨⟨group, position⟩, hgroup, he⟩ := List.mem_flatMap.1 he
  obtain ⟨cause, hcause, rfl⟩ := List.mem_map.1 he
  have hargs := Arguments.singleLines_givenLeg (hgroups group (List.fst_mem_of_mem_zipIdx hgroup))
  exact ⟨hfield, singleLine_failures hargs hchecks cause hcause⟩

theorem Kind.singleLine_checks (kind : Kind) : ∀ c ∈ kind.checks, Text.SingleLine c.field := by
  cases kind <;> decide

theorem Kind.singleLine_legs {kind leg : Kind} {field : String} (h : kind.legs? = some (field, leg)) :
    Text.SingleLine field := by
  cases kind <;> cases h <;> decide

/-! ## Changes -/

/-- Every text of the change that a message may quote is a single line. -/
def Change.SingleLine : Change → Prop
  | create target => Text.SingleLine target.name
  | destroy name => Text.SingleLine name
  | map suffix mapping => Text.SingleLine suffix ∧ Text.SingleLine mapping.target
  | unmap suffix => Text.SingleLine suffix

theorem meets_verdict {α : Type} {p : FieldError → Prop} {q : α → Prop} {l : List FieldError} {a : α}
    (hl : ∀ e ∈ l, p e) (ha : q a) : Meets p q (verdict l a) := by
  cases l with
  | nil => exact ha
  | cons first rest => exact hl first (List.mem_cons_self ..)

section Changes

variable {args : Arguments} (h : args.SingleLines)
include h

theorem Kind.singleLine_failures (kind : Kind) : ∀ e ∈ kind.failures args, e.SingleLine := by
  unfold Kind.failures
  refine List.forall_mem_append.2 ⟨BlockShell.singleLine_failures h kind.singleLine_checks, ?_⟩
  split
  · exact nofun
  · next field leg hlegs =>
    exact singleLine_legFailures (singleLine_legs hlegs) leg.singleLine_checks (h.givenGroups field) 0

theorem Target.singleLine_failures : ∀ e ∈ Target.failures args, e.SingleLine :=
  List.forall_mem_append.2
    ⟨BlockShell.singleLine_failures h (by decide), Kind.singleLine_failures h _⟩

namespace Change

theorem singleLine_createOf : Meets FieldError.SingleLine Change.SingleLine (createOf args) := by
  unfold createOf
  rw [Target.ofArguments_eq, map_verdict]
  exact meets_verdict (Target.singleLine_failures h) (h.givenText "name")

theorem singleLine_destroyOf : Meets FieldError.SingleLine Change.SingleLine (destroyOf args) := by
  unfold destroyOf
  rw [args.nonemptyText_eq, map_verdict]
  exact meets_verdict (singleLine_failures h (by decide)) (h.givenText "name")

theorem singleLine_mapOf : Meets FieldError.SingleLine Change.SingleLine (mapOf args) := by
  have hverdict : mapOf args = verdict
      (failures args [.nonempty "bdev_suffix", .nonempty "target_name", .flag "read_only"])
      (map (args.givenText "bdev_suffix")
        ⟨args.givenText "target_name", args.givenFlag "read_only" false⟩) :=
    bind_eq_verdict_cons (args.nonemptyText_eq _) <| bind_eq_verdict_cons (args.nonemptyText_eq _) <|
      bind_eq_verdict_cons (args.flagOr_eq _ false) (pure_eq_verdict args _)
  rw [hverdict]
  exact meets_verdict (singleLine_failures h (by decide))
    ⟨h.givenText "bdev_suffix", h.givenText "target_name"⟩

theorem singleLine_unmapOf : Meets FieldError.SingleLine Change.SingleLine (unmapOf args) := by
  unfold unmapOf
  rw [args.nonemptyText_eq, map_verdict]
  exact meets_verdict (singleLine_failures h (by decide)) (h.givenText "bdev_suffix")

end Change

end Changes

/-! ## Commands -/

/-- Every text that the message quotes is a single line. -/
def CommandError.SingleLine : CommandError → Prop
  | unknown word => Text.SingleLine word
  | arguments _ cause => cause.SingleLine

theorem CommandError.singleLine_message {e : CommandError} (h : e.SingleLine) :
    Text.SingleLine e.message := by
  cases e with
  | unknown word => exact .append (.append (by decide) h) (by decide)
  | arguments command cause =>
    have hcommand : Text.SingleLine command.text := by cases command <;> decide
    exact .append (.append hcommand (by decide)) (FieldError.singleLine_message h)

/-- Only what a change is about is quoted later. -/
def Command.SingleLine : Command → Prop
  | change c => c.SingleLine
  | list | help _ | exit => True

namespace Command

theorem singleLine_readChange {word : Word} {rest : String}
    {ofArguments : Arguments → Except FieldError Change}
    (h : Meets FieldError.SingleLine Change.SingleLine
      (ofArguments (.ofText Arguments.wordDelimiter rest))) :
    Meets CommandError.SingleLine Command.SingleLine (readChange word rest ofArguments) := by
  unfold readChange
  cases hread : ofArguments (.ofText Arguments.wordDelimiter rest) with
  | error cause =>
    rw [hread] at h
    exact h
  | ok c =>
    rw [hread] at h
    exact h

theorem singleLine_ofWord {rest : String} (h : Text.SingleLine rest) (word : Word) :
    Meets CommandError.SingleLine Command.SingleLine (ofWord word rest) := by
  have hargs : Arguments.SingleLines (.ofText Arguments.wordDelimiter rest) :=
    Arguments.singleLines_ofText h
  cases word with
  | targetCreate => exact singleLine_readChange (Change.singleLine_createOf hargs)
  | targetDestroy => exact singleLine_readChange (Change.singleLine_destroyOf hargs)
  | bdevMap => exact singleLine_readChange (Change.singleLine_mapOf hargs)
  | bdevUnmap => exact singleLine_readChange (Change.singleLine_unmapOf hargs)
  | targetList | help | exit => trivial

theorem singleLine_read? {line : String} (h : Text.SingleLine line) :
    Meets CommandError.SingleLine (fun c? => ∀ c ∈ c?, Command.SingleLine c) (read? line) := by
  rcases read?_cases line with hread | ⟨word, hread, hword⟩ | ⟨word, rest, hread, hrest⟩ <;> rw [hread]
  · exact nofun
  · exact h.mono hword
  · exact (singleLine_ofWord (h.mono hrest) word).map fun c hc _ he => Option.some.inj he ▸ hc

end Command

end BlockShell
