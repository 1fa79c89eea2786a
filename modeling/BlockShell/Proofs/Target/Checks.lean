import BlockShell.Target.OfArguments

/-!
# The checks of a target

Which checks a target's arguments go through depends on the kind alone, legs apart: `Target.checks`
are those of every target, `Kind.checks` those of a kind, and a composite then has the checks of its
legs' kind once for each leg.  Whether a check fails does not depend on the others.  To build a target
is to report the first check that fails, or, if none does, to take the values as they are given
(`reports_first_failure`).
-/

namespace BlockShell

/-! ## Checks -/

/-- A condition on the arguments of a target. -/
inductive Check where
  /-- There is a text, and it is not empty. -/
  | nonempty (field : String)
  /-- There is an unsigned number of 64 bits, and it is not zero. -/
  | positive (field : String)
  /-- What is there is an unsigned number of 64 bits. -/
  | number (field : String)
  /-- What is there is a signed number of 64 bits. -/
  | flag (field : String)
  /-- There is the name of a kind. -/
  | kind (field : String)
  /-- There is a list, and none of its items is empty. -/
  | items (field : String)
  /-- A path that is none of those in a list. -/
  | apart (field list : String)
  deriving Repr, DecidableEq

/-- The checks of every target, whatever its kind. -/
def Target.checks : List Check :=
  [.nonempty "name", .positive "capacity_sectors", .number "cache_len_sectors",
    .flag "cache_write_through_enable", .kind "type"]

/-- The checks of a kind, those of legs apart. -/
def Kind.checks : Kind → List Check
  | null | inMemory => []
  | plain => [.nonempty "path"]
  | raid0 | raid5 => [.positive "strip_len_sectors", .items "paths"]
  | raid1 => [.number "read_len_sectors_per_path", .items "paths"]
  | raid4 => [.positive "strip_len_sectors", .items "data_paths", .nonempty "parity_path",
      .apart "parity_path" "data_paths"]
  | raid10 => [.positive "strip_len_sectors", .nonempty "raid1s"]
  | raid40 => [.positive "strip_len_sectors", .nonempty "raid4s"]
  | raid50 => [.positive "strip_len_sectors", .nonempty "raid5s"]

/-- The field that holds the legs of a composite, and the kind of the legs. -/
def Kind.legs? : Kind → Option (String × Kind)
  | raid10 => some ("raid1s", raid1)
  | raid40 => some ("raid4s", raid4)
  | raid50 => some ("raid5s", raid5)
  | _ => none

/-! ## Values as they are given

Where there is no proper value something else is put in its place, which does not matter, because a
check fails then. -/

namespace Arguments

variable (args : Arguments)

/-- The text in a field; one that is absent is empty. -/
def givenText (field : String) : String := (args.get? field).getD ""

/-- A number that is absent is zero. -/
def givenSectors (field : String) : Sectors :=
  ((args.get? field).bind fun value => Text.word? (Text.trim value)).getD 0

/-- The flag in a field, or its default. -/
def givenFlag (field : String) (default : Bool) : Bool :=
  ((args.get? field).bind fun value => Text.flag? (Text.trim value)).getD default

/-- The kind that a field names. -/
def givenKind (field : String) : Kind := ((args.get? field).bind Kind.ofName?).getD .null

/-- The items of the list in a field, which stand between commas. -/
def givenItems (field : String) : List String :=
  (Text.pieces ',' (args.givenText field)).map Text.trim

/-- The paths in a field. -/
def givenPaths (field : String) : List Path := (args.givenItems field).map Path.mk

/-- The texts of the legs in a field, which stand between colons. -/
def givenGroups (field : String) : List String := Text.pieces ':' (args.givenText field)

end Arguments

/-- The characters that quote a leg. -/
def quotes : List Char := ['"', '\'']

/-- A text without its quotes. -/
def unquoted (s : String) : String := String.ofList (s.toList.filter (· ∉ quotes))

/-- The arguments of a leg, which stand between semicolons; quotes do not count. -/
def Arguments.givenLeg (group : String) : Arguments := .ofText ';' (unquoted group)

/-- A stripe with the values as they are given. -/
def Raid0.given (args : Arguments) : Raid0 :=
  ⟨args.givenSectors "strip_len_sectors", args.givenPaths "paths"⟩

/-- Copies with the values as they are given. -/
def Raid1.given (args : Arguments) : Raid1 :=
  ⟨args.givenSectors "read_len_sectors_per_path", args.givenPaths "paths"⟩

/-- A stripe with parity, with the values as they are given. -/
def Raid4.given (args : Arguments) : Raid4 :=
  ⟨args.givenSectors "strip_len_sectors", args.givenPaths "data_paths",
    ⟨args.givenText "parity_path"⟩⟩

/-- A stripe with distributed parity, with the values as they are given. -/
def Raid5.given (args : Arguments) : Raid5 :=
  ⟨args.givenSectors "strip_len_sectors", args.givenPaths "paths"⟩

/-- The legs in a field, each from its own arguments. -/
def givenLegs {α : Type} (given : Arguments → α) (args : Arguments) (field : String) : List α :=
  (args.givenGroups field).map fun group => given (.givenLeg group)

/-- The layout of a kind with the values as they are given. -/
def Layout.given (kind : Kind) (args : Arguments) : Layout :=
  match kind with
  | .null => null
  | .inMemory => inMemory
  | .plain => plain ⟨args.givenText "path"⟩
  | .raid0 => raid0 (.given args)
  | .raid1 => raid1 (.given args)
  | .raid4 => raid4 (.given args)
  | .raid5 => raid5 (.given args)
  | .raid10 => raid10 (args.givenSectors "strip_len_sectors") (givenLegs Raid1.given args "raid1s")
  | .raid40 => raid40 (args.givenSectors "strip_len_sectors") (givenLegs Raid4.given args "raid4s")
  | .raid50 => raid50 (args.givenSectors "strip_len_sectors") (givenLegs Raid5.given args "raid5s")

/-- A cache is there if its length is not zero. -/
def Cache.given (args : Arguments) : Option Cache :=
  let length := args.givenSectors "cache_len_sectors"
  if 0 < length then some ⟨length, args.givenFlag "cache_write_through_enable" true⟩ else none

/-- The target with the values as they are given. -/
def Target.given (args : Arguments) : Target where
  name := args.givenText "name"
  capacity := args.givenSectors "capacity_sectors"
  cache := Cache.given args
  layout := .given (args.givenKind "type") args

/-! ## Failures -/

/-- Why arguments fail a check, if they do. -/
def Check.failure? (args : Arguments) : Check → Option FieldError
  | nonempty field => if args.givenText field = "" then some (.missing field) else none
  | positive field =>
    match args.get? field with
    | none => some (.missing field)
    | some value =>
      let n := Text.word? (Text.trim value)
      if n = none ∨ n = some 0 then some (.invalid field value) else none
  | number field =>
    (args.get? field).bind fun value =>
      if Text.word? (Text.trim value) = none then some (.invalid field value) else none
  | flag field =>
    (args.get? field).bind fun value =>
      if Text.flag? (Text.trim value) = none then some (.invalid field value) else none
  | kind field =>
    match args.get? field with
    | none => some (.missing field)
    | some value =>
      if value ∈ Kind.all.map Kind.name then none else some (.unknownKind value)
  | items field =>
    if "" ∈ args.givenItems field then some (.missing field) else none
  | apart field list =>
    if ∃ p ∈ args.givenPaths list, p.SameAs ⟨args.givenText field⟩ then
      some (.reusedPath field (args.givenText field))
    else none

/-- The failures of checks, in the order of the checks. -/
def failures (args : Arguments) (checks : List Check) : List FieldError :=
  checks.filterMap (Check.failure? args)

/-- The failures of legs from left to right; `groups` are their texts, the first one being that of the
leg at `position`. -/
def legFailures (field : String) (checks : List Check) (groups : List String) (position : Nat) :
    List FieldError :=
  (groups.zipIdx position).flatMap fun (group, position) =>
    (failures (.givenLeg group) checks).map (.inLeg field position)

/-- Every failure of the arguments of a kind, those of the legs after its own. -/
def Kind.failures (kind : Kind) (args : Arguments) : List FieldError :=
  BlockShell.failures args kind.checks ++
    match kind.legs? with
    | none => []
    | some (field, leg) => legFailures field leg.checks (args.givenGroups field) 0

/-- Every failure of the arguments of a target, in the order of the checks. -/
def Target.failures (args : Arguments) : List FieldError :=
  BlockShell.failures args Target.checks ++ (args.givenKind "type").failures args

/-! ## Verdicts -/

/-- The first failure, or a value if there is none. -/
def verdict {α : Type} (failures : List FieldError) (a : α) : Except FieldError α :=
  match failures with
  | [] => .ok a
  | first :: _ => .error first

section Verdict

variable {α β : Type} {a : α} {b : β} {l l' : List FieldError} {x : Except FieldError α}

theorem verdict_eq_error_iff {e : FieldError} : verdict l a = .error e ↔ l.head? = some e := by
  cases l <;> simp [verdict]

theorem verdict_eq_ok_iff {a' : α} : verdict l a = .ok a' ↔ l = [] ∧ a = a' := by
  cases l <;> simp [verdict]

theorem map_verdict (f : α → β) : (verdict l a).map f = verdict l (f a) := by cases l <;> rfl

/-- What is checked later does not matter if an earlier check fails. -/
theorem bind_eq_verdict {f : α → Except FieldError β} (hx : x = verdict l a)
    (hf : f a = verdict l' b) : x >>= f = verdict (l ++ l') b := by
  subst hx
  cases l with
  | nil => exact hf
  | cons first rest => rfl

theorem failures_append (args : Arguments) (checks checks' : List Check) :
    failures args (checks ++ checks') = failures args checks ++ failures args checks' :=
  List.filterMap_append

/-- The first of several checks. -/
theorem bind_eq_verdict_cons {args : Arguments} {c : Check} {checks : List Check}
    {f : α → Except FieldError β} (hx : x = verdict (failures args [c]) a)
    (hf : f a = verdict (failures args checks) b) :
    x >>= f = verdict (failures args (c :: checks)) b := by
  rw [← List.singleton_append, failures_append]
  exact bind_eq_verdict hx hf

/-- The verdict of a single check. -/
theorem verdict_single (args : Arguments) (c : Check) (a : α) :
    verdict (failures args [c]) a =
      match c.failure? args with
      | none => .ok a
      | some e => .error e := by
  unfold failures
  rw [List.filterMap_cons]
  cases c.failure? args <;> rfl

theorem pure_eq_verdict (args : Arguments) (a : α) : pure a = verdict (failures args []) a := rfl

end Verdict

/-! ## Fields -/

namespace Arguments

variable (args : Arguments) (field : String)

theorem givenText_of_get? {value : String} (h : args.get? field = some value) :
    args.givenText field = value := by
  simp [givenText, h]

theorem givenText_of_absent (h : args.get? field = none) : args.givenText field = "" := by
  simp [givenText, h]

theorem nonemptyText_eq :
    args.nonemptyText field = verdict (failures args [.nonempty field]) (args.givenText field) := by
  rw [verdict_single]
  unfold nonemptyText text
  dsimp only [Check.failure?]
  cases hget : args.get? field with
  | none =>
    rw [givenText_of_absent args field hget]
    rfl
  | some value =>
    rw [givenText_of_get? args field hget]
    by_cases h : value = ""
    · subst h
      rfl
    · simp [h, bind, Except.bind, pure, Except.pure]

theorem positiveSectors_eq : args.positiveSectors field =
    verdict (failures args [.positive field]) (args.givenSectors field) := by
  rw [verdict_single]
  unfold positiveSectors text readSectors givenSectors
  dsimp only [Check.failure?]
  cases args.get? field with
  | none => rfl
  | some value =>
    dsimp only [Option.bind_some, bind, Except.bind]
    cases Text.word? (Text.trim value) with
    | none => rfl
    | some n =>
      by_cases h : n = 0
      · subst h
        rfl
      · simp [h, pure, Except.pure]

theorem sectorsOr_eq : args.sectorsOr field 0 =
    verdict (failures args [.number field]) (args.givenSectors field) := by
  rw [verdict_single]
  unfold sectorsOr readSectors givenSectors
  dsimp only [Check.failure?]
  cases args.get? field with
  | none => rfl
  | some value =>
    dsimp only [Option.bind_some]
    cases Text.word? (Text.trim value) <;> rfl

theorem flagOr_eq (default : Bool) : args.flagOr field default =
    verdict (failures args [.flag field]) (args.givenFlag field default) := by
  rw [verdict_single]
  unfold flagOr readFlag givenFlag
  dsimp only [Check.failure?]
  cases args.get? field with
  | none => rfl
  | some value =>
    dsimp only [Option.bind_some]
    cases Text.flag? (Text.trim value) <;> rfl

theorem paths_eq :
    args.paths field = verdict (failures args [.items field]) (args.givenPaths field) := by
  rw [verdict_single]
  unfold paths items text givenPaths
  dsimp only [Check.failure?]
  cases hget : args.get? field with
  | none =>
    have hitems : args.givenItems field = [""] := by
      rw [givenItems, givenText_of_absent args field hget]
      rfl
    rw [hitems]
    rfl
  | some value =>
    have hitems : args.givenItems field = readItems value := by
      rw [givenItems, givenText_of_get? args field hget]
      rfl
    rw [hitems]
    by_cases h : "" ∈ readItems value <;>
      simp [h, bind, Except.bind, Except.map, pure, Except.pure, throw, throwThe,
        MonadExceptOf.throw]

/-- The name of a kind is checked when it is read. -/
theorem kind_eq : args.text field >>= Kind.read =
    verdict (failures args [.kind field]) (args.givenKind field) := by
  rw [verdict_single]
  unfold text givenKind
  dsimp only [Check.failure?]
  cases args.get? field with
  | none => rfl
  | some value =>
    dsimp only [Option.bind_some, bind, Except.bind, Kind.read]
    cases h : Kind.ofName? value with
    | none =>
      have hnot : value ∉ Kind.all.map Kind.name := by
        intro hmem
        obtain ⟨kind, -, rfl⟩ := List.mem_map.1 hmem
        rw [Kind.ofName?_name] at h
        cases h
      rw [if_neg hnot]
    | some kind =>
      have hmem : value ∈ Kind.all.map Kind.name :=
        List.mem_map.2 ⟨kind, kind.mem_all, Kind.name_of_ofName? h⟩
      rw [if_pos hmem]
      rfl

end Arguments

/-! ## Quotes -/

theorem dropQuotes_eq_unquoted (s : String) : dropQuotes s = unquoted s := by
  refine congrArg String.ofList (List.filter_congr fun c _ => Bool.eq_iff_iff.2 ?_)
  simp [quotes]

theorem Arguments.ofLeg_eq (group : String) : ofLeg group = givenLeg group :=
  congrArg (ofText ';') (dropQuotes_eq_unquoted group)

/-! ## Layouts -/

section Layouts

variable (args : Arguments)

theorem Raid0.ofArguments_eq :
    Raid0.ofArguments args = verdict (failures args Kind.raid0.checks) (.given args) :=
  bind_eq_verdict_cons (args.positiveSectors_eq _) <|
    bind_eq_verdict_cons (args.paths_eq _) (pure_eq_verdict args _)

theorem Raid1.ofArguments_eq :
    Raid1.ofArguments args = verdict (failures args Kind.raid1.checks) (.given args) :=
  bind_eq_verdict_cons (args.sectorsOr_eq _) <|
    bind_eq_verdict_cons (args.paths_eq _) (pure_eq_verdict args _)

theorem Raid4.ofArguments_eq :
    Raid4.ofArguments args = verdict (failures args Kind.raid4.checks) (.given args) := by
  refine bind_eq_verdict_cons (args.positiveSectors_eq _) <|
    bind_eq_verdict_cons (args.paths_eq _) <| bind_eq_verdict_cons (args.nonemptyText_eq _) ?_
  rw [verdict_single]
  dsimp only [Check.failure?]
  split <;> rfl

theorem Raid5.ofArguments_eq :
    Raid5.ofArguments args = verdict (failures args Kind.raid5.checks) (.given args) :=
  bind_eq_verdict_cons (args.positiveSectors_eq _) <|
    bind_eq_verdict_cons (args.paths_eq _) (pure_eq_verdict args _)

section Legs

variable {α : Type} {build : Arguments → Except FieldError α} {checks : List Check}
  {given : Arguments → α} (hbuild : ∀ args, build args = verdict (failures args checks) (given args))
include hbuild

theorem buildLegs_eq (field : String) (groups : List String) (position : Nat) :
    buildLegs build field position groups =
      verdict (legFailures field checks groups position)
        (groups.map fun group => given (.givenLeg group)) := by
  induction groups generalizing position with
  | nil => rfl
  | cons group groups ih =>
    have hcons : legFailures field checks (group :: groups) position =
        (failures (.givenLeg group) checks).map (.inLeg field position) ++
          legFailures field checks groups (position + 1) := by
      unfold legFailures
      rw [List.zipIdx_cons, List.flatMap_cons]
    rw [buildLegs, Arguments.ofLeg_eq, hbuild, hcons]
    cases failures (.givenLeg group) checks with
    | nil =>
      rw [ih]
      exact map_verdict _
    | cons first rest => rfl

theorem legs_eq (field : String) :
    args.legs build field =
      verdict (failures args [.nonempty field] ++
        legFailures field checks (args.givenGroups field) 0) (givenLegs given args field) :=
  bind_eq_verdict (args.nonemptyText_eq field) (buildLegs_eq hbuild field _ 0)

/-- A composite: its strip length, then its legs. -/
theorem composite_eq (field : String) (make : Sectors → List α → Layout) :
    (do
      let stripLength ← args.positiveSectors "strip_len_sectors"
      return make stripLength (← args.legs build field)) =
      verdict (failures args [.positive "strip_len_sectors", .nonempty field] ++
        legFailures field checks (args.givenGroups field) 0)
        (make (args.givenSectors "strip_len_sectors") (givenLegs given args field)) := by
  rw [← List.singleton_append, failures_append, List.append_assoc]
  refine bind_eq_verdict (args.positiveSectors_eq _) ?_
  rw [legs_eq args hbuild]
  exact map_verdict (make _)

end Legs

theorem Kind.failures_of_single {kind : Kind} (h : kind.legs? = none) :
    kind.failures args = BlockShell.failures args kind.checks := by
  unfold Kind.failures
  rw [h]
  exact List.append_nil _

theorem Layout.ofArguments_eq (kind : Kind) :
    Layout.ofArguments kind args = verdict (kind.failures args) (.given kind args) := by
  cases kind with
  | null | inMemory => rfl
  | plain =>
    rw [Kind.failures_of_single args rfl, Layout.ofArguments, args.nonemptyText_eq]
    exact map_verdict _
  | raid0 =>
    rw [Kind.failures_of_single args rfl, Layout.ofArguments, Raid0.ofArguments_eq]
    exact map_verdict _
  | raid1 =>
    rw [Kind.failures_of_single args rfl, Layout.ofArguments, Raid1.ofArguments_eq]
    exact map_verdict _
  | raid4 =>
    rw [Kind.failures_of_single args rfl, Layout.ofArguments, Raid4.ofArguments_eq]
    exact map_verdict _
  | raid5 =>
    rw [Kind.failures_of_single args rfl, Layout.ofArguments, Raid5.ofArguments_eq]
    exact map_verdict _
  | raid10 => exact composite_eq args Raid1.ofArguments_eq "raid1s" .raid10
  | raid40 => exact composite_eq args Raid4.ofArguments_eq "raid4s" .raid40
  | raid50 => exact composite_eq args Raid5.ofArguments_eq "raid5s" .raid50

end Layouts

/-! ## Targets -/

theorem Cache.ofArguments_eq (args : Arguments) : Cache.ofArguments args =
    verdict (failures args [.number "cache_len_sectors", .flag "cache_write_through_enable"])
      (Cache.given args) :=
  bind_eq_verdict_cons (args.sectorsOr_eq _) <|
    bind_eq_verdict_cons (args.flagOr_eq _ true) (pure_eq_verdict args _)

namespace Target

theorem ofArguments_eq (args : Arguments) :
    ofArguments args = verdict (failures args) (given args) := by
  have hchecks : checks = [.nonempty "name"] ++ ([.positive "capacity_sectors"] ++
      ([.number "cache_len_sectors", .flag "cache_write_through_enable"] ++ [.kind "type"])) := rfl
  unfold failures ofArguments
  rw [hchecks]
  simp only [failures_append, List.append_assoc, ← bind_assoc (args.text "type")]
  refine bind_eq_verdict (args.nonemptyText_eq _) <|
    bind_eq_verdict (args.positiveSectors_eq _) <|
    bind_eq_verdict (Cache.ofArguments_eq args) <| bind_eq_verdict (args.kind_eq _) ?_
  rw [Layout.ofArguments_eq]
  exact map_verdict _

/-- What is wrong with a target is the first check that fails, and a target for which no check fails is
built from the values as they are given. -/
theorem reports_first_failure (args : Arguments) :
    (∀ e, ofArguments args = .error e ↔ (failures args).head? = some e) ∧
      ∀ t, ofArguments args = .ok t ↔ failures args = [] ∧ given args = t := by
  rw [ofArguments_eq]
  exact ⟨fun _ => verdict_eq_error_iff, fun _ => verdict_eq_ok_iff⟩

end Target

end BlockShell
