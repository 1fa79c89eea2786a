import BlockShell.Command.Basic
import BlockShell.Proofs.Arguments.Tokens

/-!
# What counts for a target

Which fields count for a target depends on its type alone: `Target.fields` always do, `Kind.fields` do
for a type that is known.  Every reader of a field looks at nothing but this field, so arguments that
agree on the fields that count make the same target or fail in the same way (`Target.ofArguments_congr`).
On a line, `Command.tokens` are what stands between spaces behind the command; only the arguments they
give count (`Command.read?_of_creates`), so nothing immaterial done to them changes what the line says
(`foreign_arguments_ignored`).
-/

namespace BlockShell

/-! ## Fields -/

namespace Arguments

variable {args args' : Arguments} {field : String} (h : args.get? field = args'.get? field)
include h

theorem text_congr : args.text field = args'.text field := by
  unfold text
  rw [h]

theorem nonemptyText_congr : args.nonemptyText field = args'.nonemptyText field := by
  unfold nonemptyText
  rw [text_congr h]

theorem positiveSectors_congr : args.positiveSectors field = args'.positiveSectors field := by
  unfold positiveSectors
  rw [text_congr h]

theorem sectorsOr_congr (n : Sectors) : args.sectorsOr field n = args'.sectorsOr field n := by
  unfold sectorsOr
  rw [h]

theorem flagOr_congr (b : Bool) : args.flagOr field b = args'.flagOr field b := by
  unfold flagOr
  rw [h]

theorem paths_congr : args.paths field = args'.paths field := by
  unfold paths items
  rw [text_congr h]

theorem legs_congr {α : Type} (build : Arguments → Except FieldError α) :
    args.legs build field = args'.legs build field := by
  unfold legs
  rw [nonemptyText_congr h]

end Arguments

/-! ## Layouts -/

/-- The fields of a kind. -/
def Kind.fields : Kind → List String
  | null | inMemory => []
  | plain => ["path"]
  | raid0 | raid5 => ["strip_len_sectors", "paths"]
  | raid1 => ["read_len_sectors_per_path", "paths"]
  | raid4 => ["strip_len_sectors", "data_paths", "parity_path"]
  | raid10 => ["strip_len_sectors", "raid1s"]
  | raid40 => ["strip_len_sectors", "raid4s"]
  | raid50 => ["strip_len_sectors", "raid5s"]

theorem Layout.ofArguments_congr {kind : Kind} {args args' : Arguments}
    (h : Arguments.AgreeOn kind.fields args args') :
    Layout.ofArguments kind args = Layout.ofArguments kind args' := by
  cases kind with
  | null | inMemory => rfl
  | plain =>
    have hpath := h "path" (by decide)
    rw [ofArguments, ofArguments, Arguments.nonemptyText_congr hpath]
  | raid0 =>
    have hstrip := h "strip_len_sectors" (by decide)
    have hpaths := h "paths" (by decide)
    rw [ofArguments, ofArguments, Raid0.ofArguments, Raid0.ofArguments,
      Arguments.positiveSectors_congr hstrip, Arguments.paths_congr hpaths]
  | raid1 =>
    have hread := h "read_len_sectors_per_path" (by decide)
    have hpaths := h "paths" (by decide)
    rw [ofArguments, ofArguments, Raid1.ofArguments, Raid1.ofArguments,
      Arguments.sectorsOr_congr hread, Arguments.paths_congr hpaths]
  | raid4 =>
    have hstrip := h "strip_len_sectors" (by decide)
    have hdata := h "data_paths" (by decide)
    have hparity := h "parity_path" (by decide)
    rw [ofArguments, ofArguments, Raid4.ofArguments, Raid4.ofArguments,
      Arguments.positiveSectors_congr hstrip, Arguments.paths_congr hdata,
      Arguments.nonemptyText_congr hparity]
  | raid5 =>
    have hstrip := h "strip_len_sectors" (by decide)
    have hpaths := h "paths" (by decide)
    rw [ofArguments, ofArguments, Raid5.ofArguments, Raid5.ofArguments,
      Arguments.positiveSectors_congr hstrip, Arguments.paths_congr hpaths]
  | raid10 =>
    have hstrip := h "strip_len_sectors" (by decide)
    have hlegs := h "raid1s" (by decide)
    rw [ofArguments, ofArguments, Arguments.positiveSectors_congr hstrip, Arguments.legs_congr hlegs]
  | raid40 =>
    have hstrip := h "strip_len_sectors" (by decide)
    have hlegs := h "raid4s" (by decide)
    rw [ofArguments, ofArguments, Arguments.positiveSectors_congr hstrip, Arguments.legs_congr hlegs]
  | raid50 =>
    have hstrip := h "strip_len_sectors" (by decide)
    have hlegs := h "raid5s" (by decide)
    rw [ofArguments, ofArguments, Arguments.positiveSectors_congr hstrip, Arguments.legs_congr hlegs]

/-! ## Targets -/

/-- The fields of every target. -/
def Target.fields : List String :=
  ["name", "capacity_sectors", "cache_len_sectors", "cache_write_through_enable", "type"]

/-- The fields that count for a target. -/
def Arguments.fieldsThatCount (args : Arguments) : List String :=
  Target.fields ++
    match (args.get? "type").bind Kind.ofName? with
    | some kind => kind.fields
    | none => []

section Congruence

variable {args args' : Arguments}

theorem Cache.ofArguments_congr (h : Arguments.AgreeOn Target.fields args args') :
    Cache.ofArguments args = Cache.ofArguments args' := by
  have hlength := h "cache_len_sectors" (by decide)
  have hthrough := h "cache_write_through_enable" (by decide)
  rw [ofArguments, ofArguments, Arguments.sectorsOr_congr hlength, Arguments.flagOr_congr hthrough]

/-- The fields that count make up the target, or the error. -/
theorem Target.ofArguments_congr (h : Arguments.AgreeOn args.fieldsThatCount args args') :
    Target.ofArguments args = Target.ofArguments args' := by
  obtain ⟨hfields, hkind⟩ := List.forall_mem_append.1 h
  have hname := hfields "name" (by decide)
  have hcapacity := hfields "capacity_sectors" (by decide)
  have htype := hfields "type" (by decide)
  unfold ofArguments
  rw [Arguments.nonemptyText_congr hname, Arguments.positiveSectors_congr hcapacity,
    Cache.ofArguments_congr hfields]
  refine bind_congr fun name => bind_congr fun capacity => bind_congr fun cache => ?_
  -- The kind is the same for both, and where there is none the layout is not looked at.
  unfold Arguments.text Kind.read
  rw [← htype]
  cases hget : args.get? "type" with
  | none => rfl
  | some value =>
    cases hknown : Kind.ofName? value with
    | none =>
      dsimp only [bind, Except.bind]
      rw [hknown]
    | some kind =>
      have hlayout : Layout.ofArguments kind args = Layout.ofArguments kind args' := by
        refine Layout.ofArguments_congr fun field hfield => hkind field ?_
        rw [hget, Option.bind_some, hknown]
        exact hfield
      dsimp only [bind, Except.bind]
      rw [hknown]
      dsimp only
      rw [hlayout]

end Congruence

/-! ## Lines -/

namespace Command

/-- What follows the first word of a line, from the blank behind it. -/
def tail (line : String) : List Char :=
  (line.toList.dropWhile Text.isBlank).dropWhile fun c => !Text.isBlank c

/-- What stands between spaces behind the first word of a line and the blank after it. -/
def tokens (line : String) : List String :=
  match tail line with
  | [] => []
  | _ :: rest => Text.pieces Arguments.wordDelimiter (String.ofList rest)

/-- A line with the command that creates a target. -/
def Creates (line : String) : Prop := Text.firstWord? line = some Word.targetCreate.text

instance (line : String) : Decidable (Creates line) := inferInstanceAs (Decidable (_ = _))

theorem firstWord?_eq_some {line word : String} (h : Text.firstWord? line = some word) :
    word ≠ "" ∧ (∀ c ∈ word.toList, Text.isBlank c = false) ∧
      line.toList.dropWhile Text.isBlank = word.toList ++ tail line := by
  unfold Text.firstWord? at h
  split at h
  · cases h
  · next hne =>
    cases h
    refine ⟨fun he => hne ?_, fun c hc => ?_, ?_⟩
    · simpa using congrArg String.toList he
    · rw [String.toList_ofList] at hc
      simpa using List.mem_takeWhile_imp hc
    · rw [String.toList_ofList]
      exact List.takeWhile_append_dropWhile.symm

theorem isBlank_of_tail {line : String} {c : Char} {rest : List Char} (h : tail line = c :: rest) :
    Text.isBlank c = true := by
  have hhead : (tail line).head? = some c := by
    rw [h, List.head?_cons]
  have hstop := List.head?_dropWhile_not (fun c => !Text.isBlank c)
    (line.toList.dropWhile Text.isBlank)
  unfold tail at hhead
  rw [hhead] at hstop
  simpa using hstop

/-- A line is trimmed at the end of what follows its first word. -/
theorem trim_eq {line word : String} (h : Text.firstWord? line = some word) :
    (Text.trim line).toList = word.toList ++ (tail line).rdropWhile Text.isBlank := by
  obtain ⟨-, hword, hline⟩ := firstWord?_eq_some h
  have hself : word.toList.rdropWhile Text.isBlank = word.toList := by
    refine List.rdropWhile_eq_self_iff.2 fun hne => ?_
    simp [hword _ (List.getLast_mem hne)]
  calc (Text.trim line).toList
      = (line.toList.dropWhile Text.isBlank).rdropWhile Text.isBlank := Text.toList_trim line
    _ = word.toList ++ (tail line).rdropWhile Text.isBlank := by
      rw [hline, Text.rdropWhile_append, hself]
      split
      · next hnil => rw [hnil, List.append_nil]
      · rfl

/-- Blanks at the end of a line do not count for its arguments. -/
theorem splitWord_trim {line word : String} (h : Text.firstWord? line = some word) :
    ∃ rest, splitWord (Text.trim line) = (word, rest) ∧
      Arguments.ofText Arguments.wordDelimiter rest = .ofTokens (tokens line) := by
  obtain ⟨-, hword, -⟩ := firstWord?_eq_some h
  have htrim := trim_eq h
  have halone (hnil : (tail line).rdropWhile Text.isBlank = []) :
      splitWord (Text.trim line) = (word, "") := by
    have hline : Text.trim line = word := by
      rw [← String.toList_inj, htrim, hnil, List.append_nil]
    rw [splitWord, hline, Text.cutAt?_eq_none hword, Option.getD_none]
  cases htail : tail line with
  | nil =>
    refine ⟨"", halone (by rw [htail]; rfl), ?_⟩
    unfold tokens
    rw [htail]
    rfl
  | cons c rest =>
    have htokens : Arguments.ofTokens (tokens line) =
        .ofText Arguments.wordDelimiter (String.ofList (rest.rdropWhile Text.isBlank)) := by
      unfold tokens
      rw [htail]
      exact congrArg Table.ofList (Arguments.pairs_rdropWhile _ rest).symm
    refine ⟨_, ?_, htokens.symm⟩
    have hcons := Text.rdropWhile_append [c] rest (p := Text.isBlank)
    rw [List.singleton_append] at hcons
    by_cases hrest : rest.rdropWhile Text.isBlank = []
    · rw [hrest]
      refine halone ?_
      rw [htail, hcons, if_pos hrest]
      simp [isBlank_of_tail htail]
    · have hline : Text.trim line =
          word ++ String.singleton c ++ String.ofList (rest.rdropWhile Text.isBlank) := by
        rw [← String.toList_inj, htrim, htail, hcons, if_neg hrest]
        simp
      rw [splitWord, hline, Text.cutAt?_append hword (isBlank_of_tail htail), Option.getD_some]

/-- What a line that creates a target says depends on the arguments that its tokens give. -/
theorem read?_of_creates {line : String} (h : Creates line) :
    read? line =
      match Target.ofArguments (.ofTokens (tokens line)) with
      | .ok target => .ok (some (.change (.create target)))
      | .error cause => .error (.arguments .targetCreate cause) := by
  obtain ⟨rest, hsplit, hargs⟩ := splitWord_trim h
  have hne : Text.trim line ≠ "" := by
    rw [← String.toList_inj.ne, trim_eq h]
    simp [Word.text]
  rw [read?, if_neg hne, hsplit]
  dsimp only
  rw [Word.ofText?_text]
  dsimp only
  rw [ofWord, readChange, hargs, Change.createOf]
  cases Target.ofArguments (.ofTokens (tokens line)) <;> rfl

end Command

/-- Arguments that agree on the fields that count make the same target or fail in the same way, whatever
else is given.  So a line that creates a target says the same if something immaterial is done to its
tokens. -/
theorem foreign_arguments_ignored :
    (∀ args args' : Arguments, args.AgreeOn args.fieldsThatCount args' →
      Target.ofArguments args' = Target.ofArguments args) ∧
    ∀ line line' : String, Command.Creates line → Command.Creates line' →
      Arguments.Immaterial (Arguments.ofTokens (Command.tokens line)).fieldsThatCount
        (Command.tokens line) (Command.tokens line') →
      Command.read? line' = Command.read? line := by
  refine ⟨fun args args' h => (Target.ofArguments_congr h).symm, fun line line' hline hline' h => ?_⟩
  rw [Command.read?_of_creates hline, Command.read?_of_creates hline',
    Target.ofArguments_congr h.agreeOn]

/-- A line that creates a target with copies on two paths. -/
def mirrorLine : String := "target_create name=m type=raid1 capacity_sectors=8 paths=/a,/b"

/-- The line after each of the immaterial changes: tokens in another order, a word, a field of another
kind, spaces, and paths that are given again later. -/
def mirrorLines : List String := [
  "target_create paths=/a,/b capacity_sectors=8 name=m type=raid1",
  "target_create name=m type=raid1 capacity_sectors=8 paths=/a,/b verbose\t",
  "target_create name=m strip_len_sectors=none type=raid1 capacity_sectors=8 paths=/a,/b",
  " target_create\t name=m  type=raid1 capacity_sectors=8 paths=/a,/b  ",
  "target_create name=m \tpaths\t=, type=raid1 capacity_sectors=8 paths=/a,/b"]

theorem foreign_arguments_ignored_of_mirrorLine :
    let fields := (Arguments.ofTokens (Command.tokens mirrorLine)).fieldsThatCount
    let args := Arguments.ofText ' ' "name=p capacity_sectors=1 type=default path="
    let args' := Arguments.ofText ' ' "name=p capacity_sectors=1 type=default path= paths=,"
    Command.Creates mirrorLine ∧
      (∀ line ∈ mirrorLines, Command.Creates line ∧
        Arguments.Immaterial fields (Command.tokens mirrorLine) (Command.tokens line) ∧
        Command.read? line =
          .ok (some (.change (.create ⟨"m", 8, none, .raid1 ⟨0, [⟨"/a"⟩, ⟨"/b"⟩]⟩⟩)))) ∧
      args.AgreeOn args.fieldsThatCount args' ∧
      Target.ofArguments args' = .error (.missing "path") := by
  intro fields args args'
  obtain ⟨hargs, hlines⟩ := foreign_arguments_ignored
  have hline : Command.Creates mirrorLine := by decide +kernel
  have hread : Command.read? mirrorLine =
      .ok (some (.change (.create ⟨"m", 8, none, .raid1 ⟨0, [⟨"/a"⟩, ⟨"/b"⟩]⟩⟩))) := by
    decide +kernel
  have hcreates : ∀ line ∈ mirrorLines, Command.Creates line := by
    have hwords : mirrorLines.map Text.firstWord? = List.replicate 5 (some "target_create") := by
      decide +kernel
    intro line h
    exact List.eq_of_mem_replicate (hwords ▸ List.mem_map_of_mem h)
  have himmaterial : ∀ tokens ∈ mirrorLines.map Command.tokens,
      Arguments.Immaterial fields (Command.tokens mirrorLine) tokens := by
    have htokens : Command.tokens mirrorLine =
        ["name=m", "type=raid1", "capacity_sectors=8", "paths=/a,/b"] := by
      decide +kernel
    have htokens' : mirrorLines.map Command.tokens = [
        ["paths=/a,/b", "capacity_sectors=8", "name=m", "type=raid1"],
        ["name=m", "type=raid1", "capacity_sectors=8", "paths=/a,/b", "verbose\t"],
        ["name=m", "strip_len_sectors=none", "type=raid1", "capacity_sectors=8", "paths=/a,/b"],
        ["", "name=m", "", "type=raid1", "capacity_sectors=8", "paths=/a,/b", "", ""],
        ["name=m", "\tpaths\t=,", "type=raid1", "capacity_sectors=8", "paths=/a,/b"]] := by
      decide +kernel
    have hfields : fields = Target.fields ++ Kind.raid1.fields := by
      unfold fields
      rw [htokens]
      decide +kernel
    rw [htokens, htokens', hfields]
    refine List.forall_mem_cons.2 ⟨?order, List.forall_mem_cons.2 ⟨?bare, List.forall_mem_cons.2
      ⟨?foreign, List.forall_mem_cons.2 ⟨?spaces, List.forall_mem_singleton.2 ?shadowed⟩⟩⟩⟩
    case order =>
      exact .reorder (by decide +kernel) (by decide +kernel)
    case bare =>
      have hbare : '=' ∉ "verbose\t".toList := by decide
      exact .bare ["name=m", "type=raid1", "capacity_sectors=8", "paths=/a,/b"] [] hbare
    case foreign =>
      have hkey : Arguments.key? "strip_len_sectors=none" = some "strip_len_sectors" := by
        decide +kernel
      exact .foreign ["name=m"] ["type=raid1", "capacity_sectors=8", "paths=/a,/b"] hkey (by decide)
    case spaces =>
      exact .spaces (by decide +kernel)
    case shadowed =>
      have hkey : Arguments.key? "\tpaths\t=," = some "paths" := by decide +kernel
      have hagain : Arguments.key? "paths=/a,/b" = some "paths" := by decide +kernel
      exact .shadowed ["name=m"] ["type=raid1", "capacity_sectors=8"] [] hkey hagain
  have hagree : args.AgreeOn args.fieldsThatCount args' := by decide +kernel
  refine ⟨hline, fun line h => ?_, hagree, ?_⟩
  · have hstep := himmaterial _ (List.mem_map_of_mem h)
    refine ⟨hcreates line h, hstep, ?_⟩
    rw [hlines mirrorLine line hline (hcreates line h) hstep, hread]
  · rw [hargs args args' hagree]
    decide +kernel

end BlockShell
