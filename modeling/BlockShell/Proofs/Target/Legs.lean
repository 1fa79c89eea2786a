import BlockShell.Proofs.Target.Checks
import BlockShell.Proofs.Target.OfArguments
import BlockShell.Proofs.Text.Cut

/-!
# Legs

A composite is built from its legs, each built for itself from a piece of the leg list: from all of
them, or not at all because of the first one that fails (`buildLegs_cases`).  Nothing else that is given
for the composite counts for its legs, and quotes do not count anywhere in the list
(`built_leg_by_leg`).
-/

namespace BlockShell

/-! ## Quotes -/

theorem splitOn_filter {d : Char} {p : Char → Bool} (hd : p d = true) (cs : List Char) :
    (cs.filter p).splitOn d = (cs.splitOn d).map (List.filter p) := by
  induction cs with
  | nil => rfl
  | cons c cs ih =>
    obtain ⟨first, rest, hsplit⟩ := List.exists_cons_of_ne_nil (List.splitOn_ne_nil d cs)
    rw [hsplit] at ih
    by_cases hc : c = d
    · subst hc
      rw [List.filter_cons_of_pos hd, List.splitOn_cons_eq_if_modifyHead, ih,
        List.splitOn_cons_eq_if_modifyHead, hsplit]
      simp
    · by_cases hp : p c = true
      · rw [List.filter_cons_of_pos hp, List.splitOn_cons_eq_if_modifyHead, ih,
          List.splitOn_cons_eq_if_modifyHead, hsplit]
        simp [hc, hp]
      · rw [List.filter_cons_of_neg hp, ih, List.splitOn_cons_eq_if_modifyHead, hsplit]
        simp [hc, hp]

/-- Quotes may be dropped before a leg list is cut or afterwards. -/
theorem pieces_dropQuotes (list : String) :
    Text.pieces Arguments.legDelimiter (dropQuotes list) =
      (Text.pieces Arguments.legDelimiter list).map dropQuotes := by
  unfold Text.pieces dropQuotes
  rw [String.toList_ofList, splitOn_filter (by decide), List.map_map, List.map_map]
  refine List.map_congr_left fun cs _ => ?_
  simp

/-! ## One leg after the other -/

section Building

variable {α : Type} (build : Arguments → Except FieldError α) (field : String)

/-- Either all legs are built, or the first one that is not is reported. -/
theorem buildLegs_cases (position : Nat) (groups : List String) :
    (∃ legs, groups.map (fun group => build (.ofLeg group)) = legs.map .ok ∧
      buildLegs build field position groups = .ok legs) ∨
    ∃ (before : List α) (cause : FieldError) (after : List (Except FieldError α)),
      groups.map (fun group => build (.ofLeg group)) = before.map .ok ++ .error cause :: after ∧
      buildLegs build field position groups =
        .error (.inLeg field (position + before.length) cause) := by
  induction groups generalizing position with
  | nil => exact .inl ⟨[], rfl, rfl⟩
  | cons group groups ih =>
    rw [List.map_cons, buildLegs]
    cases build (.ofLeg group) with
    | error cause => exact .inr ⟨[], cause, _, rfl, rfl⟩
    | ok leg =>
      rcases ih (position + 1) with ⟨legs, hresults, hbuilt⟩ | ⟨before, cause, after, hresults, hbuilt⟩
      · refine .inl ⟨leg :: legs, ?_, ?_⟩
        · rw [hresults, List.map_cons]
        · rw [hbuilt]
          rfl
      · refine .inr ⟨leg :: before, cause, after, ?_, ?_⟩
        · rw [hresults, List.map_cons, List.cons_append]
        · rw [hbuilt, List.length_cons, Nat.add_comm before.length, ← Nat.add_assoc]
          rfl

/-- The legs depend on nothing but their arguments. -/
theorem buildLegs_congr (position : Nat) {groups groups' : List String}
    (h : groups.map dropQuotes = groups'.map dropQuotes) :
    buildLegs build field position groups = buildLegs build field position groups' := by
  induction groups generalizing groups' position with
  | nil =>
    cases groups' with
    | nil => rfl
    | cons group' groups' => cases h
  | cons group groups ih =>
    cases groups' with
    | nil => cases h
    | cons group' groups' =>
      obtain ⟨hgroup, hrest⟩ := List.cons.inj h
      have hargs : Arguments.ofLeg group = .ofLeg group' := by
        unfold Arguments.ofLeg
        rw [hgroup]
      rw [buildLegs, buildLegs, hargs, ih (position + 1) hrest]

end Building

/-! ## Composites -/

/-- The legs of a composite, each as a layout of its own. -/
def Layout.legs : Layout → List Layout
  | raid10 _ legs => legs.map raid1
  | raid40 _ legs => legs.map raid4
  | raid50 _ legs => legs.map raid5
  | _ => []

/-- A field holds a number of sectors other than zero. -/
def Arguments.HoldsPositive (args : Arguments) (field : String) (n : Sectors) : Prop :=
  ∃ value, args.get? field = some value ∧ Text.word? (Text.trim value) = some n ∧ n ≠ 0

/-- A field holds a text that is not empty. -/
def Arguments.HoldsText (args : Arguments) (field value : String) : Prop :=
  args.get? field = some value ∧ value ≠ ""

section Composites

variable {kind leg : Kind} {field list : String} {args : Arguments} {n : Sectors}

/-- How composites of a kind are put together from legs. -/
theorem exists_make (h : kind.legs? = some (field, leg)) :
    ∃ (α : Type) (build : Arguments → Except FieldError α) (single : α → Layout)
      (make : Sectors → List α → Layout),
      (∀ args, Layout.ofArguments leg args = (build args).map single) ∧
      (∀ args, Layout.ofArguments kind args = (do
        let stripLength ← args.positiveSectors "strip_len_sectors"
        return make stripLength (← args.legs build field))) ∧
      ∀ n legs, (make n legs).legs = legs.map single := by
  cases kind with
  | raid10 =>
    cases h
    exact ⟨Raid1, Raid1.ofArguments, .raid1, .raid10, fun _ => rfl, fun _ => rfl, fun _ _ => rfl⟩
  | raid40 =>
    cases h
    exact ⟨Raid4, Raid4.ofArguments, .raid4, .raid40, fun _ => rfl, fun _ => rfl, fun _ _ => rfl⟩
  | raid50 =>
    cases h
    exact ⟨Raid5, Raid5.ofArguments, .raid5, .raid50, fun _ => rfl, fun _ => rfl, fun _ _ => rfl⟩
  | null | inMemory | plain | raid0 | raid1 | raid4 | raid5 => cases h

/-- With a proper strip length and a leg list, a composite comes to what its legs come to. -/
theorem composite_of_holds {α : Type} {build : Arguments → Except FieldError α}
    {make : Sectors → List α → Layout} (hstrip : args.HoldsPositive "strip_len_sectors" n)
    (hlist : args.HoldsText field list) :
    (do
      let stripLength ← args.positiveSectors "strip_len_sectors"
      return make stripLength (← args.legs build field)) =
      (buildLegs build field 0 (Text.pieces Arguments.legDelimiter list)).map (make n) := by
  rw [Arguments.positiveSectors_eq_ok_iff.2 hstrip, Arguments.legs,
    Arguments.nonemptyText_eq_ok_iff.2 hlist]
  rfl

/-- What a check reports is not found in a leg. -/
theorem Check.failure?_ne_inLeg {check : Check} (position : Nat) (cause : FieldError) :
    check.failure? args ≠ some (.inLeg field position cause) := by
  intro h
  cases check with
  | nonempty _ | items _ | apart _ _ =>
    dsimp only [failure?] at h
    split at h <;> cases h
  | positive _ | kind _ =>
    dsimp only [failure?] at h
    split at h
    · cases h
    · split at h <;> cases h
  | number _ | flag _ =>
    obtain ⟨value, -, h⟩ := Option.bind_eq_some_iff.1 h
    split at h <;> cases h

/-- The failure of a leg is not nested. -/
theorem leg_error_ne_inLeg (h : kind.legs? = some (field, leg)) {cause : FieldError}
    (hleg : Layout.ofArguments leg args = .error cause) (f : String) (q : Nat) (c : FieldError) :
    cause ≠ .inLeg f q c := by
  have hsingle : leg.legs? = none := by
    cases kind <;> cases h <;> rfl
  rw [Layout.ofArguments_eq, Kind.failures_of_single args hsingle, verdict_eq_error_iff] at hleg
  obtain ⟨check, -, hfailure⟩ := List.mem_filterMap.1 (List.mem_of_head? hleg)
  rintro rfl
  exact Check.failure?_ne_inLeg q c hfailure

theorem FieldError.rootCause_eq_self {e : FieldError} (h : ∀ f q c, e ≠ .inLeg f q c) :
    e.rootCause = e := by
  cases e with
  | inLeg f q c => exact absurd rfl (h f q c)
  | missing _ | invalid _ _ | unknownKind _ | reusedPath _ _ => rfl

/-- What the legs in a list come to, each built as a layout of its own. -/
def legResults (leg : Kind) (list : String) : List (Except FieldError Layout) :=
  (Text.pieces ':' list).map fun group => Layout.ofArguments leg (.givenLeg group)

/-- Either all legs are built and the composite holds them, or the first one that is not is reported. -/
theorem composite_cases (hkind : kind.legs? = some (field, leg))
    (hstrip : args.HoldsPositive "strip_len_sectors" n) (hlist : args.HoldsText field list) :
    (∃ l, legResults leg list = l.legs.map .ok ∧ Layout.ofArguments kind args = .ok l) ∨
    ∃ (before : List Layout) (cause : FieldError) (after : List (Except FieldError Layout)),
      legResults leg list = before.map .ok ++ .error cause :: after ∧
      Layout.ofArguments kind args = .error (.inLeg field before.length cause) := by
  obtain ⟨α, build, single, make, hleg, hmake, hlegs⟩ := exists_make hkind
  have hresults : legResults leg list = ((Text.pieces Arguments.legDelimiter list).map
      fun group => build (.ofLeg group)).map fun result => result.map single := by
    rw [legResults, List.map_map]
    refine List.map_congr_left fun group _ => ?_
    rw [← Arguments.ofLeg_eq]
    exact hleg _
  rw [hmake, composite_of_holds hstrip hlist, hresults]
  rcases buildLegs_cases build field 0 (Text.pieces Arguments.legDelimiter list) with
    ⟨legs, hall, hbuilt⟩ | ⟨before, cause, after, hall, hbuilt⟩
  · refine .inl ⟨make n legs, ?_, ?_⟩
    · rw [hall, hlegs, List.map_map, List.map_map]
      rfl
    · rw [hbuilt]
      rfl
  · refine .inr ⟨before.map single, cause, after.map fun result => result.map single, ?_, ?_⟩
    · rw [hall, List.map_append, List.map_cons, List.map_map, List.map_map]
      rfl
    · rw [hbuilt, Nat.zero_add, List.length_map]
      rfl

/-- Only the leg list without its quotes counts for the legs, and the strip length besides. -/
theorem composite_congr (hkind : kind.legs? = some (field, leg))
    (hstrip : args.HoldsPositive "strip_len_sectors" n) (hlist : args.HoldsText field list)
    {args' : Arguments} {n' : Sectors} {list' : String}
    (hstrip' : args'.HoldsPositive "strip_len_sectors" n') (hlist' : args'.HoldsText field list')
    (hquotes : unquoted list' = unquoted list) :
    (Layout.ofArguments kind args').map Layout.legs =
        (Layout.ofArguments kind args).map Layout.legs ∧
      (n' = n → Layout.ofArguments kind args' = Layout.ofArguments kind args) := by
  obtain ⟨α, build, single, make, -, hmake, hlegs⟩ := exists_make hkind
  have hgroups : (Text.pieces Arguments.legDelimiter list').map dropQuotes =
      (Text.pieces Arguments.legDelimiter list).map dropQuotes := by
    rw [← pieces_dropQuotes, dropQuotes_eq_unquoted, hquotes, ← dropQuotes_eq_unquoted,
      pieces_dropQuotes]
  rw [hmake, hmake, composite_of_holds hstrip hlist, composite_of_holds hstrip' hlist',
    buildLegs_congr build field 0 hgroups]
  refine ⟨?_, fun hn => by rw [hn]⟩
  cases buildLegs build field 0 (Text.pieces Arguments.legDelimiter list) with
  | error e => rfl
  | ok legs =>
    show Except.ok (make n' legs).legs = Except.ok (make n legs).legs
    rw [hlegs, hlegs]

/-- The first result that is an error stands behind those that are not. -/
theorem getElem?_first_error {α : Type} {results : List (Except FieldError α)} {before : List α}
    {cause : FieldError} {after : List (Except FieldError α)}
    (h : results = before.map .ok ++ .error cause :: after) :
    results[before.length]? = some (.error cause) ∧
      ∀ i < before.length, ∃ l, results[i]? = some (.ok l) := by
  subst h
  refine ⟨by simp, fun i hi => ⟨before[i], ?_⟩⟩
  rw [List.getElem?_append_left (by simpa using hi), List.getElem?_map, List.getElem?_eq_getElem hi]
  rfl

/-- A composite is built leg by leg.  It is built if each leg is, and holds what the legs are built as; if
not, the first leg that fails is reported.  Its legs depend on the leg list without its quotes only. -/
theorem built_leg_by_leg (hkind : kind.legs? = some (field, leg))
    (hstrip : args.HoldsPositive "strip_len_sectors" n) (hlist : args.HoldsText field list) :
    let groups := (Text.pieces ':' list).map unquoted
    let results := groups.map fun group => Layout.ofArguments leg (.ofText ';' group)
    let built := Layout.ofArguments kind args
    ((∃ l, built = .ok l) ↔ ∀ result ∈ results, ∃ l, result = .ok l) ∧
    (∀ l, built = .ok l → l.legs.length = groups.length ∧ results = l.legs.map .ok) ∧
    (∀ e, built = .error e → ∃ p cause, e = .inLeg field p cause ∧
      results[p]? = some (.error cause) ∧ (∀ i < p, ∃ l, results[i]? = some (.ok l)) ∧
      (∀ f q c, cause ≠ .inLeg f q c) ∧ e.rootCause = cause) ∧
    ∀ args' list' n', args'.HoldsPositive "strip_len_sectors" n' → args'.HoldsText field list' →
      unquoted list' = unquoted list →
      (Layout.ofArguments kind args').map Layout.legs = built.map Layout.legs ∧
      (n' = n → Layout.ofArguments kind args' = built) := by
  intro groups results built
  have hresults : results = legResults leg list := List.map_map
  have hlength : results.length = groups.length := List.length_map _
  have hcongr := @composite_congr kind leg field list args n hkind hstrip hlist
  rcases composite_cases hkind hstrip hlist with
    ⟨l, hall, hbuilt⟩ | ⟨before, cause, after, hall, hbuilt⟩
  · refine ⟨⟨fun _ => ?_, fun _ => ⟨l, hbuilt⟩⟩, fun l' h => ?_, fun e h => ?_, fun _ _ _ => hcongr⟩
    · rw [hresults, hall]
      exact List.forall_mem_map.2 fun leg _ => ⟨leg, rfl⟩
    · cases hbuilt.symm.trans h
      refine ⟨?_, hresults.trans hall⟩
      rw [← hlength, hresults, hall, List.length_map]
    · cases hbuilt.symm.trans h
  · have hfails : .error cause ∈ results := by
      rw [hresults, hall]
      exact List.mem_append_right _ (List.mem_cons_self ..)
    refine ⟨⟨fun ⟨l, h⟩ => ?_, fun h => ?_⟩, fun l h => ?_, fun e h => ?_, fun _ _ _ => hcongr⟩
    · cases hbuilt.symm.trans h
    · obtain ⟨l, hl⟩ := h _ hfails
      cases hl
    · cases hbuilt.symm.trans h
    · cases hbuilt.symm.trans h
      obtain ⟨group, -, hgroup⟩ := List.mem_map.1 hfails
      have hflat := leg_error_ne_inLeg hkind hgroup
      obtain ⟨hcause, hbefore⟩ := getElem?_first_error (hresults.trans hall)
      exact ⟨before.length, cause, rfl, hcause, hbefore, hflat, FieldError.rootCause_eq_self hflat⟩

end Composites

/-- Of four legs the first and the second are quoted in the two ways.  The third has an empty path, and
the fourth has no paths at all. -/
def brokenList : String := "\"paths=/a,/b\":'paths=/c':'paths=/d,':x"

theorem built_leg_by_leg_of_brokenList :
    let args : Arguments := .ofText ' ' ("raid1s=" ++ brokenList ++ " strip_len_sectors=+08")
    let groups := (Text.pieces ':' brokenList).map unquoted
    let results := groups.map fun group => Layout.ofArguments .raid1 (.ofText ';' group)
    Kind.raid10.legs? = some ("raid1s", .raid1) ∧ args.HoldsPositive "strip_len_sectors" 8 ∧
      args.HoldsText "raid1s" brokenList ∧
      Layout.ofArguments .raid10 args = .error (.inLeg "raid1s" 2 (.missing "paths")) ∧
      results[2]? = some (.error (.missing "paths")) ∧
      (∀ i < 2, ∃ l, results[i]? = some (.ok l)) ∧
      (FieldError.inLeg "raid1s" 2 (.missing "paths")).rootCause = .missing "paths" := by
  intro args groups results
  have hkind : Kind.raid10.legs? = some ("raid1s", .raid1) := rfl
  have hstrip : args.HoldsPositive "strip_len_sectors" 8 :=
    ⟨"+08", by decide +kernel, by decide +kernel, by decide⟩
  have hlist : args.HoldsText "raid1s" brokenList := ⟨by decide +kernel, by decide⟩
  have hbuilt : Layout.ofArguments .raid10 args = .error (.inLeg "raid1s" 2 (.missing "paths")) := by
    decide +kernel
  obtain ⟨-, -, herror, -⟩ := built_leg_by_leg hkind hstrip hlist
  obtain ⟨p, cause, he, hresult, hbefore, -, hroot⟩ := herror _ hbuilt
  cases he
  exact ⟨hkind, hstrip, hlist, hbuilt, hresult, hbefore, hroot⟩

end BlockShell
