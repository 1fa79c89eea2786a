import BlockShell.Proofs.Path.Respelling
import BlockShell.Proofs.Target.Legs

/-!
# Parity apart from data

A stripe with parity is refused for its paths only if one of the data paths has the components of the
parity path, alone (`Raid4.ofArguments_of_isGiven`) and as a leg (`leg_refused_iff`); otherwise its paths
stay as they are spelled.  So it does not matter how they are spelled (`parity_apart`).
-/

namespace BlockShell

open Relation (EqvGen)

variable {args args' : Arguments} {s s' : Raid4}

/-! ## A single stripe -/

namespace Raid4

/-- The arguments give the strip length and the paths of `s`, all of them proper for themselves. -/
structure IsGiven (s : Raid4) (args : Arguments) : Prop where
  stripLength : args.HoldsPositive "strip_len_sectors" s.stripLength
  dataPaths : ∃ list, args.get? "data_paths" = some list ∧
    (Text.pieces ',' list).map Text.trim = s.dataPaths.map Path.text ∧ ∀ p ∈ s.dataPaths, p.text ≠ ""
  parityPath : args.HoldsText "parity_path" s.parityPath.text

/-- One of the data paths is the parity path. -/
def Clashes (s : Raid4) : Prop := ∃ p ∈ s.dataPaths, p.SameAs s.parityPath

instance (s : Raid4) : Decidable s.Clashes := inferInstanceAs (Decidable (∃ p ∈ s.dataPaths, _))

/-- Each path of `s'` is another spelling of the one in its place in `s`. -/
structure Respelled (s s' : Raid4) : Prop where
  dataPaths : List.Forall₂ (EqvGen Path.Respells) s.dataPaths s'.dataPaths
  parityPath : EqvGen Path.Respells s.parityPath s'.parityPath

theorem ofArguments_of_isGiven (h : s.IsGiven args) :
    ofArguments args =
      if s.Clashes then .error (.reusedPath "parity_path" s.parityPath.text) else .ok s := by
  have hstrip := Arguments.positiveSectors_eq_ok_iff.2 h.stripLength
  have hdata : args.paths "data_paths" = .ok s.dataPaths := Arguments.paths_eq_ok_iff.2 h.dataPaths
  have hparity := Arguments.nonemptyText_eq_ok_iff.2 h.parityPath
  unfold ofArguments
  rw [hstrip, hdata, hparity]
  show (if s.Clashes then _ else _ : Except FieldError Raid4) = _
  by_cases hclash : s.Clashes
  · rw [if_pos hclash, if_pos hclash]
    rfl
  · rw [if_neg hclash, if_neg hclash]
    rfl

theorem refused_iff (h : s.IsGiven args) :
    ofArguments args = .error (.reusedPath "parity_path" s.parityPath.text) ↔ s.Clashes := by
  rw [ofArguments_of_isGiven h]
  split <;> simp_all

theorem accepted_iff (h : s.IsGiven args) : ofArguments args = .ok s' ↔ s' = s ∧ ¬ s.Clashes := by
  rw [ofArguments_of_isGiven h]
  split <;> simp_all [eq_comm]

theorem isOk_iff (h : s.IsGiven args) : (ofArguments args).isOk = true ↔ ¬ s.Clashes := by
  rw [ofArguments_of_isGiven h]
  split <;> simp_all [Except.isOk, Except.toBool]

theorem clashes_iff : s.Clashes ↔ s.parityPath.components ∈ s.dataPaths.map Path.components :=
  List.mem_map.symm

/-- Whether a data path is the parity path is not a matter of spelling. -/
theorem Respelled.clashes_iff (h : s.Respelled s') : s'.Clashes ↔ s.Clashes := by
  have hdata : s.dataPaths.map Path.components = s'.dataPaths.map Path.components := by
    rw [← List.forall₂_eq_eq_eq, List.forall₂_map_left_iff, List.forall₂_map_right_iff]
    exact h.dataPaths.imp fun _ _ => Path.sameAs_iff_eqvGen.2
  have hparity : s.parityPath.components = s'.parityPath.components :=
    Path.sameAs_iff_eqvGen.2 h.parityPath
  rw [Raid4.clashes_iff, Raid4.clashes_iff, hdata, hparity]

end Raid4

/-! ## Stripes as legs -/

section Legs

variable {α : Type} {build : Arguments → Except FieldError α} {field : String}

/-- Behind legs that are built the others are built as they would be alone. -/
theorem buildLegs_append (field : String) {before : List String}
    (h : ∀ g ∈ before, ∃ leg, build (.ofLeg g) = .ok leg) (position : Nat) :
    ∃ legs : List α, ∀ groups, buildLegs build field position (before ++ groups) =
      (buildLegs build field (position + before.length) groups).map (legs ++ ·) := by
  induction before generalizing position with
  | nil =>
    refine ⟨[], fun groups => ?_⟩
    rw [List.nil_append, List.length_nil, Nat.add_zero]
    cases buildLegs build field position groups <;> rfl
  | cons group before ih =>
    obtain ⟨⟨leg, hleg⟩, hbefore⟩ := List.forall_mem_cons.1 h
    obtain ⟨legs, hlegs⟩ := ih hbefore (position + 1)
    refine ⟨leg :: legs, fun groups => ?_⟩
    rw [List.cons_append, buildLegs, hleg]
    dsimp only
    rw [hlegs, List.length_cons, Nat.add_comm before.length, ← Nat.add_assoc]
    cases buildLegs build field (position + 1 + before.length) groups <;> rfl

/-- The first leg is reported before those after it. -/
theorem buildLegs_cons_eq_error_iff {position : Nat} {group : String} {groups : List String}
    {cause : FieldError} : buildLegs build field position (group :: groups) =
      .error (.inLeg field position cause) ↔ build (.ofLeg group) = .error cause := by
  rw [buildLegs]
  cases build (.ofLeg group) with
  | error e => simp
  | ok leg =>
    rcases buildLegs_cases build field (position + 1) groups with
      ⟨legs, -, hbuilt⟩ | ⟨before, cause', -, -, hbuilt⟩
    · simp [hbuilt, Except.map]
    · simp [hbuilt, Except.map]
      omega

end Legs

section Composite

variable {n : Sectors} {list : String} {legs : List Raid4}

/-- A leg behind others that are built is refused for its paths as a stripe of its own is. -/
theorem leg_refused_iff (hstrip : args.HoldsPositive "strip_len_sectors" n)
    (hlist : args.HoldsText "raid4s" list) {before after : List String} {group : String}
    (hsplit : Text.pieces ':' list = before ++ group :: after)
    (hbefore : ∀ g ∈ before, ∃ leg, Raid4.ofArguments (.ofLeg g) = .ok leg)
    (h : s.IsGiven (.ofLeg group)) :
    Layout.ofArguments .raid40 args =
        .error (.inLeg "raid4s" before.length (.reusedPath "parity_path" s.parityPath.text)) ↔
      s.Clashes := by
  obtain ⟨legs, hlegs⟩ := buildLegs_append "raid4s" hbefore 0
  have hbuilt : Layout.ofArguments .raid40 args =
      ((buildLegs Raid4.ofArguments "raid4s" before.length (group :: after)).map (legs ++ ·)).map
        (.raid40 n) := by
    have hgroups := hlegs (group :: after)
    rw [Nat.zero_add, ← hsplit] at hgroups
    rw [← hgroups]
    exact composite_of_holds hstrip hlist
  have hmap (x : Except FieldError (List Raid4)) (e : FieldError) :
      (x.map (legs ++ ·)).map (Layout.raid40 n) = .error e ↔ x = .error e := by
    cases x <;> simp [Except.map]
  rw [hbuilt, hmap, buildLegs_cons_eq_error_iff, Raid4.refused_iff h]

/-- The legs in a list are given, each by its own arguments. -/
def AreGiven (legs : List Raid4) (list : String) : Prop :=
  List.Forall₂ (fun group (leg : Raid4) => leg.IsGiven (.ofLeg group)) (Text.pieces ':' list) legs

theorem legs_accepted_iff {groups : List String}
    (h : List.Forall₂ (fun group (leg : Raid4) => leg.IsGiven (.ofLeg group)) groups legs)
    {legs' : List Raid4} :
    List.Forall₂ (fun group leg => Raid4.ofArguments (.ofLeg group) = .ok leg) groups legs' ↔
      legs' = legs ∧ ∀ leg ∈ legs, ¬ leg.Clashes := by
  induction h generalizing legs' with
  | nil => simp
  | @cons group leg groups legs hleg _ ih =>
    rw [List.forall₂_cons_left_iff, List.forall_mem_cons]
    simp only [ih, Raid4.accepted_iff hleg]
    constructor
    · rintro ⟨_, _, ⟨rfl, hapart⟩, ⟨rfl, hrest⟩, rfl⟩
      exact ⟨rfl, hapart, hrest⟩
    · rintro ⟨rfl, hapart, hrest⟩
      exact ⟨_, _, ⟨rfl, hapart⟩, ⟨rfl, hrest⟩, rfl⟩

/-- A composite is built, with the paths of its legs as they are spelled, unless a leg clashes. -/
theorem composite_accepted_iff (hstrip : args.HoldsPositive "strip_len_sectors" n)
    (hlist : args.HoldsText "raid4s" list) (h : AreGiven legs list) {l : Layout} :
    Layout.ofArguments .raid40 args = .ok l ↔ l = .raid40 n legs ∧ ∀ leg ∈ legs, ¬ leg.Clashes := by
  have hbuilt : Layout.ofArguments .raid40 args =
      (buildLegs Raid4.ofArguments "raid4s" 0 (Text.pieces ':' list)).map (.raid40 n) :=
    composite_of_holds hstrip hlist
  rw [hbuilt, map_eq_ok_iff]
  simp only [buildLegs_eq_ok_iff, legs_accepted_iff h]
  constructor
  · rintro ⟨_, ⟨rfl, hapart⟩, rfl⟩
    exact ⟨rfl, hapart⟩
  · rintro ⟨rfl, hapart⟩
    exact ⟨_, ⟨rfl, hapart⟩, rfl⟩

theorem isOk_composite_iff (hstrip : args.HoldsPositive "strip_len_sectors" n)
    (hlist : args.HoldsText "raid4s" list) (h : AreGiven legs list) :
    (Layout.ofArguments .raid40 args).isOk = true ↔ ∀ leg ∈ legs, ¬ leg.Clashes := by
  have hiff := fun l => composite_accepted_iff hstrip hlist h (l := l)
  cases hbuilt : Layout.ofArguments .raid40 args with
  | ok l => exact iff_of_true rfl ((hiff l).1 hbuilt).2
  | error e =>
    refine iff_of_false nofun fun hapart => ?_
    cases hbuilt.symm.trans ((hiff _).2 ⟨rfl, hapart⟩)

theorem respelled_legs_clash_iff {legs' : List Raid4} (h : List.Forall₂ Raid4.Respelled legs legs') :
    (∀ leg ∈ legs', ¬ leg.Clashes) ↔ ∀ leg ∈ legs, ¬ leg.Clashes := by
  induction h with
  | nil => rfl
  | cons hleg _ ih => rw [List.forall_mem_cons, List.forall_mem_cons, ih, hleg.clashes_iff]

end Composite

/-- If the strip length and the paths of a stripe with parity are proper for themselves, it is refused
just if a data path has the components of the parity path, alone and as a leg; otherwise it holds the
paths as they are given.  Hence other spellings of the paths are accepted just if these are. -/
theorem parity_apart :
    (∀ args (s : Raid4), s.IsGiven args →
      (Raid4.ofArguments args = .error (.reusedPath "parity_path" s.parityPath.text) ↔ s.Clashes) ∧
      (Raid4.ofArguments args = .ok s ↔ ¬ s.Clashes) ∧
      ∀ args' (s' : Raid4), s'.IsGiven args' → s.Respelled s' →
        (Raid4.ofArguments args').isOk = (Raid4.ofArguments args).isOk) ∧
    ∀ (args : Arguments) n list, args.HoldsPositive "strip_len_sectors" n →
      args.HoldsText "raid4s" list →
      (∀ before group after (s : Raid4), Text.pieces ':' list = before ++ group :: after →
        (∀ g ∈ before, ∃ leg, Raid4.ofArguments (.ofLeg g) = .ok leg) → s.IsGiven (.ofLeg group) →
        (Layout.ofArguments .raid40 args =
            .error (.inLeg "raid4s" before.length (.reusedPath "parity_path" s.parityPath.text)) ↔
          s.Clashes)) ∧
      ∀ legs, AreGiven legs list →
        (Layout.ofArguments .raid40 args = .ok (.raid40 n legs) ↔ ∀ s ∈ legs, ¬ s.Clashes) ∧
        ∀ (args' : Arguments) n' list' legs', args'.HoldsPositive "strip_len_sectors" n' →
          args'.HoldsText "raid4s" list' → AreGiven legs' list' →
          List.Forall₂ Raid4.Respelled legs legs' →
          (Layout.ofArguments .raid40 args').isOk = (Layout.ofArguments .raid40 args).isOk := by
  refine ⟨fun args s h => ⟨Raid4.refused_iff h, ?_, fun args' s' h' hspell => ?_⟩,
    fun args n list hstrip hlist => ⟨fun before group after s hsplit hbefore h =>
      leg_refused_iff hstrip hlist hsplit hbefore h, fun legs h => ⟨?_, ?_⟩⟩⟩
  · simp [Raid4.accepted_iff h]
  · rw [Bool.eq_iff_iff, Raid4.isOk_iff h, Raid4.isOk_iff h', hspell.clashes_iff]
  · simp [composite_accepted_iff hstrip hlist h]
  · intro args' n' list' legs' hstrip' hlist' h' hspell
    rw [Bool.eq_iff_iff, isOk_composite_iff hstrip hlist h, isOk_composite_iff hstrip' hlist' h',
      respelled_legs_clash_iff hspell]

/-- The parity path is the second data path. -/
def sharing : Raid4 := ⟨8, [⟨"/a"⟩, ⟨"/b/./c"⟩], ⟨"//b/c/"⟩⟩

/-- The leg that describes it. -/
def sharingText : String := "strip_len_sectors=8;data_paths=/a,/b/./c;parity_path=//b/c/"

/-- A dot at the start counts. -/
def separate : Raid4 := ⟨1, [⟨"a"⟩], ⟨"./a"⟩⟩

/-- The leg that describes it. -/
def separateText : String := "strip_len_sectors=1;data_paths=a;parity_path=./a"

/-- Another spelling of the same paths. -/
def respelled : Raid4 := ⟨2, [⟨"a//"⟩], ⟨".//a/."⟩⟩

/-- The leg that describes it. -/
def respelledText : String := "strip_len_sectors=2;data_paths=a//;parity_path=.//a/."

/-- The arguments of a composite with the given leg list. -/
def compositeOf (list : String) : Arguments := .ofText ' ' ("strip_len_sectors=4 raid4s=" ++ list)

/-- The stripe with the given arguments and no others. -/
theorem isGiven_of_entries (stripLength list : String)
    (h : args.entries = [("data_paths", list), ("parity_path", s.parityPath.text),
      ("strip_len_sectors", stripLength)])
    (hstrip : Text.word? (Text.trim stripLength) = some s.stripLength ∧ s.stripLength ≠ 0)
    (hdata : (Text.pieces ',' list).map Text.trim = s.dataPaths.map Path.text)
    (hproper : ∀ p ∈ s.parityPath :: s.dataPaths, p.text ≠ "") : s.IsGiven args := by
  have hget (key : String) := congrArg (List.lookup key) h
  obtain ⟨hparity, hpaths⟩ := List.forall_mem_cons.1 hproper
  exact ⟨⟨stripLength, hget _, hstrip⟩, ⟨list, hget _, hdata, hpaths⟩, ⟨hget _, hparity⟩⟩

theorem isGiven_sharing : sharing.IsGiven (.ofLeg sharingText) :=
  isGiven_of_entries "8" "/a,/b/./c" (by decide +kernel) (by decide +kernel) (by decide +kernel)
    (by decide)

theorem isGiven_separate : separate.IsGiven (.ofLeg separateText) :=
  isGiven_of_entries "1" "a" (by decide +kernel) (by decide +kernel) (by decide +kernel) (by decide)

theorem isGiven_respelled : respelled.IsGiven (.ofLeg respelledText) :=
  isGiven_of_entries "2" "a//" (by decide +kernel) (by decide +kernel) (by decide +kernel) (by decide)

theorem holds_compositeOf (list : String)
    (h : (compositeOf list).entries = [("raid4s", list), ("strip_len_sectors", "4")])
    (hlist : list ≠ "") :
    (compositeOf list).HoldsPositive "strip_len_sectors" 4 ∧
      (compositeOf list).HoldsText "raid4s" list := by
  have hget (key : String) := congrArg (List.lookup key) h
  exact ⟨⟨"4", hget _, by decide +kernel, by decide⟩, ⟨hget _, hlist⟩⟩

theorem separate_respelled : separate.Respelled respelled :=
  ⟨.cons (Path.sameAs_iff_eqvGen.1 (by decide)) .nil, Path.sameAs_iff_eqvGen.1 (by decide)⟩

theorem parity_apart_of_sharing :
    Raid4.ofArguments (.ofLeg sharingText) = .error (.reusedPath "parity_path" "//b/c/") ∧
      Raid4.ofArguments (.ofLeg separateText) = .ok separate ∧
      (Raid4.ofArguments (.ofLeg respelledText)).isOk = true ∧
      Layout.ofArguments .raid40 (compositeOf (separateText ++ ":" ++ sharingText)) =
        .error (.inLeg "raid4s" 1 (.reusedPath "parity_path" "//b/c/")) ∧
      Layout.ofArguments .raid40 (compositeOf separateText) = .ok (.raid40 4 [separate]) ∧
      (Layout.ofArguments .raid40 (compositeOf respelledText)).isOk = true := by
  have hclash : sharing.Clashes := by decide
  have hapart : ¬ separate.Clashes := by decide
  obtain ⟨hmixed, hmixedList⟩ :=
    holds_compositeOf (separateText ++ ":" ++ sharingText) (by decide +kernel) (by decide)
  obtain ⟨hplain, hplainList⟩ := holds_compositeOf separateText (by decide +kernel) (by decide)
  obtain ⟨hspelled, hspelledList⟩ :=
    holds_compositeOf respelledText (by decide +kernel) (by decide)
  obtain ⟨halone, hlegs⟩ := parity_apart
  have hbuilt := (halone _ _ isGiven_separate).2.1.2 hapart
  have hleg : AreGiven [separate] separateText := by
    rw [AreGiven, show Text.pieces ':' separateText = [separateText] by decide +kernel]
    exact .cons isGiven_separate .nil
  have hleg' : AreGiven [respelled] respelledText := by
    rw [AreGiven, show Text.pieces ':' respelledText = [respelledText] by decide +kernel]
    exact .cons isGiven_respelled .nil
  have hcomposite := ((hlegs _ _ _ hplain hplainList).2 _ hleg).1.2 (by simpa using hapart)
  refine ⟨(halone _ _ isGiven_sharing).1.2 hclash, hbuilt,
    ((halone _ _ isGiven_separate).2.2 _ _ isGiven_respelled separate_respelled).trans
      (by rw [hbuilt]; rfl),
    ((hlegs _ _ _ hmixed hmixedList).1 [separateText] sharingText [] sharing (by decide +kernel)
      (by simpa using ⟨_, hbuilt⟩) isGiven_sharing).2 hclash, hcomposite,
    (((hlegs _ _ _ hplain hplainList).2 _ hleg).2 _ _ _ _ hspelled hspelledList hleg'
      (.cons separate_respelled .nil)).trans (by rw [hcomposite]; rfl)⟩

end BlockShell
