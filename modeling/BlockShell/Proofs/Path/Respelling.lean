import BlockShell.Proofs.Path
import Mathlib.Data.Setoid.Basic
import Mathlib.Logic.Relation

/-!
# Ways to spell a path

A path may be spelled with more separators than it needs and with `.` between them (`Respells`).  Two
paths have the same components if and only if respelling leads from one to the other
(`sameAs_iff_eqvGen`): each path can be respelled as the one that is made of its components alone.
-/

namespace BlockShell.Path

/-- A path and a longer way to spell it. -/
inductive Respells : Path → Path → Prop
  /-- A separator is doubled. -/
  | separator (before after : String) : Respells ⟨before ++ "/" ++ after⟩ ⟨before ++ "//" ++ after⟩
  /-- Behind a separator stays where it is. -/
  | here (before after : String) : Respells ⟨before ++ "/" ++ after⟩ ⟨before ++ "/./" ++ after⟩
  /-- A separator at the end. -/
  | trailing {before : String} : before ≠ "" → Respells ⟨before⟩ ⟨before ++ "/"⟩

/-! ## Components and pieces -/

/-- What a path starts with if its text is cut into `first` and `rest`. -/
def anchorOf (first : String) (rest : List String) : List Component :=
  if first = "" ∧ rest ≠ [] then [.root] else if first = "." then [.here] else []

/-- The pieces that are components. -/
def names (segments : List String) : List String := segments.filter fun s => !isFiller s

theorem names_cons_of_filler {s : String} (h : isFiller s = true) (segments : List String) :
    names (s :: segments) = names segments := by
  simp [names, h]

theorem names_cons_of_not_filler {s : String} (h : isFiller s = false) (segments : List String) :
    names (s :: segments) = s :: names segments := by
  simp [names, h]

theorem toList_text_of_pieces {p : Path} {first : String} {rest : List String}
    (h : Text.pieces '/' p.text = first :: rest) :
    p.text.toList = ['/'].intercalate ((first :: rest).map String.toList) := by
  rw [← h, Text.intercalate_pieces]

theorem components_eq {p : Path} {first : String} {rest : List String}
    (h : Text.pieces '/' p.text = first :: rest) :
    p.components = anchorOf first rest ++ (names (first :: rest)).map componentOf := by
  have htext := toList_text_of_pieces h
  have hsep (cs : List Char) : ('/' :: cs).splitOn '/' = [] :: cs.splitOn '/' :=
    List.splitOn_append_cons_self (a := '/') [] cs
  unfold Text.pieces at h
  unfold components anchor? segments
  generalize p.text.toList = cs at h htext ⊢
  unfold splitAnchor
  split
  · next cs =>
    rw [hsep] at h
    obtain ⟨rfl, rfl⟩ := List.cons.inj h
    simp [anchorOf, names, isFiller, List.splitOn_ne_nil]
  · obtain ⟨rfl, rfl⟩ := List.cons.inj (show ["."] = first :: rest from h)
    decide
  · next cs =>
    have hdot : ('.' :: '/' :: cs).splitOn '/' = ['.'] :: cs.splitOn '/' :=
      List.splitOn_append_cons_self (a := '/') ['.'] cs
    rw [hdot] at h
    obtain ⟨rfl, rfl⟩ := List.cons.inj h
    rw [hsep]
    simp [anchorOf, names, isFiller]
  · next hroot hhere hdot =>
    have hanchor : anchorOf first rest = [] := by
      unfold anchorOf
      rw [if_neg, if_neg]
      · rintro rfl
        cases rest with
        | nil => exact hhere htext
        | cons s rest => exact hdot _ htext
      · rintro ⟨rfl, hrest⟩
        obtain ⟨s, rest, rfl⟩ := List.exists_cons_of_ne_nil hrest
        exact hroot _ htext
    rw [hanchor, h]
    rfl

/-! ## Respelling keeps the components -/

/-- A piece that is no component may be put behind the first one. -/
theorem components_eq_of_filler {p q : Path} (first filler : String) (xs ys : List String)
    (hp : Text.pieces '/' p.text = first :: (xs ++ ys))
    (hq : Text.pieces '/' q.text = first :: (xs ++ filler :: ys)) (hfiller : isFiller filler = true)
    (hne : first ≠ "" ∨ xs ++ ys ≠ []) : p.components = q.components := by
  have hanchor : anchorOf first (xs ++ ys) = anchorOf first (xs ++ filler :: ys) := by
    unfold anchorOf
    rcases hne with hfirst | hrest
    · simp [hfirst]
    · simp [hrest]
  rw [components_eq hp, components_eq hq, hanchor]
  simp [names, List.filter_cons, List.filter_append, hfiller]

theorem pieces_slash (before after : String) :
    Text.pieces '/' (before ++ "/" ++ after) = Text.pieces '/' before ++ Text.pieces '/' after :=
  Text.pieces_append '/' before after

/-- A piece that is no component, between two separators. -/
theorem components_insert_filler (before after : String) {filler : String}
    (hpieces : Text.pieces '/' filler = [filler]) (hfiller : isFiller filler = true) :
    (mk (before ++ "/" ++ after)).components =
      (mk (before ++ "/" ++ (filler ++ "/" ++ after))).components := by
  obtain ⟨first, rest, hbefore⟩ := List.exists_cons_of_ne_nil (Text.pieces_ne_nil '/' before)
  have hafter : rest ++ Text.pieces '/' after ≠ [] := by simp [Text.pieces_ne_nil]
  refine components_eq_of_filler first filler rest _ ?_ ?_ hfiller (.inr hafter)
  · rw [pieces_slash, hbefore]
    rfl
  · rw [pieces_slash, pieces_slash, hbefore, hpieces]
    rfl

theorem components_trailing {before : String} (hbefore : before ≠ "") :
    (mk before).components = (mk (before ++ "/")).components := by
  obtain ⟨first, rest, hpieces⟩ := List.exists_cons_of_ne_nil (Text.pieces_ne_nil '/' before)
  have hne : first ≠ "" ∨ rest ++ [] ≠ [] := by
    by_contra hnot
    rw [List.append_nil, not_or, not_not, not_not] at hnot
    obtain ⟨rfl, rfl⟩ := hnot
    have htext := toList_text_of_pieces (p := ⟨before⟩) hpieces
    exact hbefore (String.toList_inj.1 htext)
  refine components_eq_of_filler first "" rest [] ?_ ?_ rfl hne
  · rw [hpieces, List.append_nil]
  · show Text.pieces '/' (before ++ "/") = _
    rw [← String.append_empty (s := before ++ "/"), pieces_slash, hpieces]
    rfl

theorem double_slash (before after : String) :
    before ++ "//" ++ after = before ++ "/" ++ ("" ++ "/" ++ after) := by
  simp [← String.toList_inj]

theorem slash_dot_slash (before after : String) :
    before ++ "/./" ++ after = before ++ "/" ++ ("." ++ "/" ++ after) := by
  simp [← String.toList_inj]

theorem Respells.sameAs {p q : Path} (h : Respells p q) : p.SameAs q := by
  cases h with
  | separator before after =>
    rw [double_slash]
    exact components_insert_filler before after rfl rfl
  | here before after =>
    rw [slash_dot_slash]
    exact components_insert_filler before after (by decide) rfl
  | trailing hbefore => exact components_trailing hbefore

/-! ## The shortest spelling -/

/-- The piece that a component stands for. -/
def Component.piece : Component → String
  | root => ""
  | here => "."
  | up => ".."
  | name s => s

/-- The path that is spelled with its components alone. -/
def ofComponents (components : List Component) : Path :=
  if components = [.root] then ⟨"/"⟩ else ⟨Text.join '/' (components.map Component.piece)⟩

theorem map_piece_componentOf (segments : List String) :
    (segments.map componentOf).map Component.piece = segments := by
  have hpiece (s : String) : (componentOf s).piece = s := by
    unfold componentOf
    split
    · next h => exact h.symm
    · rfl
  simp [Function.comp_def, hpiece]

theorem join_cons_of_ne_nil (s : String) {segments : List String} (h : segments ≠ []) :
    Text.join '/' (s :: segments) = s ++ "/" ++ Text.join '/' segments := by
  obtain ⟨t, rest, rfl⟩ := List.exists_cons_of_ne_nil h
  exact Text.join_cons_cons '/' s t rest

theorem join_singleton (s : String) : Text.join '/' [s] = s := by simp [Text.join]

theorem append_join_cons (before s : String) (segments : List String) :
    before ++ Text.join '/' (s :: segments) = Text.join '/' ((before ++ s) :: segments) := by
  cases segments with
  | nil => rw [join_singleton, join_singleton]
  | cons t rest => rw [Text.join_cons_cons, Text.join_cons_cons, String.append_assoc, String.append_assoc,
      String.append_assoc]

section Respelling

open Relation (EqvGen)

/-- The first of several pieces behind a separator may be left out if it is no component. -/
theorem eqvGen_drop_filler (before : String) {filler : String} (hfiller : isFiller filler = true)
    (after : String) :
    EqvGen Respells ⟨before ++ "/" ++ (filler ++ "/" ++ after)⟩ ⟨before ++ "/" ++ after⟩ := by
  have hcases : filler = "" ∨ filler = "." := by simpa [isFiller] using hfiller
  rcases hcases with rfl | rfl
  · rw [← double_slash]
    exact .symm _ _ (.rel _ _ (.separator before after))
  · rw [← slash_dot_slash]
    exact .symm _ _ (.rel _ _ (.here before after))

/-- At the end, a piece that is no component may be left out behind the separator. -/
theorem eqvGen_drop_last (before : String) {filler : String} (hfiller : isFiller filler = true) :
    EqvGen Respells ⟨before ++ "/" ++ filler⟩ ⟨before ++ "/" ++ ""⟩ := by
  have hne : before ++ "/" ++ filler ≠ "" := by
    intro h
    have := congrArg String.length h
    simp at this
  have hlonger : EqvGen Respells ⟨before ++ "/" ++ filler⟩ ⟨before ++ "/" ++ filler ++ "/"⟩ :=
    .rel _ _ (.trailing hne)
  have hassoc : before ++ "/" ++ filler ++ "/" = before ++ "/" ++ (filler ++ "/" ++ "") := by
    rw [String.append_empty, String.append_assoc]
  rw [hassoc] at hlonger
  exact hlonger.trans _ _ _ (eqvGen_drop_filler before hfiller "")

/-- If the pieces behind a text that is not empty can be replaced by the components among them, this
is so even if there are none. -/
theorem eqvGen_join_names {s : String} (hs : s ≠ "") {segments : List String}
    (h : segments ≠ [] → EqvGen Respells ⟨s ++ "/" ++ Text.join '/' segments⟩
      ⟨s ++ "/" ++ Text.join '/' (names segments)⟩) :
    EqvGen Respells ⟨Text.join '/' (s :: segments)⟩ ⟨Text.join '/' (s :: names segments)⟩ := by
  by_cases hsegments : segments = []
  · subst hsegments
    exact .refl _
  rw [join_cons_of_ne_nil s hsegments]
  refine (h hsegments).trans _ _ _ ?_
  by_cases hnames : names segments = []
  · rw [hnames, join_singleton]
    show EqvGen Respells ⟨s ++ "/" ++ ""⟩ ⟨s⟩
    rw [String.append_empty]
    exact .symm _ _ (.rel _ _ (.trailing hs))
  · rw [join_cons_of_ne_nil s hnames]
    exact .refl _

/-- Behind a separator every piece may be left out that is no component. -/
theorem eqvGen_names (before : String) {segments : List String} (hne : segments ≠ []) :
    EqvGen Respells ⟨before ++ "/" ++ Text.join '/' segments⟩
      ⟨before ++ "/" ++ Text.join '/' (names segments)⟩ := by
  induction segments generalizing before with
  | nil => exact absurd rfl hne
  | cons s rest ih =>
    by_cases hs : isFiller s = true
    · rw [names_cons_of_filler hs]
      by_cases hrest : rest = []
      · subst hrest
        rw [join_singleton]
        exact eqvGen_drop_last before hs
      · rw [join_cons_of_ne_nil s hrest]
        exact (eqvGen_drop_filler before hs _).trans _ _ _ (ih before hrest)
    · -- A component stays, and what is in front of the rest grows by it.
      rw [names_cons_of_not_filler (Bool.eq_false_iff.2 hs), append_join_cons, append_join_cons]
      refine eqvGen_join_names (fun h => ?_) (ih _)
      have := congrArg String.length h
      simp at this

theorem eq_mk_join {p : Path} {segments : List String} (h : Text.pieces '/' p.text = segments) :
    p = ⟨Text.join '/' segments⟩ := by
  obtain ⟨text⟩ := p
  rw [mk.injEq, ← String.toList_inj, Text.toList_join, ← h, Text.intercalate_pieces]

/-- The components of a path that does not start at the root, spelled alone. -/
theorem ofComponents_of_ne_root {first : String} (hfirst : first ≠ "") (rest : List String) :
    ofComponents (anchorOf first rest ++ (names (first :: rest)).map componentOf) =
      ⟨Text.join '/' (first :: names rest)⟩ := by
  have hanchor : anchorOf first rest = if first = "." then [.here] else [] := by
    simp [anchorOf, hfirst]
  rw [hanchor]
  by_cases hdot : first = "."
  · subst hdot
    rw [if_pos rfl, names_cons_of_filler rfl]
    unfold ofComponents
    rw [if_neg (by simp), List.map_append, map_piece_componentOf]
    rfl
  · have hname : isFiller first = false := by simp [isFiller, hfirst, hdot]
    have hroot : componentOf first ≠ .root := by
      unfold componentOf
      split <;> simp
    rw [if_neg hdot, names_cons_of_not_filler hname, List.nil_append]
    unfold ofComponents
    rw [if_neg (by simp [hroot]), map_piece_componentOf]

/-- The components of a path that starts at the root, spelled alone. -/
theorem ofComponents_of_root {rest : List String} (hrest : rest ≠ []) :
    ofComponents (anchorOf "" rest ++ (names ("" :: rest)).map componentOf) =
      ⟨"" ++ "/" ++ Text.join '/' (names rest)⟩ := by
  have hanchor : anchorOf "" rest = [.root] := if_pos ⟨rfl, hrest⟩
  rw [hanchor, names_cons_of_filler rfl]
  unfold ofComponents
  by_cases hnames : names rest = []
  · rw [hnames]
    rfl
  · rw [if_neg (by simpa using hnames), List.map_append, map_piece_componentOf]
    show mk (Text.join '/' ("" :: names rest)) = _
    rw [join_cons_of_ne_nil "" hnames]

/-- Every path can be respelled as the path of its components. -/
theorem eqvGen_ofComponents (p : Path) : EqvGen Respells p (ofComponents p.components) := by
  obtain ⟨first, rest, hpieces⟩ := List.exists_cons_of_ne_nil (Text.pieces_ne_nil '/' p.text)
  rw [components_eq hpieces, eq_mk_join hpieces]
  by_cases hfirst : first = ""
  · subst hfirst
    by_cases hrest : rest = []
    · subst hrest
      exact .refl _
    · rw [ofComponents_of_root hrest, join_cons_of_ne_nil "" hrest]
      exact eqvGen_names "" hrest
  · rw [ofComponents_of_ne_root hfirst]
    exact eqvGen_join_names hfirst (eqvGen_names first)

/-- Two paths have the same components if they are spellings of one path, and only then. -/
theorem sameAs_iff_eqvGen {p q : Path} : p.SameAs q ↔ EqvGen Respells p q := by
  constructor
  · intro h
    have hp := eqvGen_ofComponents p
    rw [show p.components = q.components from h] at hp
    exact hp.trans _ _ _ (.symm _ _ (eqvGen_ofComponents q))
  · exact fun h => Setoid.eqvGen_le (s := Setoid.ker components) (fun _ _ => Respells.sameAs) h

end Respelling

end BlockShell.Path
