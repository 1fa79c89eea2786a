import BlockShell.Journal
import BlockShell.Proofs.Text.Cut

/-!
# Paths above a path

A path that stands above another one is a part of its text in front of a separator (`IsAbove`),
unless it is a mere anchor (`IsBare`).  So the steps of the path lead through the paths above it, and
a path without `..` has none above it with one.
-/

namespace BlockShell.Path

/-! ## Texts made of segments -/

theorem ofBackward_segments (p : Path) : ofBackward p.anchor? p.segments.reverse = p := by
  have hrest (cs : List Char) : ("/".intercalate ((cs.splitOn '/').map String.ofList)).toList = cs := by
    rw [String.toList_intercalate, List.map_map]
    simp [Function.comp_def, List.intercalate_splitOn]
  obtain ⟨text⟩ := p
  unfold ofBackward anchor? segments
  rw [List.reverse_reverse, mk.injEq, ← String.toList_inj, String.toList_append, hrest]
  dsimp only
  unfold splitAnchor
  split <;> simp_all [anchorText]

theorem text_ofBackward_append (anchor : Option Component) {xs segs : List String} (hxs : xs ≠ [])
    (hsegs : segs ≠ []) :
    (ofBackward anchor (xs ++ segs)).text =
      (ofBackward anchor segs).text ++ "/" ++ "/".intercalate xs.reverse := by
  unfold ofBackward
  rw [List.reverse_append, String.intercalate_append_of_ne_nil (by simpa using hsegs)
    (by simpa using hxs)]
  simp only [String.append_assoc]

/-! ## Above a path -/

/-- The text of `q` is the text of `p`, a separator, and more. -/
def IsAbove (p q : Path) : Prop := ∃ rest, q.text = p.text ++ String.singleton '/' ++ rest

/-- Empty, or an anchor and nothing else. -/
def IsBare (p : Path) : Prop := p.text = "" ∨ p.text = "/" ∨ p.text = "."

theorem isBare_ofBackward_nil (anchor : Option Component) : (ofBackward anchor []).IsBare := by
  unfold IsBare ofBackward anchorText
  split <;> simp

theorem isBare_or_isAbove {p : Path} (xs : List String) {segs : List String} (hxs : xs ≠ [])
    (h : p.segments.reverse = xs ++ segs) :
    (ofBackward p.anchor? segs).IsBare ∨ (ofBackward p.anchor? segs).IsAbove p := by
  by_cases hsegs : segs = []
  · exact .inl (hsegs ▸ isBare_ofBackward_nil _)
  · refine .inr ⟨"/".intercalate xs.reverse, ?_⟩
    have := text_ofBackward_append p.anchor? hxs hsegs
    rwa [← h, ofBackward_segments] at this

theorem segments_of_backward {p : Path} {last : String} {above : List String}
    (h : p.backward = last :: above) : ∃ xs, p.segments.reverse = xs ++ last :: above := by
  obtain ⟨xs, hxs⟩ := List.dropWhile_suffix (l := p.segments.reverse) isFiller
  exact ⟨xs, by rw [← hxs, ← h]; rfl⟩

theorem parent?_isBare_or_isAbove {p q : Path} (h : p.parent? = some q) : q.IsBare ∨ q.IsAbove p := by
  unfold parent? at h
  split at h
  · split at h
    · cases h
      exact .inl (.inl rfl)
    · cases h
  · next last above hback =>
    cases h
    obtain ⟨xs, hxs⟩ := segments_of_backward hback
    obtain ⟨ys, hys⟩ := List.dropWhile_suffix (l := above) isFiller
    refine isBare_or_isAbove (xs ++ last :: ys) (by simp) ?_
    rw [hxs, List.append_assoc, List.cons_append, hys]

theorem mem_pathsAbove {anchor : Option Component} {l : List String} {p : Path}
    (h : p ∈ pathsAbove anchor l) : ∃ xs segs, l = xs ++ segs ∧ p = ofBackward anchor segs := by
  induction l with
  | nil =>
    unfold pathsAbove at h
    split at h
    · exact ⟨[], [], rfl, List.mem_singleton.1 h⟩
    · exact absurd h List.not_mem_nil
  | cons segment rest ih =>
    unfold pathsAbove at h
    split at h
    · obtain ⟨xs, segs, rfl, hp⟩ := ih h
      exact ⟨segment :: xs, segs, rfl, hp⟩
    · rcases List.mem_cons.1 h with hp | h
      · exact ⟨[], segment :: rest, rfl, hp⟩
      · obtain ⟨xs, segs, rfl, hp⟩ := ih h
        exact ⟨segment :: xs, segs, rfl, hp⟩

theorem mem_ancestors {p q : Path} (h : q ∈ p.ancestors) : q = p ∨ q.IsBare ∨ q.IsAbove p := by
  unfold ancestors at h
  split at h
  · exact .inl (List.mem_singleton.1 h)
  · next last above hback =>
    rcases List.mem_cons.1 h with rfl | h
    · exact .inl rfl
    · obtain ⟨ys, segs, rfl, rfl⟩ := mem_pathsAbove h
      obtain ⟨xs, hxs⟩ := segments_of_backward hback
      exact .inr (isBare_or_isAbove (xs ++ last :: ys) (by simp) (by simpa using hxs))

/-! ## Steps upwards -/

theorem up_mem_components {p : Path} (h : ".." ∈ Text.pieces '/' p.text) :
    Component.up ∈ p.components := by
  suffices hseg : ".." ∈ p.segments by
    refine List.mem_append_right _ (List.mem_map.2 ⟨"..", List.mem_filter.2 ⟨hseg, ?_⟩, ?_⟩)
    · decide
    · decide
  obtain ⟨text⟩ := p
  unfold Text.pieces at h
  unfold segments
  dsimp only at h ⊢
  generalize text.toList = cs at h ⊢
  have hsep (rest : List Char) : ('/' :: rest).splitOn '/' = [] :: rest.splitOn '/' :=
    List.splitOn_append_cons_self (a := '/') [] rest
  unfold splitAnchor
  split
  · next rest =>
    rw [hsep, List.map_cons] at h
    exact (List.mem_cons.1 h).resolve_left (by decide)
  · exact absurd h (by decide)
  · next rest =>
    have hdot : ('.' :: '/' :: rest).splitOn '/' = ['.'] :: rest.splitOn '/' :=
      List.splitOn_append_cons_self (a := '/') ['.'] rest
    rw [hdot, List.map_cons] at h
    rw [hsep, List.map_cons]
    exact List.mem_cons_of_mem _ ((List.mem_cons.1 h).resolve_left (by decide))
  · exact h

end BlockShell.Path

namespace BlockShell.Journal

open BlockShell.Path (IsAbove)

theorem directoryOf_ne_empty (p : Path) : (directoryOf p).text ≠ "" := by
  unfold directoryOf
  split
  · split
    · decide
    · next hne => exact hne
  · decide

theorem directoryOf_isBare_or_isAbove (p : Path) :
    (directoryOf p).IsBare ∨ (directoryOf p).IsAbove p := by
  unfold directoryOf
  split
  · next parent hp =>
    split
    · exact .inl (.inr (.inr rfl))
    · exact Path.parent?_isBare_or_isAbove hp
  · exact .inl (.inr (.inr rfl))

/-- The directory of a path without `..` is reached without one. -/
theorem up_not_mem_directory {p : Path} (h : Path.Component.up ∉ p.components) :
    ".." ∉ Text.pieces '/' (directoryOf p).text := by
  intro hup
  rcases directoryOf_isBare_or_isAbove p with (he | he | he) | ⟨rest, hrest⟩
  · exact directoryOf_ne_empty p he
  · rw [he] at hup
    exact absurd hup (by decide)
  · rw [he] at hup
    exact absurd hup (by decide)
  · refine h (Path.up_mem_components ?_)
    rw [hrest, Text.pieces_append]
    exact List.mem_append_left _ hup

end BlockShell.Journal
