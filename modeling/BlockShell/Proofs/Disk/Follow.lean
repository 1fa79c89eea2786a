import BlockShell.Disk.Tree
import BlockShell.Proofs.Arguments.Field
import BlockShell.Proofs.Path

/-!
# Where paths lead

A path leads to a directory if every location that it visits is one (`directory_eq_ok_iff`).  In a
sound tree, in which everything stands in a directory, a path without `..` visits only locations
above its goal, so that the goal alone decides.  A directory can be created only at the goal of its
path, where there is nothing yet (`freeLocation_spec`).
-/

namespace BlockShell.FileTree

/-! ## Visited locations -/

/-- Where a step leads, whatever is there. -/
def next (l : Location) (segment : String) : Location :=
  if Path.isFiller segment then l else if segment = ".." then l.tail else segment :: l

/-- Where steps lead. -/
def goal (l : Location) (segments : List String) : Location := segments.foldl next l

/-- The locations in which a walk stands, from its start to its goal. -/
def visits (l : Location) : List String → List Location
  | [] => [l]
  | segment :: segments => l :: visits (next l segment) segments

/-- No segment is longer than a name may be. -/
def Short (segments : List String) : Prop := ∀ s ∈ segments, s.utf8ByteSize ≤ nameLimit

theorem goal_mem_visits (l : Location) (segments : List String) :
    goal l segments ∈ visits l segments := by
  induction segments generalizing l with
  | nil => exact List.mem_singleton_self l
  | cons s segments ih => exact List.mem_cons_of_mem _ (ih (next l s))

theorem visits_append (l : Location) (xs ys : List String) :
    visits l (xs ++ ys) = (visits l xs).dropLast ++ visits (goal l xs) ys := by
  induction xs generalizing l with
  | nil => rfl
  | cons s xs ih =>
    have hne : visits (next l s) xs ≠ [] := by cases xs <;> simp [visits]
    rw [List.cons_append, visits, ih, visits, List.dropLast_cons_of_ne_nil hne, List.cons_append]
    rfl

theorem goal_mem_visits_append (l : Location) (xs ys : List String) :
    goal l xs ∈ visits l (xs ++ ys) := by
  rw [visits_append]
  refine List.mem_append_right _ ?_
  cases ys with
  | nil => exact List.mem_singleton_self _
  | cons s ys => exact List.mem_cons_self ..

theorem suffix_goal {l : Location} {segments : List String} (hup : ".." ∉ segments) :
    l <:+ goal l segments := by
  induction segments generalizing l with
  | nil => exact List.suffix_refl l
  | cons s segments ih =>
    obtain ⟨hs, hup⟩ := not_or.1 (mt List.mem_cons.2 hup)
    refine List.IsSuffix.trans ?_ (ih hup)
    unfold next
    rw [if_neg (Ne.symm hs)]
    split
    · exact List.suffix_refl l
    · exact List.suffix_cons s l

/-- Without `..` a walk stays above its goal. -/
theorem suffix_of_mem_visits {l v : Location} {segments : List String} (hup : ".." ∉ segments)
    (hv : v ∈ visits l segments) : v <:+ goal l segments := by
  induction segments generalizing l with
  | nil =>
    rw [List.mem_singleton.1 hv]
    exact List.suffix_refl l
  | cons s segments ih =>
    rcases List.mem_cons.1 hv with rfl | hv
    · exact suffix_goal hup
    · exact ih (mt (List.mem_cons_of_mem s) hup) hv

/-! ## Steps -/

variable {t : FileTree}

theorem isDirectory_iff {l : Location} : t.isDirectory l = true ↔ t.node? l = some .directory := by
  unfold isDirectory
  split <;> simp_all

theorem isSome_of_isDirectory {l : Location} (h : t.isDirectory l = true) :
    (t.node? l).isSome = true := by
  rw [isDirectory_iff.1 h]
  rfl

theorem step_eq_ok {l k : Location} {s : String} (h : t.step l s = .ok k) :
    t.isDirectory l = true ∧ s.utf8ByteSize ≤ nameLimit ∧ k = next l s ∧
      (Path.isFiller s = true ∨ s = ".." ∨ (t.node? k).isSome = true) := by
  unfold step at h
  split at h
  · cases h
  · cases h
  · next hdir =>
    refine ⟨isDirectory_iff.2 hdir, ?_⟩
    unfold next
    split at h
    · next hs =>
      cases h
      refine ⟨?_, (if_pos hs).symm, .inl hs⟩
      simp only [Path.isFiller, Bool.or_eq_true, beq_iff_eq] at hs
      rcases hs with rfl | rfl <;> decide
    next hs =>
    split at h
    · next hup =>
      cases h
      refine ⟨?_, ?_, .inr (.inl hup)⟩
      · subst hup
        decide
      · rw [if_neg hs, if_pos hup]
    next hup =>
    split at h
    · cases h
    next hlen =>
    split at h
    · cases h
    · next hnode =>
      cases h
      have hsome : (t.node? (s :: l)).isSome = true := by
        simpa [Option.isSome_iff_ne_none] using hnode
      exact ⟨by omega, by rw [if_neg hs, if_neg hup], .inr (.inr hsome)⟩

theorem step_of_isSome {l : Location} {s : String} (hdir : t.isDirectory l = true)
    (hlen : s.utf8ByteSize ≤ nameLimit) (hnode : (t.node? (next l s)).isSome = true) :
    t.step l s = .ok (next l s) := by
  unfold step
  rw [isDirectory_iff.1 hdir]
  unfold next at hnode ⊢
  dsimp only
  by_cases hs : Path.isFiller s = true
  · rw [if_pos hs, if_pos hs]
  by_cases hup : s = ".."
  · rw [if_neg hs, if_pos hup, if_neg hs, if_pos hup]
  rw [if_neg hs, if_neg hup] at hnode
  have hnone : ¬ (t.node? (s :: l)).isNone = true := by
    simpa [Option.isSome_iff_ne_none] using hnode
  rw [if_neg hs, if_neg hup, if_neg (Nat.not_lt.2 hlen), if_neg hnone, if_neg hs, if_neg hup]

theorem step_here_eq_ok_iff {l k : Location} :
    t.step l "." = .ok k ↔ t.isDirectory l = true ∧ k = l := by
  constructor
  · intro h
    obtain ⟨hdir, -, hk, -⟩ := step_eq_ok h
    exact ⟨hdir, hk⟩
  · rintro ⟨hdir, rfl⟩
    exact step_of_isSome hdir (by decide) (isSome_of_isDirectory hdir)

theorem enter_eq_ok_iff {l k : Location} {segments : List String} :
    (do t.step (← segments.foldlM t.step l) ".") = .ok k ↔
      (∀ v ∈ visits l segments, t.isDirectory v = true) ∧ Short segments ∧ k = goal l segments := by
  induction segments generalizing l with
  | nil =>
    show t.step l "." = .ok k ↔ _
    rw [step_here_eq_ok_iff]
    simp [visits, Short, goal]
  | cons s segments ih =>
    rw [List.foldlM_cons, bind_assoc, bind_eq_ok_iff]
    constructor
    · rintro ⟨m, hm, h⟩
      obtain ⟨hdir, hlen, rfl, -⟩ := step_eq_ok hm
      obtain ⟨hall, hshort, rfl⟩ := ih.1 h
      exact ⟨List.forall_mem_cons.2 ⟨hdir, hall⟩, List.forall_mem_cons.2 ⟨hlen, hshort⟩, rfl⟩
    · rintro ⟨hall, hshort, rfl⟩
      obtain ⟨hdir, hall⟩ := List.forall_mem_cons.1 hall
      obtain ⟨hlen, hshort⟩ := List.forall_mem_cons.1 hshort
      have hnext : t.isDirectory (next l s) = true := hall _ (by cases segments <;> simp [visits])
      exact ⟨_, step_of_isSome hdir hlen (isSome_of_isDirectory hnext), ih.2 ⟨hall, hshort, rfl⟩⟩

/-! ## Paths -/

/-- Where a path leads. -/
def goalOf (t : FileTree) (p : Path) : Location := goal (t.start p) (steps p)

theorem start_congr {u : FileTree} (h : u.current = t.current) (p : Path) :
    u.start p = t.start p := by
  unfold start
  rw [h]

theorem goalOf_congr {u : FileTree} (h : u.current = t.current) (p : Path) :
    u.goalOf p = t.goalOf p := by
  unfold goalOf
  rw [start_congr h]

theorem directory_eq_ok_iff {p : Path} {k : Location} :
    t.directory p = .ok k ↔ checkPath p = .ok () ∧
      (∀ v ∈ visits (t.start p) (steps p), t.isDirectory v = true) ∧ Short (steps p) ∧
        k = t.goalOf p := by
  unfold directory locate
  rw [bind_assoc, bind_eq_ok_iff]
  simp only [enter_eq_ok_iff]
  constructor
  · rintro ⟨⟨⟩, hcheck, h⟩
    exact ⟨hcheck, h⟩
  · rintro ⟨hcheck, h⟩
    exact ⟨(), hcheck, h⟩

theorem isDirectory_of_directory {p : Path} {k : Location} (h : t.directory p = .ok k) :
    t.isDirectory k = true := by
  obtain ⟨-, hall, -, rfl⟩ := directory_eq_ok_iff.1 h
  exact hall _ (goal_mem_visits _ _)

/-- What is above a path and is not empty starts where the path starts. -/
theorem start_of_isAbove {p q : Path} (h : p.IsAbove q) (hp : p.text ≠ "") : t.start p = t.start q := by
  obtain ⟨rest, hrest⟩ := h
  have hne : p.text.toList ≠ [] := by simpa using hp
  unfold start
  rw [hrest, String.toList_append, String.toList_append, List.append_assoc,
    List.head?_append_of_ne_nil _ hne]

/-- The goal of a path above another one is visited by the other. -/
theorem goalOf_mem_visits {p q : Path} (h : p = q ∨ p.IsAbove q) (hp : p.text ≠ "") :
    t.goalOf p ∈ visits (t.start q) (steps q) := by
  rcases h with rfl | h
  · exact goal_mem_visits _ _
  · rw [← start_of_isAbove h hp]
    obtain ⟨rest, hrest⟩ := h
    unfold steps
    rw [hrest, Text.pieces_append]
    exact goal_mem_visits_append _ _ _

/-! ## Room for a directory -/

theorem goal_of_fillers (l : Location) {segments : List String} (h : ∀ s ∈ segments, s = "") :
    goal l segments = l := by
  induction segments with
  | nil => rfl
  | cons s segments ih =>
    obtain ⟨rfl, hrest⟩ := List.forall_mem_cons.1 h
    exact ih hrest

theorem steps_of_dropWhile {p : Path} {last : String} {above : List String}
    (h : (steps p).reverse.dropWhile (· == "") = last :: above) :
    last ≠ "" ∧ ∃ fillers, (∀ s ∈ fillers, s = "") ∧ steps p = above.reverse ++ last :: fillers := by
  have hlast := List.head?_dropWhile_not (· == "") (steps p).reverse
  rw [h] at hlast
  have hsplit := List.takeWhile_append_dropWhile (p := (· == "")) (l := (steps p).reverse)
  rw [h] at hsplit
  have hfillers : ∀ s ∈ (steps p).reverse.takeWhile (· == ""), s = "" := fun s hs => by
    simpa using List.mem_takeWhile_imp hs
  generalize (steps p).reverse.takeWhile (· == "") = fillers at hsplit hfillers
  refine ⟨by simpa using hlast, fillers.reverse, fun s hs => hfillers s (List.mem_reverse.1 hs), ?_⟩
  rw [← List.reverse_reverse (steps p), ← hsplit]
  simp

theorem freeLocation_spec {p : Path} {l : Location} (h : t.freeLocation p = .ok l) :
    ¬ p.IsBare ∧ l = t.goalOf p ∧ t.node? l = none ∧
      ∃ name k, l = name :: k ∧ t.isDirectory k = true := by
  unfold freeLocation at h
  obtain ⟨⟨⟩, hcheck, h⟩ := bind_eq_ok_iff.1 h
  have htext : p.text ≠ "" := by
    intro he
    rw [checkPath, if_pos he] at hcheck
    cases hcheck
  split at h
  · cases h
  next last above hdrop =>
  rw [← bind_assoc] at h
  obtain ⟨k, hk, h⟩ := bind_eq_ok_iff.1 h
  dsimp only at h
  split at h
  · cases h
  next hname =>
  split at h
  · cases h
  split at h
  · cases h
  next hnone =>
  cases h
  obtain ⟨hhere, hup⟩ := not_or.1 hname
  obtain ⟨hne, fillers, hfillers, hsteps⟩ := steps_of_dropWhile hdrop
  obtain ⟨hall, -, rfl⟩ := enter_eq_ok_iff.1 hk
  have hmem : last ∈ steps p := hsteps ▸ List.mem_append_right _ (List.mem_cons_self ..)
  have hroot : Text.pieces '/' "/" = ["", ""] := by decide
  have hdot : Text.pieces '/' "." = ["."] := by decide
  refine ⟨?_, ?_, by simpa using hnone, _, _, rfl, hall _ (goal_mem_visits _ _)⟩
  · rintro (he | he | he)
    · exact htext he
    · rw [steps, he, hroot] at hmem
      simp [hne] at hmem
    · rw [steps, he, hdot] at hmem
      exact hhere (List.mem_singleton.1 hmem)
  · have hnext (m : Location) : next m last = last :: m := by
      simp [next, Path.isFiller, hne, hhere, hup]
    have hgoal : goal (t.start p) (above.reverse ++ last :: fillers) =
        goal (last :: goal (t.start p) above.reverse) fillers := by
      unfold goal
      rw [List.foldl_append, List.foldl_cons, hnext]
    rw [goalOf, hsteps, hgoal, goal_of_fillers _ hfillers]

end BlockShell.FileTree
