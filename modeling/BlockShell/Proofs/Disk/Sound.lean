import BlockShell.Proofs.Disk.Follow

/-!
# Sound trees and trees that grow

In a sound tree everything stands in a directory, so a path without `..` leads to a directory if its
goal is one.  A tree grows when directories appear where nothing was; whatever a path led to before
it still leads to (`Grown.directory`).
-/

namespace BlockShell.FileTree

variable {t u g : FileTree}

/-! ## Sound trees -/

/-- Whatever is inside a location, the location is a directory. -/
def Sound (t : FileTree) : Prop :=
  ∀ name l, (t.node? (name :: l)).isSome = true → t.isDirectory l = true

theorem sound_ofDirectory (current : Location) : (ofDirectory current).Sound := by
  intro name l h
  have hl : name :: l <:+ current := by
    unfold ofDirectory at h
    dsimp only at h
    split at h
    · next hsuffix => exact List.isSuffixOf_iff_suffix.1 hsuffix
    · cases h
  rw [isDirectory_iff, ofDirectory]
  exact if_pos (List.isSuffixOf_iff_suffix.2 ((List.suffix_cons name l).trans hl))

namespace Sound

theorem isDirectory_of_suffix (h : t.Sound) {k l : Location} (hl : (t.node? l).isSome = true)
    (hk : k <:+ l) (hne : k ≠ l) : t.isDirectory k = true := by
  induction l with
  | nil => exact absurd (List.suffix_nil.1 hk) hne
  | cons name l ih =>
    have hdir := h name l hl
    by_cases hkl : k = l
    · rw [hkl]
      exact hdir
    · exact ih (isSome_of_isDirectory hdir) ((List.suffix_cons_iff.1 hk).resolve_left hne) hkl

theorem directory_eq_ok_iff (h : t.Sound) {p : Path} (hup : ".." ∉ steps p) {k : Location} :
    t.directory p = .ok k ↔ checkPath p = .ok () ∧ Short (steps p) ∧ k = t.goalOf p ∧
      t.isDirectory k = true := by
  rw [FileTree.directory_eq_ok_iff]
  constructor
  · rintro ⟨hcheck, hall, hshort, rfl⟩
    exact ⟨hcheck, hshort, rfl, hall _ (goal_mem_visits _ _)⟩
  · rintro ⟨hcheck, hshort, rfl, hdir⟩
    refine ⟨hcheck, fun v hv => ?_, hshort, rfl⟩
    by_cases hne : v = t.goalOf p
    · rw [hne]
      exact hdir
    · exact h.isDirectory_of_suffix (isSome_of_isDirectory hdir) (suffix_of_mem_visits hup hv) hne

theorem isSome_next (h : t.Sound) {l : Location} {s : String} (hdir : t.isDirectory l = true)
    (hstep : Path.isFiller s = true ∨ s = ".." ∨ (t.node? (next l s)).isSome = true) :
    (t.node? (next l s)).isSome = true := by
  rcases hstep with hs | rfl | hsome
  · rw [next, if_pos hs]
    exact isSome_of_isDirectory hdir
  · cases l with
    | nil => exact isSome_of_isDirectory hdir
    | cons name l => exact isSome_of_isDirectory (h name l (isSome_of_isDirectory hdir))
  · exact hsome

theorem step_eq_ok_iff (h : t.Sound) {l k : Location} {s : String} :
    t.step l s = .ok k ↔ t.isDirectory l = true ∧ s.utf8ByteSize ≤ nameLimit ∧ k = next l s ∧
      (t.node? k).isSome = true := by
  constructor
  · intro hs
    obtain ⟨hdir, hlen, rfl, hstep⟩ := step_eq_ok hs
    exact ⟨hdir, hlen, rfl, h.isSome_next hdir hstep⟩
  · rintro ⟨hdir, hlen, rfl, hsome⟩
    exact step_of_isSome hdir hlen hsome

theorem walk_eq_ok_iff (h : t.Sound) {l k : Location} {s : String} {segments : List String} :
    (s :: segments).foldlM t.step l = .ok k ↔
      (∀ v ∈ (visits l (s :: segments)).dropLast, t.isDirectory v = true) ∧
        Short (s :: segments) ∧ k = goal l (s :: segments) ∧ (t.node? k).isSome = true := by
  induction segments generalizing l s with
  | nil =>
    rw [List.foldlM_cons, funext fun k => List.foldlM_nil, bind_pure, h.step_eq_ok_iff]
    simp [visits, Short, goal]
  | cons s' segments ih =>
    rw [List.foldlM_cons, bind_eq_ok_iff]
    have hvisits : (visits l (s :: s' :: segments)).dropLast =
        l :: (visits (next l s) (s' :: segments)).dropLast := rfl
    have hhead : next l s ∈ (visits (next l s) (s' :: segments)).dropLast := by
      cases segments <;> simp [visits]
    rw [hvisits, List.forall_mem_cons]
    constructor
    · rintro ⟨m, hm, hrest⟩
      obtain ⟨hdir, hlen, rfl, -⟩ := h.step_eq_ok_iff.1 hm
      obtain ⟨hall, hshort, hk, hsome⟩ := ih.1 hrest
      exact ⟨⟨hdir, hall⟩, List.forall_mem_cons.2 ⟨hlen, hshort⟩, hk, hsome⟩
    · rintro ⟨⟨hdir, hall⟩, hshort, hk, hsome⟩
      obtain ⟨hlen, hshort⟩ := List.forall_mem_cons.1 hshort
      exact ⟨_, h.step_eq_ok_iff.2 ⟨hdir, hlen, rfl, isSome_of_isDirectory (hall _ hhead)⟩,
        ih.2 ⟨hall, hshort, hk, hsome⟩⟩

theorem locate_eq_ok_iff (h : t.Sound) {p : Path} {k : Location} :
    t.locate p = .ok k ↔ checkPath p = .ok () ∧
      (∀ v ∈ (visits (t.start p) (steps p)).dropLast, t.isDirectory v = true) ∧
        Short (steps p) ∧ k = t.goalOf p ∧ (t.node? k).isSome = true := by
  obtain ⟨s, segments, hsteps⟩ := List.exists_cons_of_ne_nil (Text.pieces_ne_nil '/' p.text)
  have hsteps : steps p = s :: segments := hsteps
  unfold locate goalOf
  rw [bind_eq_ok_iff, hsteps]
  simp only [h.walk_eq_ok_iff]
  constructor
  · rintro ⟨⟨⟩, hcheck, hrest⟩
    exact ⟨hcheck, hrest⟩
  · rintro ⟨hcheck, hrest⟩
    exact ⟨(), hcheck, hrest⟩

/-- A location may change as long as it is in a directory and stays one if it was one. -/
theorem of_set (h : t.Sound) {l : Location} {node : Option Node}
    (hparent : ∀ name k, l = name :: k → t.isDirectory k = true)
    (hchildren : t.isDirectory l = true → node = some .directory)
    (hu : u.node? = (t.set l node).node?) : u.Sound := by
  have hstay : ∀ k, t.isDirectory k = true → u.isDirectory k = true := by
    intro k hk
    rw [isDirectory_iff, hu, set]
    dsimp only
    split
    · next he => exact hchildren (he ▸ hk)
    · exact isDirectory_iff.1 hk
  intro name k hsome
  rw [hu, set] at hsome
  dsimp only at hsome
  split at hsome
  · next he => exact hstay k (hparent name k he.symm)
  · exact hstay k (h name k hsome)

end Sound

/-! ## Trees that grow -/

/-- `u` is `t` with directories added in some of the locations in `fresh`. -/
structure Grown (fresh : Location → Prop) (t u : FileTree) : Prop where
  current : u.current = t.current
  node : ∀ l, u.node? l = t.node? l ∨
    (fresh l ∧ t.node? l = none ∧ u.node? l = some .directory)

namespace Grown

variable {fresh : Location → Prop}

theorem refl (fresh : Location → Prop) (t : FileTree) : Grown fresh t t := ⟨rfl, fun _ => .inl rfl⟩

theorem set_directory (h : Grown fresh t g) {l : Location} (hfresh : fresh l)
    (hnone : g.node? l = none) : Grown fresh t (g.set l (some .directory)) := by
  refine ⟨h.current, fun k => ?_⟩
  by_cases hk : k = l
  · subst hk
    refine .inr ⟨hfresh, ?_, if_pos rfl⟩
    rcases h.node k with he | ⟨-, ht, -⟩
    · rw [← he, hnone]
    · exact ht
  · have hset : (g.set l (some .directory)).node? k = g.node? k := if_neg hk
    rw [hset]
    exact h.node k

theorem isDirectory (h : Grown fresh t g) {l : Location} (hl : t.isDirectory l = true) :
    g.isDirectory l = true := by
  rw [isDirectory_iff] at hl ⊢
  rcases h.node l with he | ⟨-, -, hg⟩
  · rw [he, hl]
  · exact hg

theorem file_iff (h : Grown fresh t g) {l : Location} {content : ByteArray} :
    g.node? l = some (.file content) ↔ t.node? l = some (.file content) := by
  rcases h.node l with he | ⟨-, ht, hg⟩
  · rw [he]
  · rw [ht, hg]
    simp

theorem start (h : Grown fresh t g) (p : Path) : g.start p = t.start p := start_congr h.current p

theorem goalOf (h : Grown fresh t g) (p : Path) : g.goalOf p = t.goalOf p :=
  goalOf_congr h.current p

/-- Directories stay where they are. -/
theorem directory (h : Grown fresh t g) {p : Path} {k : Location} (hp : t.directory p = .ok k) :
    g.directory p = .ok k := by
  rw [directory_eq_ok_iff] at hp ⊢
  obtain ⟨hcheck, hall, hshort, hk⟩ := hp
  rw [h.start, h.goalOf]
  exact ⟨hcheck, fun v hv => h.isDirectory (hall v hv), hshort, hk⟩

end Grown

end BlockShell.FileTree
