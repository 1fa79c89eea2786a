/-!
# Runs

Computations with effects may run over a state (`Stateful`).  A run does the same to each item of a
list, one after the other, over a state.  It starts with its first item, and it may be cut in two.
-/

namespace BlockShell

/-! ## Computations over a state -/

/-- How the computations of a monad run over a state. -/
structure Stateful (m : Type → Type) [Monad m] (σ : Type) where
  run : {α : Type} → m α → StateM σ α
  run_pure {α : Type} (a : α) : run (pure a) = pure a
  run_bind {α β : Type} (x : m α) (f : α → m β) : run (x >>= f) = run x >>= fun a => run (f a)

theorem Stateful.pure_apply {m : Type → Type} [Monad m] {σ α : Type} (runs : Stateful m σ) (a : α)
    (s : σ) : runs.run (pure a) s = (a, s) :=
  congrFun (runs.run_pure a) s

/-- What comes second starts from what the first leaves. -/
theorem Stateful.bind_apply {m : Type → Type} [Monad m] {σ α β : Type} (runs : Stateful m σ) (x : m α)
    (f : α → m β) (s : σ) :
    runs.run (x >>= f) s =
      let ran := runs.run x s
      runs.run (f ran.1) ran.2 :=
  congrFun (runs.run_bind x f) s

/-- The state of a stateful computation. -/
def Stateful.self (σ : Type) : Stateful (StateM σ) σ where
  run x := x
  run_pure _ := rfl
  run_bind _ _ := rfl

/-- A state on top of the one that computations run over. -/
def Stateful.over {m : Type → Type} [Monad m] {σ : Type} (runs : Stateful m σ) (ρ : Type) :
    Stateful (StateT ρ m) (ρ × σ) where
  run x := fun (r, s) =>
    let ((a, r'), s') := runs.run (x r) s
    (a, r', s')
  run_pure a := by
    funext (r, s)
    show (let ((a, r'), s') := runs.run (pure (a, r)) s; (a, r', s')) = _
    rw [runs.run_pure]
    rfl
  run_bind x f := by
    funext (r, s)
    show (let ((a, r'), s') := runs.run (x r >>= fun (a, r') => f a r') s; (a, r', s')) = _
    rw [runs.run_bind]
    rfl

/-- A state on top of another one. -/
def Stateful.layered (ρ σ : Type) : Stateful (StateT ρ (StateM σ)) (ρ × σ) where
  run x := fun (r, s) =>
    let ((a, r'), s') := x r s
    (a, r', s')
  run_pure _ := rfl
  run_bind _ _ := rfl

theorem Stateful.layered_eq_iff {ρ σ α : Type} {x : StateT ρ (StateM σ) α} {r r' : ρ} {s s' : σ}
    {a : α} : (layered ρ σ).run x (r, s) = (a, r', s') ↔ x r s = ((a, r'), s') := by
  show ((x r s).1.1, (x r s).1.2, (x r s).2) = _ ↔ _
  rcases x r s with ⟨⟨_, _⟩, _⟩
  constructor
  · rintro ⟨⟩
    rfl
  · rintro ⟨⟩
    rfl

/-! ## Lists of computations -/

variable {σ α β : Type} (f : α → StateM σ β)

theorem mapM_cons_apply (x : α) (xs : List α) (s : σ) :
    (x :: xs).mapM f s =
      let first := f x s
      let rest := xs.mapM f first.2
      (first.1 :: rest.1, rest.2) := by
  rw [List.mapM_cons]
  rfl

theorem mapM_append_apply (xs ys : List α) (s : σ) :
    (xs ++ ys).mapM f s =
      let first := xs.mapM f s
      let rest := ys.mapM f first.2
      (first.1 ++ rest.1, rest.2) := by
  rw [List.mapM_append]
  rfl

variable {f} {xs : List α} {y : β} {ys : List β} {s s' : σ}

theorem mapM_eq_nil (h : xs.mapM f s = ([], s')) : xs = [] ∧ s' = s := by
  cases xs with
  | nil =>
    cases h
    exact ⟨rfl, rfl⟩
  | cons x xs =>
    rw [mapM_cons_apply] at h
    cases h

theorem mapM_eq_cons (h : xs.mapM f s = (y :: ys, s')) :
    ∃ x rest s₁, xs = x :: rest ∧ f x s = (y, s₁) ∧ rest.mapM f s₁ = (ys, s') := by
  cases xs with
  | nil => cases h
  | cons x xs =>
    rw [mapM_cons_apply] at h
    cases h
    exact ⟨x, xs, _, rfl, rfl, rfl⟩

end BlockShell
