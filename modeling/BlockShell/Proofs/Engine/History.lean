import BlockShell.Proofs.Engine.Changes
import BlockShell.Proofs.Registry.Changes

/-!
# The history of an engine

A run of changes over an engine makes a history: for each change, how it was answered and the registry
after it.  However the registry is saved, and whether or not that fails, an accepted change is one
that the registry before it accepts, and any other answer leaves that registry as it is
(`isHistory_history`).  So no step of a run adds to what is wrong with a registry
(`integrity_of_changes`).
-/

namespace BlockShell

/-- A change, how it was answered, and the registry after it. -/
structure Event where
  change : Change
  answer : Except EngineError Unit
  registry : Registry
  deriving Repr, DecidableEq

namespace Event

/-- The change was accepted. -/
def Accepted (e : Event) : Prop := e.answer = .ok ()

/-- What may happen to the registry `r`. -/
inductive Possible (r : Registry) : Event → Prop
  | accepted {c : Change} {r' : Registry} : r.Accepts c r' → Possible r ⟨c, .ok (), r'⟩
  | refused (c : Change) (e : EngineError) : Possible r ⟨c, .error e, r⟩

/-- Each event is possible after those before it, the first one in `r`. -/
inductive IsHistory : Registry → List Event → Prop
  | nil (r : Registry) : IsHistory r []
  | cons {r : Registry} {e : Event} {events : List Event} :
      e.Possible r → IsHistory e.registry events → IsHistory r (e :: events)

namespace Possible

variable {r : Registry} {e : Event}

theorem dangling_subset (h : e.Possible r) : e.registry.dangling ⊆ r.dangling := by
  cases h with
  | accepted h => exact h.dangling_subset
  | refused c e => exact subset_rfl

theorem misnamed_subset (h : e.Possible r) : e.registry.misnamed ⊆ r.misnamed := by
  cases h with
  | accepted h => exact h.misnamed_subset
  | refused c e => exact subset_rfl

theorem consistent (h : e.Possible r) (hr : r.Consistent) : e.registry.Consistent := by
  cases h with
  | accepted h => exact h.consistent hr
  | refused c e => exact hr

end Possible

section Runs

variable {r : Registry} {e : Event} {events before after : List Event}

/-- What every event does, every step of a history does. -/
theorem IsHistory.isChain {R : Registry → Registry → Prop}
    (hstep : ∀ {r e}, Possible r e → R r e.registry) (h : IsHistory r events) :
    (r :: events.map registry).IsChain R := by
  induction h with
  | nil r => exact .singleton r
  | cons hfirst _ ih => exact .cons_cons (hstep hfirst) ih

/-- What every event keeps, a history keeps. -/
theorem IsHistory.invariant {P : Registry → Prop}
    (hstep : ∀ {r e}, Possible r e → P r → P e.registry) (h : IsHistory r events) (hP : P r) :
    ∀ r' ∈ r :: events.map registry, P r' := by
  induction h with
  | nil r => exact List.forall_mem_singleton.2 hP
  | cons hfirst _ ih => exact List.forall_mem_cons.2 ⟨hP, ih (hstep hfirst hP)⟩

/-- A history goes on from any of its events. -/
theorem IsHistory.of_append (h : IsHistory r (before ++ e :: after)) :
    ∃ r', e.Possible r' ∧ IsHistory e.registry after := by
  induction before generalizing r with
  | nil =>
    cases h with
    | cons hfirst hrest => exact ⟨r, hfirst, hrest⟩
  | cons e₀ before ih =>
    cases h with
    | cons _ hrest => exact ih hrest

end Runs

end Event

namespace Engine

variable {σ : Type}

/-- What a run of changes comes to, starting from the registry `r`. -/
def history (e : Engine (StateT Registry (StateM σ)) EngineError) :
    List Change → Registry → σ → List Event
  | [], _, _ => []
  | c :: changes, r, s =>
    let ((answer, r'), s') := e.change c r s
    ⟨c, answer, r'⟩ :: history e changes r' s'

variable (save : Registry → StateM σ (Except JournalError Unit)) (changes : List Change)

theorem possible_of_change {c : Change} {r r' : Registry} {s s' : σ}
    {answer : Except EngineError Unit} (h : (saving save).change c r s = ((answer, r'), s')) :
    Event.Possible r ⟨c, answer, r'⟩ := by
  rw [change_apply] at h
  cases happly : r.apply c with
  | error e =>
    rw [happly] at h
    cases h
    exact .refused c _
  | ok next =>
    rw [happly] at h
    dsimp only at h
    rcases hsave : save next s with ⟨_ | _, s''⟩
    · rw [hsave] at h
      cases h
      exact .refused c _
    · rw [hsave] at h
      cases h
      exact .accepted (Registry.accepts_of_apply happly)

theorem isHistory_history (r : Registry) (s : σ) :
    Event.IsHistory r ((saving save).history changes r s) := by
  induction changes generalizing r s with
  | nil => exact .nil r
  | cons c changes ih =>
    obtain ⟨answer, r', s', hchange⟩ := exists_outcome ((saving save).change c r s)
    unfold history
    rw [hchange]
    exact .cons (possible_of_change save hchange) (ih r' s')

/-! ## Integrity -/

/-- No step of a run adds a mapping to a target that is not live, or a target under another's name. -/
theorem integrity_of_changes (s : σ) :
    (∀ r, (r :: ((saving save).history changes r s).map Event.registry).IsChain
      fun r r' => r'.dangling ⊆ r.dangling ∧ r'.misnamed ⊆ r.misnamed) ∧
    ∀ r ∈ Registry.empty :: ((saving save).history changes .empty s).map Event.registry,
      r.Consistent :=
  ⟨fun r => (isHistory_history save changes r s).isChain fun h => ⟨h.dangling_subset, h.misnamed_subset⟩,
    (isHistory_history save changes .empty s).invariant Event.Possible.consistent
      Registry.consistent_empty⟩

/-- A target is created, mapped, asked to be destroyed, unmapped and destroyed. -/
def lifetime : List Change :=
  [.create ⟨"t", 8, none, .null⟩, .map "0" ⟨"t", true⟩, .map "0" ⟨"t", true⟩, .destroy "t",
    .unmap "0", .unmap "0", .destroy "t", .destroy "t"]

/-- Every other registry cannot be saved. -/
def saveEveryOther (_ : Registry) : StateM Bool (Except JournalError Unit) :=
  fun fails => (if fails then .error (.noFileName ⟨"/"⟩) else .ok (), !fails)

/-- The registry while the block device is there. -/
def lifetimeMapped : Registry :=
  ⟨.ofList [("t", ⟨"t", 8, none, .null⟩)], .ofList [("0", ⟨"t", true⟩)]⟩

theorem integrity_of_lifetime :
    lifetimeMapped ∈ Registry.empty ::
        ((saving saveEveryOther).history lifetime .empty false).map Event.registry ∧
      lifetimeMapped.Consistent :=
  have hreached := by decide +kernel
  ⟨hreached, (integrity_of_changes saveEveryOther lifetime false).2 _ hreached⟩

end Engine

end BlockShell
