import BlockShell.Proofs.Engine.InMemory
import BlockShell.Proofs.Registry.Listing
import BlockShell.Proofs.Text.Order

/-!
# Listing and destroying

The listing of a registry that changes can make tells which targets can be destroyed: those with a row
without mappings.  The mappings in a row are what stands in the way, and a target without a row is not
there (`list_agrees_destroy`).
-/

namespace BlockShell

namespace Registry

variable {r : Registry} {name : String}

theorem answer_destroy (r : Registry) (name : String) : r.answer (.destroy name) =
    if r.targets.contains name = false then .error (.targetNotFound name)
    else if r.mappingsOf name = 0 then .ok ()
    else .error (.targetBusy name (r.mappingsOf name)) := by
  unfold answer
  simp only [apply, destroy]
  cases r.targets.contains name with
  | false => rfl
  | true =>
    by_cases hidle : r.mappingsOf name = 0
    · simp [hidle, Except.map]
    · simp [hidle, Nat.pos_of_ne_zero hidle, Except.map]

theorem answer_destroy_eq_ok_iff : r.answer (.destroy name) = .ok () ↔
    r.targets.contains name = true ∧ r.mappingsOf name = 0 := by
  rw [answer_destroy]
  split_ifs <;> simp_all

theorem answer_destroy_eq_busy_iff {k : Nat} : r.answer (.destroy name) = .error (.targetBusy name k) ↔
    0 < k ∧ r.targets.contains name = true ∧ r.mappingsOf name = k := by
  rw [answer_destroy]
  split_ifs with hdead hidle
  · simp [hdead]
  · simp [hidle]
    omega
  · simp [hdead]
    omega

theorem answer_destroy_eq_notFound_iff : r.answer (.destroy name) = .error (.targetNotFound name) ↔
    r.targets.contains name = false := by
  rw [answer_destroy]
  split_ifs <;> simp_all

end Registry

namespace Engine

theorem mapError_eq_ok_iff {ε ε' α : Type} {f : ε → ε'} {x : Except ε α} {a : α} :
    x.mapError f = .ok a ↔ x = .ok a := by
  cases x <;> simp [Except.mapError]

theorem mapError_registry_eq_iff {x : Except RegistryError Unit} {e : RegistryError} :
    x.mapError EngineError.registry = .error (.registry e) ↔ x = .error e := by
  cases x <;> simp [Except.mapError]

/-- The rows of a listing are the live targets in the order of their names, their mappings are all
there are, and they tell what comes of destroying a target. -/
theorem list_agrees_destroy {r : Registry} (h : Reachable r) :
    ∃ rows, (inMemory (m := Id)).list r = (.ok rows, r) ∧
      rows.Pairwise (fun a b => Bytes.ofText a.name < Bytes.ofText b.name) ∧
      (∀ row, row ∈ rows ↔ ∃ target, r.targets.get? row.name = some target ∧
        row.kind = target.layout.kind ∧ row.capacity = target.capacity ∧
        row.mappings = (r.mappedOnto row.name).ncard) ∧
      (rows.map Summary.mappings).sum = r.mappings.size ∧
      ∀ name,
        let answer := ((inMemory (m := Id)).change (.destroy name) r).1
        (answer = .ok () ↔ ∃ row ∈ rows, row.name = name ∧ row.mappings = 0) ∧
        (∀ k, answer = .error (.registry (.targetBusy name k)) ↔
          0 < k ∧ ∃ row ∈ rows, row.name = name ∧ row.mappings = k) ∧
        (answer = .error (.registry (.targetNotFound name)) ↔ ∀ row ∈ rows, row.name ≠ name) := by
  have hr : r.Consistent := reachable_iff_consistent.1 h
  refine ⟨r.summaries, rfl, ?_, fun row => ?_, Registry.sum_mappings hr, fun name => ?_⟩
  · exact (Registry.pairwise_summaries hr).imp Bytes.ofText_lt_ofText
  · rw [Registry.mem_summaries_iff hr]
    refine exists_congr fun target => and_congr_right fun htarget => ?_
    obtain ⟨name, kind, capacity, mappings⟩ := row
    obtain rfl : target.name = name := hr.named name target htarget
    rw [← Registry.mappingsOf_eq_ncard, Registry.summary]
    simp only [Summary.mk.injEq, true_and, eq_comm]
  · simp only [change_inMemory_eq]
    refine ⟨?_, fun k => ?_, ?_⟩
    · rw [mapError_eq_ok_iff, Registry.answer_destroy_eq_ok_iff, Registry.exists_row_iff hr]
    · rw [mapError_registry_eq_iff, Registry.answer_destroy_eq_busy_iff, Registry.exists_row_iff hr]
    · rw [mapError_registry_eq_iff, Registry.answer_destroy_eq_notFound_iff,
        Registry.forall_row_ne_iff hr]

/-- Two block devices are mapped onto one of two targets. -/
def sharing : List Change :=
  [.create ⟨"u", 8, none, .null⟩, .create ⟨"t", 16, none, .inMemory⟩, .map "b" ⟨"t", false⟩,
    .map "a" ⟨"t", true⟩]

theorem list_agrees_destroy_sharing :
    Reachable (changes sharing .empty).2 ∧
      ((inMemory (m := Id)).list (changes sharing .empty).2).1 =
        .ok [⟨"t", .inMemory, 16, 2⟩, ⟨"u", .null, 8, 0⟩] ∧
      ((inMemory (m := Id)).change (.destroy "t") (changes sharing .empty).2).1 =
        .error (.registry (.targetBusy "t" 2)) ∧
      ((inMemory (m := Id)).change (.destroy "u") (changes sharing .empty).2).1 = .ok () ∧
      ((inMemory (m := Id)).change (.destroy "v") (changes sharing .empty).2).1 =
        .error (.registry (.targetNotFound "v")) := by
  have hmade : Reachable (changes sharing .empty).2 := ⟨sharing, rfl⟩
  have hlist : ((inMemory (m := Id)).list (changes sharing .empty).2).1 =
      .ok [⟨"t", .inMemory, 16, 2⟩, ⟨"u", .null, 8, 0⟩] := by decide +kernel
  obtain ⟨rows, hrows, -, -, -, hdestroy⟩ := list_agrees_destroy hmade
  rw [hrows] at hlist
  cases hlist
  refine ⟨hmade, by rw [hrows], (hdestroy "t").2.1 2 |>.2 ?_, (hdestroy "u").1.2 ?_,
    (hdestroy "v").2.2.2 ?_⟩ <;> decide +kernel

end Engine

end BlockShell
