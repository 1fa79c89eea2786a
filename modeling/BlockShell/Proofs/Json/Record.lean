import BlockShell.Json.Record
import BlockShell.Proofs.Json.Text
import BlockShell.Proofs.Table

/-!
# Objects with text in their keys

What is found under a name in an object does not depend on the order of its members (`sole?_perm`,
`member?_record`).  A record of plain values is plain and nests one deeper than they do
(`tame_record`).
-/

namespace BlockShell.Json

variable {α β : Type} {members kept : List (String × Json)} {name : String}

/-! ## Objects -/

theorem mapM_eq_some_iff {f : α → Option β} {l : List α} {l' : List β} :
    l.mapM f = some l' ↔ List.Forall₂ (fun a b => f a = some b) l l' := by
  induction l generalizing l' with
  | nil =>
    rw [List.forall₂_nil_left_iff]
    exact ⟨fun h => (Option.some.inj h).symm, fun h => h ▸ rfl⟩
  | cons a l ih =>
    rw [List.mapM_cons, List.forall₂_cons_left_iff]
    cases ha : f a with
    | none => simp
    | some b =>
      simp only [← ih]
      cases l.mapM f with
      | none => simp
      | some m => simp [eq_comm]

theorem mapM_eq_none_iff {f : α → Option β} {l : List α} :
    l.mapM f = none ↔ ∃ a ∈ l, f a = none := by
  induction l with
  | nil => simp
  | cons a l ih =>
    rw [List.mapM_cons, List.exists_mem_cons_iff, ← ih]
    cases f a <;> cases l.mapM f <;> simp

theorem mapM_eq_map {f : α → Option β} {g : α → β} {l : List α} (h : ∀ a ∈ l, f a = some (g a)) :
    l.mapM f = some (l.map g) := by
  rw [mapM_eq_some_iff, List.forall₂_map_right_iff, List.forall₂_same]
  exact h

/-- The element of a list with at most one. -/
def sole? : List α → Option (Option α)
  | [] => some none
  | [a] => some (some a)
  | _ => none

theorem sole?_perm {l l' : List α} (h : l.Perm l') : sole? l = sole? l' := by
  match l, l', h with
  | [], _, h => rw [List.nil_perm.1 h]
  | [a], _, h => rw [List.singleton_perm.1 h]
  | a :: b :: l, l', h =>
    match l', h.length_eq with
    | _ :: _ :: _, _ => rfl

theorem member?_record (members : List (String × Json)) (name : String) :
    member? (members.map fun e => (some e.1, e.2)) name =
      (sole? (members.filter fun e => e.1 == name)).map (Option.map Prod.snd) := by
  have hkeys : ((fun f : Text × Json => f.1 == some name) ∘ fun e => (some e.1, e.2)) =
      fun e : String × Json => e.1 == name := by
    funext e
    simp
  rw [member?, List.filter_map, hkeys]
  generalize members.filter (fun e => e.1 == name) = found
  rcases found with _ | ⟨e, _ | ⟨e', l⟩⟩ <;> rfl

theorem filter_key_eq_nil (h : name ∉ members.map Prod.fst) :
    members.filter (fun e => e.1 == name) = [] := by
  rw [List.filter_eq_nil_iff]
  intro e he hkey
  exact h (List.mem_map.2 ⟨e, he, beq_iff_eq.1 hkey⟩)

theorem sole?_filter (h : (kept.map Prod.fst).Nodup) (name : String) :
    (sole? (kept.filter fun e => e.1 == name)).map (Option.map Prod.snd) =
      some (kept.lookup name) := by
  induction kept with
  | nil => rfl
  | cons e kept ih =>
    obtain ⟨hnot, hnodup⟩ := List.nodup_cons.1 h
    rw [List.filter_cons, List.lookup_cons]
    by_cases he : e.1 = name
    · subst he
      rw [if_pos (beq_self_eq_true e.1), filter_key_eq_nil hnot, beq_self_eq_true]
      rfl
    · rw [if_neg (by simpa using he), beq_eq_false_iff_ne.2 (Ne.symm he)]
      exact ih hnodup

theorem fields?_record (members : List (String × Json)) (names : List String) :
    (record members).fields? names =
      names.mapM (member? (members.map fun e => (some e.1, e.2))) := by
  rw [record, fields?, if_pos (by simp)]

/-! ## Nesting -/

/-- A value that is read back as it is written, is plain, and does not nest deeper than `d`. -/
structure Tame (d : Nat) (v : Json) : Prop where
  written : v.Written
  plain : v.isPlain = true
  depth_le : v.depth ≤ d

theorem Tame.mono {d e : Nat} {v : Json} (h : v.Tame d) (hde : d ≤ e) : v.Tame e :=
  ⟨h.written, h.plain, Nat.le_trans h.depth_le hde⟩

theorem tame_null : null.Tame 0 := ⟨trivial, rfl, Nat.le_refl 0⟩

theorem tame_bool (b : Bool) : (bool b).Tame 0 := ⟨trivial, rfl, Nat.le_refl 0⟩

theorem tame_ofString (s : String) : (ofString s).Tame 0 := ⟨rfl, rfl, Nat.le_refl 0⟩

theorem tame_ofNat {n : Nat} (h : n < UInt64.size) : (ofNat n).Tame 0 :=
  ⟨Number.isLiteral_ofNat n, Number.inRange_ofNat h, Nat.le_refl 0⟩

theorem tame_array {d : Nat} {items : List Json} (h : ∀ v ∈ items, v.Tame d) :
    (array items).Tame (d + 1) := by
  induction items with
  | nil => exact ⟨trivial, rfl, by simp [depth, depthOfAll]⟩
  | cons v items ih =>
    have hv := h v (List.mem_cons_self ..)
    have hitems := ih fun w hw => h w (List.mem_cons_of_mem _ hw)
    refine ⟨⟨hv.written, hitems.written⟩, Bool.and_eq_true_iff.2 ⟨hv.plain, hitems.plain⟩, ?_⟩
    exact Nat.succ_le_succ (Nat.max_le.2 ⟨hv.depth_le, Nat.le_of_succ_le_succ hitems.depth_le⟩)

theorem tame_record {d : Nat} {fields : List (String × Json)} (h : ∀ e ∈ fields, e.2.Tame d) :
    (record fields).Tame (d + 1) := by
  induction fields with
  | nil => exact ⟨trivial, rfl, by simp [record, depth, depthOfMembers]⟩
  | cons e fields ih =>
    have he := h e (List.mem_cons_self ..)
    have hfields := ih fun f hf => h f (List.mem_cons_of_mem _ hf)
    refine ⟨⟨rfl, he.written, hfields.written⟩, Bool.and_eq_true_iff.2
      ⟨Bool.and_eq_true_iff.2 ⟨rfl, he.plain⟩, hfields.plain⟩, ?_⟩
    exact Nat.succ_le_succ (Nat.max_le.2 ⟨he.depth_le, Nat.le_of_succ_le_succ hfields.depth_le⟩)

end BlockShell.Json
