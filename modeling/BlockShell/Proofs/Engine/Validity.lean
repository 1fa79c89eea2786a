import BlockShell.Proofs.Engine.History
import BlockShell.Proofs.Engine.Shells
import BlockShell.Proofs.Registry.Valid

/-!
# A journal is loaded unchecked

The valid registries are those that valid changes make (`valid_iff_exists_changes`), and whatever lines
ask of an engine keeps its registry valid (`valid_of_lines`).  A journal is another way to a registry,
and there nothing is asked for but that the text writes one: it is loaded as it was written, valid or
not (`loaded_unchecked`).
-/

namespace BlockShell

namespace Engine

/-! ## What valid changes make -/

theorem changes_valid {cs : List Change} {r : Registry} (hr : r.Valid) (hcs : ∀ c ∈ cs, c.Valid) :
    (changes cs r).2.Valid :=
  changes_induction (fun c hc _ _ h hr => h.valid hr (hcs c hc)) hr

theorem valid_of_mem_building {r : Registry} (hr : r.Valid) {c : Change} (hc : c ∈ building r) :
    c.Valid := by
  rintro target rfl
  rcases List.mem_append.1 hc with hc | hc
  · obtain ⟨e, he, hcreate⟩ := List.mem_map.1 hc
    cases hcreate
    exact hr.target e.1 e.2 ((r.targets.mem_entries_iff _ _).1 he)
  · obtain ⟨e, -, hcreate⟩ := List.mem_map.1 hc
    cases hcreate

theorem valid_iff_exists_changes {r : Registry} :
    r.Valid ↔ ∃ cs : List Change, (∀ c ∈ cs, c.Valid) ∧ (changes cs .empty).2 = r := by
  constructor
  · intro hr
    exact ⟨building r, fun c => valid_of_mem_building hr, changes_building hr.consistent⟩
  · rintro ⟨cs, hcs, rfl⟩
    exact changes_valid Registry.valid_empty hcs

/-! ## What lines make -/

section Lines

variable {σ : Type} (save : Registry → StateM σ (Except JournalError Unit)) {line : String}
  {lines : List String} {answer : Answer} {answers : List Answer} {r r' : Registry} {s s' : σ}

theorem valid_of_line (h : (saving save).execute line r s = ((answer, r'), s')) (hr : r.Valid) :
    r'.Valid := by
  unfold execute at h
  cases hread : Command.read? line with
  | error err =>
    rw [hread] at h
    cases h
    exact hr
  | ok command? =>
    rw [hread] at h
    rcases command? with _ | command
    · cases h
      exact hr
    cases command with
    | change c =>
      dsimp only at h
      obtain ⟨a, r₁, s₁, hchange⟩ := exists_outcome ((saving save).change c r s)
      rw [run_of_change hchange] at h
      cases h
      cases possible_of_change save hchange with
      | accepted haccepts => exact haccepts.valid hr (Change.valid_of_read? hread)
      | refused _ e => exact hr
    | list | help topic | exit =>
      cases h
      exact hr

theorem valid_of_lines (h : lines.mapM (saving save).execute r s = ((answers, r'), s'))
    (hr : r.Valid) : r'.Valid := by
  induction lines generalizing r s answers with
  | nil =>
    cases h
    exact hr
  | cons line lines ih =>
    obtain ⟨_, _, _, _, hfirst, hrest, rfl⟩ := exists_of_mapM_cons h
    exact ih hrest (valid_of_line save hfirst hr)

end Lines

/-! ## What a journal is loaded as -/

/-- Every registry is loaded from its text, and a text is malformed only if it writes none.  What is
loaded is valid if valid changes can make it, and then lines keep it valid. -/
theorem loaded_unchecked {j : Journal} {t : FileTree} {content : ByteArray}
    (h : j.content? t = some content) :
    (∀ r : Registry, content = r.text.toUTF8 → j.loaded t = .ok r) ∧
    (j.loaded t = .error (.malformed j.path) ↔
      ∃ text : String, content = text.toUTF8 ∧ Text.allBlank text = false ∧
        Registry.ofText? text = none) ∧
    ∀ r, j.loaded t = .ok r →
      (r.Valid ↔ ∃ cs : List Change, (∀ c ∈ cs, c.Valid) ∧ (changes cs .empty).2 = r) ∧
      (r.Valid → ∀ lines : List String,
        (lines.mapM (journaled FileTree.disk j).execute r t).1.2.Valid) := by
  rw [Journal.loaded_of_content? h]
  refine ⟨?_, Journal.decode_eq_malformed_iff, fun r _ => ⟨valid_iff_exists_changes, ?_⟩⟩
  · intro r hcontent
    rw [hcontent]
    exact j.decode_text r
  · intro hr lines
    exact valid_of_lines (j.store FileTree.disk) rfl hr

/-- A directory with a file `j` that holds the text of a registry. -/
def holding (r : Registry) : FileTree :=
  (FileTree.ofDirectory []).set ["j"] (some (.file r.text.toUTF8))

theorem content?_holding (r : Registry) :
    Journal.content? ⟨⟨"j"⟩⟩ (holding r) = some r.text.toUTF8 :=
  Journal.content?_withFile r.text

/-- A registry with a single target. -/
def modest : Registry := ⟨.ofList [("t", ⟨"t", 8, some ⟨1, true⟩, .null⟩)], .empty⟩

theorem loaded_unchecked_modest :
    Journal.content? ⟨⟨"j"⟩⟩ (holding modest) = some modest.text.toUTF8 ∧
      Journal.loaded ⟨⟨"j"⟩⟩ (holding modest) = .ok modest ∧ modest.Valid ∧
      (["target_destroy name=t"].mapM (journaled FileTree.disk ⟨⟨"j"⟩⟩).execute modest
        (holding modest)).1.2.Valid := by
  have hcontent := content?_holding modest
  obtain ⟨hload, -, hvalid⟩ := loaded_unchecked hcontent
  have hloaded := hload modest rfl
  obtain ⟨hmade, hlines⟩ := hvalid modest hloaded
  have hmodest : modest.Valid := by
    refine hmade.2 ⟨[.create ⟨"t", 8, some ⟨1, true⟩, .null⟩], ?_, by decide +kernel⟩
    intro c hc target htarget
    cases List.mem_singleton.1 hc
    cases htarget
    exact ⟨by decide, by decide, trivial⟩
  exact ⟨hcontent, hloaded, hmodest, hlines hmodest ["target_destroy name=t"]⟩

/-- The sizes of the target and of its cache are zero. -/
def unsized : Registry := ⟨.ofList [("t", ⟨"t", 0, some ⟨0, true⟩, .null⟩)], .empty⟩

theorem not_valid_of_loaded :
    ∃ content, Journal.content? ⟨⟨"j"⟩⟩ (holding unsized) = some content ∧
      Journal.loaded ⟨⟨"j"⟩⟩ (holding unsized) = .ok unsized ∧ ¬ unsized.Valid := by
  have hcontent := content?_holding unsized
  refine ⟨unsized.text.toUTF8, hcontent, ?_, fun hvalid => ?_⟩
  · rw [Journal.loaded_of_content? hcontent]
    exact Journal.decode_text _ unsized
  · have hcapacity := (hvalid.target "t" ⟨"t", 0, some ⟨0, true⟩, .null⟩ (by decide)).capacity
    exact absurd hcapacity (by decide)

end Engine

end BlockShell
