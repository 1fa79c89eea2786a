import BlockShell.Proofs.Engine.Shells
import BlockShell.Proofs.Session.Fold

/-!
# Failing lines leave no trace

A line that fails leaves the registry in memory as it was, and so does a blank one.  If both kinds of
lines are taken out of a script (`effective`), a session over what is left gives the same replies and
ends with the same registry, and no line of it fails (`session_effective`).
-/

namespace BlockShell

/-- A script of which every line is a text is not broken off. -/
theorem Stops.ne_unreadable {ε : Type} {answers : List (Except (LineError ε) Flow)}
    {rest : List Bytes} {ending : Ending} (h : Stops answers rest ending)
    (hrest : ∀ line ∈ rest, ∃ text, line = .ofText text) : ending ≠ .unreadable := by
  induction h with
  | unreadable hline =>
    obtain ⟨text, htext⟩ := hrest _ (List.mem_cons_self ..)
    exact absurd htext (hline text)
  | left => exact nofun
  | finished => exact nofun
  | next _ _ ih => exact ih hrest

namespace Engine

theorem brokenBy_session {m : Type → Type} [Monad m] {ε σ : Type} (e : Engine m ε)
    (runs : Stateful m σ) (prompt text : String) (s : σ) :
    (runs.run (e.session prompt (.ofText text)) s).1.brokenBy = none := by
  obtain ⟨texts, rest, answers, ending, s', hlines, hrun, hstops⟩ :=
    e.exists_stops runs (Bytes.ofText text).lines s
  have hrest : ∀ line ∈ rest, ∃ t, line = .ofText t := by
    intro line hline
    have hmem : line ∈ (Bytes.ofText text).lines := hlines ▸ List.mem_append_right _ hline
    exact Bytes.exists_text_of_mem_lines hmem
  unfold session
  rw [hlines, sessionOver_of_stops e runs hrun hstops]
  exact if_neg (hstops.ne_unreadable hrest)

/-! ## Failing lines -/

theorem registry_of_error {line : String} {r r' : Registry} {err : LineError EngineError}
    (h : (inMemory (m := Id)).execute line r = (.error err, r')) : r' = r := by
  unfold execute at h
  generalize Command.read? line = read at h
  rcases read with _ | _ | command
  · cases h
    rfl
  · cases h
  cases command with
  | change c =>
    dsimp only at h
    rw [run_change_inMemory] at h
    cases happly : r.apply c with
    | error e =>
      rw [happly] at h
      cases h
      rfl
    | ok next =>
      rw [happly] at h
      cases h
  | list | help topic | exit => cases h

end Engine

/-- Whether a line is blank or fails. -/
def Outcome.isFruitless : Outcome → Bool
  | skipped | failed _ => true
  | _ => false

namespace Engine

theorem registry_of_outcome {line : Bytes} {o : Outcome} {r r' : Registry}
    (h : (inMemory (m := Id)).outcome line r = (o, r')) (ho : o.isFruitless = true) : r' = r := by
  cases htext : line.text? with
  | none =>
    unfold outcome at h
    rw [htext] at h
    cases h
    cases ho
  | some text =>
    obtain rfl := Bytes.text?_eq_some_iff.1 htext
    have houtcome := inMemory.outcome_ofText (Stateful.self Registry) text r
    rw [show (Stateful.self Registry).run (inMemory.outcome (.ofText text)) r = (o, r') from h]
      at houtcome
    split at houtcome
    · cases houtcome
      rfl
    · rcases hexecute : (Stateful.self Registry).run (inMemory.execute text) r with ⟨err | (reply | _), s⟩
      · rw [hexecute] at houtcome
        cases houtcome
        exact registry_of_error hexecute
      · rw [hexecute] at houtcome
        cases houtcome
        cases ho
      · rw [hexecute] at houtcome
        cases houtcome
        cases ho

end Engine

/-! ## Transcripts -/

/-- What is left of a transcript without the lines that fail. -/
def Transcript.withoutFailures (t : Transcript) : Transcript where
  output := t.output
  errors := ""
  commands := t.commands - t.failures
  failures := 0
  brokenBy := t.brokenBy

theorem Transcript.withoutFailures_append {t u : Transcript} (ht : t.failures ≤ t.commands)
    (hu : u.failures ≤ u.commands) :
    (t ++ u).withoutFailures = t.withoutFailures ++ u.withoutFailures := by
  rw [Engine.append_eq, Engine.append_eq]
  unfold withoutFailures
  simp only [String.append_empty, Transcript.mk.injEq, true_and, and_true]
  omega

namespace Outcome

theorem failures_le_commands (o : Outcome) : o.transcript.failures ≤ o.transcript.commands := by
  rcases o with _ | (_ | _) | _ | _ | _ <;> simp [transcript]

theorem withoutFailures_of_isFruitless {o : Outcome} (h : o.isFruitless = true) :
    o.transcript.withoutFailures = Engine.prompted "" := by
  rcases o with _ | _ | _ | _ | _
  · rfl
  · cases h
  · rfl
  · cases h
  · cases h

theorem withoutFailures_of_not_isFruitless {o : Outcome} (h : o.isFruitless = false) :
    o.transcript.withoutFailures = o.transcript := by
  rcases o with _ | (_ | _) | _ | _ | _
  · cases h
  · rfl
  · rfl
  · cases h
  · rfl
  · rfl

theorem ends_of_isFruitless {o : Outcome} (h : o.isFruitless = true) : o.ends = false := by
  rcases o with _ | _ | _ | _ | _
  · rfl
  · cases h
  · rfl
  · cases h
  · cases h

end Outcome

namespace Engine

theorem prompted_empty_append (t : Transcript) : prompted "" ++ t = t := by
  rw [append_eq]
  simp [prompted]

/-! ## Sessions -/

theorem sessionOver_cons (line : Bytes) (rest : List Bytes) (r : Registry) :
    (inMemory (m := Id)).sessionOver "" (line :: rest) r =
      let first := (inMemory (m := Id)).outcome line r
      if first.1.ends then (first.1.transcript, first.2)
      else
        let others := (inMemory (m := Id)).sessionOver "" rest first.2
        (first.1.transcript ++ others.1, others.2) := by
  have h := inMemory.sessionOver_cons_apply (Stateful.self Registry) "" line rest r
  simp only [prompted_empty_append] at h
  exact h

theorem failures_le_commands (lines : List Bytes) (r : Registry) :
    ((inMemory (m := Id)).sessionOver "" lines r).1.failures ≤
      ((inMemory (m := Id)).sessionOver "" lines r).1.commands := by
  induction lines generalizing r with
  | nil => exact Nat.le_refl 0
  | cons line lines ih =>
    rw [sessionOver_cons]
    rcases (inMemory (m := Id)).outcome line r with ⟨o, r'⟩
    dsimp only
    split
    · exact o.failures_le_commands
    · exact Nat.add_le_add o.failures_le_commands (ih r')

/-- The raw lines of a script that are left without those that fail and the blank ones, if the script
is carried out from a registry. -/
def effective : List Bytes → Registry → List Bytes
  | [], _ => []
  | raw :: raws, r =>
    let (o, r') := (inMemory (m := Id)).outcome raw.content r
    -- The lines after this one are not carried out, so none of them fails.
    if o.ends then raw :: raws.filter fun raw => !raw.content.text?.any Text.allBlank
    else if o.isFruitless then effective raws r'
    else raw :: effective raws r'

theorem effective_sublist (raws : List Bytes) (r : Registry) : (effective raws r).Sublist raws := by
  induction raws generalizing r with
  | nil => exact .slnil
  | cons raw raws ih =>
    unfold effective
    rcases (inMemory (m := Id)).outcome raw.content r with ⟨o, r'⟩
    dsimp only
    split_ifs
    · exact List.filter_sublist.cons_cons raw
    · exact (ih r').cons raw
    · exact (ih r').cons_cons raw

theorem sessionOver_effective (raws : List Bytes) (r : Registry) :
    (inMemory (m := Id)).sessionOver "" ((effective raws r).map Bytes.content) r =
      let ran := (inMemory (m := Id)).sessionOver "" (raws.map Bytes.content) r
      (ran.1.withoutFailures, ran.2) := by
  induction raws generalizing r with
  | nil => rfl
  | cons raw raws ih =>
    rw [List.map_cons, sessionOver_cons, effective]
    rcases houtcome : (inMemory (m := Id)).outcome raw.content r with ⟨o, r'⟩
    have hle := failures_le_commands (raws.map Bytes.content) r'
    have hi := ih r'
    dsimp only at hi ⊢
    by_cases hfruitless : o.isFruitless = true
    · -- The registry is the same without the line.
      obtain rfl := registry_of_outcome houtcome hfruitless
      have hends := Outcome.ends_of_isFruitless hfruitless
      rw [if_neg (by simp [hends]), if_pos hfruitless, if_neg (by simp [hends]), hi,
        Transcript.withoutFailures_append o.failures_le_commands hle,
        Outcome.withoutFailures_of_isFruitless hfruitless, prompted_empty_append]
    · have hkept := Outcome.withoutFailures_of_not_isFruitless (Bool.eq_false_iff.2 hfruitless)
      cases hends : o.ends with
      | true =>
        rw [if_pos rfl, if_pos rfl, List.map_cons, sessionOver_cons, houtcome]
        dsimp only
        rw [if_pos hends, hkept]
      | false =>
        rw [if_neg Bool.false_ne_true, if_neg Bool.false_ne_true, if_neg hfruitless, List.map_cons,
          sessionOver_cons, houtcome]
        dsimp only
        rw [if_neg (by simp [hends]), hi,
          Transcript.withoutFailures_append o.failures_le_commands hle, hkept]

/-- A session without the lines that fail and the blank ones gives the same replies and ends with the
same registry, and nothing fails. -/
theorem session_effective (text : String) (r : Registry) :
    let script := Bytes.ofText text
    let ran := (inMemory (m := Id)).session "" script r
    let again := (inMemory (m := Id)).session "" (effective script.rawLines r).flatten r
    ran.1.brokenBy = none ∧ ran.1.failures ≤ ran.1.commands ∧
      again = (⟨ran.1.output, "", ran.1.commands - ran.1.failures, 0, none⟩, ran.2) := by
  intro script ran again
  have hunbroken : ran.1.brokenBy = none :=
    inMemory.brokenBy_session (Stateful.self Registry) "" text r
  have hraw : Bytes.AreRaw script.rawLines := Bytes.areRaw_rawLines script
  have hlines : Bytes.lines script = script.rawLines.map Bytes.content := by
    rw [← Bytes.lines_flatten hraw, Bytes.flatten_rawLines]
  have hagain : again = (ran.1.withoutFailures, ran.2) := by
    show (inMemory (m := Id)).sessionOver "" (Bytes.lines _) r = _
    rw [Bytes.lines_flatten (hraw.sublist (effective_sublist _ r)), sessionOver_effective]
    show _ = (((inMemory (m := Id)).sessionOver "" script.lines r).1.withoutFailures,
      ((inMemory (m := Id)).sessionOver "" script.lines r).2)
    rw [hlines]
  refine ⟨hunbroken, failures_le_commands _ r, hagain.trans ?_⟩
  unfold Transcript.withoutFailures
  rw [hunbroken]

end Engine

end BlockShell
