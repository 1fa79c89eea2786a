import BlockShell.Proofs.Engine.Shells
import BlockShell.Proofs.Session.Fold
import BlockShell.Proofs.Target.Messages

/-!
# The error text of a session

For each line that fails, the message of its error is written to the error text, with a line feed behind
it.  No message holds a line feed itself, whatever the line quotes (`singleLine_of_error`).  So the lines
of the error text are the messages of the failing lines, one for one (`errors_attributable`).
-/

namespace BlockShell

/-! ## Rejections -/

/-- Every text that the message quotes is a single line. -/
def RegistryError.SingleLine : RegistryError → Prop
  | targetExists name | targetNotFound name | targetBusy name _ => Text.SingleLine name
  | alreadyMapped suffix | notMapped suffix => Text.SingleLine suffix

theorem RegistryError.singleLine_message {e : RegistryError} (h : e.SingleLine) :
    Text.SingleLine e.message := by
  cases e with
  | targetBusy name mappings =>
    exact .append (.append (.append (.append (by decide) h) (by decide))
      (Text.singleLine_toString mappings)) (by decide)
  | targetExists name | targetNotFound name | alreadyMapped suffix | notMapped suffix =>
    exact .append (.append (by decide) h) (by decide)

/-- A change that is rejected is rejected for a name or suffix of its own. -/
theorem Registry.singleLine_of_rejected {r : Registry} {c : Change} (h : c.SingleLine)
    {e : RegistryError} (he : r.apply c = .error e) : e.SingleLine := by
  cases c <;> unfold apply at he <;> dsimp only at he
  case create target =>
    unfold create at he
    split at he <;> cases he
    exact h
  case destroy name =>
    unfold destroy at he
    split at he
    · cases he
      exact h
    · split at he <;> cases he
      exact h
  case map suffix mapping =>
    unfold map at he
    split at he
    · cases he
      exact h.2
    · split at he <;> cases he
      exact h.1
  case unmap suffix =>
    unfold unmap at he
    split at he <;> cases he
    exact h

theorem Change.singleLine_failure {c : Change} (h : c.SingleLine) :
    Text.SingleLine (Call.change c).failure := by
  cases c with
  | create target | destroy name | unmap suffix => exact .append (.append (by decide) h) (by decide)
  | map suffix mapping =>
    exact .append (.append (.append (.append (by decide) h.1) (by decide)) h.2) (by decide)

namespace Engine

/-- A message quotes the line that fails, and nothing else that could hold a line feed. -/
theorem singleLine_of_error {line : String} (hline : Text.SingleLine line) {r r' : Registry}
    {err : LineError EngineError}
    (h : (inMemory (m := Id)).execute line r = (.error err, r')) :
    Text.SingleLine ((inMemory (m := Id)).lineErrorMessage err) := by
  have hread := Command.singleLine_read? hline
  unfold execute at h
  generalize Command.read? line = read at h hread
  rcases read with e | _ | command
  · cases h
    exact CommandError.singleLine_message hread
  · cases h
  cases command with
  | change c =>
    have hc : c.SingleLine := hread _ rfl
    dsimp only at h
    rw [run_change_inMemory] at h
    cases happly : r.apply c with
    | error e =>
      rw [happly] at h
      cases h
      exact .append (.append (Change.singleLine_failure hc) (by decide))
        (RegistryError.singleLine_message (Registry.singleLine_of_rejected hc happly))
    | ok next =>
      rw [happly] at h
      cases h
  | list | help topic | exit => cases h

end Engine

/-! ## Texts with line feeds -/

namespace Text

/-- Each of the texts with a line feed behind it. -/
def ended (texts : List String) : String := String.join (texts.map (· ++ "\n"))

theorem ended_cons (s : String) (texts : List String) : ended (s :: texts) = s ++ "\n" ++ ended texts :=
  String.join_cons

variable {texts : List String}

theorem ended_eq_join (texts : List String) : ended texts = join '\n' (texts ++ [""]) := by
  induction texts with
  | nil => rfl
  | cons s texts ih =>
    rw [ended_cons, ih]
    exact (String.intercalate_cons_of_ne_nil (by simp)).symm

theorem pieces_ended (h : ∀ s ∈ texts, SingleLine s) : pieces '\n' (ended texts) = texts ++ [""] := by
  rw [ended_eq_join]
  exact pieces_join (List.forall_mem_append.2 ⟨h, by decide⟩) (by simp)

theorem count_ended (h : ∀ s ∈ texts, SingleLine s) :
    (ended texts).toList.count '\n' = texts.length := by
  induction texts with
  | nil => rfl
  | cons s texts ih =>
    obtain ⟨hs, htexts⟩ := List.forall_mem_cons.1 h
    have hfeed : "\n".toList.count '\n' = 1 := by decide
    rw [ended_cons, String.toList_append, String.toList_append, List.count_append, List.count_append,
      List.count_eq_zero.2 hs, hfeed, ih htexts, List.length_cons]
    omega

theorem getLast?_ended (hne : ended texts ≠ "") : (ended texts).toList.getLast? = some '\n' := by
  rcases List.eq_nil_or_concat' texts with rfl | ⟨texts, s, rfl⟩
  · exact absurd rfl hne
  · have hlast : ended (texts ++ [s]) = ended texts ++ s ++ "\n" := by
      simp [ended, String.append_assoc]
    rw [hlast, String.toList_append]
    exact List.getLast?_append_of_ne_nil _ (by decide)

end Text

/-! ## The error text -/

namespace Engine

section Messages

variable {m : Type → Type} {ε : Type} (e : Engine m ε)

/-- The message of a failing line. -/
def message? : Except (LineError ε) Flow → Option String
  | .error err => some (e.lineErrorMessage err)
  | .ok _ => none

theorem errors_eq_ended (answers : List (Except (LineError ε) Flow)) :
    String.join (answers.map e.failureText) = Text.ended (answers.filterMap e.message?) := by
  induction answers with
  | nil => rfl
  | cons answer answers ih =>
    rw [List.map_cons, String.join_cons, ih]
    cases answer with
    | error err => exact (Text.ended_cons _ _).symm
    | ok flow => exact String.empty_append

theorem length_messages (answers : List (Except (LineError ε) Flow)) :
    (answers.filterMap e.message?).length = answers.countP fun a => !a.isOk := by
  rw [List.length_filterMap_eq_countP]
  exact List.countP_congr fun a _ => by cases a <;> simp [message?, Except.isOk, Except.toBool]

end Messages

/-- The messages in the answers to single lines are single lines. -/
theorem singleLine_messages {texts : List String} (htexts : ∀ text ∈ texts, Text.SingleLine text)
    {r r' : Registry} {answers : List Answer}
    (h : texts.mapM (inMemory (m := Id)).execute r = (answers, r')) :
    ∀ message ∈ answers.filterMap (inMemory (m := Id)).message?, Text.SingleLine message := by
  induction answers generalizing texts r with
  | nil => exact nofun
  | cons answer answers ih =>
    obtain ⟨text, texts, r₁, rfl, hfirst, hrest⟩ := mapM_eq_cons h
    obtain ⟨htext, htexts⟩ := List.forall_mem_cons.1 htexts
    have hmessages := ih htexts hrest
    cases answer with
    | error err => exact List.forall_mem_cons.2 ⟨singleLine_of_error htext hfirst, hmessages⟩
    | ok flow => exact hmessages

/-- The lines of the error text are the messages of the lines that fail, in their order, and nothing in a
script breaks a message in two or adds a line to the error text. -/
theorem errors_attributable (prompt : Option String) (script : Bytes) (r : Registry) :
    let ran := (inMemory (m := Id)).session (prompt.getD "") script r
    ∃ (texts : List String) (rest : List Bytes) (answers : List Answer) (ending : Ending),
      script.CutInto (texts.map .ofText ++ rest) ∧
      texts.mapM (inMemory (m := Id)).execute r = (answers, ran.2) ∧ Stops answers rest ending ∧
      let messages := answers.filterMap (inMemory (m := Id)).message?
      Text.pieces '\n' ran.1.errors = messages ++ [""] ∧ messages.length = ran.1.failures ∧
      ran.1.errors.toList.count '\n' = ran.1.failures ∧
      (ran.1.errors ≠ "" → ran.1.errors.toList.getLast? = some '\n') := by
  intro ran
  obtain ⟨texts, rest, answers, ending, r', hlines, hrun, hstops⟩ :=
    inMemory.exists_stops (.self Registry) script.lines r
  have hran : ran = ((inMemory (m := Id)).transcriptOf (prompt.getD "") texts answers ending, r') := by
    show (inMemory (m := Id)).sessionOver (prompt.getD "") script.lines r = _
    rw [hlines]
    exact inMemory.sessionOver_of_stops (.self Registry) hrun hstops
  have hcut := Bytes.cutInto_iff.2 hlines
  have htexts : ∀ text ∈ texts, Text.SingleLine text := fun text htext =>
    Bytes.newline_not_mem (hcut.not_mem _ (List.mem_append_left _ (List.mem_map_of_mem htext)))
  have hmessages := singleLine_messages htexts hrun
  have herrors : ran.1.errors = Text.ended (answers.filterMap (inMemory (m := Id)).message?) := by
    rw [hran]
    exact inMemory.errors_eq_ended answers
  have hfailures : (answers.filterMap (inMemory (m := Id)).message?).length = ran.1.failures := by
    rw [hran]
    exact inMemory.length_messages answers
  refine ⟨texts, rest, answers, ending, hcut, hran ▸ hrun, hstops, ?_, hfailures, ?_, ?_⟩
  · rw [herrors]
    exact Text.pieces_ended hmessages
  · rw [herrors, ← hfailures]
    exact Text.count_ended hmessages
  · rw [herrors]
    exact Text.getLast?_ended

end Engine

end BlockShell
