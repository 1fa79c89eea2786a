import BlockShell.Disk.Tree
import BlockShell.Engine.Registry
import BlockShell.Proofs.Runs
import BlockShell.Proofs.Session.Lines
import BlockShell.Proofs.Text.Cut

/-!
# A session is a fold over its lines

A session carries out the lines of its script one after the other, each as a single line is carried
out, until one cannot be read, one leaves the session, or there are no more (`Stops`).  What it
writes and counts is put together from the texts of those lines and the answers to them
(`session_eq_iff`); the lines after that do not matter.
-/

namespace BlockShell

/-- Why no more lines are read. -/
inductive Ending where
  /-- The next line is not UTF-8. -/
  | unreadable
  /-- The last line that was read leaves the session. -/
  | left
  /-- There is no next line. -/
  | finished
  deriving DecidableEq

/-- The lines that have been answered are the ones to be read, `rest` being those after them. -/
inductive Stops {ε : Type} : List (Except (LineError ε) Flow) → List Bytes → Ending → Prop
  | unreadable {line : Bytes} {rest : List Bytes} : (∀ text, line ≠ .ofText text) →
      Stops [] (line :: rest) .unreadable
  | left {rest : List Bytes} : Stops [.ok .leave] rest .left
  | finished : Stops [] [] .finished
  | next {answer : Except (LineError ε) Flow} {answers : List (Except (LineError ε) Flow)}
      {rest : List Bytes} {ending : Ending} : answer ≠ .ok .leave → Stops answers rest ending →
      Stops (answer :: answers) rest ending

/-! ## What is written and counted -/

/-- The reply to a line and a line feed, if there is a reply. -/
def replyText {ε : Type} : Except (LineError ε) Flow → String
  | .ok (.proceed (some reply)) => reply ++ "\n"
  | _ => ""

/-- What is written at the end. -/
def Ending.text (prompt : String) : Ending → String
  | unreadable => prompt
  | left => farewell
  | finished => prompt ++ farewell

namespace Engine

variable {m : Type → Type} {ε : Type} (e : Engine m ε)

/-- The message of a failing line and a line feed. -/
def failureText : Except (LineError ε) Flow → String
  | .error err => e.lineErrorMessage err ++ "\n"
  | .ok _ => ""

/-- The transcript of a session in which lines with the given texts got the given answers. -/
def transcriptOf (prompt : String) (texts : List String) (answers : List (Except (LineError ε) Flow))
    (ending : Ending) : Transcript where
  output := String.join (answers.map fun a => prompt ++ replyText a) ++ ending.text prompt
  errors := String.join (answers.map e.failureText)
  commands := texts.countP fun text => Text.trim text ≠ ""
  failures := answers.countP fun a => !a.isOk
  brokenBy := if ending = .unreadable then some .notText else none

section Transcript

variable {prompt : String} {texts : List String} {answers : List (Except (LineError ε) Flow)}
  {ending : Ending}

theorem append_eq (t u : Transcript) : t ++ u = ⟨t.output ++ u.output, t.errors ++ u.errors,
    t.commands + u.commands, t.failures + u.failures, t.brokenBy <|> u.brokenBy⟩ :=
  rfl

theorem transcriptOf_nil : e.transcriptOf prompt [] [] ending = ⟨ending.text prompt, "", 0, 0,
    if ending = .unreadable then some .notText else none⟩ := by
  simp [transcriptOf]

/-- The transcript goes on after a line that was answered. -/
theorem transcriptOf_cons (text : String) (answer : Except (LineError ε) Flow) :
    e.transcriptOf prompt (text :: texts) (answer :: answers) ending =
      prompted prompt ++ ⟨replyText answer, e.failureText answer,
        if Text.trim text ≠ "" then 1 else 0, if answer.isOk then 0 else 1, none⟩ ++
        e.transcriptOf prompt texts answers ending := by
  unfold transcriptOf
  rw [append_eq, append_eq]
  cases hok : answer.isOk <;>
    simp [prompted, List.countP_cons, String.append_assoc, Nat.add_comm, hok]

end Transcript

/-! ## A single line -/

variable [Monad m]

/-- To carry out a blank line is to do nothing. -/
theorem execute_of_blank {text : String} (h : Text.allBlank text = true) :
    e.execute text = pure (.ok (.proceed none)) := by
  have hread : Command.read? text = .ok none := if_pos (Text.trim_eq_empty_iff.2 h)
  unfold execute
  rw [hread]

variable {σ : Type} (runs : Stateful m σ)

section Line

variable {prompt text : String} {answer : Except (LineError ε) Flow} {s s' : σ}

theorem outcome_ofText (text : String) (s : σ) :
    runs.run (e.outcome (.ofText text)) s =
      if Text.allBlank text then (.skipped, s)
      else match runs.run (e.execute text) s with
        | (.ok (.proceed reply), s') => (.done reply, s')
        | (.ok .leave, s') => (.left, s')
        | (.error err, s') => (.failed (e.lineErrorMessage err), s') := by
  unfold outcome
  rw [Bytes.text?_ofText]
  dsimp only
  split
  · exact runs.pure_apply ..
  · rw [runs.bind_apply]
    rcases runs.run (e.execute text) s with ⟨err | (reply | _), s'⟩ <;> exact runs.pure_apply ..

theorem outcome_of_leave (h : runs.run (e.execute text) s = (.ok .leave, s')) :
    runs.run (e.outcome (.ofText text)) s = (.left, s') ∧ Text.trim text ≠ "" := by
  have hblank : ¬ Text.allBlank text = true := by
    intro hblank
    rw [e.execute_of_blank hblank, runs.run_pure] at h
    cases h
  rw [outcome_ofText, if_neg hblank, h, ne_eq, Text.trim_eq_empty_iff]
  exact ⟨rfl, hblank⟩

theorem outcome_of_proceed (h : runs.run (e.execute text) s = (answer, s'))
    (hanswer : answer ≠ .ok .leave) :
    ∃ o, runs.run (e.outcome (.ofText text)) s = (o, s') ∧ o.ends = false ∧
      o.transcript = ⟨replyText answer, e.failureText answer, if Text.trim text ≠ "" then 1 else 0,
        if answer.isOk then 0 else 1, none⟩ := by
  rw [outcome_ofText]
  by_cases hblank : Text.allBlank text = true
  · have htrim : Text.trim text = "" := Text.trim_eq_empty_iff.2 hblank
    rw [e.execute_of_blank hblank, runs.run_pure] at h
    cases h
    rw [if_pos hblank, if_neg (not_not.2 htrim)]
    exact ⟨_, rfl, rfl, rfl⟩
  · have htrim : Text.trim text ≠ "" := fun h => hblank (Text.trim_eq_empty_iff.1 h)
    rw [if_neg hblank, h, if_pos htrim]
    cases answer with
    | error err => exact ⟨_, rfl, rfl, rfl⟩
    | ok flow =>
      cases flow with
      | leave => exact absurd rfl hanswer
      | proceed reply => cases reply <;> exact ⟨_, rfl, rfl, rfl⟩

end Line

/-! ## The lines of a script -/

theorem sessionOver_cons_apply (prompt : String) (line : Bytes) (rest : List Bytes) (s : σ) :
    runs.run (e.sessionOver prompt (line :: rest)) s =
      let first := runs.run (e.outcome line) s
      let t := prompted prompt ++ first.1.transcript
      if first.1.ends then (t, first.2)
      else
        let others := runs.run (e.sessionOver prompt rest) first.2
        (t ++ others.1, others.2) := by
  rw [sessionOver, runs.bind_apply]
  rcases runs.run (e.outcome line) s with ⟨o, s₁⟩
  dsimp only
  cases o.ends with
  | true =>
    rw [if_pos rfl, if_pos rfl, runs.pure_apply]
  | false =>
    rw [if_neg Bool.false_ne_true, if_neg Bool.false_ne_true]
    show runs.run (_ >>= fun others => _) s₁ = _
    rw [runs.bind_apply, runs.pure_apply]

theorem sessionOver_of_stops {prompt : String} {texts : List String}
    {answers : List (Except (LineError ε) Flow)} {rest : List Bytes} {ending : Ending} {s s' : σ}
    (hrun : texts.mapM (fun text => runs.run (e.execute text)) s = (answers, s'))
    (hstops : Stops answers rest ending) :
    runs.run (e.sessionOver prompt (texts.map .ofText ++ rest)) s =
      (e.transcriptOf prompt texts answers ending, s') := by
  -- There are as many answers as texts, so each case takes the first line off both.
  induction hstops generalizing texts s with
  | @unreadable line rest hline =>
    obtain ⟨rfl, rfl⟩ := mapM_eq_nil hrun
    have houtcome : runs.run (e.outcome line) s' = (.unreadable, s') := by
      unfold outcome
      rw [Bytes.text?_eq_none_iff.2 hline]
      exact runs.pure_apply ..
    show runs.run (e.sessionOver prompt (line :: rest)) s' = _
    rw [sessionOver_cons_apply, houtcome, transcriptOf_nil]
    simp [Outcome.ends, Outcome.transcript, append_eq, prompted, Ending.text]
  | @left rest =>
    obtain ⟨text, texts, s₁, rfl, hfirst, hrest⟩ := mapM_eq_cons hrun
    obtain ⟨rfl, rfl⟩ := mapM_eq_nil hrest
    obtain ⟨houtcome, htrim⟩ := e.outcome_of_leave runs hfirst
    show runs.run (e.sessionOver prompt (.ofText text :: rest)) s = _
    rw [sessionOver_cons_apply, houtcome, transcriptOf_cons, transcriptOf_nil]
    simp [Outcome.ends, Outcome.transcript, append_eq, prompted, Ending.text, replyText, failureText,
      htrim, Except.isOk, Except.toBool]
  | finished =>
    obtain ⟨rfl, rfl⟩ := mapM_eq_nil hrun
    show runs.run (pure (prompted prompt ++ prompted farewell)) s' = _
    rw [runs.pure_apply, transcriptOf_nil]
    rfl
  | @next answer answers rest ending hanswer hstops ih =>
    obtain ⟨text, texts, s₁, rfl, hfirst, hrest⟩ := mapM_eq_cons hrun
    obtain ⟨o, houtcome, hends, htranscript⟩ := e.outcome_of_proceed runs hfirst hanswer
    show runs.run (e.sessionOver prompt (.ofText text :: (texts.map .ofText ++ rest))) s = _
    rw [sessionOver_cons_apply, houtcome, transcriptOf_cons]
    dsimp only
    rw [if_neg (by simp [hends]), ih hrest, htranscript]

/-- Every script is read up to some line. -/
theorem exists_stops (lines : List Bytes) (s : σ) :
    ∃ (texts : List String) (rest : List Bytes) (answers : List (Except (LineError ε) Flow))
      (ending : Ending) (s' : σ), lines = texts.map .ofText ++ rest ∧
      texts.mapM (fun text => runs.run (e.execute text)) s = (answers, s') ∧
      Stops answers rest ending := by
  induction lines generalizing s with
  | nil => exact ⟨[], [], [], .finished, s, rfl, rfl, .finished⟩
  | cons line lines ih =>
    cases htext : line.text? with
    | none =>
      exact ⟨[], line :: lines, [], .unreadable, s, rfl, rfl,
        .unreadable (Bytes.text?_eq_none_iff.1 htext)⟩
    | some text =>
      cases Bytes.text?_eq_some_iff.1 htext
      rcases hfirst : runs.run (e.execute text) s with ⟨answer, s₁⟩
      by_cases hanswer : answer = .ok .leave
      · subst hanswer
        refine ⟨[text], lines, [.ok .leave], .left, s₁, rfl, ?_, .left⟩
        rw [mapM_cons_apply, hfirst]
        rfl
      · obtain ⟨texts, rest, answers, ending, s', rfl, hrun, hstops⟩ := ih s₁
        refine ⟨text :: texts, rest, answer :: answers, ending, s', rfl, ?_, .next hanswer hstops⟩
        rw [mapM_cons_apply, hfirst]
        dsimp only
        rw [hrun]

/-- A session carries out the first lines of its script, as many as it takes to stop, and puts together
what they come to. -/
theorem session_eq_iff (prompt : Option String) (script : Bytes) (s s' : σ) (t : Transcript) :
    runs.run (e.session (prompt.getD "") script) s = (t, s') ↔
      ∃ (texts : List String) (rest : List Bytes) (answers : List (Except (LineError ε) Flow))
        (ending : Ending), script.CutInto (texts.map .ofText ++ rest) ∧
        texts.mapM (fun text => runs.run (e.execute text)) s = (answers, s') ∧
        Stops answers rest ending ∧
        t = e.transcriptOf (prompt.getD "") texts answers ending := by
  constructor
  · intro h
    obtain ⟨texts, rest, answers, ending, s'', hlines, hrun, hstops⟩ := e.exists_stops runs script.lines s
    unfold session at h
    rw [hlines, sessionOver_of_stops e runs hrun hstops] at h
    cases h
    exact ⟨texts, rest, answers, ending, Bytes.cutInto_iff.2 hlines, hrun, hstops, rfl⟩
  · rintro ⟨texts, rest, answers, ending, hcut, hrun, hstops, rfl⟩
    unfold session
    rw [Bytes.cutInto_iff.1 hcut, sessionOver_of_stops e runs hrun hstops]

/-- The lines of a session up to the one that leaves it. -/
def leavingTexts : List String :=
  ["target_create name=t capacity_sectors=8 type=null", " ", "target_destroy name=u", "exit"]

/-- What stands after those lines is not UTF-8. -/
def leavingScript : Bytes :=
  leavingTexts.flatMap (fun text => Bytes.ofText text ++ [13, 10]) ++ [255, 10]

/-- What is written and counted. -/
def leavingTranscript : Transcript where
  output := "> > > > Bye\n"
  errors := "failed to destroy target 'u': target 'u' does not exist\n"
  commands := 3
  failures := 1
  brokenBy := none

/-- The answers to its lines. -/
def leavingAnswers : List (Except (LineError EngineError) Flow) :=
  [.ok (.proceed none), .ok (.proceed none),
    .error (.rejected ⟨.change (.destroy "u"), .registry (.targetNotFound "u")⟩), .ok .leave]

theorem session_of_leavingScript :
    ∃ s', (Stateful.layered Registry FileTree).run
      ((journaled FileTree.disk ⟨⟨"d/j"⟩⟩).session ((some "> ").getD "") leavingScript)
      (.empty, .ofDirectory []) = (leavingTranscript, s') := by
  have hcut : leavingScript.CutInto (leavingTexts.map Bytes.ofText ++ [[255]]) :=
    Bytes.cutInto_iff.2 (by decide +kernel)
  have hanswers : (leavingTexts.mapM
      (fun text => (Stateful.layered Registry FileTree).run
        ((journaled FileTree.disk ⟨⟨"d/j"⟩⟩).execute text)) (.empty, .ofDirectory [])).1 =
      leavingAnswers := by
    decide +kernel
  have hstops : Stops leavingAnswers [[255]] .left :=
    .next nofun (.next nofun (.next nofun .left))
  have htranscript : leavingTranscript = (journaled FileTree.disk ⟨⟨"d/j"⟩⟩).transcriptOf
      ((some "> ").getD "") leavingTexts leavingAnswers .left := by
    decide +kernel
  rcases hrun : leavingTexts.mapM
      (fun text => (Stateful.layered Registry FileTree).run
        ((journaled FileTree.disk ⟨⟨"d/j"⟩⟩).execute text)) (.empty, .ofDirectory []) with ⟨answers, s'⟩
  rw [hrun] at hanswers
  cases hanswers
  exact ⟨s', (session_eq_iff _ _ (some "> ") _ _ _ _).2
    ⟨leavingTexts, [[255]], leavingAnswers, .left, hcut, hrun, hstops, htranscript⟩⟩

end Engine

end BlockShell
