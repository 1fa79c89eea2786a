import BlockShell.Proofs.Session.Fold

/-!
# The steps of a session

`Engine.steps` are the lines that a session carries out, each with the state before it and the answer to
it.  The transcript of the session is put together from them (`session_eq_steps`), and what every line
keeps holds before each of them (`forall_steps`).
-/

namespace BlockShell

/-- A line that is carried out. -/
structure Step (ε σ : Type) where
  line : String
  before : σ
  answer : Except (LineError ε) Flow

/-- Whether no line is read after this answer. -/
def isLeaving {ε : Type} : Except (LineError ε) Flow → Bool
  | .ok .leave => true
  | _ => false

theorem isLeaving_of_ne {ε : Type} {answer : Except (LineError ε) Flow} (h : answer ≠ .ok .leave) :
    isLeaving answer = false := by
  rcases answer with err | (reply | _)
  · rfl
  · rfl
  · exact absurd rfl h

namespace Engine

variable {m : Type → Type} [Monad m] {ε σ : Type} (e : Engine m ε) (runs : Stateful m σ)

/-- The steps of a session over the given lines: up to one that cannot be read or leaves. -/
def steps : List Bytes → σ → List (Step ε σ)
  | [], _ => []
  | line :: rest, s =>
    match line.text? with
    | none => []
    | some text =>
      let ran := runs.run (e.execute text) s
      ⟨text, s, ran.1⟩ :: if isLeaving ran.1 then [] else steps rest ran.2

theorem steps_cons_of_unreadable {line : Bytes} (h : ∀ text, line ≠ .ofText text) (rest : List Bytes)
    (s : σ) : e.steps runs (line :: rest) s = [] := by
  rw [steps, Bytes.text?_eq_none_iff.2 h]

theorem steps_ofText_cons (text : String) (rest : List Bytes) (s : σ) :
    e.steps runs (.ofText text :: rest) s =
      let ran := runs.run (e.execute text) s
      ⟨text, s, ran.1⟩ :: if isLeaving ran.1 then [] else e.steps runs rest ran.2 := by
  rw [steps, Bytes.text?_ofText]

/-- Lines that have been answered until a session stops are its steps. -/
theorem steps_of_stops {texts : List String} {answers : List (Except (LineError ε) Flow)}
    {rest : List Bytes} {ending : Ending} {s s' : σ}
    (hrun : texts.mapM (fun text => runs.run (e.execute text)) s = (answers, s'))
    (hstops : Stops answers rest ending) :
    (e.steps runs (texts.map .ofText ++ rest) s).map Step.line = texts ∧
      (e.steps runs (texts.map .ofText ++ rest) s).map Step.answer = answers := by
  induction hstops generalizing texts s with
  | @unreadable line rest hline =>
    obtain ⟨rfl, rfl⟩ := mapM_eq_nil hrun
    rw [List.map_nil, List.nil_append, steps_cons_of_unreadable e runs hline]
    exact ⟨rfl, rfl⟩
  | left =>
    obtain ⟨text, texts, s₁, rfl, hfirst, hrest⟩ := mapM_eq_cons hrun
    obtain ⟨rfl, rfl⟩ := mapM_eq_nil hrest
    rw [List.map_cons, List.cons_append, steps_ofText_cons, hfirst]
    exact ⟨rfl, rfl⟩
  | finished =>
    obtain ⟨rfl, rfl⟩ := mapM_eq_nil hrun
    exact ⟨rfl, rfl⟩
  | @next answer answers rest ending hanswer hstops ih =>
    obtain ⟨text, texts, s₁, rfl, hfirst, hrest⟩ := mapM_eq_cons hrun
    obtain ⟨hlines, hanswers⟩ := ih hrest
    rw [List.map_cons, List.cons_append, steps_ofText_cons, hfirst]
    dsimp only
    rw [isLeaving_of_ne hanswer, if_neg Bool.false_ne_true, List.map_cons, List.map_cons, hlines,
      hanswers]
    exact ⟨rfl, rfl⟩

/-- The transcript of a session is that of its steps. -/
theorem session_eq_steps (prompt : String) (script : Bytes) (s : σ) :
    let steps := e.steps runs script.lines s
    ∃ (rest : List Bytes) (ending : Ending),
      script.CutInto (steps.map (fun step => .ofText step.line) ++ rest) ∧
      Stops (steps.map Step.answer) rest ending ∧
      (runs.run (e.session prompt script) s).1 =
        e.transcriptOf prompt (steps.map Step.line) (steps.map Step.answer) ending := by
  intro steps
  obtain ⟨texts, rest, answers, ending, s', hlines, hrun, hstops⟩ := e.exists_stops runs script.lines s
  obtain ⟨htexts, hanswers⟩ := e.steps_of_stops runs hrun hstops
  rw [← hlines] at htexts hanswers
  refine ⟨rest, ending, Bytes.cutInto_iff.2 ?_, hanswers ▸ hstops, ?_⟩
  · rw [hlines, ← htexts, List.map_map]
    rfl
  · rw [session, hlines, sessionOver_of_stops e runs hrun hstops, htexts, hanswers]

/-- What every line keeps holds before each step. -/
theorem forall_steps {P : σ → Prop} {lines : List Bytes} {s : σ}
    (hkeep : ∀ line ∈ lines, ∀ text, line = .ofText text →
      ∀ s, P s → P (runs.run (e.execute text) s).2) (hs : P s) :
    ∀ step ∈ e.steps runs lines s,
      P step.before ∧ step.answer = (runs.run (e.execute step.line) step.before).1 := by
  induction lines generalizing s with
  | nil => exact fun _ hstep => absurd hstep List.not_mem_nil
  | cons line rest ih =>
    obtain ⟨hfirst, hrest⟩ := List.forall_mem_cons.1 hkeep
    cases htext : line.text? with
    | none =>
      rw [steps_cons_of_unreadable e runs (Bytes.text?_eq_none_iff.1 htext)]
      exact fun _ hstep => absurd hstep List.not_mem_nil
    | some text =>
      obtain rfl := Bytes.text?_eq_some_iff.1 htext
      rw [steps_ofText_cons]
      refine List.forall_mem_cons.2 ⟨⟨hs, rfl⟩, ?_⟩
      split
      · exact fun _ hstep => absurd hstep List.not_mem_nil
      · exact ih hrest (hfirst text rfl s hs)

end Engine

end BlockShell
