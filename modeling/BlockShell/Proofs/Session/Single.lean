import BlockShell.Program
import BlockShell.Proofs.Session.Calls
import BlockShell.Proofs.Session.Steps

/-!
# A single command

A command that the program is started with is carried out as the only line of a script would be: the same
calls, the same state after them, the same error text.  The exit code tells whether the line fails, and only
the farewell makes a difference to the output (`once_agrees_session`).  A line that is empty is no line of
the script at all, which comes to the same as one that is blank.
-/

namespace BlockShell

theorem Bytes.ofText_ne_nil {text : String} (h : text ≠ "") : ofText text ≠ [] := by
  intro hnil
  have htext := text?_ofText text
  rw [hnil, show ([] : Bytes) = ofText "" from rfl, text?_ofText] at htext
  exact h (Option.some.inj htext).symm

namespace Engine

variable {m : Type → Type} [Monad m] {ε σ : Type} (e : Engine m ε) (runs : Stateful m σ)

/-- Nothing but an exit command leaves a session. -/
theorem isLeaving_execute (line : String) (s : σ) :
    isLeaving (runs.run (e.execute line) s).1 = true ↔ Command.read? line = .ok (some .exit) := by
  unfold execute
  rcases Command.read? line with err | _ | command
  · dsimp only
    rw [runs.pure_apply]
    exact ⟨nofun, nofun⟩
  · dsimp only
    rw [runs.pure_apply]
    exact ⟨nofun, nofun⟩
  cases command with
  | change c =>
    dsimp only
    rw [run_change]
    rcases runs.run (e.change c) s with ⟨_ | _, _⟩ <;> exact ⟨nofun, nofun⟩
  | list =>
    dsimp only
    rw [run_list]
    rcases runs.run e.list s with ⟨_ | _, _⟩ <;> exact ⟨nofun, nofun⟩
  | help topic =>
    show isLeaving (runs.run (pure _) s).1 = true ↔ _
    rw [runs.pure_apply]
    exact ⟨nofun, nofun⟩
  | exit =>
    show isLeaving (runs.run (pure _) s).1 = true ↔ _
    rw [runs.pure_apply]
    exact ⟨fun _ => rfl, fun _ => rfl⟩

/-! ## A script of one line -/

/-- Why a session of one line ends. -/
def singleEnding (answer : Except (LineError ε) Flow) : Ending :=
  if isLeaving answer then .left else .finished

theorem stops_single (answer : Except (LineError ε) Flow) : Stops [answer] [] (singleEnding answer) := by
  rcases answer with err | (reply | _)
  · exact .next nofun .finished
  · exact .next nofun .finished
  · exact .left

theorem session_single {line : String} (hline : '\n' ∉ line.toList) (s : σ) :
    runs.run (e.session "" (.ofText line)) s =
      let ran := runs.run (e.execute line) s
      (e.transcriptOf "" [line] [ran.1] (singleEnding ran.1), ran.2) := by
  unfold session
  by_cases hempty : line = ""
  · subst hempty
    have hrun : ([] : List String).mapM (fun text => runs.run (e.execute text)) s = ([], s) := rfl
    rw [e.execute_of_blank rfl, runs.run_pure]
    exact sessionOver_of_stops e runs hrun .finished
  · have hfeed : 10 ∉ Bytes.ofText line := by
      rw [Bytes.ofText_eq_ofChars]
      exact Bytes.not_mem_ofChars hline
    have hrun : [line].mapM (fun text => runs.run (e.execute text)) s =
        ([(runs.run (e.execute line) s).1], (runs.run (e.execute line) s).2) := mapM_cons_apply ..
    rw [Bytes.lines_of_not_mem hfeed (Bytes.ofText_ne_nil hempty)]
    exact sessionOver_of_stops e runs hrun (stops_single _)

end Engine

namespace Program

variable {m : Type → Type} {ε : Type} (e : Engine m ε)

/-- The result of a run with a single command, given the answer to it. -/
def onceResult : Except (LineError ε) Flow → Result
  | .ok .leave => ⟨0, farewell, ""⟩
  | answer => ⟨if answer.isOk then 0 else 1, replyText answer, e.failureText answer⟩

/-- A single command and a session of one line write and count the same, the farewell apart. -/
theorem onceResult_agrees (line : String) (answer : Except (LineError ε) Flow) :
    let once := onceResult e answer
    let session := e.transcriptOf "" [line] [answer] (Engine.singleEnding answer)
    once.errors = session.errors ∧ once.code = (if session.failures = 1 then 1 else 0) ∧
      session.brokenBy = none ∧
      (isLeaving answer = true → once.output = farewell ∧ session.output = farewell) ∧
      (isLeaving answer = false → session.output = once.output ++ farewell) := by
  rcases answer with err | (reply | _)
  · exact ⟨rfl, rfl, rfl, nofun, fun _ => rfl⟩
  · exact ⟨rfl, rfl, rfl, nofun, fun _ => rfl⟩
  · exact ⟨rfl, rfl, rfl, fun _ => ⟨rfl, rfl⟩, nofun⟩

variable [Monad m] {σ : Type} (runs : Stateful m σ)

theorem run_once (line : String) (s : σ) :
    runs.run (once e line) s =
      let ran := runs.run (e.execute line) s
      (onceResult e ran.1, ran.2) := by
  unfold once
  rw [runs.bind_apply]
  rcases runs.run (e.execute line) s with ⟨err | (_ | reply) | _, s'⟩ <;> exact runs.pure_apply ..

/-- A single command makes the calls that a session of one line makes, and leaves what it leaves.  It writes
the same errors, and its exit code is 1 if the line fails.  Unless the command leaves, the session says goodbye
after it. -/
theorem once_agrees_session {line : String} (hline : '\n' ∉ line.toList) (s : σ) :
    let runs' := runs.over (List Call)
    let once := runs'.run (Program.once e.recorded line) ([], s)
    let session := runs'.run (e.recorded.session "" (.ofText line)) ([], s)
    runs.run (Program.once e line) s = (once.1, once.2.2) ∧
      runs.run (e.session "" (.ofText line)) s = (session.1, session.2.2) ∧
      once.2.1 = session.2.1 ∧ once.2.2 = session.2.2 ∧ once.1.errors = session.1.errors ∧
      once.1.code = (if session.1.failures = 1 then 1 else 0) ∧ session.1.brokenBy = none ∧
      (Command.read? line = .ok (some .exit) → once.1.output = "Bye\n" ∧ session.1.output = "Bye\n") ∧
      (Command.read? line ≠ .ok (some .exit) → session.1.output = once.1.output ++ "Bye\n") := by
  intro runs' once session
  have hleaving := e.isLeaving_execute runs line s
  have honce : runs.run (Program.once e line) s = _ := run_once e runs line s
  have hsession : runs.run (e.session "" (.ofText line)) s = _ := e.session_single runs hline s
  have honce' : once = _ := run_once e.recorded runs' line ([], s)
  have hsession' : session = _ := e.recorded.session_single runs' hline ([], s)
  rw [e.execute_recorded] at honce' hsession'
  rw [honce, hsession, honce', hsession']
  generalize runs.run (e.execute line) s = ran at hleaving ⊢
  obtain ⟨answer, s'⟩ := ran
  obtain ⟨herrors, hcode, hbroken, hleft, hstayed⟩ := onceResult_agrees e line answer
  refine ⟨rfl, rfl, rfl, rfl, herrors, hcode, hbroken, fun hexit => hleft (hleaving.2 hexit),
    fun hexit => hstayed ?_⟩
  exact Bool.eq_false_iff.2 fun hleave => hexit (hleaving.1 hleave)

/-- A line that fails and ends in a carriage return. -/
def failingLine : String := "target_destroy name=u\r"

theorem once_agrees_session_of_failingLine :
    let runs := Stateful.layered Registry FileTree
    let e := Engine.journaled FileTree.disk ⟨⟨"d/j"⟩⟩
    let once := (runs.over (List Call)).run (Program.once e.recorded failingLine)
      ([], (.empty, .ofDirectory []))
    let session := (runs.over (List Call)).run (e.recorded.session "" (.ofText failingLine))
      ([], (.empty, .ofDirectory []))
    '\n' ∉ failingLine.toList ∧ Command.read? failingLine ≠ .ok (some .exit) ∧ once.1.code = 1 ∧
      once.2.1 = session.2.1 ∧ once.1.errors = session.1.errors ∧
      session.1.output = once.1.output ++ "Bye\n" := by
  have hline : '\n' ∉ failingLine.toList := by decide +kernel
  have hread : Command.read? failingLine ≠ .ok (some .exit) := by decide +kernel
  obtain ⟨-, -, hcalls, -, herrors, -, -, -, houtput⟩ :=
    once_agrees_session (Engine.journaled FileTree.disk ⟨⟨"d/j"⟩⟩)
      (Stateful.layered Registry FileTree) hline (.empty, .ofDirectory [])
  exact ⟨hline, hread, by decide +kernel, hcalls, herrors, houtput hread⟩

end Program

end BlockShell
