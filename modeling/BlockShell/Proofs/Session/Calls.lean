import BlockShell.Proofs.Engine.Commands
import BlockShell.Proofs.Session.Fold
import BlockShell.Proofs.Target.Reading

/-!
# What a session asks of its engine

`Engine.recorded` keeps a record of the calls that an engine gets.  A session makes one call for each
line that asks for one, in the order of the lines, and no other line reaches the engine.  So every
call is one that a line can ask for, whatever the engine answers (`calls_of_session`).
-/

namespace BlockShell

theorem filterMap_cons_toList {α β : Type} (f : α → Option β) (a : α) (l : List α) :
    (a :: l).filterMap f = (f a).toList ++ l.filterMap f := by
  rw [List.filterMap_cons]
  cases f a <;> rfl

/-- A call that a line can make. -/
def Call.Writable : Call → Prop
  | change c => c.Writable
  | list => True

namespace Command

/-- The call that a command makes, if it makes one. -/
def call? : Command → Option Call
  | change c => some (.change c)
  | list => some .list
  | help _ | exit => none

/-- The call that a line makes, if it makes one. -/
def callOf? (line : String) : Option Call :=
  match read? line with
  | .ok (some command) => command.call?
  | _ => none

/-- A line that cannot be read, is blank, asks for help or leaves the session. -/
inductive AsksNothing (line : String) : Prop
  | unreadable {err : CommandError} : read? line = .error err → AsksNothing line
  | blank : Text.allBlank line = true → AsksNothing line
  | help {topic : Option String} : read? line = .ok (some (.help topic)) → AsksNothing line
  | exit : read? line = .ok (some .exit) → AsksNothing line

variable {line : String}

theorem AsksNothing.callOf?_eq_none (h : AsksNothing line) : callOf? line = none := by
  unfold callOf?
  cases h with
  | unreadable h => rw [h]
  | blank h =>
    have hread : read? line = .ok none := if_pos (Text.trim_eq_empty_iff.2 h)
    rw [hread]
  | help h =>
    rw [h]
    rfl
  | exit h =>
    rw [h]
    rfl

theorem writable_of_callOf? {call : Call} (h : callOf? line = some call) : call.Writable := by
  unfold callOf? at h
  split at h
  · next command hread =>
    cases command with
    | change c =>
      cases h
      exact Change.writable_of_read? hread
    | list =>
      cases h
      trivial
    | help topic | exit => cases h
  · cases h

end Command

namespace Engine

variable {m : Type → Type} [Monad m] {ε σ : Type} (e : Engine m ε) (runs : Stateful m σ)

/-! ## Records -/

/-- A computation that answers a call, with the call added to a record. -/
def noting {α : Type} (call : Call) (x : m α) : StateT (List Call) m α :=
  fun calls => do return (← x, calls ++ [call])

/-- The engine with a record of the calls it gets, the first one first. -/
def recorded : Engine (StateT (List Call) m) ε where
  change c := noting (.change c) (e.change c)
  list := noting .list e.list
  describe := e.describe

theorem noting_apply {α : Type} (call : Call) (x : m α) (calls : List Call) (s : σ) :
    (runs.over (List Call)).run (noting call x) (calls, s) =
      let ran := runs.run x s
      (ran.1, calls ++ [call], ran.2) := by
  show (fun out : (α × List Call) × σ => (out.1.1, out.1.2, out.2))
    (runs.run (x >>= fun answer => pure (answer, calls ++ [call])) s) = _
  rw [runs.bind_apply, runs.pure_apply]

/-- A computation that calls nothing adds nothing to the record. -/
theorem pure_recorded {α : Type} (a : α) (calls : List Call) (s : σ) :
    (runs.over (List Call)).run (pure a) (calls, s) =
      let ran := runs.run (pure a) s
      (ran.1, calls ++ [], ran.2) := by
  rw [Stateful.pure_apply, Stateful.pure_apply, List.append_nil]

/-! ## Commands -/

theorem run_recorded (command : Command) (calls : List Call) (s : σ) :
    (runs.over (List Call)).run (e.recorded.run command) (calls, s) =
      let ran := runs.run (e.run command) s
      (ran.1, calls ++ command.call?.toList, ran.2) := by
  cases command with
  | change c =>
    rw [run_change, run_change, recorded, noting_apply]
    rfl
  | list =>
    rw [run_list, run_list, recorded, noting_apply]
    rfl
  | help topic => exact pure_recorded runs _ calls s
  | exit => exact pure_recorded runs _ calls s

/-! ## Lines -/

variable {line : String}

theorem execute_recorded (line : String) (calls : List Call) (s : σ) :
    (runs.over (List Call)).run (e.recorded.execute line) (calls, s) =
      let ran := runs.run (e.execute line) s
      (ran.1, calls ++ (Command.callOf? line).toList, ran.2) := by
  unfold execute Command.callOf?
  rcases Command.read? line with err | _ | command
  · exact pure_recorded runs _ calls s
  · exact pure_recorded runs _ calls s
  · exact e.run_recorded runs command calls s

theorem execute_of_callOf?_eq_none (h : Command.callOf? line = none) :
    ∃ answer, e.execute line = pure answer := by
  unfold Command.callOf? at h
  unfold execute
  generalize Command.read? line = read at h
  rcases read with err | _ | command
  · exact ⟨_, rfl⟩
  · exact ⟨_, rfl⟩
  · cases command with
    | change c => cases h
    | list => cases h
    | help topic => exact ⟨_, rfl⟩
    | exit => exact ⟨_, rfl⟩

theorem execute_recorded_of_asksNothing (h : Command.AsksNothing line) (calls : List Call) (s : σ) :
    ((runs.over (List Call)).run (e.recorded.execute line) (calls, s)).2 = (calls, s) := by
  obtain ⟨answer, hanswer⟩ := e.execute_of_callOf?_eq_none h.callOf?_eq_none
  rw [execute_recorded, hanswer, h.callOf?_eq_none, runs.run_pure, Option.toList_none,
    List.append_nil]
  rfl

theorem mapM_recorded (lines : List String) (calls : List Call) (s : σ) :
    lines.mapM (fun line => (runs.over (List Call)).run (e.recorded.execute line)) (calls, s) =
      let ran := lines.mapM (fun line => runs.run (e.execute line)) s
      (ran.1, calls ++ lines.filterMap Command.callOf?, ran.2) := by
  induction lines generalizing calls s with
  | nil =>
    rw [List.filterMap_nil, List.append_nil]
    rfl
  | cons line lines ih =>
    rw [mapM_cons_apply, mapM_cons_apply, execute_recorded, filterMap_cons_toList]
    dsimp only
    rw [ih, List.append_assoc]

/-! ## Sessions -/

/-- A session goes as it goes without the record; it calls what the lines that it carries out ask for,
and nothing that no line can ask for. -/
theorem calls_of_session (prompt : Option String) (script : Bytes) (s : σ) :
    let ran := runs.run (e.session (prompt.getD "") script) s
    let runs' := runs.over (List Call)
    let ran' := runs'.run (e.recorded.session (prompt.getD "") script) ([], s)
    ran'.1 = ran.1 ∧ ran'.2.2 = ran.2 ∧
      (∃ (texts : List String) (rest : List Bytes) (answers : List (Except (LineError ε) Flow))
        (ending : Ending), script.CutInto (texts.map .ofText ++ rest) ∧
        texts.mapM (fun text => runs.run (e.execute text)) s = (answers, ran.2) ∧
        Stops answers rest ending ∧ ran'.2.1 = texts.filterMap Command.callOf?) ∧
      (∀ call ∈ ran'.2.1, call.Writable) ∧
      ∀ line, Command.AsksNothing line → ∀ calls s₁,
        (runs'.run (e.recorded.execute line) (calls, s₁)).2 = (calls, s₁) := by
  intro ran runs' ran'
  obtain ⟨texts, rest, answers, ending, s', hlines, hrun, hstops⟩ := e.exists_stops runs script.lines s
  have hran : ran = (e.transcriptOf (prompt.getD "") texts answers ending, s') := by
    show runs.run (e.sessionOver _ script.lines) s = _
    rw [hlines, sessionOver_of_stops e runs hrun hstops]
  have hran' : ran' = (e.recorded.transcriptOf (prompt.getD "") texts answers ending,
      texts.filterMap Command.callOf?, s') := by
    have hrun' := e.mapM_recorded runs texts [] s
    rw [hrun] at hrun'
    show runs'.run (e.recorded.sessionOver _ script.lines) ([], s) = _
    rw [hlines, sessionOver_of_stops e.recorded runs' hrun' hstops]
    rfl
  rw [hran, hran']
  refine ⟨rfl, rfl, ⟨texts, rest, answers, ending, Bytes.cutInto_iff.2 hlines, hrun, hstops, rfl⟩, ?_,
    fun line hline => e.execute_recorded_of_asksNothing runs hline⟩
  intro call hcall
  obtain ⟨line, -, hcall⟩ := List.mem_filterMap.1 hcall
  exact Command.writable_of_callOf? hcall

/-- The engine rejects what the third line asks for, and the blank line before it does not reach it. -/
theorem calls_of_leavingScript :
    let runs := Stateful.layered Registry FileTree
    let e := journaled FileTree.disk ⟨⟨"d/j"⟩⟩
    let calls := ((runs.over (List Call)).run
      (e.recorded.session ((some "> ").getD "") leavingScript) ([], (.empty, .ofDirectory []))).2.1
    .change (.destroy "u") ∈ calls ∧ Call.Writable (.change (.destroy "u")) ∧
      Command.AsksNothing " " ∧
      ((runs.over (List Call)).run (e.recorded.execute " ") ([], (.empty, .ofDirectory []))).2 =
        ([], (.empty, .ofDirectory [])) := by
  intro runs e calls
  have hcall : .change (.destroy "u") ∈ calls := by decide +kernel
  have hblank : Command.AsksNothing " " := .blank (by decide)
  obtain ⟨-, -, -, hwritable, hsilent⟩ :=
    e.calls_of_session runs (some "> ") leavingScript (.empty, .ofDirectory [])
  exact ⟨hcall, hwritable _ hcall, hblank, hsilent " " hblank _ _⟩

end Engine

end BlockShell
