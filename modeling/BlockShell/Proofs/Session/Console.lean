import BlockShell.Program
import BlockShell.Proofs.Session.Fold

/-!
# A session over a console

A session over a console answers each line before it reads the next one.  Over a console that is given
its lines beforehand, what it writes turn by turn is the transcript of the session over those lines
(`converse_eq_session`), and with what is reported at the end it is the result of that session
(`conversation_eq_session`).
-/

namespace BlockShell

theorem Transcript.append_assoc (t u v : Transcript) : t ++ u ++ v = t ++ (u ++ v) := by
  have hbroken : ((t.brokenBy <|> u.brokenBy) <|> v.brokenBy) =
      (t.brokenBy <|> u.brokenBy <|> v.brokenBy) := by
    cases t.brokenBy <;> rfl
  simp only [Engine.append_eq, String.append_assoc, Nat.add_assoc, hbroken]

theorem Transcript.nil_append (t : Transcript) : ⟨"", "", 0, 0, none⟩ ++ t = t := by
  simp [Engine.append_eq]

/-- What is carried out below a state leaves the state as it is. -/
theorem Stateful.run_lift {m : Type → Type} [Monad m] {σ ρ α : Type} (runs : Stateful m σ) (x : m α)
    (r : ρ) (s : σ) :
    (runs.over ρ).run (StateT.lift x) (r, s) =
      let ran := runs.run x s
      (ran.1, r, ran.2) := by
  show (fun out : (α × ρ) × σ => (out.1.1, out.1.2, out.2))
    (runs.run (x >>= fun a => pure (a, r)) s) = _
  rw [runs.bind_apply, runs.pure_apply]

namespace Console

variable {m : Type → Type} [Monad m] {ε σ : Type}

/-- A console with the given raw lines to come, which keeps what is written. -/
def scripted : Console (StateT (List Bytes × Transcript) m) where
  read := fun (raws, t) => pure (raws.headD [], raws.tail, t)
  write u := fun (raws, t) => pure ((), raws, t ++ u)

variable (e : Engine m ε) (runs : Stateful m σ)

/-- The session of an engine over that console. -/
def scriptedSession (prompt : String) (limit : Nat) :
    StateT (List Bytes × Transcript) m (Option FileError) :=
  scripted.converse (fun line => StateT.lift (e.outcome line)) prompt limit

/-! ## A single turn -/

section Turn

variable (raws : List Bytes) (t : Transcript) (s : σ)

theorem run_read :
    (runs.over (List Bytes × Transcript)).run scripted.read ((raws, t), s) =
      (raws.headD [], (raws.tail, t), s) := by
  show (fun out : (Bytes × List Bytes × Transcript) × σ => (out.1.1, out.1.2, out.2))
    (runs.run (pure (raws.headD [], raws.tail, t)) s) = _
  rw [runs.pure_apply]

theorem run_write (u : Transcript) :
    (runs.over (List Bytes × Transcript)).run (scripted.write u) ((raws, t), s) =
      ((), (raws, t ++ u), s) := by
  show (fun out : (Unit × List Bytes × Transcript) × σ => (out.1.1, out.1.2, out.2))
    (runs.run (pure ((), raws, t ++ u)) s) = _
  rw [runs.pure_apply]

theorem run_turn (prompt : String) :
    (runs.over (List Bytes × Transcript)).run
        (scripted.turn (fun line => StateT.lift (e.outcome line)) prompt) ((raws, t), s) =
      match (Bytes.lines (raws.headD [])).head? with
      | none => (none, (raws.tail, t ++ (Engine.prompted prompt ++ Engine.prompted farewell)), s)
      | some line =>
        let ran := runs.run (e.outcome line) s
        (some ran.1, (raws.tail, t ++ (Engine.prompted prompt ++ ran.1.transcript)), ran.2) := by
  unfold turn
  rw [Stateful.bind_apply, run_write, Stateful.bind_apply, run_read]
  dsimp only
  cases (Bytes.lines (raws.headD [])).head? with
  | none =>
    dsimp only
    rw [Stateful.bind_apply, run_write, Stateful.pure_apply, Transcript.append_assoc]
  | some line =>
    dsimp only
    rw [Stateful.bind_apply, Stateful.run_lift, Stateful.bind_apply, run_write, Stateful.pure_apply,
      Transcript.append_assoc]

/-- A line is answered as a session answers it, and the next turn starts from there. -/
theorem run_scriptedSession_cons {raw : Bytes} (hraw : Bytes.AreRaw [raw]) (prompt : String)
    (limit : Nat) :
    (runs.over (List Bytes × Transcript)).run (scriptedSession e prompt (limit + 1))
        ((raw :: raws, t), s) =
      let first := runs.run (e.outcome raw.content) s
      let t' := t ++ (Engine.prompted prompt ++ first.1.transcript)
      if first.1.ends then (first.1.transcript.brokenBy, (raws, t'), first.2)
      else (runs.over (List Bytes × Transcript)).run (scriptedSession e prompt limit)
        ((raws, t'), first.2) := by
  have hline : Bytes.lines raw = [raw.content] := by simpa using Bytes.lines_flatten hraw
  unfold scriptedSession
  rw [converse, Stateful.bind_apply, run_turn, List.headD_cons, hline, List.head?_cons]
  dsimp only [List.tail_cons]
  cases (runs.run (e.outcome raw.content) s).1.ends with
  | true =>
    rw [if_pos rfl, if_pos rfl, Stateful.pure_apply]
  | false => rfl

theorem run_scriptedSession_nil (prompt : String) (limit : Nat) :
    (runs.over (List Bytes × Transcript)).run (scriptedSession e prompt (limit + 1)) (([], t), s) =
      (none, ([], t ++ (Engine.prompted prompt ++ Engine.prompted farewell)), s) := by
  unfold scriptedSession
  rw [converse, Stateful.bind_apply, run_turn]
  exact Stateful.pure_apply ..

end Turn

theorem brokenBy_of_ends {o : Outcome} (h : o.ends = false) : o.transcript.brokenBy = none := by
  cases o with
  | skipped | failed _ => rfl
  | done reply => cases reply <;> rfl
  | left | unreadable => cases h

/-! ## Turn after turn -/

/-- What is written turn by turn is the transcript of the session over the lines. -/
theorem scriptedSession_eq (prompt : String) {raws : List Bytes} (hraws : Bytes.AreRaw raws)
    {limit : Nat} (hlimit : raws.length < limit) (t : Transcript) (s : σ) :
    let ran := runs.run (e.sessionOver prompt (raws.map Bytes.content)) s
    ∃ rest, (runs.over (List Bytes × Transcript)).run (scriptedSession e prompt limit) ((raws, t), s) =
      (ran.1.brokenBy, (rest, t ++ ran.1), ran.2) := by
  induction raws generalizing limit t s with
  | nil =>
    obtain ⟨limit, rfl⟩ : ∃ n, limit = n + 1 := Nat.exists_eq_add_one.2 hlimit
    refine ⟨[], ?_⟩
    rw [run_scriptedSession_nil, List.map_nil, Engine.sessionOver, Stateful.pure_apply]
    rfl
  | cons raw raws ih =>
    obtain ⟨limit, rfl⟩ : ∃ n, limit = n + 1 := Nat.exists_eq_add_one.2 (by omega)
    have hraw : Bytes.AreRaw [raw] :=
      hraws.sublist (List.singleton_sublist.2 (List.mem_cons_self ..))
    have hrest : Bytes.AreRaw raws := hraws.sublist (List.sublist_cons_self ..)
    rw [run_scriptedSession_cons e runs raws t s hraw, List.map_cons, Engine.sessionOver_cons_apply]
    rcases runs.run (e.outcome raw.content) s with ⟨o, s₁⟩
    dsimp only
    cases hends : o.ends with
    | true => exact ⟨raws, rfl⟩
    | false =>
      obtain ⟨rest, hconverse⟩ :=
        ih hrest (Nat.lt_of_succ_lt_succ hlimit) (t ++ (Engine.prompted prompt ++ o.transcript)) s₁
      have hbroken (u : Transcript) :
          (Engine.prompted prompt ++ o.transcript ++ u).brokenBy = u.brokenBy := by
        show ((none <|> o.transcript.brokenBy) <|> u.brokenBy) = _
        rw [brokenBy_of_ends hends]
        rfl
      refine ⟨rest, hconverse.trans ?_⟩
      rw [if_neg Bool.false_ne_true, Transcript.append_assoc, hbroken]

/-- A session over a console writes what the session over the whole script writes, and is broken off as
it is. -/
theorem converse_eq_session (prompt : String) (script : Bytes) {limit : Nat}
    (hlimit : script.length < limit) (s : σ) :
    let ran := runs.run (e.session prompt script) s
    ∃ rest, (runs.over (List Bytes × Transcript)).run (scriptedSession e prompt limit)
        ((script.rawLines, ⟨"", "", 0, 0, none⟩), s) = (ran.1.brokenBy, (rest, ran.1), ran.2) := by
  have hlines : script.lines = script.rawLines.map Bytes.content := by
    rw [← Bytes.lines_flatten (Bytes.areRaw_rawLines script), Bytes.flatten_rawLines]
  obtain ⟨rest, hrun⟩ := scriptedSession_eq e runs prompt (Bytes.areRaw_rawLines script)
    (Nat.lt_of_le_of_lt (Bytes.length_rawLines_le script) hlimit) ⟨"", "", 0, 0, none⟩ s
  refine ⟨rest, hrun.trans ?_⟩
  rw [Transcript.nil_append, ← hlines]
  rfl

end Console

/-- A report at the end of a session adds to what has been written. -/
theorem Result.ofTranscript_eq (t : Transcript) :
    Result.ofTranscript t =
      let report := Result.ofTranscript ⟨"", "", 0, 0, t.brokenBy⟩
      ⟨report.code, t.output ++ report.output, t.errors ++ report.errors⟩ := by
  unfold Result.ofTranscript
  cases t.brokenBy <;> simp [Result.stopped, String.append_assoc]

/-- To write turn by turn and to report the end is to write the result of the session. -/
theorem Program.conversation_eq_session {m : Type → Type} [Monad m] {ε σ : Type} (e : Engine m ε)
    (runs : Stateful m σ) (prompt : String) (script : Bytes) (hlimit : script.length < fileLimit)
    (s : σ) :
    let ran := runs.run (e.session prompt script) s
    ∃ rest report, (runs.over (List Bytes × Transcript)).run
        (conversation Console.scripted (fun line => StateT.lift (e.outcome line)) prompt)
        ((script.rawLines, ⟨"", "", 0, 0, none⟩), s) = (report, (rest, ran.1), ran.2) ∧
      Result.ofTranscript ran.1 =
        ⟨report.code, ran.1.output ++ report.output, ran.1.errors ++ report.errors⟩ := by
  intro ran
  obtain ⟨rest, hrun⟩ := Console.converse_eq_session e runs prompt script hlimit s
  refine ⟨rest, .ofTranscript ⟨"", "", 0, 0, ran.1.brokenBy⟩, ?_, Result.ofTranscript_eq _⟩
  unfold Console.scriptedSession at hrun
  unfold conversation
  rw [Stateful.bind_apply, hrun, Stateful.pure_apply]

end BlockShell
