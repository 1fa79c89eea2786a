import BlockShell.Engine.Registry
import BlockShell.Proofs.Session.Lines
import BlockShell.Proofs.Text.Cut
import Mathlib.Data.List.DropRight

/-!
# Line endings

Carriage returns at the end of a line are blanks, so the line comes to the same without them
(`outcome_dropReturns`), and a session to the same as over lines without any.  Therefore it does not
matter whether the lines of a script end in line feeds alone, or whether the last one ends in any
(`session_lineEndings`).
-/

namespace BlockShell

/-! ## Lines without carriage returns at the end -/

/-- A line without the carriage returns at its end. -/
def dropReturns (line : Bytes) : Bytes := line.rdropWhile (· == 13)

theorem dropReturns_concat (line : Bytes) : dropReturns (line ++ [13]) = dropReturns line :=
  List.rdropWhile_concat_pos _ _ _ rfl

theorem dropReturns_dropReturn (line : Bytes) : dropReturns (dropReturn line) = dropReturns line := by
  by_cases h : line.getLast? = some 13
  · obtain ⟨line, rfl⟩ := List.getLast?_eq_some_iff.1 h
    rw [dropReturn_append, dropReturns_concat]
  · rw [dropReturn_of_ne h]

theorem getLast?_dropReturns (line : Bytes) : (dropReturns line).getLast? ≠ some 13 := by
  intro h
  have hne : dropReturns line ≠ [] := by
    intro hnil
    rw [hnil] at h
    cases h
  have hlast := List.rdropWhile_last_not (fun b : UInt8 => b == 13) line hne
  rw [List.getLast?_eq_some_getLast hne] at h
  exact hlast (beq_iff_eq.2 (Option.some.inj h))

namespace Bytes

variable {script line : Bytes}

/-- A carriage return behind a line is one behind its text. -/
theorem text?_concat (line : Bytes) :
    Bytes.text? (line ++ [13]) = line.text?.map (· ++ String.singleton '\r') := by
  have hcode : ofChars ['\r'] = [13] := by decide
  have happend (text : String) :
      ofText (text ++ String.singleton '\r') = ofText text ++ [13] := by
    rw [ofText_eq_ofChars, ofText_eq_ofChars, String.toList_append, String.toList_singleton, ← hcode]
    exact List.flatMap_append
  cases htext : line.text? with
  | some text =>
    rw [text?_eq_some_iff.1 htext, ← happend]
    exact text?_ofText _
  | none =>
    rw [Option.map_none, text?_eq_none_iff]
    intro text h
    obtain ⟨text', htext'⟩ := exists_dropReturn_ofChars text.toList
    rw [← ofText_eq_ofChars, ← h, dropReturn_append] at htext'
    exact text?_eq_none_iff.1 htext text' htext'

/-! ## Lines of scripts -/

/-- Every line feed with a carriage return before it. -/
def withReturns (script : Bytes) : Bytes := script.flatMap fun b => if b = 10 then [13, 10] else [b]

theorem withReturns_of_not_mem (h : 10 ∉ line) : line.withReturns = line := by
  unfold withReturns
  induction line with
  | nil => rfl
  | cons b line ih =>
    rw [List.mem_cons, not_or] at h
    rw [List.flatMap_cons, ih h.2, if_neg (Ne.symm h.1)]
    rfl

theorem withReturns_append (h : 10 ∉ line) (rest : Bytes) :
    withReturns (line ++ 10 :: rest) = (line ++ [13]) ++ 10 :: rest.withReturns := by
  have hline := withReturns_of_not_mem h
  unfold withReturns at hline ⊢
  rw [List.flatMap_append, hline, List.flatMap_cons, if_pos rfl]
  simp

/-- Up to carriage returns at their ends the lines are the same. -/
theorem dropReturns_lines_withReturns (script : Bytes) :
    script.withReturns.lines.map dropReturns = script.lines.map dropReturns := by
  obtain ⟨lines, h⟩ : ∃ lines, script.CutInto lines := ⟨_, cutInto_lines script⟩
  induction h with
  | nil => rfl
  | last hne h => rw [withReturns_of_not_mem h]
  | feed h hreturn _ ih =>
    rw [withReturns_append h, lines_append (by simpa using h), lines_append h, List.map_cons,
      List.map_cons, ih, dropReturn_append, dropReturns_dropReturn]
  | @returnFeed line rest lines h _ ih =>
    have hassoc : line ++ 13 :: 10 :: rest = (line ++ [13]) ++ 10 :: rest := by simp
    have hreturn : 10 ∉ line ++ [13] := by simpa using h
    rw [hassoc, withReturns_append hreturn, lines_append (by simpa using hreturn),
      lines_append hreturn, List.map_cons, List.map_cons, ih, dropReturn_append,
      dropReturns_dropReturn, dropReturns_concat]

theorem dropReturns_lines_concat (hne : script ≠ []) (hlast : script.getLast? ≠ some 10) :
    (Bytes.lines (script ++ [10])).map dropReturns = script.lines.map dropReturns := by
  -- What comes after a line feed does not end in one, and is not empty.
  have hrest {line rest : Bytes} (h : (line ++ 10 :: rest).getLast? ≠ some 10) :
      rest ≠ [] ∧ rest.getLast? ≠ some 10 := by
    cases rest with
    | nil => exact absurd (by simp) h
    | cons b rest => exact ⟨nofun, by simpa using h⟩
  obtain ⟨lines, h⟩ : ∃ lines, script.CutInto lines := ⟨_, cutInto_lines script⟩
  induction h with
  | nil => exact absurd rfl hne
  | last hne h =>
    rw [lines_append h, lines_of_not_mem h hne, List.map_cons, dropReturns_dropReturn]
    rfl
  | feed h hreturn _ ih =>
    obtain ⟨hrest, hrestLast⟩ := hrest hlast
    rw [List.append_assoc, List.cons_append, lines_append h, lines_append h, List.map_cons,
      List.map_cons, ih hrest hrestLast]
  | @returnFeed line rest lines h _ ih =>
    have hassoc : line ++ 13 :: 10 :: rest = (line ++ [13]) ++ 10 :: rest := by simp
    have hreturn : 10 ∉ line ++ [13] := by simpa using h
    rw [hassoc] at hlast ⊢
    obtain ⟨hrest, hrestLast⟩ := hrest hlast
    rw [List.append_assoc, List.cons_append, lines_append hreturn, lines_append hreturn,
      List.map_cons, List.map_cons, ih hrest hrestLast]

end Bytes

/-! ## What lines come to -/

theorem Text.trim_concat (text : String) {c : Char} (hc : Text.isBlank c = true) :
    Text.trim (text ++ String.singleton c) = Text.trim text := by
  unfold Text.trim
  rw [String.toList_append, String.toList_singleton, Text.trimChars_concat hc]

/-- Blanks around a line do not count. -/
theorem Command.read?_congr {line line' : String} (h : Text.trim line = Text.trim line') :
    Command.read? line = Command.read? line' := by
  unfold Command.read?
  rw [h]

namespace Engine

variable {m : Type → Type} [Monad m] {ε : Type} (e : Engine m ε)

theorem execute_congr {line line' : String} (h : Text.trim line = Text.trim line') :
    e.execute line = e.execute line' := by
  unfold execute
  rw [Command.read?_congr h]

theorem outcome_concat (line : Bytes) : e.outcome (line ++ [13]) = e.outcome line := by
  have hblank : Text.isBlank '\r' = true := by decide
  unfold outcome
  rw [Bytes.text?_concat]
  cases line.text? with
  | none => rfl
  | some text =>
    have htrim := Text.trim_concat text hblank
    have hall : Text.allBlank (text ++ String.singleton '\r') = Text.allBlank text := by
      rw [Bool.eq_iff_iff, ← Text.trim_eq_empty_iff, htrim, Text.trim_eq_empty_iff]
    dsimp only [Option.map_some]
    rw [hall, e.execute_congr htrim]

/-- Carriage returns at the end of a line leave no trace. -/
theorem outcome_dropReturns (line : Bytes) : e.outcome (dropReturns line) = e.outcome line := by
  induction line using List.reverseRecOn with
  | nil => rfl
  | append_singleton line b ih =>
    by_cases hb : b = 13
    · subst hb
      rw [dropReturns_concat, ih, outcome_concat]
    · have hkeep : dropReturns (line ++ [b]) = line ++ [b] :=
        List.rdropWhile_concat_neg _ _ _ (by simpa using hb)
      rw [hkeep]

theorem sessionOver_dropReturns (prompt : String) (lines : List Bytes) :
    e.sessionOver prompt (lines.map dropReturns) = e.sessionOver prompt lines := by
  induction lines with
  | nil => rfl
  | cons line lines ih => rw [List.map_cons, sessionOver, sessionOver, outcome_dropReturns, ih]

theorem session_congr (prompt : String) {script script' : Bytes}
    (h : script'.lines.map dropReturns = script.lines.map dropReturns) :
    e.session prompt script' = e.session prompt script := by
  unfold session
  rw [← sessionOver_dropReturns, h, sessionOver_dropReturns]

/-- A session is the same whether or not there are carriage returns before the line feeds of its script,
and whether or not a line feed ends its last line.  It is the session over lines that do not end in
carriage returns, however many there are in the script. -/
theorem session_lineEndings (prompt : Option String) (script : Bytes) :
    e.session (prompt.getD "") script.withReturns = e.session (prompt.getD "") script ∧
    (script ≠ [] → script.getLast? ≠ some 10 →
      e.session (prompt.getD "") (script ++ [10]) = e.session (prompt.getD "") script) ∧
    e.session (prompt.getD "") script =
      e.sessionOver (prompt.getD "") (script.lines.map dropReturns) ∧
    ∀ line ∈ script.lines.map dropReturns, line.getLast? ≠ some 13 := by
  refine ⟨e.session_congr _ (Bytes.dropReturns_lines_withReturns script), fun hne hlast => ?_,
    (e.sessionOver_dropReturns _ _).symm, List.forall_mem_map.2 fun line _ => getLast?_dropReturns line⟩
  exact e.session_congr _ (Bytes.dropReturns_lines_concat hne hlast)

/-- Both lines end in carriage returns, and no line feed ends the last one. -/
def returningScript : Bytes := .ofText "target_destroy name=u\r\r\ndestroy\r\r"

theorem session_of_returningScript :
    returningScript ≠ [] ∧ returningScript.getLast? ≠ some 10 ∧
      (inMemory (m := Id)).session "> " (returningScript ++ [10]) .empty =
        (inMemory (m := Id)).session "> " returningScript .empty ∧
      ((inMemory (m := Id)).session "> " returningScript .empty).1.errors =
        "failed to destroy target 'u': target 'u' does not exist\n" ++
          "unknown command 'destroy'; type 'help' to list commands\n" := by
  have hne : returningScript ≠ [] := by decide +kernel
  have hlast : returningScript.getLast? ≠ some 10 := by decide +kernel
  obtain ⟨-, hended, -⟩ := session_lineEndings (inMemory (m := Id)) (some "> ") returningScript
  exact ⟨hne, hlast, congrFun (hended hne hlast) _, by decide +kernel⟩

end Engine

end BlockShell
