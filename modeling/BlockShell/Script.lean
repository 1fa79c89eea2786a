import BlockShell.Session

/-!
# Scripts

A script is read from its file block by block, while its lines are carried out.  A line may change
the rest of the script: the file may be the one in which a journal is staged.  So it is only known
at the next read what follows, even after the end of the file has been reached within a line.
-/

namespace BlockShell

/-- The next block of a file, which is empty past the greatest length of a file. -/
def FileReader.next {m : Type → Type} [Monad m] (file : FileReader m) (position : Nat) :
    m (Except FileError { block : ByteArray // block.size ≠ 0 → position < fileLimit }) :=
  if h : position < fileLimit then
    return (← file position).map fun block => ⟨block, fun _ => h⟩
  else return .ok ⟨.empty, fun h => absurd rfl h⟩

theorem length_of_dropWhile_eq_cons {α : Type} {p : α → Bool} {l rest : List α} {a : α}
    (h : l.dropWhile p = a :: rest) : rest.length < l.length := by
  have := (List.dropWhile_sublist p (l := l)).length_le
  rw [h, List.length_cons] at this
  exact this

namespace Engine

variable {m : Type → Type} [Monad m] {ε : Type} (e : Engine m ε)

/-- The transcript of a reading that failed. -/
def unread (cause : FileError) : Transcript := ⟨"", "", 0, 0, some cause⟩

/-- The session over what is left of a file: the bytes `ahead`, which have been read already, and
those from a position on. -/
def scriptFrom (file : FileReader m) (position : Nat) (ahead : Bytes) : m Transcript :=
  match _h : ahead.dropWhile (· != 10) with
  | _ :: rest => do
    let o ← e.outcome (dropReturn (ahead.takeWhile (· != 10)))
    if o.ends then return o.transcript
    else return o.transcript ++ (← scriptFrom file position rest)
  | [] => do
    match ← file.next position with
    | .error cause => return unread cause
    | .ok ⟨block, _hp⟩ =>
      if _hb : block.size = 0 then
        if _ha : ahead = [] then return prompted farewell
        else do
          let o ← e.outcome ahead
          if o.ends then return o.transcript
          else return o.transcript ++ (← scriptFrom file position [])
      else scriptFrom file (position + block.size) (ahead ++ block.data.toList)
termination_by (fileLimit - position, ahead.length)
decreasing_by
  · exact Prod.Lex.right _ (length_of_dropWhile_eq_cons _h)
  · exact Prod.Lex.right _ (List.length_pos_iff.2 _ha)
  · have := _hp _hb
    exact Prod.Lex.left _ _ (by omega)

/-- The session over a script, without a prompt. -/
def script (file : FileReader m) : m Transcript := e.scriptFrom file 0 []

end Engine

end BlockShell
