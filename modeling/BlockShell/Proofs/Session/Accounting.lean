import BlockShell.Engine.Recorder
import BlockShell.Proofs.Session.Calls

/-!
# The account of a recorder

A session over a recorder makes one call for each line that asks for one, up to the line that leaves,
and no other.  The calls and the queued failures go in pairs, in their order, whatever the calls are;
so the lines that fail are counted by those that cannot be read and by the shorter of the two lists.
A request for a listing that is not rejected shows the listing that the recorder was given, and one
that is rejected says what was asked for (`account_of_session`).
-/

namespace BlockShell

namespace Command

/-- Whether the line leaves the session. -/
def leaves (line : String) : Bool := read? line = .ok (some .exit)

/-- The lines up to the first one that leaves, that one included. -/
def carriedOut (lines : List String) : List String := lines.take (lines.findIdx leaves + 1)

theorem carriedOut_of_leaves {line : String} (h : leaves line = true) (lines : List String) :
    carriedOut (line :: lines) = [line] := by
  simp [carriedOut, List.findIdx_cons, h]

theorem carriedOut_of_not_leaves {line : String} (h : leaves line = false) (lines : List String) :
    carriedOut (line :: lines) = line :: carriedOut lines := by
  simp [carriedOut, List.findIdx_cons, h]

end Command

namespace Recorder

open Command (callOf? carriedOut leaves)

/-! ## What is shown -/

/-- A target in a listing. -/
def rowText (s : Summary) : String :=
  s!"name={s.name} type={s.kind.name} capacity_sectors={s.capacity.toNat} mappings={s.mappings}"

/-- The reply to a request for a listing: a row for each target, and none if there are no targets. -/
def listingReply? : List Summary → Option String
  | [] => none
  | rows => some (Text.join '\n' (rows.map rowText))

theorem listing?_eq (rows : List Summary) : Summary.listing? rows = listingReply? rows := by
  cases rows <;> rfl

/-- The message of a call that was rejected with the given text: what was asked for, and why not. -/
def refusalText (failure : String) : Call → String
  | .change (.create target) => s!"failed to create target '{target.name}': {failure}"
  | .change (.destroy name) => s!"failed to destroy target '{name}': {failure}"
  | .change (.map suffix mapping) =>
    s!"failed to map block device '{suffix}' to target '{mapping.target}': {failure}"
  | .change (.unmap suffix) => s!"failed to unmap block device '{suffix}': {failure}"
  | .list => s!"failed to list targets: {failure}"

/-- What is written for an answer to the error text. -/
def errorText : Except (LineError String) Flow → String
  | .error (.command err) => err.message ++ "\n"
  | .error (.rejected r) => refusalText r.cause r.call ++ "\n"
  | .ok _ => ""

/-- The message of a call ends where the reason of the rejection begins. -/
theorem rejectionMessage_eq (r : Rejection String) :
    engine.rejectionMessage r = refusalText r.cause r.call := by
  obtain ⟨call, failure⟩ := r
  have hquoted (text : String) : text ++ "'" ++ ": " = text ++ "': " := String.append_assoc
  have hlist : "failed to list targets" ++ ": " = "failed to list targets: " := by decide
  show call.failure ++ ": " ++ failure = refusalText failure call
  rcases call with (target | name | ⟨suffix, mapping⟩ | suffix) | _
  · exact congrArg (· ++ failure) (hquoted _)
  · exact congrArg (· ++ failure) (hquoted _)
  · exact congrArg (· ++ failure) (hquoted _)
  · exact congrArg (· ++ failure) (hquoted _)
  · exact congrArg (· ++ failure) hlist

theorem failureText_eq (answer : Except (LineError String) Flow) :
    engine.failureText answer = errorText answer := by
  rcases answer with (err | r) | flow
  · rfl
  · exact congrArg (· ++ "\n") (rejectionMessage_eq r)
  · rfl

/-! ## The answers -/

/-- The answer to a command if no failure is queued. -/
def reply (listing : List Summary) : Command → Flow
  | .change _ => .proceed none
  | .list => .proceed (listingReply? listing)
  | .help topic => .proceed (some (Word.helpOn topic))
  | .exit => .leave

/-- The answer to a line, given the failure that is queued, if one is. -/
def answer (listing : List Summary) (failure? : Option String) (line : String) :
    Except (LineError String) Flow :=
  match Command.read? line with
  | .error err => .error (.command err)
  | .ok none => .ok (.proceed none)
  | .ok (some command) =>
    match command.call?, failure? with
    | some call, some failure => .error (.rejected ⟨call, failure⟩)
    | _, _ => .ok (reply listing command)

/-- The answers to lines: each call before a line has taken one of the failures. -/
def answers (listing : List Summary) (failures lines : List String) :
    List (Except (LineError String) Flow) :=
  lines.mapIdx fun i line =>
    answer listing failures[((lines.take i).filterMap callOf?).length]? line

variable {listing : List Summary} {line : String}

theorem answers_cons (listing : List Summary) (failures : List String) (line : String)
    (lines : List String) :
    answers listing failures (line :: lines) =
      answer listing failures.head? line ::
        answers listing (failures.drop (callOf? line).toList.length) lines := by
  -- The later lines find their failures that many places further on.
  have hcalls (i : Nat) : (((line :: lines).take (i + 1)).filterMap callOf?).length =
      (callOf? line).toList.length + ((lines.take i).filterMap callOf?).length := by
    rw [List.take_succ_cons, filterMap_cons_toList, List.length_append]
  unfold answers
  simp only [List.mapIdx_cons, hcalls, List.getElem?_drop, List.take_zero, List.filterMap_nil,
    List.length_nil, List.head?_eq_getElem?]

theorem answer_eq_leave_iff {failure? : Option String} :
    answer listing failure? line = .ok .leave ↔ leaves line = true := by
  unfold answer leaves
  rw [decide_eq_true_iff]
  rcases Command.read? line with err | _ | command
  · simp
  · simp
  · cases command <;> cases failure? <;> simp [Command.call?, reply]

/-! ## Runs -/

/-- What calls nothing takes no failure. -/
theorem pure_apply {α : Type} (a : α) (calls : List Call) (failures : List String)
    (listing : List Summary) :
    (pure a : StateM Recorder α) ⟨calls, failures, listing⟩ =
      (a, ⟨calls ++ (none : Option Call).toList,
        failures.drop (none : Option Call).toList.length, listing⟩) := by
  rw [Option.toList_none, List.append_nil]
  rfl

theorem execute_apply (calls : List Call) (failures : List String) (listing : List Summary)
    (line : String) :
    engine.execute line ⟨calls, failures, listing⟩ =
      (answer listing failures.head? line, ⟨calls ++ (callOf? line).toList,
        failures.drop (callOf? line).toList.length, listing⟩) := by
  unfold Engine.execute answer callOf?
  rcases Command.read? line with err | _ | command
  · exact pure_apply ..
  · exact pure_apply ..
  cases command with
  | change c =>
    refine (engine.run_change (.self Recorder) c _).trans ?_
    cases failures <;> rfl
  | list =>
    refine (engine.run_list (.self Recorder) _).trans ?_
    cases failures
    · exact congrArg (fun shown => (Except.ok (Flow.proceed shown), _)) (listing?_eq listing)
    · rfl
  | help topic => exact pure_apply ..
  | exit => exact pure_apply ..

theorem mapM_execute_apply (lines : List String) (calls : List Call) (failures : List String)
    (listing : List Summary) :
    lines.mapM engine.execute ⟨calls, failures, listing⟩ =
      (answers listing failures lines, ⟨calls ++ lines.filterMap callOf?,
        failures.drop (lines.filterMap callOf?).length, listing⟩) := by
  induction lines generalizing calls failures with
  | nil =>
    rw [List.filterMap_nil, List.append_nil]
    rfl
  | cons line lines ih =>
    rw [mapM_cons_apply, execute_apply, answers_cons, filterMap_cons_toList]
    dsimp only
    rw [ih, List.append_assoc, List.drop_drop, List.length_append]

/-- The lines that are carried out are those of a session. -/
theorem exists_stops_answers (listing : List Summary) (failures texts : List String) :
    ∃ rest, texts = carriedOut texts ++ rest ∧
      Stops (answers listing failures (carriedOut texts)) (rest.map .ofText)
        (if texts.any leaves then .left else .finished) := by
  induction texts generalizing failures with
  | nil => exact ⟨[], rfl, .finished⟩
  | cons text texts ih =>
    -- A line leaves or stays whatever failures are queued.
    cases hleaves : leaves text with
    | true =>
      rw [Command.carriedOut_of_leaves hleaves, answers_cons, answer_eq_leave_iff.2 hleaves]
      refine ⟨texts, rfl, ?_⟩
      rw [List.any_cons, hleaves]
      exact .left
    | false =>
      obtain ⟨rest, htexts, hstops⟩ := ih (failures.drop (callOf? text).toList.length)
      rw [Command.carriedOut_of_not_leaves hleaves, answers_cons, List.any_cons, hleaves]
      have hstays : answer listing failures.head? text ≠ .ok .leave := fun h =>
        Bool.false_ne_true (hleaves.symm.trans (answer_eq_leave_iff.1 h))
      exact ⟨rest, congrArg (text :: ·) htexts, .next hstays hstops⟩

/-! ## Failures -/

/-- The rejection in an answer, if it is one. -/
def rejection? : Except (LineError String) Flow → Option (Rejection String)
  | .error (.rejected r) => some r
  | _ => none

theorem rejection?_answer (failure? : Option String) (line : String) :
    rejection? (answer listing failure? line) =
      (callOf? line).bind fun call => failure?.map fun failure => ⟨call, failure⟩ := by
  unfold answer callOf?
  rcases Command.read? line with err | _ | command
  · rfl
  · rfl
  · cases command <;> cases failure? <;> rfl

/-- The calls are rejected one after the other until no failure is left. -/
theorem rejections_answers (listing : List Summary) (failures lines : List String) :
    (answers listing failures lines).filterMap rejection? =
      (lines.filterMap callOf?).zipWith Rejection.mk failures := by
  induction lines generalizing failures with
  | nil => rfl
  | cons line lines ih =>
    rw [answers_cons, List.filterMap_cons, List.filterMap_cons, rejection?_answer, ih]
    cases callOf? line with
    | none => rfl
    | some call => cases failures <;> simp

/-- A line fails if it cannot be read, or if its call is rejected. -/
theorem failed_answer (failure? : Option String) (line : String) :
    (if !(answer listing failure? line).isOk then 1 else 0) =
      (if !(Command.read? line).isOk then 1 else 0) +
        (rejection? (answer listing failure? line)).toList.length := by
  unfold answer
  rcases Command.read? line with err | _ | command
  · rfl
  · rfl
  · cases command <;> cases failure? <;> rfl

theorem countP_answers (listing : List Summary) (failures lines : List String) :
    (answers listing failures lines).countP (fun a => !a.isOk) =
      lines.countP (fun line => !(Command.read? line).isOk) +
        ((answers listing failures lines).filterMap rejection?).length := by
  induction lines generalizing failures with
  | nil => rfl
  | cons line lines ih =>
    rw [answers_cons, List.countP_cons, List.countP_cons, ih, failed_answer, filterMap_cons_toList,
      List.length_append]
    omega

/-! ## Sessions -/

/-- A session over a recorder makes the calls that its lines ask for, and the calls are rejected with
the queued failures, as far as there are some; the listing is shown whenever it is asked for and the
request is not rejected. -/
theorem account_of_session (prompt : Option String) (text : String)
    (failures : List String) (listing : List Summary) :
    ∃ texts : List String, (Bytes.ofText text).CutInto (texts.map .ofText) ∧
      let lines := Command.carriedOut texts
      let calls := lines.filterMap Command.callOf?
      let ran := engine.session (prompt.getD "") (.ofText text) ⟨[], failures, listing⟩
      ran = (engine.transcriptOf (prompt.getD "") lines (answers listing failures lines)
          (if texts.any Command.leaves then .left else .finished),
        ⟨calls, failures.drop calls.length, listing⟩) ∧
      (answers listing failures lines).filterMap rejection? = calls.zipWith Rejection.mk failures ∧
      ran.1.errors = String.join ((answers listing failures lines).map errorText) ∧
      ran.1.failures = lines.countP (fun line => !(Command.read? line).isOk) +
        min failures.length calls.length := by
  obtain ⟨texts, hlines⟩ := Bytes.exists_texts text
  refine ⟨texts, Bytes.cutInto_iff.2 hlines, ?_⟩
  intro lines calls ran
  obtain ⟨rest, htexts, hstops⟩ := exists_stops_answers listing failures texts
  have hran : ran = (engine.transcriptOf (prompt.getD "") lines (answers listing failures lines)
      (if texts.any Command.leaves then .left else .finished),
      ⟨calls, failures.drop calls.length, listing⟩) := by
    have hcut : texts.map Bytes.ofText = lines.map .ofText ++ rest.map .ofText := by
      rw [← List.map_append, ← htexts]
    show engine.sessionOver _ (Bytes.ofText text).lines _ = _
    rw [hlines, hcut]
    exact Engine.sessionOver_of_stops engine (.self Recorder)
      (mapM_execute_apply lines [] failures listing) hstops
  have hrejections := rejections_answers listing failures lines
  refine ⟨hran, hrejections, ?_, ?_⟩
  · rw [hran]
    exact congrArg String.join (List.map_congr_left fun a _ => failureText_eq a)
  · rw [hran]
    show (answers listing failures lines).countP (fun a => !a.isOk) = _
    rw [countP_answers, hrejections, List.length_zipWith, Nat.min_comm]

end Recorder

end BlockShell
