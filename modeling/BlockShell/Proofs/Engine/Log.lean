import BlockShell.Proofs.Engine.InMemory

/-!
# The log of an engine

An engine may keep nothing but the log of the changes it has accepted, and answer every question by
looking through it: the last change that concerns a target tells whether it is live and what it is
like, and the last one that concerns a block device tells how it is mapped.  The engine over a
registry in memory cannot be told from that one (`ask_eq_log`).
-/

namespace BlockShell

/-- The accepted changes, the last one first. -/
abbrev Log := List Change

namespace Log

variable (log : Log)

/-- The last change of the target counts. -/
def target? (name : String) : Option Target :=
  (log.find? fun c => c.targetName? == some name).bind Change.target?

/-- The last change of the block device counts. -/
def mapping? (suffix : String) : Option Mapping :=
  (log.find? fun c => c.suffix? == some suffix).bind Change.mapping?

/-- The names of the live targets. -/
def live : Finset String :=
  (log.filterMap Change.targetName?).toFinset.filter fun name => (log.target? name).isSome

/-- The block devices that are mapped onto a target. -/
def mappedOnto (name : String) : Finset String :=
  (log.filterMap Change.suffix?).toFinset.filter fun suffix =>
    (log.mapping? suffix).any (·.target == name)

/-- Why a change is rejected, if it is. -/
def refusal? : Change → Option RegistryError
  | .create target =>
    if (log.target? target.name).isSome then some (.targetExists target.name) else none
  | .destroy name =>
    if (log.target? name).isNone then some (.targetNotFound name)
    else if 0 < (log.mappedOnto name).card then some (.targetBusy name (log.mappedOnto name).card)
    else none
  | .map suffix m =>
    if (log.target? m.target).isNone then some (.targetNotFound m.target)
    else if (log.mapping? suffix).isSome then some (.alreadyMapped suffix)
    else none
  | .unmap suffix => if (log.mapping? suffix).isNone then some (.notMapped suffix) else none

/-- The live target with a name, as a listing shows it. -/
def summary? (name : String) : Option Summary :=
  (log.target? name).map fun target =>
    { name, kind := target.layout.kind, capacity := target.capacity,
      mappings := (log.mappedOnto name).card }

/-- The engine that keeps the log only. -/
def engine : Engine (StateM Log) EngineError where
  change c := fun log => match log.refusal? c with
    | some e => (.error (.registry e), log)
    | none => (.ok (), c :: log)
  list := fun log => (.ok (log.live.sort.filterMap log.summary?), log)
  describe := EngineError.message

/-! ## Looking through a log -/

variable {log} {c : Change} {name suffix : String} {target : Target} {m : Mapping}

/-- What a look-up finds is in the log, and concerns what was looked up. -/
theorem mem_of_find? {key? : Change → Option String} {key : String}
    (h : log.find? (fun c => key? c == some key) = some c) : c ∈ log ∧ key? c = some key := by
  have hkey := List.find?_some h
  exact ⟨List.mem_of_find?_eq_some h, beq_iff_eq.1 hkey⟩

theorem name_of_target? (h : log.target? name = some target) : target.name = name := by
  obtain ⟨c, hfind, htarget⟩ := Option.bind_eq_some_iff.1 h
  obtain ⟨-, hname⟩ := mem_of_find? hfind
  cases c <;> cases htarget
  exact Option.some.inj hname

theorem mem_live_iff : name ∈ log.live ↔ ∃ target, log.target? name = some target := by
  simp only [live, Finset.mem_filter, List.mem_toFinset, List.mem_filterMap,
    Option.isSome_iff_exists, and_iff_right_iff_imp]
  rintro ⟨target, h⟩
  obtain ⟨c, hfind, -⟩ := Option.bind_eq_some_iff.1 h
  exact ⟨c, mem_of_find? hfind⟩

theorem mem_mappedOnto_iff : suffix ∈ log.mappedOnto name ↔
    ∃ m, log.mapping? suffix = some m ∧ (m.target == name) = true := by
  simp only [mappedOnto, Finset.mem_filter, List.mem_toFinset, List.mem_filterMap,
    Option.any_eq_true, and_iff_right_iff_imp]
  rintro ⟨m, h, -⟩
  obtain ⟨c, hfind, -⟩ := Option.bind_eq_some_iff.1 h
  exact ⟨c, mem_of_find? hfind⟩

theorem target?_cons (c : Change) (name : String) :
    target? (c :: log) name = if c.targetName? = some name then c.target? else log.target? name := by
  unfold target?
  by_cases h : c.targetName? = some name <;> simp [h]

theorem mapping?_cons (c : Change) (suffix : String) :
    mapping? (c :: log) suffix =
      if c.suffix? = some suffix then c.mapping? else log.mapping? suffix := by
  unfold mapping?
  by_cases h : c.suffix? = some suffix <;> simp [h]

end Log

/-! ## A registry and a log -/

/-- The registry answers every look-up as the log does. -/
structure Registry.Agrees (r : Registry) (log : Log) : Prop where
  target (name : String) : r.targets.get? name = log.target? name
  mapping (suffix : String) : r.mappings.get? suffix = log.mapping? suffix

namespace Registry.Agrees

variable {r r' : Registry} {log : Log} {c : Change}

theorem empty : Registry.empty.Agrees [] := ⟨fun _ => rfl, fun _ => rfl⟩

theorem of_accepts (h : r.Agrees log) (hc : r.Accepts c r') : r'.Agrees (c :: log) := by
  constructor
  · intro name
    rw [Log.target?_cons, ← h.target, hc.get?_targets]
  · intro suffix
    rw [Log.mapping?_cons, ← h.mapping, hc.get?_mappings]

theorem mappingsOf (h : r.Agrees log) (name : String) :
    r.mappingsOf name = (log.mappedOnto name).card := by
  refine Table.countP_values fun suffix => ?_
  rw [Log.mem_mappedOnto_iff, h.mapping]

theorem mem_live (h : r.Agrees log) (name : String) :
    name ∈ log.live ↔ ∃ target, r.targets.get? name = some target := by
  rw [Log.mem_live_iff, h.target]

theorem size (h : r.Agrees log) : r.targets.size = log.live.card := by
  rw [← Finset.length_sort (· ≤ ·), Table.sort_eq_keys h.mem_live]
  exact (List.length_map _).symm

theorem refusal? (h : r.Agrees log) (c : Change) :
    log.refusal? c = match r.apply c with
      | .error e => some e
      | .ok _ => none := by
  cases c with
  | create target =>
    simp only [Log.refusal?, Registry.apply, Registry.create, Table.contains, h.target]
    split_ifs <;> rfl
  | destroy name =>
    simp only [Log.refusal?, Registry.apply, Registry.destroy, Table.contains, h.target, h.mappingsOf]
    cases log.target? name with
    | none => rfl
    | some target => split_ifs <;> simp_all
  | map suffix m =>
    simp only [Log.refusal?, Registry.apply, Registry.map, Table.contains, h.target, h.mapping]
    cases log.target? m.target with
    | none => rfl
    | some target => cases log.mapping? suffix <;> rfl
  | unmap suffix =>
    simp only [Log.refusal?, Registry.apply, Registry.unmap, Table.contains, h.mapping]
    cases log.mapping? suffix <;> rfl

theorem summaries (h : r.Agrees log) : r.summaries = log.live.sort.filterMap log.summary? := by
  unfold Registry.summaries
  rw [Table.values_eq_filterMap_keys, List.map_filterMap, Table.sort_eq_keys h.mem_live]
  refine List.filterMap_congr fun name _ => ?_
  unfold Log.summary?
  rw [h.target]
  cases htarget : log.target? name with
  | none => rfl
  | some target =>
    have hname := Log.name_of_target? htarget
    simp [Registry.summary, hname, h.mappingsOf]

end Registry.Agrees

/-! ## The two engines -/

namespace Engine

/-- What an engine answers to a call: nothing more than that a change is accepted, or a listing. -/
def ask {m : Type → Type} [Monad m] {ε : Type} (e : Engine m ε) :
    Call → m (Except ε (Option (List Summary)))
  | .change c => return (← e.change c).map fun () => none
  | .list => return (← e.list).map some

theorem ask_change_inMemory (c : Change) (r : Registry) :
    (inMemory (m := Id)).ask (.change c) r = match r.apply c with
      | .error e => (.error (.registry e), r)
      | .ok next => (.ok none, next) := by
  unfold ask
  dsimp only [bind, StateT.bind]
  rw [change_inMemory]
  cases r.apply c <;> rfl

theorem ask_change_log (c : Change) (log : Log) :
    Log.engine.ask (.change c) log = match log.refusal? c with
      | some e => (.error (.registry e), log)
      | none => (.ok none, c :: log) := by
  unfold ask Log.engine
  dsimp only [bind, StateT.bind]
  cases log.refusal? c <;> rfl

/-- One call: the same answer, and registry and log agree afterwards. -/
theorem ask_agrees {r : Registry} {log : Log} (h : r.Agrees log) (call : Call) :
    ((inMemory (m := Id)).ask call r).1 = (Log.engine.ask call log).1 ∧
      ((inMemory (m := Id)).ask call r).2.Agrees (Log.engine.ask call log).2 := by
  cases call with
  | change c =>
    rw [ask_change_inMemory, ask_change_log, h.refusal?]
    cases happly : r.apply c with
    | error e => exact ⟨rfl, h⟩
    | ok next => exact ⟨rfl, h.of_accepts (Registry.accepts_of_apply happly)⟩
  | list => exact ⟨congrArg (Except.ok ∘ some) h.summaries, h⟩

theorem asks_agree {r : Registry} {log : Log} (h : r.Agrees log) (calls : List Call) :
    (calls.mapM (inMemory (m := Id)).ask r).1 = (calls.mapM Log.engine.ask log).1 ∧
      (calls.mapM (inMemory (m := Id)).ask r).2.Agrees (calls.mapM Log.engine.ask log).2 := by
  induction calls generalizing r log with
  | nil => exact ⟨rfl, h⟩
  | cons call calls ih =>
    obtain ⟨hfirst, h⟩ := ask_agrees h call
    obtain ⟨hrest, h⟩ := ih h
    rw [mapM_cons_apply, mapM_cons_apply]
    exact ⟨congrArg₂ List.cons hfirst hrest, h⟩

/-- The registry engine and the log engine give the same answers to the same calls, and afterwards the
same targets and mappings are found. -/
theorem ask_eq_log (calls : List Call) :
    let ran := calls.mapM (inMemory (m := Id)).ask Registry.empty
    let logged := calls.mapM Log.engine.ask []
    ran.1 = logged.1 ∧
      (∀ name, ran.2.targets.get? name = logged.2.target? name) ∧
      (∀ suffix, ran.2.mappings.get? suffix = logged.2.mapping? suffix) ∧
      ran.2.targets.size = logged.2.live.card := by
  obtain ⟨hanswers, h⟩ := asks_agree .empty calls
  exact ⟨hanswers, h.target, h.mapping, h.size⟩

end Engine

end BlockShell
