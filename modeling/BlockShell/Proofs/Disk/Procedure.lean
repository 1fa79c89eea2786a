import BlockShell.Proofs.Disk.Files

/-!
# Procedures that may be broken off

A procedure asks for file operations one after another and goes on with the answers.  What a disk can
make of an operation is what it does to a tree or, if it fails, nothing, but for a write that has
failed on the way (`Operation.Outcome`).  After any number of operations there is a tree and a
procedure that is left (`Procedure.Reaches`), and nothing says that the procedure goes on.  What holds
wherever it is broken off, and what holds at its end, is shown operation by operation
(`Procedure.Upholds`).
-/

namespace BlockShell

open FileTree (Grown SameFiles)

/-! ## Procedures -/

/-- The operations of a disk. -/
inductive Operation where
  | createDirectory (p : Path)
  | openDirectory (p : Path)
  | pathExists (p : Path)
  | readFile (directory : Path) (name : String)
  | openFile (directory : Path) (name : String)
  /-- Reads a block of a file that has been opened. -/
  | readBlock (handle position : Nat)
  | writeFile (directory : Path) (name : String) (content : ByteArray)
  | rename (directory : Path) (name newName : String)
  | removeFile (directory : Path) (name : String)

namespace Operation

/-- How an operation may be answered. -/
@[reducible] def Answer : Operation → Type
  | pathExists _ => Bool
  | readFile _ _ => Except FileError ByteArray
  | openFile _ _ => Except FileError Nat
  | readBlock _ _ => Except FileError ByteArray
  | createDirectory _ | openDirectory _ | writeFile _ _ _ | rename _ _ _ | removeFile _ _ =>
    Except FileError Unit

/-- Carried out on `t`, an operation may leave `u` and give the answer. -/
def Outcome (t u : FileTree) : (o : Operation) → o.Answer → Prop
  | createDirectory p, answer => Disk.Attempt (·.createDirectory p) t u answer
  | openDirectory p, answer => u.SameFiles t ∧ (answer = .ok () → ∃ l, t.directory p = .ok l)
  | pathExists p, answer => u.SameFiles t ∧ (answer = true → (t.locate p).isOk = true)
  | readFile directory name, answer => u.SameFiles t ∧
    ∀ content, answer = .ok content → t.readFile directory name = .ok content
  | openFile directory name, answer => u.SameFiles t ∧
    ∀ handle, answer = .ok handle → ∃ v, t.openNode directory name = .ok v
  | readBlock _ _, _ => u.SameFiles t
  | writeFile directory name content, answer =>
    Disk.Attempt (·.writeFile directory name content) t u answer ∨
      Disk.Torn directory name t u answer
  | rename directory name newName, answer =>
    Disk.Attempt (·.rename directory name newName) t u answer
  | removeFile directory name, answer => Disk.Attempt (·.removeFile directory name) t u answer

end Operation

/-- An operation that has been carried out, with its answer. -/
abbrev Deed := (o : Operation) × o.Answer

/-- Operations one after the other, each chosen by the answers so far. -/
inductive Procedure (α : Type) where
  | done (a : α)
  | ask (o : Operation) (next : o.Answer → Procedure α)

namespace Procedure

variable {α β : Type}

/-- One procedure after the other. -/
def bind (f : α → Procedure β) : Procedure α → Procedure β
  | done a => f a
  | ask o next => ask o fun answer => (next answer).bind f

instance : Monad Procedure where
  pure := done
  bind x f := x.bind f

/-- The operations as procedures of their own. -/
def disk : Disk Procedure where
  createDirectory p := ask (.createDirectory p) done
  openDirectory p := ask (.openDirectory p) done
  pathExists p := ask (.pathExists p) done
  readFile directory name := ask (.readFile directory name) done
  openFile directory name := ask (.openFile directory name) fun answer =>
    done (answer.map fun handle position => ask (.readBlock handle position) done)
  writeFile directory name content := ask (.writeFile directory name content) done
  rename directory name newName := ask (.rename directory name newName) done
  removeFile directory name := ask (.removeFile directory name) done

/-! ## Running a procedure for a while -/

/-- From the tree `t` a procedure reaches `u` by some deeds and is not further than the last one. -/
inductive Reaches : FileTree → Procedure α → List Deed → FileTree → Procedure α → Prop
  | here (t : FileTree) (x : Procedure α) : Reaches t x [] t x
  | step {t v u : FileTree} {o : Operation} {answer : o.Answer} {next : o.Answer → Procedure α}
      {log : List Deed} {y : Procedure α} (houtcome : o.Outcome t v answer)
      (h : Reaches v (next answer) log u y) : Reaches t (.ask o next) (⟨o, answer⟩ :: log) u y

theorem Reaches.trans {t v u : FileTree} {x y z : Procedure α} {log log' : List Deed}
    (h : Reaches t x log v y) (h' : Reaches v y log' u z) : Reaches t x (log ++ log') u z := by
  induction h with
  | here => exact h'
  | step houtcome _ ih => exact .step houtcome (ih h')

/-- A run may be broken off after any of its deeds. -/
theorem Reaches.split {t u : FileTree} {x y : Procedure α} {log log' : List Deed}
    (h : Reaches t x (log ++ log') u y) : ∃ v z, Reaches t x log v z ∧ Reaches v z log' u y := by
  induction log generalizing t x with
  | nil => exact ⟨t, x, .here t x, h⟩
  | cons deed log ih =>
    rw [List.cons_append] at h
    cases h with
    | step houtcome h =>
      obtain ⟨v, z, hv, hrest⟩ := ih h
      exact ⟨v, z, .step houtcome hv, hrest⟩

theorem Reaches.bind {t u : FileTree} {x y : Procedure α} {log : List Deed}
    (h : Reaches t x log u y) (f : α → Procedure β) : Reaches t (x >>= f) log u (y >>= f) := by
  induction h with
  | here => exact .here _ _
  | step houtcome _ ih => exact .step houtcome ih

/-! ## What a procedure upholds -/

/-- After the deeds in `log` have left `t`: wherever the procedure is broken off, `I` holds of what
has been done and of the tree, and so does `Q` at its end. -/
def Upholds (I : List Deed → FileTree → Prop) (Q : α → List Deed → FileTree → Prop) :
    Procedure α → List Deed → FileTree → Prop
  | done a, log, t => I log t ∧ Q a log t
  | ask o next, log, t => I log t ∧ ∀ answer u, o.Outcome t u answer →
    (next answer).Upholds I Q (log ++ [⟨o, answer⟩]) u

variable {I I' : List Deed → FileTree → Prop} {Q Q' : α → List Deed → FileTree → Prop}
  {x : Procedure α} {log : List Deed} {t u : FileTree}

theorem Upholds.now (h : x.Upholds I Q log t) : I log t := by
  cases x with
  | done => exact h.1
  | ask => exact h.1

theorem Upholds.mono (h : x.Upholds I Q log t) (hI : ∀ log t, I log t → I' log t)
    (hQ : ∀ a log t, I log t → Q a log t → Q' a log t) : x.Upholds I' Q' log t := by
  induction x generalizing log t with
  | done a => exact ⟨hI _ _ h.1, hQ _ _ _ h.1 h.2⟩
  | ask o next ih => exact ⟨hI _ _ h.1, fun answer u hu => ih answer (h.2 answer u hu)⟩

theorem Upholds.bind {f : α → Procedure β} {R : β → List Deed → FileTree → Prop}
    (h : x.Upholds I Q log t) (hf : ∀ a log t, I log t → Q a log t → (f a).Upholds I R log t) :
    (x >>= f).Upholds I R log t := by
  induction x generalizing log t with
  | done a => exact hf a log t h.1 h.2
  | ask o next ih => exact ⟨h.1, fun answer u hu => ih answer (h.2 answer u hu)⟩

theorem Upholds.except_bind {ε : Type} {x : ExceptT ε Procedure α} {f : α → ExceptT ε Procedure β}
    {Q : Except ε α → List Deed → FileTree → Prop} {R : Except ε β → List Deed → FileTree → Prop}
    (h : Upholds I Q x.run log t)
    (herror : ∀ e log t, I log t → Q (.error e) log t → R (.error e) log t)
    (hok : ∀ a log t, I log t → Q (.ok a) log t → Upholds I R (f a).run log t) :
    Upholds I R (x >>= f).run log t := by
  refine Upholds.bind h fun r log t hI hQ => ?_
  cases r with
  | error e => exact ⟨hI, herror e log t hI hQ⟩
  | ok a => exact hok a log t hI hQ

/-- What a procedure upholds is so at every point that it reaches. -/
theorem Upholds.of_reaches {y : Procedure α} {log' : List Deed} (h : x.Upholds I Q log t)
    (hreach : Reaches t x log' u y) : y.Upholds I Q (log ++ log') u := by
  induction hreach generalizing log with
  | here =>
    rw [List.append_nil]
    exact h
  | step houtcome _ ih =>
    rw [List.append_cons]
    exact ih (h.2 _ _ houtcome)

/-- `I` is upheld by a procedure that starts with it. -/
def Keeps (I : List Deed → FileTree → Prop) (x : Procedure α) : Prop :=
  ∀ log t, I log t → x.Upholds I (fun _ _ _ => True) log t

theorem Keeps.pure (a : α) : Keeps I (pure a : Procedure α) := fun _ _ h => ⟨h, trivial⟩

theorem Keeps.bind {f : α → Procedure β} (hx : Keeps I x) (hf : ∀ a, Keeps I (f a)) :
    Keeps I (x >>= f) :=
  fun log t h => (hx log t h).bind fun a log t h _ => hf a log t h

theorem keeps_ask {o : Operation} (h : ∀ log t answer u, I log t → o.Outcome t u answer →
    I (log ++ [⟨o, answer⟩]) u) : Keeps I (ask o done) :=
  fun log t hI => ⟨hI, fun answer u hu => ⟨h log t answer u hI hu, trivial⟩⟩

/-! ## Procedures as they are carried out -/

section Follows

variable {σ : Type} {tree : σ → FileTree}

/-- Every run of `y` is a run of the procedure to its end. -/
def Follows (tree : σ → FileTree) (x : Procedure α) (y : StateM σ α) : Prop :=
  ∀ s, ∃ log, Reaches (tree s) x log (tree (y s).2) (.done (y s).1)

theorem Follows.pure (a : α) : Follows tree (Pure.pure a) (Pure.pure a) := fun _ => ⟨[], .here _ _⟩

theorem Follows.bind {y : StateM σ α} {f : α → Procedure β} {g : α → StateM σ β}
    (h : Follows tree x y) (hf : ∀ a, Follows tree (f a) (g a)) :
    Follows tree (x >>= f) (y >>= g) := by
  intro s
  obtain ⟨log, hlog⟩ := h s
  obtain ⟨log', hlog'⟩ := hf (y s).1 (y s).2
  exact ⟨log ++ log', (hlog.bind f).trans hlog'⟩

theorem Follows.except_bind {ε : Type} {x : ExceptT ε Procedure α} {y : ExceptT ε (StateM σ) α}
    {f : α → ExceptT ε Procedure β} {g : α → ExceptT ε (StateM σ) β}
    (h : Follows tree x.run y.run) (hf : ∀ a, Follows tree (f a).run (g a).run) :
    Follows tree (x >>= f).run (y >>= g).run := by
  show Follows tree (x.run >>= ExceptT.bindCont f) (y.run >>= ExceptT.bindCont g)
  refine Follows.bind h fun r => ?_
  cases r with
  | error e => exact .pure _
  | ok a => exact hf a

theorem follows_ask {o : Operation} {y : StateM σ o.Answer}
    (h : ∀ s, o.Outcome (tree s) (tree (y s).2) (y s).1) : Follows tree (ask o done) y :=
  fun s => ⟨_, .step (h s) (.here _ _)⟩

variable {d : Disk (StateM σ)} (hd : d.ActsOn tree)
include hd

theorem follows_createDirectory (p : Path) :
    Follows tree (disk.createDirectory p) (d.createDirectory p) :=
  follows_ask (hd.createDirectory p)

theorem follows_openDirectory (p : Path) :
    Follows tree (disk.openDirectory p) (d.openDirectory p) :=
  follows_ask (hd.openDirectory p)

theorem follows_orPresent (p : Path) (r : Except FileError Unit) :
    Follows tree (disk.orPresent p r) (d.orPresent p r) := by
  cases r with
  | ok => exact .pure _
  | error e => exact (follows_openDirectory hd p).bind fun _ => .pure _

theorem follows_createChain (paths : List Path) :
    Follows tree (disk.createChain paths) (d.createChain paths) := by
  induction paths with
  | nil => exact .pure _
  | cons p above ih =>
    refine (follows_createDirectory hd p).bind fun r => ?_
    split
    · refine ih.bind fun r => ?_
      split
      · exact (follows_createDirectory hd p).bind fun r => follows_orPresent hd p r
      · exact .pure _
    · exact follows_orPresent hd p r

theorem follows_createDirectories (p : Path) :
    Follows tree (disk.createDirectories p) (d.createDirectories p) := by
  unfold Disk.createDirectories
  split
  · exact .pure _
  · exact follows_createChain hd _

end Follows

/-! ## Creating directories -/

section Creating

variable {P : FileTree → Prop} (hsame : ∀ t u, u.SameFiles t → P t → P u)

/-- `P` of the tree, after deeds that have renamed and removed nothing. -/
def Undisturbed (P : FileTree → Prop) (log : List Deed) (t : FileTree) : Prop :=
  P t ∧ ∀ deed ∈ log, ∀ directory name,
    (∀ newName, deed.1 ≠ .rename directory name newName) ∧ deed.1 ≠ .removeFile directory name

theorem Undisturbed.snoc {deed : Deed} (h : Undisturbed P log t) (hu : P u)
    (hdeed : ∀ directory name, (∀ newName, deed.1 ≠ .rename directory name newName) ∧
      deed.1 ≠ .removeFile directory name) : Undisturbed P (log ++ [deed]) u := by
  refine ⟨hu, fun deed' hmem => ?_⟩
  rcases List.mem_append.1 hmem with hmem | hmem
  · exact h.2 deed' hmem
  · rw [List.mem_singleton.1 hmem]
    exact hdeed

include hsame

theorem keeps_createDirectory {p : Path} (hp : ∀ t u, P t → t.createDirectory p = .ok u → P u) :
    Keeps (Undisturbed P) (disk.createDirectory p) := by
  refine keeps_ask fun log t answer u h houtcome => h.snoc ?_ (by simp)
  cases answer with
  | ok =>
    obtain ⟨v, hv, hu⟩ := houtcome
    exact hsame v u hu (hp t v h.1 hv)
  | error e => exact hsame t u houtcome h.1

theorem keeps_orPresent (p : Path) (r : Except FileError Unit) :
    Keeps (Undisturbed P) (disk.orPresent p r) := by
  cases r with
  | ok => exact .pure _
  | error e =>
    refine .bind (keeps_ask fun log t answer u h houtcome => ?_) fun _ => .pure _
    exact h.snoc (hsame t u houtcome.1 h.1) (by simp)

theorem keeps_createChain {paths : List Path}
    (hpaths : ∀ p ∈ paths, ∀ t u, P t → t.createDirectory p = .ok u → P u) :
    Keeps (Undisturbed P) (disk.createChain paths) := by
  induction paths with
  | nil => exact .pure _
  | cons p above ih =>
    obtain ⟨hp, habove⟩ := List.forall_mem_cons.1 hpaths
    have hcreate := keeps_createDirectory hsame hp
    refine .bind hcreate fun r => ?_
    split
    · refine .bind (ih habove) fun r => ?_
      split
      · exact .bind hcreate fun r => keeps_orPresent hsame p r
      · exact .pure _
    · exact keeps_orPresent hsame p r

end Creating

/-- While the directories above a path are being created, the tree only grows towards the path. -/
theorem keeps_createDirectories (t : FileTree) (p : Path) :
    Keeps (Undisturbed fun u => Grown (Disk.Fresh t p) t u ∧ u.Sound) (disk.createDirectories p) := by
  unfold Disk.createDirectories
  split
  · exact .pure _
  · refine keeps_createChain (fun u v hv hu => ⟨hv.grown hu.1, hv.sound hu.2⟩) fun q hq u v hu hv => ?_
    exact ⟨Disk.grown_createDirectory hu.1 hq hv, Disk.sound_createDirectory hu.2 hv⟩

end Procedure

/-- Creating the directories above a path makes the tree grow towards the path, unless the path
leads to a directory already. -/
theorem Disk.createDirectories_grown {σ : Type} {disk : Disk (StateM σ)} {tree : σ → FileTree}
    (h : disk.ActsOn tree) (p : Path) {s : σ} (hs : (tree s).Sound) :
    Grown (Disk.Fresh (tree s) p) (tree s) (tree (disk.createDirectories p s).2) ∧
      (tree (disk.createDirectories p s).2).Sound := by
  obtain ⟨log, hlog⟩ := Procedure.follows_createDirectories h p s
  have hkeeps := Procedure.keeps_createDirectories (tree s) p [] (tree s) ⟨⟨.refl _ _, hs⟩, nofun⟩
  exact (hkeeps.of_reaches hlog).now.1

end BlockShell
