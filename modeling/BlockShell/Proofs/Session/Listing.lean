import BlockShell.Proofs.Engine.Shells
import BlockShell.Proofs.Registry.Listing
import BlockShell.Proofs.Session.Steps
import BlockShell.Proofs.Target.Messages
import BlockShell.Proofs.Text.Order

/-!
# Reading a listing back

A listing quotes nothing.  It can be read back all the same, because no target that a session creates
has a name with a space or a line feed in it, or with blanks around it: a name comes from a line, and
from between the spaces of the line (`listable_of_read?`).  So the replies of a session to its requests for
a listing tell all there is in the summaries (`listing_readable`).
-/

namespace BlockShell

/-! ## Listable names -/

/-- What no value in a listing may hold. -/
def listingDelimiters : List Char := [' ', '\n']

theorem isSeparator_listingDelimiters : ∀ c ∈ listingDelimiters, isSeparator c = true :=
  List.all_eq_true.1 (by decide)

/-- A name that is shown so that it can be read back. -/
abbrev Listable (name : String) : Prop := IsValue listingDelimiters name

/-! ## Lines -/

namespace Summary

variable {s t : Summary}

/-- The fields of a row. -/
def fields (s : Summary) : List (String × String) :=
  [("name", s.name), ("type", s.kind.name), ("capacity_sectors", s.capacity.text),
    ("mappings", toString s.mappings)]

theorem line_eq_textOf (s : Summary) : s.line = Arguments.textOf Arguments.wordDelimiter s.fields := by
  rw [← String.toList_inj]
  simp [line, fields, Arguments.textOf, Arguments.pairText, Text.toList_join, Arguments.wordDelimiter,
    Sectors.text]

theorem areFields (h : Listable s.name) : AreFields listingDelimiters s.fields := by
  have hcount : IsKey (toString s.mappings) :=
    ⟨Text.toString_ne_empty _, fun _ hc => isKeyChar_of_isDigit (Text.isDigit_of_mem_toString hc)⟩
  have hkey {key : String} (h : IsKey key) := isValue_of_isKey isSeparator_listingDelimiters h
  exact .cons (by decide) h <| .cons (by decide) (hkey (isKey_kindName _)) <|
    .cons (by decide) (hkey (isKey_text _)) <| .cons (by decide) (hkey hcount) .nil

theorem ofText_line (h : Listable s.name) :
    Arguments.ofText Arguments.wordDelimiter s.line = .ofList s.fields := by
  rw [line_eq_textOf]
  exact (areFields h).ofText_textOf (by simp [fields]) (by decide) (by decide)

theorem not_mem_line (h : Listable s.name) : '\n' ∉ s.line.toList := by
  have hfields : AreFields ['\n'] s.fields := fun e he =>
    ⟨(areFields h e he).1, (areFields h e he).2.mono (by simp [listingDelimiters])⟩
  rw [line_eq_textOf]
  exact (isValue_textOf (by decide) (List.all_eq_true.1 (by decide)) (by simp [fields]) hfields).avoids
    '\n' (List.mem_singleton_self _)

/-- What is read from a line. -/
theorem get?_line (h : Listable s.name) :
    let fields := Arguments.ofText Arguments.wordDelimiter s.line
    fields.get? "name" = some s.name ∧ fields.get? "type" = some s.kind.name ∧
      fields.get? "capacity_sectors" = some s.capacity.text ∧
      fields.get? "mappings" = some (toString s.mappings) := by
  have hreads : Reads (.ofText Arguments.wordDelimiter s.line) s.fields := by
    rw [ofText_line h]
    exact reads_ofList (by simp [fields])
  simp only [fields, reads_cons_iff] at hreads
  obtain ⟨hname, hkind, hcapacity, hmappings, -⟩ := hreads
  exact ⟨hname, hkind, hcapacity, hmappings⟩

theorem contains_line_iff (h : Listable s.name) (key : String) :
    (Arguments.ofText Arguments.wordDelimiter s.line).contains key = true ↔
      key ∈ ["name", "type", "capacity_sectors", "mappings"] := by
  have hkeys : s.fields.map Prod.fst = ["name", "type", "capacity_sectors", "mappings"] := rfl
  rw [ofText_line h, Table.contains_iff, ← hkeys]
  constructor
  · rintro ⟨value, hvalue⟩
    exact List.mem_map.2 ⟨_, Table.mem_of_get?_ofList hvalue, rfl⟩
  · intro hkey
    obtain ⟨⟨_, value⟩, he, rfl⟩ := List.mem_map.1 hkey
    exact ⟨value, Table.get?_ofList_of_mem (by simp [fields]) he⟩

theorem line_injective (hs : Listable s.name) (ht : Listable t.name) (h : s.line = t.line) : s = t := by
  obtain ⟨hname, hkind, hcapacity, hmappings⟩ := get?_line hs
  obtain ⟨hname', hkind', hcapacity', hmappings'⟩ := get?_line ht
  rw [h] at hname hkind hcapacity hmappings
  have hkind : s.kind = t.kind := Kind.name_injective (Option.some.inj (hkind.symm.trans hkind'))
  have hcapacity : s.capacity = t.capacity := by
    have htext : s.capacity.text = t.capacity.text := Option.some.inj (hcapacity.symm.trans hcapacity')
    have hword := word?_trim_text s.capacity
    rw [htext, word?_trim_text] at hword
    exact (Option.some.inj hword).symm
  have hmappings : s.mappings = t.mappings :=
    Text.toString_injective (Option.some.inj (hmappings.symm.trans hmappings'))
  obtain ⟨name, kind, capacity, mappings⟩ := s
  obtain rfl := Option.some.inj (hname.symm.trans hname')
  cases hkind
  cases hcapacity
  cases hmappings
  rfl

/-! ## Listings -/

variable {rows rows' : List Summary}

theorem listing?_of_ne (hne : rows ≠ []) :
    listing? rows = some (Text.join '\n' (rows.map line)) :=
  if_neg (by simpa using hne)

theorem pieces_listing (hne : rows ≠ []) (h : ∀ row ∈ rows, Listable row.name) :
    Text.pieces '\n' (Text.join '\n' (rows.map line)) = rows.map line :=
  Text.pieces_join (List.forall_mem_map.2 fun row hrow => not_mem_line (h row hrow)) (by simpa using hne)

theorem listing?_injective (h : ∀ row ∈ rows, Listable row.name)
    (h' : ∀ row ∈ rows', Listable row.name) (hlist : listing? rows = listing? rows') :
    rows = rows' := by
  by_cases hne : rows = []
  · subst hne
    by_cases hne' : rows' = []
    · exact hne'.symm
    · rw [listing?_of_ne hne'] at hlist
      cases hlist
  · by_cases hne' : rows' = []
    · subst hne'
      rw [listing?_of_ne hne] at hlist
      cases hlist
    · rw [listing?_of_ne hne, listing?_of_ne hne', Option.some.injEq] at hlist
      have hlines : rows.map line = rows'.map line := by
        rw [← pieces_listing hne h, hlist, pieces_listing hne' h']
      have hlength : rows.length = rows'.length := by simpa using congrArg List.length hlines
      refine List.ext_getElem hlength fun i hi hi' => ?_
      have hline : rows[i].line = rows'[i].line := by simpa [hi, hi'] using congrArg (·[i]?) hlines
      exact line_injective (h _ (List.getElem_mem hi)) (h' _ (List.getElem_mem hi')) hline

end Summary

/-! ## Names in a registry -/

theorem Target.listable_of_read? {line : String} {t : Target} (hline : '\n' ∉ line.toList)
    (h : Command.read? line = .ok (some (.change (.create t)))) : Listable t.name := by
  obtain ⟨hne, htrim, havoid⟩ := (Target.writable_of_read? h).name
  have hname : Text.SingleLine t.name := by
    have hread := Command.singleLine_read? hline
    rw [h] at hread
    exact hread _ rfl
  exact ⟨hne, htrim, List.forall_mem_cons.2
    ⟨havoid ' ' (List.mem_singleton_self _), List.forall_mem_singleton.2 hname⟩⟩

namespace Registry

/-- A registry whose listing can be read back. -/
structure IsListable (r : Registry) : Prop where
  consistent : r.Consistent
  names : ∀ name target, r.targets.get? name = some target → Listable name

variable {r r' : Registry} {c : Change}

theorem isListable_empty : Registry.empty.IsListable := ⟨consistent_empty, nofun⟩

theorem Accepts.isListable (h : r.Accepts c r') (hr : r.IsListable)
    (hc : ∀ t, c = .create t → Listable t.name) : r'.IsListable := by
  refine ⟨h.consistent hr.consistent, fun name target htarget => ?_⟩
  rw [h.get?_targets] at htarget
  split at htarget
  · next hname =>
    cases c with
    | create t =>
      cases hname
      exact hc t rfl
    | destroy name₀ | map suffix m | unmap suffix => cases htarget
  · exact hr.names name target htarget

theorem IsListable.listable (hr : r.IsListable) : ∀ row ∈ r.summaries, Listable row.name := by
  intro row hrow
  obtain ⟨target, htarget, -⟩ := (mem_summaries_iff hr.consistent).1 hrow
  exact hr.names row.name target htarget

end Registry

/-- The fields read from a line tell of a target what a listing says of it. -/
structure Registry.Describes (r : Registry) (target : Target) (fields : Arguments) : Prop where
  keys (key : String) :
    fields.contains key = true ↔ key ∈ ["name", "type", "capacity_sectors", "mappings"]
  name : fields.get? "name" = some target.name
  kind : ∃ value, fields.get? "type" = some value ∧ value = target.layout.kind.name ∧
    Kind.read value = .ok target.layout.kind
  capacity : ∃ value, fields.get? "capacity_sectors" = some value ∧
    value = toString target.capacity.toNat ∧
    ∀ field, Arguments.readSectors field value = .ok target.capacity
  mappings : fields.get? "mappings" = some (toString (r.mappedOnto target.name).ncard)

theorem Registry.describes_line {r : Registry} {target : Target} (h : Listable target.name) :
    r.Describes target (.ofText Arguments.wordDelimiter (r.summary target).line) := by
  have hrow : Listable (r.summary target).name := h
  obtain ⟨hname, hkind, hcapacity, hmappings⟩ := Summary.get?_line hrow
  refine ⟨Summary.contains_line_iff hrow, hname, ⟨_, hkind, rfl, Kind.read_eq_ok_iff.2 rfl⟩,
    ⟨_, hcapacity, rfl, fun field => ?_⟩, ?_⟩
  · exact Arguments.readSectors_eq_ok_iff.2 (word?_trim_text target.capacity)
  · rw [hmappings, ← mappingsOf_eq_ncard]
    rfl

/-- The reply of a listing has a line for each target, in the order of their names. -/
theorem Registry.describes_listing {r : Registry} (hr : r.IsListable) (hne : r.targets ≠ .empty) :
    let reply := Text.join '\n' (r.summaries.map Summary.line)
    let targets := r.targets.values
    Summary.listing? r.summaries = some reply ∧
      (∀ name target, r.targets.get? name = some target ↔ target ∈ targets ∧ target.name = name) ∧
      targets.Pairwise (fun a b => Bytes.ofText a.name < Bytes.ofText b.name) ∧
      List.Forall₂ (fun target line => r.Describes target (.ofText ' ' line)) targets
        (Text.pieces '\n' reply) := by
  intro reply targets
  have hrows : r.summaries ≠ [] := by
    intro hnil
    have hsize : r.summaries.length = r.targets.size := by simp [summaries, Table.values, Table.size]
    rw [hnil] at hsize
    exact hne (r.targets.size_eq_zero_iff.1 hsize.symm)
  refine ⟨Summary.listing?_of_ne hrows, fun name target => ?_, ?_, ?_⟩
  · rw [Table.mem_values_iff]
    constructor
    · exact fun htarget => ⟨⟨name, htarget⟩, hr.consistent.named name target htarget⟩
    · rintro ⟨⟨key, htarget⟩, rfl⟩
      obtain rfl := hr.consistent.named key target htarget
      exact htarget
  · have hsorted := pairwise_summaries hr.consistent
    rw [summaries, List.pairwise_map] at hsorted
    exact hsorted.imp Bytes.ofText_lt_ofText
  · rw [Summary.pieces_listing hrows hr.listable, summaries, List.map_map, List.forall₂_map_right_iff,
      List.forall₂_same]
    intro target htarget
    obtain ⟨name, htarget⟩ := Table.mem_values_iff.1 htarget
    obtain rfl := hr.consistent.named name target htarget
    exact describes_line (hr.names target.name target htarget)

theorem replyText_injective {reply? reply?' : Option String}
    (h : replyText (.ok (.proceed reply?) : Engine.Answer) =
      replyText (.ok (.proceed reply?') : Engine.Answer)) : reply? = reply?' := by
  cases reply? <;> cases reply?' <;> simp_all [replyText]

namespace Engine

variable {line : String} {r : Registry}

theorem execute_of_list (h : Command.read? line = .ok (some .list)) (r : Registry) :
    (inMemory (m := Id)).execute line r = (.ok (.proceed (Summary.listing? r.summaries)), r) := by
  unfold execute
  rw [h]
  rfl

theorem isListable_of_line (hline : '\n' ∉ line.toList) (hr : r.IsListable) :
    ((inMemory (m := Id)).execute line r).2.IsListable := by
  unfold execute
  cases hread : Command.read? line with
  | error err => exact hr
  | ok command? =>
    rcases command? with _ | command
    · exact hr
    cases command with
    | change c =>
      dsimp only
      rw [run_change_inMemory]
      cases happly : r.apply c with
      | error e => exact hr
      | ok next =>
        exact (Registry.accepts_of_apply happly).isListable hr fun t ht =>
          Target.listable_of_read? hline (ht ▸ hread)
    | list | help topic | exit => exact hr

theorem isListable_of_step (script : Bytes) :
    ∀ step ∈ inMemory.steps (Stateful.self Registry) script.lines .empty,
      step.before.IsListable ∧ step.answer = ((inMemory (m := Id)).execute step.line step.before).1 := by
  refine inMemory.forall_steps (Stateful.self Registry) ?_ Registry.isListable_empty
  rintro _ hline text rfl r hr
  exact isListable_of_line (Bytes.newline_not_mem ((Bytes.cutInto_lines script).not_mem _ hline)) hr

/-- Nothing is printed if there are no targets.  If there are, the lines of the reply tell of the targets,
in the order of their names, and what is printed by any session is printed for no other summaries. -/
theorem listing_readable (prompt : Option String) (script : Bytes) :
    let steps := inMemory.steps (Stateful.self Registry) script.lines .empty
    (∃ (rest : List Bytes) (ending : Ending),
      script.CutInto (steps.map (fun step => .ofText step.line) ++ rest) ∧
      Stops (steps.map Step.answer) rest ending ∧
      ((inMemory (m := Id)).session (prompt.getD "") script .empty).1 =
        (inMemory (m := Id)).transcriptOf (prompt.getD "") (steps.map Step.line)
          (steps.map Step.answer) ending) ∧
    ∀ step ∈ steps, Command.read? step.line = .ok (some .list) →
      (step.before.targets = .empty → step.answer = .ok (.proceed none)) ∧
      (step.before.targets ≠ .empty → ∃ reply targets, step.answer = .ok (.proceed (some reply)) ∧
        (∀ name target, step.before.targets.get? name = some target ↔
          target ∈ targets ∧ target.name = name) ∧
        targets.Pairwise (fun a b => Bytes.ofText a.name < Bytes.ofText b.name) ∧
        List.Forall₂ (fun target line => step.before.Describes target (.ofText ' ' line)) targets
          (Text.pieces '\n' reply)) ∧
      ∀ script' : Bytes, ∀ step' ∈ inMemory.steps (Stateful.self Registry) script'.lines .empty,
        Command.read? step'.line = .ok (some .list) →
        replyText step'.answer = replyText step.answer →
        step'.before.summaries = step.before.summaries := by
  intro steps
  refine ⟨inMemory.session_eq_steps (Stateful.self Registry) (prompt.getD "") script .empty, ?_⟩
  intro step hstep hlist
  obtain ⟨hr, hanswer⟩ := isListable_of_step script step hstep
  rw [execute_of_list hlist] at hanswer
  refine ⟨fun hempty => ?_, fun hne => ?_, ?_⟩
  · rw [hanswer, Registry.summaries, hempty]
    rfl
  · obtain ⟨hreply, hmem, hsorted, hlines⟩ := Registry.describes_listing hr hne
    exact ⟨_, step.before.targets.values, hreply ▸ hanswer, hmem, hsorted, hlines⟩
  · intro script' step' hstep' hlist' hprinted
    obtain ⟨hr', hanswer'⟩ := isListable_of_step script' step' hstep'
    rw [execute_of_list hlist'] at hanswer'
    rw [hanswer, hanswer'] at hprinted
    exact Summary.listing?_injective hr'.listable hr.listable (replyText_injective hprinted)

/-- The name of the target holds an equals sign, and the last line asks for more than it needs. -/
def equalsScript : Bytes := .ofText ("target_create name=a=b capacity_sectors=+08 type=null\r\n" ++
  "bdev_map bdev_suffix=d target_name=a=b\ntarget_list all")

theorem listing_readable_of_equalsScript :
    ∃ step ∈ inMemory.steps (Stateful.self Registry) equalsScript.lines .empty,
      Command.read? step.line = .ok (some .list) ∧ step.before.targets ≠ .empty ∧
      step.answer = .ok (.proceed (some "name=a=b type=null capacity_sectors=8 mappings=1")) ∧
      ∃ targets : List Target, List.Forall₂
        (fun target line => step.before.Describes target (.ofText ' ' line)) targets
        (Text.pieces '\n' "name=a=b type=null capacity_sectors=8 mappings=1") := by
  have hlast : ((inMemory.steps (Stateful.self Registry) equalsScript.lines .empty)[2]?).map
      (fun step => (step.line, step.before.targets.size, step.answer)) = some ("target_list all", 1,
        .ok (.proceed (some "name=a=b type=null capacity_sectors=8 mappings=1"))) := by
    decide +kernel
  obtain ⟨step, hget, hstep⟩ := Option.map_eq_some_iff.1 hlast
  obtain ⟨hline, hsize, hanswer⟩ : step.line = "target_list all" ∧ step.before.targets.size = 1 ∧
      step.answer = .ok (.proceed (some "name=a=b type=null capacity_sectors=8 mappings=1")) := by
    simpa using hstep
  have hmem := List.mem_of_getElem? hget
  have hlist : Command.read? step.line = .ok (some .list) := by
    rw [hline]
    decide +kernel
  have hne : step.before.targets ≠ .empty := by
    intro hempty
    rw [hempty] at hsize
    cases hsize
  obtain ⟨-, hreadable, -⟩ := (listing_readable none equalsScript).2 step hmem hlist
  obtain ⟨reply, targets, hreply, -, -, hlines⟩ := hreadable hne
  cases hanswer.symm.trans hreply
  exact ⟨step, hmem, hlist, hne, hanswer, targets, hlines⟩

end Engine

end BlockShell
