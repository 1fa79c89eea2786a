import BlockShell.Proofs.Target.Writing

/-!
# Lines and targets

The lines that ask for a target and the writable targets belong together: the line of a writable
target asks for that target (`read?_createLine`), and what any line asks for is writable
(`writable_of_read?`), however it is spelled.  So a line can be replaced by the line of its target.
-/

namespace BlockShell

/-! ## From targets to lines -/

section Composites

variable {α : Type} {writable : List Char → α → Prop} {fieldsOf : α → List (String × String)}
  (hfields : ∀ l, writable legDelimiters l → AreFields legDelimiters (fieldsOf l) ∧ fieldsOf l ≠ [])
include hfields

theorem areFields_composite {key : String} (hkey : IsKey key) (n : Sectors) {legs : List α}
    (hlegs : AreLegs writable legs) :
    AreFields lineDelimiters (compositeArguments key n (legs.map fieldsOf)) := by
  have hall : ∀ l ∈ legs.map fieldsOf, AreFields legDelimiters l ∧ l ≠ [] :=
    List.forall_mem_map.2 fun l hl => hfields l (hlegs.2 l hl)
  exact .cons (by decide) (isValue_of_isKey isSeparator_lineDelimiters (isKey_text n)) <|
    .cons hkey (isValue_legsText (by simpa using hlegs.1) hall) .nil

theorem composite_of_reads {args : Arguments} {build : Arguments → Except FieldError α}
    {key : String} {n : Sectors} {legs : List α} (hn : 0 < n) (hlegs : AreLegs writable legs)
    (hbuild : ∀ l, writable legDelimiters l → build (.ofList (fieldsOf l)) = .ok l)
    (hr : Reads args (compositeArguments key n (legs.map fieldsOf)))
    (make : Sectors → List α → Layout) :
    (do
      let stripLength ← args.positiveSectors "strip_len_sectors"
      return make stripLength (← args.legs build key)) = .ok (make n legs) := by
  obtain ⟨hstrip, hr⟩ := reads_cons_iff.1 hr
  obtain ⟨hkey, -⟩ := reads_cons_iff.1 hr
  exact both_eq_ok_iff.2 ⟨n, legs, positiveSectors_of_text hn hstrip,
    legs_of_text hlegs hfields hbuild hkey, rfl⟩

end Composites

theorem Raid1.legFields (s : Raid1) (h : s.Writable legDelimiters) :
    AreFields legDelimiters s.arguments ∧ s.arguments ≠ [] :=
  ⟨Raid1.areFields isSeparator_legDelimiters h, List.cons_ne_nil _ _⟩

theorem Raid4.legFields (s : Raid4) (h : s.Writable legDelimiters) :
    AreFields legDelimiters s.arguments ∧ s.arguments ≠ [] :=
  ⟨Raid4.areFields isSeparator_legDelimiters h, List.cons_ne_nil _ _⟩

theorem Raid5.legFields (s : Raid5) (h : s.Writable legDelimiters) :
    AreFields legDelimiters s.arguments ∧ s.arguments ≠ [] :=
  ⟨Raid5.areFields isSeparator_legDelimiters h, List.cons_ne_nil _ _⟩

theorem Raid1.ofArguments_leg (s : Raid1) (h : s.Writable legDelimiters) :
    Raid1.ofArguments (.ofList s.arguments) = .ok s :=
  Raid1.ofArguments_of_reads h (reads_ofList (by simp [Raid1.arguments]))

theorem Raid4.ofArguments_leg (s : Raid4) (h : s.Writable legDelimiters) :
    Raid4.ofArguments (.ofList s.arguments) = .ok s :=
  Raid4.ofArguments_of_reads h (reads_ofList (by simp [Raid4.arguments]))

theorem Raid5.ofArguments_leg (s : Raid5) (h : s.Writable legDelimiters) :
    Raid5.ofArguments (.ofList s.arguments) = .ok s :=
  Raid5.ofArguments_of_reads h (reads_ofList (by simp [Raid5.arguments]))

theorem Layout.areFields {l : Layout} (h : l.Writable) : AreFields lineDelimiters l.arguments := by
  cases l with
  | null | inMemory => exact .nil
  | plain path => exact .cons (by decide) h .nil
  | raid0 s => exact Raid0.areFields isSeparator_lineDelimiters h
  | raid1 s => exact Raid1.areFields isSeparator_lineDelimiters h
  | raid4 s => exact Raid4.areFields isSeparator_lineDelimiters h
  | raid5 s => exact Raid5.areFields isSeparator_lineDelimiters h
  | raid10 n legs => exact areFields_composite Raid1.legFields (by decide) n h.2
  | raid40 n legs => exact areFields_composite Raid4.legFields (by decide) n h.2
  | raid50 n legs => exact areFields_composite Raid5.legFields (by decide) n h.2

theorem Layout.ofArguments_of_reads {args : Arguments} {l : Layout} (h : l.Writable)
    (hr : Reads args l.arguments) : Layout.ofArguments l.kind args = .ok l := by
  cases l with
  | null | inMemory => rfl
  | plain path =>
    obtain ⟨hp, -⟩ := reads_cons_iff.1 hr
    exact map_eq_ok_iff.2 ⟨_, nonemptyText_of_isValue h hp, rfl⟩
  | raid0 s => exact map_eq_ok_iff.2 ⟨_, Raid0.ofArguments_of_reads h hr, rfl⟩
  | raid1 s => exact map_eq_ok_iff.2 ⟨_, Raid1.ofArguments_of_reads h hr, rfl⟩
  | raid4 s => exact map_eq_ok_iff.2 ⟨_, Raid4.ofArguments_of_reads h hr, rfl⟩
  | raid5 s => exact map_eq_ok_iff.2 ⟨_, Raid5.ofArguments_of_reads h hr, rfl⟩
  | raid10 n legs =>
    exact composite_of_reads Raid1.legFields h.1 h.2 Raid1.ofArguments_leg hr Layout.raid10
  | raid40 n legs =>
    exact composite_of_reads Raid4.legFields h.1 h.2 Raid4.ofArguments_leg hr Layout.raid40
  | raid50 n legs =>
    exact composite_of_reads Raid5.legFields h.1 h.2 Raid5.ofArguments_leg hr Layout.raid50

namespace Target

variable {t : Target}

theorem areFields (h : t.Writable) : AreFields lineDelimiters t.arguments := by
  have hcache : AreFields lineDelimiters ((t.cache.map Cache.arguments).getD []) := by
    cases t.cache with
    | none => exact .nil
    | some c =>
      exact .cons (by decide) (isValue_of_isKey isSeparator_lineDelimiters (isKey_text _)) <|
        .cons (by decide) (isValue_of_isKey isSeparator_lineDelimiters (isKey_flagText _)) .nil
  have hhead : AreFields lineDelimiters
      [("name", t.name), ("capacity_sectors", t.capacity.text), ("type", t.layout.kind.name)] :=
    .cons (by decide) h.name <|
      .cons (by decide) (isValue_of_isKey isSeparator_lineDelimiters (isKey_text _)) <|
        .cons (by decide) (isValue_of_isKey isSeparator_lineDelimiters (isKey_kindName _)) .nil
  exact (hhead.append hcache).append (Layout.areFields h.layout)

theorem nodup_arguments (t : Target) : (t.arguments.map Prod.fst).Nodup := by
  obtain ⟨name, capacity, cache, layout⟩ := t
  cases cache <;> cases layout <;>
    simp [arguments, Cache.arguments, Layout.arguments, Raid0.arguments, Raid1.arguments,
      Raid4.arguments, Raid5.arguments, compositeArguments]

theorem cache_of_arguments (h : t.Writable) :
    Cache.ofArguments (.ofList t.arguments) = .ok t.cache := by
  rw [Cache.ofArguments_eq_ok_iff]
  obtain ⟨name, capacity, cache, layout⟩ := t
  cases cache with
  | none =>
    have hlen : "cache_len_sectors" ∉ (arguments ⟨name, capacity, none, layout⟩).map Prod.fst := by
      cases layout <;> simp [arguments, Layout.arguments, Raid0.arguments, Raid1.arguments,
        Raid4.arguments, Raid5.arguments, compositeArguments]
    have hflag : "cache_write_through_enable" ∉
        (arguments ⟨name, capacity, none, layout⟩).map Prod.fst := by
      cases layout <;> simp [arguments, Layout.arguments, Raid0.arguments, Raid1.arguments,
        Raid4.arguments, Raid5.arguments, compositeArguments]
    exact ⟨0, true, Arguments.sectorsOr_of_absent (Table.get?_ofList_of_not_mem hlen) 0,
      Arguments.flagOr_of_absent (Table.get?_ofList_of_not_mem hflag) true, rfl⟩
  | some c =>
    have hr := reads_ofList (nodup_arguments ⟨name, capacity, some c, layout⟩)
    have hr := (reads_append_iff.1 (reads_append_iff.1 hr).1).2
    obtain ⟨hlen, hr⟩ := reads_cons_iff.1 hr
    obtain ⟨hflag, -⟩ := reads_cons_iff.1 hr
    exact ⟨c.length, c.writeThrough, sectorsOr_of_text hlen, flagOr_of_text hflag,
      if_pos (h.cache c rfl)⟩

theorem ofArguments_arguments (h : t.Writable) : Target.ofArguments (.ofList t.arguments) = .ok t := by
  obtain ⟨hr, hlayout⟩ := reads_append_iff.1 (reads_ofList t.nodup_arguments)
  obtain ⟨hname, hr⟩ := reads_cons_iff.1 (reads_append_iff.1 hr).1
  obtain ⟨hcapacity, hr⟩ := reads_cons_iff.1 hr
  obtain ⟨hkind, -⟩ := reads_cons_iff.1 hr
  exact Target.ofArguments_eq_ok_iff.2 ⟨nonemptyText_of_isValue h.name hname,
    positiveSectors_of_text h.capacity hcapacity, cache_of_arguments h, hkind,
    Layout.ofArguments_of_reads h.layout hlayout⟩

theorem arguments_ne_nil (t : Target) : t.arguments ≠ [] := by simp [arguments]

theorem isKey_targetCreate : IsKey Word.targetCreate.text := by decide

theorem trimmed_createLine (h : t.Writable) : Text.Trimmed t.createLine := by
  have hvalue : IsValue [] (Arguments.textOf Arguments.wordDelimiter t.arguments) :=
    isValue_textOf List.not_mem_nil (by simp) t.arguments_ne_nil fun e he =>
      ⟨(areFields h e he).1, (areFields h e he).2.mono (by simp)⟩
  exact Text.trimmed_append isKey_targetCreate.1 hvalue.nonempty isKey_targetCreate.trimmed
    hvalue.trimmed

theorem splitWord_createLine (t : Target) :
    Command.splitWord t.createLine =
      (Word.targetCreate.text, Arguments.textOf Arguments.wordDelimiter t.arguments) := by
  have hcut : Text.cutAt? Text.isBlank t.createLine =
      some (Word.targetCreate.text, Arguments.textOf Arguments.wordDelimiter t.arguments) :=
    Text.cutAt?_append (d := ' ') (fun c hc => isBlank_of_isKeyChar (isKey_targetCreate.2 c hc))
      (by decide) _
  rw [Command.splitWord, hcut, Option.getD_some]

theorem createLine_ne_empty (t : Target) : t.createLine ≠ "" := by
  simp [createLine]

/-- The line of a writable target asks for that target. -/
theorem read?_createLine (h : t.Writable) :
    Command.read? t.createLine = .ok (some (.change (.create t))) := by
  have hargs : Arguments.ofText Arguments.wordDelimiter
      (Arguments.textOf Arguments.wordDelimiter t.arguments) = .ofList t.arguments :=
    (areFields h).ofText_textOf t.arguments_ne_nil (by decide) (by decide)
  unfold Command.read?
  simp only [Text.trim_eq_self (trimmed_createLine h), if_neg t.createLine_ne_empty,
    splitWord_createLine, Word.ofText?_text, Command.ofWord, Command.readChange, hargs,
    Change.createOf, ofArguments_arguments h]
  rfl

end Target

end BlockShell
