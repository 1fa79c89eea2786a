import BlockShell.Proofs.Target.RoundTrip

/-!
# What a line asks for

Any line that asks for a change asks for a writable one (`Change.writable_of_read?`), however it is
spelled: with odd blanks, repeated fields, quotes, or equals signs and commas inside values.  So the
line of a target can stand for every line that asks for it.
-/

namespace BlockShell

/-! ## Where values come from -/

/-- Arguments from a text in which the characters in `avoid` are delimiters or are dropped. -/
def Sourced (avoid : List Char) (args : Arguments) : Prop :=
  ∀ key value, args.get? key = some value → Text.Trimmed value ∧ ∀ c ∈ avoid, c ∉ value.toList

theorem sourced_ofText (rest : String) :
    Sourced lineDelimiters (.ofText Arguments.wordDelimiter rest) := by
  intro key value h
  obtain ⟨⟨htrim, hno⟩, -⟩ := Arguments.get?_ofText h
  refine ⟨htrim, fun c hc => ?_⟩
  rw [List.mem_singleton.1 hc]
  exact hno

theorem mem_of_mem_dropQuotes {s : String} {c : Char} (h : c ∈ (dropQuotes s).toList) :
    c ∈ s.toList ∧ c ≠ '"' ∧ c ≠ '\'' := by
  rw [dropQuotes, String.toList_ofList, List.mem_filter] at h
  simpa using h

theorem sourced_ofLeg {list group : String} (hlist : ∀ c ∈ lineDelimiters, c ∉ list.toList)
    (hgroup : group ∈ Text.pieces Arguments.legDelimiter list) :
    Sourced legDelimiters (.ofLeg group) := by
  intro key value h
  obtain ⟨⟨htrim, hfield⟩, hpart⟩ := Arguments.get?_ofText h
  have hmem : ∀ c ∈ value.toList, c ∈ group.toList ∧ c ≠ '"' ∧ c ≠ '\'' :=
    fun c hc => mem_of_mem_dropQuotes (hpart c hc)
  have hspace : ' ' ∉ value.toList := fun hc =>
    hlist ' ' (by decide) (Text.mem_of_mem_pieces hgroup (hmem _ hc).1)
  have hleg : ':' ∉ value.toList := fun hc =>
    Text.not_mem_of_mem_pieces hgroup (hmem _ hc).1
  refine ⟨htrim, ?_⟩
  simp only [legDelimiters, List.forall_mem_cons]
  exact ⟨hspace, hleg, hfield, fun hc => (hmem _ hc).2.1 rfl, fun hc => (hmem _ hc).2.2 rfl,
    fun _ hc => absurd hc List.not_mem_nil⟩

section Fields

variable {avoid : List Char} {args : Arguments} {field : String}

theorem isValue_of_nonemptyText (h : Sourced avoid args) {s : String}
    (hs : args.nonemptyText field = .ok s) : IsValue avoid s := by
  obtain ⟨hget, hne⟩ := Arguments.nonemptyText_eq_ok_iff.1 hs
  exact ⟨hne, (h _ _ hget).1, (h _ _ hget).2⟩

theorem positive_of_positiveSectors {n : Sectors} (h : args.positiveSectors field = .ok n) :
    0 < n := by
  obtain ⟨_, -, -, hn⟩ := Arguments.positiveSectors_eq_ok_iff.1 h
  exact UInt64.pos_iff_ne_zero.2 hn

theorem areItems_of_paths (h : Sourced avoid args) {paths : List Path}
    (hp : args.paths field = .ok paths) : AreItems avoid paths := by
  obtain ⟨value, hget, hitems, hne⟩ := Arguments.paths_eq_ok_iff.1 hp
  refine ⟨?_, fun p hmem => ?_⟩
  · rintro rfl
    exact Arguments.readItems_ne_nil value hitems
  · have hitem : p.text ∈ Arguments.readItems value := hitems ▸ List.mem_map_of_mem hmem
    obtain ⟨piece, hpiece, htext⟩ := List.mem_map.1 hitem
    have hsub : ∀ c ∈ p.text.toList, c ∈ piece.toList :=
      fun c hc => Text.mem_of_mem_trim (htext ▸ hc)
    refine ⟨hne p hmem, htext ▸ Text.trimmed_trim piece, List.forall_mem_cons.2 ⟨?_, ?_⟩⟩
    · exact fun hc => Text.not_mem_of_mem_pieces hpiece (hsub _ hc)
    · exact fun c hc hm => (h _ _ hget).2 c hc (Text.mem_of_mem_pieces hpiece (hsub c hm))

end Fields

/-! ## Layouts -/

section Layouts

variable {avoid : List Char} {args : Arguments} (h : Sourced avoid args)
include h

theorem Raid0.writable_of_ofArguments {s : Raid0} (hs : Raid0.ofArguments args = .ok s) :
    s.Writable avoid := by
  obtain ⟨hn, hp⟩ := Raid0.ofArguments_eq_ok_iff.1 hs
  exact ⟨positive_of_positiveSectors hn, areItems_of_paths h hp⟩

theorem Raid1.writable_of_ofArguments {s : Raid1} (hs : Raid1.ofArguments args = .ok s) :
    s.Writable avoid :=
  areItems_of_paths h (Raid1.ofArguments_eq_ok_iff.1 hs).2

theorem Raid4.writable_of_ofArguments {s : Raid4} (hs : Raid4.ofArguments args = .ok s) :
    s.Writable avoid := by
  obtain ⟨hn, hp, hparity, hsame⟩ := Raid4.ofArguments_eq_ok_iff.1 hs
  exact ⟨positive_of_positiveSectors hn, areItems_of_paths h hp, isValue_of_nonemptyText h hparity,
    hsame⟩

theorem Raid5.writable_of_ofArguments {s : Raid5} (hs : Raid5.ofArguments args = .ok s) :
    s.Writable avoid := by
  obtain ⟨hn, hp⟩ := Raid5.ofArguments_eq_ok_iff.1 hs
  exact ⟨positive_of_positiveSectors hn, areItems_of_paths h hp⟩

end Layouts

section Composites

variable {α : Type} {build : Arguments → Except FieldError α} {writable : List Char → α → Prop}
  {args : Arguments} (h : Sourced lineDelimiters args)
  (hbuild : ∀ {args : Arguments}, Sourced legDelimiters args →
    ∀ {leg : α}, build args = .ok leg → writable legDelimiters leg)
include h hbuild

theorem areLegs_of_legs {field : String} {legs : List α}
    (hlegs : args.legs build field = .ok legs) : AreLegs writable legs := by
  obtain ⟨list, hlist, hall⟩ := legs_eq_ok_iff.1 hlegs
  have hno := (isValue_of_nonemptyText h hlist).avoids
  refine ⟨?_, ?_⟩
  · rintro rfl
    exact Text.pieces_ne_nil _ _ (List.forall₂_nil_right_iff.1 hall)
  · intro leg hleg
    obtain ⟨i, hi, rfl⟩ := List.getElem_of_mem hleg
    have hi' : i < (Text.pieces Arguments.legDelimiter list).length := hall.length_eq ▸ hi
    exact hbuild (sourced_ofLeg hno (List.getElem_mem hi')) (hall.get hi' hi)

theorem composite_writable {key : String} {make : Sectors → List α → Layout} {l : Layout}
    (hl : (do
      let stripLength ← args.positiveSectors "strip_len_sectors"
      return make stripLength (← args.legs build key)) = .ok l) :
    ∃ n legs, make n legs = l ∧ 0 < n ∧ AreLegs writable legs := by
  obtain ⟨n, legs, hn, hlegs, rfl⟩ := both_eq_ok_iff.1 hl
  exact ⟨n, legs, rfl, positive_of_positiveSectors hn, areLegs_of_legs h hbuild hlegs⟩

end Composites

theorem Layout.writable_of_ofArguments {args : Arguments} (h : Sourced lineDelimiters args)
    {kind : Kind} {l : Layout} (hl : Layout.ofArguments kind args = .ok l) : l.Writable := by
  cases kind with
  | null | inMemory =>
    cases hl
    trivial
  | plain =>
    obtain ⟨_, hs, rfl⟩ := map_eq_ok_iff.1 hl
    exact isValue_of_nonemptyText h hs
  | raid0 =>
    obtain ⟨_, hs, rfl⟩ := map_eq_ok_iff.1 hl
    exact Raid0.writable_of_ofArguments h hs
  | raid1 =>
    obtain ⟨_, hs, rfl⟩ := map_eq_ok_iff.1 hl
    exact Raid1.writable_of_ofArguments h hs
  | raid4 =>
    obtain ⟨_, hs, rfl⟩ := map_eq_ok_iff.1 hl
    exact Raid4.writable_of_ofArguments h hs
  | raid5 =>
    obtain ⟨_, hs, rfl⟩ := map_eq_ok_iff.1 hl
    exact Raid5.writable_of_ofArguments h hs
  | raid10 =>
    obtain ⟨n, legs, rfl, hw⟩ := composite_writable h Raid1.writable_of_ofArguments hl
    exact hw
  | raid40 =>
    obtain ⟨n, legs, rfl, hw⟩ := composite_writable h Raid4.writable_of_ofArguments hl
    exact hw
  | raid50 =>
    obtain ⟨n, legs, rfl, hw⟩ := composite_writable h Raid5.writable_of_ofArguments hl
    exact hw

/-! ## Targets -/

namespace Target

variable {t : Target}

theorem writable_of_ofArguments {args : Arguments} (h : Sourced lineDelimiters args)
    (ht : Target.ofArguments args = .ok t) : t.Writable := by
  obtain ⟨hname, hcapacity, hcache, -, hlayout⟩ := Target.ofArguments_eq_ok_iff.1 ht
  obtain ⟨n, b, -, -, hc⟩ := Cache.ofArguments_eq_ok_iff.1 hcache
  refine ⟨isValue_of_nonemptyText h hname, positive_of_positiveSectors hcapacity, ?_,
    Layout.writable_of_ofArguments h hlayout⟩
  intro c hmem
  rw [← hc] at hmem
  by_cases hn : 0 < n
  · rw [if_pos hn] at hmem
    cases hmem
    exact hn
  · rw [if_neg hn] at hmem
    cases hmem

end Target

/-! ## Commands -/

namespace Command

theorem mem_of_mem_splitWord {text : String} {ch : Char}
    (h : ch ∈ (splitWord text).1.toList ∨ ch ∈ (splitWord text).2.toList) : ch ∈ text.toList := by
  unfold splitWord at h
  cases hcut : Text.cutAt? Text.isBlank text with
  | none =>
    rw [hcut] at h
    exact h.elim id nofun
  | some e =>
    rw [hcut] at h
    exact Text.mem_of_cutAt? hcut h

/-- A line is blank, its first word is no command, or it is what the word makes of the rest of the line. -/
theorem read?_cases (line : String) :
    read? line = .ok none ∨
    (∃ word, read? line = .error (.unknown word) ∧ ∀ ch ∈ word.toList, ch ∈ line.toList) ∨
    ∃ word rest, read? line = (ofWord word rest).map some ∧ ∀ ch ∈ rest.toList, ch ∈ line.toList := by
  have hpart {ch : Char} (h : ch ∈ (splitWord (Text.trim line)).1.toList ∨
      ch ∈ (splitWord (Text.trim line)).2.toList) : ch ∈ line.toList :=
    Text.mem_of_mem_trim (mem_of_mem_splitWord h)
  unfold read?
  dsimp only
  split
  · exact .inl rfl
  split
  · exact .inr (.inl ⟨_, rfl, fun ch hch => hpart (.inl hch)⟩)
  · exact .inr (.inr ⟨_, _, rfl, fun ch hch => hpart (.inr hch)⟩)

end Command

/-! ## Changes -/

/-- A change that a line can ask for. -/
def Change.Writable : Change → Prop
  | create target => target.Writable
  | destroy name => IsValue lineDelimiters name
  | map suffix m => IsValue lineDelimiters suffix ∧ IsValue lineDelimiters m.target
  | unmap suffix => IsValue lineDelimiters suffix

namespace Change

variable {c : Change}

section FromArguments

variable {args : Arguments} (h : Sourced lineDelimiters args)
include h

theorem writable_of_createOf (hc : createOf args = .ok c) : c.Writable := by
  obtain ⟨t, ht, rfl⟩ := map_eq_ok_iff.1 hc
  exact Target.writable_of_ofArguments h ht

theorem writable_of_destroyOf (hc : destroyOf args = .ok c) : c.Writable := by
  obtain ⟨name, hname, rfl⟩ := map_eq_ok_iff.1 hc
  exact isValue_of_nonemptyText h hname

theorem writable_of_mapOf (hc : mapOf args = .ok c) : c.Writable := by
  simp only [mapOf, bind_eq_ok_iff] at hc
  obtain ⟨suffix, hsuffix, target, htarget, readOnly, -, he⟩ := hc
  cases he
  exact ⟨isValue_of_nonemptyText h hsuffix, isValue_of_nonemptyText h htarget⟩

theorem writable_of_unmapOf (hc : unmapOf args = .ok c) : c.Writable := by
  obtain ⟨suffix, hsuffix, rfl⟩ := map_eq_ok_iff.1 hc
  exact isValue_of_nonemptyText h hsuffix

end FromArguments

theorem ofArguments_of_readChange {word : Word} {rest : String}
    {ofArguments : Arguments → Except FieldError Change}
    (h : Command.readChange word rest ofArguments = .ok (.change c)) :
    ofArguments (.ofText Arguments.wordDelimiter rest) = .ok c := by
  unfold Command.readChange at h
  split at h
  · next change hc =>
    cases h
    exact hc
  · cases h

theorem writable_of_ofWord {word : Word} {rest : String}
    (h : Command.ofWord word rest = .ok (.change c)) : c.Writable := by
  have hargs := sourced_ofText rest
  cases word with
  | targetCreate => exact writable_of_createOf hargs (ofArguments_of_readChange h)
  | targetDestroy => exact writable_of_destroyOf hargs (ofArguments_of_readChange h)
  | bdevMap => exact writable_of_mapOf hargs (ofArguments_of_readChange h)
  | bdevUnmap => exact writable_of_unmapOf hargs (ofArguments_of_readChange h)
  | targetList | help | exit => cases h

/-- A line can only ask for a writable change. -/
theorem writable_of_read? {line : String}
    (h : Command.read? line = .ok (some (.change c))) : c.Writable := by
  rcases Command.read?_cases line with hread | ⟨word, hread, -⟩ | ⟨word, rest, hread, -⟩
  · cases h.symm.trans hread
  · cases h.symm.trans hread
  · obtain ⟨command, hcommand, he⟩ := map_eq_ok_iff.1 (hread.symm.trans h)
    cases he
    exact writable_of_ofWord hcommand

end Change

namespace Target

theorem writable_of_read? {t : Target} {line : String}
    (h : Command.read? line = .ok (some (.change (.create t)))) : t.Writable :=
  Change.writable_of_read? h

/-- The writable targets are those that lines ask for, and the line of a target asks for nothing
else: it can stand for any line that asks for the target. -/
theorem createLine_roundTrip (line : String) (t : Target) :
    (t.Writable → Command.read? t.createLine = .ok (some (.change (.create t)))) ∧
      (Command.read? line = .ok (some (.change (.create t))) →
        t.Writable ∧ Command.read? t.createLine = Command.read? line) := by
  refine ⟨read?_createLine, fun h => ?_⟩
  have hw := writable_of_read? h
  exact ⟨hw, (read?_createLine hw).trans h.symm⟩

/-- Stripes over one mirror. -/
def mirrored : Target := ⟨"a=b", 8, none, .raid10 4 [⟨0, [⟨"/a"⟩, ⟨"/b="⟩]⟩]⟩

theorem createLine_roundTrip_mirrored :
    mirrored.Writable ∧ Command.read? mirrored.createLine = .ok (some (.change (.create mirrored))) :=
  have hw := (createLine_roundTrip ("target_create type=raid10 capacity_sectors=+8 " ++
    "raid1s='paths=/a,\t/b=' strip_len_sectors=04 x name=a=b ") mirrored).2 (by decide +kernel)
  ⟨hw.1, (createLine_roundTrip "" mirrored).1 hw.1⟩

end Target

end BlockShell
