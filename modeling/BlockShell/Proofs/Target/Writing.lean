import BlockShell.Command.Basic
import BlockShell.Proofs.Target.Line
import BlockShell.Proofs.Target.OfArguments
import BlockShell.Proofs.Text.Decimal

/-!
# A target's line is read as the target

Every value in the line of a writable target comes back exactly: `AreFields` says that keys and
values are such that their text is read as it was written, and `Reads` that arguments give the
written values.  From the two follow the fields, the layouts, the legs and the target
(`read?_createLine`).
-/

namespace BlockShell

/-! ## Keys and separators -/

/-- The characters of which the names of fields consist. -/
def isKeyChar (c : Char) : Bool := c.isAlphanum || c == '_'

/-- A text that can be the name of a field. -/
def IsKey (key : String) : Prop := key ≠ "" ∧ ∀ c ∈ key.toList, isKeyChar c = true

instance (key : String) : Decidable (IsKey key) :=
  decidable_of_iff (key ≠ "" ∧ key.toList.all isKeyChar = true)
    (and_congr_right fun _ => List.all_eq_true)

/-- A character that stands in no key, in no number, and not between the items of a list. -/
def isSeparator (c : Char) : Bool := !isKeyChar c && c != '=' && c != Arguments.itemDelimiter

theorem isBlank_of_isKeyChar {c : Char} (h : isKeyChar c = true) : Text.isBlank c = false := by
  have hrange {a b : Char} (ha : 48 ≤ a.toNat) (hb : b.toNat ≤ 122)
      (hac : a.val ≤ c.val) (hcb : c.val ≤ b.val) : 48 ≤ c.toNat ∧ c.toNat ≤ 122 :=
    ⟨Nat.le_trans ha (UInt32.le_iff_toNat_le.1 hac), Nat.le_trans (UInt32.le_iff_toNat_le.1 hcb) hb⟩
  have hc : 48 ≤ c.toNat ∧ c.toNat ≤ 122 := by
    have h : (((c.isUpper || c.isLower) || c.isDigit) || c == '_') = true := h
    simp only [Bool.or_eq_true, beq_iff_eq] at h
    rcases h with ((h | h) | h) | rfl
    · obtain ⟨hac, hcb⟩ := of_decide_eq_true h
      exact hrange (by decide) (by decide) hac hcb
    · obtain ⟨hac, hcb⟩ := Bool.and_eq_true_iff.1 h
      exact hrange (by decide) (by decide) (of_decide_eq_true hac) (of_decide_eq_true hcb)
    · obtain ⟨hac, hcb⟩ := Bool.and_eq_true_iff.1 h
      exact hrange (by decide) (by decide) (of_decide_eq_true hac) (of_decide_eq_true hcb)
    · decide
  simp [Text.isBlank]
  omega

theorem isKeyChar_of_isDigit {c : Char} (h : c.isDigit = true) : isKeyChar c = true := by
  simp [isKeyChar, Char.isAlphanum, h]

namespace IsKey

variable {key : String}

theorem trimmed (h : IsKey key) : Text.Trimmed key :=
  ⟨fun c hc => isBlank_of_isKeyChar (h.2 c (List.mem_of_mem_head? hc)),
    fun c hc => isBlank_of_isKeyChar (h.2 c (List.mem_of_mem_getLast? hc))⟩

theorem not_mem (h : IsKey key) {c : Char} (hc : isKeyChar c = false) : c ∉ key.toList :=
  fun hm => Bool.false_ne_true (hc.symm.trans (h.2 c hm))

end IsKey

/-! ## Values -/

theorem IsValue.mono {avoid avoid' : List Char} {s : String} (h : IsValue avoid s)
    (hsub : ∀ c ∈ avoid', c ∈ avoid) : IsValue avoid' s :=
  ⟨h.nonempty, h.trimmed, fun c hc => h.avoids c (hsub c hc)⟩

theorem isValue_of_isKey {avoid : List Char} (havoid : ∀ c ∈ avoid, isSeparator c = true)
    {s : String} (h : IsKey s) : IsValue avoid s := by
  refine ⟨h.1, h.trimmed, fun c hc => h.not_mem ?_⟩
  have := havoid c hc
  simp only [isSeparator, Bool.and_eq_true, Bool.not_eq_true'] at this
  exact this.1.1

theorem isKey_text (n : Sectors) : IsKey n.text :=
  ⟨Text.toString_ne_empty _, fun _ hc => isKeyChar_of_isDigit (Text.isDigit_of_mem_toString hc)⟩

theorem isKey_flagText (b : Bool) : IsKey (flagText b) := by cases b <;> decide

theorem isKey_kindName (k : Kind) : IsKey k.name := by cases k <;> decide

theorem not_mem_join {c d : Char} (hcd : c ≠ d) {parts : List String}
    (h : ∀ s ∈ parts, c ∉ s.toList) : c ∉ (Text.join d parts).toList := by
  rw [Text.toList_join]
  induction parts with
  | nil => simp
  | cons s parts ih =>
    have hs := h s (List.mem_cons_self ..)
    have hparts := ih fun t ht => h t (List.mem_cons_of_mem _ ht)
    cases parts with
    | nil => simpa using hs
    | cons t parts =>
      rw [List.map_cons, List.map_cons, List.intercalate_cons_cons]
      rw [List.map_cons] at hparts
      simp only [List.mem_append, List.mem_singleton, not_or]
      exact ⟨⟨hs, hcd⟩, hparts⟩

theorem isValue_join {avoid : List Char} {d : Char} (hd : d ∉ avoid) {parts : List String}
    (hne : parts ≠ []) (h : ∀ s ∈ parts, IsValue avoid s) : IsValue avoid (Text.join d parts) where
  nonempty := Text.join_ne_empty hne fun s hs => (h s hs).nonempty
  trimmed := Text.trimmed_join hne fun s hs => ⟨(h s hs).nonempty, (h s hs).trimmed⟩
  avoids c hc := not_mem_join (fun (e : c = d) => hd (e ▸ hc)) fun s hs => (h s hs).avoids c hc

theorem isValue_pathsText {avoid : List Char} (havoid : ∀ c ∈ avoid, isSeparator c = true)
    {paths : List Path} (h : AreItems avoid paths) : IsValue avoid (pathsText paths) := by
  refine isValue_join (fun hd => absurd (havoid _ hd) (by decide)) (by simpa using h.1) ?_
  intro s hs
  obtain ⟨p, hp, rfl⟩ := List.mem_map.1 hs
  exact (h.2 p hp).mono fun c hc => List.mem_cons_of_mem _ hc

/-! ## Fields -/

/-- Fields whose text is read as it is written where the characters in `avoid` are delimiters. -/
def AreFields (avoid : List Char) (fields : List (String × String)) : Prop :=
  ∀ e ∈ fields, IsKey e.1 ∧ IsValue avoid e.2

theorem AreFields.nil {avoid : List Char} : AreFields avoid [] := fun _ he => absurd he List.not_mem_nil

theorem AreFields.cons {avoid : List Char} {key value : String} {fields : List (String × String)}
    (hkey : IsKey key) (hvalue : IsValue avoid value) (h : AreFields avoid fields) :
    AreFields avoid ((key, value) :: fields) :=
  List.forall_mem_cons.2 ⟨⟨hkey, hvalue⟩, h⟩

theorem AreFields.append {avoid : List Char} {l r : List (String × String)} (hl : AreFields avoid l)
    (hr : AreFields avoid r) : AreFields avoid (l ++ r) :=
  List.forall_mem_append.2 ⟨hl, hr⟩

theorem AreFields.fits {avoid : List Char} {fields : List (String × String)}
    (h : AreFields avoid fields) {d : Char} (hd : d ∈ avoid) (hkey : isKeyChar d = false)
    {e : String × String} (he : e ∈ fields) : Arguments.Fits d e := by
  obtain ⟨hk, hv⟩ := h e he
  exact ⟨⟨⟨hk.trimmed, hk.not_mem hkey⟩, hk.not_mem (by decide)⟩, hv.trimmed, hv.avoids d hd⟩

theorem isValue_pairText {avoid : List Char} (havoid : ∀ c ∈ avoid, isSeparator c = true)
    {e : String × String} (hk : IsKey e.1) (hv : IsValue avoid e.2) :
    IsValue avoid (Arguments.pairText e) where
  nonempty := by simp [Arguments.pairText]
  trimmed := Text.trimmed_append hk.1 hv.nonempty hk.trimmed hv.trimmed
  avoids c hc := by
    have hsep := havoid c hc
    simp only [isSeparator, Bool.and_eq_true, Bool.not_eq_true', bne_iff_ne] at hsep
    simp only [Arguments.pairText, String.toList_append, List.mem_append, not_or]
    exact ⟨⟨hk.not_mem hsep.1.1, by simpa using hsep.1.2⟩, hv.avoids c hc⟩

theorem isValue_textOf {avoid : List Char} {d : Char} {fields : List (String × String)}
    (hd : d ∉ avoid) (havoid : ∀ c ∈ avoid, isSeparator c = true) (hne : fields ≠ [])
    (h : AreFields avoid fields) : IsValue avoid (Arguments.textOf d fields) := by
  refine isValue_join hd (by simpa using hne) fun s hs => ?_
  obtain ⟨e, he, rfl⟩ := List.mem_map.1 hs
  exact isValue_pairText havoid (h e he).1 (h e he).2

/-- The fields of a line or a leg are read as they are written. -/
theorem AreFields.ofText_textOf {avoid : List Char} {fields : List (String × String)}
    (h : AreFields avoid fields) (hne : fields ≠ []) {d : Char} (hd : d ∈ avoid)
    (hsep : isSeparator d = true) :
    Arguments.ofText d (Arguments.textOf d fields) = .ofList fields := by
  simp only [isSeparator, Bool.and_eq_true, Bool.not_eq_true', bne_iff_ne] at hsep
  exact Arguments.ofText_textOf hsep.1.2 hne fun e he => h.fits hd hsep.1.1 he

section Layouts

variable {avoid : List Char} (havoid : ∀ c ∈ avoid, isSeparator c = true)
include havoid

theorem Raid0.areFields {s : Raid0} (h : s.Writable avoid) : AreFields avoid s.arguments :=
  .cons (by decide) (isValue_of_isKey havoid (isKey_text _)) <|
    .cons (by decide) (isValue_pathsText havoid h.2) .nil

theorem Raid1.areFields {s : Raid1} (h : s.Writable avoid) : AreFields avoid s.arguments :=
  .cons (by decide) (isValue_pathsText havoid h) <|
    .cons (by decide) (isValue_of_isKey havoid (isKey_text _)) .nil

theorem Raid4.areFields {s : Raid4} (h : s.Writable avoid) : AreFields avoid s.arguments :=
  .cons (by decide) (isValue_of_isKey havoid (isKey_text _)) <|
    .cons (by decide) (isValue_pathsText havoid h.2.1) <| .cons (by decide) h.2.2.1 .nil

theorem Raid5.areFields {s : Raid5} (h : s.Writable avoid) : AreFields avoid s.arguments :=
  .cons (by decide) (isValue_of_isKey havoid (isKey_text _)) <|
    .cons (by decide) (isValue_pathsText havoid h.2) .nil

end Layouts

theorem isSeparator_lineDelimiters : ∀ c ∈ lineDelimiters, isSeparator c = true :=
  List.all_eq_true.1 (by decide)

theorem isSeparator_legDelimiters : ∀ c ∈ legDelimiters, isSeparator c = true :=
  List.all_eq_true.1 (by decide)

/-! ## Arguments that give the fields -/

/-- The arguments give each of the fields its value. -/
def Reads (args : Arguments) (fields : List (String × String)) : Prop :=
  ∀ e ∈ fields, args.get? e.1 = some e.2

theorem reads_cons_iff {args : Arguments} {key value : String} {fields : List (String × String)} :
    Reads args ((key, value) :: fields) ↔ args.get? key = some value ∧ Reads args fields :=
  List.forall_mem_cons

theorem reads_append_iff {args : Arguments} {l r : List (String × String)} :
    Reads args (l ++ r) ↔ Reads args l ∧ Reads args r :=
  List.forall_mem_append

theorem reads_ofList {fields : List (String × String)} (h : (fields.map Prod.fst).Nodup) :
    Reads (.ofList fields) fields :=
  fun _ he => Table.get?_ofList_of_mem h he

section Reading

variable {args : Arguments} {field : String}

theorem word?_trim_text (n : Sectors) : Text.word? (Text.trim n.text) = some n := by
  rw [Text.trim_eq_self (isKey_text n).trimmed]
  exact Text.word?_toString n

theorem positiveSectors_of_text {n : Sectors} (hn : 0 < n) (h : args.get? field = some n.text) :
    args.positiveSectors field = .ok n :=
  Arguments.positiveSectors_eq_ok_iff.2 ⟨_, h, word?_trim_text n, UInt64.pos_iff_ne_zero.1 hn⟩

theorem sectorsOr_of_text {n default : Sectors} (h : args.get? field = some n.text) :
    args.sectorsOr field default = .ok n := by
  rw [Arguments.sectorsOr_of_get? h]
  exact Arguments.readSectors_eq_ok_iff.2 (word?_trim_text n)

theorem flagOr_of_text {b default : Bool} (h : args.get? field = some (flagText b)) :
    args.flagOr field default = .ok b := by
  rw [Arguments.flagOr_of_get? h, Arguments.readFlag_eq_ok_iff,
    Text.trim_eq_self (isKey_flagText b).trimmed]
  cases b <;> decide

theorem nonemptyText_of_isValue {avoid : List Char} {s : String} (hs : IsValue avoid s)
    (h : args.get? field = some s) : args.nonemptyText field = .ok s :=
  Arguments.nonemptyText_eq_ok_iff.2 ⟨h, hs.nonempty⟩

theorem readItems_pathsText {avoid : List Char} {paths : List Path} (h : AreItems avoid paths) :
    Arguments.readItems (pathsText paths) = paths.map Path.text := by
  have hpieces : Text.pieces Arguments.itemDelimiter (pathsText paths) = paths.map Path.text := by
    refine Text.pieces_join (fun s hs => ?_) (by simpa using h.1)
    obtain ⟨p, hp, rfl⟩ := List.mem_map.1 hs
    exact (h.2 p hp).avoids _ (List.mem_cons_self ..)
  rw [Arguments.readItems, hpieces, List.map_map]
  exact List.map_congr_left fun p hp => Text.trim_eq_self (h.2 p hp).trimmed

theorem paths_of_text {avoid : List Char} {paths : List Path} (hp : AreItems avoid paths)
    (h : args.get? field = some (pathsText paths)) : args.paths field = .ok paths :=
  Arguments.paths_eq_ok_iff.2 ⟨_, h, readItems_pathsText hp, fun p hm => (hp.2 p hm).nonempty⟩

end Reading

section Building

variable {avoid : List Char} {args : Arguments}

theorem Raid0.ofArguments_of_reads {s : Raid0} (h : s.Writable avoid)
    (hr : Reads args s.arguments) : Raid0.ofArguments args = .ok s := by
  obtain ⟨hn, hr⟩ := reads_cons_iff.1 hr
  obtain ⟨hp, -⟩ := reads_cons_iff.1 hr
  exact Raid0.ofArguments_eq_ok_iff.2 ⟨positiveSectors_of_text h.1 hn, paths_of_text h.2 hp⟩

theorem Raid1.ofArguments_of_reads {s : Raid1} (h : s.Writable avoid)
    (hr : Reads args s.arguments) : Raid1.ofArguments args = .ok s := by
  obtain ⟨hp, hr⟩ := reads_cons_iff.1 hr
  obtain ⟨hn, -⟩ := reads_cons_iff.1 hr
  exact Raid1.ofArguments_eq_ok_iff.2 ⟨sectorsOr_of_text hn, paths_of_text h hp⟩

theorem Raid4.ofArguments_of_reads {s : Raid4} (h : s.Writable avoid)
    (hr : Reads args s.arguments) : Raid4.ofArguments args = .ok s := by
  obtain ⟨hn, hr⟩ := reads_cons_iff.1 hr
  obtain ⟨hp, hr⟩ := reads_cons_iff.1 hr
  obtain ⟨hparity, -⟩ := reads_cons_iff.1 hr
  exact Raid4.ofArguments_eq_ok_iff.2 ⟨positiveSectors_of_text h.1 hn, paths_of_text h.2.1 hp,
    nonemptyText_of_isValue h.2.2.1 hparity, h.2.2.2⟩

theorem Raid5.ofArguments_of_reads {s : Raid5} (h : s.Writable avoid)
    (hr : Reads args s.arguments) : Raid5.ofArguments args = .ok s := by
  obtain ⟨hn, hr⟩ := reads_cons_iff.1 hr
  obtain ⟨hp, -⟩ := reads_cons_iff.1 hr
  exact Raid5.ofArguments_eq_ok_iff.2 ⟨positiveSectors_of_text h.1 hn, paths_of_text h.2 hp⟩

end Building

/-! ## Legs -/

/-- The delimiters around a leg; inside it stand those of its fields. -/
def groupDelimiters : List Char := [' ', ':', '"', '\'']

theorem isSeparator_groupDelimiters : ∀ c ∈ groupDelimiters, isSeparator c = true :=
  List.all_eq_true.1 (by decide)

section Legs

variable {α : Type} {build : Arguments → Except FieldError α} {writable : List Char → α → Prop}
  {fieldsOf : α → List (String × String)}

theorem isValue_legText {fields : List (String × String)} (h : AreFields legDelimiters fields)
    (hne : fields ≠ []) :
    IsValue groupDelimiters (Arguments.textOf Arguments.fieldDelimiter fields) :=
  isValue_textOf (by decide) isSeparator_groupDelimiters hne fun e he =>
    ⟨(h e he).1, (h e he).2.mono (by simp [groupDelimiters, legDelimiters])⟩

theorem dropQuotes_legText {fields : List (String × String)} (h : AreFields legDelimiters fields)
    (hne : fields ≠ []) :
    dropQuotes (Arguments.textOf Arguments.fieldDelimiter fields) =
      Arguments.textOf Arguments.fieldDelimiter fields := by
  have hvalue := isValue_legText h hne
  have hall : ∀ c ∈ (Arguments.textOf Arguments.fieldDelimiter fields).toList,
      (c != '"' && c != '\'') = true := by
    intro c hc
    rw [Bool.and_eq_true, bne_iff_ne, bne_iff_ne]
    exact ⟨fun e => hvalue.avoids '"' (by decide) (e ▸ hc),
      fun e => hvalue.avoids '\'' (by decide) (e ▸ hc)⟩
  rw [dropQuotes, List.filter_eq_self.2 hall, String.ofList_toList]

theorem ofLeg_legText {fields : List (String × String)} (h : AreFields legDelimiters fields)
    (hne : fields ≠ []) :
    Arguments.ofLeg (Arguments.textOf Arguments.fieldDelimiter fields) = .ofList fields := by
  rw [Arguments.ofLeg, dropQuotes_legText h hne]
  exact h.ofText_textOf hne (by decide) (by decide)

theorem isValue_legsText {legs : List (List (String × String))} (hne : legs ≠ [])
    (h : ∀ l ∈ legs, AreFields legDelimiters l ∧ l ≠ []) :
    IsValue lineDelimiters (legsText legs) := by
  refine isValue_join (by decide) (by simpa using hne) fun s hs => ?_
  obtain ⟨l, hl, rfl⟩ := List.mem_map.1 hs
  refine (isValue_legText (h l hl).1 (h l hl).2).mono ?_
  simp [groupDelimiters, lineDelimiters]

theorem pieces_legsText {legs : List (List (String × String))} (hne : legs ≠ [])
    (h : ∀ l ∈ legs, AreFields legDelimiters l ∧ l ≠ []) :
    Text.pieces Arguments.legDelimiter (legsText legs) =
      legs.map (Arguments.textOf Arguments.fieldDelimiter) := by
  refine Text.pieces_join (fun s hs => ?_) (by simpa using hne)
  obtain ⟨l, hl, rfl⟩ := List.mem_map.1 hs
  exact (isValue_legText (h l hl).1 (h l hl).2).avoids _ (by decide)

theorem legs_of_text {args : Arguments} {field : String} {legs : List α}
    (hlegs : AreLegs writable legs)
    (hfields : ∀ l, writable legDelimiters l → AreFields legDelimiters (fieldsOf l) ∧ fieldsOf l ≠ [])
    (hbuild : ∀ l, writable legDelimiters l → build (.ofList (fieldsOf l)) = .ok l)
    (h : args.get? field = some (legsText (legs.map fieldsOf))) :
    args.legs build field = .ok legs := by
  have hne : legs.map fieldsOf ≠ [] := by simpa using hlegs.1
  have hall : ∀ l ∈ legs.map fieldsOf, AreFields legDelimiters l ∧ l ≠ [] :=
    List.forall_mem_map.2 fun l hl => hfields l (hlegs.2 l hl)
  refine legs_eq_ok_iff.2 ⟨_, nonemptyText_of_isValue (isValue_legsText hne hall) h, ?_⟩
  rw [pieces_legsText hne hall, List.map_map, List.forall₂_map_left_iff, List.forall₂_same]
  intro l hl
  have := hlegs.2 l hl
  rw [Function.comp_apply, ofLeg_legText (hfields l this).1 (hfields l this).2]
  exact hbuild l this

end Legs

end BlockShell
