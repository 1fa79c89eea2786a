import BlockShell.Proofs.Json.Record
import Mathlib.Algebra.Group.Int.Defs

/-!
# Documents and their wordings

A document is a value of which it is known which of its objects are records and which are tables.  It
can be worded in many ways: the members of an object may stand in any order, those of a record among
others that have no meaning, and an empty cache need not be written (`Altered`).  Something may also
be missing or be there twice, and then the document is damaged.  A reader that gives `a` for every
wording of a document and fails for every damaged one reads it as `a` (`ReadBy`), and what reads the
parts of a document reads the whole (`readBy_list`, `readBy_table`, `readBy_pair`).
-/

namespace BlockShell.Json

/-! ## What may be added -/

/-- A value that nests at most `n` deep, with integers of 64 bits for numbers. -/
inductive Filler : Nat → Json → Prop
  | null (n : Nat) : Filler n null
  | bool (n : Nat) (b : Bool) : Filler n (bool b)
  | string (n : Nat) (s : String) : Filler n (ofString s)
  | integer (n : Nat) {z : Int} (hz : -2 ^ 63 ≤ z ∧ z < 2 ^ 64) : Filler n (number (.ofInt z))
  | array {n : Nat} {items : List Json} (h : ∀ v ∈ items, Filler n v) : Filler (n + 1) (array items)
  | record {n : Nat} {members : List (String × Json)} (h : ∀ e ∈ members, Filler n e.2) :
      Filler (n + 1) (record members)

theorem tame_ofInt {z : Int} (hz : z.natAbs < UInt64.size) : (number (.ofInt z)).Tame 0 :=
  ⟨Number.isLiteral_ofInt z, Number.inRange_ofInt hz, Nat.le_refl 0⟩

theorem Filler.tame {n : Nat} {v : Json} (h : Filler n v) : v.Tame n := by
  induction h with
  | null n => exact tame_null.mono (Nat.zero_le n)
  | bool n b => exact (tame_bool b).mono (Nat.zero_le n)
  | string n s => exact (tame_ofString s).mono (Nat.zero_le n)
  | integer n hz =>
    refine (tame_ofInt ?_).mono (Nat.zero_le n)
    rw [UInt64.size]
    omega
  | array _ ih => exact tame_array ih
  | record _ ih => exact tame_record ih

/-! ## Documents -/

/-- A value with the freedom that a reader leaves to whoever writes it. -/
inductive Document where
  /-- A value that is left as it is. -/
  | value (v : Json)
  | list (items : List Document)
  | table (entries : List (String × Document))
  | record (fields : List (String × Document))

/-- The fields with the given values. -/
def Document.values (fields : List (String × Json)) : List (String × Document) :=
  fields.map fun e => (e.1, .value e.2)

/-- The members of the fields that are there. -/
def membersOf : List (String × Document) → List (Option Json) → List (String × Json)
  | (name, _) :: fields, some v :: slots => (name, v) :: membersOf fields slots
  | _ :: fields, none :: slots => membersOf fields slots
  | _, _ => []

mutual

/-- The value is a wording of the document, damaged or not. -/
inductive Altered : Document → Bool → Json → Prop
  | value (v : Json) : Altered (.value v) false v
  | list {items : List Document} {damaged : Bool} {values : List Json}
      (h : AreAltered items damaged values) : Altered (.list items) damaged (.array values)
  | table {entries : List (String × Document)} {damaged : Bool} {values : List Json}
      {members : List (String × Json)} (h : AreAltered (entries.map Prod.snd) damaged values)
      (hperm : members.Perm ((entries.map Prod.fst).zip values)) :
      Altered (.table entries) damaged (.record members)
  /-- A field that is repeated must be there, and what is added must not be a field. -/
  | record {fields : List (String × Document)} {damaged : Bool} {slots : List (Option Json)}
      {repeated extra members : List (String × Json)} (h : FieldsAltered fields damaged slots)
      (hrepeated : ∀ e ∈ repeated, e.1 ∈ (membersOf fields slots).map Prod.fst)
      (hextra : ∀ e ∈ extra, e.1 ∉ fields.map Prod.fst ∧ Filler 50 e.2)
      (hperm : members.Perm (membersOf fields slots ++ repeated ++ extra)) :
      Altered (.record fields) (damaged || !repeated.isEmpty) (.record members)

/-- The values are wordings of the documents in their order, damaged or not. -/
inductive AreAltered : List Document → Bool → List Json → Prop
  | nil : AreAltered [] false []
  | cons {d : Document} {items : List Document} {damaged damaged' : Bool} {v : Json}
      {values : List Json} (h : Altered d damaged v) (hrest : AreAltered items damaged' values) :
      AreAltered (d :: items) (damaged || damaged') (v :: values)

/-- What stands for each field of a record, if anything does. -/
inductive FieldsAltered : List (String × Document) → Bool → List (Option Json) → Prop
  | nil : FieldsAltered [] false []
  | kept {name : String} {d : Document} {fields : List (String × Document)}
      {damaged damaged' : Bool} {v : Json} {slots : List (Option Json)} (h : Altered d damaged v)
      (hrest : FieldsAltered fields damaged' slots) :
      FieldsAltered ((name, d) :: fields) (damaged || damaged') (some v :: slots)
  | omitted {fields : List (String × Document)} {damaged : Bool} {slots : List (Option Json)}
      (hrest : FieldsAltered fields damaged slots) :
      FieldsAltered (("cache", .value .null) :: fields) damaged (none :: slots)
  | missing {name : String} {d : Document} {fields : List (String × Document)} {damaged : Bool}
      {slots : List (Option Json)} (hname : name ≠ "cache")
      (hrest : FieldsAltered fields damaged slots) :
      FieldsAltered ((name, d) :: fields) true (none :: slots)

end

variable {α β γ : Type} {d : Document} {damaged : Bool} {v : Json}
  {fields : List (String × Document)} {slots : List (Option Json)}
  {kept repeated extra members : List (String × Json)} {name : String}

/-! ## The fields of a record -/

theorem membersOf_sublist (fields : List (String × Document)) (slots : List (Option Json)) :
    ((membersOf fields slots).map Prod.fst).Sublist (fields.map Prod.fst) := by
  fun_induction membersOf fields slots with
  | case1 name d fields v slots ih => exact ih.cons_cons name
  | case2 f fields slots ih => exact ih.cons f.1
  | case3 => exact List.nil_sublist _

theorem lookup_of_not_mem (h : name ∉ members.map Prod.fst) : members.lookup name = none := by
  rw [List.lookup_eq_none_iff]
  intro e he
  exact bne_iff_ne.2 fun heq => h (List.mem_map.2 ⟨e, he, heq.symm⟩)

/-- What stands for a field is found under its name. -/
theorem FieldsAltered.map_lookup (h : FieldsAltered fields damaged slots)
    (hnodup : (fields.map Prod.fst).Nodup) :
    (fields.map Prod.fst).map (fun k => (membersOf fields slots).lookup k) = slots := by
  induction fields generalizing damaged slots with
  | nil =>
    cases h
    rfl
  | cons f fields ih =>
    obtain ⟨hnot, hrestNodup⟩ := List.nodup_cons.1 hnodup
    have hnone (slots : List (Option Json)) : (membersOf fields slots).lookup f.1 = none :=
      lookup_of_not_mem fun hmem => hnot ((membersOf_sublist fields slots).subset hmem)
    cases h with
    | @kept name _ _ _ _ v slots _ hrest =>
      rw [membersOf, List.map_cons, List.map_cons, List.lookup_cons_self]
      refine congrArg (some v :: ·) (.trans (List.map_congr_left fun k hk => ?_) (ih hrest hrestNodup))
      rw [List.lookup_cons, beq_eq_false_iff_ne.2]
      rintro rfl
      exact hnot hk
    | @omitted _ _ slots hrest => exact congrArg₂ List.cons (hnone slots) (ih hrest hrestNodup)
    | @missing _ _ _ _ slots _ hrest => exact congrArg₂ List.cons (hnone slots) (ih hrest hrestNodup)

section Members

variable (hperm : members.Perm (kept ++ repeated ++ extra))
include hperm

theorem filter_key_perm (p : String → Bool) :
    (members.filter fun e => p e.1).Perm ((kept.filter fun e => p e.1) ++
      (repeated.filter fun e => p e.1) ++ extra.filter fun e => p e.1) := by
  rw [← List.filter_append, ← List.filter_append]
  exact hperm.filter _

/-- A member that is repeated cannot be read. -/
theorem member?_of_repeated {e : String × Json} (he : e ∈ repeated)
    (hkept : e.1 ∈ kept.map Prod.fst) :
    member? (members.map fun e => (some e.1, e.2)) e.1 = none := by
  obtain ⟨f, hf, hkey⟩ := List.mem_map.1 hkept
  have hf : f ∈ kept.filter fun f => f.1 == e.1 := List.mem_filter.2 ⟨hf, beq_iff_eq.2 hkey⟩
  have he : e ∈ repeated.filter fun f => f.1 == e.1 := List.mem_filter.2 ⟨he, beq_self_eq_true _⟩
  have hfilter := filter_key_perm hperm (· == e.1)
  rw [member?_record, sole?_perm hfilter]
  generalize kept.filter (fun f => f.1 == e.1) = first at hf
  generalize repeated.filter (fun f => f.1 == e.1) = second at he
  obtain ⟨a, first, rfl⟩ := List.exists_cons_of_ne_nil (List.ne_nil_of_mem hf)
  obtain ⟨b, second, rfl⟩ := List.exists_cons_of_ne_nil (List.ne_nil_of_mem he)
  cases first <;> rfl

/-- A member that is not repeated is the one that is kept, if there is one. -/
theorem member?_of_kept (hnodup : (kept.map Prod.fst).Nodup) (hrepeated : name ∉ repeated.map Prod.fst)
    (hextra : name ∉ extra.map Prod.fst) :
    member? (members.map fun e => (some e.1, e.2)) name = some (kept.lookup name) := by
  rw [member?_record, sole?_perm (filter_key_perm hperm (· == name)), filter_key_eq_nil hrepeated,
    filter_key_eq_nil hextra, List.append_nil, List.append_nil]
  exact sole?_filter hnodup name

end Members

/-- The fields of a record as they are read. -/
theorem Altered.fields? (h : Altered (.record fields) damaged v)
    (hnodup : (fields.map Prod.fst).Nodup) :
    (damaged = true ∧ v.fields? (fields.map Prod.fst) = none) ∨
      ∃ slots, FieldsAltered fields damaged slots ∧ v.fields? (fields.map Prod.fst) = some slots := by
  cases h with
  | @record _ damaged slots repeated extra members h hrepeated hextra hperm =>
    have hsublist := membersOf_sublist fields slots
    rw [fields?_record]
    cases repeated with
    | cons e repeated =>
      have hkept := hrepeated e (List.mem_cons_self ..)
      refine .inl ⟨Bool.or_true damaged, mapM_eq_none_iff.2 ⟨e.1, hsublist.subset hkept, ?_⟩⟩
      exact member?_of_repeated hperm (List.mem_cons_self ..) hkept
    | nil =>
      rw [List.isEmpty_nil, Bool.not_true, Bool.or_false]
      refine .inr ⟨slots, h, ?_⟩
      rw [← h.map_lookup hnodup]
      refine mapM_eq_map fun name hname => ?_
      refine member?_of_kept hperm (hsublist.nodup hnodup) List.not_mem_nil fun hmem => ?_
      obtain ⟨e, he, rfl⟩ := List.mem_map.1 hmem
      exact (hextra e he).1 hname

theorem filter_key_ne (h : name ∉ members.map Prod.fst) :
    members.filter (fun e => e.1 != name) = members := by
  rw [List.filter_eq_self]
  intro e he
  exact bne_iff_ne.2 fun hkey => h (List.mem_map.2 ⟨e, he, hkey⟩)

theorem tagged?_record {key : String} {tag : Option Json}
    (h : member? (members.map fun e => (some e.1, e.2)) key = some tag) :
    (record members).tagged? key =
      tag.bind fun v => v.string?.map fun s => (s, record (members.filter fun e => e.1 != key)) := by
  have hrest : (members.map fun e => ((some e.1, e.2) : Text × Json)).filter
      (fun e => e.1 != some key) = (members.filter fun e => e.1 != key).map
        fun e => (some e.1, e.2) := by
    rw [List.filter_map]
    congr 1
  rw [record, tagged?, h, hrest]
  cases tag with
  | none => rfl
  | some v =>
    show (v.string?.bind fun s => some (s, object _)) = v.string?.map _
    cases v.string? <;> rfl

/-- A tag that is kept and is not repeated is parted from the other members. -/
theorem tagged?_of_kept {key tag : String}
    (hperm : members.Perm ((key, .ofString tag) :: kept ++ repeated ++ extra))
    (hnodup : (key :: kept.map Prod.fst).Nodup) (hrepeated : key ∉ repeated.map Prod.fst)
    (hextra : key ∉ extra.map Prod.fst) :
    (record members).tagged? key = some (tag, record (members.filter fun e => e.1 != key)) ∧
      (members.filter fun e => e.1 != key).Perm (kept ++ repeated ++ extra) := by
  have hmember := member?_of_kept hperm hnodup hrepeated hextra
  rw [List.lookup_cons_self] at hmember
  refine ⟨tagged?_record hmember, ?_⟩
  have hmembers := filter_key_perm hperm (· != key)
  rwa [List.filter_cons, if_neg (by simp), filter_key_ne (List.nodup_cons.1 hnodup).1,
    filter_key_ne hrepeated, filter_key_ne hextra] at hmembers

/-- The tag of a tagged record is parted from its fields. -/
theorem Altered.tagged? {key tag : String}
    (h : Altered (.record ((key, .value (.ofString tag)) :: fields)) damaged v)
    (hnodup : (key :: fields.map Prod.fst).Nodup) :
    (damaged = true ∧ v.tagged? key = none) ∨
      ∃ w, Altered (.record fields) damaged w ∧ v.tagged? key = some (tag, w) := by
  cases h with
  | @record _ damaged slots repeated extra members h hrepeated hextra hperm =>
    have hextra' : key ∉ extra.map Prod.fst := by
      intro hmem
      obtain ⟨e, he, rfl⟩ := List.mem_map.1 hmem
      exact (hextra e he).1 (List.mem_cons_self ..)
    have hkept (slots : List (Option Json)) : (key :: (membersOf fields slots).map Prod.fst).Nodup :=
      ((membersOf_sublist fields slots).cons_cons key).nodup hnodup
    cases h with
    | @missing _ _ _ _ slots _ hrest =>
      obtain ⟨hnot, hnodup⟩ := List.nodup_cons.1 (hkept slots)
      have hrepeated' : key ∉ repeated.map Prod.fst := by
        intro hmem
        obtain ⟨e, he, rfl⟩ := List.mem_map.1 hmem
        exact hnot (hrepeated e he)
      have hmember := member?_of_kept hperm hnodup hrepeated' hextra'
      refine .inl ⟨Bool.true_or _, ?_⟩
      rw [tagged?_record hmember]
      show ((membersOf fields slots).lookup key).bind _ = none
      rw [lookup_of_not_mem hnot]
      rfl
    | @kept _ _ _ _ damaged w slots hvalue hrest =>
      cases hvalue
      by_cases hmem : key ∈ repeated.map Prod.fst
      · obtain ⟨e, he, rfl⟩ := List.mem_map.1 hmem
        have hmember := member?_of_repeated hperm he (List.mem_cons_self ..)
        refine .inl ⟨?_, ?_⟩
        · rw [List.isEmpty_eq_false_iff.2 (List.ne_nil_of_mem he)]
          exact Bool.or_true _
        · rw [Json.record, Json.tagged?, hmember]
          rfl
      · obtain ⟨htagged, hmembers⟩ := tagged?_of_kept hperm (hkept slots) hmem hextra'
        refine .inr ⟨_, ?_, htagged⟩
        rw [Bool.false_or]
        refine .record hrest (fun e he => ?_) (fun e he => ?_) hmembers
        · exact (List.mem_cons.1 (hrepeated e he)).resolve_left fun heq =>
            hmem (List.mem_map.2 ⟨e, he, heq⟩)
        · exact ⟨fun hfield => (hextra e he).1 (List.mem_cons_of_mem _ hfield), (hextra e he).2⟩

/-! ## Reading lists and tables -/

/-- A reader gives `a` for every wording of the document and fails for every damaged one. -/
def Document.ReadBy (d : Document) (read? : Json → Option α) (a : α) : Prop :=
  ∀ damaged v, Altered d damaged v → read? v = if damaged then none else some a

theorem readBy_value {read? : Json → Option α} {a : α} (h : read? v = some a) :
    (Document.value v).ReadBy read? a := by
  intro damaged v hv
  cases hv
  exact h

theorem readBy_list {item? : Json → Option α} {doc : α → Document} {l : List α}
    (h : ∀ a ∈ l, (doc a).ReadBy item? a) : (Document.list (l.map doc)).ReadBy (list? item?) l := by
  intro damaged v hv
  cases hv with
  | @list _ damaged values hv =>
    show values.mapM item? = _
    induction l generalizing damaged values with
    | nil =>
      cases hv
      rfl
    | cons a l ih =>
      cases hv with
      | @cons _ _ damaged damaged' v values hv hrest =>
        obtain ⟨ha, hl⟩ := List.forall_mem_cons.1 h
        rw [List.mapM_cons, ha _ _ hv, ih hl _ hrest]
        cases damaged <;> cases damaged' <;> rfl

theorem keyed?_some (value? : Json → Option α) (e : String × Json) :
    keyed? value? (some e.1, e.2) = (value? e.2).map fun a => (e.1, a) := by
  unfold keyed?
  cases value? e.2 <;> rfl

theorem mapM_perm {f : α → Option β} {l l' : List α} (h : l.Perm l') {m : List β}
    (hm : l'.mapM f = some m) : ∃ m', l.mapM f = some m' ∧ m'.Perm m := by
  simp only [mapM_eq_some_iff] at hm ⊢
  exact List.perm_comp_forall₂ h hm

/-- The entries of a table, in the order of the document. -/
theorem mapM_zip_altered {value? : Json → Option α} {doc : α → Document} {l : List (String × α)}
    (h : ∀ e ∈ l, (doc e.2).ReadBy value? e.2) {values : List Json}
    (hv : AreAltered (l.map fun e => doc e.2) damaged values) :
    ((l.map Prod.fst).zip values).mapM (fun e => (value? e.2).map fun a => (e.1, a)) =
      if damaged then none else some l := by
  induction l generalizing damaged values with
  | nil =>
    cases hv
    rfl
  | cons e l ih =>
    cases hv with
    | @cons _ _ damaged damaged' v values hv hrest =>
      obtain ⟨he, hl⟩ := List.forall_mem_cons.1 h
      rw [List.map_cons, List.zip_cons_cons, List.mapM_cons, he _ _ hv, ih hl hrest]
      cases damaged <;> cases damaged' <;> rfl

theorem readBy_table {value? : Json → Option α} {doc : α → Document} {t : Table α}
    (h : ∀ e ∈ t.entries, (doc e.2).ReadBy value? e.2) :
    (Document.table (t.entries.map fun e => (e.1, doc e.2))).ReadBy (table? value?) t := by
  intro damaged v hv
  cases hv with
  | @table _ damaged values members hv hperm =>
    rw [List.map_map] at hv hperm
    have hentries := mapM_zip_altered h hv
    have hread : table? value? (.record members) =
        (members.mapM fun e => (value? e.2).map fun a => (e.1, a)).map Table.ofList := by
      rw [record, table?, List.mapM_map]
      congr 2
      exact funext fun e => keyed?_some value? e
    rw [hread]
    cases damaged with
    | true =>
      obtain ⟨e, he, hnone⟩ := mapM_eq_none_iff.1 hentries
      rw [mapM_eq_none_iff.2 ⟨e, hperm.mem_iff.2 he, hnone⟩]
      rfl
    | false =>
      obtain ⟨entries, hsome, hperm⟩ := mapM_perm hperm hentries
      have hnodup := (hperm.map Prod.fst).nodup_iff.2 t.nodup_keys
      rw [hsome, Option.map_some, Table.ofList_perm hperm hnodup, Table.ofList_entries]
      rfl

/-! ## Reading records -/

/-- One field is read, and the others are left. -/
theorem FieldsAltered.read {f : Json → Option α} {a : α}
    (h : FieldsAltered ((name, d) :: fields) damaged slots) (hcache : name ≠ "cache")
    (hd : d.ReadBy f a) :
    ∃ slot rest first others, slots = slot :: rest ∧ FieldsAltered fields others rest ∧
      damaged = (first || others) ∧ slot.bind f = if first then none else some a := by
  cases h with
  | @kept _ _ _ first others v rest hv hrest =>
    exact ⟨some v, rest, first, others, rfl, hrest, rfl, hd _ _ hv⟩
  | omitted => exact absurd rfl hcache
  | @missing _ _ _ others rest _ hrest => exact ⟨none, rest, true, others, rfl, hrest, rfl, rfl⟩

/-- An optional field, which is absent if it is not there. -/
theorem FieldsAltered.read_cache {f : Json → Option α} {a : Option α}
    (h : FieldsAltered (("cache", d) :: fields) damaged slots)
    (hd : d.ReadBy (fun v => v.option? f) a) (hnull : d = .value .null → a = none) :
    ∃ slot rest first others, slots = slot :: rest ∧ FieldsAltered fields others rest ∧
      damaged = (first || others) ∧
        (slot.getD .null).option? f = if first then none else some a := by
  cases h with
  | @kept _ _ _ first others v rest hv hrest =>
    exact ⟨some v, rest, first, others, rfl, hrest, rfl, hd _ _ hv⟩
  | @omitted _ _ rest hrest =>
    rw [hnull rfl]
    exact ⟨none, rest, false, _, rfl, hrest, rfl, rfl⟩
  | missing hname => exact absurd rfl hname

theorem Document.ReadBy.map {f : Json → Option α} {a : α} (h : d.ReadBy f a) (g : α → β) :
    d.ReadBy (fun v => (f v).map g) (g a) := by
  intro damaged v hv
  show (f v).map g = _
  rw [h _ _ hv]
  cases damaged <;> rfl

/-- A record is not null. -/
theorem Altered.option? (h : Altered (.record fields) damaged v) (f : Json → Option α) :
    v.option? f = (f v).map some := by
  cases h
  rfl

theorem FieldsAltered.eq_nil (h : FieldsAltered [] damaged slots) : slots = [] ∧ damaged = false := by
  cases h
  exact ⟨rfl, rfl⟩

/-- In a record without fields nothing can be missing or repeated. -/
theorem Altered.record_nil (h : Altered (.record []) damaged v) :
    damaged = false ∧ ∃ members, v = .object members := by
  cases h with
  | @record _ _ slots repeated _ members hslots hrepeated =>
    obtain ⟨rfl, rfl⟩ := hslots.eq_nil
    have hempty : repeated = [] :=
      List.eq_nil_iff_forall_not_mem.2 fun e he => absurd (hrepeated e he) List.not_mem_nil
    subst hempty
    exact ⟨rfl, _, rfl⟩

/-- A record is read if its fields are, each from what stands for it. -/
theorem readBy_record {read? : Json → Option α} {slots? : List (Option Json) → Option α} {a : α}
    (hread : ∀ v, read? v = (v.fields? (fields.map Prod.fst)).bind slots?)
    (hnodup : (fields.map Prod.fst).Nodup)
    (hslots : ∀ damaged slots, FieldsAltered fields damaged slots →
      slots? slots = if damaged then none else some a) :
    (Document.record fields).ReadBy read? a := by
  intro damaged v hv
  rw [hread]
  rcases hv.fields? hnodup with ⟨rfl, hnone⟩ | ⟨slots, h, hfields⟩
  · rw [hnone]
    rfl
  · rw [hfields]
    exact hslots damaged slots h

/-- A record of two fields. -/
theorem readBy_pair {read? : Json → Option γ} {k l : String} {f : Json → Option α}
    {g : Json → Option β} {make : α → β → γ} {d e : Document} {a : α} {b : β}
    (hread : ∀ v, read? v = (v.fields? [k, l]).bind fun
      | [some x, some y] => (f x).bind fun a => (g y).bind fun b => some (make a b)
      | _ => none)
    (hkl : k ≠ l) (hk : k ≠ "cache") (hl : l ≠ "cache") (hd : d.ReadBy f a) (he : e.ReadBy g b) :
    (Document.record [(k, d), (l, e)]).ReadBy read? (make a b) := by
  refine readBy_record hread (by simpa using hkl) fun damaged slots hslots => ?_
  obtain ⟨x, _, first, _, rfl, hrest, rfl, hx⟩ := hslots.read hk hd
  obtain ⟨y, _, second, _, rfl, hnil, rfl, hy⟩ := hrest.read hl he
  obtain ⟨rfl, rfl⟩ := hnil.eq_nil
  calc
    _ = (x.bind f).bind fun a => (y.bind g).bind fun b => some (make a b) := by
      cases x <;> cases y <;> simp
    _ = _ := by
      rw [hx, hy]
      cases first <;> cases second <;> rfl

/-! ## Nesting -/

/-- Every wording that is not damaged is tame. -/
def Document.Tame (n : Nat) (d : Document) : Prop := ∀ v, Altered d false v → v.Tame n

theorem Document.Tame.mono {n m : Nat} (h : d.Tame n) (hnm : n ≤ m) : d.Tame m :=
  fun v hv => (h v hv).mono hnm

theorem tame_value {n : Nat} (h : v.Tame n) : (Document.value v).Tame n := by
  intro w hw
  cases hw
  exact h

theorem tame_areAltered {n : Nat} {items : List Document} {values : List Json}
    (h : ∀ d ∈ items, d.Tame n) (hv : AreAltered items damaged values) (hdamaged : damaged = false) :
    ∀ v ∈ values, v.Tame n := by
  induction items generalizing damaged values with
  | nil =>
    cases hv
    exact fun _ hmem => absurd hmem List.not_mem_nil
  | cons d items ih =>
    obtain ⟨hd, hitems⟩ := List.forall_mem_cons.1 h
    cases hv with
    | cons hv hrest =>
      obtain ⟨rfl, rfl⟩ := Bool.or_eq_false_iff.1 hdamaged
      exact List.forall_mem_cons.2 ⟨hd _ hv, ih hitems hrest rfl⟩

theorem tame_list {n : Nat} {items : List Document} (h : ∀ d ∈ items, d.Tame n) :
    (Document.list items).Tame (n + 1) := by
  intro v hv
  cases hv with
  | list hv => exact tame_array (tame_areAltered h hv rfl)

theorem tame_table {n : Nat} {entries : List (String × Document)} (h : ∀ e ∈ entries, e.2.Tame n) :
    (Document.table entries).Tame (n + 1) := by
  intro v hv
  cases hv with
  | @table _ _ values members hv hperm =>
    have hvalues := tame_areAltered (List.forall_mem_map.2 h) hv rfl
    refine tame_record fun e he => hvalues e.2 ?_
    exact (List.of_mem_zip (hperm.mem_iff.1 he)).2

theorem tame_membersOf {n : Nat} (h : ∀ f ∈ fields, f.2.Tame n)
    (hslots : FieldsAltered fields damaged slots) (hdamaged : damaged = false) :
    ∀ e ∈ membersOf fields slots, e.2.Tame n := by
  induction fields generalizing damaged slots with
  | nil =>
    cases hslots
    exact fun _ hmem => absurd hmem List.not_mem_nil
  | cons f fields ih =>
    obtain ⟨hf, hfields⟩ := List.forall_mem_cons.1 h
    cases hslots with
    | kept hv hrest =>
      obtain ⟨rfl, rfl⟩ := Bool.or_eq_false_iff.1 hdamaged
      exact List.forall_mem_cons.2 ⟨hf _ hv, ih hfields hrest rfl⟩
    | omitted hrest => exact ih hfields hrest hdamaged
    | missing => cases hdamaged

theorem tame_fields {n : Nat} (hn : 50 ≤ n) (h : ∀ f ∈ fields, f.2.Tame n) :
    (Document.record fields).Tame (n + 1) := by
  intro v hv
  generalize hdamaged : false = damaged at hv
  cases hv with
  | @record _ _ _ repeated _ _ hslots _ hextra hperm =>
    obtain ⟨hnone, hempty⟩ := Bool.or_eq_false_iff.1 hdamaged.symm
    rw [Bool.not_eq_false', List.isEmpty_iff] at hempty
    subst hempty
    refine tame_record fun e he => ?_
    rw [hperm.mem_iff, List.append_nil] at he
    rcases List.mem_append.1 he with he | he
    · exact tame_membersOf h hslots hnone e he
    · exact (hextra e he).2.tame.mono hn

/-! ## The document as it is -/

theorem areAltered_map {ofItem : α → Json} {doc : α → Document}
    (h : ∀ a, Altered (doc a) false (ofItem a)) (l : List α) :
    AreAltered (l.map doc) false (l.map ofItem) := by
  induction l with
  | nil => exact .nil
  | cons a l ih => exact .cons (h a) ih

theorem altered_list {ofItem : α → Json} {doc : α → Document}
    (h : ∀ a, Altered (doc a) false (ofItem a)) (l : List α) :
    Altered (.list (l.map doc)) false (.array (l.map ofItem)) :=
  .list (areAltered_map h l)

theorem altered_table {ofValue : α → Json} {doc : α → Document}
    (h : ∀ a, Altered (doc a) false (ofValue a)) (t : Table α) :
    Altered (.table (t.entries.map fun e => (e.1, doc e.2))) false (.ofTable ofValue t) := by
  have hvalues := areAltered_map (fun e : String × α => h e.2) t.entries
  have hsnd : (t.entries.map fun e => (e.1, doc e.2)).map Prod.snd =
      t.entries.map fun e => doc e.2 := List.map_map
  have hzip : ((t.entries.map fun e => (e.1, doc e.2)).map Prod.fst).zip
      (t.entries.map fun e => ofValue e.2) = t.toList.map fun e => (e.1, ofValue e.2) := by
    rw [List.map_map, List.zip_map']
    rfl
  exact .table (hsnd ▸ hvalues) (.of_eq hzip.symm)

/-- The members of a document are its fields, if nothing is altered. -/
theorem altered_record {members : List (String × Json)}
    (h : List.Forall₂ (fun f e => f.1 = e.1 ∧ Altered f.2 false e.2) fields members) :
    Altered (.record fields) false (.record members) := by
  have hslots : FieldsAltered fields false (members.map fun e => some e.2) ∧
      membersOf fields (members.map fun e => some e.2) = members := by
    induction h with
    | nil => exact ⟨.nil, rfl⟩
    | @cons f e fields members hf _ ih =>
      obtain ⟨name, d⟩ := f
      obtain ⟨rfl, hd⟩ := hf
      exact ⟨.kept hd ih.1, congrArg (e :: ·) ih.2⟩
  have hperm : members.Perm (membersOf fields (members.map fun e => some e.2) ++ [] ++ []) := by
    rw [hslots.2, List.append_nil, List.append_nil]
  exact @Altered.record fields false _ [] [] members hslots.1 nofun nofun hperm

theorem forall₂_values (fields : List (String × Json)) :
    List.Forall₂ (fun f e => f.1 = e.1 ∧ Altered f.2 false e.2) (Document.values fields) fields := by
  rw [Document.values, List.forall₂_map_left_iff, List.forall₂_same]
  exact fun e _ => ⟨rfl, .value e.2⟩

theorem altered_values (fields : List (String × Json)) :
    Altered (.record (Document.values fields)) false (.record fields) :=
  altered_record (forall₂_values fields)

end BlockShell.Json
