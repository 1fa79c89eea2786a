import BlockShell.Proofs.Json.Document
import BlockShell.Registry.Text

/-!
# A registry is read from its own text

The document of a registry is its value, with the records told from the tables.  Every part of a
registry is read from every wording of its document, whatever texts, paths and numbers it holds, and
from no damaged one (`readBy_document`).  However a wording is written, it is read
(`Wording.ofText?`).  The value itself is a wording, and a wording that is not damaged can be written;
so a registry is read from its text (`ofText?_text`).
-/

namespace BlockShell

open Json (Document Altered)

/-! ## Documents -/

/-- A cache as a document. -/
def Cache.document (c : Cache) : Document :=
  .record [("len_sectors", .value c.length.toJson),
    ("write_through_enable", .value (.bool c.writeThrough))]

/-- The fields of a composite whose legs stand under `key`. -/
def legParts {α : Type} (key : String) (fields : α → List (String × Json)) (stripLength : Sectors)
    (legs : List α) : List (String × Document) :=
  [("strip_len_sectors", .value stripLength.toJson),
    (key, .list (legs.map fun l => .record (Document.values (fields l))))]

/-- The fields of a layout as documents. -/
def Layout.parts : Layout → List (String × Document)
  | raid10 n legs => legParts "raid1s" Raid1.fields n legs
  | raid40 n legs => legParts "raid4s" Raid4.fields n legs
  | raid50 n legs => legParts "raid5s" Raid5.fields n legs
  | l => Document.values l.fields

/-- A layout as a document: its tag and its fields. -/
def Layout.document (l : Layout) : Document :=
  .record (("type", .value (.ofString l.kind.name)) :: l.parts)

/-- A cache that may be absent, which is written as null. -/
def cacheDocument : Option Cache → Document
  | none => .value .null
  | some c => c.document

/-- A target as a document. -/
def Target.document (t : Target) : Document :=
  .record [("name", .value (.ofString t.name)), ("capacity_sectors", .value t.capacity.toJson),
    ("cache", cacheDocument t.cache), ("target", t.layout.document)]

/-- A mapping as a document. -/
def Mapping.document (m : Mapping) : Document :=
  .record [("target_name", .value (.ofString m.target)), ("read_only", .value (.bool m.readOnly))]

/-- A registry as a document. -/
def Registry.document (r : Registry) : Document :=
  .record [("targets", .table (r.targets.entries.map fun e => (e.1, e.2.document))),
    ("mappings", .table (r.mappings.entries.map fun e => (e.1, e.2.document)))]

/-! ## The value itself -/

theorem Cache.altered_toJson (c : Cache) : Altered c.document false c.toJson :=
  Json.altered_record (.cons ⟨rfl, .value _⟩ (.cons ⟨rfl, .value _⟩ .nil))

theorem altered_legFields {α : Type} (key : String) (fields : α → List (String × Json))
    (n : Sectors) (legs : List α) :
    List.Forall₂ (fun f e => f.1 = e.1 ∧ Altered f.2 false e.2) (legParts key fields n legs)
      (legFields key fields n legs) :=
  .cons ⟨rfl, .value _⟩ (.cons ⟨rfl, Json.altered_list (fun l => Json.altered_values (fields l)) legs⟩
    .nil)

theorem Layout.altered_fields (l : Layout) :
    List.Forall₂ (fun f e => f.1 = e.1 ∧ Altered f.2 false e.2) l.parts l.fields := by
  cases l with
  | raid10 n legs => exact altered_legFields _ _ n legs
  | raid40 n legs => exact altered_legFields _ _ n legs
  | raid50 n legs => exact altered_legFields _ _ n legs
  | _ => exact Json.forall₂_values _

theorem Layout.altered_toJson (l : Layout) : Altered l.document false l.toJson :=
  Json.altered_record (.cons ⟨rfl, .value _⟩ l.altered_fields)

theorem altered_cache (cache : Option Cache) :
    Altered (cacheDocument cache) false ((cache.map Cache.toJson).getD .null) := by
  cases cache with
  | none => exact .value _
  | some c => exact c.altered_toJson

theorem Target.altered_toJson (t : Target) : Altered t.document false t.toJson :=
  Json.altered_record (.cons ⟨rfl, .value _⟩ (.cons ⟨rfl, .value _⟩
    (.cons ⟨rfl, altered_cache t.cache⟩ (.cons ⟨rfl, t.layout.altered_toJson⟩ .nil))))

theorem Mapping.altered_toJson (m : Mapping) : Altered m.document false m.toJson :=
  Json.altered_record (.cons ⟨rfl, .value _⟩ (.cons ⟨rfl, .value _⟩ .nil))

theorem Registry.altered_toJson (r : Registry) : Altered r.document false r.toJson :=
  Json.altered_record (.cons ⟨rfl, Json.altered_table Target.altered_toJson r.targets⟩
    (.cons ⟨rfl, Json.altered_table Mapping.altered_toJson r.mappings⟩ .nil))

/-! ## Tame wordings -/

theorem Sectors.tame_toJson (n : Sectors) : n.toJson.Tame 0 := Json.tame_ofNat n.toNat_lt_size

theorem Path.tame_toJson (p : Path) : p.toJson.Tame 0 := Json.tame_ofString p.text

theorem tame_pathsToJson (paths : List Path) : (pathsToJson paths).Tame 1 :=
  Json.tame_array (List.forall_mem_map.2 fun p _ => p.tame_toJson)

theorem Raid0.tame_fields (s : Raid0) : ∀ e ∈ s.fields, e.2.Tame 1 := by
  simp [fields, s.stripLength.tame_toJson.mono, tame_pathsToJson]

theorem Raid1.tame_fields (s : Raid1) : ∀ e ∈ s.fields, e.2.Tame 1 := by
  simp [fields, s.readLength.tame_toJson.mono, tame_pathsToJson]

theorem Raid4.tame_fields (s : Raid4) : ∀ e ∈ s.fields, e.2.Tame 1 := by
  simp [fields, s.stripLength.tame_toJson.mono, s.parityPath.tame_toJson.mono, tame_pathsToJson]

theorem Raid5.tame_fields (s : Raid5) : ∀ e ∈ s.fields, e.2.Tame 1 := by
  simp [fields, s.stripLength.tame_toJson.mono, tame_pathsToJson]

theorem tame_values {fields : List (String × Json)} (h : ∀ e ∈ fields, e.2.Tame 1) :
    ∀ f ∈ Document.values fields, f.2.Tame 50 :=
  List.forall_mem_map.2 fun e he => Json.tame_value ((h e he).mono (by decide))

theorem tame_legParts {α : Type} {fields : α → List (String × Json)}
    (h : ∀ l, ∀ e ∈ fields l, e.2.Tame 1) (key : String) (n : Sectors) (legs : List α) :
    ∀ f ∈ legParts key fields n legs, f.2.Tame 52 := by
  have hleg (l : α) : (Document.record (Document.values (fields l))).Tame 51 :=
    Json.tame_fields (Nat.le_refl 50) (tame_values (h l))
  have hlegs : (Document.list (legs.map fun l => .record (Document.values (fields l)))).Tame 52 :=
    Json.tame_list (List.forall_mem_map.2 fun l _ => hleg l)
  have hn : (Document.value n.toJson).Tame 52 :=
    Json.tame_value (n.tame_toJson.mono (by decide))
  simp [legParts, hn, hlegs]

theorem Layout.tame_parts (l : Layout) : ∀ f ∈ l.parts, f.2.Tame 52 := by
  have hmono {fields : List (String × Json)} (h : ∀ e ∈ fields, e.2.Tame 1) :
      ∀ f ∈ Document.values fields, f.2.Tame 52 :=
    fun f hf => (tame_values h f hf).mono (by decide)
  cases l with
  | null | inMemory => exact fun _ hf => absurd hf List.not_mem_nil
  | plain path => exact hmono (by simp [fields, path.tame_toJson.mono])
  | raid0 s => exact hmono s.tame_fields
  | raid1 s => exact hmono s.tame_fields
  | raid4 s => exact hmono s.tame_fields
  | raid5 s => exact hmono s.tame_fields
  | raid10 n legs => exact tame_legParts Raid1.tame_fields _ n legs
  | raid40 n legs => exact tame_legParts Raid4.tame_fields _ n legs
  | raid50 n legs => exact tame_legParts Raid5.tame_fields _ n legs

theorem Layout.tame_document (l : Layout) : l.document.Tame 53 :=
  Json.tame_fields (by decide) (List.forall_mem_cons.2
    ⟨Json.tame_value ((Json.tame_ofString l.kind.name).mono (by decide)), l.tame_parts⟩)

theorem Cache.tame_document (c : Cache) : c.document.Tame 51 := by
  refine Json.tame_fields (Nat.le_refl 50) ?_
  simp [Json.tame_value, c.length.tame_toJson.mono, (Json.tame_bool c.writeThrough).mono]

theorem tame_cache (cache : Option Cache) : (cacheDocument cache).Tame 51 := by
  cases cache with
  | none => exact Json.tame_value (Json.tame_null.mono (by decide))
  | some c => exact c.tame_document

theorem Target.tame_document (t : Target) : t.document.Tame 54 := by
  refine Json.tame_fields (by decide) ?_
  simp [Json.tame_value, (Json.tame_ofString t.name).mono, t.capacity.tame_toJson.mono,
    (tame_cache t.cache).mono, t.layout.tame_document]

theorem Mapping.tame_document (m : Mapping) : m.document.Tame 51 := by
  refine Json.tame_fields (Nat.le_refl 50) ?_
  simp [Json.tame_value, (Json.tame_ofString m.target).mono, (Json.tame_bool m.readOnly).mono]

theorem Registry.tame_document (r : Registry) : r.document.Tame 56 := by
  have htargets : (Document.table (r.targets.entries.map fun e => (e.1, e.2.document))).Tame 55 :=
    Json.tame_table (List.forall_mem_map.2 fun e _ => e.2.tame_document)
  have hmappings : (Document.table (r.mappings.entries.map fun e => (e.1, e.2.document))).Tame 52 :=
    Json.tame_table (List.forall_mem_map.2 fun e _ => e.2.tame_document)
  refine Json.tame_fields (by decide) ?_
  simp [htargets, hmappings.mono]

/-! ## Reading -/

theorem Sectors.word?_toJson (n : Sectors) : n.toJson.word? = some n := by
  rw [toJson, Json.ofNat, Json.word?, Json.Number.natural?_ofNat, Option.bind_some,
    dif_pos n.toNat_lt_size]
  exact congrArg some (UInt64.ofNatLT_toNat n)

theorem Sectors.readBy_toJson (n : Sectors) : (Document.value n.toJson).ReadBy Json.word? n :=
  Json.readBy_value n.word?_toJson

theorem Path.readBy_toJson (p : Path) : (Document.value p.toJson).ReadBy ofJson? p :=
  Json.readBy_value rfl

theorem readBy_pathsToJson (paths : List Path) :
    (Document.value (pathsToJson paths)).ReadBy pathsOfJson? paths := by
  refine Json.readBy_value ?_
  show (paths.map Path.toJson).mapM Path.ofJson? = some paths
  rw [Json.mapM_eq_some_iff, List.forall₂_map_left_iff, List.forall₂_same]
  exact fun _ _ => rfl

theorem readBy_ofString (s : String) : (Document.value (.ofString s)).ReadBy Json.string? s :=
  Json.readBy_value rfl

theorem readBy_bool (b : Bool) : (Document.value (.bool b)).ReadBy Json.bool? b :=
  Json.readBy_value rfl

theorem Cache.readBy_document (c : Cache) : c.document.ReadBy ofJson? c := by
  show Document.ReadBy _ ofJson? (Cache.mk c.length c.writeThrough)
  exact Json.readBy_pair (fun _ => rfl) (by decide) (by decide) (by decide)
    c.length.readBy_toJson (readBy_bool c.writeThrough)

theorem Raid0.readBy_fields (s : Raid0) :
    (Document.record (Document.values s.fields)).ReadBy ofJson? s := by
  show Document.ReadBy (.record [("strip_len_sectors", _), ("paths", _)]) ofJson?
    (Raid0.mk s.stripLength s.paths)
  exact Json.readBy_pair (fun _ => rfl) (by decide) (by decide) (by decide)
    s.stripLength.readBy_toJson (readBy_pathsToJson s.paths)

theorem Raid1.readBy_fields (s : Raid1) :
    (Document.record (Document.values s.fields)).ReadBy ofJson? s := by
  show Document.ReadBy (.record [("read_len_sectors_per_path", _), ("paths", _)]) ofJson?
    (Raid1.mk s.readLength s.paths)
  exact Json.readBy_pair (fun _ => rfl) (by decide) (by decide) (by decide)
    s.readLength.readBy_toJson (readBy_pathsToJson s.paths)

theorem Raid4.readBy_fields (s : Raid4) :
    (Document.record (Document.values s.fields)).ReadBy ofJson? s := by
  show Document.ReadBy (.record [("strip_len_sectors", _), ("data_paths", _), ("parity_path", _)])
    ofJson? s
  refine Json.readBy_record (fun _ => rfl) (by simp) fun damaged slots hslots => ?_
  obtain ⟨x, _, first, _, rfl, hrest₁, rfl, hx⟩ :=
    hslots.read (by decide) s.stripLength.readBy_toJson
  obtain ⟨y, _, second, _, rfl, hrest₂, rfl, hy⟩ :=
    hrest₁.read (by decide) (readBy_pathsToJson s.dataPaths)
  obtain ⟨z, _, third, _, rfl, hnil, rfl, hz⟩ := hrest₂.read (by decide) s.parityPath.readBy_toJson
  obtain ⟨rfl, rfl⟩ := hnil.eq_nil
  calc
    _ = (x.bind Json.word?).bind fun n => (y.bind pathsOfJson?).bind fun paths =>
        (z.bind Path.ofJson?).bind fun p => some (Raid4.mk n paths p) := by
      cases x <;> cases y <;> cases z <;> simp
    _ = _ := by
      rw [hx, hy, hz]
      cases first <;> cases second <;> cases third <;> rfl

theorem Raid5.readBy_fields (s : Raid5) :
    (Document.record (Document.values s.fields)).ReadBy ofJson? s := by
  show Document.ReadBy (.record [("strip_len_sectors", _), ("paths", _)]) ofJson?
    (Raid5.mk s.stripLength s.paths)
  exact Json.readBy_pair (fun _ => rfl) (by decide) (by decide) (by decide)
    s.stripLength.readBy_toJson (readBy_pathsToJson s.paths)

theorem readBy_legParts {α : Type} {key : String} (hkey : "strip_len_sectors" ≠ key)
    (hcache : key ≠ "cache") {leg? : Json → Option α} {fields : α → List (String × Json)}
    (h : ∀ l, (Document.record (Document.values (fields l))).ReadBy leg? l) (n : Sectors)
    (legs : List α) :
    (Document.record (legParts key fields n legs)).ReadBy (legsOfJson? key leg?) (n, legs) :=
  Json.readBy_pair (fun _ => rfl) hkey (by decide) hcache n.readBy_toJson
    (Json.readBy_list fun l _ => h l)

theorem Layout.readBy_parts (l : Layout) :
    (Document.record l.parts).ReadBy (fun v => ofFields? v l.kind) l := by
  cases l with
  | null | inMemory =>
    intro damaged v hv
    obtain ⟨rfl, members, rfl⟩ := hv.record_nil
    rfl
  | plain path =>
    show Document.ReadBy (.record [("path", _)]) _ _
    refine Json.readBy_record (fun _ => rfl) (by simp) fun damaged slots hslots => ?_
    obtain ⟨x, _, first, _, rfl, hnil, rfl, hx⟩ := hslots.read (by decide) path.readBy_toJson
    obtain ⟨rfl, rfl⟩ := hnil.eq_nil
    calc
      _ = (x.bind Path.ofJson?).bind fun p => some (plain p) := by cases x <;> simp
      _ = _ := by
        rw [hx]
        cases first <;> rfl
  | raid0 s => exact s.readBy_fields.map raid0
  | raid1 s => exact s.readBy_fields.map raid1
  | raid4 s => exact s.readBy_fields.map raid4
  | raid5 s => exact s.readBy_fields.map raid5
  | raid10 n legs =>
    exact (readBy_legParts (by decide) (by decide) Raid1.readBy_fields n legs).map _
  | raid40 n legs =>
    exact (readBy_legParts (by decide) (by decide) Raid4.readBy_fields n legs).map _
  | raid50 n legs =>
    exact (readBy_legParts (by decide) (by decide) Raid5.readBy_fields n legs).map _

theorem Layout.nodup_parts (l : Layout) : ("type" :: l.parts.map Prod.fst).Nodup := by
  cases l <;> simp [parts, Document.values, fields, Raid0.fields, Raid1.fields, Raid4.fields,
    Raid5.fields, legParts]

theorem Layout.readBy_document (l : Layout) : l.document.ReadBy ofJson? l := by
  intro damaged v hv
  unfold ofJson?
  rcases hv.tagged? l.nodup_parts with ⟨rfl, hnone⟩ | ⟨w, hw, htag⟩
  · rw [hnone]
    exact ite_self _
  · have hparts : ((Kind.ofName? l.kind.name).bind fun kind => ofFields? w kind) =
        if damaged then none else some l := by
      simpa using l.readBy_parts _ _ hw
    rw [htag]
    cases damaged with
    | true =>
      rw [Option.bind_eq_bind, Option.bind_some]
      exact (congrArg (ite _ · none) hparts).trans (ite_self _)
    | false =>
      have htame := l.tame_document v hv
      have hdepth : v.depth ≤ depthLimit := Nat.le_trans htame.depth_le (by decide)
      rw [if_pos (by simp [htame.plain, hdepth])]
      exact hparts

theorem readBy_cache (cache : Option Cache) :
    (cacheDocument cache).ReadBy (fun v => v.option? Cache.ofJson?) cache := by
  cases cache with
  | none => exact Json.readBy_value rfl
  | some c =>
    intro damaged v hv
    refine (Json.Altered.option? hv _).trans ?_
    exact c.readBy_document.map some damaged v hv

theorem cacheDocument_eq_null {cache : Option Cache} (h : cacheDocument cache = .value .null) :
    cache = none := by
  cases cache with
  | none => rfl
  | some c => cases h

theorem Target.readBy_document (t : Target) : t.document.ReadBy ofJson? t := by
  refine Json.readBy_record (fun _ => rfl) (by simp) fun damaged slots hslots => ?_
  obtain ⟨x, _, first, _, rfl, hrest₁, rfl, hx⟩ := hslots.read (by decide) (readBy_ofString t.name)
  obtain ⟨y, _, second, _, rfl, hrest₂, rfl, hy⟩ := hrest₁.read (by decide) t.capacity.readBy_toJson
  obtain ⟨z, _, third, _, rfl, hrest₃, rfl, hz⟩ :=
    hrest₂.read_cache (readBy_cache t.cache) cacheDocument_eq_null
  obtain ⟨w, _, fourth, _, rfl, hnil, rfl, hw⟩ := hrest₃.read (by decide) t.layout.readBy_document
  obtain ⟨rfl, rfl⟩ := hnil.eq_nil
  calc
    _ = (x.bind Json.string?).bind fun name => (y.bind Json.word?).bind fun n =>
        ((z.getD .null).option? Cache.ofJson?).bind fun cache =>
          (w.bind Layout.ofJson?).bind fun l => some (Target.mk name n cache l) := by
      cases x <;> cases y <;> cases w <;> simp
    _ = _ := by
      rw [hx, hy, hz, hw]
      cases first <;> cases second <;> cases third <;> cases fourth <;> rfl

theorem Mapping.readBy_document (m : Mapping) : m.document.ReadBy ofJson? m := by
  show Document.ReadBy _ ofJson? (Mapping.mk m.target m.readOnly)
  exact Json.readBy_pair (fun _ => rfl) (by decide) (by decide) (by decide)
    (readBy_ofString m.target) (readBy_bool m.readOnly)

theorem Registry.readBy_document (r : Registry) : r.document.ReadBy ofJson? r := by
  show Document.ReadBy _ ofJson? (Registry.mk r.targets r.mappings)
  exact Json.readBy_pair (fun _ => rfl) (by decide) (by decide) (by decide)
    (Json.readBy_table fun e _ => e.2.readBy_document)
    (Json.readBy_table fun e _ => e.2.readBy_document)

/-! ## The texts of a registry -/

namespace Registry

/-- A text of a wording of the registry, damaged or not, with any blanks between its tokens. -/
def Wording (r : Registry) (damaged : Bool) (text : String) : Prop :=
  ∃ v, Altered r.document damaged v ∧ Json.Token.Spells v.tokens text.toList

variable {r : Registry} {damaged : Bool} {text : String}

theorem wording_text (r : Registry) : r.Wording false r.text :=
  ⟨r.toJson, r.altered_toJson,
    Json.spells_pretty (r.tame_document _ r.altered_toJson).written⟩

theorem Wording.ofText? (h : r.Wording damaged text) :
    Registry.ofText? text = if damaged then none else some r := by
  obtain ⟨v, hv, htext⟩ := h
  rw [Registry.ofText?, Json.read?_of_spells htext, Option.bind_some]
  exact r.readBy_document damaged v hv

theorem Wording.allBlank (h : r.Wording damaged text) : Text.allBlank text = false := by
  obtain ⟨v, hv, htext⟩ := h
  have hbrace : Json.Token.openObject ∈ v.tokens := by
    cases hv with
    | @record _ _ _ _ _ members => cases members <;> exact List.mem_cons_self ..
  rw [Text.allBlank, List.all_eq_false]
  exact ⟨_, htext.brace_mem hbrace, by decide⟩

/-- A registry is read from its text. -/
theorem ofText?_text (r : Registry) : ofText? r.text = some r := r.wording_text.ofText?

end Registry

end BlockShell
