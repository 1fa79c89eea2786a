import BlockShell.Proofs.Journal.Load

/-!
# Loading does not depend on the wording

The text of a registry is one wording of it among many.  A journal whose file holds any of them is
loaded as the registry, and one whose file holds a damaged wording is malformed (`loaded_wording`).
-/

namespace BlockShell

open Json (Altered Filler Document FieldsAltered membersOf)

namespace Journal

/-- A journal is loaded as the registry from its text, and as well from every other wording of it; it
cannot be loaded from a damaged one. -/
theorem loaded_wording (j : Journal) (r : Registry) :
    r.Wording false r.text ∧ ∀ damaged text t, r.Wording damaged text →
      j.content? t = some text.toUTF8 →
      j.loaded t = if damaged then .error (.malformed j.path) else .ok r := by
  refine ⟨r.wording_text, fun damaged text t hwording hcontent => ?_⟩
  rw [loaded_of_content? hcontent]
  exact j.decode_wording hwording

/-! ## A registry from back to front -/

/-- The members that are kept from back to front, and one before them that has no meaning. -/
theorem altered_reverse {fields : List (String × Document)} {damaged : Bool}
    {slots : List (Option Json)} {v : Json} (key : String) (h : FieldsAltered fields damaged slots)
    (hkey : key ∉ fields.map Prod.fst) (hv : Filler 50 v) :
    Altered (.record fields) damaged (.record ((key, v) :: (membersOf fields slots).reverse)) := by
  have hperm : ((key, v) :: (membersOf fields slots).reverse).Perm
      (membersOf fields slots ++ [] ++ [(key, v)]) := by
    rw [List.append_nil]
    exact ((List.reverse_perm _).cons _).trans (List.perm_append_singleton _ _).symm
  have haltered := @Altered.record _ _ _ [] [(key, v)] _ h nofun
    (List.forall_mem_singleton.2 ⟨hkey, hv⟩) hperm
  rwa [List.isEmpty_nil, Bool.not_true, Bool.or_false] at haltered

/-- A registry with one target, which has no cache and a single leg. -/
def paired : Registry :=
  ⟨.ofList [("t", ⟨"t", 8, none, .raid10 2 [⟨1, [⟨"/a"⟩, ⟨"/b"⟩]⟩]⟩)], .ofList [("m", ⟨"t", true⟩)]⟩

/-- The registry from back to front, without the cache, with the given members for its mapping and
with others that have no meaning. -/
def backwards (mapping : List (String × Json)) : Json :=
  .record [("", .record []), ("mappings", .record [("m", .record mapping)]),
    ("targets", .record [("t", .record [("labels", .array [.ofString "x", .bool true]),
      ("target", .record [("version", .number (.ofInt (-5))),
        ("raid1s", .array [.record [("note", .null), ("paths", .array [.ofString "/a", .ofString "/b"]),
          ("read_len_sectors_per_path", .ofNat 1)]]),
        ("strip_len_sectors", .ofNat 2), ("type", .ofString "raid10")]),
      ("capacity_sectors", .ofNat 8), ("name", .ofString "t")])])]

section Backwards

variable {mapping : List (String × Json)}

theorem altered_backwards {damaged : Bool}
    (h : Altered (Mapping.document ⟨"t", true⟩) damaged (.record mapping)) :
    Altered paired.document damaged (backwards mapping) := by
  have hleg : Altered (.record (Document.values (Raid1.fields ⟨1, [⟨"/a"⟩, ⟨"/b"⟩]⟩))) false _ :=
    altered_reverse "note" (.kept (.value _) (.kept (.value _) .nil)) (by decide) (.null 50)
  have hlayout : Altered (Layout.document (.raid10 2 [⟨1, [⟨"/a"⟩, ⟨"/b"⟩]⟩])) false _ :=
    altered_reverse "version" (.kept (.value _) (.kept (.value _) (.kept (.list (.cons hleg .nil))
      .nil))) (by decide) (.integer 50 (z := -5) (by decide))
  have hlabels : Filler 50 (.array [.ofString "x", .bool true]) := by
    refine .array ?_
    simp [Filler.string, Filler.bool]
  have htarget : Altered (Target.document ⟨"t", 8, none, .raid10 2 [⟨1, [⟨"/a"⟩, ⟨"/b"⟩]⟩]⟩) false _ :=
    altered_reverse "labels" (.kept (.value _) (.kept (.value _) (.omitted (.kept hlayout .nil))))
      (by decide) hlabels
  have hregistry : Altered paired.document _ _ :=
    altered_reverse "" (.kept (.table (.cons htarget .nil) (.refl _))
      (.kept (.table (.cons h .nil) (.refl _)) .nil)) (by decide)
      (.record (n := 49) (List.forall_mem_nil _))
  simp only [Bool.or_false, Bool.false_or] at hregistry
  exact hregistry

theorem written_backwards (h : (Json.record mapping).Written) : (backwards mapping).Written := by
  have hmembers : Json.MembersWritten (mapping.map fun e => (some e.1, e.2)) := h
  simp [backwards, Json.record, Json.ofString, Json.ofNat, Json.Written, Json.AreWritten,
    Json.MembersWritten, hmembers, Json.Number.isLiteral_ofNat, Json.Number.isLiteral_ofInt]

/-- That wording as a text, with blanks around it. -/
def backwardsText (mapping : List (String × Json)) : String :=
  "\t" ++ (backwards mapping).pretty ++ "\r\n"

theorem spells_backwardsText (h : (Json.record mapping).Written) :
    Json.Token.Spells (backwards mapping).tokens (backwardsText mapping).toList := by
  have hblanks : Json.Token.Spells [] ['\r', '\n'] :=
    .space (by decide) (.space (by decide) .nil)
  have hspells := Json.spells_charsAt (written_backwards h) 0 hblanks
  rw [List.append_nil] at hspells
  have htext : (backwardsText mapping).toList =
      '\t' :: (Json.charsAt 0 (backwards mapping) ++ ['\r', '\n']) := by
    simp [backwardsText, Json.pretty]
  rw [htext]
  exact .space (by decide) hspells

end Backwards

/-- The registry is loaded from back to front, but not if its mapping has no target or is read-only
twice. -/
theorem loaded_wording_backwards :
    loaded ⟨⟨"j"⟩⟩ (withFile (backwardsText
        [("read_only", .bool true), ("target_name", .ofString "t")])) = .ok paired ∧
      loaded ⟨⟨"j"⟩⟩ (withFile (backwardsText [("read_only", .bool true)])) =
        .error (.malformed ⟨"j"⟩) ∧
      loaded ⟨⟨"j"⟩⟩ (withFile (backwardsText [("read_only", .bool true),
        ("target_name", .ofString "t"), ("read_only", .bool true)])) = .error (.malformed ⟨"j"⟩) := by
  have hload (damaged : Bool) {mapping : List (String × Json)} (hmapping : (Json.record mapping).Written)
      (h : Altered (Mapping.document ⟨"t", true⟩) damaged (.record mapping)) :
      loaded ⟨⟨"j"⟩⟩ (withFile (backwardsText mapping)) =
        if damaged then .error (.malformed ⟨"j"⟩) else .ok paired :=
    (loaded_wording ⟨⟨"j"⟩⟩ paired).2 damaged _ _
      ⟨_, altered_backwards h, spells_backwardsText hmapping⟩ (content?_withFile _)
  have hreadOnly : (Json.bool true).Written := trivial
  have htarget : (Json.ofString "t").Written := rfl
  refine ⟨hload false ⟨rfl, hreadOnly, rfl, htarget, trivial⟩ ?_,
    hload true ⟨rfl, hreadOnly, trivial⟩ ?_,
    hload true ⟨rfl, hreadOnly, rfl, htarget, rfl, hreadOnly, trivial⟩ ?_⟩
  · exact @Altered.record _ _ _ [] [] _ (.kept (.value _) (.kept (.value _) .nil)) nofun nofun
      (.swap _ _ _)
  · exact @Altered.record _ _ _ [] [] _ (.missing (by decide) (.kept (.value _) .nil)) nofun nofun
      (.refl _)
  · exact @Altered.record _ _ _ [("read_only", .bool true)] [] _
      (.kept (.value _) (.kept (.value _) .nil)) (by simp [membersOf]) nofun (.swap _ _ _)

end Journal

end BlockShell
