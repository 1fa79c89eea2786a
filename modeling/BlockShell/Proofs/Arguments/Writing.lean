import BlockShell.Arguments.Basic
import BlockShell.Proofs.Table
import BlockShell.Proofs.Text.Cut

/-!
# Arguments written as text

Fields are written as `key=value` pairs with a delimiter between them.  If keys and values are
trimmed, hold no delimiter, and the keys no equals sign, the text is read as the table of the fields
(`ofText_textOf`).  Conversely `get?_ofText` says what kind of text a value that is read can be.
-/

namespace BlockShell.Arguments

/-- A field as it is written. -/
def pairText (e : String × String) : String := e.1 ++ "=" ++ e.2

/-- Fields with a delimiter between them. -/
def textOf (d : Char) (fields : List (String × String)) : String := Text.join d (fields.map pairText)

/-- A text that is read as it is written where `d` is a delimiter. -/
def Holds (d : Char) (s : String) : Prop := Text.Trimmed s ∧ d ∉ s.toList

/-- A field that is read as it is written where `d` is the delimiter. -/
def Fits (d : Char) (e : String × String) : Prop :=
  (Holds d e.1 ∧ '=' ∉ e.1.toList) ∧ Holds d e.2

theorem ne_equals {s : String} (h : '=' ∉ s.toList) : ∀ c ∈ s.toList, (c == '=') = false :=
  fun _ hc => beq_eq_false_iff_ne.2 fun he => h (he ▸ hc)

theorem pair?_append {key : String} (h : '=' ∉ key.toList) (value : String) :
    pair? (key ++ String.singleton '=' ++ value) = some (Text.trim key, Text.trim value) := by
  rw [pair?, Text.cutAt?_append (ne_equals h) (beq_self_eq_true '='), Option.map_some]

theorem pair?_pairText {d : Char} {e : String × String} (h : Fits d e) : pair? (pairText e) = some e := by
  obtain ⟨⟨⟨hkey, -⟩, heq⟩, hvalue, -⟩ := h
  calc pair? (pairText e) = some (Text.trim e.1, Text.trim e.2) := pair?_append heq e.2
    _ = some e := by rw [Text.trim_eq_self hkey, Text.trim_eq_self hvalue]

theorem not_mem_pairText {d : Char} (hd : d ≠ '=') {e : String × String} (h : Fits d e) :
    d ∉ (pairText e).toList := by
  simp only [pairText, String.toList_append, List.mem_append, not_or]
  exact ⟨⟨h.1.1.2, by simpa using hd⟩, h.2.2⟩

theorem filterMap_pair? {d : Char} {fields : List (String × String)} (h : ∀ e ∈ fields, Fits d e) :
    (fields.map pairText).filterMap pair? = fields := by
  rw [List.filterMap_map]
  exact (List.filterMap_congr fun e he => pair?_pairText (h e he)).trans List.filterMap_some

theorem ofText_textOf {d : Char} (hd : d ≠ '=') {fields : List (String × String)}
    (hne : fields ≠ []) (h : ∀ e ∈ fields, Fits d e) : ofText d (textOf d fields) = .ofList fields := by
  have hpieces : Text.pieces d (textOf d fields) = fields.map pairText := by
    refine Text.pieces_join (fun s hs => ?_) (by simpa using hne)
    obtain ⟨e, he, rfl⟩ := List.mem_map.1 hs
    exact not_mem_pairText hd (h e he)
  rw [ofText, hpieces, filterMap_pair? h]

/-- A pair that is read is read as it would be written, and its value is part of the text. -/
theorem fits_ofText {d : Char} {text key value : String}
    (h : (ofText d text).get? key = some value) :
    Fits d (key, value) ∧ ∀ c ∈ value.toList, c ∈ text.toList := by
  obtain ⟨segment, hs, hp⟩ := List.mem_filterMap.1 (Table.mem_of_get?_ofList h)
  obtain ⟨e, hcut, he⟩ := Option.map_eq_some_iff.1 hp
  cases he
  obtain ⟨-, -, -, hequals⟩ := Text.cutAt?_eq_some hcut
  have hkey : ∀ c ∈ (Text.trim e.1).toList, c ∈ segment.toList :=
    fun c hc => Text.mem_of_cutAt? hcut (.inl (Text.mem_of_mem_trim hc))
  have hvalue : ∀ c ∈ (Text.trim e.2).toList, c ∈ segment.toList :=
    fun c hc => Text.mem_of_cutAt? hcut (.inr (Text.mem_of_mem_trim hc))
  have hd : d ∉ segment.toList := Text.not_mem_of_mem_pieces hs
  refine ⟨⟨⟨⟨Text.trimmed_trim _, fun hmem => hd (hkey d hmem)⟩, fun hmem => ?_⟩,
    Text.trimmed_trim _, fun hmem => hd (hvalue d hmem)⟩,
    fun c hc => Text.mem_of_mem_pieces hs (hvalue c hc)⟩
  exact absurd (hequals '=' (Text.mem_of_mem_trim hmem)) (by decide)

/-- A value that is read is trimmed, holds no delimiter, and is part of the text. -/
theorem get?_ofText {d : Char} {text key value : String}
    (h : (ofText d text).get? key = some value) :
    Holds d value ∧ ∀ c ∈ value.toList, c ∈ text.toList :=
  ⟨(fits_ofText h).1.2, (fits_ofText h).2⟩

end BlockShell.Arguments
