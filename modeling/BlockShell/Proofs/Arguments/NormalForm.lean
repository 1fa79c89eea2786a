import BlockShell.Proofs.Arguments.Tokens

/-!
# The normal form of arguments

Arguments are written in one way: their pairs in the order of the keys, with the delimiter between them.
Every text is read as the same arguments as the normal form of what it is read as, and the arguments that
some text is read as are those of which every pair fits the delimiter.  In a text that is put together from
two, the pairs of the second one count (`ofText_normalForm`).
-/

namespace BlockShell.Arguments

theorem ofText_empty (d : Char) : ofText d "" = .empty := by
  have hpieces : Text.pieces d "" = [""] := by simp [Text.pieces]
  rw [ofText, hpieces]
  rfl

/-- Where the equals sign is the delimiter there are no pairs. -/
theorem ofText_equals (text : String) : ofText '=' text = .empty := by
  have hpairs : (Text.pieces '=' text).filterMap pair? = [] :=
    List.filterMap_eq_nil_iff.2 fun _ hpiece => pair?_of_not_mem (Text.not_mem_of_mem_pieces hpiece)
  rw [ofText, hpairs]
  rfl

theorem get?_ofText_append (d : Char) (first second key : String) :
    (ofText d (first ++ String.singleton d ++ second)).get? key =
      ((ofText d second).get? key).or ((ofText d first).get? key) := by
  unfold ofText
  rw [Text.pieces_append, List.filterMap_append, Table.get?_ofList_append]

theorem fits_entries {d : Char} (text : String) : ∀ e ∈ (ofText d text).entries, Fits d e :=
  fun e he => (fits_ofText (((ofText d text).mem_entries_iff e.1 e.2).1 he)).1

/-- Arguments of which every pair fits are read from their normal form. -/
theorem ofText_textOf_entries {d : Char} (hd : d ≠ '=') {args : Arguments}
    (h : ∀ e ∈ args.entries, Fits d e) : ofText d (textOf d args.entries) = args := by
  by_cases hne : args.entries = []
  · rw [hne]
    exact (ofText_empty d).trans (args.size_eq_zero_iff.1 (List.length_eq_zero_iff.2 hne)).symm
  · rw [ofText_textOf hd hne h, Table.ofList_entries]

/-- Of a text that is put together from two, a key has the value it has in the second one, or else the value
it has in the first one.  A text and the normal form of its arguments are read alike.  Arguments can be read
from some text if their keys and values are trimmed and hold no delimiter, and their keys no equals sign. -/
theorem ofText_normalForm (d : Char) :
    (∀ first second key, (ofText d (first ++ String.singleton d ++ second)).get? key =
      ((ofText d second).get? key).or ((ofText d first).get? key)) ∧
    (∀ text, ofText d (textOf d (ofText d text).entries) = ofText d text) ∧
    (d ≠ '=' → ∀ args : Arguments, (∃ text, ofText d text = args) ↔
      ∀ key value, args.get? key = some value →
        (Text.Trimmed key ∧ d ∉ key.toList ∧ '=' ∉ key.toList) ∧
          Text.Trimmed value ∧ d ∉ value.toList) := by
  refine ⟨get?_ofText_append d, fun text => ?_, fun hd args => ⟨?_, fun h => ?_⟩⟩
  · by_cases hd : d = '='
    · subst hd
      rw [ofText_equals, ofText_equals]
    · exact ofText_textOf_entries hd (fits_entries text)
  · rintro ⟨text, rfl⟩ key value hget
    obtain ⟨⟨⟨⟨hkey, hdkey⟩, hequals⟩, hvalue⟩, -⟩ := fits_ofText hget
    exact ⟨⟨hkey, hdkey, hequals⟩, hvalue⟩
  · refine ⟨textOf d args.entries, ofText_textOf_entries hd fun e he => ?_⟩
    obtain ⟨⟨hkey, hdkey, hequals⟩, hvalue⟩ := h e.1 e.2 ((args.mem_entries_iff _ _).1 he)
    exact ⟨⟨⟨hkey, hdkey⟩, hequals⟩, hvalue⟩

/-- An empty key, an empty value, and a value with an equals sign in it. -/
def sparsePairs : List (String × String) := [("", "a=b"), ("key", "")]

theorem ofText_normalForm_of_sparse :
    ' ' ≠ '=' ∧ (Table.ofList sparsePairs).get? "" = some "a=b" ∧
      ∃ text, ofText ' ' text = Table.ofList sparsePairs := by
  have hfit : ∀ e ∈ sparsePairs, (Text.Trimmed e.1 ∧ ' ' ∉ e.1.toList ∧ '=' ∉ e.1.toList) ∧
      Text.Trimmed e.2 ∧ ' ' ∉ e.2.toList := by
    decide +kernel
  obtain ⟨-, -, himage⟩ := ofText_normalForm ' '
  refine ⟨by decide, by decide, (himage (by decide) _).2 fun key value hget => ?_⟩
  exact hfit (key, value) (Table.mem_of_get?_ofList hget)

end BlockShell.Arguments
