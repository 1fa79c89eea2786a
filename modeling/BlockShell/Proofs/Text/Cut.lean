import BlockShell.Text.Split
import Mathlib.Data.List.Basic
import Mathlib.Data.List.DropRight
import Mathlib.Data.List.TakeWhile

/-!
# Trimmed, joined and cut texts

`Trimmed` says that a text has no blank at either end; `trim` gives such texts and leaves them as
they are.  Texts without a character `d` that are joined with `d` come back as the pieces at `d`
(`pieces_join`), and a text is cut in two behind its first part (`cutAt?_append`).  The other
lemmas say what the parts of a text consist of.
-/

namespace BlockShell.Text

/-! ## Trimmed texts -/

/-- Neither the first nor the last character is blank. -/
def Trimmed (s : String) : Prop :=
  (∀ c ∈ s.toList.head?, isBlank c = false) ∧ ∀ c ∈ s.toList.getLast?, isBlank c = false

theorem dropWhile_isBlank_of_head {cs : List Char} (h : ∀ c ∈ cs.head?, isBlank c = false) :
    cs.dropWhile isBlank = cs := by
  cases cs with
  | nil => rfl
  | cons c cs => exact List.dropWhile_cons_of_neg (by simpa using h c rfl)

theorem trimChars_eq_self {cs : List Char} (hhead : ∀ c ∈ cs.head?, isBlank c = false)
    (hlast : ∀ c ∈ cs.getLast?, isBlank c = false) : trimChars cs = cs := by
  unfold trimChars
  rw [dropWhile_isBlank_of_head hhead, dropWhile_isBlank_of_head, List.reverse_reverse]
  rwa [List.head?_reverse]

theorem trim_eq_self {s : String} (h : Trimmed s) : trim s = s := by
  rw [← String.toList_inj, toList_trim]
  exact trimChars_eq_self h.1 h.2

theorem isBlank_head_dropWhile {cs : List Char} {c : Char}
    (h : c ∈ (cs.dropWhile isBlank).head?) : isBlank c = false := by
  have := List.head?_dropWhile_not isBlank cs
  rw [Option.mem_def] at h
  rwa [h] at this

theorem head?_of_suffix_reverse {cs ds : List Char} (h : ds <:+ cs.reverse) (hne : ds ≠ []) :
    ds.reverse.head? = cs.head? := by
  obtain ⟨e, he⟩ := h
  have hcs : cs = ds.reverse ++ e.reverse := by
    rw [← List.reverse_append, he, List.reverse_reverse]
  rw [hcs, List.head?_append_of_ne_nil _ (by simpa using hne)]

theorem trimmed_trim (s : String) : Trimmed (trim s) := by
  unfold Trimmed
  rw [toList_trim]
  unfold trimChars
  refine ⟨fun c hc => ?_, fun c hc => ?_⟩
  · generalize hd : (s.toList.dropWhile isBlank).reverse.dropWhile isBlank = ds at hc
    have hne : ds ≠ [] := by rintro rfl; simp at hc
    rw [head?_of_suffix_reverse (hd ▸ List.dropWhile_suffix _) hne] at hc
    exact isBlank_head_dropWhile hc
  · rw [List.getLast?_reverse] at hc
    exact isBlank_head_dropWhile hc

instance (s : String) : Decidable (Trimmed s) :=
  decidable_of_iff (trim s = s) ⟨fun h => h ▸ trimmed_trim s, trim_eq_self⟩

theorem mem_of_mem_trim {s : String} {c : Char} (h : c ∈ (trim s).toList) : c ∈ s.toList := by
  rw [toList_trim, trimChars, List.mem_reverse] at h
  have := List.dropWhile_subset _ h
  rw [List.mem_reverse] at this
  exact List.dropWhile_subset _ this

/-- There are only blanks before and after what `trim` leaves. -/
theorem exists_trim (s : String) : ∃ before after, s = before ++ trim s ++ after ∧
    allBlank before = true ∧ allBlank after = true := by
  refine ⟨String.ofList (s.toList.takeWhile isBlank),
    String.ofList ((s.toList.dropWhile isBlank).rtakeWhile isBlank), ?_, ?_, ?_⟩
  · have htrim : trimChars s.toList = (s.toList.dropWhile isBlank).rdropWhile isBlank := rfl
    rw [← String.toList_inj, String.toList_append, String.toList_append, toList_trim, htrim,
      List.append_assoc, String.toList_ofList, String.toList_ofList,
      List.rdropWhile_append_rtakeWhile, List.takeWhile_append_dropWhile]
  · rw [allBlank, String.toList_ofList, List.all_eq_true]
    exact fun c => List.mem_takeWhile_imp
  · rw [allBlank, String.toList_ofList, List.all_eq_true]
    exact fun c => List.mem_rtakeWhile_imp

/-- A text is trimmed to nothing if it is blank, and only then. -/
theorem trim_eq_empty_iff {s : String} : trim s = "" ↔ allBlank s = true := by
  rw [← String.toList_inj, toList_trim, trimChars, allBlank, List.all_eq_true]
  simp only [String.toList_empty, List.reverse_eq_nil_iff, List.dropWhile_eq_nil_iff,
    List.mem_reverse]
  constructor
  · intro h c hc
    rw [← List.takeWhile_append_dropWhile (p := isBlank) (l := s.toList)] at hc
    rcases List.mem_append.1 hc with hc | hc
    · exact List.mem_takeWhile_imp hc
    · exact h c hc
  · intro h c hc
    exact h c (List.dropWhile_subset _ hc)

theorem rdropWhile_append {p : Char → Bool} (cs ds : List Char) :
    (cs ++ ds).rdropWhile p =
      if ds.rdropWhile p = [] then cs.rdropWhile p else cs ++ ds.rdropWhile p := by
  unfold List.rdropWhile
  rw [List.reverse_append, List.dropWhile_append]
  by_cases h : ds.reverse.dropWhile p = []
  · simp [h]
  · simp [h]

theorem trimChars_concat {c : Char} (hc : isBlank c = true) (cs : List Char) :
    trimChars (cs ++ [c]) = trimChars cs := by
  unfold trimChars
  rw [List.dropWhile_append]
  split
  · next h => simp [List.isEmpty_iff.1 h, hc]
  · rw [List.reverse_append, List.reverse_singleton, List.singleton_append,
      List.dropWhile_cons_of_pos hc]

theorem trimmed_append {s t u : String} (hs : s ≠ "") (hu : u ≠ "") (hst : Trimmed s)
    (hut : Trimmed u) : Trimmed (s ++ t ++ u) := by
  have hs' : s.toList ≠ [] := by simpa using hs
  have hu' : u.toList ≠ [] := by simpa using hu
  unfold Trimmed
  rw [String.toList_append, String.toList_append, List.getLast?_append_of_ne_nil _ hu',
    List.append_assoc, List.head?_append_of_ne_nil _ hs']
  exact ⟨hst.1, hut.2⟩

/-! ## Pieces -/

/-- Texts joined with a character between them. -/
def join (d : Char) (parts : List String) : String := (String.singleton d).intercalate parts

theorem toList_join (d : Char) (parts : List String) :
    (join d parts).toList = [d].intercalate (parts.map String.toList) := by
  simp [join, String.toList_intercalate]

theorem join_cons_cons (d : Char) (s t : String) (parts : List String) :
    join d (s :: t :: parts) = s ++ String.singleton d ++ join d (t :: parts) :=
  String.intercalate_cons_cons

theorem join_ne_empty {d : Char} {parts : List String} (hne : parts ≠ []) (h : ∀ s ∈ parts, s ≠ "") :
    join d parts ≠ "" := by
  obtain ⟨s, rest, rfl⟩ := List.exists_cons_of_ne_nil hne
  have hs : s ≠ "" := h s (List.mem_cons_self ..)
  cases rest with
  | nil => simpa [join] using hs
  | cons t rest =>
    rw [join_cons_cons, ← String.toList_inj.ne]
    simp [hs]

theorem trimmed_join {d : Char} {parts : List String} (hne : parts ≠ [])
    (h : ∀ s ∈ parts, s ≠ "" ∧ Trimmed s) : Trimmed (join d parts) := by
  induction parts with
  | nil => exact absurd rfl hne
  | cons s rest ih =>
    obtain ⟨hs, hst⟩ := h s (List.mem_cons_self ..)
    have hrest : ∀ t ∈ rest, t ≠ "" ∧ Trimmed t := fun t ht => h t (List.mem_cons_of_mem _ ht)
    cases rest with
    | nil => simpa [join] using hst
    | cons t rest =>
      rw [join_cons_cons]
      exact trimmed_append hs (join_ne_empty (by simp) fun u hu => (hrest u hu).1) hst
        (ih (by simp) hrest)

theorem pieces_join {d : Char} {parts : List String} (h : ∀ s ∈ parts, d ∉ s.toList)
    (hne : parts ≠ []) : pieces d (join d parts) = parts := by
  unfold pieces
  rw [toList_join, List.splitOn_intercalate d (by simpa using h) (by simpa using hne)]
  simp

theorem pieces_append (d : Char) (s t : String) :
    pieces d (s ++ String.singleton d ++ t) = pieces d s ++ pieces d t := by
  unfold pieces
  rw [String.toList_append, String.toList_append, String.toList_singleton, List.append_assoc,
    List.singleton_append, List.splitOn_append_cons_self, List.map_append]

theorem ofList_append_cons (cs : List Char) (d : Char) (ds : List Char) :
    String.ofList (cs ++ d :: ds) = String.ofList cs ++ String.singleton d ++ String.ofList ds := by
  rw [← String.toList_inj]
  simp

theorem forall_mem_splitOn (d : Char) (cs : List Char) :
    ∀ part ∈ cs.splitOn d, d ∉ part ∧ ∀ c ∈ part, c ∈ cs := by
  induction cs with
  | nil => simp
  | cons a cs ih =>
    rw [List.splitOn_cons_eq_if_modifyHead]
    split
    · intro part hp
      rcases List.mem_cons.1 hp with rfl | hp
      · simp
      · exact ⟨(ih part hp).1, fun c hc => List.mem_cons_of_mem _ ((ih part hp).2 c hc)⟩
    · next ha =>
      obtain ⟨first, rest, hs⟩ := List.exists_cons_of_ne_nil (List.splitOn_ne_nil d cs)
      rw [hs] at ih ⊢
      rw [List.modifyHead_cons]
      intro part hp
      rcases List.mem_cons.1 hp with rfl | hp
      · have := ih first (List.mem_cons_self ..)
        have hda : d ≠ a := fun e => ha (beq_iff_eq.2 e.symm)
        exact ⟨List.not_mem_cons_of_ne_of_not_mem hda this.1,
          fun c hc => List.mem_cons.2 ((List.mem_cons.1 hc).imp_right (this.2 c))⟩
      · have := ih part (List.mem_cons_of_mem _ hp)
        exact ⟨this.1, fun c hc => List.mem_cons_of_mem _ (this.2 c hc)⟩

theorem not_mem_of_mem_pieces {d : Char} {s part : String} (h : part ∈ pieces d s) :
    d ∉ part.toList := by
  obtain ⟨cs, hcs, rfl⟩ := List.mem_map.1 h
  rw [String.toList_ofList]
  exact (forall_mem_splitOn d _ cs hcs).1

theorem mem_of_mem_pieces {d c : Char} {s part : String} (h : part ∈ pieces d s)
    (hc : c ∈ part.toList) : c ∈ s.toList := by
  obtain ⟨cs, hcs, rfl⟩ := List.mem_map.1 h
  rw [String.toList_ofList] at hc
  exact (forall_mem_splitOn d _ cs hcs).2 c hc

/-! ## Cutting once -/

theorem cutAt?_append {p : Char → Bool} {s : String} (hs : ∀ c ∈ s.toList, p c = false) {d : Char}
    (hd : p d = true) (t : String) : cutAt? p (s ++ String.singleton d ++ t) = some (s, t) := by
  have hall : ∀ c ∈ s.toList, (!p c) = true := by simpa using hs
  unfold cutAt?
  simp only [String.toList_append, String.toList_singleton, List.append_assoc,
    List.dropWhile_append_of_pos hall, List.takeWhile_append_of_pos hall]
  simp [hd]

theorem cutAt?_eq_none {p : Char → Bool} {s : String} (h : ∀ c ∈ s.toList, p c = false) :
    cutAt? p s = none := by
  have hdrop : s.toList.dropWhile (fun c => !p c) = [] :=
    List.dropWhile_eq_nil_iff.2 fun c hc => by rw [h c hc]; rfl
  unfold cutAt?
  rw [hdrop]

/-- A text is cut at the first character in the class. -/
theorem cutAt?_eq_some {p : Char → Bool} {s : String} {e : String × String} (h : cutAt? p s = some e) :
    ∃ d, s = e.1 ++ String.singleton d ++ e.2 ∧ p d = true ∧ ∀ c ∈ e.1.toList, p c = false := by
  unfold cutAt? at h
  split at h
  · contradiction
  · next d rest hd =>
    cases h
    have hall := List.takeWhile_append_dropWhile (p := fun c => !p c) (l := s.toList)
    have hstop := List.head?_dropWhile_not (fun c => !p c) s.toList
    rw [hd] at hall hstop
    refine ⟨d, ?_, by simpa using hstop, fun c hc => ?_⟩
    · rw [← ofList_append_cons, hall, String.ofList_toList]
    · rw [String.toList_ofList] at hc
      simpa using List.mem_takeWhile_imp hc

theorem mem_of_cutAt? {p : Char → Bool} {s : String} {e : String × String} (h : cutAt? p s = some e)
    {c : Char} (hc : c ∈ e.1.toList ∨ c ∈ e.2.toList) : c ∈ s.toList := by
  obtain ⟨d, hs, -, -⟩ := cutAt?_eq_some h
  rw [hs, String.toList_append, String.toList_append, List.append_assoc]
  exact hc.elim (List.mem_append_left _) fun hc =>
    List.mem_append_right _ (List.mem_append_right _ hc)

end BlockShell.Text
