import BlockShell.Session
import Mathlib.Data.List.Basic

/-!
# The lines of a script

How a script is cut into lines (`Bytes.CutInto`): after each line feed, which is dropped with one
carriage return before it, and there is no line after a line feed at the end.  There is one way to cut
a script (`Bytes.cutInto_iff`).  A line is a text if it is the encoding of that text, and the lines of
a text are texts (`Bytes.exists_text_of_mem_lines`).

The raw lines of a script still have what ends them, so that the script is put together from them; any
of them put together are cut into what they hold (`Bytes.lines_flatten`).
-/

namespace BlockShell

/-! ## Cutting -/

/-- A script and the lines that it is cut into. -/
inductive Bytes.CutInto : Bytes → List Bytes → Prop
  | nil : CutInto [] []
  | last {line : Bytes} : line ≠ [] → 10 ∉ line → CutInto line [line]
  | feed {line rest : Bytes} {lines : List Bytes} : 10 ∉ line → line.getLast? ≠ some 13 →
      CutInto rest lines → CutInto (line ++ 10 :: rest) (line :: lines)
  | returnFeed {line rest : Bytes} {lines : List Bytes} : 10 ∉ line →
      CutInto rest lines → CutInto (line ++ 13 :: 10 :: rest) (line :: lines)

theorem dropReturn_of_ne {line : Bytes} (h : line.getLast? ≠ some 13) : dropReturn line = line :=
  if_neg h

theorem dropReturn_append (line : Bytes) : dropReturn (line ++ [13]) = line := by
  unfold dropReturn
  simp

namespace Bytes

variable {script line rest : Bytes} {lines : List Bytes}

theorem lines_of_not_mem (h : 10 ∉ line) (hne : line ≠ []) : line.lines = [line] := by
  unfold Bytes.lines
  rw [List.splitOn_eq_singleton h]
  simp [hne]

theorem lines_append (h : 10 ∉ line) :
    Bytes.lines (line ++ 10 :: rest) = dropReturn line :: rest.lines := by
  obtain ⟨first, pieces, hpieces⟩ :=
    List.exists_cons_of_ne_nil (List.splitOn_ne_nil (10 : UInt8) rest)
  unfold Bytes.lines
  rw [List.splitOn_append_cons_self_of_not_mem h, hpieces]
  simp

theorem CutInto.lines_eq (h : script.CutInto lines) : script.lines = lines := by
  induction h with
  | nil => rfl
  | last hne h => exact lines_of_not_mem h hne
  | feed h hreturn _ ih => rw [lines_append h, dropReturn_of_ne hreturn, ih]
  | @returnFeed line rest lines h _ ih =>
    have hassoc : line ++ 13 :: 10 :: rest = (line ++ [13]) ++ 10 :: rest := by simp
    rw [hassoc, lines_append (by simpa using h), dropReturn_append, ih]

/-- No line holds a line feed. -/
theorem CutInto.not_mem (h : script.CutInto lines) : ∀ line ∈ lines, 10 ∉ line := by
  induction h with
  | nil => exact fun _ hline => absurd hline List.not_mem_nil
  | last _ h => exact List.forall_mem_singleton.2 h
  | feed h _ _ ih => exact List.forall_mem_cons.2 ⟨h, ih⟩
  | returnFeed h _ ih => exact List.forall_mem_cons.2 ⟨h, ih⟩

theorem cutInto_lines (script : Bytes) : script.CutInto script.lines := by
  -- What follows the first line feed is shorter, by the line as well as by the line feed.
  induction hlength : script.length using Nat.strongRecOn generalizing script with
  | _ n ih =>
    by_cases hfeed : 10 ∈ script
    · obtain ⟨line, rest, rfl, h⟩ := List.eq_append_cons_of_mem hfeed
      have hrest : rest.length < n := by
        rw [List.length_append, List.length_cons] at hlength
        omega
      rw [lines_append h]
      by_cases hreturn : line.getLast? = some 13
      · obtain ⟨line, rfl⟩ := List.getLast?_eq_some_iff.1 hreturn
        rw [dropReturn_append, List.append_assoc]
        exact .returnFeed (fun hmem => h (List.mem_append_left _ hmem)) (ih _ hrest rest rfl)
      · rw [dropReturn_of_ne hreturn]
        exact .feed h hreturn (ih _ hrest rest rfl)
    · by_cases hne : script = []
      · subst hne
        exact .nil
      · rw [lines_of_not_mem hfeed hne]
        exact .last hne hfeed

theorem cutInto_iff : script.CutInto lines ↔ script.lines = lines :=
  ⟨CutInto.lines_eq, fun h => h ▸ cutInto_lines script⟩

/-! ## Texts -/

/-- The bytes that encode a text in UTF-8. -/
def ofText (text : String) : Bytes := text.toUTF8.data.toList

theorem text?_eq_some_iff {text : String} : line.text? = some text ↔ line = ofText text := by
  unfold text? ofText String.fromUTF8?
  constructor
  · intro h
    split at h
    · cases h
      show line = line.toByteArray.data.toList
      rw [List.data_toByteArray]
    · cases h
  · rintro rfl
    have hbytes : text.toUTF8.data.toList.toByteArray = text.toUTF8 := by
      apply ByteArray.ext
      simp
    rw [hbytes]
    exact dif_pos text.isValidUTF8

theorem text?_ofText (text : String) : (ofText text).text? = some text := text?_eq_some_iff.2 rfl

theorem text?_eq_none_iff : line.text? = none ↔ ∀ text, line ≠ ofText text := by
  rw [Option.eq_none_iff_forall_ne_some]
  exact forall_congr' fun text => not_congr text?_eq_some_iff

/-! ## Lines of a text -/

/-- A byte below 128 only encodes the character with its number. -/
theorem toNat_eq_of_mem_encoding {b : UInt8} {c : Char} (hb : b.toNat < 128)
    (h : b ∈ String.utf8EncodeChar c) : c.toNat = b.toNat := by
  have hhigh (n : Nat) (hlow : 128 ≤ n) (hhigh : n < 256) : b ≠ UInt8.ofNat n := by
    rintro rfl
    rw [UInt8.toNat_ofNat'] at hb
    omega
  unfold String.utf8EncodeChar at h
  show c.val.toNat = b.toNat
  dsimp only at h
  -- The bytes of a longer encoding are 128 and above.
  split_ifs at h with h₁ h₂ h₃
  · rw [List.mem_singleton.1 h, UInt8.toNat_ofNat']
    omega
  · simp only [List.mem_cons, List.not_mem_nil, or_false] at h
    rcases h with h | h <;> exact absurd h (hhigh _ (by omega) (by omega))
  · simp only [List.mem_cons, List.not_mem_nil, or_false] at h
    rcases h with h | h | h <;> exact absurd h (hhigh _ (by omega) (by omega))
  · simp only [List.mem_cons, List.not_mem_nil, or_false] at h
    rcases h with h | h | h | h <;> exact absurd h (hhigh _ (by omega) (by omega))

theorem eq_newline_of_mem {c : Char} (h : 10 ∈ String.utf8EncodeChar c) : c = '\n' :=
  Char.toNat_inj.1 (toNat_eq_of_mem_encoding (by decide) h)

theorem eq_return_of_mem {c : Char} (h : 13 ∈ String.utf8EncodeChar c) : c = '\r' :=
  Char.toNat_inj.1 (toNat_eq_of_mem_encoding (by decide) h)

/-- The bytes that encode characters in UTF-8. -/
def ofChars (cs : List Char) : Bytes := cs.flatMap String.utf8EncodeChar

theorem ofText_eq_ofChars (text : String) : ofText text = ofChars text.toList := by
  unfold ofText ofChars
  rw [String.toUTF8_eq_toByteArray, ← String.utf8Encode_toList, List.utf8Encode, List.data_toByteArray]

theorem ofChars_eq_ofText (cs : List Char) : ofChars cs = ofText (String.ofList cs) := by
  rw [ofText_eq_ofChars, String.toList_ofList]

theorem not_mem_ofChars {cs : List Char} (h : '\n' ∉ cs) : 10 ∉ ofChars cs := by
  intro hmem
  obtain ⟨c, hc, hb⟩ := List.mem_flatMap.1 hmem
  exact h (eq_newline_of_mem hb ▸ hc)

theorem newline_not_mem {text : String} (h : 10 ∉ ofText text) : '\n' ∉ text.toList := by
  intro hmem
  rw [ofText_eq_ofChars] at h
  exact h (List.mem_flatMap.2 ⟨'\n', hmem, by decide⟩)

/-- What is left of a text without the carriage return at its end is a text. -/
theorem exists_dropReturn_ofChars (cs : List Char) :
    ∃ text, dropReturn (ofChars cs) = ofText text := by
  by_cases hreturn : (ofChars cs).getLast? = some 13
  · rcases List.eq_nil_or_concat' cs with rfl | ⟨cs, c, rfl⟩
    · cases hreturn
    · have happend : ofChars (cs ++ [c]) = ofChars cs ++ String.utf8EncodeChar c := by
        simp [ofChars]
      rw [happend, List.getLast?_append_of_ne_nil _ String.utf8EncodeChar_ne_nil] at hreturn
      obtain rfl := eq_return_of_mem (List.mem_of_getLast? hreturn)
      have hcode : String.utf8EncodeChar '\r' = [13] := by decide
      rw [happend, hcode, dropReturn_append]
      exact ⟨_, ofChars_eq_ofText cs⟩
  · rw [dropReturn_of_ne hreturn]
    exact ⟨_, ofChars_eq_ofText cs⟩

/-- The lines of a text are texts. -/
theorem exists_text_of_mem_lines {text : String} {line : Bytes} (h : line ∈ (ofText text).lines) :
    ∃ t, line = ofText t := by
  rw [ofText_eq_ofChars] at h
  generalize text.toList = cs at h
  -- What follows the first line feed is shorter.
  induction hlength : cs.length using Nat.strongRecOn generalizing cs with
  | _ n ih =>
    by_cases hfeed : '\n' ∈ cs
    · obtain ⟨first, rest, rfl, hno⟩ := List.eq_append_cons_of_mem hfeed
      have hcode : String.utf8EncodeChar '\n' = [10] := by decide
      have happend : ofChars (first ++ '\n' :: rest) = ofChars first ++ 10 :: ofChars rest := by
        simp [ofChars, hcode]
      rw [happend, lines_append (not_mem_ofChars hno)] at h
      rcases List.mem_cons.1 h with rfl | h
      · exact exists_dropReturn_ofChars first
      · rw [List.length_append, List.length_cons] at hlength
        exact ih rest.length (by omega) rest h rfl
    · by_cases hne : ofChars cs = []
      · rw [hne] at h
        cases h
      · rw [lines_of_not_mem (not_mem_ofChars hfeed) hne, List.mem_singleton] at h
        exact ⟨_, h.trans (ofChars_eq_ofText cs)⟩

theorem exists_texts (text : String) :
    ∃ texts : List String, (ofText text).lines = texts.map .ofText := by
  have hall : ∀ line ∈ (ofText text).lines, ∃ t, line = ofText t :=
    fun line => exists_text_of_mem_lines
  generalize (ofText text).lines = lines at hall
  induction lines with
  | nil => exact ⟨[], rfl⟩
  | cons line lines ih =>
    obtain ⟨⟨t, rfl⟩, hrest⟩ := List.forall_mem_cons.1 hall
    obtain ⟨texts, rfl⟩ := ih hrest
    exact ⟨t :: texts, rfl⟩

/-! ## Lines with what ends them -/

/-- The lines of a script, each with the line feed that ends it, if one does. -/
def rawLines : Bytes → List Bytes
  | [] => []
  | b :: rest =>
    if b = 10 then [b] :: rawLines rest
    else
      match rawLines rest with
      | [] => [[b]]
      | line :: lines => (b :: line) :: lines

/-- A raw line without what ends it. -/
def content (raw : Bytes) : Bytes := if raw.getLast? = some 10 then dropReturn raw.dropLast else raw

/-- Raw lines of some script: only the last one may end without a line feed. -/
structure AreRaw (raws : List Bytes) : Prop where
  raw : ∀ raw ∈ raws, raw ≠ [] ∧ 10 ∉ raw.dropLast
  ended : raws.Pairwise fun raw _ => raw.getLast? = some 10

theorem AreRaw.sublist {raws raws' : List Bytes} (h : AreRaw raws) (hsub : raws'.Sublist raws) :
    AreRaw raws' :=
  ⟨fun raw hraw => h.raw raw (hsub.subset hraw), h.ended.sublist hsub⟩

theorem flatten_rawLines (script : Bytes) : script.rawLines.flatten = script := by
  fun_induction rawLines script with
  | case1 => rfl
  | case2 rest ih => simp [ih]
  | case3 b rest hb hnil ih =>
    rw [hnil] at ih
    simp [← ih]
  | case4 b rest hb line lines hcons ih =>
    rw [hcons] at ih
    simp [← ih]

theorem length_rawLines_le (script : Bytes) : script.rawLines.length ≤ script.length := by
  fun_induction rawLines script with
  | case1 => exact Nat.le_refl _
  | case2 rest ih => exact Nat.succ_le_succ ih
  | case3 b rest hb hnil ih => exact Nat.succ_le_succ (Nat.zero_le _)
  | case4 b rest hb line lines hcons ih =>
    rw [hcons] at ih
    exact Nat.le_succ_of_le ih

theorem areRaw_rawLines (script : Bytes) : AreRaw script.rawLines := by
  fun_induction rawLines script with
  | case1 => exact ⟨nofun, .nil⟩
  | case2 rest ih =>
    refine ⟨List.forall_mem_cons.2 ⟨by simp, ih.raw⟩, List.pairwise_cons.2 ⟨fun _ _ => rfl, ih.ended⟩⟩
  | case3 b rest hb hnil ih => exact ⟨by simp, by simp⟩
  | case4 b rest hb line lines hcons ih =>
    rw [hcons] at ih
    obtain ⟨hraw, hended⟩ := ih
    obtain ⟨⟨hne, hno⟩, hraws⟩ := List.forall_mem_cons.1 hraw
    obtain ⟨hfirst, hrest⟩ := List.pairwise_cons.1 hended
    refine ⟨List.forall_mem_cons.2 ⟨⟨nofun, ?_⟩, hraws⟩, List.pairwise_cons.2 ⟨?_, hrest⟩⟩
    · rw [List.dropLast_cons_of_ne_nil hne]
      simp [hno, Ne.symm hb]
    · intro raw hmem
      rw [List.getLast?_cons_of_ne_nil hne]
      exact hfirst raw hmem

/-- Raw lines are cut into what they hold. -/
theorem lines_flatten {raws : List Bytes} (h : AreRaw raws) :
    Bytes.lines raws.flatten = raws.map content := by
  induction raws with
  | nil => rfl
  | cons raw raws ih =>
    obtain ⟨⟨hne, hno⟩, hraws⟩ := List.forall_mem_cons.1 h.raw
    obtain ⟨hfirst, hended⟩ := List.pairwise_cons.1 h.ended
    have hrest := ih ⟨hraws, hended⟩
    rw [List.flatten_cons, List.map_cons, ← hrest]
    by_cases hfeed : raw.getLast? = some 10
    · obtain ⟨line, rfl⟩ := List.getLast?_eq_some_iff.1 hfeed
      rw [List.dropLast_concat] at hno
      have happend : line ++ [10] ++ raws.flatten = line ++ 10 :: raws.flatten := by simp
      rw [happend, lines_append hno, content, if_pos hfeed, List.dropLast_concat]
    · -- A raw line that does not end in a line feed is the last one.
      have hnil : raws = [] := List.eq_nil_iff_forall_not_mem.2 fun raw' hmem => hfeed (hfirst raw' hmem)
      subst hnil
      have hmem : 10 ∉ raw := by
        intro hmem
        rw [← List.dropLast_concat_getLast hne, List.mem_append, List.mem_singleton] at hmem
        exact hmem.elim hno fun h => hfeed (by rw [List.getLast?_eq_some_getLast hne, h])
      rw [List.flatten_nil, List.append_nil, lines_of_not_mem hmem hne, content, if_neg hfeed]
      rfl

end Bytes

end BlockShell
