import BlockShell.Proofs.Arguments.Writing

/-!
# Tokens

The tokens of a text are its pieces at the delimiter, and those that are pairs give the arguments
(`ofTokens`).  `Immaterial` lists what may be done to tokens of which only some fields count:
`Immaterial.agreeOn` says that these fields keep what they are given as.  Blanks at the end of a text
give no pair and change none (`pairs_rdropWhile`).
-/

namespace BlockShell.Arguments

/-! ## Blanks at the end -/

theorem pair?_of_not_mem {token : String} (h : '=' ∉ token.toList) : pair? token = none := by
  rw [pair?, Text.cutAt?_eq_none (ne_equals h), Option.map_none]

/-- A blank at the end of a token is no part of the pair. -/
theorem pair?_concat {c : Char} (hc : Text.isBlank c = true) (cs : List Char) :
    pair? (String.ofList (cs ++ [c])) = pair? (String.ofList cs) := by
  have hce : '=' ≠ c := by
    rintro rfl
    cases hc
  by_cases h : '=' ∈ cs
  · obtain ⟨key, value, rfl, hkey⟩ := List.eq_append_cons_of_mem h
    have hcut (tail : List Char) : pair? (String.ofList (key ++ '=' :: tail)) =
        some (Text.trim (String.ofList key), Text.trim (String.ofList tail)) := by
      rw [Text.ofList_append_cons, pair?_append (by simpa using hkey)]
    rw [List.append_assoc, List.cons_append, hcut, hcut]
    unfold Text.trim
    rw [String.toList_ofList, String.toList_ofList, String.toList_ofList, Text.trimChars_concat hc]
  · rw [pair?_of_not_mem (by simp [h, hce]), pair?_of_not_mem (by simpa using h)]

/-- The pairs among the pieces of a text. -/
def pairs (d : Char) (cs : List Char) : List (String × String) :=
  (Text.pieces d (String.ofList cs)).filterMap pair?

theorem pairs_append (d : Char) (cs ds : List Char) :
    pairs d (cs ++ d :: ds) = pairs d cs ++ pairs d ds := by
  rw [pairs, Text.ofList_append_cons, Text.pieces_append, List.filterMap_append]
  rfl

theorem pairs_of_not_mem {d : Char} {cs : List Char} (h : d ∉ cs) :
    pairs d cs = (pair? (String.ofList cs)).toList := by
  unfold pairs Text.pieces
  rw [String.toList_ofList, List.splitOn_eq_singleton h]
  cases hpair : pair? (String.ofList cs) <;> simp [hpair]

/-- A blank at the end of a text is no part of a pair.  If it is the delimiter, an empty piece is added,
and else the last piece grows. -/
theorem pairs_concat (d : Char) {c : Char} (hc : Text.isBlank c = true) (cs : List Char) :
    pairs d (cs ++ [c]) = pairs d cs := by
  by_cases hd : d = c
  · subst hd
    exact (pairs_append d cs []).trans (List.append_nil _)
  induction hn : cs.length using Nat.strong_induction_on generalizing cs with
  | _ n ih =>
    by_cases h : d ∈ cs
    · obtain ⟨before, after, rfl, -⟩ := List.eq_append_cons_of_mem h
      have hlt : after.length < n := by
        rw [← hn, List.length_append, List.length_cons]
        omega
      rw [List.append_assoc, List.cons_append, pairs_append, pairs_append, ih _ hlt after rfl]
    · rw [pairs_of_not_mem h, pairs_of_not_mem (by simp [h, hd]), pair?_concat hc]

theorem pairs_rdropWhile (d : Char) (cs : List Char) :
    pairs d (cs.rdropWhile Text.isBlank) = pairs d cs := by
  induction cs using List.reverseRecOn with
  | nil => rfl
  | append_singleton cs c ih =>
    by_cases hc : Text.isBlank c = true
    · rw [List.rdropWhile_concat_pos _ _ _ hc, ih, pairs_concat d hc]
    · rw [List.rdropWhile_concat_neg _ _ _ hc]

/-! ## Arguments from tokens -/

/-- The key of a token, if the token is a pair. -/
def key? (token : String) : Option String := (pair? token).map Prod.fst

/-- The arguments that tokens give. -/
def ofTokens (tokens : List String) : Arguments := Table.ofList (tokens.filterMap pair?)

/-- Both give the same for certain fields, or both nothing. -/
def AgreeOn (fields : List String) (args args' : Arguments) : Prop :=
  ∀ field ∈ fields, args.get? field = args'.get? field

instance (fields : List String) (args args' : Arguments) : Decidable (AgreeOn fields args args') :=
  inferInstanceAs (Decidable (∀ field ∈ fields, args.get? field = args'.get? field))

/-- What may be done to tokens if only certain fields count. -/
inductive Immaterial (fields : List String) : List String → List String → Prop where
  /-- The order is changed, and no two pairs have the same key. -/
  | reorder {tokens tokens' : List String} (order : tokens.Perm tokens')
      (distinct : (tokens.filterMap key?).Nodup) : Immaterial fields tokens tokens'
  /-- A token that is no pair is inserted. -/
  | bare {token : String} (before after : List String) (bare : '=' ∉ token.toList) :
      Immaterial fields (before ++ after) (before ++ token :: after)
  /-- A pair with the key of a field that does not count is inserted. -/
  | foreign {token key : String} (before after : List String) (pair : key? token = some key)
      (foreign : key ∉ fields) : Immaterial fields (before ++ after) (before ++ token :: after)
  /-- There are more or fewer spaces between the tokens. -/
  | spaces {tokens tokens' : List String}
      (same : tokens.filter (· ≠ "") = tokens'.filter (· ≠ "")) : Immaterial fields tokens tokens'
  /-- A pair is inserted before another one with its key. -/
  | shadowed {token later key : String} (before between after : List String)
      (pair : key? token = some key) (again : key? later = some key) :
      Immaterial fields (before ++ (between ++ later :: after))
        (before ++ token :: (between ++ later :: after))

theorem key?_eq_some_iff {token key : String} :
    key? token = some key ↔ ∃ value, pair? token = some (key, value) := by
  rw [key?, Option.map_eq_some_iff]
  constructor
  · rintro ⟨⟨_, value⟩, hpair, rfl⟩
    exact ⟨value, hpair⟩
  · rintro ⟨value, hpair⟩
    exact ⟨_, hpair, rfl⟩

theorem map_fst_filterMap_pair? (tokens : List String) :
    (tokens.filterMap pair?).map Prod.fst = tokens.filterMap key? :=
  List.map_filterMap

theorem filterMap_insert {token : String} {e : String × String} (h : pair? token = some e)
    (before after : List String) : (before ++ token :: after).filterMap pair? =
      before.filterMap pair? ++ e :: after.filterMap pair? := by
  rw [List.filterMap_append, List.filterMap_cons_some h]

theorem ofTokens_perm {tokens tokens' : List String} (order : tokens.Perm tokens')
    (distinct : (tokens.filterMap key?).Nodup) : ofTokens tokens = ofTokens tokens' := by
  refine Table.ofList_perm (order.filterMap pair?) ?_
  rwa [map_fst_filterMap_pair?]

theorem ofTokens_insert_bare {token : String} (h : '=' ∉ token.toList) (before after : List String) :
    ofTokens (before ++ token :: after) = ofTokens (before ++ after) := by
  unfold ofTokens
  rw [List.filterMap_append, List.filterMap_cons_none (pair?_of_not_mem h), ← List.filterMap_append]

theorem get?_ofTokens_insert {token key field : String} (h : key? token = some key) (hne : field ≠ key)
    (before after : List String) :
    (ofTokens (before ++ token :: after)).get? field = (ofTokens (before ++ after)).get? field := by
  obtain ⟨value, hpair⟩ := key?_eq_some_iff.1 h
  unfold ofTokens
  rw [filterMap_insert hpair, Table.get?_ofList_insert_of_ne hne, ← List.filterMap_append]

theorem ofTokens_filter (tokens : List String) :
    ofTokens (tokens.filter (· ≠ "")) = ofTokens tokens := by
  unfold ofTokens
  rw [List.filterMap_filter]
  congr 1
  refine List.filterMap_congr fun token _ => ?_
  by_cases h : token = ""
  · subst h
    rfl
  · simp [h]

theorem ofTokens_shadowed {token key : String} (h : key? token = some key)
    {before after : List String} (again : key ∈ after.filterMap key?) :
    ofTokens (before ++ token :: after) = ofTokens (before ++ after) := by
  obtain ⟨value, hpair⟩ := key?_eq_some_iff.1 h
  unfold ofTokens
  rw [filterMap_insert hpair, Table.ofList_insert_of_mem (by rwa [map_fst_filterMap_pair?]),
    ← List.filterMap_append]

/-- What is done changes nothing for the fields that count. -/
theorem Immaterial.agreeOn {fields tokens tokens' : List String} (h : Immaterial fields tokens tokens') :
    AgreeOn fields (ofTokens tokens) (ofTokens tokens') := by
  intro field hfield
  cases h with
  | reorder order distinct => rw [ofTokens_perm order distinct]
  | bare before after bare => rw [ofTokens_insert_bare bare]
  | foreign before after pair foreign =>
    rw [get?_ofTokens_insert pair (ne_of_mem_of_not_mem hfield foreign)]
  | spaces same => rw [← ofTokens_filter tokens, same, ofTokens_filter]
  | shadowed before between after pair again =>
    rw [ofTokens_shadowed pair]
    exact List.mem_filterMap.2 ⟨_, List.mem_append_right _ (List.mem_cons_self ..), again⟩

end BlockShell.Arguments
