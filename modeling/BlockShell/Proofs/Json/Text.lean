import BlockShell.Json.Printer
import BlockShell.Json.Reader
import BlockShell.Proofs.Json.Literal
import BlockShell.Proofs.Json.Number

/-!
# JSON text is read as it is written

Tokens may be written in several ways and with any blanks around them (`Spells`), and are read however
they are written (`list?_of_spells`).  The reader takes the tokens of a value from its start to its
end, whatever is around (`run_tokens`), so the value is read from any such text (`read?_of_spells`).
One of them is the text of the value, if its strings have text and its numbers are literals
(`spells_pretty`).
-/

namespace BlockShell.Json

/-! ## Values and their tokens -/

mutual

/-- A value with text in every string and a literal in every number. -/
def Written : Json → Prop
  | null | bool _ => True
  | number n => n.IsLiteral
  | string s => s.isSome
  | array items => AreWritten items
  | object members => MembersWritten members

/-- All items are written. -/
def AreWritten : List Json → Prop
  | [] => True
  | item :: items => item.Written ∧ AreWritten items

/-- All members are written and their keys have text. -/
def MembersWritten : List (Text × Json) → Prop
  | [] => True
  | (key, value) :: members => key.isSome ∧ value.Written ∧ MembersWritten members

end

mutual

/-- The tokens of a value. -/
def tokens : Json → List Token
  | null => [.null]
  | bool b => [.bool b]
  | number n => [.number n]
  | string s => [.string s]
  | array [] => [.openArray, .closeArray]
  | array (item :: items) => .openArray :: tokens item ++ itemTokens items ++ [.closeArray]
  | object [] => [.openObject, .closeObject]
  | object ((key, value) :: members) =>
    .openObject :: .string key :: .colon :: tokens value ++ memberTokens members ++ [.closeObject]

/-- The tokens of items that follow another one. -/
def itemTokens : List Json → List Token
  | [] => []
  | item :: items => .comma :: tokens item ++ itemTokens items

/-- The tokens of members that follow another one. -/
def memberTokens : List (Text × Json) → List Token
  | [] => []
  | (key, value) :: members => .comma :: .string key :: .colon :: tokens value ++ memberTokens members

end

/-! ## Texts and their tokens -/

namespace Token

/-- The ways of writing a token. -/
inductive IsText : Token → List Char → Prop
  | openArray : IsText openArray ['[']
  | closeArray : IsText closeArray [']']
  | openObject : IsText openObject ['\x7b']
  | closeObject : IsText closeObject ['\x7d']
  | comma : IsText comma [',']
  | colon : IsText colon [':']
  | null : IsText null ['n', 'u', 'l', 'l']
  | bool_true : IsText (bool true) ['t', 'r', 'u', 'e']
  | bool_false : IsText (bool false) ['f', 'a', 'l', 's', 'e']
  | number {n : Number} (h : n.IsLiteral) : IsText (number n) n.chars
  | string {s : String} {body : List Char} (h : Literal.Writes s.toList body) :
      IsText (string (some s)) ('"' :: (body ++ ['"']))

/-- The ways of writing tokens, with any blanks around each of them. -/
inductive Spells : List Token → List Char → Prop
  | nil : Spells [] []
  | space {c : Char} {ts : List Token} {cs : List Char} (hc : isSpace c = true) (h : Spells ts cs) :
      Spells ts (c :: cs)
  | token {t : Token} {text : List Char} {ts : List Token} {cs : List Char} (ht : t.IsText text)
      (h : Spells ts cs) : Spells (t :: ts) (text ++ cs)

/-- Whether a token is a number. -/
def isNumber : Token → Bool
  | number _ => true
  | _ => false

/-- The first token is not a number. -/
def NoNumber (ts : List Token) : Prop := ∀ t ∈ ts.head?, t.isNumber = false

/-- No number stands right behind another one, of which its digits might be taken as a part. -/
def Apart : List Token → Prop
  | [] => True
  | t :: ts => (t.isNumber = true → NoNumber ts) ∧ Apart ts

theorem noNumber_cons (t : Token) (ht : t.isNumber = false) (ts : List Token) :
    NoNumber (t :: ts) := by
  intro u hu
  cases hu
  exact ht

theorem Apart.cons {t : Token} {ts : List Token} (h : Apart ts) (ht : t.isNumber = false) :
    Apart (t :: ts) := ⟨fun hnumber => absurd (ht.symm.trans hnumber) nofun, h⟩

theorem list?_space {c : Char} (hc : isSpace c = true) (rest : List Char) :
    list? (c :: rest) = list? rest := by
  rw [list?, if_pos hc]

theorem list?_token {c : Char} {cs rest : List Char} {t : Token} (hc : isSpace c = false)
    (h : next? (c :: cs) = some (t, rest)) : list? (c :: cs) = (list? rest).map (t :: ·) := by
  rw [list?, if_neg (by simp [hc])]
  split
  · next hnone => simp [h] at hnone
  · next hsome =>
    cases h.symm.trans hsome
    rfl

/-! ### Numbers -/

theorem exists_chars_cons {n : Number} (hn : n.IsLiteral) :
    ∃ c cs, n.chars = c :: cs ∧ (c.isDigit = true ∨ c = '-') := by
  obtain ⟨c, cs, hcs⟩ := List.exists_cons_of_ne_nil hn.whole_ne_nil
  rw [Number.chars_eq]
  cases n.negative with
  | true => exact ⟨_, _, rfl, .inr rfl⟩
  | false => exact ⟨c, _, by rw [hcs]; rfl, .inl (hn.whole c (by simp [hcs]))⟩

theorem next?_number {c : Char} (hc : c.isDigit = true ∨ c = '-') (cs : List Char) :
    next? (c :: cs) = (Number.read? (c :: cs)).map fun p => (.number p.1, p.2) := by
  unfold next?
  split
  case h_11 => rfl
  all_goals
    next h =>
    cases h
    exact absurd hc (by decide)

theorem isSpace_eq_false {c : Char} (hc : c.isDigit = true ∨ c = '-') : isSpace c = false := by
  rw [Bool.eq_false_iff]
  intro h
  simp only [isSpace, Bool.or_eq_true, beq_iff_eq] at h
  rcases h with ((rfl | rfl) | rfl) | rfl <;> exact absurd hc (by decide)

theorem stops_of_isSpace {c : Char} (hc : isSpace c = true) (cs : List Char) :
    Number.Stops (c :: cs) := by
  simp only [isSpace, Bool.or_eq_true, beq_iff_eq] at hc
  rcases hc with ((rfl | rfl) | rfl) | rfl <;> exact Number.stops_cons (by decide)

/-- What does not start with a number may follow one. -/
theorem stops_of_spells {ts : List Token} {cs : List Char} (h : Spells ts cs)
    (hts : NoNumber ts) : Number.Stops cs := by
  cases h with
  | nil => exact Number.stops_nil
  | space hc _ => exact stops_of_isSpace hc _
  | token ht _ =>
    cases ht with
    | number => cases hts _ rfl
    | _ => exact Number.stops_cons (by decide)

/-! ### From text to tokens -/

theorem list?_text {t : Token} {text rest : List Char} (ht : t.IsText text)
    (hrest : t.isNumber = true → Number.Stops rest) :
    list? (text ++ rest) = (list? rest).map (t :: ·) := by
  cases ht with
  | @number n hn =>
    obtain ⟨c, cs, hcs, hc⟩ := exists_chars_cons hn
    have hread := Number.read?_chars hn (hrest rfl)
    rw [hcs] at hread ⊢
    refine list?_token (isSpace_eq_false hc) ?_
    rw [List.append_eq, next?_number hc, ← List.cons_append, hread, Option.map_some]
  | @string s body hbody =>
    refine list?_token (by decide) ?_
    rw [List.append_eq, List.append_assoc, next?]
    simp [Literal.read?_of_writes hbody]
  | _ => exact list?_token (by decide) rfl

/-- However tokens are written, they are read. -/
theorem list?_of_spells {ts : List Token} {cs : List Char} (h : Spells ts cs) (hapart : Apart ts) :
    list? cs = some ts := by
  induction h with
  | nil => rw [list?]
  | space hc _ ih => rw [list?_space hc, ih hapart]
  | token ht h ih =>
    obtain ⟨hnext, hapart⟩ := hapart
    rw [list?_text ht fun hnumber => stops_of_spells h (hnext hnumber), ih hapart]
    rfl

theorem Spells.newline (level : Nat) {ts : List Token} {cs : List Char} (h : Spells ts cs) :
    Spells ts (newline level ++ cs) := by
  refine .space (by decide) ?_
  induction 2 * level with
  | zero => exact h
  | succ n ih => exact .space (by decide) ih

theorem Spells.brace_mem {ts : List Token} {cs : List Char} (h : Spells ts cs)
    (hts : openObject ∈ ts) : '\x7b' ∈ cs := by
  induction h with
  | nil => cases hts
  | space _ _ ih => exact List.mem_cons_of_mem _ (ih hts)
  | token ht _ ih =>
    rcases List.mem_cons.1 hts with rfl | hts
    · cases ht
      exact List.mem_cons_self ..
    · exact List.mem_append_right _ (ih hts)

end Token

open Token (Spells Apart NoNumber)

/-! ### The tokens of a value -/

mutual

theorem apart_tokens : ∀ (v : Json) {rest : List Token}, Apart rest → NoNumber rest →
    Apart (tokens v ++ rest)
  | null, _, h, _ | bool _, _, h, _ | string _, _, h, _ => h.cons rfl
  | number _, _, h, hrest => ⟨fun _ => hrest, h⟩
  | array [], _, h, _ | object [], _, h, _ => (h.cons rfl).cons rfl
  | array (item :: items), rest, h, _ => by
    simp only [tokens, List.cons_append, List.append_assoc, List.nil_append]
    obtain ⟨hitems, hnext⟩ := apart_itemTokens items (h.cons rfl) (Token.noNumber_cons .closeArray rfl rest)
    exact (apart_tokens item hitems hnext).cons rfl
  | object ((key, value) :: members), rest, h, _ => by
    simp only [tokens, List.cons_append, List.append_assoc, List.nil_append]
    obtain ⟨hmembers, hnext⟩ := apart_memberTokens members (h.cons rfl)
      (Token.noNumber_cons .closeObject rfl rest)
    exact (((apart_tokens value hmembers hnext).cons rfl).cons rfl).cons rfl

theorem apart_itemTokens : ∀ (items : List Json) {rest : List Token}, Apart rest → NoNumber rest →
    Apart (itemTokens items ++ rest) ∧ NoNumber (itemTokens items ++ rest)
  | [], _, h, hrest => ⟨h, hrest⟩
  | item :: items, rest, h, hrest => by
    simp only [itemTokens, List.cons_append, List.append_assoc]
    obtain ⟨hitems, hnext⟩ := apart_itemTokens items h hrest
    exact ⟨(apart_tokens item hitems hnext).cons rfl, Token.noNumber_cons _ rfl _⟩

theorem apart_memberTokens : ∀ (members : List (Text × Json)) {rest : List Token}, Apart rest →
    NoNumber rest → Apart (memberTokens members ++ rest) ∧ NoNumber (memberTokens members ++ rest)
  | [], _, h, hrest => ⟨h, hrest⟩
  | (key, value) :: members, rest, h, hrest => by
    simp only [memberTokens, List.cons_append, List.append_assoc]
    obtain ⟨hmembers, hnext⟩ := apart_memberTokens members h hrest
    exact ⟨(((apart_tokens value hmembers hnext).cons rfl).cons rfl).cons rfl,
      Token.noNumber_cons _ rfl _⟩

end

/-! ### The text of a value -/

theorem isText_chars {s : Text} (hs : s.isSome) : (Token.string s).IsText (Literal.chars s) := by
  obtain ⟨s, rfl⟩ := Option.isSome_iff_exists.1 hs
  exact .string (Literal.writes_flatMap_escape s.toList)

/-- A colon and the blank that is written after it. -/
theorem Token.Spells.colon {ts : List Token} {cs : List Char} (h : Spells ts cs) :
    Spells (.colon :: ts) (':' :: ' ' :: cs) := .token .colon (.space (by decide) h)

mutual

theorem spells_charsAt : ∀ {v : Json}, v.Written → ∀ (level : Nat) {ts : List Token}
    {cs : List Char}, Spells ts cs → Spells (tokens v ++ ts) (charsAt level v ++ cs)
  | null, _, _, _, _, h => .token .null h
  | bool true, _, _, _, _, h => .token .bool_true h
  | bool false, _, _, _, _, h => .token .bool_false h
  | number _, hn, _, _, _, h => .token (.number hn) h
  | string _, hs, _, _, _, h => .token (isText_chars hs) h
  | array [], _, _, _, _, h => by
    simp only [charsAt, tokens, List.cons_append, List.nil_append]
    exact .token .openArray (.token .closeArray h)
  | object [], _, _, _, _, h => by
    simp only [charsAt, tokens, List.cons_append, List.nil_append]
    exact .token .openObject (.token .closeObject h)
  | array (item :: items), hv, level, ts, cs, h => by
    simp only [charsAt, tokens, List.cons_append, List.append_assoc, List.nil_append]
    refine .token .openArray (.newline (level + 1) (spells_charsAt hv.1 (level + 1) ?_))
    exact spells_itemChars hv.2 (level + 1) (.newline level (.token .closeArray h))
  | object ((key, value) :: members), hv, level, ts, cs, h => by
    simp only [charsAt, tokens, List.cons_append, List.append_assoc, List.nil_append]
    refine .token .openObject (.newline (level + 1) (.token (isText_chars hv.1) (.colon ?_)))
    exact spells_charsAt hv.2.1 (level + 1) (spells_memberChars hv.2.2 (level + 1)
      (.newline level (.token .closeObject h)))

theorem spells_itemChars : ∀ {items : List Json}, AreWritten items → ∀ (level : Nat)
    {ts : List Token} {cs : List Char}, Spells ts cs →
    Spells (itemTokens items ++ ts) (itemChars level items ++ cs)
  | [], _, _, _, _, h => h
  | item :: items, hv, level, ts, cs, h => by
    simp only [itemChars, itemTokens, List.cons_append, List.append_assoc]
    exact .token .comma (.newline level (spells_charsAt hv.1 level (spells_itemChars hv.2 level h)))

theorem spells_memberChars : ∀ {members : List (Text × Json)}, MembersWritten members →
    ∀ (level : Nat) {ts : List Token} {cs : List Char}, Spells ts cs →
    Spells (memberTokens members ++ ts) (memberChars level members ++ cs)
  | [], _, _, _, _, h => h
  | (key, value) :: members, hv, level, ts, cs, h => by
    simp only [memberChars, memberTokens, List.cons_append, List.append_assoc, List.nil_append]
    exact .token .comma (.newline level (.token (isText_chars hv.1) (.colon
      (spells_charsAt hv.2.1 level (spells_memberChars hv.2.2 level h)))))

end

/-- The text of a value is one way of writing its tokens. -/
theorem spells_pretty {v : Json} (h : v.Written) : Spells (tokens v) v.pretty.toList := by
  have hspells := spells_charsAt h 0 .nil
  rwa [List.append_nil, List.append_nil, ← String.toList_ofList (l := charsAt 0 v)] at hspells

/-! ## From tokens to values -/

namespace Reader

/-- An array that has begun reads its first item as a value of the array. -/
theorem run_item (v : Json) (stack : List Frame) (rest : List Token) :
    run (.item stack) (tokens v ++ rest) = run (.value (.array [] :: stack)) (tokens v ++ rest) := by
  cases v with
  | null | bool b | number n | string s => rfl
  | array items => cases items <;> rfl
  | object members => cases members <;> rfl

mutual

theorem run_tokens : ∀ (v : Json) (stack : List Frame) (rest : List Token),
    run (.value stack) (tokens v ++ rest) = run (.after v stack) rest
  | null, _, _ | bool _, _, _ | number _, _, _ | string _, _, _ => rfl
  | array [], _, _ | object [], _, _ => rfl
  | array (first :: items), stack, rest => by
    simp only [tokens, List.cons_append, List.append_assoc]
    show run (.item stack) _ = _
    rw [run_item, run_tokens first]
    exact run_itemTokens items first [] stack rest
  | object ((k, first) :: members), stack, rest => by
    simp only [tokens, List.cons_append, List.append_assoc]
    show run (.value (.object [] k :: stack)) _ = _
    rw [run_tokens first]
    exact run_memberTokens members k first [] stack rest

theorem run_itemTokens : ∀ (items : List Json) (v : Json) (done : List Json) (stack : List Frame)
    (rest : List Token),
    run (.after v (.array done :: stack)) (itemTokens items ++ .closeArray :: rest) =
      run (.after (.array ((v :: done).reverse ++ items)) stack) rest
  | [], v, done, stack, rest => by
    rw [List.append_nil]
    rfl
  | next :: items, v, done, stack, rest => by
    simp only [itemTokens, List.cons_append, List.append_assoc]
    show run (.value (.array (v :: done) :: stack)) _ = _
    rw [run_tokens next, run_itemTokens items, List.reverse_cons, List.append_assoc]
    rfl

theorem run_memberTokens : ∀ (members : List (Text × Json)) (k : Text) (v : Json)
    (done : List (Text × Json)) (stack : List Frame) (rest : List Token),
    run (.after v (.object done k :: stack)) (memberTokens members ++ .closeObject :: rest) =
      run (.after (.object (((k, v) :: done).reverse ++ members)) stack) rest
  | [], k, v, done, stack, rest => by
    rw [List.append_nil]
    rfl
  | (l, next) :: members, k, v, done, stack, rest => by
    simp only [memberTokens, List.cons_append, List.append_assoc]
    show run (.value (.object ((k, v) :: done) l :: stack)) _ = _
    rw [run_tokens next, run_memberTokens members, List.reverse_cons, List.append_assoc]
    rfl

end

end Reader

theorem ofTokens?_tokens (v : Json) : ofTokens? (tokens v) = some v := by
  have h := Reader.run_tokens v [] []
  rw [List.append_nil] at h
  unfold ofTokens?
  rw [h]
  rfl

/-- A value is read from any text with its tokens. -/
theorem read?_of_spells {v : Json} {s : String} (h : Spells (tokens v) s.toList) :
    read? s = some v := by
  have hapart : Apart (tokens v) := by
    have : Apart (tokens v ++ []) := apart_tokens v trivial nofun
    rwa [List.append_nil] at this
  rw [read?, Token.list?_of_spells h hapart]
  exact ofTokens?_tokens v

end BlockShell.Json
