import SearchQuery.Proofs.Query.Expression

/-!
# Reading what is written

What is written for a query is read with the normal form of the query as its value, before any text
that can stand behind it. A closing quote is no opening one there, because no other quote follows
the expression behind it.

## Main definitions

* `Text.Follows`, `Text.Ends` — what can stand behind an operand and behind an expression.
* `Query.writtenOperand` — a query as an operand of another.

Main statement: `Query.finds_written` is the reading of a query that can be written down.
-/

namespace SearchQuery

open Recognizer Text

namespace Text

/-- `ks` can stand behind an operand. -/
structure Follows (ks : List Char) : Prop where
  name : EndsName ks
  colon : (afterBlanks ks).head? ≠ some ':'
  quote : ∀ ds, afterExp ks = some ds → (afterBlanks ds).head? ≠ some '"'

/-- `ks` ends an expression and begins with no quote. -/
structure Ends (ks : List Char) : Prop where
  name : EndsName ks
  colon : (afterBlanks ks).head? ≠ some ':'
  quote : (afterBlanks ks).head? ≠ some '"'
  exp : afterExp ks = none

variable {ks : List Char}

theorem Ends.follows (h : Ends ks) : Follows ks where
  name := h.name
  colon := h.colon
  quote ds hds := by
    rw [h.exp] at hds
    contradiction

theorem ends_nil : Ends [] where
  name := nofun
  colon := nofun
  quote := nofun
  exp := afterExp_nil

theorem ends_paren (ks : List Char) : Ends (')' :: ks) := by
  have hblanks : afterBlanks (')' :: ks) = ')' :: ks :=
    afterBlanks_cons_of_not_isBlank (by decide)
  constructor
  · exact .cons (by decide) ks
  · rw [hblanks]
    nofun
  · rw [hblanks]
    nofun
  · rw [afterExp_eq, hblanks, afterOperand_of_not_opens (by decide)]
    rfl

/-- Behind an operand, a quote is a closing one. -/
theorem Follows.afterExp_quote (h : Follows ks) : afterExp ('"' :: ks) = none :=
  (afterExp_mark_eq_none_iff blanks_nil (by decide)).2
    (afterOperand_quote_eq_none_iff.2 h.quote)

end Text

namespace Query

variable {cs ds ks : List Char} {q left right : Query} {c : Cursor}

/-! ## Separators and delimiters -/

theorem afterBlanks_separator (p : Connective) (cs : List Char) :
    afterBlanks (separator p ++ cs) = p.keyword.toList ++ (' ' :: cs) := by
  have := afterBlanks_keyword blanks_space p (' ' :: cs)
  simpa [separator] using this

/-- Operands with a separator between them. -/
theorem finds_separator (p : Connective)
    (h : Finds silent.priExp cs (separator p ++ (ds ++ ks)) left)
    (h' : Finds silent.logicalExp ds ks right) :
    Finds silent.logicalExp (cs ++ (separator p ++ ds)) ks (combine p left right) := by
  have hleft : Finds silent.priExp cs
      ([' '] ++ (p.keyword.toList ++ ([' '] ++ ds ++ ks))) left := by
    simpa [separator] using h
  simpa [separator] using finds_operator p blanks_space hleft (finds_blanks blanks_space h')

/-- Operands with a single space between them. -/
theorem finds_spaced (h : Finds silent.priExp cs (' ' :: (ds ++ ks)) left)
    (h' : Finds silent.logicalExp ds ks right)
    (hop : ∀ p : Connective, afterLiteral p.keyword (afterBlanks (ds ++ ks)) = none) :
    Finds silent.logicalExp (cs ++ ' ' :: ds) ks (juxtapose left right) := by
  refine finds_beside h (finds_blanks blanks_space h') fun p => ?_
  rw [List.cons_append, afterBlanks_cons_of_isBlank isBlank_space, hop p]
  rfl

theorem finds_parenthesized (h : Finds silent.logicalExp cs (')' :: ks) q) :
    Finds silent.priExp (parenthesized cs) ks q := by
  simpa [parenthesized] using finds_paren blanks_nil h

theorem finds_inQuotes (h : Finds silent.logicalExp cs ('"' :: ks) q) :
    Finds silent.priExp (inQuotes cs) ks q := by
  simpa [inQuotes] using finds_quote blanks_nil h

/-! ## Texts -/

/-- A word is read back, in parentheses if it begins like an operator. -/
theorem finds_writtenWord {word : List Char} (hword : IsIdentifier word) (hks : EndsName ks)
    (hcolon : (afterBlanks ks).head? ≠ some ':') :
    Finds silent.priExp (writtenWord word) ks (text (String.ofList word)) := by
  unfold writtenWord
  split
  · have hends := ends_paren ks
    exact finds_parenthesized (finds_alone (finds_word hword hends.name hends.colon) hends.exp)
  · exact finds_word hword hks hcolon

theorem startsWithOperator_eq_false_iff {word : List Char} :
    startsWithOperator word = false ↔ ∀ p : Connective, ¬ p.keyword.toList <+: word := by
  rw [startsWithOperator, Bool.or_eq_false_iff, ← Bool.not_eq_true, ← Bool.not_eq_true,
    List.isPrefixOf_iff_prefix, List.isPrefixOf_iff_prefix]
  refine ⟨fun ⟨hand, hor⟩ p => ?_, fun h => ⟨h .and, h .or⟩⟩
  cases p with
  | and => exact hand
  | or => exact hor

/-- What does not begin like an operator is not read as one. -/
theorem afterLiteral_of_not_startsWithOperator {front : List Char}
    (hblanks : afterBlanks (front ++ ks) = front ++ ks) (hno : startsWithOperator front = false)
    (hks : EndsName ks) (p : Connective) :
    afterLiteral p.keyword (afterBlanks (front ++ ks)) = none := by
  cases h : afterLiteral p.keyword (afterBlanks (front ++ ks)) with
  | none => rfl
  | some ds =>
    have hds := afterLiteral_eq_some_iff.1 h
    have hprefix : p.keyword.toList <+: front :=
      prefix_of_endsName (isIdentifier_operator (keyword_eq p)) hks ⟨ds, by rw [← hblanks, hds]⟩
    exact absurd hprefix (startsWithOperator_eq_false_iff.1 hno p)

/-- A word in quotes is not read as an operator. -/
theorem afterLiteral_writtenWord {word : List Char} (hword : IsIdentifier word) (hks : EndsName ks)
    (p : Connective) : afterLiteral p.keyword (afterBlanks (writtenWord word ++ ks)) = none := by
  unfold writtenWord
  split
  · exact afterLiteral_of_not_startsWithOperator (afterBlanks_cons_of_not_isBlank (by decide)) rfl
      hks p
  · next hno =>
    refine afterLiteral_of_not_startsWithOperator ?_ (Bool.eq_false_iff.2 hno) hks p
    obtain ⟨x, xs, rfl, hx, -⟩ := hword
    exact afterBlanks_letter blanks_nil hx (xs ++ ks)

/-- Written words do not begin like an operator. -/
theorem afterLiteral_words {word : List Char} {words : List (List Char)} (hword : IsIdentifier word)
    (hks : EndsName ks) (p : Connective) : afterLiteral p.keyword
      (afterBlanks ([' '].intercalate ((word :: words).map writtenWord) ++ ks)) = none := by
  cases words with
  | nil =>
    rw [List.map_singleton, List.intercalate_singleton]
    exact afterLiteral_writtenWord hword hks p
  | cons next words =>
    rw [List.map_cons, List.map_cons, List.intercalate_cons_cons, List.append_assoc,
      List.append_assoc]
    exact afterLiteral_writtenWord hword (.cons (by decide) _) p

/-- Words in quotes are one text. -/
theorem finds_words {words : List (List Char)} (hne : words ≠ [])
    (hwords : ∀ word ∈ words, IsIdentifier word) (hname : EndsName ks)
    (hcolon : (afterBlanks ks).head? ≠ some ':') (hks : Text.afterExp ks = none) :
    Finds silent.logicalExp ([' '].intercalate (words.map writtenWord)) ks
      (text (String.ofList ([' '].intercalate words))) := by
  induction words with
  | nil => contradiction
  | cons word words ih =>
    have hword := hwords word List.mem_cons_self
    cases words with
    | nil =>
      rw [List.map_singleton, List.intercalate_singleton, List.intercalate_singleton]
      exact finds_alone (finds_writtenWord hword hname hcolon) hks
    | cons next words =>
      have hrest := ih (by simp) fun w hw => hwords w (List.mem_cons_of_mem word hw)
      have hvalue : text (String.ofList ([' '].intercalate (word :: next :: words))) =
          juxtapose (text (String.ofList word))
            (text (String.ofList ([' '].intercalate (next :: words)))) := by
        refine congrArg text (String.toList_injective ?_)
        simp
      have hlist : [' '].intercalate ((word :: next :: words).map writtenWord) =
          writtenWord word ++ ' ' :: [' '].intercalate ((next :: words).map writtenWord) := by
        simp
      rw [hvalue, hlist]
      refine finds_spaced (finds_writtenWord hword (.cons (by decide) _) ?_) hrest fun p => ?_
      · rw [afterBlanks_cons_of_isBlank (by decide)]
        exact head_ne_colon_of_afterExp hrest.afterExp
      · exact afterLiteral_words (hwords next (by simp)) hname p

/-- Free text is read back as one operand. -/
theorem finds_writtenText (h : IsPhrase cs) (hks : Follows ks) :
    Finds silent.priExp (writtenText cs) ks (text (String.ofList cs)) := by
  obtain ⟨words, hne, hwords, rfl⟩ := h
  have hquotes : Finds silent.priExp (inQuotes ([' '].intercalate (words.map writtenWord))) ks
      (text (String.ofList ([' '].intercalate words))) := by
    have hmark : afterBlanks ('"' :: ks) = '"' :: ks :=
      afterBlanks_cons_of_not_isBlank (by decide)
    refine finds_inQuotes (finds_words hne hwords (.cons (by decide) ks) ?_ hks.afterExp_quote)
    rw [hmark]
    nofun
  rw [writtenText]
  split
  · have hspace : ∀ word ∈ words, ' ' ∉ word := fun word hword hmem =>
      absurd ((hwords word hword).isNameChar_of_mem hmem) (by decide)
    rwa [List.splitOn_intercalate ' ' hspace hne]
  · next hspace =>
    match words, hne with
    | [word], _ =>
      rw [List.intercalate_singleton]
      exact finds_word (hwords word List.mem_cons_self) hks.name hks.colon
    | word :: next :: words, _ => simp at hspace

/-! ## Filters -/

/-- A filter is read back, its value in quotes if it has several words. -/
theorem finds_writtenKeyword {key value : List Char} (hkey : IsIdentifier key)
    (hvalue : IsValue value) (hks : EndsName ks) :
    Finds silent.priExp (writtenKeyword key value) ks
      (keyword (String.ofList key) (String.ofList value)) := by
  rw [writtenKeyword]
  split
  · have hread : Finds silent.priExp _ ks _ :=
      finds_quoted hkey blanks_nil blanks_nil hvalue.spells blanks_nil
    simpa [inQuotes] using hread
  · next hspace =>
    cases hvalue with
    | word h => simpa using finds_simple hkey blanks_nil blanks_nil h hks
    | snoc => simp at hspace

/-! ## Combinations -/

def writtenOperand (q : Query) : List Char :=
  if q.operator?.isSome then parenthesized q.written else q.written

theorem written_logic (p : Connective) (children : List Query) :
    written (logic p children) = (separator p).intercalate (children.map writtenOperand) := by
  rw [written]
  rfl

/-- An expression that goes on to where it can end can follow an operand. -/
theorem follows_of_afterExp (hname : EndsName cs) (h : Text.afterExp cs = some ks) (hks : Ends ks) :
    Follows cs := by
  refine ⟨hname, head_ne_colon_of_afterExp h, fun ds hds => ?_⟩
  obtain rfl : ks = ds := Option.some.inj (h.symm.trans hds)
  exact hks.quote

/-- Behind an operand, the operator and what follows can be read as an expression. -/
theorem follows_separator (p : Connective) (h : Text.afterExp (cs ++ ks) = some ks)
    (hks : Ends ks) : Follows (separator p ++ (cs ++ ks)) := by
  have hread : Text.afterExp (separator p ++ (cs ++ ks)) = some ks := by
    rw [← afterExp_afterBlanks, afterBlanks_separator]
    refine afterExp_operator (keyword_eq p) ?_
    rwa [afterExp_cons_of_isBlank isBlank_space]
  exact follows_of_afterExp (.cons (by decide) _) hread hks

/-- Operands under an operator are read as one combination. -/
theorem finds_operands {p : Connective} {children : List Query} (hne : children ≠ [])
    (h : ∀ child ∈ children, ∀ ks, Follows ks →
      Finds silent.priExp child.writtenOperand ks child.normalize) (hks : Ends ks) :
    Finds silent.logicalExp ((separator p).intercalate (children.map writtenOperand)) ks
      (merge p (children.map normalize)) := by
  induction children with
  | nil => contradiction
  | cons child children ih =>
    have hchild := h child List.mem_cons_self
    by_cases hnil : children = []
    · subst hnil
      rw [List.map_singleton, List.intercalate_singleton]
      exact finds_alone (hchild ks hks.follows) hks.exp
    · have hrest := ih hnil fun c hc => h c (List.mem_cons_of_mem child hc)
      have hfollows := follows_separator p hrest.afterExp hks
      rw [List.map_cons, List.map_cons, merge_cons (by simpa using hnil),
        List.intercalate_cons_of_ne_nil (by simpa using hnil), List.append_assoc]
      exact finds_separator p (hchild _ hfollows) hrest

/-- What is written for a query is read as an operand and as an expression. -/
theorem finds_written (h : q.Proper) :
    (∀ ks, Follows ks → Finds silent.priExp q.writtenOperand ks q.normalize) ∧
      ∀ ks, Ends ks → Finds silent.logicalExp q.written ks q.normalize := by
  induction h with
  | @text value h =>
    have hoperand (ks : List Char) (hks : Follows ks) :
        Finds silent.priExp (written (text value)) ks (text value) := by
      have hread := finds_writtenText h hks
      rw [String.ofList_toList] at hread
      rwa [written]
    rw [normalize_text]
    exact ⟨hoperand, fun ks hks => finds_alone (hoperand ks hks.follows) hks.exp⟩
  | @keyword key value hkey hvalue =>
    have hoperand (ks : List Char) (hks : Follows ks) :
        Finds silent.priExp (written (keyword key value)) ks (keyword key value) := by
      have hread := finds_writtenKeyword hkey hvalue hks.name
      rw [String.ofList_toList, String.ofList_toList] at hread
      rwa [written]
    rw [normalize_keyword]
    exact ⟨hoperand, fun ks hks => finds_alone (hoperand ks hks.follows) hks.exp⟩
  | @logic p children hne h ih =>
    have hread (ks : List Char) (hks : Ends ks) :
        Finds silent.logicalExp (written (logic p children)) ks
          (normalize (logic p children)) := by
      rw [written_logic, normalize_logic]
      exact finds_operands hne (fun child hchild => (ih child hchild).1) hks
    exact ⟨fun ks _ => finds_parenthesized (hread _ (ends_paren ks)), hread⟩

end Query

end SearchQuery
