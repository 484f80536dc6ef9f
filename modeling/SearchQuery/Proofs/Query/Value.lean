import SearchQuery.Proofs.Query.Normal
import SearchQuery.Proofs.Reading.Run
import SearchQuery.Query.Parse

/-!
# Readings with values

The value of a node follows from the values of its children. What a reading finds is described by
the text it takes up, the text it leaves and the value of the tree.

## Main definitions

* `Connective.rule` — the rule of two operands under an operator.
* `Query.Finds` — a reading takes up a text before another one and has a value.
-/

namespace SearchQuery

open Recognizer Text

def Connective.rule : Connective → Rule
  | and => .logicalAnd
  | or => .logicalOr

namespace Query

/-! ## Values of nodes -/

section Nodes

variable {t t' : ParseTree} {left right : Query} {value : String}

/-- A node that only wraps a tree has its value. -/
theorem eval_only {rule : Rule} (h : rule ∈ [.exp, .logicalExp, .priExp, .spacedString])
    (t : ParseTree) : semantics.eval (.node rule t []) = semantics.eval t := by
  rw [Semantics.eval_node]
  simp only [List.mem_cons, List.not_mem_nil, or_false] at h
  rcases h with rfl | rfl | rfl | rfl <;> rfl

/-- Delimiters do not matter for the value. -/
theorem eval_delimited {rule : Rule} (h : rule = .paren ∨ rule = .quote)
    (first inner last : ParseTree) :
    semantics.eval (.node rule first [inner, last]) = semantics.eval inner := by
  rw [Semantics.eval_node]
  rcases h with rfl | rfl <;> rfl

theorem eval_operator (p : Connective) (h : semantics.eval t = .ok left)
    (h' : semantics.eval t' = .ok right) (operator : ParseTree) :
    semantics.eval (.node p.rule t [operator, t']) = .ok (combine p left right) := by
  have hvalue : (do return combine p (← semantics.eval t) (← semantics.eval t')) =
      Except.ok (combine p left right) := by
    rw [h, h']
    rfl
  rw [Semantics.eval_node, ← hvalue]
  cases p <;> rfl

theorem eval_join (h : semantics.eval t = .ok left) (h' : semantics.eval t' = .ok right) :
    semantics.eval (.node .logicalJoin t [t']) = .ok (juxtapose left right) := by
  rw [Semantics.eval_node]
  change (do return juxtapose (← semantics.eval t) (← semantics.eval t')) = _
  rw [h, h']
  rfl

theorem eval_quoted (h : semantics.eval t' = .ok (text value)) (opening closing : ParseTree) :
    semantics.eval (.node .keywordQuoted t [opening, t', closing]) =
      .ok (keyword t.text value) := by
  rw [Semantics.eval_node]
  change (semantics.eval t' >>= filter t.text) = _
  rw [h]
  rfl

theorem eval_simple (h : semantics.eval t' = .ok (text value)) (colon : ParseTree) :
    semantics.eval (.node .keywordSimple t [colon, t']) = .ok (keyword t.text value) := by
  rw [Semantics.eval_node]
  change (semantics.eval t' >>= filter t.text) = _
  rw [h]
  rfl

/-- Whatever blanks stand before the last identifier, they count as one space. -/
theorem eval_spaced (t gap last : ParseTree) :
    semantics.eval (.node .spaced t [gap, last]) = .ok (text (t.text ++ " " ++ last.text)) := by
  rw [Semantics.eval_node]
  rfl

theorem eval_ident (c d : Cursor) :
    semantics.eval (.leaf .ident c d) = .ok (text (ParseTree.leaf .ident c d).text) := by
  rw [Semantics.eval_leaf]
  rfl

end Nodes

/-! ## Readings -/

/-- Wherever `cs` and then `ks` is to come, `cs` is read, and its value is `q`. -/
def Finds (read : Cursor → Attempt Unit ParseTree) (cs ks : List Char) (q : Query) : Prop :=
  ∀ c, c.rest = cs ++ ks → ∃ t, (read c).found = some t ∧ t.stop.rest = ks ∧
    semantics.eval t = .ok q

variable {cs ks : List Char} {q : Query} {c : Cursor}

theorem exists_of_rest {x : Attempt Unit ParseTree} (h : x.found.map (·.stop.rest) = some ks) :
    ∃ t, x.found = some t ∧ t.stop.rest = ks :=
  Option.map_eq_some_iff.1 h

theorem exists_found_token {s : String} (h : afterBlanks c.rest = s.toList ++ ks) :
    ∃ t, (token silent.note s c).found = some t ∧ t.stop.rest = ks :=
  exists_of_rest (by rw [found_token, h, afterLiteral_append])

theorem exists_found_literal {s : String} (h : c.rest = s.toList ++ ks) :
    ∃ t, (literal silent.note s c).found = some t ∧ t.stop.rest = ks :=
  exists_of_rest (by rw [found_literal, h, afterLiteral_append])

theorem exists_word? (hcs : IsIdentifier cs) (hks : EndsName ks) (hc : c.rest = cs ++ ks) :
    ∃ d, c.word? = some d ∧ d.rest = ks ∧ c.upTo d = cs := by
  obtain ⟨x, xs, rfl, hx, hxs⟩ := hcs
  have hd : (c.skipWhile isNameChar).rest = ks := by
    rw [Cursor.rest_skipWhile, hc, List.cons_append,
      List.dropWhile_cons_of_pos (isNameChar_of_isLetter hx),
      List.dropWhile_append_of_pos (List.all_eq_true.1 hxs), hks.dropWhile_eq]
  exact ⟨_, Cursor.word?_eq_some_iff.2 ⟨⟨x, xs ++ ks, hc, hx⟩, rfl⟩, hd,
    Cursor.upTo_of_rest (hd.symm ▸ hc)⟩

theorem word?_eq_none (h : afterName c.rest = none) : c.word? = none := by
  rw [afterName] at h
  rw [Cursor.word?]
  split at h
  · contradiction
  · next hletter => exact if_neg hletter

/-- An identifier as a leaf. -/
theorem exists_found_ident (hcs : IsIdentifier cs) (hks : EndsName ks) (hc : c.rest = cs ++ ks) :
    ∃ t, (ident silent.note c).found = some t ∧ t.stop.rest = ks ∧
      t.text = String.ofList cs ∧ semantics.eval t = .ok (text (String.ofList cs)) := by
  obtain ⟨d, hd, hrest, hupTo⟩ := exists_word? hcs hks hc
  have htext : (ParseTree.leaf .ident c d).text = String.ofList cs := congrArg _ hupTo
  refine ⟨.leaf .ident c d, ?_, hrest, htext, ?_⟩
  · rw [ident_of_some _ hd]
    rfl
  · rw [eval_ident, htext]

/-! ## Delimiters -/

theorem exists_found_exp (h : Finds silent.logicalExp cs ks q) : Finds silent.exp cs ks q := by
  intro c hc
  obtain ⟨t, ht, hrest, hvalue⟩ := h c hc
  refine ⟨.node .exp t [], ?_, hrest, ?_⟩
  · rw [Recognizer.exp, Attempt.found_bind, ht]
    rfl
  · rw [eval_only (by simp), hvalue]

/-- An expression between delimiters. The node has the expression as its second child. -/
theorem exists_found_delimited (opening closing : String) (rule : Rule) {es : List Char}
    (h : Finds silent.logicalExp cs es q) (hes : afterBlanks es = closing.toList ++ ks)
    (hc : c.rest = opening.toList ++ (cs ++ es)) :
    ∃ first inner last, last.stop.rest = ks ∧ semantics.eval inner = .ok q ∧
      (silent.delimited opening closing rule c).found = some (.node rule first [inner, last]) := by
  obtain ⟨first, hfirst, hrest⟩ := exists_found_literal hc
  obtain ⟨inner, hinner, hrest', hvalue⟩ := exists_found_exp h first.stop hrest
  have hend : afterBlanks inner.stop.rest = closing.toList ++ ks := by rw [hrest', hes]
  obtain ⟨last, hlast, hks⟩ := exists_found_token hend
  refine ⟨first, inner, last, hks, hvalue, ?_⟩
  rw [delimited, Attempt.found_bind]
  rw [hfirst, Option.bind_some, Attempt.found_bind, hinner, Option.bind_some, Attempt.found_bind]
  rw [hlast]
  rfl

theorem found_delimited_eq_none {opening closing : String} {rule : Rule}
    (h : afterLiteral opening c.rest = none) :
    (silent.delimited opening closing rule c).found = none := by
  have := found_delimited opening closing rule c
  rwa [h, Option.bind_none, Option.map_eq_none_iff] at this

theorem found_priExp_paren {xs : List Char} (hc : c.rest = '(' :: xs) :
    (silent.priExp c).found = (silent.delimited "(" ")" .paren c).found := by
  have hquote : afterLiteral "\"" c.rest = none := hc ▸ afterLiteral_of_head rfl nofun
  have hword : c.word? = none := word?_eq_none (hc ▸ afterName_cons_of_not_isLetter (by decide))
  have hident : (ident silent.note c).found = none := congrArg Attempt.found (ident_of_none _ hword)
  simp only [priExp, Attempt.found_orElse, found_delimited_eq_none hquote, single, keywordExp,
    Attempt.found_bind, hident, Option.bind_none, Option.or_none]

theorem found_priExp_quote {xs : List Char} (hc : c.rest = '"' :: xs) :
    (silent.priExp c).found = (silent.delimited "\"" "\"" .quote c).found := by
  have hparen : afterLiteral "(" c.rest = none := hc ▸ afterLiteral_of_head rfl nofun
  have hword : c.word? = none := word?_eq_none (hc ▸ afterName_cons_of_not_isLetter (by decide))
  have hident : (ident silent.note c).found = none := congrArg Attempt.found (ident_of_none _ hword)
  simp only [priExp, Attempt.found_orElse, found_delimited_eq_none hparen, single, keywordExp,
    Attempt.found_bind, hident, Option.bind_none, Option.or_none, Option.none_or]

theorem finds_paren {gap : List Char} (hgap : Blanks gap)
    (h : Finds silent.logicalExp cs (gap ++ ')' :: ks) q) :
    Finds silent.priExp ('(' :: (cs ++ (gap ++ [')']))) ks q := by
  intro c hc
  obtain ⟨first, inner, last, hks, hvalue, hfound⟩ := exists_found_delimited "(" ")" .paren h
    (afterBlanks_mark hgap (by decide) ks) (by simpa using hc)
  exact ⟨_, (found_priExp_paren hc).trans hfound, hks, by rw [eval_delimited (.inl rfl), hvalue]⟩

theorem finds_quote {gap : List Char} (hgap : Blanks gap)
    (h : Finds silent.logicalExp cs (gap ++ '"' :: ks) q) :
    Finds silent.priExp ('"' :: (cs ++ (gap ++ ['"']))) ks q := by
  intro c hc
  obtain ⟨first, inner, last, hks, hvalue, hfound⟩ := exists_found_delimited "\"" "\"" .quote h
    (afterBlanks_mark hgap (by decide) ks) (by simpa using hc)
  exact ⟨_, (found_priExp_quote hc).trans hfound, hks, by rw [eval_delimited (.inr rfl), hvalue]⟩

/-! ## Words -/

/-- Before a letter, an operand is a filter or a word. -/
theorem found_priExp_letter {x : Char} {xs : List Char} (hx : isLetter x) (hc : c.rest = x :: xs) :
    (silent.priExp c).found =
      (single (keywordExp silent.note c)).found.or (single (ident silent.note c)).found := by
  have hdelimited {y : Char} (hy : isLetter y = false) : c.rest.head? ≠ some y := by
    rw [hc]
    rintro ⟨⟩
    simp [hx] at hy
  have hparen : afterLiteral "(" c.rest = none := afterLiteral_of_head rfl (hdelimited (by decide))
  have hquote : afterLiteral "\"" c.rest = none := afterLiteral_of_head rfl (hdelimited (by decide))
  rw [priExp, Attempt.found_orElse, found_delimited_eq_none hparen, Option.none_or,
    Attempt.found_orElse, found_delimited_eq_none hquote, Option.none_or, Attempt.found_orElse]

/-- An identifier that no colon follows. -/
theorem finds_word (hcs : IsIdentifier cs) (hks : EndsName ks)
    (hcolon : (afterBlanks ks).head? ≠ some ':') :
    Finds silent.priExp cs ks (text (String.ofList cs)) := by
  intro c hc
  obtain ⟨key, hkey, hrest, -, hvalue⟩ := exists_found_ident hcs hks hc
  obtain ⟨x, xs, rfl, hx, -⟩ := hcs
  have hfilter : (keywordExp silent.note c).found = none := by
    have := rest_keyword silent.note key ()
    rw [hrest, afterKey_of_head hcolon, Option.map_eq_none_iff] at this
    rw [keywordExp, Attempt.found_bind, hkey]
    exact this
  refine ⟨.node .priExp key [], ?_, hrest, ?_⟩
  · rw [found_priExp_letter hx hc, single, Attempt.found_bind, hfilter, Option.bind_none,
      Option.none_or, single, Attempt.found_bind, hkey]
    rfl
  · rw [eval_only (by simp), hvalue]

/-! ## Filters -/

/-- One more identifier of a quoted value. -/
theorem exists_spacedTail {t : ParseTree} {gap word : List Char} (hgap : Blanks gap)
    (hword : IsIdentifier word) (hks : EndsName ks) (ht : t.stop.rest = gap ++ (word ++ ks)) :
    ∃ last, last.stop.rest = ks ∧ last.text = String.ofList word ∧
      spacedTail silent.note t = spacedTail silent.note
        (.node .spaced t [.leaf .spaces t.stop t.stop.skipBlanks, last]) := by
  obtain ⟨x, xs, rfl, hx, hxs⟩ := id hword
  have hrest : t.stop.skipBlanks.rest = x :: xs ++ ks := by
    rw [Cursor.rest_skipBlanks, ht]
    exact afterBlanks_letter hgap hx (xs ++ ks)
  obtain ⟨d, hd, hks', hupTo⟩ := exists_word? hword hks hrest
  exact ⟨.leaf .ident t.stop.skipBlanks d, hks', congrArg _ hupTo, spacedTail_of_word? hd⟩

/-- The identifiers of a quoted value are read one after another. -/
theorem exists_spacedString (h : IsSpaced cs) (hks : EndsName ks) (hc : c.rest = cs ++ ks) :
    ∃ t, t.start = c ∧ t.stop.rest = ks ∧
      spacedString silent.note c = spacedTail silent.note t := by
  induction h generalizing ks with
  | word h =>
    obtain ⟨d, hd, hrest, -⟩ := exists_word? h hks hc
    refine ⟨.node .spacedString (.leaf .ident c d) [], rfl, hrest, ?_⟩
    rw [spacedString, ident_of_some _ hd, pure_bind]
  | @snoc cs gap word h hne hgap hword ih =>
    obtain ⟨t, hstart, hrest, heq⟩ := ih (endsName_gap hne hgap (word ++ ks)) (by simpa using hc)
    obtain ⟨last, hlast, -, heq'⟩ := exists_spacedTail hgap hword hks hrest
    refine ⟨.node .spaced t [.leaf .spaces t.stop t.stop.skipBlanks, last], hstart, hlast, ?_⟩
    rw [heq, heq']

/-- The loop stops where no further identifier follows. -/
theorem found_spacedTail {t : ParseTree} (h : EndsWords t.stop.rest) :
    (spacedTail silent.note t).found = some t := by
  have hword : t.stop.skipBlanks.word? = none :=
    word?_eq_none (by rw [Cursor.rest_skipBlanks]; exact h.2)
  rw [spacedTail_of_no_word hword]
  rfl

/-- A quoted value, with a single space for the blanks before its last identifier. -/
theorem exists_found_value {raw value : List Char} (h : Spells raw value) (hks : EndsWords ks)
    (hc : c.rest = raw ++ ks) :
    ∃ t, (spacedString silent.note c).found = some t ∧ t.stop.rest = ks ∧
      semantics.eval t = .ok (text (String.ofList value)) := by
  cases h with
  | word h =>
    obtain ⟨t, ht, hrest, -, hvalue⟩ := exists_found_ident h hks.1 hc
    refine ⟨.node .spacedString t [], ?_, hrest, ?_⟩
    · rw [spacedString, Attempt.found_bind, ht, Option.bind_some]
      exact found_spacedTail (hrest.symm ▸ hks)
    · rw [eval_only (by simp), hvalue]
  | @snoc front gap word h hne hgap hword =>
    have hbegin : c.rest = front ++ (gap ++ (word ++ ks)) := by simpa using hc
    obtain ⟨t, hstart, hrest, heq⟩ :=
      exists_spacedString h (endsName_gap hne hgap (word ++ ks)) hbegin
    obtain ⟨last, hlast, htext, heq'⟩ := exists_spacedTail hgap hword hks.1 hrest
    refine ⟨.node .spaced t [.leaf .spaces t.stop t.stop.skipBlanks, last], ?_, hlast, ?_⟩
    · rw [heq, heq']
      exact found_spacedTail (hlast.symm ▸ hks)
    · have hfront : t.text = String.ofList front :=
        congrArg String.ofList (Cursor.upTo_of_rest (by rw [hstart, hbegin, hrest]))
      have hjoined : t.text ++ " " ++ last.text = String.ofList (front ++ ' ' :: word) := by
        rw [hfront, htext]
        apply String.toList_injective
        simp
      rw [eval_spaced, hjoined]

/-- A filter as an operand, from its key on. -/
theorem finds_filter {key : List Char}
    (hkey : IsIdentifier key) (hcs : EndsName (cs ++ ks))
    (hread : ∀ t, t.stop.rest = cs ++ ks → t.text = String.ofList key →
      ∃ t', (keywordQuoted silent.note t <|> keywordSimple silent.note t).found = some t' ∧
        t'.stop.rest = ks ∧ semantics.eval t' = .ok q) :
    Finds silent.priExp (key ++ cs) ks q := by
  intro c hc
  rw [List.append_assoc] at hc
  obtain ⟨t, ht, hrest, htext, -⟩ := exists_found_ident hkey hcs hc
  obtain ⟨t', ht', hks, hvalue⟩ := hread t hrest htext
  obtain ⟨x, xs, rfl, hx, -⟩ := hkey
  refine ⟨.node .priExp t' [], ?_, hks, ?_⟩
  · rw [found_priExp_letter hx hc, single, Attempt.found_bind, keywordExp, Attempt.found_bind, ht,
      Option.bind_some, ht']
    rfl
  · rw [eval_only (by simp), hvalue]

variable {key gap gap' : List Char}

/-- A filter whose value is one identifier. -/
theorem finds_simple {value : List Char} (hkey : IsIdentifier key) (hgap : Blanks gap)
    (hgap' : Blanks gap') (hvalue : IsIdentifier value) (hks : EndsName ks) :
    Finds silent.priExp (key ++ (gap ++ ':' :: (gap' ++ value))) ks
      (keyword (String.ofList key) (String.ofList value)) := by
  have hends (cs : List Char) : EndsName (gap ++ ':' :: cs) :=
    .of_blanks hgap (.cons (by decide) cs)
  refine finds_filter hkey (by simpa using hends _) fun t hrest htext => ?_
  obtain ⟨x, xs, rfl, hx, hxs⟩ := id hvalue
  have hmark : afterBlanks t.stop.rest = ':' :: (gap' ++ (x :: xs ++ ks)) := by
    rw [hrest, List.append_assoc]
    simpa using afterBlanks_mark hgap (by decide) _
  have hquoted : (keywordQuoted silent.note t).found = none := by
    have hopening : (token silent.note ":\"" t.stop).found = none := by
      rw [← Option.map_eq_none_iff, found_token, hmark]
      exact afterLiteral_opening hgap' hx _
    rw [keywordQuoted, Attempt.found_bind, hopening]
    rfl
  obtain ⟨colon, hcolon, hrest'⟩ := exists_found_token (s := ":") hmark
  have hbegin : colon.stop.skipBlanks.rest = x :: xs ++ ks := by
    rw [Cursor.rest_skipBlanks, hrest']
    exact afterBlanks_letter hgap' hx _
  obtain ⟨last, hlast, hks', -, hlastValue⟩ := exists_found_ident hvalue hks hbegin
  refine ⟨.node .keywordSimple t [colon, last], ?_, hks', ?_⟩
  · rw [Attempt.found_orElse, hquoted, Option.none_or, keywordSimple, Attempt.found_bind, hcolon,
      Option.bind_some, Attempt.found_bind, hlast]
    rfl
  · rw [eval_simple hlastValue, htext]

/-- A filter whose value is in quotes. -/
theorem finds_quoted {gap'' raw value : List Char} (hkey : IsIdentifier key) (hgap : Blanks gap)
    (hgap' : Blanks gap') (hvalue : Spells raw value) (hgap'' : Blanks gap'') :
    Finds silent.priExp (key ++ (gap ++ ':' :: '"' :: (gap' ++ (raw ++ (gap'' ++ ['"']))))) ks
      (keyword (String.ofList key) (String.ofList value)) := by
  have hends (cs : List Char) : EndsName (gap ++ ':' :: cs) :=
    .of_blanks hgap (.cons (by decide) cs)
  refine finds_filter hkey (by simpa using hends _) fun t hrest htext => ?_
  have hmark : afterBlanks t.stop.rest =
      ":\"".toList ++ (gap' ++ (raw ++ (gap'' ++ '"' :: ks))) := by
    rw [hrest, List.append_assoc]
    simpa using afterBlanks_mark hgap (by decide) _
  obtain ⟨opening, hopening, hrest'⟩ := exists_found_token hmark
  have hbegin : opening.stop.skipBlanks.rest = raw ++ (gap'' ++ '"' :: ks) := by
    obtain ⟨x, xs, rfl, hx⟩ := hvalue.exists_letter
    rw [Cursor.rest_skipBlanks, hrest']
    exact afterBlanks_letter hgap' hx _
  obtain ⟨inner, hinner, hrest'', hinnerValue⟩ :=
    exists_found_value hvalue (endsWords_quote hgap'' ks) hbegin
  have hclosing : afterBlanks inner.stop.rest = "\"".toList ++ ks := by
    rw [hrest'']
    exact afterBlanks_mark hgap'' (by decide) ks
  obtain ⟨closing, hlast, hks⟩ := exists_found_token hclosing
  refine ⟨.node .keywordQuoted t [opening, inner, closing], ?_, hks, ?_⟩
  · rw [Attempt.found_orElse, keywordQuoted, Attempt.found_bind, hopening,
      Option.bind_some, Attempt.found_bind, hinner, Option.bind_some, Attempt.found_bind, hlast]
    rfl
  · rw [eval_quoted hinnerValue, htext]

end Query

end SearchQuery
