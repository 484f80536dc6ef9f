import SearchQuery.Proofs.Query.Atom
import SearchQuery.Proofs.Query.Canonical
import SearchQuery.Proofs.Query.Expression
import SearchQuery.Proofs.Reading.Run

/-!
# Reading in another context

What is read before one text is read with the same value before other texts. Many attempts look
beyond an expression, because every closing quote is first tried as an opening one and every
operator as a word. Only what they come to matters, and that is settled by where expressions end.

## Main definitions

* `Query.Found` — characters were read before a text, with a value.
* `Query.IsExpression`, `Query.IsOperand` — how expressions and operands are put together.
* `Text.TakesPlace` — a text that can stand in the place of another one behind an expression.

Main statements: `Query.Found.finds_expression` and `Query.Found.finds_operand`.
-/

namespace SearchQuery

open Recognizer Text

namespace Query

variable {us vs es fs ks : List Char} {q left right : Query} {c : Cursor} {t : ParseTree}

/-- Somewhere `us` is read before `es`, and its value is `q`. -/
def Found (read : Cursor → Attempt Unit ParseTree) (us es : List Char) (q : Query) : Prop :=
  ∃ c t, (read c).found = some t ∧ c.rest = us ++ es ∧ t.stop.rest = es ∧
    semantics.eval t = .ok q

/-! ## The parts of what is read -/

theorem Found.afterExp (h : Found silent.logicalExp us es q) : afterExp (us ++ es) = some es := by
  obtain ⟨c, t, ht, hc, hes, -⟩ := h
  rw [← hc, ← rest_logicalExp silent.note c (), ← hes]
  exact congrArg _ ht

theorem Found.afterOperand (h : Found silent.priExp us es q) :
    afterOperand (us ++ es) = some es := by
  obtain ⟨c, t, ht, hc, hes, -⟩ := h
  rw [← hc, ← rest_priExp silent.note c (), ← hes]
  exact congrArg _ ht

/-- An operand takes up at least one character. -/
theorem Found.ne_nil (h : Found silent.priExp us es q) : us ≠ [] := by
  rintro rfl
  exact absurd (length_lt_of_afterOperand h.afterOperand) (Nat.lt_irrefl _)

/-- What is read at some place is found before what it leaves, with the value of its tree. -/
theorem exists_found_logicalExp (h : (silent.logicalExp c).found = some t) :
    ∃ us q, c.rest = us ++ t.stop.rest ∧ semantics.eval t = .ok q ∧
      Found silent.logicalExp us t.stop.rest q := by
  obtain ⟨q, hq, -⟩ := afresh_givesValues silent.note c.skipBlanks () t h
  have hrest : Text.afterExp c.rest = some t.stop.rest :=
    (rest_logicalExp silent.note c ()).symm.trans (congrArg _ h)
  obtain ⟨us, -, hc, -⟩ := exists_run hrest
  exact ⟨us, q, hc, hq, c, t, h, hc, rfl, hq⟩

theorem exists_found_priExp (h : (silent.priExp c).found = some t) :
    ∃ us q, c.rest = us ++ t.stop.rest ∧ semantics.eval t = .ok q ∧
      Found silent.priExp us t.stop.rest q := by
  obtain ⟨q, hq, -⟩ := priExp_yields_value (afresh_givesValues silent.note) c () t h
  have hrest : Text.afterOperand c.rest = some t.stop.rest :=
    (rest_priExp silent.note c ()).symm.trans (congrArg _ h)
  obtain ⟨us, -, hc, -⟩ := exists_operand hrest
  exact ⟨us, q, hc, hq, c, t, h, hc, rfl, hq⟩

/-- How an expression before `es` is put together. -/
inductive IsExpression (es : List Char) : (us : List Char) → (q : Query) → Prop where
  | operator {gap vs gap' ds : List Char} {left right : Query} (p : Connective)
    (hgap : Blanks gap) (hgap' : Blanks gap')
    (hleft : Found silent.priExp vs (gap' ++ (p.keyword.toList ++ (ds ++ es))) left)
    (hright : Found silent.logicalExp ds es right) :
    IsExpression es (gap ++ (vs ++ (gap' ++ (p.keyword.toList ++ ds)))) (combine p left right)
  | beside {gap vs ds : List Char} {left right : Query} (hgap : Blanks gap)
    (hleft : Found silent.priExp vs (ds ++ es) left) (hright : Found silent.logicalExp ds es right)
    (hop : ∀ p : Connective,
      (afterLiteral p.keyword (afterBlanks (ds ++ es))).bind Text.afterExp = none) :
    IsExpression es (gap ++ (vs ++ ds)) (juxtapose left right)
  | alone {gap vs : List Char} {q : Query} (hgap : Blanks gap) (h : Found silent.priExp vs es q) :
    IsExpression es (gap ++ vs) q

/-- How an operand before `es` is put together. -/
inductive IsOperand (es : List Char) : (us : List Char) → (q : Query) → Prop where
  | paren {us gap : List Char} {q : Query} (hgap : Blanks gap)
    (h : Found silent.logicalExp us (gap ++ ')' :: es) q) :
    IsOperand es ('(' :: (us ++ (gap ++ [')']))) q
  | quote {us gap : List Char} {q : Query} (hgap : Blanks gap)
    (h : Found silent.logicalExp us (gap ++ '"' :: es) q) :
    IsOperand es ('"' :: (us ++ (gap ++ ['"']))) q
  | atom {us : List Char} {q : Query} (h : Atom us es q) : IsOperand es us q

/-- Every expression that is found is put together in one of the ways of the grammar. -/
theorem Found.isExpression (h : Found silent.logicalExp us es q) : IsExpression es us q := by
  obtain ⟨c, t, ht, hc, rfl, hq⟩ := h
  obtain ⟨left, hleft, ht⟩ := exists_of_found_logicalExp ht
  obtain ⟨gap, hgap, hskip⟩ := exists_skipBlanks c
  obtain ⟨vs, l, hvs, hl, hfoundLeft⟩ := exists_found_priExp hleft
  rw [hvs] at hskip
  rcases ht with ⟨p, operator, right, rfl, hoperator, hright⟩ | ⟨right, rfl, hright, hop⟩ | ⟨rfl, -⟩
  · obtain ⟨ds, r, hds, hr, hfoundRight⟩ := exists_found_logicalExp hright
    obtain ⟨gap', hgap', hrest⟩ := token_yields_rest _ _ () _ hoperator
    rw [hrest, hds] at hskip hfoundLeft
    rw [eval_operator p hl hr operator, Except.ok.injEq] at hq
    obtain rfl : us = gap ++ (vs ++ (gap' ++ (p.keyword.toList ++ ds))) :=
      List.append_cancel_right (hc.symm.trans (hskip.trans (by simp)))
    exact hq ▸ .operator p hgap hgap' hfoundLeft hfoundRight
  · obtain ⟨ds, r, hds, hr, hfoundRight⟩ := exists_found_logicalExp hright
    rw [hds] at hskip hfoundLeft hop
    rw [eval_join hl hr, Except.ok.injEq] at hq
    obtain rfl : us = gap ++ (vs ++ ds) :=
      List.append_cancel_right (hc.symm.trans (hskip.trans (by simp)))
    exact hq ▸ .beside hgap hfoundLeft hfoundRight hop
  · rw [eval_only (by simp), hl, Except.ok.injEq] at hq
    obtain rfl : us = gap ++ vs :=
      List.append_cancel_right (hc.symm.trans (hskip.trans (by simp)))
    exact hq ▸ .alone hgap hfoundLeft

/-- What stands between delimiters. -/
theorem exists_found_inner {opening closing : String} {rule : Rule}
    (h : (silent.delimited opening closing rule c).found = some t)
    (hrule : rule = .paren ∨ rule = .quote) :
    ∃ us gap q, Blanks gap ∧ semantics.eval t = .ok q ∧
      c.rest = opening.toList ++ (us ++ (gap ++ (closing.toList ++ t.stop.rest))) ∧
      Found silent.logicalExp us (gap ++ (closing.toList ++ t.stop.rest)) q := by
  obtain ⟨first, inner, last, rfl, hfirst, hinner, hlast⟩ := exists_of_found_delimited h
  obtain ⟨us, q, hus, hq, hfound⟩ := exists_found_logicalExp hinner
  obtain ⟨-, hc⟩ := literal_yields_rest _ _ () _ hfirst
  obtain ⟨gap, hgap, hrest⟩ := token_yields_rest _ _ () _ hlast
  rw [hrest] at hfound
  refine ⟨us, gap, q, hgap, ?_, ?_, hfound⟩
  · rw [eval_delimited hrule, eval_only (by simp), hq]
  · rw [hc, hus, hrest]
    rfl

theorem Found.isOperand (h : Found silent.priExp us es q) : IsOperand es us q := by
  obtain ⟨c, t, ht, hc, rfl, hq⟩ := h
  rcases exists_of_found_priExp ht with ht | ht | ⟨item, rfl, hitem⟩
  · obtain ⟨vs, gap, q', hgap, hq', hrest, hfound⟩ := exists_found_inner ht (.inl rfl)
    obtain rfl := Except.ok.inj (hq.symm.trans hq')
    obtain rfl : us = '(' :: (vs ++ (gap ++ [')'])) :=
      List.append_cancel_right (hc.symm.trans (hrest.trans (by simp)))
    exact .paren hgap hfound
  · obtain ⟨vs, gap, q', hgap, hq', hrest, hfound⟩ := exists_found_inner ht (.inr rfl)
    obtain rfl := Except.ok.inj (hq.symm.trans hq')
    obtain rfl : us = '"' :: (vs ++ (gap ++ ['"'])) :=
      List.append_cancel_right (hc.symm.trans (hrest.trans (by simp)))
    exact .quote hgap hfound
  · obtain ⟨-, cs, q', hatom, hrest, hq'⟩ : IsAtom c item :=
      hitem.elim (keywordExp_yields_atom c () item) (ident_yields_atom c () item)
    rw [eval_only (by simp), hq', Except.ok.injEq] at hq
    obtain rfl : us = cs := List.append_cancel_right (hc.symm.trans hrest)
    exact .atom (hq ▸ hatom)

/-- Otherwise, an operand in quotes would go on with what follows it. -/
theorem Found.no_quote (h : Found silent.priExp us es q) (hus : us.head? = some '"') :
    ∀ ds, Text.afterExp es = some ds → (afterBlanks ds).head? ≠ some '"' := by
  cases h.isOperand with
  | paren => exact absurd hus (by simp)
  | quote hgap h =>
    have hends := afterExp_of_afterExp h.afterExp
    rw [afterExp_mark_eq_none_iff hgap (by decide)] at hends
    exact afterOperand_quote_eq_none_iff.1 hends
  | atom h =>
    obtain ⟨_, _, rfl, ⟨x, xs, rfl, hx, -⟩, -⟩ := h.exists_identifier
    obtain rfl : x = '"' := by simpa using hus
    exact absurd hx (by decide)

end Query

/-! ## Other contexts -/

namespace Text

/-- Behind the expression `us`, the text `ks` can stand in the place of `es`. It ends the
expression, and it begins with a quote only if `es` does or if `us` has no quote that it could
belong to. -/
structure TakesPlace (us es ks : List Char) : Prop where
  exp : afterExp ks = none
  name : Replaces ks es
  colon : (afterBlanks ks).head? ≠ some ':'
  quote : '"' ∈ us → (afterBlanks ks).head? = some '"' → (afterBlanks es).head? = some '"'

variable {us vs es ks : List Char}

theorem TakesPlace.of_subset (h : TakesPlace us es ks) (hvs : vs ⊆ us) : TakesPlace vs es ks where
  exp := h.exp
  name := h.name
  colon := h.colon
  quote hmem := h.quote (hvs hmem)

/-- An expression is read at the end as well. -/
theorem takesPlace_nil (us es : List Char) : TakesPlace us es [] where
  exp := afterExp_nil
  name := replaces_nil es
  colon := nofun
  quote _ := nofun

/-- A closing delimiter stands before any text as it does before another. -/
theorem takesPlace_mark (us es : List Char) {gap : List Char} (hgap : Blanks gap) {x : Char}
    (hx : isBlank x = false) (hcolon : x ≠ ':') (hends : afterOperand (x :: ks) = none) :
    TakesPlace us (gap ++ x :: es) (gap ++ x :: ks) where
  exp := (afterExp_mark_eq_none_iff hgap hx).2 hends
  name := .of_head (by cases gap <;> rfl)
  colon := by simpa [afterBlanks_mark hgap hx] using hcolon
  quote _ h := by simpa [afterBlanks_mark hgap hx] using h

end Text

namespace Query

variable {us vs ds es fs fs' ks : List Char} {q left right : Query}

/-- An operand that begins with a letter is a word or a filter. -/
theorem Found.isAtom {x : Char} (h : Found silent.priExp (x :: us) es q) (hx : isLetter x) :
    Atom (x :: us) es q := by
  cases h.isOperand with
  | paren => exact absurd hx (by decide)
  | quote => exact absurd hx (by decide)
  | atom h => exact h

/-- An expression begins with an operand. -/
theorem Found.exists_left (h : Found silent.logicalExp ds es q) :
    ∃ gap vs tail left, Blanks gap ∧ ds = gap ++ (vs ++ tail) ∧
      Found silent.priExp vs (tail ++ es) left := by
  cases h.isExpression with
  | operator p hgap hgap' hleft => exact ⟨_, _, _, _, hgap, rfl, by simpa using hleft⟩
  | beside hgap hleft => exact ⟨_, _, _, _, hgap, rfl, hleft⟩
  | alone hgap h => exact ⟨_, _, [], _, hgap, by simp, h⟩

/-- An operator at the beginning of an expression belongs to the expression. -/
theorem Found.exists_keyword (h : Found silent.logicalExp ds es q) (hks : Replaces ks es)
    {p : Connective} {cs : List Char} (hcs : afterBlanks (ds ++ ks) = p.keyword.toList ++ cs) :
    ∃ gap ds', Blanks gap ∧ ds = gap ++ (p.keyword.toList ++ ds') ∧ cs = ds' ++ ks := by
  obtain ⟨gap, vs, tail, left, hgap, rfl, hleft⟩ := h.exists_left
  obtain ⟨x, xs, hp, hx, -⟩ := isIdentifier_operator (keyword_eq p)
  -- The operand begins with a letter, so it begins with an identifier.
  obtain ⟨y, ys, rfl⟩ := List.exists_cons_of_ne_nil hleft.ne_nil
  obtain ⟨_, _, heq, hopens⟩ := opens_of_afterOperand hleft.afterOperand
  obtain ⟨rfl, -⟩ := List.cons.inj heq
  have hblanks : afterBlanks (gap ++ (y :: ys ++ tail) ++ ks) = y :: ys ++ (tail ++ ks) := by
    simpa using afterBlanks_mark hgap (not_isBlank_of_opens hopens) (ys ++ (tail ++ ks))
  rw [hblanks] at hcs
  have hletter : isLetter y := by
    rw [hp] at hcs
    exact (List.cons.inj hcs).1 ▸ hx
  obtain ⟨name, rest, hname, -, hends⟩ := (hleft.isAtom hletter).exists_identifier
  have hends' : EndsName (rest ++ (tail ++ ks)) :=
    hends.replaces (replaces_append rest (replaces_append tail hks))
  have hprefix : p.keyword.toList <+: name ++ (rest ++ (tail ++ ks)) := by
    refine ⟨cs, ?_⟩
    rw [← hcs, hname]
    simp
  obtain ⟨name', rfl⟩ := prefix_of_endsName (isIdentifier_operator (keyword_eq p)) hends' hprefix
  refine ⟨gap, name' ++ (rest ++ tail), hgap, by simp [hname], ?_⟩
  rw [hname] at hcs
  exact List.append_cancel_left (hcs.symm.trans (by simp))

/-- An operator that no expression follows leads to none before other texts. -/
theorem bind_afterExp_of_takesPlace (h : Found silent.logicalExp ds es q)
    (hks : TakesPlace ds es ks) (p : Connective)
    (hop : (afterLiteral p.keyword (afterBlanks (ds ++ es))).bind Text.afterExp = none) :
    (afterLiteral p.keyword (afterBlanks (ds ++ ks))).bind Text.afterExp = none := by
  by_contra hsome
  obtain ⟨k, hk⟩ := Option.ne_none_iff_exists'.1 hsome
  obtain ⟨cs, hcs, hread⟩ := Option.bind_eq_some_iff.1 hk
  obtain ⟨gap, ds', hgap, rfl, rfl⟩ := h.exists_keyword hks.name (afterLiteral_eq_some_iff.1 hcs)
  have hes : Text.afterExp (ds' ++ es) = none := by
    simpa [afterBlanks_keyword hgap, afterLiteral_append] using hop
  obtain ⟨gap', hgap', hds'⟩ := exists_blanks ds'
  cases hrest : afterBlanks ds' with
  | nil =>
    rw [hds', hrest, List.append_nil, afterExp_blanks_append hgap', hks.exp] at hread
    contradiction
  | cons x xs =>
    have hx := not_isBlank_of_afterBlanks hrest
    rw [hrest] at hds'
    have hblanks (cs : List Char) : afterBlanks (ds' ++ cs) = x :: (xs ++ cs) := by
      rw [hds', List.append_assoc]
      exact afterBlanks_mark hgap' hx (xs ++ cs)
    have hopens : opens x := by
      obtain ⟨y, ys, hy, hopens⟩ := opens_of_afterExp hread
      rw [hblanks ks] at hy
      exact (List.cons.inj hy).1 ▸ hopens
    have hword := afterExp_operator_of_none (keyword_eq p) hes (hblanks es) hopens
    have hexp := h.afterExp
    rw [← afterExp_afterBlanks, List.append_assoc, List.append_assoc, afterBlanks_keyword hgap,
      hword, Option.some.injEq] at hexp
    have := congrArg List.length hexp
    rw [hds'] at this
    simp at this
    omega

/-- Expressions of fewer than `n` characters are read before other texts. -/
def Movable (n : Nat) : Prop :=
  ∀ {us es ks : List Char} {q : Query}, us.length < n → Found silent.logicalExp us es q →
    TakesPlace us es ks → Finds silent.logicalExp us ks q

theorem Movable.of_le {m n : Nat} (h : Movable n) (hmn : m ≤ n) : Movable m :=
  fun hlt => h (Nat.lt_of_lt_of_le hlt hmn)

/-- Where the expression behind an operand ends elsewhere, the operand is still no part of a longer
one in quotes. -/
theorem no_quote_of_takesPlace (h : Found silent.priExp vs fs q) (hfs : Text.afterExp fs = some es)
    (hfs' : Text.afterExp fs' = some ks) (hks : TakesPlace vs es ks) (hvs : vs.head? = some '"') :
    ∀ gs, Text.afterExp fs' = some gs → (afterBlanks gs).head? ≠ some '"' := by
  intro gs hgs hhead
  obtain rfl : ks = gs := Option.some.inj (hfs'.symm.trans hgs)
  exact h.no_quote hvs es hfs (hks.quote (List.mem_of_mem_head? hvs) hhead)

/-- An operand is read before other texts if the expressions in it are. -/
theorem finds_operand_of (hin : Movable us.length) (h : Found silent.priExp us es q)
    (hname : Replaces ks es) (hcolon : (afterBlanks ks).head? ≠ some ':')
    (hquote : us.head? = some '"' →
      ∀ ds, Text.afterExp ks = some ds → (afterBlanks ds).head? ≠ some '"') :
    Finds silent.priExp us ks q := by
  cases h.isOperand with
  | @paren vs gap _ hgap hinner =>
    have hends : Text.afterOperand (')' :: ks) = none := afterOperand_of_not_opens (by decide)
    refine finds_paren hgap (hin (by grind) hinner ?_)
    exact takesPlace_mark vs es hgap (by decide) (by decide) hends
  | @quote vs gap _ hgap hinner =>
    have hends : Text.afterOperand ('"' :: ks) = none :=
      afterOperand_quote_eq_none_iff.2 (hquote rfl)
    refine finds_quote hgap (hin (by grind) hinner ?_)
    exact takesPlace_mark vs es hgap (by decide) (by decide) hends
  | atom h => exact (h.replaces hname).finds hcolon

/-- A last operand is read before other texts. -/
theorem finds_last_of (hin : Movable us.length) (h : Found silent.priExp us es q)
    (hks : TakesPlace us es ks) : Finds silent.priExp us ks q := by
  refine finds_operand_of hin h hks.name hks.colon fun _ ds hds => ?_
  rw [hks.exp] at hds
  contradiction

/-- An operand is read before another expression that stands in the place of the one behind it. -/
theorem finds_first_of (hin : Movable vs.length) (h : Found silent.priExp vs fs left)
    (hname : Replaces fs' fs) (hfs : Text.afterExp fs = some es)
    (hfs' : Text.afterExp fs' = some ks) (hks : TakesPlace vs es ks) :
    Finds silent.priExp vs fs' left :=
  finds_operand_of hin h hname (head_ne_colon_of_afterExp hfs')
    (no_quote_of_takesPlace h hfs hfs' hks)

theorem finds_operator_of (hin : Movable vs.length) (p : Connective) {gap : List Char}
    (hgap : Blanks gap)
    (hleft : Found silent.priExp vs (gap ++ (p.keyword.toList ++ (ds ++ es))) left)
    (hright : Found silent.logicalExp ds es right) (hks : TakesPlace vs es ks)
    (hmoved : Finds silent.logicalExp ds ks right) :
    Finds silent.logicalExp (vs ++ (gap ++ (p.keyword.toList ++ ds))) ks
      (combine p left right) := by
  have hread (cs : List Char) {k : List Char} (hk : Text.afterExp cs = some k) :
      Text.afterExp (gap ++ (p.keyword.toList ++ cs)) = some k := by
    rw [← afterExp_afterBlanks, afterBlanks_keyword hgap]
    exact afterExp_operator (keyword_eq p) hk
  have hname : Replaces (gap ++ (p.keyword.toList ++ (ds ++ ks)))
      (gap ++ (p.keyword.toList ++ (ds ++ es))) :=
    replaces_append gap (replaces_append _ (replaces_append ds hks.name))
  refine finds_operator p hgap ?_ hmoved
  exact finds_first_of hin hleft hname (hread _ hright.afterExp) (hread _ hmoved.afterExp) hks

theorem finds_beside_of (hin : Movable vs.length) (hleft : Found silent.priExp vs (ds ++ es) left)
    (hright : Found silent.logicalExp ds es right) (hks : TakesPlace (vs ++ ds) es ks)
    (hmoved : Finds silent.logicalExp ds ks right)
    (hop : ∀ p : Connective,
      (afterLiteral p.keyword (afterBlanks (ds ++ es))).bind Text.afterExp = none) :
    Finds silent.logicalExp (vs ++ ds) ks (juxtapose left right) := by
  have hname : Replaces (ds ++ ks) (ds ++ es) := replaces_append ds hks.name
  refine finds_beside ?_ hmoved fun p =>
    bind_afterExp_of_takesPlace hright (hks.of_subset (List.subset_append_right vs ds)) p (hop p)
  exact finds_first_of hin hleft hname hright.afterExp hmoved.afterExp
    (hks.of_subset (List.subset_append_left vs ds))

/-- What is read as an expression is read with the same value before other texts. -/
theorem Found.finds_expression (h : Found silent.logicalExp us es q) (hks : TakesPlace us es ks) :
    Finds silent.logicalExp us ks q := by
  induction hn : us.length using Nat.strongRecOn generalizing us es ks q with
  | ind n ih =>
    subst hn
    have hin : Movable us.length := fun hlt h hks => ih _ hlt h hks rfl
    cases h.isExpression with
    | @operator gap vs gap' ds left right p hgap hgap' hleft hright =>
      have hpos := List.length_pos_iff.2 hleft.ne_nil
      have hmoved := hin (by grind) hright (hks.of_subset fun x hx => by simp [hx])
      have hvs : TakesPlace vs es ks := hks.of_subset fun x hx => by simp [hx]
      refine finds_blanks hgap (finds_operator_of ?_ p hgap' hleft hright hvs hmoved)
      exact hin.of_le (by grind)
    | @beside gap vs ds left right hgap hleft hright hop =>
      have hpos := List.length_pos_iff.2 hleft.ne_nil
      have hmoved := hin (by grind) hright (hks.of_subset fun x hx => by simp [hx])
      have hvs := hks.of_subset (List.subset_append_right gap (vs ++ ds))
      refine finds_blanks hgap (finds_beside_of ?_ hleft hright hvs hmoved hop)
      exact hin.of_le (by grind)
    | @alone gap vs _ hgap h =>
      have hvs := hks.of_subset (List.subset_append_right gap vs)
      exact finds_blanks hgap (finds_alone (finds_last_of (hin.of_le (by simp)) h hvs) hks.exp)

/-- What is read as an operand is read with the same value before other texts. -/
theorem Found.finds_operand (h : Found silent.priExp us es q) (hks : TakesPlace us es ks) :
    Finds silent.priExp us ks q :=
  finds_last_of (fun _ => Found.finds_expression) h hks

end Query

end SearchQuery
