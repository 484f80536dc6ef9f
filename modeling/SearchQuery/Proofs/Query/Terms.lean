import SearchQuery.Proofs.Query.Flat
import SearchQuery.Proofs.Query.Total
import SearchQuery.Proofs.Query.WellFormed

/-!
# The terms of a query

Words and filters are the terms of a query. Words next to each other become one text and nested
combinations are merged, but the query has the terms of its tree, all of them and in their order.

## Main definitions

* `Term` — a word or a filter.
* `ParseTree.terms`, `Query.terms` — the terms in a tree and in a query.

Main statement: `Query.terms_of_ofQuery`.
-/

namespace SearchQuery

open Text

inductive Term where
  | word (name : String)
  | filter (key : String) (value : Query)
deriving DecidableEq, Repr

namespace ParseTree

/-- The terms that the node stands for itself: a word for an operand that is an identifier, and a
filter with its value. -/
def ownTerms (n : ParseTree) : List (Except QueryError Term) :=
  match n.rule, n.children with
  | .priExp, [item] => if item.rule = .ident then [.ok (.word item.text)] else []
  | .keywordQuoted, [key, _, value, _] | .keywordSimple, [key, _, value] =>
    [(Query.semantics.eval value).map (.filter key.text)]
  | _, _ => []

def terms (t : ParseTree) : List (Except QueryError Term) :=
  t.ownTerms ++ t.children.flatMap fun c => terms c
termination_by sizeOf t
decreasing_by exact sizeOf_lt_of_mem_children (by assumption)

variable {k : Category} {t : ParseTree} {s : String}

theorem terms_leaf (hchildren : t.children = []) : t.terms = [] := by
  rw [terms, ownTerms, hchildren]
  cases t.rule <;> rfl

theorem terms_node (rule : Rule) (first : ParseTree) (others : List ParseTree) :
    (node rule first others).terms =
      (node rule first others).ownTerms ++ (first.terms ++ others.flatMap terms) := by
  rw [terms]
  rfl

theorem ownTerms_quoted (key opening value closing : ParseTree) :
    (node .keywordQuoted key [opening, value, closing]).ownTerms =
      [(Query.semantics.eval value).map (.filter key.text)] := rfl

theorem ownTerms_simple (key colon value : ParseTree) :
    (node .keywordSimple key [colon, value]).ownTerms =
      [(Query.semantics.eval value).map (.filter key.text)] := rfl

/-- Only operands and filters can be terms themselves. -/
theorem ownTerms_eq_nil (h : t.rule ∉ [.priExp, .keywordQuoted, .keywordSimple]) :
    t.ownTerms = [] := by
  unfold ownTerms
  split <;> simp_all

/-- Only operands and filters have terms of their own. -/
theorem terms_node_of_notMem {rule : Rule} (h : rule ∉ [.priExp, .keywordQuoted, .keywordSimple])
    (first : ParseTree) (others : List ParseTree) :
    (node rule first others).terms = first.terms ++ others.flatMap terms := by
  rw [terms_node, ownTerms_eq_nil (t := node rule first others) h, List.nil_append]

theorem IsMark.terms (h : t.IsMark s) : t.terms = [] := terms_leaf h.2.2

theorem IsGap.terms (h : t.IsGap) : t.terms = [] := terms_leaf h.2

/-- Keys and values hold no terms of their own. -/
theorem Derives.terms (h : Derives k t) (hk : k = .ident ∨ k = .spacedString) : t.terms = [] := by
  induction h with
  | ident _ => exact terms_leaf rfl
  | first _ ih => simp [terms_node_of_notMem, ih (.inl rfl)]
  | spaced _ hgap _ ihleft ihright =>
    simp [terms_node_of_notMem, ihleft (.inr rfl), hgap.terms, ihright (.inl rfl)]
  | _ => simp at hk

end ParseTree

namespace Query

open ParseTree

/-- The terms in a query, from left to right. The words of a text stand between single spaces. -/
def terms : Query → List Term
  | text value => (value.toList.splitOn ' ').map fun word => .word (String.ofList word)
  | keyword key value => [.filter key (text value)]
  | logic _ children => children.flatMap terms

@[simp] theorem terms_text (value : String) :
    (text value).terms = (value.toList.splitOn ' ').map fun word => .word (String.ofList word) := by
  rw [terms]

@[simp] theorem terms_keyword (key value : String) :
    (keyword key value).terms = [.filter key (text value)] := by
  rw [terms]

@[simp] theorem terms_logic (p : Connective) (children : List Query) :
    (logic p children).terms = children.flatMap terms := by
  rw [terms]

variable {k : Category} {t : ParseTree} {s : String}

/-- An identifier is a text of one word. -/
theorem terms_identifier (h : IsIdentifier s.toList) : (text s).terms = [.word s] := by
  have hspace : ' ' ∉ s.toList := fun hs => ne_space_of_isNameChar (h.isNameChar_of_mem hs) rfl
  rw [terms_text, List.splitOn_eq_singleton hspace]
  simp

/-! ## Combinations -/

/-- Combining keeps the terms in order. -/
theorem terms_combine (p : Connective) (left right : Query) :
    (combine p left right).terms = left.terms ++ right.terms := by
  rw [combine, flatten_of_logic terms_logic, terms_logic]
  simp

/-- Two texts become one, with a space where they meet. -/
theorem terms_juxtapose (left right : Query) :
    (juxtapose left right).terms = left.terms ++ right.terms := by
  cases left with
  | text left =>
    cases right with
    | text right => simp [juxtapose, List.splitOn_append_cons_self]
    | keyword _ _ | logic _ _ => exact terms_combine _ _ _
  | keyword _ _ | logic _ _ => exact terms_combine _ _ _

/-! ## Trees -/

/-- The value of an expression, an operand or a filter has the terms of the tree. -/
theorem exists_eval_terms (h : Derives k t) (hk : ¬(k = .ident ∨ k = .spacedString)) :
    ∃ q, semantics.eval t = .ok q ∧ t.terms = q.terms.map .ok := by
  induction h with
  | exp _ ih | alone _ ih =>
    rw [eval_only (by simp), terms_node_of_notMem (by decide)]
    simpa using ih (by simp)
  | operator p _ hoperator _ ihleft ihright =>
    obtain ⟨left, hleft, htleft⟩ := ihleft (by simp)
    obtain ⟨right, hright, htright⟩ := ihright (by simp)
    refine ⟨_, eval_operator p hleft hright _, ?_⟩
    rw [terms_node_of_notMem (by cases p <;> decide)]
    simp [terms_combine, htleft, htright, hoperator.terms]
  | join _ _ ihleft ihright =>
    obtain ⟨left, hleft, htleft⟩ := ihleft (by simp)
    obtain ⟨right, hright, htright⟩ := ihright (by simp)
    refine ⟨_, eval_join hleft hright, ?_⟩
    rw [terms_node_of_notMem (by decide)]
    simp [terms_juxtapose, htleft, htright]
  | paren hopening _ hclosing ih =>
    rw [eval_delimited (.inl rfl), terms_node_of_notMem (by decide)]
    simpa [hopening.terms, hclosing.terms] using ih (by simp)
  | quote hopening _ hclosing ih =>
    rw [eval_delimited (.inr rfl), terms_node_of_notMem (by decide)]
    simpa [hopening.terms, hclosing.terms] using ih (by simp)
  | @filter t h ih =>
    -- The filter is a term itself, so the operand that it stands for is none.
    have hrule : t.rule ≠ .ident := by cases h <;> simp [node]
    have hown : (node .priExp t []).ownTerms = [] := if_neg hrule
    rw [eval_only (by simp), terms_node, hown]
    simpa using ih (by simp)
  | word h _ =>
    rw [eval_only (by simp), terms_node, h.terms (.inl rfl)]
    cases h with
    | ident h =>
      refine ⟨_, eval_ident _ _, ?_⟩
      rw [terms_identifier h]
      rfl
  | quoted hkey hopening hvalue hclosing _ _ =>
    obtain ⟨value, hv⟩ := exists_eval_text hvalue (.inr rfl)
    refine ⟨_, eval_quoted hv _ _, ?_⟩
    simp [terms_node, ownTerms_quoted, hv, Except.map, hkey.terms, hopening.terms, hvalue.terms,
      hclosing.terms]
  | simple hkey hcolon hvalue _ _ =>
    obtain ⟨value, hv⟩ := exists_eval_text hvalue (.inl rfl)
    refine ⟨_, eval_simple hv _, ?_⟩
    simp [terms_node, ownTerms_simple, hv, Except.map, hkey.terms, hcolon.terms, hvalue.terms]
  | spaced _ _ _ _ _ | first _ _ | ident _ => simp at hk

/-- The query has the terms of its tree. -/
theorem terms_of_ofQuery (h : ParseTree.ofQuery s = .ok t) :
    ∃ q, parse s = .ok q ∧ t.terms = q.terms.map .ok := by
  rw [parse_of_ofQuery_ok h]
  exact exists_eval_terms (derives_of_ofQuery h) (by simp)

/-- A filter, and words on their own and in a text. -/
theorem terms_of_ofQuery_filter :
    let s := "k:\"v\tw\"(a OR b c)"
    let q := logic .and [keyword "k" "v w", logic .or [text "a", text "b c"]]
    ∃ t, ParseTree.ofQuery s = .ok t ∧ parse s = .ok q ∧ t.terms = q.terms.map .ok ∧
      q.terms = [.filter "k" (text "v w"), .word "a", .word "b", .word "c"] := by
  intro s q
  have hparse : parse s = .ok q := by decide +kernel
  obtain ⟨t, ht⟩ := exists_ofQuery_of_parse hparse
  obtain ⟨q', hq', hterms⟩ := terms_of_ofQuery ht
  obtain rfl := Except.ok.inj (hparse.symm.trans hq')
  refine ⟨t, ht, hparse, hterms, ?_⟩
  simp only [q, terms_logic, terms_text, terms_keyword, List.flatMap_cons, List.flatMap_nil]
  decide

end Query

end SearchQuery
