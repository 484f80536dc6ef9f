import SearchQuery.Proofs.Query.Value
import SearchQuery.Proofs.Tree.Lossless

/-!
# Derivations

The trees of the grammar, category by category. What holds of them is proved by one induction, with
a case for each alternative.

## Main definitions

* `ParseTree.IsMark`, `ParseTree.IsGap` — leaves that are no identifiers.
* `ParseTree.Derives` — the trees of a category.

Main statements: `ParseTree.derives_of_ofQuery`, and `ParseTree.everywhere_realizes` for every node.
-/

namespace SearchQuery

open Text

namespace ParseTree

def IsMark (s : String) (t : ParseTree) : Prop := t.rule = .terminal ∧ t.text = s ∧ t.children = []

def IsGap (t : ParseTree) : Prop := t.rule = .spaces ∧ t.children = []

/-- The trees of each category, with a constructor for each alternative of the grammar. -/
inductive Derives : Category → ParseTree → Prop where
  | exp {t : ParseTree} (h : Derives .logicalExp t) : Derives .exp (.node .exp t [])
  | operator (p : Connective) {left operator right : ParseTree} (hleft : Derives .priExp left)
    (hoperator : operator.IsMark p.keyword) (hright : Derives .logicalExp right) :
    Derives .logicalExp (.node p.rule left [operator, right])
  | join {left right : ParseTree} (hleft : Derives .priExp left)
    (hright : Derives .logicalExp right) : Derives .logicalExp (.node .logicalJoin left [right])
  | alone {t : ParseTree} (h : Derives .priExp t) : Derives .logicalExp (.node .logicalExp t [])
  | paren {opening inner closing : ParseTree} (hopening : opening.IsMark "(")
    (h : Derives .exp inner) (hclosing : closing.IsMark ")") :
    Derives .priExp (.node .paren opening [inner, closing])
  | quote {opening inner closing : ParseTree} (hopening : opening.IsMark "\"")
    (h : Derives .exp inner) (hclosing : closing.IsMark "\"") :
    Derives .priExp (.node .quote opening [inner, closing])
  | filter {t : ParseTree} (h : Derives .keywordExp t) : Derives .priExp (.node .priExp t [])
  | word {t : ParseTree} (h : Derives .ident t) : Derives .priExp (.node .priExp t [])
  | quoted {key opening value closing : ParseTree} (hkey : Derives .ident key)
    (hopening : opening.IsMark ":\"") (hvalue : Derives .spacedString value)
    (hclosing : closing.IsMark "\"") :
    Derives .keywordExp (.node .keywordQuoted key [opening, value, closing])
  | simple {key colon value : ParseTree} (hkey : Derives .ident key) (hcolon : colon.IsMark ":")
    (hvalue : Derives .ident value) :
    Derives .keywordExp (.node .keywordSimple key [colon, value])
  | spaced {left gap right : ParseTree} (hleft : Derives .spacedString left) (hgap : gap.IsGap)
    (hright : Derives .ident right) : Derives .spacedString (.node .spaced left [gap, right])
  | first {t : ParseTree} (h : Derives .ident t) :
    Derives .spacedString (.node .spacedString t [])
  | ident {c d : Cursor} (h : IsIdentifier (leaf .ident c d).text.toList) :
    Derives .ident (.leaf .ident c d)

def Realizes : (i : Item) → (t : ParseTree) → Prop
  | .literal s, t => t.IsMark s
  | .category .spaces, t => t.IsGap
  | .category k, t => Derives k t

variable {s : String} {t n : ParseTree} {k : Category}

/-- An alternative makes a tree of its category from trees for its items. -/
theorem derives_node {a : Alternative} (ha : a ∈ k.alternatives) {others : List ParseTree}
    (h : List.Forall₂ Realizes a.items (t :: others)) : Derives k (.node a.rule t others) := by
  cases k with
  | exp =>
    obtain rfl := List.mem_singleton.1 ha
    obtain _ | ⟨h, _ | _⟩ := h
    exact .exp h
  | logicalExp =>
    simp only [Category.alternatives, List.mem_cons, List.not_mem_nil, or_false] at ha
    rcases ha with rfl | rfl | rfl | rfl
    · obtain _ | ⟨hleft, _ | ⟨hoperator, _ | ⟨hright, _ | _⟩⟩⟩ := h
      exact .operator .and hleft hoperator hright
    · obtain _ | ⟨hleft, _ | ⟨hoperator, _ | ⟨hright, _ | _⟩⟩⟩ := h
      exact .operator .or hleft hoperator hright
    · obtain _ | ⟨hleft, _ | ⟨hright, _ | _⟩⟩ := h
      exact .join hleft hright
    · obtain _ | ⟨h, _ | _⟩ := h
      exact .alone h
  | priExp =>
    simp only [Category.alternatives, List.mem_cons, List.not_mem_nil, or_false] at ha
    rcases ha with rfl | rfl | rfl | rfl
    · obtain _ | ⟨hopening, _ | ⟨h, _ | ⟨hclosing, _ | _⟩⟩⟩ := h
      exact .paren hopening h hclosing
    · obtain _ | ⟨hopening, _ | ⟨h, _ | ⟨hclosing, _ | _⟩⟩⟩ := h
      exact .quote hopening h hclosing
    · obtain _ | ⟨h, _ | _⟩ := h
      exact .filter h
    · obtain _ | ⟨h, _ | _⟩ := h
      exact .word h
  | keywordExp =>
    simp only [Category.alternatives, List.mem_cons, List.not_mem_nil, or_false] at ha
    rcases ha with rfl | rfl
    · obtain _ | ⟨hkey, _ | ⟨hopening, _ | ⟨hvalue, _ | ⟨hclosing, _ | _⟩⟩⟩⟩ := h
      exact .quoted hkey hopening hvalue hclosing
    · obtain _ | ⟨hkey, _ | ⟨hcolon, _ | ⟨hvalue, _ | _⟩⟩⟩ := h
      exact .simple hkey hcolon hvalue
  | spacedString =>
    simp only [Category.alternatives, List.mem_cons, List.not_mem_nil, or_false] at ha
    rcases ha with rfl | rfl
    · obtain _ | ⟨hleft, _ | ⟨hgap, _ | ⟨hright, _ | _⟩⟩⟩ := h
      exact .spaced hleft hgap hright
    · obtain _ | ⟨h, _ | _⟩ := h
      exact .first h
  | ident | spaces => contradiction

/-! ## Lossless trees -/

/-- A rule belongs to one category only. -/
theorem eq_of_rule_mem {k' : Category} {a : Alternative} (ha : a ∈ k'.alternatives)
    (h : a.rule ∈ k.rules) : k' = k := by
  have hrules : ∀ a ∈ k'.alternatives, a.rule ∈ k.rules → k' = k := by
    cases k' <;> cases k <;> decide
  exact hrules a ha h

/-- Only leaves have no alternative. -/
theorem arity_pos_of_mem_rules {r : Rule} (hr : r ∈ k.rules) (hident : k ≠ .ident)
    (hspaces : k ≠ .spaces) : 0 < r.arity := by
  have hrules : k ≠ .ident → k ≠ .spaces → ∀ r ∈ k.rules, 0 < r.arity := by
    cases k <;> decide
  exact hrules hident hspaces r hr

theorem exists_admits (t : ParseTree) : ∃ i : Item, i.Admits t := by
  have hrules : ∀ r ∈ Rule.all, r = .terminal ∨ ∃ k ∈ .spaces :: Category.all, r ∈ k.rules := by
    decide
  rcases hrules t.rule (Rule.mem_all _) with hrule | ⟨k, -, hk⟩
  · exact ⟨.literal t.text, hrule, rfl⟩
  · exact ⟨.category k, hk⟩

/-- A node runs from its first child to its last. -/
theorem Lossless.eq_node {first : ParseTree} {others : List ParseTree} (h : n.Lossless s)
    (hchildren : n.children = first :: others) : n = node n.rule first others := by
  obtain ⟨rule, start, stop, children⟩ := n
  obtain rfl : children = first :: others := hchildren
  have hstart : first.start = start := h.first first rfl
  have hstop : (others.getLastD first).stop = stop := by
    refine h.last _ ?_
    rw [List.getLast?_cons, List.getLastD_eq_getLast?]
    rfl
  rw [node, hstart, hstop]

theorem forall₂_of_forall_mem {α β : Type} {R S : α → β → Prop} {as : List α} {bs : List β}
    (h : List.Forall₂ R as bs) (hRS : ∀ a, ∀ b ∈ bs, R a b → S a b) : List.Forall₂ S as bs := by
  induction h with
  | nil => exact .nil
  | cons h _ ih =>
    have hrest := ih fun a b hb => hRS a b (List.mem_cons_of_mem _ hb)
    exact .cons (hRS _ _ List.mem_cons_self h) hrest

/-- A lossless tree is of the kind of every item that it can stand for. -/
theorem realizes_of_lossless (h : t.Everywhere (Lossless s)) :
    ∀ i : Item, i.Admits t → Realizes i t := by
  induction t with
  | mk rule start stop children ih =>
    intro i hi
    have hhere := h.here
    have hnil (hrule : rule.arity = 0) : children = [] :=
      List.length_eq_zero_iff.1 (hhere.arity.trans hrule)
    have hnode (k : Category) (hk : rule ∈ k.rules) (hident : k ≠ .ident) (hspaces : k ≠ .spaces) :
        Derives k ⟨rule, start, stop, children⟩ := by
      have hpos := arity_pos_of_mem_rules hk hident hspaces
      obtain ⟨first, others, rfl⟩ : ∃ first others, children = first :: others := by
        refine List.exists_cons_of_length_pos ?_
        exact Nat.lt_of_lt_of_eq hpos hhere.arity.symm
      obtain ⟨k', a, ha, hrule, hitems⟩ := hhere.produced nofun
      obtain rfl : a.rule = rule := hrule
      -- The alternative may be one of any category, but no other one has the rule.
      obtain rfl := eq_of_rule_mem ha hk
      rw [hhere.eq_node rfl]
      exact derives_node ha (forall₂_of_forall_mem hitems fun i u hu => ih u hu (h.child hu) i)
    cases i with
    | literal l =>
      obtain ⟨rfl, htext⟩ := hi
      exact ⟨rfl, htext, hnil rfl⟩
    | category k =>
      cases k with
      | exp | logicalExp | priExp | keywordExp | spacedString => exact hnode _ hi nofun nofun
      | ident =>
        obtain rfl : rule = .ident := List.mem_singleton.1 hi
        obtain rfl := hnil rfl
        exact .ident (hhere.ident rfl).1
      | spaces =>
        obtain rfl : rule = .spaces := List.mem_singleton.1 hi
        exact ⟨rfl, hnil rfl⟩

/-- What stands for an item is a tree of some category, or a fixed text or blanks. -/
theorem leaf_or_derives {i : Item} (h : Realizes i t) :
    (t.children = [] ∧ (t.rule = .terminal ∨ t.rule = .spaces)) ∨ ∃ k, Derives k t := by
  cases i with
  | literal l =>
    obtain ⟨hrule, -, hchildren⟩ := h
    exact .inl ⟨hchildren, .inl hrule⟩
  | category k =>
    cases k with
    | spaces =>
      obtain ⟨hrule, hchildren⟩ := h
      exact .inl ⟨hchildren, .inr hrule⟩
    | exp | logicalExp | priExp | keywordExp | spacedString | ident => exact .inr ⟨_, h⟩

/-- The tree of a query is a tree of the grammar. -/
theorem derives_of_ofQuery (h : ofQuery s = .ok t) : Derives .exp t := by
  obtain ⟨hfits, -⟩ := fits_of_ofQuery h
  exact realizes_of_lossless hfits.lossless (.category .exp) hfits.admits

/-- Each of its nodes is of the kind of some item. -/
theorem everywhere_realizes (h : ofQuery s = .ok t) : t.Everywhere fun n => ∃ i, Realizes i n := by
  intro path n hn
  obtain ⟨i, hi⟩ := exists_admits n
  obtain ⟨hfits, -⟩ := fits_of_ofQuery h
  exact ⟨i, realizes_of_lossless (hfits.lossless.descend hn) i hi⟩

end ParseTree

end SearchQuery
