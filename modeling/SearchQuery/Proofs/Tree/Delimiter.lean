import Mathlib.Algebra.Group.Nat.Even
import SearchQuery.Proofs.Tree.Derivation

/-!
# Delimiters

The delimiters in a query that is read are paired: parentheses are nested, and the number of quotes
is even. They are counted in the whole text, although parentheses may lie in quotes and quotes in
parentheses, and the quotes of a filter are not those of a phrase.

Blanks are no delimiters. So it is enough to know a query without its blanks, which are the leaves
of its tree, and what these can be is found by one induction on the tree.

## Main definitions

* `Text.solid` — a text without its blanks.
* `Text.Bare` — the shape of a query without its blanks.
* `Text.Nested`, `Text.Balanced` — a text with paired delimiters.

Main statement: `ParseTree.balanced_of_ofQuery`.
-/

namespace SearchQuery

namespace Text

def solid (cs : List Char) : List Char := cs.filter fun x => !isBlank x

inductive Bare : List Char → Prop where
  | word {cs : List Char} (h : IsIdentifier cs) : Bare cs
  | append {cs ds : List Char} (h : Bare cs) (h' : Bare ds) : Bare (cs ++ ds)
  | paren {cs : List Char} (h : Bare cs) : Bare ('(' :: (cs ++ [')']))
  | quote {cs : List Char} (h : Bare cs) : Bare ('"' :: (cs ++ ['"']))
  | filter {key value : List Char} (hkey : Bare key) (hvalue : Bare value) :
    Bare (key ++ ':' :: value)

/-- Every parenthesis is closed, and none before it was opened. -/
structure Nested (cs : List Char) : Prop where
  opened : ∀ front, front <+: cs → front.count ')' ≤ front.count '('
  closed : cs.count ')' = cs.count '('

/-- Parentheses are nested, and every quote has another one to it. -/
structure Balanced (cs : List Char) : Prop extends Nested cs where
  quotes : Even (cs.count '"')

variable {cs ds front : List Char}

/-! ## Texts with paired delimiters -/

theorem Nested.of_notMem (hopening : '(' ∉ cs) (hclosing : ')' ∉ cs) : Nested cs := by
  constructor
  · intro front hfront
    rw [List.count_eq_zero_of_not_mem fun h => hclosing (hfront.subset h)]
    exact Nat.zero_le _
  · rw [List.count_eq_zero_of_not_mem hclosing, List.count_eq_zero_of_not_mem hopening]

theorem Nested.append (hcs : Nested cs) (hds : Nested ds) : Nested (cs ++ ds) := by
  constructor
  · intro front hfront
    rcases List.prefix_or_prefix_of_prefix hfront (List.prefix_append cs ds) with h | ⟨more, rfl⟩
    · exact hcs.opened front h
    · have hmore := hds.opened more ((List.prefix_append_right_inj cs).1 hfront)
      rw [List.count_append, List.count_append, hcs.closed]
      exact Nat.add_le_add_left hmore _
  · rw [List.count_append, List.count_append, hcs.closed, hds.closed]

theorem Nested.paren (h : Nested cs) : Nested ('(' :: (cs ++ [')'])) := by
  constructor
  · intro front hfront
    rcases List.prefix_cons_iff.1 hfront with rfl | ⟨more, rfl, hmore⟩
    · simp
    · rcases List.prefix_concat_iff.1 hmore with rfl | hmore
      · simp [h.closed]
      · simpa using Nat.le_succ_of_le (h.opened more hmore)
  · simp [h.closed]

theorem Balanced.of_notMem (hopening : '(' ∉ cs) (hclosing : ')' ∉ cs) (hquote : '"' ∉ cs) :
    Balanced cs :=
  ⟨.of_notMem hopening hclosing, by simp [List.count_eq_zero_of_not_mem hquote]⟩

theorem Balanced.append (hcs : Balanced cs) (hds : Balanced ds) : Balanced (cs ++ ds) :=
  ⟨hcs.toNested.append hds.toNested, by
    rw [List.count_append]
    exact hcs.quotes.add hds.quotes⟩

theorem Balanced.paren (h : Balanced cs) : Balanced ('(' :: (cs ++ [')'])) :=
  ⟨h.toNested.paren, by simpa using h.quotes⟩

theorem Balanced.quote (h : Balanced cs) : Balanced ('"' :: (cs ++ ['"'])) := by
  have hquote : Nested ['"'] := .of_notMem (by decide) (by decide)
  refine ⟨hquote.append (h.toNested.append hquote), ?_⟩
  simpa [Nat.even_add_one] using h.quotes

/-- Blanks neither open nor close anything. -/
theorem balanced_of_solid (h : Balanced (solid cs)) : Balanced cs := by
  have hcount (x : Char) (hx : isBlank x = false) (ds : List Char) :
      (solid ds).count x = ds.count x :=
    List.count_filter (by simp [hx])
  have hopening := hcount '(' (by decide)
  have hclosing := hcount ')' (by decide)
  refine ⟨⟨fun front hfront => ?_, ?_⟩, ?_⟩
  · have hopened := h.opened _ (hfront.filter _)
    rwa [← hopening, ← hclosing]
  · rw [← hopening, ← hclosing]
    exact h.closed
  · rw [← hcount '"' (by decide)]
    exact h.quotes

/-! ## Queries without blanks -/

/-- Words and filters in delimiters have their delimiters paired. -/
theorem Bare.balanced (h : Bare cs) : Balanced cs := by
  induction h with
  | @word cs h =>
    have hdelimiter (x : Char) (hx : isNameChar x = false) : x ∉ cs := fun hmem => by
      simp [h.isNameChar_of_mem hmem] at hx
    exact .of_notMem (hdelimiter '(' (by decide)) (hdelimiter ')' (by decide))
      (hdelimiter '"' (by decide))
  | append _ _ ihcs ihds => exact ihcs.append ihds
  | paren _ ih => exact ih.paren
  | quote _ ih => exact ih.quote
  | filter _ _ ihkey ihvalue =>
    have hcolon : Balanced [':'] := .of_notMem (by decide) (by decide) (by decide)
    exact ihkey.append (hcolon.append ihvalue)

/-- It holds parts of words and delimiters only. -/
theorem Bare.isNameChar_or_mem (h : Bare cs) :
    ∀ x ∈ cs, isNameChar x ∨ x ∈ ['(', ')', '"', ':'] := by
  induction h with
  | word h => exact fun x hx => .inl (h.isNameChar_of_mem hx)
  | append _ _ ihcs ihds => grind
  | paren _ ih => grind
  | quote _ ih => grind
  | filter _ _ ihkey ihvalue => grind

theorem Bare.ne_nil (h : Bare cs) : cs ≠ [] := by
  induction h with
  | word h =>
    obtain ⟨x, xs, rfl, -⟩ := h
    exact List.cons_ne_nil x xs
  | append _ _ ih _ => exact List.append_ne_nil_of_left_ne_nil ih _
  | paren _ _ | quote _ _ => exact List.cons_ne_nil _ _
  | filter _ _ _ _ => simp

/-- A colon never comes last, since a filter has a value. -/
theorem Bare.getLast?_ne_colon (h : Bare cs) : cs.getLast? ≠ some ':' := by
  induction h with
  | word h =>
    intro hlast
    have hname := h.isNameChar_of_mem (List.mem_of_mem_getLast? hlast)
    exact absurd hname (by decide)
  | append _ h' _ ih => rwa [List.getLast?_append_of_ne_nil _ h'.ne_nil]
  | @paren cs _ _ =>
    rw [← List.cons_append, List.getLast?_concat]
    decide
  | @quote cs _ _ =>
    rw [← List.cons_append, List.getLast?_concat]
    decide
  | @filter key value _ hvalue _ ih =>
    rwa [List.append_cons, List.getLast?_append_of_ne_nil _ hvalue.ne_nil]

end Text

namespace ParseTree

open Text

def solid (t : ParseTree) : List Char :=
  (t.leaves.filter (·.rule ≠ .spaces)).flatMap (·.text.toList)

variable {k : Category} {s : String} {t : ParseTree}

@[simp] theorem solid_node (rule : Rule) (first : ParseTree) (others : List ParseTree) :
    (node rule first others).solid = first.solid ++ others.flatMap solid := by
  have hleaves : (node rule first others).leaves = (first :: others).flatMap leaves :=
    leaves_of_ne_nil (List.cons_ne_nil first others)
  rw [solid, hleaves, List.filter_flatMap, List.flatMap_assoc]
  rfl

theorem solid_of_nil (h : t.children = []) :
    t.solid = if t.rule = .spaces then [] else t.text.toList := by
  rw [solid, leaves_of_nil h]
  split <;> simp [*]

theorem IsMark.solid_eq (h : t.IsMark s) : t.solid = s.toList := by
  obtain ⟨hrule, htext, hchildren⟩ := h
  simp [solid_of_nil hchildren, hrule, htext]

theorem IsGap.solid_eq (h : t.IsGap) : t.solid = [] := by
  obtain ⟨hrule, hchildren⟩ := h
  rw [solid_of_nil hchildren, if_pos hrule]

/-- Each alternative makes up a text of this shape. -/
theorem bare_of_derives (h : Derives k t) : Bare t.solid := by
  induction h with
  | exp _ ih | alone _ ih | filter _ ih | word _ ih | first _ ih => simpa using ih
  | operator p _ hoperator _ ihleft ihright =>
    have hword : Bare p.keyword.toList := .word (isIdentifier_operator (by cases p <;> decide))
    simpa [hoperator.solid_eq] using ihleft.append (hword.append ihright)
  | join _ _ ihleft ihright => simpa using ihleft.append ihright
  | paren hopening _ hclosing ih =>
    simpa [hopening.solid_eq, hclosing.solid_eq] using ih.paren
  | quote hopening _ hclosing ih =>
    simpa [hopening.solid_eq, hclosing.solid_eq] using ih.quote
  | quoted _ hopening _ hclosing ihkey ihvalue =>
    simpa [hopening.solid_eq, hclosing.solid_eq] using ihkey.filter ihvalue.quote
  | simple _ hcolon _ ihkey ihvalue =>
    simpa [hcolon.solid_eq] using ihkey.filter ihvalue
  | spaced _ hgap _ ihleft ihright =>
    simpa [hgap.solid_eq] using ihleft.append ihright
  | @ident c d h =>
    have hleaf : (leaf .ident c d).solid = (leaf .ident c d).text.toList := solid_of_nil rfl
    exact hleaf ▸ .word h

/-- Without its blanks, a query is words and filters side by side. -/
theorem bare_of_ofQuery (h : ofQuery s = .ok t) : Bare (Text.solid s.toList) := by
  have hsolid : t.solid = Text.solid s.toList := flatMap_leaves_text h
  exact hsolid ▸ bare_of_derives (derives_of_ofQuery h)

/-- The delimiters of a query are paired. -/
theorem balanced_of_ofQuery (h : ofQuery s = .ok t) : Balanced s.toList :=
  balanced_of_solid (bare_of_ofQuery h).balanced

end ParseTree

end SearchQuery
