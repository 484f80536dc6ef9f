import SearchQuery.Proofs.Query.Flat
import SearchQuery.Proofs.Query.Total

/-!
# Merging early and merging late

A query is merged while it is built, one level at each operator. Building it without merging and
merging all levels at the end comes to the same, as merging makes no texts, so the same operands
are joined to a text either way.

## Main definitions

* `Query.adjoin` — two operands next to each other, not merged.
* `Query.unmerged` — the handlers that build a query without merging.

Main statement: `Query.parse_eq_flattenAll`.
-/

namespace SearchQuery.Query

open ParseTree

/-- Two operands next to each other: one text if both are texts, else both required. -/
def adjoin : (left right : Query) → Query
  | text left, text right => text (left ++ " " ++ right)
  | left, right => logic .and [left, right]

/-- The handlers that build a query, but two operands under an operator stay as they are. -/
def unmerged : Semantics (Except QueryError) Query :=
  { semantics with
    logicalAnd := fun left _ right => return logic .and [← left.value, ← right.value]
    logicalOr := fun left _ right => return logic .or [← left.value, ← right.value]
    logicalJoin := fun left right => return adjoin (← left.value) (← right.value) }

variable {k : Category} {t t' : ParseTree} {left right : Query} {value s : String}

/-! ## Two operands -/

/-- Merging a pair at every level is combining what its members become. -/
theorem flattenAll_pair (p : Connective) (left right : Query) :
    (logic p [left, right]).flattenAll = combine p left.flattenAll right.flattenAll := by
  rw [flattenAll_logic]
  rfl

theorem flattenAll_adjoin (left right : Query) :
    (adjoin left right).flattenAll = juxtapose left.flattenAll right.flattenAll := by
  cases left with
  | text left =>
    cases right with
    | text right => simp [adjoin, juxtapose]
    | keyword key value => simp [adjoin, juxtapose, combine]
    | logic p children => simp [adjoin, juxtapose, combine, flatten]
  | keyword key value => simp [adjoin, juxtapose, combine]
  | logic p children => simp [adjoin, juxtapose, combine, flatten]

/-! ## Values of nodes -/

theorem eval_unmerged_operator (p : Connective) (h : unmerged.eval t = .ok left)
    (h' : unmerged.eval t' = .ok right) (operator : ParseTree) :
    unmerged.eval (.node p.rule t [operator, t']) = .ok (logic p [left, right]) := by
  have hvalue : (do return logic p [← unmerged.eval t, ← unmerged.eval t']) =
      Except.ok (logic p [left, right]) := by
    rw [h, h']
    rfl
  rw [Semantics.eval_node, ← hvalue]
  cases p <;> rfl

theorem eval_unmerged_join (h : unmerged.eval t = .ok left) (h' : unmerged.eval t' = .ok right) :
    unmerged.eval (.node .logicalJoin t [t']) = .ok (adjoin left right) := by
  rw [Semantics.eval_node]
  change (do return adjoin (← unmerged.eval t) (← unmerged.eval t')) = _
  rw [h, h']
  rfl

theorem eval_unmerged_quoted (h : unmerged.eval t' = .ok (text value))
    (opening closing : ParseTree) :
    unmerged.eval (.node .keywordQuoted t [opening, t', closing]) =
      .ok (keyword t.text value) := by
  rw [Semantics.eval_node]
  change (unmerged.eval t' >>= filter t.text) = _
  rw [h]
  rfl

theorem eval_unmerged_simple (h : unmerged.eval t' = .ok (text value)) (colon : ParseTree) :
    unmerged.eval (.node .keywordSimple t [colon, t']) = .ok (keyword t.text value) := by
  rw [Semantics.eval_node]
  change (unmerged.eval t' >>= filter t.text) = _
  rw [h]
  rfl

/-- What comes to a text when it is merged comes to the same text when it is not. -/
theorem exists_eval_unmerged_text (h : Derives k t) (hk : k = .ident ∨ k = .spacedString)
    (hq : ∃ q, unmerged.eval t = .ok q ∧ semantics.eval t = .ok q.flattenAll) :
    ∃ value, unmerged.eval t = .ok (text value) ∧ semantics.eval t = .ok (text value) := by
  obtain ⟨q, hunmerged, hmerged⟩ := hq
  obtain ⟨value, hvalue⟩ := exists_eval_text h hk
  obtain rfl := flattenAll_eq_text_iff.1 (Except.ok.inj (hmerged.symm.trans hvalue))
  exact ⟨value, hunmerged, hvalue⟩

/-- Built with or without merging, the values differ by merging only. -/
theorem exists_eval_unmerged (h : Derives k t) :
    ∃ q, unmerged.eval t = .ok q ∧ semantics.eval t = .ok q.flattenAll := by
  induction h with
  | exp _ ih | alone _ ih | filter _ ih | word _ ih | first _ ih =>
    rw [Semantics.eval_node, Semantics.eval_node]
    exact ih
  | paren _ _ _ ih | quote _ _ _ ih =>
    rw [Semantics.eval_node, Semantics.eval_node]
    exact ih
  | operator p _ _ _ ihleft ihright =>
    obtain ⟨left, hleft, hleft'⟩ := ihleft
    obtain ⟨right, hright, hright'⟩ := ihright
    refine ⟨_, eval_unmerged_operator p hleft hright _, ?_⟩
    rw [eval_operator p hleft' hright', flattenAll_pair]
  | join _ _ ihleft ihright =>
    obtain ⟨left, hleft, hleft'⟩ := ihleft
    obtain ⟨right, hright, hright'⟩ := ihright
    refine ⟨_, eval_unmerged_join hleft hright, ?_⟩
    rw [eval_join hleft' hright', flattenAll_adjoin]
  | quoted _ _ hvalue _ _ ih =>
    obtain ⟨value, hq, hq'⟩ := exists_eval_unmerged_text hvalue (.inr rfl) ih
    refine ⟨_, eval_unmerged_quoted hq _ _, ?_⟩
    rw [eval_quoted hq', flattenAll_keyword]
  | simple _ _ hvalue _ ih =>
    obtain ⟨value, hq, hq'⟩ := exists_eval_unmerged_text hvalue (.inl rfl) ih
    refine ⟨_, eval_unmerged_simple hq _, ?_⟩
    rw [eval_simple hq', flattenAll_keyword]
  | spaced _ _ _ _ _ =>
    rw [eval_spaced, Semantics.eval_node]
    refine ⟨_, rfl, ?_⟩
    rw [flattenAll_text]
    rfl
  | ident _ =>
    rw [eval_ident, Semantics.eval_leaf]
    refine ⟨_, rfl, ?_⟩
    rw [flattenAll_text]

/-- The query is what is built from its tree without merging, merged at every level. So there is
nothing left to merge in it, it has the same leaves as the one built without merging, and it is true
whenever that one is. -/
theorem parse_eq_flattenAll (h : ofQuery s = .ok t) :
    ∃ q b, parse s = .ok q ∧ unmerged.eval t = .ok b ∧ q = b.flattenAll ∧
      (q.Flat ∧ q.flattenAll = q) ∧ q.leaves = b.leaves ∧ ∀ v n, holds v n q = holds v n b := by
  obtain ⟨b, hb, hq⟩ := exists_eval_unmerged (derives_of_ofQuery h)
  refine ⟨_, b, (parse_of_ofQuery_ok h).trans hq, hb, rfl, ?_, leaves_flattenAll b, fun v n => ?_⟩
  · exact ⟨flat_flattenAll b, flattenAll_flattenAll b⟩
  · exact holds_flattenAll b

/-- One operator in parentheses on the left and between operands on the right. -/
theorem parse_eq_flattenAll_nested :
    let s := "(a AND b) (c OR d) e f"
    let group := logic .or [text "c", text "d"]
    let q := logic .and [text "a", text "b", group, text "e f"]
    let b := logic .and [logic .and [text "a", text "b"], logic .and [group, text "e f"]]
    ∃ t, ofQuery s = .ok t ∧ parse s = .ok q ∧ unmerged.eval t = .ok b ∧ q = b.flattenAll ∧
      (q.Flat ∧ q.flattenAll = q) ∧ q.leaves = b.leaves ∧ ∀ v n, holds v n q = holds v n b := by
  intro s group q b
  have hread : (ofQuery s).toOption.map unmerged.eval = some (.ok b) := by decide +kernel
  obtain ⟨t, hquery, hvalue⟩ := Option.map_eq_some_iff.1 hread
  have h := ofQuery_of_toOption hquery
  obtain ⟨q', b', hq', hb', hflat, hrest⟩ := parse_eq_flattenAll h
  obtain rfl : b = b' := Except.ok.inj (hvalue.symm.trans hb')
  obtain rfl : q = q' := by
    rw [hflat]
    simp [q, b, group, flatten]
  exact ⟨t, h, hq', hb', hflat, hrest⟩

end SearchQuery.Query
