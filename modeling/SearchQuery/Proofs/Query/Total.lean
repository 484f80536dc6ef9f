import SearchQuery.Proofs.Tree.Derivation

/-!
# Every query has a value

Each node in the tree of a query has a value, fixed texts and blanks apart. What stands for the
value of a filter comes to a text, so no handler turns a query down, and a text has no value only if
it cannot be read.

Main statement: `Query.parse_total`.
-/

namespace SearchQuery

namespace ParseTree

variable {k : Category} {t : ParseTree}

/-- A tree of a category is neither a fixed text nor blanks. -/
theorem Derives.rule_ne (h : Derives k t) : t.rule ≠ .terminal ∧ t.rule ≠ .spaces := by
  cases h with
  | operator p _ _ _ => cases p <;> exact ⟨nofun, nofun⟩
  | _ => exact ⟨nofun, nofun⟩

end ParseTree

namespace Query

open ParseTree

variable {k : Category} {t : ParseTree} {s : String}

/-- Fixed texts and blanks have no value. -/
theorem eval_leaf_eq_error (hchildren : t.children = [])
    (hrule : t.rule = .terminal ∨ t.rule = .spaces) :
    semantics.eval t = .error (.rejected ("missing semantic action for " ++ t.rule.name)) := by
  obtain ⟨rule, start, stop, children⟩ := t
  obtain rfl : children = [] := hchildren
  rw [show semantics.eval ⟨rule, start, stop, []⟩ = _ from semantics.eval_leaf rule start stop]
  rcases hrule with rfl | rfl <;> rfl

/-- Identifiers and what stands between quotes in a filter come to texts. -/
theorem exists_eval_text (h : Derives k t) (hk : k = .ident ∨ k = .spacedString) :
    ∃ value, semantics.eval t = .ok (text value) := by
  have hident {t : ParseTree} (h : Derives .ident t) :
      ∃ value, semantics.eval t = .ok (text value) := by
    cases h with
    | ident _ => exact ⟨_, eval_ident _ _⟩
  rcases hk with rfl | rfl
  · exact hident h
  · cases h with
    | spaced _ _ _ => exact ⟨_, eval_spaced _ _ _⟩
    | first h =>
      rw [eval_only (by simp)]
      exact hident h

/-- All trees of the grammar have values. -/
theorem exists_eval (h : Derives k t) : ∃ q, semantics.eval t = .ok q := by
  induction h with
  | exp _ ih | alone _ ih | filter _ ih | word _ ih | first _ ih =>
    rwa [eval_only (by simp)]
  | operator p _ _ _ ihleft ihright =>
    obtain ⟨left, hleft⟩ := ihleft
    obtain ⟨right, hright⟩ := ihright
    exact ⟨_, eval_operator p hleft hright _⟩
  | join _ _ ihleft ihright =>
    obtain ⟨left, hleft⟩ := ihleft
    obtain ⟨right, hright⟩ := ihright
    exact ⟨_, eval_join hleft hright⟩
  | paren _ _ _ ih => rwa [eval_delimited (.inl rfl)]
  | quote _ _ _ ih => rwa [eval_delimited (.inr rfl)]
  | quoted _ _ hvalue _ _ _ =>
    obtain ⟨value, hvalue⟩ := exists_eval_text hvalue (.inr rfl)
    exact ⟨_, eval_quoted hvalue _ _⟩
  | simple _ _ hvalue _ _ =>
    obtain ⟨value, hvalue⟩ := exists_eval_text hvalue (.inl rfl)
    exact ⟨_, eval_simple hvalue _⟩
  | spaced _ _ _ _ _ => exact ⟨_, eval_spaced _ _ _⟩
  | ident _ => exact ⟨_, eval_ident _ _⟩

/-- What a node for an item comes to. -/
theorem eval_of_realizes {i : Item} (h : Realizes i t) :
    if t.rule = .terminal ∨ t.rule = .spaces then
      semantics.eval t = .error (.rejected ("missing semantic action for " ++ t.rule.name))
    else ∃ q, semantics.eval t = .ok q := by
  obtain ⟨hchildren, hrule⟩ | ⟨k, hk⟩ := leaf_or_derives h
  · rw [if_pos hrule]
    exact eval_leaf_eq_error hchildren hrule
  · rw [if_neg (not_or.2 hk.rule_ne)]
    exact exists_eval hk

theorem parse_of_ofQuery_ok (h : ofQuery s = .ok t) : parse s = semantics.eval t := by
  rw [parse, Semantics.evaluate, h]

theorem parse_of_ofQuery_error {e : QueryError} (h : ofQuery s = .error e) :
    parse s = .error e := by
  rw [parse, Semantics.evaluate, h]
  rfl

theorem ofQuery_of_parse_error {e : QueryError} (h : parse s = .error e) :
    ofQuery s = .error e := by
  cases hread : ofQuery s with
  | ok t =>
    obtain ⟨q, hq⟩ := exists_eval (derives_of_ofQuery hread)
    rw [parse_of_ofQuery_ok hread, hq] at h
    contradiction
  | error e' => rw [Except.error.inj ((parse_of_ofQuery_error hread).symm.trans h)]

/-- In the tree of a query, every node has a value but for fixed texts and blanks. So a text has a
value exactly if it is a query, and if it is none, the error is that of reading it. -/
theorem parse_total (s : String) :
    (∀ t, ofQuery s = .ok t → t.Everywhere fun n =>
      if n.rule = .terminal ∨ n.rule = .spaces then
        semantics.eval n = .error (.rejected ("missing semantic action for " ++ n.rule.name))
      else ∃ q, semantics.eval n = .ok q) ∧
      ((∃ q, parse s = .ok q) ↔ ∃ t, ofQuery s = .ok t) ∧
      (∀ e, parse s = .error e ↔ ofQuery s = .error e) ∧
      ∀ e, parse s = .error e →
        ∃ r, Economical.recognize s = .error r ∧ e = .malformed (.ofReport s r) := by
  refine ⟨fun t h path n hn => ?_, ?_⟩
  · obtain ⟨i, hi⟩ := everywhere_realizes h path n hn
    exact eval_of_realizes hi
  cases hread : ofQuery s with
  | ok t =>
    obtain ⟨q, hq⟩ := exists_eval (derives_of_ofQuery hread)
    simp [parse_of_ofQuery_ok hread, hq]
  | error e =>
    have hreport : ∃ r, Economical.recognize s = .error r ∧ e = .malformed (.ofReport s r) := by
      rw [ofQuery] at hread
      split at hread
      · contradiction
      · next r hr => exact ⟨r, hr, (Except.error.inj hread).symm⟩
    rw [parse_of_ofQuery_error hread]
    refine ⟨by simp, by simp, ?_⟩
    rintro _ ⟨⟩
    exact hreport

end Query

end SearchQuery
