import SearchQuery.Proofs.Diagnostic.Explanation
import SearchQuery.Proofs.Query.Chain

/-!
# Queries one after another

Two queries are read as one query when a connector stands between them. The words of the first query
can end up in other operands than before, but its quotes and parentheses keep their partners: a run
of operands is read on until the end of any expression behind it, unless a quote follows there.

Main statements: `Text.Run.afterExp_append` is the reading of a run and of an expression behind it,
and `ParseTree.exists_ofQuery_append` says that two queries are read with a connector between them.
-/

namespace SearchQuery

open Text

namespace Text

variable {cs us es ks fs : List Char}

/-! ## A run before an expression -/

/-- An operand before an expression is read together with it. -/
theorem afterExp_of_operand (h : afterOperand cs = some ks) (hks : afterExp ks = some fs) :
    afterExp cs = some fs := by
  rw [afterExp_of_afterOperand h, hks]
  rfl

/-- A run goes on with an expression in the place of what followed before. The quotes of the run
keep their partners if no quote follows the expression. -/
theorem Run.afterExp_append (h : Run us es) (hks : afterExp ks = some fs) (hname : Replaces ks es)
    (hquote : (afterBlanks fs).head? ≠ some '"') : afterExp (us ++ ks) = some fs := by
  induction h with
  | stop => exact hks
  | blank hx hne h ih =>
    have hrest := ih hname
    rwa [List.cons_append, afterExp_cons_of_isBlank hx]
  | @word word vs es hword hread h ih =>
    have hrest := ih hname
    rw [List.append_assoc]
    exact afterExp_of_operand
      (hread _ ⟨replaces_append vs hname, head_ne_colon_of_afterExp hrest⟩) hrest
  | @paren us gap vs es hgap hne hin h ihin ih =>
    have hrest := ih hname
    have hoperand : afterOperand ('(' :: (us ++ (gap ++ [')'])) ++ (vs ++ ks)) = some (vs ++ ks) :=
      hin.afterOperand_parens hne hgap (.of_head (by cases gap <;> rfl))
    exact afterExp_of_operand (by simpa using hoperand) hrest
  | @quote us gap vs es hgap hne hes hin h ihin ih =>
    have hrest := ih hname
    have hblanks (rest : List Char) := afterBlanks_mark hgap (x := '"') (by decide) rest
    -- All that can be read behind the closing quote ends where the expression ends.
    have hends : afterExp (gap ++ '"' :: (vs ++ ks)) = none := by
      rw [afterExp_mark_eq_none_iff hgap (by decide), afterOperand_quote_eq_none_iff]
      intro ds hds
      obtain rfl : fs = ds := Option.some.inj (hrest.symm.trans hds)
      exact hquote
    have hinner := hin.read hne hends (.of_head (by cases gap <;> rfl)) (by rw [hblanks]; nofun)
      (fun _ => by rw [hblanks]; rfl)
    have hoperand := afterOperand_quotes hgap hinner
    exact afterExp_of_operand (by simpa using hoperand) hrest

/-! ## Connectors -/

/-- A connector before an expression is passed over, or its operator is read as a word. -/
theorem afterExp_connector (c : Connector) (hks : afterExp ks = some fs) :
    afterExp (c.text.toList ++ ks) = some fs := by
  have hspace (cs : List Char) : afterExp (' ' :: cs) = afterExp cs :=
    afterExp_cons_of_isBlank isBlank_space
  cases c with
  | operator p =>
    have hoperator : afterExp (p.keyword.toList ++ ' ' :: ks) = some fs :=
      afterExp_operator (Query.keyword_eq p) (by rwa [hspace])
    simpa [Connector.text, hspace] using hoperator
  | space => simpa [Connector.text, hspace] using hks

end Text

/-! ## Queries -/

/-- Two queries are a query with a connector between them. -/
theorem accepted_append {cs ds : List Char} (c : Connector) (hcs : Accepted cs)
    (hds : Accepted ds) : Accepted (cs ++ (c.text.toList ++ ds)) := by
  rw [accepted_iff] at hcs hds ⊢
  obtain ⟨es, hes, hend⟩ := hcs
  obtain ⟨fs, hfs, hend'⟩ := hds
  obtain ⟨us, -, rfl, hrun⟩ := exists_run hes
  obtain ⟨gap, hgap, heq⟩ := exists_blanks es
  rw [hend, List.append_nil] at heq
  subst heq
  obtain ⟨xs, hxs⟩ := c.exists_text
  have hsep : es ++ (c.text.toList ++ ds) = (es ++ [' ']) ++ (xs ++ ds) := by simp [hxs]
  have hblank : Blanks (es ++ [' ']) := List.forall_mem_append.2 ⟨hgap, blanks_space⟩
  have hks : afterExp (es ++ (c.text.toList ++ ds)) = some fs := by
    rw [afterExp_blanks_append hgap]
    exact afterExp_connector c hfs
  refine ⟨fs, ?_, hend'⟩
  rw [List.append_assoc]
  refine hrun.afterExp_append hks ?_ (by rw [hend']; nofun)
  rw [hsep]
  exact replaces_of_blanks (by simp) hblank

theorem accepted_toList_iff {s : String} :
    Accepted s.toList ↔ ∃ t, ParseTree.ofQuery s = .ok t := by
  rw [Accepted, String.ofList_toList]

/-- Two queries with a connector between them are a query. -/
theorem ParseTree.exists_ofQuery_append {s₁ s₂ : String} (c : Connector)
    (h₁ : ∃ t, ofQuery s₁ = .ok t) (h₂ : ∃ t, ofQuery s₂ = .ok t) :
    ∃ t, ofQuery (s₁ ++ c.text ++ s₂) = .ok t := by
  have := accepted_append c (accepted_toList_iff.2 h₁) (accepted_toList_iff.2 h₂)
  rwa [← String.toList_append, ← String.toList_append, accepted_toList_iff,
    ← String.append_assoc] at this

/-- The operators at the ends of two queries, with quotes before and behind them. -/
theorem ParseTree.exists_ofQuery_append_quotes :
    (∃ t, ofQuery "\"x\" AND" = .ok t) ∧ (∃ t, ofQuery "ANDy\"b\"" = .ok t) ∧
      ∃ t, ofQuery ("\"x\" AND" ++ (Connector.operator .or).text ++ "ANDy\"b\"") = .ok t := by
  have h₁ : Query.parse "\"x\" AND" = .ok (.text "x AND") := by decide +kernel
  have h₂ : Query.parse "ANDy\"b\"" = .ok (.text "ANDy b") := by decide +kernel
  have hleft := Query.exists_ofQuery_of_parse h₁
  have hright := Query.exists_ofQuery_of_parse h₂
  exact ⟨hleft, hright, exists_ofQuery_append (.operator .or) hleft hright⟩

end SearchQuery
