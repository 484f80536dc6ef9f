import Mathlib.Data.List.DropRight
import Mathlib.Data.List.Nodup
import SearchQuery.Proofs.Diagnostic.Colon
import SearchQuery.Proofs.Diagnostic.Furthest
import SearchQuery.Proofs.Query.Total
import SearchQuery.Proofs.Query.WellFormed

/-!
# What advice is given for

Advice to close a quote or a parenthesis is given by counting delimiters in the text that was not
read. Counting is enough, since a text that is read has paired delimiters: the advice is given for
exactly those texts that it is about, whatever else is wrong with them.

Advice to give a value is meant for filters without one. The place of the failure shows whether this
is so: a colon stands before it, blanks apart. But white space is looked past here instead of
blanks. Nothing else in a query is white space, so the difference is in the control characters that
are blanks and no white space: behind them the colon is not found, and the advice is missing.

## Main definitions

* `Text.HidesEnd` — such characters are among the blanks at the end of a text.

Main statements: `SyntaxError.hint_of_delimiters` and `SyntaxError.hint_behind_colon`.
-/

namespace SearchQuery

open Text

/-- The blanks at the end of the text are not all white space. -/
def Text.HidesEnd (cs : List Char) : Prop := ∃ x ∈ cs.rtakeWhile isBlank, isWhiteSpace x = false

instance (cs : List Char) : Decidable (HidesEnd cs) :=
  inferInstanceAs (Decidable (∃ x ∈ cs.rtakeWhile isBlank, isWhiteSpace x = false))

namespace SyntaxError

variable {s : String} {e : SyntaxError}

/-! ## Advice in words -/

/-- No two pieces of advice read the same. -/
theorem Hint.text_injective : Function.Injective Hint.text := by
  intro a b h
  cases a <;> cases b <;> first | rfl | exact absurd h (by decide)

theorem map_text_eq_some_iff {advice : Option Hint} {a : Hint} :
    advice.map Hint.text = some a.text ↔ advice = some a :=
  (Option.map_injective Hint.text_injective).eq_iff (b := some a)

/-! ## Advice by counting -/

theorem hint?_eq_closeQuote_iff : e.hint? = some .closeQuote ↔ ¬ Even (e.input.count '"') := by
  rw [hint?, Nat.not_even_iff]
  grind

theorem hint?_eq_closeParenthesis_iff : e.hint? = some .closeParenthesis ↔
    Even (e.input.count '"') ∧ e.input.count ')' < e.input.count '(' := by
  rw [hint?, Nat.even_iff]
  grind

/-- A text with delimiters that are not paired is not read. -/
theorem exists_malformed (h : ¬ Balanced s.toList) :
    ∃ e : SyntaxError, Query.parse s = .error (.malformed e) ∧ e.input = s.toList := by
  cases hread : ParseTree.ofQuery s with
  | ok t => exact absurd (ParseTree.balanced_of_ofQuery hread) h
  | error err =>
    obtain ⟨e, rfl, he⟩ := exists_explains hread
    exact ⟨e, Query.parse_of_ofQuery_error hread, he.input⟩

/-- The error holds the query as it was given. -/
theorem input_of_parse (h : Query.parse s = .error (.malformed e)) : e.input = s.toList := by
  obtain ⟨e', he', hexplains⟩ := exists_explains (Query.ofQuery_of_parse_error h)
  obtain rfl := QueryError.malformed.inj he'
  exact hexplains.input

/-- The delimiters in a query are paired. The advice to close a quote is given for exactly those
texts with an odd number of quotes, and the advice to close a parenthesis for those with an even
number that open more parentheses than they close. The same holds of its words, which no other
advice shares. -/
theorem hint_of_delimiters (s : String) :
    (∀ t, ParseTree.ofQuery s = .ok t → Balanced s.toList) ∧
      ((∃ e, Query.parse s = .error (.malformed e) ∧
          (QueryError.malformed e).hint? = some .closeQuote) ↔
        ¬ Even (s.toList.count '"')) ∧
      ((∃ e, Query.parse s = .error (.malformed e) ∧
          (QueryError.malformed e).hint? = some .closeParenthesis) ↔
        Even (s.toList.count '"') ∧ s.toList.count ')' < s.toList.count '(') ∧
      ∀ e, Query.parse s = .error (.malformed e) →
        ((QueryError.malformed e).hint?.map Hint.text =
            some "Add a closing quote (\") to complete the phrase" ↔
          ¬ Even (s.toList.count '"')) ∧
        ((QueryError.malformed e).hint?.map Hint.text =
            some "Add a closing parenthesis ) to match the opening one" ↔
          Even (s.toList.count '"') ∧ s.toList.count ')' < s.toList.count '(') := by
  refine ⟨fun t => ParseTree.balanced_of_ofQuery, ⟨?_, fun h => ?_⟩, ⟨?_, fun h => ?_⟩,
    fun e herr => ?_⟩
  · rintro ⟨e, herr, hhint⟩
    rw [← input_of_parse herr]
    exact hint?_eq_closeQuote_iff.1 hhint
  · obtain ⟨e, herr, hinput⟩ := exists_malformed fun hs : Balanced s.toList => h hs.quotes
    exact ⟨e, herr, hint?_eq_closeQuote_iff.2 (hinput ▸ h)⟩
  · rintro ⟨e, herr, hhint⟩
    rw [← input_of_parse herr]
    exact hint?_eq_closeParenthesis_iff.1 hhint
  · obtain ⟨e, herr, hinput⟩ := exists_malformed fun hs : Balanced s.toList => h.2.ne hs.closed
    exact ⟨e, herr, hint?_eq_closeParenthesis_iff.2 (hinput ▸ h)⟩
  · rw [← input_of_parse herr]
    exact ⟨map_text_eq_some_iff.trans hint?_eq_closeQuote_iff,
      map_text_eq_some_iff.trans hint?_eq_closeParenthesis_iff⟩

/-! ## Advice to give a value -/

/-- With enough delimiters, the only advice left is to give a value. -/
theorem hint?_of_paired (hquotes : Even (e.input.count '"'))
    (hparens : e.input.count '(' ≤ e.input.count ')') :
    e.hint? = if e.stopsAfterColon then some .giveValue else none := by
  rw [hint?, if_neg (by simpa [Nat.even_iff] using hquotes), if_neg (Nat.not_lt.2 hparens)]

/-- The part before the failure can be completed, so there is no white space in it but blanks. -/
theorem Explains.isWhiteSpace_eq_false (h : e.Explains s) :
    ∀ x ∈ e.before, isBlank x = false → isWhiteSpace x = false := by
  intro x hx hblank
  obtain ⟨item, hitem⟩ := List.exists_mem_of_ne_nil _ h.expected_ne_nil
  obtain ⟨cs, haccepted⟩ := (h.canFollow hitem).exists_accepted
  have hsolid : x ∈ solid (e.before ++ cs) := by simp [solid, hx, hblank]
  rcases haccepted.bare.isNameChar_or_mem x hsolid with hname | hdelimiter
  · exact not_isWhiteSpace_of_isNameChar hname
  · have hdelimiters : ∀ x ∈ ['(', ')', '"', ':'], isWhiteSpace x = false := by
      simp [isWhiteSpace, whiteSpaceRanges, CodeRange.covers]
    exact hdelimiters x hdelimiter

/-- Looking past white space instead of blanks makes no difference as long as all blanks in front of
the colon are white space. -/
theorem find?_isWhiteSpace_iff {cs : List Char}
    (hcs : ∀ x ∈ cs, isBlank x = false → isWhiteSpace x = false) :
    cs.find? (!isWhiteSpace ·) = some ':' ↔
      cs.find? (!isBlank ·) = some ':' ∧ ∀ x ∈ cs.takeWhile isBlank, isWhiteSpace x := by
  induction cs with
  | nil => simp
  | cons x cs ih =>
    have hrest := ih fun y hy => hcs y (List.mem_cons_of_mem x hy)
    cases hblank : isBlank x with
    | false =>
      have hwhite := hcs x List.mem_cons_self hblank
      simp [hblank, hwhite]
    | true =>
      cases hwhite : isWhiteSpace x with
      | true => simpa [hblank, hwhite] using hrest
      | false =>
        have hne : x ≠ ':' := by
          rintro rfl
          exact absurd hblank (by decide)
        simp [hblank, hwhite, hne]

/-- A colon is found before the failure unless a blank in between is no white space. -/
theorem Explains.stopsAfterColon_iff (h : e.Explains s) :
    e.stopsAfterColon ↔ lastSolid e.before = some ':' ∧ ¬ HidesEnd e.before := by
  have hsolid : ∀ x ∈ e.before.reverse, isBlank x = false → isWhiteSpace x = false :=
    fun x hx => h.isWhiteSpace_eq_false x (List.mem_reverse.1 hx)
  rw [stopsAfterColon, beq_iff_eq, ← List.find?_not_eq_head?_dropWhile,
    find?_isWhiteSpace_iff hsolid, lastSolid, solid, List.getLast?_filter]
  simp [HidesEnd, List.rtakeWhile]

/-- Behind a colon the value of a filter is expected, and nothing else. -/
theorem lastSolid_eq_colon_iff (h : ParseTree.ofQuery s = .error (.malformed e)) :
    lastSolid e.before = some ':' ↔
      e.expected = [.described identDescription] ∧ WantsValue e.before := by
  refine ⟨fun hcolon => ?_, fun ⟨_, hwants⟩ => lastSolid_of_wantsValue hwants⟩
  obtain ⟨log, hlog, hwithin, herr⟩ := exists_log h
  have hawaits (item : Expected) (hitem : item ∈ e.expected) :
      item = .described identDescription ∧ WantsValue e.before := by
    obtain rfl := QueryError.malformed.inj herr
    exact of_mem_expected (P := fun us _ => AwaitsValue us) hwithin
      (Exhaustive.whole_mindsColon (.start s)) hlog item hitem hcolon
  obtain ⟨e', he', he⟩ := exists_explains h
  obtain rfl := QueryError.malformed.inj he'
  obtain ⟨item, hitem⟩ := List.exists_mem_of_ne_nil _ he.expected_ne_nil
  obtain ⟨rfl, hwants⟩ := hawaits item hitem
  have hperm : e.expected.Perm [.described identDescription] := by
    refine (List.perm_ext_iff_of_nodup he.nodup (List.nodup_singleton _)).2 fun other => ?_
    rw [List.mem_singleton]
    exact ⟨fun hother => (hawaits other hother).1, fun h => h ▸ hitem⟩
  exact ⟨List.perm_singleton.1 hperm, hwants⟩

/-- Advice to give a value is for texts with enough delimiters that fail behind a colon, blanks
apart, where the value of a filter is expected and nothing else. It is given to them, and to no
others, unless control characters hide the colon. In words it is the advice about values. -/
theorem hint_behind_colon {err : QueryError} (h : ParseTree.ofQuery s = .error err)
    (hquotes : Even (s.toList.count '"')) (hparens : s.toList.count '(' ≤ s.toList.count ')') :
    ∃ e, err = .malformed e ∧ splitAtByte? s.toList e.position = some (e.before, e.after) ∧
      (lastSolid e.before = some ':' ↔
        e.expected = [.described identDescription] ∧ WantsValue e.before) ∧
      err.hint? =
        (if lastSolid e.before = some ':' ∧ ¬ HidesEnd e.before then some .giveValue else none) ∧
      ((err.hint? = if lastSolid e.before = some ':' then some .giveValue else none) ↔
        ¬ (lastSolid e.before = some ':' ∧ HidesEnd e.before)) ∧
      err.hint?.map Hint.text =
        if lastSolid e.before = some ':' ∧ ¬ HidesEnd e.before then
          some "Keyword filters need a value, e.g. 'type:video' or 'title:\"a b\"'"
        else none := by
  obtain ⟨e, rfl, he⟩ := exists_explains h
  have hinput : e.input = s.toList := he.input
  rw [← hinput] at hquotes hparens
  have hhint : (QueryError.malformed e).hint? =
      if lastSolid e.before = some ':' ∧ ¬ HidesEnd e.before then some .giveValue else none := by
    rw [QueryError.hint?, hint?_of_paired hquotes hparens]
    simp only [he.stopsAfterColon_iff]
  refine ⟨e, rfl, ?_, lastSolid_eq_colon_iff h, hhint, ?_, ?_⟩
  · rw [← he.input]
    exact splitAtByte?_byteCount e.before e.after
  · rw [hhint]
    by_cases hcolon : lastSolid e.before = some ':' <;> by_cases hhides : HidesEnd e.before <;>
      simp [hcolon, hhides]
  · rw [hhint]
    split <;> rfl

/-- A tab behind the colon is white space. -/
theorem hint_behind_colon_tab :
    let e : SyntaxError := ⟨"b AND k:\t".toList, [], [.described identDescription]⟩
    ParseTree.ofQuery "b AND k:\t" = .error (.malformed e) ∧
      WantsValue e.before ∧ e.hint? = some .giveValue := by
  intro e
  have h : ParseTree.ofQuery "b AND k:\t" = .error (.malformed e) :=
    Query.ofQuery_of_parse_error (by decide +kernel)
  obtain ⟨e', he', -, hcolon, hhint, -⟩ := hint_behind_colon h (by decide) (by decide)
  obtain rfl := QueryError.malformed.inj he'
  have hlast : lastSolid e.before = some ':' := by decide
  have hends : ¬ HidesEnd e.before := by
    have htail : e.before.rtakeWhile isBlank = ['\t'] := by decide
    rw [HidesEnd, htail]
    simpa using show isWhiteSpace '\t' by decide
  exact ⟨h, (hcolon.1 hlast).2, hhint.trans (if_pos ⟨hlast, hends⟩)⟩

/-- Other control characters are blanks, but no white space. -/
theorem hint_behind_colon_control :
    let s := "a:\u0001"
    let e : SyntaxError := ⟨s.toList, [], [.described identDescription]⟩
    ParseTree.ofQuery s = .error (.malformed e) ∧ Even (s.toList.count '"') ∧
      s.toList.count '(' ≤ s.toList.count ')' ∧ lastSolid e.before = some ':' ∧
      WantsValue e.before ∧ (QueryError.malformed e).hint? = none := by
  have hblanks : Blanks ['\u0001'] := List.all_eq_true.1 (by decide)
  have hwants : WantsValue ['a', ':', '\u0001'] :=
    ⟨[], ['a'], [], ['\u0001'], rfl, isIdentifier_letter (by decide), blanks_nil, hblanks⟩
  exact ⟨Query.ofQuery_of_parse_error (by decide +kernel), by decide, by decide, by decide, hwants,
    by decide⟩

end SyntaxError

end SearchQuery
