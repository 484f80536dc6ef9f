import SearchQuery.Proofs.Diagnostic.Explanation
import SearchQuery.Proofs.Query.Atom
import SearchQuery.Proofs.Tree.Delimiter

/-!
# Failures behind a colon

A colon stands in a query only between the key and the value of a filter. So if a colon is the last
character before a failure, blanks apart, it is the colon of a filter that wants its value, and
nothing but an identifier was looked for.

What is read in one piece never ends in a colon. So it is enough to look at the places where
something is missed, and to pass on what holds there.

## Main definitions

* `Text.lastSolid` — the last character that is no blank.
* `Text.WantsValue` — a text that ends in the key and the colon of a filter.
* `Failure.MindsColon` — an identifier was looked for if a colon stands before the failure.

Main statement: `Exhaustive.whole_mindsColon`.
-/

namespace SearchQuery

open Text

/-- Without its blanks, a query is words and filters side by side. -/
theorem Accepted.bare {cs : List Char} (h : Accepted cs) : Bare (solid cs) := by
  obtain ⟨t, ht⟩ := h
  have hbare := ParseTree.bare_of_ofQuery ht
  rwa [String.toList_ofList] at hbare

/-! ## The last character but for blanks -/

namespace Text

def lastSolid (cs : List Char) : Option Char := (solid cs).getLast?

/-- The text ends in a key and a colon, perhaps with blanks. -/
def WantsValue (cs : List Char) : Prop :=
  ∃ front key gap gap', cs = front ++ (key ++ (gap ++ ':' :: gap')) ∧ IsIdentifier key ∧
    Blanks gap ∧ Blanks gap'

variable {cs ds gap us es : List Char}

theorem lastSolid_append (cs ds : List Char) :
    lastSolid (cs ++ ds) = (lastSolid ds).or (lastSolid cs) := by
  rw [lastSolid, solid, List.filter_append, List.getLast?_append]
  rfl

theorem lastSolid_of_blanks (h : Blanks gap) : lastSolid gap = none := by
  simpa [lastSolid, solid] using h

theorem lastSolid_ne_of_notMem {x : Char} (h : x ∉ cs) : lastSolid cs ≠ some x :=
  fun hlast => h (List.mem_of_mem_filter (List.mem_of_mem_getLast? hlast))

/-- A text does not end in `x`, blanks apart, if neither of its parts does. -/
theorem lastSolid_append_ne {x : Char} (hcs : lastSolid cs ≠ some x) (hds : lastSolid ds ≠ some x) :
    lastSolid (cs ++ ds) ≠ some x := by
  rw [lastSolid_append]
  cases h : lastSolid ds with
  | none => simpa [h] using hcs
  | some y => simpa [h] using hds

/-- Nothing but blanks stands behind the colon of a filter that wants a value. -/
theorem lastSolid_of_wantsValue (h : WantsValue cs) : lastSolid cs = some ':' := by
  obtain ⟨front, key, gap, gap', rfl, -, -, hgap'⟩ := h
  have hcolon : lastSolid [':'] = some ':' := rfl
  rw [← List.append_assoc, ← List.append_assoc, List.append_cons]
  simp only [lastSolid_append, lastSolid_of_blanks hgap', hcolon, Option.none_or, Option.some_or]

theorem WantsValue.append (h : WantsValue ds) (cs : List Char) : WantsValue (cs ++ ds) := by
  obtain ⟨front, key, gap, gap', rfl, h⟩ := h
  exact ⟨cs ++ front, key, gap, gap', (List.append_assoc ..).symm, h⟩

theorem colon_notMem_of_blanks (h : Blanks gap) : ':' ∉ gap :=
  fun hmem => absurd (h ':' hmem) (by decide)

theorem IsIdentifier.colon_notMem (h : IsIdentifier cs) : ':' ∉ cs :=
  fun hmem => absurd (h.isNameChar_of_mem hmem) (by decide)

theorem IsSpaced.colon_notMem (h : IsSpaced cs) : ':' ∉ cs := by
  induction h with
  | word h => exact h.colon_notMem
  | snoc _ _ hgap hword ih => simp [ih, colon_notMem_of_blanks hgap, hword.colon_notMem]

theorem Spells.colon_notMem (h : Spells cs ds) : ':' ∉ cs := by
  cases h with
  | word h => exact h.colon_notMem
  | snoc h hne hgap hword => exact (h.snoc hne hgap hword).colon_notMem

/-- A run of operands can stand alone, so it does not end in a colon. -/
theorem Run.lastSolid_ne_colon (h : Run us es) (hus : us ≠ []) : lastSolid us ≠ some ':' := by
  have hread := h.read hus afterExp_nil (replaces_nil es) nofun nofun
  rw [List.append_nil] at hread
  have haccepted : Accepted us := (accepted_iff us).2 ⟨[], hread, rfl⟩
  exact haccepted.bare.getLast?_ne_colon

end Text

/-! ## Failures -/

/-- If the part before the failure ends in a colon, the value of a filter is missed there. -/
def AwaitsValue (us : List Char) (item : Expected) : Prop :=
  lastSolid us = some ':' → item = .described identDescription ∧ WantsValue us

namespace Failure

/-- If a colon stands before the failure in the text `cs`, the value of a filter is missed. -/
def MindsColon (cs : List Char) (f : Failure) : Prop :=
  ∃ us, cs = us ++ f.place.rest ∧ AwaitsValue us f.expected

variable {us vs cs : List Char} {f : Failure}

/-- The text may go on to the left if it does not end in a colon there. -/
theorem MindsColon.shift (h : MindsColon cs f) (hvs : lastSolid vs ≠ some ':') :
    MindsColon (vs ++ cs) f := by
  obtain ⟨us, rfl, haway⟩ := h
  refine ⟨vs ++ us, (List.append_assoc ..).symm, fun hcolon => ?_⟩
  by_cases hus : lastSolid us = some ':'
  · obtain ⟨hitem, hwants⟩ := haway hus
    exact ⟨hitem, hwants.append vs⟩
  · exact absurd hcolon (lastSolid_append_ne hvs hus)

/-- A part without colons can be put in front. -/
theorem MindsColon.shift_of_notMem (h : MindsColon cs f) (hvs : ':' ∉ vs) :
    MindsColon (vs ++ cs) f :=
  h.shift (lastSolid_ne_of_notMem hvs)

theorem MindsColon.blanks {gap : List Char} (h : MindsColon cs f) (hgap : Blanks gap) :
    MindsColon (gap ++ cs) f :=
  h.shift_of_notMem (colon_notMem_of_blanks hgap)

end Failure

namespace Exhaustive

open Recognizer Failure Attempt

variable {cs gap : List Char} {c : Cursor}

/-! ## Leaves and filters -/

theorem miss_mindsColon {α : Type} {e : Expected} {us : List Char} (hcs : cs = us ++ c.rest)
    (h : AwaitsValue us e) : (miss recognizer.note c e : Attempt _ α).Notes (MindsColon cs) := by
  intro log f hf
  rcases List.mem_append.1 hf with hf | hf
  · exact .inl hf
  · rw [List.mem_singleton.1 hf]
    exact .inr ⟨us, hcs, h⟩

theorem awaitsValue_of_blanks {e : Expected} (h : Blanks gap) : AwaitsValue gap e :=
  fun hcolon => absurd hcolon (lastSolid_ne_of_notMem (colon_notMem_of_blanks h))

/-- A token is looked for behind blanks, so no colon stands between. -/
theorem token_mindsColon (l : String) (c : Cursor) :
    (token recognizer.note l c).Notes (MindsColon c.rest) := by
  obtain ⟨gap, hgap, hc⟩ := exists_skipBlanks c
  unfold token Recognizer.literal
  split
  · exact .pure _
  · exact miss_mindsColon hc (awaitsValue_of_blanks hgap)

theorem ident_mindsColon (c : Cursor) :
    (ident recognizer.note c.skipBlanks).Notes (MindsColon c.rest) := by
  obtain ⟨gap, hgap, hc⟩ := exists_skipBlanks c
  unfold ident
  split
  · exact .pure _
  · exact miss_mindsColon hc (awaitsValue_of_blanks hgap)

/-- No colon stands between the identifiers of a quoted value. -/
theorem spacedTail_mindsColon (string : ParseTree) :
    (spacedTail recognizer.note string).Notes (MindsColon string.stop.rest) := by
  fun_induction spacedTail recognizer.note string with
  | case1 string gap d h ih =>
    obtain ⟨blanks, hblanks, hrest⟩ := exists_skipBlanks string.stop
    obtain ⟨word, hword, hcovers⟩ := Query.exists_covers h
    have hgap : gap.rest = word ++ d.rest := hcovers.rest
    refine ih.mono fun f hf => ?_
    rw [hrest, show string.stop.skipBlanks.rest = word ++ d.rest from hgap]
    exact (hf.shift_of_notMem hword.colon_notMem).blanks hblanks
  | case2 string gap h =>
    obtain ⟨blanks, hblanks, hrest⟩ := exists_skipBlanks string.stop
    exact .orElse (miss_mindsColon hrest (awaitsValue_of_blanks hblanks)) (.pure _)

theorem spacedString_mindsColon (c : Cursor) :
    (spacedString recognizer.note c.skipBlanks).Notes (MindsColon c.rest) := by
  obtain ⟨gap, hgap, hc⟩ := exists_skipBlanks c
  refine (ident_mindsColon c).bind (Query.ident_yields_word _) ?_
  rintro first ⟨hstart, word, hword, hcovers, -⟩
  refine (spacedTail_mindsColon _).mono fun f hf => ?_
  rw [hc, ← hstart, hcovers.rest]
  exact (hf.shift_of_notMem hword.colon_notMem).blanks hgap

theorem keywordQuoted_mindsColon (key : ParseTree) :
    (keywordQuoted recognizer.note key).Notes (MindsColon key.stop.rest) := by
  refine (token_mindsColon _ _).bind (token_rest _ _) ?_
  rintro opening ⟨gap, hgap, hopening⟩
  -- A quote follows the colon here.
  have hquote : lastSolid [':', '"'] ≠ some ':' := by decide
  have hshift (f : Failure) (hf : MindsColon opening.stop.rest f) : MindsColon key.stop.rest f := by
    rw [hopening]
    exact (hf.shift hquote).blanks hgap
  refine .bind ((spacedString_mindsColon _).mono hshift) (Query.spacedString_yields_string _) ?_
  rintro value ⟨raw, _, hraw, hvalue, -⟩
  refine .bind ((token_mindsColon _ value.stop).mono fun f hf => hshift f ?_) (token_rest _ _)
    fun _ _ => .pure _
  obtain ⟨gap', hgap', hrest⟩ := exists_skipBlanks opening.stop
  rw [hrest, hvalue]
  exact (hf.shift_of_notMem hraw.colon_notMem).blanks hgap'

/-- The value of a filter is missed right behind the colon. -/
theorem keywordSimple_mindsColon {name : List Char} (hname : IsIdentifier name) (key : ParseTree) :
    (keywordSimple recognizer.note key).Notes (MindsColon (name ++ key.stop.rest)) := by
  have htoken (f : Failure) (hf : MindsColon key.stop.rest f) :=
    hf.shift_of_notMem hname.colon_notMem
  refine .bind ((token_mindsColon _ _).mono htoken) (token_rest _ _) ?_
  rintro colon ⟨gap, hgap, hcolon⟩
  refine .bind ?_ (fun _ _ _ => trivial) fun _ (_ : True) => .pure _
  obtain ⟨gap', hgap', hrest⟩ := exists_skipBlanks colon.stop
  unfold ident
  split
  · exact .pure _
  · have hwants : WantsValue (name ++ (gap ++ ':' :: gap')) :=
      ⟨[], name, gap, gap', rfl, hname, hgap, hgap'⟩
    refine miss_mindsColon ?_ fun _ => ⟨rfl, hwants⟩
    rw [hcolon, hrest]
    simp

/-- In a filter, only its value is looked for behind a colon. -/
theorem keywordExp_mindsColon (c : Cursor) :
    (keywordExp recognizer.note c.skipBlanks).Notes (MindsColon c.rest) := by
  obtain ⟨gap, hgap, hc⟩ := exists_skipBlanks c
  refine (ident_mindsColon c).bind (Query.ident_yields_word _) ?_
  rintro key ⟨hstart, name, hname, hcovers, -⟩
  rw [hc, ← hstart, hcovers.rest]
  refine .orElse ?_ ?_
  · exact (keywordQuoted_mindsColon key).mono fun f hf =>
      (hf.shift_of_notMem hname.colon_notMem).blanks hgap
  · exact (keywordSimple_mindsColon hname key).mono fun f hf => hf.blanks hgap

/-! ## Expressions -/

section Expressions

variable (ih : ∀ d, d.remaining < c.remaining →
  (recognizer.logicalExp d).Notes (MindsColon d.rest))

include ih

theorem delimited_mindsColon {opening : String} {o : Char} (ho : opening.toList = [o])
    (hcolon : o ≠ ':') (closing : String) (rule : Rule) :
    (recognizer.delimited opening closing rule c.skipBlanks).Notes (MindsColon c.rest) := by
  obtain ⟨gap, hgap, hc⟩ := exists_skipBlanks c
  refine (token_mindsColon opening c).bind (literal_rest _ _) fun first hfirst => ?_
  rw [hfirst, ho] at hc
  have hlt : first.stop.remaining < c.remaining := by
    simp only [Cursor.remaining, hc, List.length_append, List.length_cons]
    omega
  have hshift (f : Failure) (hf : MindsColon first.stop.rest f) : MindsColon c.rest f := by
    rw [hc]
    exact (hf.shift_of_notMem (by simpa using hcolon.symm)).blanks hgap
  refine .bind ((exp_notes (ih _ hlt)).mono hshift) (exp_rest _) fun inner hinner => ?_
  obtain ⟨us, hus, heq, hrun⟩ := exists_run hinner
  refine .bind ((token_mindsColon closing inner.stop).mono fun f hf => hshift f ?_)
    (token_rest _ _) fun _ _ => .pure _
  rw [heq]
  exact hf.shift (hrun.lastSolid_ne_colon hus)

theorem priExp_mindsColon : (recognizer.priExp c.skipBlanks).Notes (MindsColon c.rest) := by
  refine .orElse ?_ (.orElse ?_ (.orElse ?_ ?_))
  · exact delimited_mindsColon ih rfl (by decide) _ _
  · exact delimited_mindsColon ih rfl (by decide) _ _
  · exact single_notes (keywordExp_mindsColon c)
  · exact single_notes (ident_mindsColon c)

theorem connected_mindsColon {left : ParseTree} (hleft : left.stop.remaining < c.remaining)
    {op : String} (hop : op = "AND" ∨ op = "OR") (rule : Rule) :
    (recognizer.connected left op rule).Notes (MindsColon left.stop.rest) := by
  refine (token_mindsColon op left.stop).bind (token_rest _ _) ?_
  rintro operator ⟨gap, hgap, hrest⟩
  have hlt : operator.stop.remaining < c.remaining := by
    simp only [Cursor.remaining, hrest, List.length_append] at hleft ⊢
    omega
  refine .bind (.mono (ih _ hlt) fun f hf => ?_) (fun _ _ _ => trivial) fun _ (_ : True) => .pure _
  rw [hrest]
  exact (hf.shift_of_notMem (isIdentifier_operator hop).colon_notMem).blanks hgap

theorem logicalAlternatives_mindsColon :
    (recognizer.logicalAlternatives c.skipBlanks).Notes (MindsColon c.rest) := by
  refine (priExp_mindsColon ih).bind (priExp_rest _) fun left hleft => ?_
  have hlt : left.stop.remaining < c.remaining :=
    Nat.lt_of_lt_of_le (length_lt_of_afterOperand hleft) (Cursor.remaining_skipBlanks_le c)
  have hjoined : (recognizer.joined left).Notes (MindsColon left.stop.rest) :=
    (ih _ hlt).bind (fun _ _ _ => trivial) fun _ (_ : True) => .pure _
  refine .mono (.orElse (connected_mindsColon ih hlt (.inl rfl) _) (.orElse
    (connected_mindsColon ih hlt (.inr rfl) _) (.orElse hjoined (.pure _)))) ?_
  intro f hf
  obtain ⟨gap, hgap, hc⟩ := exists_skipBlanks c
  obtain ⟨us, hus, heq, hrun⟩ := exists_operand hleft
  rw [hc, heq]
  exact (hf.shift (hrun.lastSolid_ne_colon hus)).blanks hgap

end Expressions

/-- Every failure in an expression minds the colon before it. -/
theorem logicalExp_mindsColon (c : Cursor) :
    (recognizer.logicalExp c).Notes (MindsColon c.rest) := by
  induction hn : c.remaining using Nat.strongRecOn generalizing c with
  | ind n ih =>
    subst hn
    rw [show recognizer.logicalExp c = recognizer.logicalAlternatives c.skipBlanks from
      afreshAt_eq _ _]
    exact logicalAlternatives_mindsColon fun d hd => ih _ hd d rfl

/-! ## Whole queries -/

/-- Every failure in a query minds the colon before it. -/
theorem whole_mindsColon (c : Cursor) : (recognizer.whole c).Notes (MindsColon c.rest) := by
  refine (exp_notes (logicalExp_mindsColon c)).bind (exp_rest c) fun root hroot => ?_
  obtain ⟨us, hus, heq, hrun⟩ := exists_run hroot
  obtain ⟨gap, hgap, hrest⟩ := exists_skipBlanks root.stop
  dsimp only
  split
  · exact .pure _
  · have hends : lastSolid (us ++ gap) ≠ some ':' :=
      lastSolid_append_ne (hrun.lastSolid_ne_colon hus)
        (lastSolid_ne_of_notMem (colon_notMem_of_blanks hgap))
    refine miss_mindsColon ?_ fun hcolon => absurd hcolon hends
    rw [heq, hrest, List.append_assoc]

end Exhaustive

end SearchQuery
