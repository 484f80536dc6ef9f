import SearchQuery.Proofs.Query.Value

/-!
# Words and filters

Words and filters are the operands that hold no expression. Whatever is read as one of them has a
value that depends on its own characters alone, and it is read again before any text that does not
go on with it.

## Main definitions

* `Query.Atom` — a word or a filter before a text, and its value.
* `ParseTree.Covers` — the characters that a tree covers.
* `Query.IsAtom` — the tree of a word or a filter.

Main statements: `Query.Atom.finds` reads words and filters, and `Query.keywordExp_yields_atom` says
that nothing else is read as a filter.
-/

namespace SearchQuery

open Recognizer Text

/-- The tree covers `cs`, and no identifier goes on behind it. -/
structure ParseTree.Covers (t : ParseTree) (cs : List Char) : Prop where
  rest : t.start.rest = cs ++ t.stop.rest
  ends : EndsName t.stop.rest

theorem ParseTree.Covers.text {t : ParseTree} {cs : List Char} (h : t.Covers cs) :
    t.text = String.ofList cs :=
  congrArg String.ofList (Cursor.upTo_of_rest h.rest)

namespace Query

/-- `cs` is a word or a filter before `ks`, with the value `q`. -/
inductive Atom : (cs ks : List Char) → (q : Query) → Prop where
  | word {cs ks : List Char} (h : IsIdentifier cs) (hks : EndsName ks) :
    Atom cs ks (text (String.ofList cs))
  | simple {key gap gap' value ks : List Char} (hkey : IsIdentifier key) (hgap : Blanks gap)
    (hgap' : Blanks gap') (hvalue : IsIdentifier value) (hks : EndsName ks) :
    Atom (key ++ (gap ++ ':' :: (gap' ++ value))) ks
      (keyword (String.ofList key) (String.ofList value))
  | quoted {key gap gap' raw value gap'' ks : List Char} (hkey : IsIdentifier key)
    (hgap : Blanks gap) (hgap' : Blanks gap') (hvalue : Spells raw value) (hgap'' : Blanks gap'') :
    Atom (key ++ (gap ++ ':' :: '"' :: (gap' ++ (raw ++ (gap'' ++ ['"']))))) ks
      (keyword (String.ofList key) (String.ofList value))

variable {σ : Type} {note : Failure → σ → σ} {cs es ks : List Char} {q : Query}

namespace Atom

/-- What can follow an identifier can follow it elsewhere. -/
theorem replaces (h : Atom cs es q) (hks : Replaces ks es) : Atom cs ks q := by
  cases h with
  | word h hes => exact .word h (hes.replaces hks)
  | simple hkey hgap hgap' hvalue hes => exact .simple hkey hgap hgap' hvalue (hes.replaces hks)
  | quoted hkey hgap hgap' hvalue hgap'' => exact .quoted hkey hgap hgap' hvalue hgap''

/-- A word or a filter is read. -/
theorem finds (h : Atom cs ks q) (hcolon : (afterBlanks ks).head? ≠ some ':') :
    Finds silent.priExp cs ks q := by
  cases h with
  | word h hks => exact finds_word h hks hcolon
  | simple hkey hgap hgap' hvalue hks => exact finds_simple hkey hgap hgap' hvalue hks
  | quoted hkey hgap hgap' hvalue hgap'' => exact finds_quoted hkey hgap hgap' hvalue hgap''

/-- Words and filters begin with an identifier. -/
theorem exists_identifier (h : Atom cs ks q) :
    ∃ name rest, cs = name ++ rest ∧ IsIdentifier name ∧ EndsName (rest ++ ks) := by
  have hends {gap : List Char} (hgap : Blanks gap) (ds : List Char) :
      EndsName (gap ++ ':' :: ds) :=
    .of_blanks hgap (.cons (by decide) ds)
  cases h with
  | word h hks => exact ⟨cs, [], by simp, h, hks⟩
  | simple hkey hgap _ _ _ => exact ⟨_, _, rfl, hkey, by simpa using hends hgap _⟩
  | quoted hkey hgap _ _ _ => exact ⟨_, _, rfl, hkey, by simpa using hends hgap _⟩

end Atom

/-! ## What is read -/

/-- A fixed text is read off what comes next. -/
theorem literal_yields_rest (s : String) (c : Cursor) :
    (literal note s c).Yields fun t => t.start = c ∧ c.rest = s.toList ++ t.stop.rest := by
  unfold literal
  split
  · next h =>
    obtain ⟨⟨ds, hds⟩, rfl⟩ := Cursor.literal?_eq_some_iff.1 h
    refine .pure ⟨rfl, ?_⟩
    change c.rest = s.toList ++ c.rest.drop s.length
    rw [← hds, ← String.length_toList, List.drop_left]
  · exact .failAfter _

theorem token_yields_rest (s : String) (c : Cursor) :
    (token note s c).Yields fun t =>
      ∃ gap, Blanks gap ∧ c.rest = gap ++ (s.toList ++ t.stop.rest) :=
  (literal_yields_rest s _).mono fun t ⟨_, ht⟩ => by
    obtain ⟨gap, hgap, hc⟩ := exists_skipBlanks c
    exact ⟨gap, hgap, by rw [← ht, hc]⟩

theorem exists_covers {c d : Cursor} (h : c.word? = some d) :
    ∃ cs, IsIdentifier cs ∧ (ParseTree.leaf .ident c d).Covers cs := by
  obtain ⟨⟨x, xs, hc, hx⟩, rfl⟩ := Cursor.word?_eq_some_iff.1 h
  refine ⟨x :: xs.takeWhile isNameChar, ⟨x, _, rfl, hx, ?_⟩, ?_, ?_⟩
  · rw [List.all_eq_true]
    exact fun _ => List.mem_takeWhile_imp
  · change c.rest = x :: xs.takeWhile isNameChar ++ (c.skipWhile isNameChar).rest
    rw [Cursor.rest_skipWhile, hc, List.dropWhile_cons_of_pos (isNameChar_of_isLetter hx),
      List.cons_append, List.takeWhile_append_dropWhile]
  · change EndsName (c.skipWhile isNameChar).rest
    rw [Cursor.rest_skipWhile]
    exact endsName_dropWhile c.rest

def IsWord (c : Cursor) (t : ParseTree) : Prop :=
  t.start = c ∧ ∃ cs, IsIdentifier cs ∧ t.Covers cs ∧
    semantics.eval t = .ok (text (String.ofList cs))

theorem isWord_of_word? {c d : Cursor} (h : c.word? = some d) : IsWord c (.leaf .ident c d) := by
  obtain ⟨cs, hcs, hcovers⟩ := exists_covers h
  exact ⟨rfl, cs, hcs, hcovers, by rw [eval_ident, hcovers.text]⟩

theorem ident_yields_word (c : Cursor) : (ident note c).Yields (IsWord c) := by
  unfold ident
  split
  · next h => exact .pure (isWord_of_word? h)
  · exact .failAfter _

/-- The tree of what stands between the quotes of a value, from `c` on. -/
def IsString (c : Cursor) (t : ParseTree) : Prop :=
  ∃ raw value, Spells raw value ∧ c.rest = raw ++ t.stop.rest ∧
    semantics.eval t = .ok (text (String.ofList value))

/-- The loop goes from one quoted value to a longer one. -/
theorem spacedTail_yields_string (string : ParseTree) :
    ∀ cs, IsSpaced cs → string.Covers cs → IsString string.start string →
      (spacedTail note string).Yields (IsString string.start) := by
  fun_induction spacedTail note string with
  | case1 string gap d hword ih =>
    intro cs hcs hcovers h
    obtain ⟨-, word, hw, hcovers', -⟩ := isWord_of_word? hword
    obtain ⟨blanks, hblanks, hrest⟩ := exists_skipBlanks string.stop
    have hd : gap.rest = word ++ d.rest := hcovers'.rest
    have hne : blanks ≠ [] := by
      rintro rfl
      obtain ⟨⟨x, xs, hx, hletter⟩, -⟩ := Cursor.word?_eq_some_iff.1 hword
      have hgap : string.stop.rest = x :: xs := by rw [hrest, ← hx]; rfl
      have hname := hcovers.ends x (by rw [hgap]; rfl)
      exact Bool.false_ne_true (hname.symm.trans (isNameChar_of_isLetter hletter))
    have hlonger : string.start.rest = cs ++ (blanks ++ word) ++ d.rest := by
      rw [hcovers.rest, hrest, show string.stop.skipBlanks.rest = word ++ d.rest from hd,
        List.append_assoc, List.append_assoc]
    have htext : string.text ++ " " ++ (ParseTree.leaf .ident gap d).text =
        String.ofList (cs ++ ' ' :: word) := by
      rw [hcovers.text, hcovers'.text]
      apply String.toList_injective
      simp
    exact ih _ (hcs.snoc hne hblanks hw) ⟨hlonger, hcovers'.ends⟩
      ⟨_, _, .snoc hcs hne hblanks hw, hlonger, by rw [eval_spaced, htext]⟩
  | case2 string gap hword => exact fun _ _ _ h => .orElse (.failAfter _) (.pure h)

theorem spacedString_yields_string (c : Cursor) : (spacedString note c).Yields (IsString c) :=
  (ident_yields_word c).bind fun first ⟨hstart, cs, hcs, hcovers, hvalue⟩ => by
    subst hstart
    exact spacedTail_yields_string _ cs (.word hcs) ⟨hcovers.rest, hcovers.ends⟩
      ⟨cs, cs, .word hcs, hcovers.rest, by rw [eval_only (by simp), hvalue]⟩

def IsAtom (c : Cursor) (t : ParseTree) : Prop :=
  t.start = c ∧ ∃ cs q, Atom cs t.stop.rest q ∧ c.rest = cs ++ t.stop.rest ∧
    semantics.eval t = .ok q

variable {c : Cursor} {key : ParseTree}

theorem IsWord.isAtom {t : ParseTree} (h : IsWord c t) : IsAtom c t := by
  obtain ⟨rfl, cs, hcs, hcovers, hvalue⟩ := h
  exact ⟨rfl, cs, _, .word hcs hcovers.ends, hcovers.rest, hvalue⟩

theorem keywordQuoted_yields_atom (hkey : IsWord c key) :
    (keywordQuoted note key).Yields (IsAtom c) := by
  obtain ⟨rfl, name, hname, hcovers, -⟩ := hkey
  refine (token_yields_rest _ _).bind fun opening ⟨gap, hgap, hopening⟩ =>
    (spacedString_yields_string _).bind fun inner ⟨raw, value, hvalue, hinner, heval⟩ =>
      (token_yields_rest _ _).bind fun closing ⟨gap'', hgap'', hclosing⟩ => ?_
  obtain ⟨gap', hgap', hrest⟩ := exists_skipBlanks opening.stop
  rw [hinner, hclosing] at hrest
  refine .pure ⟨rfl, _, _, .quoted hname hgap hgap' hvalue hgap'', ?_, ?_⟩
  · rw [hcovers.rest, hopening, hrest]
    simp
  · rw [eval_quoted heval, hcovers.text]

theorem keywordSimple_yields_atom (hkey : IsWord c key) :
    (keywordSimple note key).Yields (IsAtom c) := by
  obtain ⟨rfl, name, hname, hcovers, -⟩ := hkey
  refine (token_yields_rest _ _).bind fun colon ⟨gap, hgap, hcolon⟩ =>
    (ident_yields_word _).bind fun last ⟨hstart, value, hvalue, hlast, heval⟩ => ?_
  obtain ⟨gap', hgap', hrest⟩ := exists_skipBlanks colon.stop
  rw [← hstart, hlast.rest] at hrest
  refine .pure ⟨rfl, _, _, .simple hname hgap hgap' hvalue hlast.ends, ?_, ?_⟩
  · rw [hcovers.rest, hcolon, hrest]
    simp
  · rw [eval_simple heval, hcovers.text]

theorem keywordExp_yields_atom (c : Cursor) : (keywordExp note c).Yields (IsAtom c) :=
  (ident_yields_word c).bind fun _ hkey =>
    .orElse (keywordQuoted_yields_atom hkey) (keywordSimple_yields_atom hkey)

theorem ident_yields_atom (c : Cursor) : (ident note c).Yields (IsAtom c) :=
  (ident_yields_word c).mono fun _ => IsWord.isAtom

end Query

end SearchQuery
