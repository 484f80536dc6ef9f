import Mathlib.Data.List.DropRight
import SearchQuery.Proofs.Reading.SameText

/-!
# What is left after reading

Where a reading stops depends on the characters to come and on nothing else. So reading is a
function on texts, which gives what is left behind an expression, an operand or the key of a keyword
filter.

Operators do not matter here. An operator and what follows could as well be read as a word and what
follows, and both stop at the same place. So an expression is an operand and, if possible, another
expression.

## Main definitions

* `Attempt.found` — what is read without a state.
* `Text.afterExp`, `Text.afterOperand`, `Text.afterKey` — what is left behind an expression, an
  operand and the key of a filter.

Main statement: `Text.afterExp_eq` is the recursion of `Text.afterExp` without operators.
-/

namespace SearchQuery

/-! ## Reading without a state -/

namespace Attempt

variable {α β : Type}

def found (x : Attempt Unit α) : Option α := (x ()).1

@[simp] theorem found_pure (a : α) : (pure a : Attempt Unit α).found = some a := rfl

@[simp] theorem found_bind (x : Attempt Unit α) (f : α → Attempt Unit β) :
    (x >>= f).found = x.found.bind fun a => (f a).found := by
  rw [found, bind_apply, found]
  rcases x () with ⟨_ | a, ⟨⟩⟩ <;> rfl

@[simp] theorem found_orElse (x y : Attempt Unit α) :
    (x <|> y).found = x.found.or y.found := by
  rw [found, orElse_apply, found]
  rcases x () with ⟨_ | a, ⟨⟩⟩ <;> rfl

end Attempt

open Recognizer

namespace Correspondence

variable {σ : Type}

/-- A reading of any text and one without a state of the same characters. -/
def shifted (note : Failure → σ → σ) : Correspondence σ Unit where
  noteLeft := note
  noteRight _ _ := ()
  states _ _ := True
  places c d := c.rest = d.rest
  facing c d := c.rest = d.rest
  trees a b := a.stop.rest = b.stop.rest
  lost _ := False
  edge := 0

variable {note : Failure → σ → σ}

theorem shifted_lawful : (shifted note).Lawful where
  lost_note _ _ h := h
  lost_note_of_past _ _ h := absurd h (Nat.not_lt_zero _)
  skip {c d} h := by
    change c.skipBlanks.rest = d.skipBlanks.rest
    rw [Cursor.rest_skipBlanks, Cursor.rest_skipBlanks, show c.rest = d.rest from h]
  stop h := h
  node _ hab h := forall₂_getLastD hab h
  spaces {c d} h := by
    change c.skipBlanks.rest = d.skipBlanks.rest
    rw [Cursor.rest_skipBlanks, Cursor.rest_skipBlanks, show c.rest = d.rest from h]
  literal {l c d} _ h := by
    have hrest : c.rest = d.rest := h
    intro s t _
    by_cases hl : l.toList <+: c.rest
    · rw [literal_of_some _ (Cursor.literal?_eq_some_iff.2 ⟨hl, rfl⟩),
        literal_of_some _ (Cursor.literal?_eq_some_iff.2 ⟨hrest ▸ hl, rfl⟩)]
      refine .some ?_ trivial
      change (c.advance _).rest = (d.advance _).rest
      rw [Cursor.rest_advance, Cursor.rest_advance, hrest]
    · rw [literal_of_none _ (Cursor.literal?_eq_none_iff.2 hl),
        literal_of_none _ (Cursor.literal?_eq_none_iff.2 (hrest ▸ hl))]
      exact .none trivial
  ident {c d} h := by
    have hrest : c.rest = d.rest := h
    intro s t _
    cases hw : c.word? with
    | none =>
      have hw' : d.word? = none := by
        rw [Cursor.word?_eq_none_iff] at hw ⊢
        exact hrest ▸ hw
      rw [ident_of_none _ hw, ident_of_none _ hw']
      exact .none trivial
    | some e =>
      obtain ⟨hx, rfl⟩ := Cursor.word?_eq_some_iff.1 hw
      rw [ident_of_some _ hw, ident_of_some _ (Cursor.word?_eq_some_iff.2 ⟨hrest ▸ hx, rfl⟩)]
      refine .some ?_ trivial
      change (c.skipWhile _).rest = (d.skipWhile _).rest
      rw [Cursor.rest_skipWhile, Cursor.rest_skipWhile, hrest]
  order {c c' d d'} h h' := by
    rw [Cursor.remaining, Cursor.remaining, Cursor.remaining, Cursor.remaining,
      show c.rest = c'.rest from h, show d.rest = d'.rest from h']
  edge_le _ := Nat.zero_le _

theorem shifted_escapes (c : Cursor) (x : Attempt σ ParseTree) : (shifted note).Escapes c x :=
  fun _ => ⟨False.elim, fun h => absurd h (Nat.not_lt_zero _)⟩

/-- Readings of the same characters leave the same characters. -/
theorem Follows.rest_eq {x : Attempt σ ParseTree} {y : Attempt Unit ParseTree}
    (h : (shifted note).Follows x y) (s : σ) :
    (x s).1.map (·.stop.rest) = y.found.map (·.stop.rest) := by
  have hxy := h s () trivial
  rw [Attempt.found]
  generalize x s = p at hxy ⊢
  generalize y () = q at hxy ⊢
  cases hxy with
  | none _ => rfl
  | some hab _ => exact congrArg some hab
  | gone h =>
    cases h with
    | lost h => exact h.elim
    | past h => exact absurd h (Nat.not_lt_zero _)

end Correspondence

namespace Text

/-! ## What is left, as a function on texts -/

def afterBlanks (cs : List Char) : List Char := cs.dropWhile isBlank

def afterLiteral (s : String) (cs : List Char) : Option (List Char) :=
  if s.toList <+: cs then some (cs.drop s.length) else none

def afterName (cs : List Char) : Option (List Char) :=
  if cs.head?.any isLetter then some (cs.dropWhile isNameChar) else none

def afterExp (cs : List Char) : Option (List Char) :=
  (silent.logicalExp ⟨0, cs⟩).found.map (·.stop.rest)

/-- What is left behind an operand that begins exactly here. -/
def afterOperand (cs : List Char) : Option (List Char) :=
  (silent.priExp ⟨0, cs⟩).found.map (·.stop.rest)

/-- What is left behind the further identifiers of a quoted value. -/
def afterMore (cs : List Char) : Option (List Char) :=
  (spacedTail silent.note (.leaf .ident ⟨0, cs⟩ ⟨0, cs⟩)).found.map (·.stop.rest)

def afterWords (cs : List Char) : Option (List Char) := (afterName cs).bind afterMore

/-- What is left behind a keyword filter whose key has just been read. -/
def afterKey (cs : List Char) : Option (List Char) :=
  (keywordQuoted silent.note (.leaf .ident ⟨0, cs⟩ ⟨0, cs⟩) <|>
    keywordSimple silent.note (.leaf .ident ⟨0, cs⟩ ⟨0, cs⟩)).found.map (·.stop.rest)

section Rest

variable {σ : Type} (note : Failure → σ → σ)

/-- What an expression leaves depends on nothing but the characters to come. -/
theorem rest_logicalExp (c : Cursor) (s : σ) :
    ((afresh note).logicalExp c s).1.map (·.stop.rest) = afterExp c.rest :=
  (Correspondence.shifted_lawful.afresh_logicalExp_follows
    (c := c) (d := ⟨0, c.rest⟩) rfl).rest_eq s

theorem rest_priExp (c : Cursor) (s : σ) :
    ((afresh note).priExp c s).1.map (·.stop.rest) = afterOperand c.rest :=
  (Correspondence.shifted_lawful.priExp_follows (fun c => Correspondence.shifted_escapes c _)
    (fun _ _ => Correspondence.shifted_lawful.afresh_logicalExp_follows)
    (c := c) (d := ⟨0, c.rest⟩) rfl).rest_eq s

theorem rest_spacedTail (string : ParseTree) (s : σ) :
    (spacedTail note string s).1.map (·.stop.rest) = afterMore string.stop.rest :=
  (Correspondence.shifted_lawful.spacedTail_follows
    (a := string) (b := .leaf .ident ⟨0, string.stop.rest⟩ ⟨0, string.stop.rest⟩) rfl).rest_eq s

theorem rest_keyword (key : ParseTree) (s : σ) :
    ((keywordQuoted note key <|> keywordSimple note key) s).1.map (·.stop.rest) =
      afterKey key.stop.rest := by
  have hK : (Correspondence.shifted note).Lawful := Correspondence.shifted_lawful
  let key' : ParseTree := .leaf .ident ⟨0, key.stop.rest⟩ ⟨0, key.stop.rest⟩
  have h : (Correspondence.shifted note).trees key key' := rfl
  exact ((hK.keywordQuoted_follows h).orElse (fun s => (hK.keywordSimple_escapes key s).1)
    (hK.keywordSimple_follows h)).rest_eq s

theorem rest_exp (c : Cursor) (s : σ) :
    ((afresh note).exp c s).1.map (·.stop.rest) = afterExp c.rest := by
  rw [← rest_logicalExp note c s, exp, Attempt.bind_apply]
  rcases (afresh note).logicalExp c s with ⟨_ | t, s'⟩ <;> rfl

end Rest

/-! ## Leaves -/

theorem found_literal (s : String) (c : Cursor) :
    (literal silent.note s c).found.map (·.stop.rest) = afterLiteral s c.rest := by
  unfold afterLiteral
  split
  · next h => rw [literal_of_some _ (Cursor.literal?_eq_some_iff.2 ⟨h, rfl⟩)]; rfl
  · next h => rw [literal_of_none _ (Cursor.literal?_eq_none_iff.2 h)]; rfl

theorem found_token (s : String) (c : Cursor) :
    (token silent.note s c).found.map (·.stop.rest) = afterLiteral s (afterBlanks c.rest) := by
  rw [token, found_literal, Cursor.rest_skipBlanks, afterBlanks]

theorem found_ident (c : Cursor) :
    (ident silent.note c).found.map (·.stop.rest) = afterName c.rest := by
  rw [afterName]
  split
  · next h =>
    have hw : c.word? = some (c.skipWhile isNameChar) := by rw [Cursor.word?, if_pos h]
    rw [ident_of_some _ hw]
    exact congrArg some (Cursor.rest_skipWhile _ c)
  · next h =>
    have hw : c.word? = none := by rw [Cursor.word?, if_neg h]
    rw [ident_of_none _ hw]
    rfl

/-- Reading on after something, as a function of what is left. -/
theorem map_bind_of_rest {x : Option ParseTree} {f : ParseTree → Option ParseTree}
    {g : List Char → Option (List Char)} (h : ∀ t, (f t).map (·.stop.rest) = g t.stop.rest) :
    (x.bind f).map (·.stop.rest) = (x.map (·.stop.rest)).bind g := by
  cases x with
  | none => rfl
  | some t => exact h t

theorem map_bind_pure {x : Option ParseTree} {f : ParseTree → ParseTree}
    (h : ∀ t, (f t).stop.rest = t.stop.rest) :
    (x.bind fun t => (pure (f t) : Attempt Unit ParseTree).found).map (·.stop.rest) =
      x.map (·.stop.rest) := by
  cases x with
  | none => rfl
  | some t => exact congrArg some (h t)

/-! ## Recursion -/

theorem found_delimited (opening closing : String) (rule : Rule) (c : Cursor) :
    (silent.delimited opening closing rule c).found.map (·.stop.rest) =
      (afterLiteral opening c.rest).bind fun r => (afterExp r).bind fun r =>
        afterLiteral closing (afterBlanks r) := by
  rw [delimited, Attempt.found_bind, ← found_literal]
  refine map_bind_of_rest fun first => ?_
  rw [Attempt.found_bind, ← rest_exp silent.note first.stop ()]
  refine map_bind_of_rest fun inner => ?_
  rw [Attempt.found_bind, ← found_token]
  exact map_bind_pure fun last => rfl

theorem found_single (x : Attempt Unit ParseTree) :
    (single x).found.map (·.stop.rest) = x.found.map (·.stop.rest) := by
  rw [single, Attempt.found_bind]
  exact map_bind_pure fun t => rfl

/-- The alternatives of an operand, by what they leave. -/
theorem afterOperand_eq (cs : List Char) :
    afterOperand cs =
      ((afterLiteral "(" cs).bind fun r => (afterExp r).bind fun r =>
        afterLiteral ")" (afterBlanks r)).or
      (((afterLiteral "\"" cs).bind fun r => (afterExp r).bind fun r =>
        afterLiteral "\"" (afterBlanks r)).or
      (((afterName cs).bind afterKey).or (afterName cs))) := by
  have hkey : (keywordExp silent.note ⟨0, cs⟩).found.map (·.stop.rest) =
      (afterName cs).bind afterKey := by
    rw [keywordExp, Attempt.found_bind, ← found_ident ⟨0, cs⟩]
    exact map_bind_of_rest fun key => rest_keyword silent.note key ()
  rw [afterOperand, priExp]
  simp only [Attempt.found_orElse, Option.map_or, found_delimited, found_single, found_ident, hkey]

theorem found_connected (left : ParseTree) (op : String) (rule : Rule) :
    (silent.connected left op rule).found.map (·.stop.rest) =
      (afterLiteral op (afterBlanks left.stop.rest)).bind afterExp := by
  rw [connected, Attempt.found_bind, ← found_token]
  refine map_bind_of_rest fun operator => ?_
  rw [Attempt.found_bind, ← rest_logicalExp silent.note operator.stop ()]
  exact map_bind_pure fun right => rfl

/-- The alternatives of an expression. -/
theorem afterExp_alternatives (cs : List Char) :
    afterExp cs = (afterOperand (afterBlanks cs)).bind fun r =>
      ((afterLiteral "AND" (afterBlanks r)).bind afterExp).or
      (((afterLiteral "OR" (afterBlanks r)).bind afterExp).or
      ((afterExp r).or (some r))) := by
  have hjoined (left : ParseTree) : (silent.joined left).found.map (·.stop.rest) =
      afterExp left.stop.rest := by
    rw [joined, Attempt.found_bind, ← rest_logicalExp silent.note left.stop ()]
    exact map_bind_pure fun right => rfl
  have hread : silent.logicalExp ⟨0, cs⟩ =
      silent.logicalAlternatives (Cursor.skipBlanks ⟨0, cs⟩) := afreshAt_eq _ _
  rw [afterExp, hread, logicalAlternatives, Attempt.found_bind]
  have hoperand := rest_priExp silent.note (Cursor.skipBlanks ⟨0, cs⟩) ()
  rw [Cursor.rest_skipBlanks] at hoperand
  rw [afterBlanks, ← hoperand]
  refine map_bind_of_rest fun left => ?_
  simp only [Attempt.found_orElse, Option.map_or, found_connected, hjoined, Attempt.found_pure,
    Option.map_some]
  rfl

/-- A quoted value goes on if another identifier follows. -/
theorem afterMore_eq (cs : List Char) :
    afterMore cs = ((afterName (afterBlanks cs)).bind afterMore).or (some cs) := by
  rw [afterMore, spacedTail_eq, Attempt.found_orElse, Attempt.found_bind, Option.map_or]
  refine congrArg₂ Option.or ?_ rfl
  have hword := found_ident (Cursor.skipBlanks ⟨0, cs⟩)
  rw [Cursor.rest_skipBlanks] at hword
  rw [afterBlanks, ← hword]
  exact map_bind_of_rest fun word => rest_spacedTail silent.note _ ()

/-- The alternatives of a filter, by what they leave. -/
theorem afterKey_eq (cs : List Char) :
    afterKey cs =
      ((afterLiteral ":\"" (afterBlanks cs)).bind fun r =>
        (afterWords (afterBlanks r)).bind fun r => afterLiteral "\"" (afterBlanks r)).or
      ((afterLiteral ":" (afterBlanks cs)).bind fun r => afterName (afterBlanks r)) := by
  have hwords (c : Cursor) :
      (spacedString silent.note c).found.map (·.stop.rest) = afterWords c.rest := by
    rw [spacedString, Attempt.found_bind, afterWords, ← found_ident]
    exact map_bind_of_rest fun first => rest_spacedTail silent.note _ ()
  rw [afterKey, Attempt.found_orElse, Option.map_or, keywordQuoted, keywordSimple]
  refine congrArg₂ Option.or ?_ ?_
  · rw [Attempt.found_bind, ← found_token ":\"" ⟨0, cs⟩]
    refine map_bind_of_rest fun opening => ?_
    have hvalue := hwords opening.stop.skipBlanks
    rw [Cursor.rest_skipBlanks] at hvalue
    rw [Attempt.found_bind, afterBlanks, ← hvalue]
    refine map_bind_of_rest fun value => ?_
    rw [Attempt.found_bind, ← found_token]
    exact map_bind_pure fun closing => rfl
  · rw [Attempt.found_bind, ← found_token ":" ⟨0, cs⟩]
    refine map_bind_of_rest fun colon => ?_
    have hvalue := found_ident colon.stop.skipBlanks
    rw [Cursor.rest_skipBlanks] at hvalue
    rw [Attempt.found_bind, afterBlanks, ← hvalue]
    exact map_bind_pure fun value => rfl

end Text

end SearchQuery
