import SearchQuery.Text.Bytes
import SearchQuery.Text.Class

/-!
# Places in a text

A cursor stands between two characters of a text. It knows how many bytes lie before it and which
characters are still to come, so reading on never looks at the text as a whole. Every movement is
an `advance` over some number of characters.

## Main definitions

* `Cursor.advance` — the cursor some characters further on.
* `Cursor.skipBlanks`, `Cursor.word?`, `Cursor.literal?` — over blanks, an identifier, a fixed text.
* `Cursor.upTo` — the characters between two cursors of one text.
-/

namespace SearchQuery

structure Cursor where
  /-- How many bytes of the text lie before the place. -/
  offset : Nat
  /-- The characters from the place to the end of the text. -/
  rest : List Char
deriving DecidableEq

namespace Cursor

def start (s : String) : Cursor := ⟨0, s.toList⟩

def remaining (c : Cursor) : Nat := c.rest.length

def atEnd (c : Cursor) : Bool := c.rest.isEmpty

/-! ## Movement -/

/-- The cursor after the next `n` characters, or at the end if there are fewer. -/
def advance (c : Cursor) (n : Nat) : Cursor :=
  ⟨c.offset + Text.byteCount (c.rest.take n), c.rest.drop n⟩

@[simp, grind =] theorem rest_advance (c : Cursor) (n : Nat) :
    (c.advance n).rest = c.rest.drop n := rfl

@[simp, grind =] theorem offset_advance (c : Cursor) (n : Nat) :
    (c.advance n).offset = c.offset + Text.byteCount (c.rest.take n) := rfl

@[simp, grind =] theorem remaining_advance (c : Cursor) (n : Nat) :
    (c.advance n).remaining = c.remaining - n := by
  simp [remaining]

@[simp] theorem advance_zero (c : Cursor) : c.advance 0 = c := by
  simp [advance]

@[simp] theorem advance_advance (c : Cursor) (m n : Nat) :
    (c.advance m).advance n = c.advance (m + n) := by
  simp [advance, List.take_add, Nat.add_assoc]

def skipWhile (p : Char → Bool) (c : Cursor) : Cursor :=
  c.advance (c.rest.takeWhile p).length

@[simp, grind =] theorem rest_skipWhile (p : Char → Bool) (c : Cursor) :
    (c.skipWhile p).rest = c.rest.dropWhile p := by
  simp only [skipWhile, rest_advance]
  induction c.rest with
  | nil => rfl
  | cons x xs ih => by_cases h : p x <;> simp [h, ih]

theorem remaining_skipWhile_le (p : Char → Bool) (c : Cursor) :
    (c.skipWhile p).remaining ≤ c.remaining := by
  simp [skipWhile]

def skipBlanks (c : Cursor) : Cursor := c.skipWhile Text.isBlank

@[simp, grind =] theorem rest_skipBlanks (c : Cursor) :
    c.skipBlanks.rest = c.rest.dropWhile Text.isBlank := rest_skipWhile ..

@[grind .] theorem remaining_skipBlanks_le (c : Cursor) :
    c.skipBlanks.remaining ≤ c.remaining := remaining_skipWhile_le ..

/-- The end of the identifier that begins here. -/
def word? (c : Cursor) : Option Cursor :=
  if c.rest.head?.any Text.isLetter then some (c.skipWhile Text.isNameChar) else none

/-- An identifier begins with a letter and is as long as it can be. -/
theorem word?_eq_some_iff {c d : Cursor} :
    c.word? = some d ↔
      (∃ x xs, c.rest = x :: xs ∧ Text.isLetter x) ∧ d = c.skipWhile Text.isNameChar := by
  rw [word?, Option.ite_none_right_eq_some, Option.some.injEq, eq_comm (a := d)]
  refine and_congr_left fun _ => ?_
  cases c.rest <;> simp

theorem word?_eq_none_iff {c : Cursor} :
    c.word? = none ↔ ∀ x ∈ c.rest.head?, Text.isLetter x = false := by
  rw [word?, ite_eq_right_iff]
  cases c.rest <;> simp

/-- An identifier has at least one character. -/
@[grind →] theorem remaining_lt_of_word? {c d : Cursor} (h : c.word? = some d) :
    d.remaining < c.remaining := by
  obtain ⟨⟨x, xs, hc, hx⟩, rfl⟩ := word?_eq_some_iff.1 h
  have := (List.dropWhile_suffix Text.isNameChar (l := xs)).length_le
  simp only [remaining, rest_skipWhile, hc, List.length_cons,
    List.dropWhile_cons_of_pos (Text.isNameChar_of_isLetter hx)]
  omega

/-- The end of the text `s`, if exactly `s` comes next. -/
def literal? (s : String) (c : Cursor) : Option Cursor :=
  if s.toList.isPrefixOf c.rest then some (c.advance s.length) else none

theorem literal?_eq_some_iff {s : String} {c d : Cursor} :
    c.literal? s = some d ↔ s.toList <+: c.rest ∧ d = c.advance s.length := by
  rw [literal?, Option.ite_none_right_eq_some, Option.some.injEq, List.isPrefixOf_iff_prefix,
    eq_comm (a := d)]

theorem literal?_eq_none_iff {s : String} {c : Cursor} :
    c.literal? s = none ↔ ¬ s.toList <+: c.rest := by
  rw [literal?, ite_eq_right_iff, ← List.isPrefixOf_iff_prefix]
  simp

/-- Matching a text takes up its characters. -/
theorem remaining_of_literal? {s : String} {c d : Cursor} (h : c.literal? s = some d) :
    d.remaining + s.length = c.remaining := by
  obtain ⟨hs, rfl⟩ := literal?_eq_some_iff.1 h
  have := hs.length_le
  rw [String.length_toList] at this
  rw [remaining_advance]
  exact Nat.sub_add_cancel this

/-! ## Between cursors -/

/-- The characters from `c` up to the later cursor `d` of the same text. -/
def upTo (c d : Cursor) : List Char := c.rest.take (c.remaining - d.remaining)

/-- Between a place and a later one lie the characters advanced over. -/
theorem upTo_advance (c : Cursor) (n : Nat) : c.upTo (c.advance n) = c.rest.take n := by
  rw [upTo, remaining_advance]
  rcases Nat.le_total n c.remaining with h | h
  · rw [Nat.sub_sub_self h]
  · rw [Nat.sub_eq_zero_of_le h, Nat.sub_zero, List.take_of_length_le h]
    exact List.take_of_length_le (Nat.le_refl _)

/-- What stands before the later cursor is what lies between. -/
theorem upTo_of_rest {c d : Cursor} {cs : List Char} (h : c.rest = cs ++ d.rest) :
    c.upTo d = cs := by
  rw [upTo, remaining, remaining, h, List.length_append, Nat.add_sub_cancel, List.take_left]

end Cursor

end SearchQuery
