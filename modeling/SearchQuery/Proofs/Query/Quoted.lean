import Mathlib.Data.List.ModifyLast
import SearchQuery.Proofs.Query.Words

/-!
# Values in quotes

A filter may have several words in quotes as its value. Whatever blanks stand between the words are
kept, but for those before the last word, for which a single space is put. Any identifiers can be
words there, also those that begin like an operator.

## Main definitions

* `SpacedWord.close` — a word with a single space before it.
* `Query.quotedValue` — the value that words in quotes have.

Main statement: `Query.parse_quoted`.
-/

namespace SearchQuery

open Recognizer Text

namespace SpacedWord

/-- The same word with a single space before it. -/
def close (w : SpacedWord) : SpacedWord := ⟨[' '], w.word, by simp, blanks_space, w.isIdentifier⟩

theorem spread_concat (ws : List SpacedWord) (w : SpacedWord) :
    spread (ws ++ [w]) = spread ws ++ (w.gap ++ w.word) := by
  simp [spread]

/-- Words with their blanks are what can stand in quotes. -/
theorem isSpaced_spread {first : List Char} (hfirst : IsIdentifier first) (ws : List SpacedWord) :
    IsSpaced (first ++ spread ws) := by
  induction ws using List.reverseRecOn with
  | nil => simpa using IsSpaced.word hfirst
  | append_singleton ws w ih =>
    rw [spread_concat, ← List.append_assoc]
    exact ih.snoc w.gap_ne_nil w.blanks_gap w.isIdentifier

end SpacedWord

namespace Query

open SpacedWord

/-- The value of the words `first` and `others` in quotes: the words with all their blanks, but only
a single space before the last. -/
def quotedValue (first : List Char) (others : List SpacedWord) : List Char :=
  first ++ spread (others.modifyLast close)

/-- Only the blanks before the last word become a single space. -/
theorem quotedValue_concat (first : List Char) (others : List SpacedWord) (w : SpacedWord) :
    quotedValue first (others ++ [w]) = first ++ spread others ++ ' ' :: w.word := by
  rw [quotedValue, List.modifyLast_concat, spread_concat, List.append_assoc]
  rfl

/-- Words in quotes spell their value. -/
theorem spells_quotedValue {first : List Char} (hfirst : IsIdentifier first)
    (others : List SpacedWord) : Spells (first ++ spread others) (quotedValue first others) := by
  rcases List.eq_nil_or_concat others with rfl | ⟨others, w, rfl⟩
  · have hnil : quotedValue first [] = first := List.append_nil first
    simpa [hnil] using Spells.word hfirst
  · rw [List.concat_eq_append, quotedValue_concat, spread_concat, ← List.append_assoc]
    exact .snoc (isSpaced_spread hfirst others) w.gap_ne_nil w.blanks_gap w.isIdentifier

/-- A key, a colon and words in quotes are a filter with the value of the words, whatever blanks
stand before the colon and around the words. -/
theorem parse_quoted (key gap gap' first : List Char) (others : List SpacedWord)
    (gap'' : List Char) (hkey : IsIdentifier key) (hgap : Blanks gap) (hgap' : Blanks gap')
    (hfirst : IsIdentifier first) (hgap'' : Blanks gap'') :
    parse (String.ofList
        (key ++ gap ++ ":\"".toList ++ gap' ++ (first ++ spread others) ++ gap'' ++ "\"".toList)) =
      .ok (keyword (String.ofList key) (String.ofList (quotedValue first others))) := by
  have hspells := spells_quotedValue hfirst others
  have hread : Finds silent.priExp _ [] _ := finds_quoted hkey hgap hgap' hspells hgap''
  refine (finds_alone hread afterExp_nil).parse_of_blanks blanks_nil ?_
  simp

/-- Words like operators, with blanks of several kinds between them and around them. -/
theorem parse_quoted_operators :
    parse "k\t:\" AND  b\u0001\tOR \"" = .ok (keyword "k" "AND  b OR") := by
  have hk : IsIdentifier ['k'] := isIdentifier_letter (by decide)
  have hb : IsIdentifier ['b'] := isIdentifier_letter (by decide)
  have hand : IsIdentifier ['A', 'N', 'D'] := ⟨'A', _, rfl, by decide, by decide⟩
  have hor : IsIdentifier ['O', 'R'] := ⟨'O', _, rfl, by decide, by decide⟩
  have hblanks (gap : List Char) (h : gap.all isBlank) : Blanks gap := List.all_eq_true.1 h
  exact parse_quoted ['k'] ['\t'] [' '] ['A', 'N', 'D']
    [⟨[' ', ' '], _, by simp, hblanks _ (by decide), hb⟩,
      ⟨['\u0001', '\t'], _, by simp, hblanks _ (by decide), hor⟩] [' ']
    hk (hblanks _ (by decide)) blanks_space hand blanks_space

end Query

end SearchQuery
