import SearchQuery.Proofs.Query.RoundTrip

/-!
# Lists of words

A word that begins like an operator is read as one only if an operand follows: what is left of the
word, if it begins with a letter, or the next word, if nothing is left. So the value of a list of
words follows from the words alone, whatever blanks stand between them.

## Main definitions

* `Query.wordsBehind?` — the words behind an operator at the beginning of a word.
* `Query.wordsValue` — the value of a list of words.
* `SpacedWord` — a word with the blanks before it.

Main statements: `Query.finds_wordsValue` is the reading of a list of words, and `Query.parse_words`
says the same of whole queries.
-/

namespace SearchQuery

open Recognizer Text

namespace Query

/-! ## Words and operators -/

/-- The words that begin with `left`, which is what an operator leaves of a word. -/
def wordsFrom? : (left : List Char) → (others : List (List Char)) →
    Option (List Char × List (List Char))
  | x :: xs, others => if isLetter x then some (x :: xs, others) else none
  | [], next :: others => some (next, others)
  | [], [] => none

/-- The words behind the operator `p`, if the word `next` begins with it and an operand follows. -/
def wordsBehind? (p : Connective) (next : List Char) (others : List (List Char)) :
    Option (List Char × List (List Char)) :=
  (afterLiteral p.keyword next).bind (wordsFrom? · others)

/-- The operator at the beginning of the word `next`, if there is one, and the words behind it. -/
def operatorBefore? (next : List Char) (others : List (List Char)) :
    Option (Connective × List Char × List (List Char)) :=
  ((wordsBehind? .and next others).map (.and, ·)).or
    ((wordsBehind? .or next others).map (.or, ·))

section Operators

variable {p : Connective} {next next' : List Char} {others others' : List (List Char)}

theorem wordsBehind?_append (left : List Char) :
    wordsBehind? p (p.keyword.toList ++ left) others = wordsFrom? left others := by
  rw [wordsBehind?, afterLiteral_append, Option.bind_some]

theorem length_le_of_wordsBehind? (h : wordsBehind? p next others = some (next', others')) :
    others'.length ≤ others.length := by
  obtain ⟨left, -, h⟩ := Option.bind_eq_some_iff.1 h
  unfold wordsFrom? at h
  split at h
  · split at h <;> cases h
    exact Nat.le_refl _
  · cases h
    exact Nat.le_succ _
  · cases h

theorem wordsBehind?_of_operatorBefore?
    (h : operatorBefore? next others = some (p, next', others')) :
    wordsBehind? p next others = some (next', others') := by
  simp only [operatorBefore?, Option.or_eq_some_iff, Option.map_eq_some_iff] at h
  rcases h with ⟨_, hand, ⟨⟩⟩ | ⟨-, _, hor, ⟨⟩⟩
  · exact hand
  · exact hor

theorem operatorBefore?_eq_none_iff :
    operatorBefore? next others = none ↔ ∀ p, wordsBehind? p next others = none := by
  rw [operatorBefore?, Option.or_eq_none_iff, Option.map_eq_none_iff, Option.map_eq_none_iff]
  refine ⟨fun ⟨hand, hor⟩ p => ?_, fun h => ⟨h .and, h .or⟩⟩
  cases p with
  | and => exact hand
  | or => exact hor

theorem wordsBehind?_of_not_startsWithOperator (h : startsWithOperator next = false)
    (p : Connective) (others : List (List Char)) : wordsBehind? p next others = none := by
  have hnone : afterLiteral p.keyword next = none :=
    if_neg (startsWithOperator_eq_false_iff.1 h p)
  rw [wordsBehind?, hnone, Option.bind_none]

end Operators

def wordsValue (word : List Char) : (others : List (List Char)) → Query
  | [] => text (String.ofList word)
  | next :: others =>
    match h : operatorBefore? next others with
    | some (p, next', others') =>
      have := length_le_of_wordsBehind? (wordsBehind?_of_operatorBefore? h)
      combine p (text (String.ofList word)) (wordsValue next' others')
    | none => juxtapose (text (String.ofList word)) (wordsValue next others)
termination_by others => others.length

section Values

variable {p : Connective} {word next next' : List Char} {others others' : List (List Char)}

@[simp] theorem wordsValue_nil : wordsValue word [] = text (String.ofList word) := by
  rw [wordsValue]

theorem wordsValue_of_some (h : operatorBefore? next others = some (p, next', others')) :
    wordsValue word (next :: others) =
      combine p (text (String.ofList word)) (wordsValue next' others') := by
  rw [wordsValue]
  split <;> simp_all

theorem wordsValue_of_none (h : operatorBefore? next others = none) :
    wordsValue word (next :: others) =
      juxtapose (text (String.ofList word)) (wordsValue next others) := by
  rw [wordsValue]
  split <;> simp_all

/-- Without operators, the words are one text. -/
theorem wordsValue_of_not_startsWithOperator
    (h : ∀ next ∈ others, startsWithOperator next = false) :
    wordsValue word others = text (String.ofList ([' '].intercalate (word :: others))) := by
  induction others generalizing word with
  | nil => simp
  | cons next others ih =>
    have hnext := wordsBehind?_of_not_startsWithOperator (h next List.mem_cons_self)
    rw [wordsValue_of_none (operatorBefore?_eq_none_iff.2 fun p => hnext p others),
      ih fun w hw => h w (List.mem_cons_of_mem next hw), juxtapose]
    refine congrArg text (String.toList_injective ?_)
    simp

end Values

end Query

/-! ## Words with blanks between them -/

structure SpacedWord where
  gap : List Char
  word : List Char
  gap_ne_nil : gap ≠ []
  blanks_gap : Blanks gap
  isIdentifier : IsIdentifier word

namespace SpacedWord

def spread (ws : List SpacedWord) : List Char := ws.flatMap fun w => w.gap ++ w.word

@[simp] theorem spread_nil : spread [] = [] := rfl

@[simp] theorem spread_cons (w : SpacedWord) (ws : List SpacedWord) :
    spread (w :: ws) = w.gap ++ (w.word ++ spread ws) := by
  simp [spread]

theorem endsName_spread (ws : List SpacedWord) {trail : List Char} (htrail : Blanks trail) :
    EndsName (spread ws ++ trail) := by
  cases ws with
  | nil =>
    have hnil : EndsName [] := nofun
    simpa using EndsName.of_blanks htrail hnil
  | cons w ws =>
    rw [spread_cons, List.append_assoc]
    exact endsName_gap w.gap_ne_nil w.blanks_gap _

theorem afterBlanks_spread (w : SpacedWord) (ws : List SpacedWord) (trail : List Char) :
    afterBlanks (spread (w :: ws) ++ trail) = w.word ++ (spread ws ++ trail) := by
  obtain ⟨x, xs, hx, hletter, -⟩ := w.isIdentifier
  rw [spread_cons, hx]
  simpa using afterBlanks_letter w.blanks_gap hletter (xs ++ (spread ws ++ trail))

end SpacedWord

namespace Query

open SpacedWord

variable {p : Connective} {word next next' trail : List Char} {ws : List SpacedWord}

/-- The words behind an operator are what follows it in the text. -/
theorem exists_spread_of_wordsBehind? {others' : List (List Char)} (hnext : IsIdentifier next)
    (h : wordsBehind? p next (ws.map SpacedWord.word) = some (next', others')) :
    ∃ (gap : List Char) (ws' : List SpacedWord), Blanks gap ∧ IsIdentifier next' ∧
      ws'.map SpacedWord.word = others' ∧ ws'.length ≤ ws.length ∧
      next ++ spread ws = p.keyword.toList ++ (gap ++ (next' ++ spread ws')) := by
  obtain ⟨left, hleft, -⟩ := Option.bind_eq_some_iff.1 h
  obtain rfl := afterLiteral_eq_some_iff.1 hleft
  rw [wordsBehind?_append] at h
  cases left with
  | cons x xs =>
    -- What is left of the word is an identifier of its own.
    obtain ⟨hx, rfl, rfl⟩ : isLetter x ∧ x :: xs = next' ∧ ws.map SpacedWord.word = others' := by
      simpa [wordsFrom?] using h
    have hxs : xs.all isNameChar :=
      List.all_eq_true.2 fun y hy => hnext.isNameChar_of_mem (by simp [hy])
    exact ⟨[], ws, blanks_nil, ⟨x, xs, rfl, hx, hxs⟩, rfl, Nat.le_refl _, by simp⟩
  | nil =>
    -- Nothing is left, so that the next word follows.
    cases ws with
    | nil => simp [wordsFrom?] at h
    | cons w ws =>
      obtain ⟨rfl, rfl⟩ : w.word = next' ∧ ws.map SpacedWord.word = others' := by
        simpa [wordsFrom?] using h
      exact ⟨w.gap, ws, w.blanks_gap, w.isIdentifier, rfl, Nat.le_succ _, by simp⟩

/-- Where no words are behind an operator, no expression is. -/
theorem bind_afterExp_of_wordsBehind? (hnext : IsIdentifier next) (htrail : Blanks trail)
    (h : wordsBehind? p next (ws.map SpacedWord.word) = none) :
    (afterLiteral p.keyword (next ++ (spread ws ++ trail))).bind Text.afterExp = none := by
  rw [Option.bind_eq_none_iff]
  intro ds hds
  have hds := afterLiteral_eq_some_iff.1 hds
  -- The operator lies in the word, because no word goes on behind it.
  obtain ⟨left, rfl⟩ : p.keyword.toList <+: next :=
    prefix_of_endsName (isIdentifier_operator (keyword_eq p)) (endsName_spread ws htrail)
      ⟨ds, hds.symm⟩
  obtain rfl : left ++ (spread ws ++ trail) = ds := by simpa using hds
  rw [wordsBehind?_append] at h
  cases left with
  | nil =>
    cases ws with
    | nil => simpa using afterExp_of_blanks htrail
    | cons w ws => simp [wordsFrom?] at h
  | cons x xs =>
    have hletter : isLetter x = false := by simpa [wordsFrom?] using h
    have hname : isNameChar x := hnext.isNameChar_of_mem (by simp)
    have hopens : opens x = false := by
      simp only [opens, hletter, Bool.or_false, Bool.or_eq_false_iff, decide_eq_false_iff_not]
      constructor <;> (rintro rfl; exact absurd hname (by decide))
    exact (afterExp_mark_eq_none_iff blanks_nil (not_isBlank_of_isNameChar hname)).2
      (afterOperand_of_not_opens hopens)

/-- Words are read one after another, with operators where words are behind them. -/
theorem finds_wordsValue (ws : List SpacedWord) (hword : IsIdentifier word)
    (htrail : Blanks trail) :
    Finds silent.logicalExp (word ++ spread ws) trail
      (wordsValue word (ws.map SpacedWord.word)) := by
  induction hn : ws.length using Nat.strongRecOn generalizing word ws with
  | ind n ih =>
    subst hn
    have hends := endsName_spread ws htrail
    cases ws with
    | nil =>
      have hcolon : (afterBlanks trail).head? ≠ some ':' := by
        rw [afterBlanks_of_blanks htrail]
        nofun
      simpa using finds_alone (finds_word hword (by simpa using hends) hcolon)
        (afterExp_of_blanks htrail)
    | cons next ws =>
      have hrest := ih ws.length (by simp) ws next.isIdentifier rfl
      have hcolon : (afterBlanks (spread (next :: ws) ++ trail)).head? ≠ some ':' := by
        rw [← afterBlanks_afterBlanks, afterBlanks_spread, ← List.append_assoc]
        exact head_ne_colon_of_afterExp hrest.afterExp
      have hoperand := finds_word hword hends hcolon
      cases hop : operatorBefore? next.word (ws.map SpacedWord.word) with
      | none =>
        have hnone := operatorBefore?_eq_none_iff.1 hop
        rw [List.map_cons, wordsValue_of_none hop, spread_cons]
        refine finds_beside (by simpa using hoperand) (finds_blanks next.blanks_gap hrest)
          fun p => ?_
        rw [← spread_cons, afterBlanks_spread]
        exact bind_afterExp_of_wordsBehind? next.isIdentifier htrail (hnone p)
      | some found =>
        obtain ⟨p, next', others'⟩ := found
        obtain ⟨gap, ws', hgap, hnext', rfl, hlen, heq⟩ := exists_spread_of_wordsBehind?
          next.isIdentifier (wordsBehind?_of_operatorBefore? hop)
        have hbehind := finds_blanks hgap (ih ws'.length (by simp; omega) ws' hnext' rfl)
        rw [List.map_cons, wordsValue_of_some hop, spread_cons, heq]
        rw [spread_cons, heq] at hoperand
        exact finds_operator p next.blanks_gap (by simpa using hoperand) hbehind

/-! ## Queries -/

/-- Words have their value whatever blanks stand between them and around them. -/
theorem parse_words (lead first : List Char) (others : List SpacedWord) (trail : List Char)
    (hlead : Blanks lead) (hfirst : IsIdentifier first) (htrail : Blanks trail) :
    parse (String.ofList (lead ++ first ++ spread others ++ trail)) =
        .ok (wordsValue first (others.map SpacedWord.word)) ∧
      ((∀ w ∈ others, startsWithOperator w.word = false) →
        wordsValue first (others.map SpacedWord.word) =
          text (String.ofList ([' '].intercalate (first :: others.map SpacedWord.word)))) := by
  have hfinds := finds_blanks hlead (finds_wordsValue others hfirst htrail)
  refine ⟨hfinds.parse_of_blanks htrail (by simp), fun h => ?_⟩
  exact wordsValue_of_not_startsWithOperator (by simpa using h)

/-- An operator in the first word behind, and later words that only look like operators. -/
theorem parse_words_operators :
    parse " x ANDy\tAND5 AND" = .ok (logic .and [text "x", text "y AND5 AND"]) ∧
      parse "AND b\n" = .ok (text "AND b") := by
  have hvalue : wordsValue ['x'] [['A', 'N', 'D', 'y'], ['A', 'N', 'D', '5'], ['A', 'N', 'D']] =
      logic .and [text "x", text "y AND5 AND"] := by decide +kernel
  have hx : IsIdentifier ['x'] := isIdentifier_letter (by decide)
  have hb : IsIdentifier ['b'] := isIdentifier_letter (by decide)
  have hand : IsIdentifier ['A', 'N', 'D'] := isIdentifier_operator (.inl rfl)
  have hglued : IsIdentifier ['A', 'N', 'D', 'y'] := ⟨'A', _, rfl, by decide, by decide⟩
  have hdigit : IsIdentifier ['A', 'N', 'D', '5'] := ⟨'A', _, rfl, by decide, by decide⟩
  have hblank (x : Char) (hx : isBlank x) : Blanks [x] := List.forall_mem_singleton.2 hx
  have hread := parse_words [' '] ['x'] [⟨[' '], _, by simp, blanks_space, hglued⟩,
    ⟨['\t'], _, by simp, hblank '\t' (by decide), hdigit⟩,
    ⟨[' '], _, by simp, blanks_space, hand⟩] [] blanks_space hx blanks_nil
  have hword : startsWithOperator ['b'] = false := by decide
  have htext := parse_words [] ['A', 'N', 'D'] [⟨[' '], _, by simp, blanks_space, hb⟩] ['\n']
    blanks_nil hand (hblank '\n' (by decide))
  exact ⟨hread.1.trans (congrArg _ hvalue),
    htext.1.trans (congrArg _ (htext.2 (by simpa using hword)))⟩

end Query

end SearchQuery
