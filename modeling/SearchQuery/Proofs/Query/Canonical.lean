import SearchQuery.Proofs.Query.Atom

/-!
# Values of what is read

Every tree that is read has a value. It is a query in normal form, and its texts and values are made
of the identifiers in the tree, so it can be written down.

## Main definitions

* `Query.Canonical` — a query in normal form that can be written down.
* `Query.HasValue` — the value of a tree is such a query.

Main statement: `Query.whole_yields_value` says that whole queries have values.
-/

namespace SearchQuery

open Recognizer Text

namespace Query

/-- In normal form, and can be written down. -/
structure Canonical (q : Query) : Prop where
  proper : q.Proper
  normal : q.Normal

def HasValue (t : ParseTree) : Prop := ∃ q, semantics.eval t = .ok q ∧ q.Canonical

variable {σ : Type} {note : Failure → σ → σ} {R : Recognizer σ} {left right : Query}

/-! ## Handlers -/

theorem intercalate_append {words others : List (List Char)} (h : words ≠ []) (h' : others ≠ []) :
    [' '].intercalate (words ++ others) =
      [' '].intercalate words ++ ' ' :: [' '].intercalate others := by
  induction words with
  | nil => contradiction
  | cons word words ih =>
    by_cases hnil : words = []
    · subst hnil
      rw [List.intercalate_singleton, List.singleton_append, List.intercalate_cons_of_ne_nil h']
      simp
    · rw [List.cons_append, List.intercalate_cons_of_ne_nil hnil,
        List.intercalate_cons_of_ne_nil (by simp [hnil]), ih hnil]
      simp

/-- Two phrases with a space between them are a phrase. -/
theorem isPhrase_append {cs ds : List Char} (hcs : IsPhrase cs) (hds : IsPhrase ds) :
    IsPhrase (cs ++ ' ' :: ds) := by
  obtain ⟨words, hne, hwords, rfl⟩ := hcs
  obtain ⟨others, hne', hothers, rfl⟩ := hds
  refine ⟨words ++ others, by simp [hne], fun word hword => ?_, ?_⟩
  · exact (List.mem_append.1 hword).elim (hwords word) (hothers word)
  · exact (intercalate_append hne hne').symm

/-- Combining canonical queries gives a canonical query. -/
theorem Canonical.combine (hleft : left.Canonical) (hright : right.Canonical) (p : Connective) :
    (combine p left right).Canonical :=
  ⟨hleft.proper.flatten hright.proper p, hleft.normal.flatten hright.normal p⟩

theorem Canonical.juxtapose (hleft : left.Canonical) (hright : right.Canonical) :
    (juxtapose left right).Canonical := by
  unfold Query.juxtapose
  split
  · next a b =>
    refine ⟨.text ?_, .text _⟩
    have ha : IsPhrase a.toList := by
      cases hleft.proper with
      | text h => exact h
    have hb : IsPhrase b.toList := by
      cases hright.proper with
      | text h => exact h
    simpa using isPhrase_append ha hb
  · exact hleft.combine hright .and

/-! ## Words and filters -/

/-- Words and filters have canonical values. -/
theorem Atom.canonical {cs ks : List Char} {q : Query} (h : Atom cs ks q) : q.Canonical := by
  have hfilter {key value : List Char} (hkey : IsIdentifier key) (hvalue : IsValue value) :
      (keyword (String.ofList key) (String.ofList value)).Canonical := by
    refine ⟨.keyword ?_ ?_, .keyword _ _⟩
    · rwa [String.toList_ofList]
    · rwa [String.toList_ofList]
  cases h with
  | word h _ => exact ⟨.text ⟨[cs], by simp, by simpa using h, by simp⟩, .text _⟩
  | simple hkey _ _ hvalue _ => exact hfilter hkey (.word hvalue)
  | quoted hkey _ _ hvalue _ => exact hfilter hkey hvalue.isValue

theorem IsAtom.hasValue {c : Cursor} {t : ParseTree} (h : IsAtom c t) : HasValue t :=
  let ⟨_, _, q, hatom, _, hvalue⟩ := h
  ⟨q, hvalue, hatom.canonical⟩

/-- A node that only wraps a tree has its value. -/
theorem HasValue.only {rule : Rule} (h : rule ∈ [.exp, .logicalExp, .priExp, .spacedString])
    {t : ParseTree} (ht : HasValue t) : HasValue (.node rule t []) := by
  obtain ⟨q, hq, hcanonical⟩ := ht
  exact ⟨q, by rw [eval_only h, hq], hcanonical⟩

theorem single_yields_value {c : Cursor} {item : Attempt σ ParseTree}
    (h : item.Yields (IsAtom c)) : (single item).Yields HasValue :=
  h.bind fun _ ht => .pure (ht.hasValue.only (by simp))

/-! ## Expressions -/

def GivesValues (R : Recognizer σ) : Prop := ∀ c, (R.logicalAt c).Yields HasValue

theorem exp_yields_value (hR : GivesValues R) (c : Cursor) : (R.exp c).Yields HasValue :=
  (hR _).bind fun _ ht => .pure (ht.only (by simp))

theorem delimited_yields_value (hR : GivesValues R) (opening closing : String) {rule : Rule}
    (hrule : rule = .paren ∨ rule = .quote) (c : Cursor) :
    (R.delimited opening closing rule c).Yields HasValue :=
  (literal_yields _ _).bind fun _ _ =>
    (exp_yields_value hR _).bind fun _ ⟨q, hq, hcanonical⟩ =>
      (token_yields _ _).bind fun _ _ =>
        .pure ⟨q, by rw [eval_delimited hrule, hq], hcanonical⟩

theorem priExp_yields_value (hR : GivesValues R) (c : Cursor) : (R.priExp c).Yields HasValue :=
  .orElse (delimited_yields_value hR _ _ (.inl rfl) c) <|
    .orElse (delimited_yields_value hR _ _ (.inr rfl) c) <|
      .orElse (single_yields_value (keywordExp_yields_atom c))
        (single_yields_value (ident_yields_atom c))

theorem connected_yields_value (hR : GivesValues R) {t : ParseTree} (ht : HasValue t)
    (p : Connective) : (R.connected t p.keyword p.rule).Yields HasValue :=
  (token_yields _ _).bind fun operator _ =>
    (hR _).bind fun _ hright => .pure <| by
      obtain ⟨left, hleft, hl⟩ := ht
      obtain ⟨right, hright, hr⟩ := hright
      exact ⟨combine p left right, eval_operator p hleft hright operator, hl.combine hr p⟩

theorem joined_yields_value (hR : GivesValues R) {t : ParseTree} (ht : HasValue t) :
    (R.joined t).Yields HasValue :=
  (hR _).bind fun _ hright => .pure <| by
    obtain ⟨left, hleft, hl⟩ := ht
    obtain ⟨right, hright, hr⟩ := hright
    exact ⟨juxtapose left right, eval_join hleft hright, hl.juxtapose hr⟩

theorem logicalAlternatives_yields_value (hR : GivesValues R) (c : Cursor) :
    (R.logicalAlternatives c).Yields HasValue :=
  (priExp_yields_value hR c).bind fun _ ht =>
    .orElse (connected_yields_value hR ht .and) <|
      .orElse (connected_yields_value hR ht .or) <|
        .orElse (joined_yields_value hR ht) (.pure (ht.only (by simp)))

/-- Every `LogicalExp` that is read has a canonical value. -/
theorem afresh_givesValues (note : Failure → σ → σ) : GivesValues (afresh note) :=
  afreshAt_yields fun _ hR => logicalAlternatives_yields_value hR

/-- Whole queries have values. -/
theorem whole_yields_value (c : Cursor) : ((afresh note).whole c).Yields HasValue :=
  (exp_yields_value (afresh_givesValues note) c).bind fun root hroot => by
    dsimp only
    split
    · exact .pure hroot
    · exact .failAfter _

end Query

end SearchQuery
