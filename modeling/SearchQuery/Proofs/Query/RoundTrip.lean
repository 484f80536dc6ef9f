import SearchQuery.Proofs.Query.Canonical
import SearchQuery.Proofs.Query.Written
import SearchQuery.Proofs.Reading.Moment

/-!
# Writing and reading back

Reading what is written for a query gives its normal form. Reading only ever gives queries in normal
form, so what is read, written and read again stays the same.

Main statement: `Query.parse_render`.
-/

namespace SearchQuery

open Recognizer Text

namespace Query

variable {s : String} {q : Query}

/-- A text has the value of the tree that is read from it. -/
theorem parse_eq_ok_iff :
    parse s = .ok q ↔ ∃ t, (silent.whole (.start s)).found = some t ∧ semantics.eval t = .ok q := by
  rw [parse, Semantics.evaluate]
  cases h : ParseTree.ofQuery s with
  | ok tree =>
    rw [ParseTree.ofQuery_eq_ok_iff] at h
    simp [h]
  | error err =>
    have hnone : ∀ t, (silent.whole (.start s)).found ≠ some t := by
      intro t ht
      rw [ParseTree.ofQuery_eq_ok_iff.2 ht] at h
      contradiction
    constructor
    · exact nofun
    · rintro ⟨t, ht, -⟩
      exact absurd ht (hnone t)

theorem exists_ofQuery_of_parse (h : parse s = .ok q) : ∃ t, ParseTree.ofQuery s = .ok t := by
  obtain ⟨t, ht, -⟩ := parse_eq_ok_iff.1 h
  exact ⟨t, ParseTree.ofQuery_eq_ok_iff.2 ht⟩

/-- A reading of the text up to the blanks at its end gives the query. -/
theorem Finds.parse_of_blanks {cs trail : List Char} (h : Finds silent.logicalExp cs trail q)
    (htrail : Blanks trail) (hs : s.toList = cs ++ trail) : parse s = .ok q := by
  obtain ⟨t, ht, hrest, hvalue⟩ := exists_found_exp h (.start s) hs
  have hend : t.stop.skipBlanks.atEnd = true := by
    rw [Cursor.atEnd, Cursor.rest_skipBlanks, hrest, List.isEmpty_iff]
    exact afterBlanks_of_blanks htrail
  refine parse_eq_ok_iff.2 ⟨t, ?_, hvalue⟩
  rw [whole, Attempt.found_bind, ht, Option.bind_some, if_pos hend]
  rfl

/-- A reading of the whole text gives the query. -/
theorem Finds.parse (h : Finds silent.logicalExp s.toList [] q) : parse s = .ok q :=
  h.parse_of_blanks blanks_nil (List.append_nil _).symm

/-- Whatever is read is in normal form and can be written down. -/
theorem canonical_of_parse (h : parse s = .ok q) : q.Canonical := by
  obtain ⟨t, ht, hvalue⟩ := parse_eq_ok_iff.1 h
  obtain ⟨q', hvalue', hcanonical⟩ := whole_yields_value (.start s) () t ht
  obtain rfl : q = q' := Except.ok.inj (hvalue.symm.trans hvalue')
  exact hcanonical

/-- What is written for a query is read as its normal form. -/
theorem parse_render_of_proper (h : q.Proper) : parse q.render = .ok q.normalize := by
  refine Finds.parse ?_
  rw [toList_render]
  exact (finds_written h).2 [] ends_nil

/-- A query that can be written down is read back in normal form, and a query that was read is read
back as it is. -/
theorem parse_render :
    (∀ q : Query, q.Proper → parse q.render = .ok q.normalize) ∧
      ∀ (s : String) (q : Query), parse s = .ok q → parse q.render = .ok q := by
  refine ⟨fun q => parse_render_of_proper, fun s q h => ?_⟩
  have hcanonical := canonical_of_parse h
  have hnormal := normalize_of_normal hcanonical.normal
  have := parse_render_of_proper hcanonical.proper
  rwa [hnormal] at this

/-- A nested combination by the same operator, with a word that begins like an operator. -/
theorem parse_render_nested :
    let q := logic .and [text "a", logic .and [text "OR x", keyword "k" "v w"]]
    let n := logic .and [text "a", text "OR x", keyword "k" "v w"]
    q.Proper ∧ parse q.render = .ok n ∧ parse n.render = .ok n := by
  intro q n
  have hor : IsIdentifier ['O', 'R'] := isIdentifier_operator (.inr rfl)
  have ha : (text "a").Proper :=
    .text ⟨[['a']], by simp, by simpa using isIdentifier_letter (by decide), rfl⟩
  have hphrase : (text "OR x").Proper :=
    .text ⟨[['O', 'R'], ['x']], by simp, by simpa using ⟨hor, isIdentifier_letter (by decide)⟩, rfl⟩
  have hfilter : (keyword "k" "v w").Proper :=
    .keyword (isIdentifier_letter (by decide))
      (.snoc (.word (isIdentifier_letter (by decide))) (isIdentifier_letter (by decide)))
  have hinner : (logic .and [text "OR x", keyword "k" "v w"]).Proper :=
    .logic (by simp) (by simpa using ⟨hphrase, hfilter⟩)
  have hproper : q.Proper := .logic (by simp) (by simpa using ⟨ha, hinner⟩)
  have hnormalize : q.normalize = n := by simp [q, n, merge, flatten]
  have hread := parse_render.1 _ hproper
  rw [hnormalize] at hread
  exact ⟨hproper, hread, parse_render.2 _ _ hread⟩

end Query

end SearchQuery
