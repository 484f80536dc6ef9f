import Mathlib.Data.List.Chain
import SearchQuery.Proofs.Query.RoundTrip

/-!
# Well-formed queries

Every query that is read is well-formed throughout. Combinations have several children and none with
their own operator, and texts, keys and values consist of identifiers.

## Main definitions

* `Text.SingleSpaced` — white space is nothing but single spaces between other characters.
* `Query.subqueries` — a query and all queries in it.
* `Query.WellFormed` — the shape of one node of a query.

Main statement: `Query.wellFormed_of_parse`.
-/

namespace SearchQuery

namespace Text

variable {cs ds : List Char}

/-! ## White space in texts -/

/-- White space is nothing but single spaces between other characters. -/
structure SingleSpaced (cs : List Char) : Prop where
  space : ∀ x ∈ cs, isBlank x ∨ isWhiteSpace x → x = ' '
  leading : cs.head? ≠ some ' '
  trailing : cs.getLast? ≠ some ' '
  doubled : cs.IsChain fun x y => x ≠ ' ' ∨ y ≠ ' '

/-- White space of no script is alphabetic. -/
theorem covers_alphabetic_of_whiteSpace : ∀ r ∈ whiteSpaceRanges, ∀ k < r.last + 1 - r.first,
    CodeRange.covers alphabeticRanges (r.first + k) = false := by
  decide +kernel

theorem ascending_whiteSpaceRanges : CodeRange.Ascending whiteSpaceRanges := by
  unfold CodeRange.Ascending
  decide

/-- White space ends an identifier. -/
theorem not_isWhiteSpace_of_isNameChar {x : Char} (h : isNameChar x) : isWhiteSpace x = false := by
  by_contra hwhite
  have hcovers : CodeRange.covers whiteSpaceRanges x.toNat := eq_true_of_ne_false hwhite
  obtain ⟨r, hr, hfirst, hlast⟩ := (CodeRange.covers_iff ascending_whiteSpaceRanges).1 hcovers
  have hletter := covers_alphabetic_of_whiteSpace r hr (x.toNat - r.first) (by omega)
  rw [Nat.add_sub_cancel' hfirst] at hletter
  have hfar : x.toNat ≤ 0x20 ∨ 0x85 ≤ x.toNat := by
    have hends : ∀ r ∈ whiteSpaceRanges, r.last ≤ 0x20 ∨ 0x85 ≤ r.first := by decide
    exact (hends r hr).imp hlast.trans hfirst.trans'
  have hbounds := bounds_of_isNameChar h hletter
  omega

theorem eq_space_of_isNameChar {x : Char} (h : isNameChar x) (hx : isBlank x ∨ isWhiteSpace x) :
    x = ' ' := by
  simp [not_isBlank_of_isNameChar h, not_isWhiteSpace_of_isNameChar h] at hx

theorem ne_space_of_isNameChar {x : Char} (h : isNameChar x) : x ≠ ' ' := by
  rintro rfl
  exact absurd h (by decide)

theorem IsIdentifier.ne_nil (h : IsIdentifier cs) : cs ≠ [] := by
  obtain ⟨x, xs, rfl, -⟩ := h
  simp

theorem IsIdentifier.singleSpaced (h : IsIdentifier cs) : SingleSpaced cs := by
  have hne : ∀ x ∈ cs, x ≠ ' ' := fun x hx => ne_space_of_isNameChar (h.isNameChar_of_mem hx)
  constructor
  · exact fun x hx => eq_space_of_isNameChar (h.isNameChar_of_mem hx)
  · exact fun hhead => hne _ (List.mem_of_mem_head? hhead) rfl
  · exact fun hlast => hne _ (List.mem_of_mem_getLast? hlast) rfl
  · exact (List.pairwise_of_forall_mem_list fun x hx _ _ => .inl (hne x hx)).isChain

/-- A single space may stand between two such texts. -/
theorem SingleSpaced.append (hcs : SingleSpaced cs) (hds : SingleSpaced ds) (hne : cs ≠ [])
    (hne' : ds ≠ []) : SingleSpaced (cs ++ ' ' :: ds) := by
  constructor
  · intro x hx hwhite
    simp only [List.mem_append, List.mem_cons] at hx
    rcases hx with hx | rfl | hx
    · exact hcs.space x hx hwhite
    · rfl
    · exact hds.space x hx hwhite
  · rw [List.head?_append_of_ne_nil _ hne]
    exact hcs.leading
  · rw [List.append_cons, List.getLast?_append_of_ne_nil _ hne']
    exact hds.trailing
  · refine hcs.doubled.append (hds.doubled.cons fun y hy => .inr ?_) fun x hx _ _ => .inl ?_
    · rintro rfl
      exact hds.leading hy
    · rintro rfl
      exact hcs.trailing hx

theorem IsPhrase.ne_nil (h : IsPhrase cs) : cs ≠ [] := by
  obtain ⟨words, hne, hwords, rfl⟩ := h
  cases words with
  | nil => contradiction
  | cons word words =>
    have := (hwords word List.mem_cons_self).ne_nil
    cases words <;> simp [this]

theorem IsPhrase.singleSpaced (h : IsPhrase cs) : SingleSpaced cs := by
  obtain ⟨words, hne, hwords, rfl⟩ := h
  induction words with
  | nil => contradiction
  | cons word words ih =>
    have hword := hwords word List.mem_cons_self
    by_cases hnil : words = []
    · subst hnil
      simpa using hword.singleSpaced
    · have hothers : ∀ w ∈ words, IsIdentifier w :=
        fun w hw => hwords w (List.mem_cons_of_mem word hw)
      rw [List.intercalate_cons_of_ne_nil hnil, List.append_assoc]
      exact hword.singleSpaced.append (ih hnil hothers) hword.ne_nil
        (IsPhrase.ne_nil ⟨words, hnil, hothers, rfl⟩)

end Text

namespace Query

open Text

def subqueries : Query → List Query
  | logic operator children => logic operator children :: children.flatMap subqueries
  | q => [q]

/-- The shape of one node of a query: a text of identifiers with single spaces between them, a
filter of an identifier and a value, or a combination of several queries, none of which has the same
operator. -/
def WellFormed : Query → Prop
  | text value => IsPhrase value.toList ∧ SingleSpaced value.toList
  | keyword key value => IsIdentifier key.toList ∧ IsValue value.toList
  | logic operator children =>
    2 ≤ children.length ∧ ∀ child ∈ children, child.operator? ≠ some operator

/-- A canonical query is well-formed at its root. -/
theorem Canonical.wellFormed {q : Query} (h : q.Canonical) : q.WellFormed := by
  obtain ⟨hproper, hnormal⟩ := h
  cases hproper with
  | text h => exact ⟨h, h.singleSpaced⟩
  | keyword hkey hvalue => exact ⟨hkey, hvalue⟩
  | logic _ _ =>
    cases hnormal with
    | logic hlen hop _ => exact ⟨hlen, hop⟩

/-- A canonical query is canonical throughout. -/
theorem Canonical.of_mem_subqueries {q n : Query} (h : q.Canonical) (hn : n ∈ q.subqueries) :
    n.Canonical := by
  induction q with
  | text value | keyword key value =>
    rw [subqueries, List.mem_singleton] at hn
    · exact hn ▸ h
    · simp
  | logic p children ih =>
    rw [subqueries, List.mem_cons, List.mem_flatMap] at hn
    rcases hn with rfl | ⟨child, hchild, hn⟩
    · exact h
    · refine ih child hchild ?_ hn
      obtain ⟨hproper, hnormal⟩ := h
      cases hproper with
      | logic _ hproper =>
        cases hnormal with
        | logic _ _ hnormal => exact ⟨hproper child hchild, hnormal child hchild⟩

/-- Every query that is read is well-formed throughout. -/
theorem wellFormed_of_parse {s : String} {q : Query} (h : parse s = .ok q) :
    ∀ n ∈ q.subqueries, n.WellFormed :=
  fun _ hn => ((canonical_of_parse h).of_mem_subqueries hn).wellFormed

/-- A filter with a tab in its value, beside other operands in parentheses. -/
theorem wellFormed_of_parse_filter :
    let q := logic .and [logic .or [text "a", keyword "k" "v w"], text "c d"]
    parse "(a OR k:\"v\tw\")c d" = .ok q ∧ ∀ n ∈ q.subqueries, n.WellFormed := by
  intro q
  have h : parse "(a OR k:\"v\tw\")c d" = .ok q := by decide +kernel
  exact ⟨h, wellFormed_of_parse h⟩

end Query

end SearchQuery
