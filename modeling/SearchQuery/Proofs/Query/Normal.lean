import SearchQuery.Proofs.Reading.Word
import SearchQuery.Query.Flatten

/-!
# Normal queries

A query can be written down if its texts consist of identifiers and no combination is empty. In
normal form, every combination has several children, none of which is a combination by the same
operator.

## Main definitions

* `Text.IsPhrase`, `Text.IsValue` — what texts and values consist of.
* `Text.Spells` — what stands between quotes for a value.
* `Query.Proper` — a query that can be written down.
* `Query.merge`, `Query.normalize` — queries under an operator, and the normal form of a query.
* `Query.Normal` — a query in normal form.
-/

namespace SearchQuery

namespace Text

def IsPhrase (cs : List Char) : Prop :=
  ∃ words, words ≠ [] ∧ (∀ word ∈ words, IsIdentifier word) ∧ cs = [' '].intercalate words

/-- Identifiers with blanks between them. -/
inductive IsSpaced : List Char → Prop where
  | word {cs : List Char} (h : IsIdentifier cs) : IsSpaced cs
  | snoc {cs gap word : List Char} (h : IsSpaced cs) (hne : gap ≠ []) (hgap : Blanks gap)
    (hword : IsIdentifier word) : IsSpaced (cs ++ (gap ++ word))

/-- Identifiers with blanks between them, with a single space before the last. -/
inductive IsValue : List Char → Prop where
  | word {cs : List Char} (h : IsIdentifier cs) : IsValue cs
  | snoc {cs word : List Char} (h : IsSpaced cs) (hword : IsIdentifier word) :
    IsValue (cs ++ ' ' :: word)

/-- What stands between quotes, and the value that it spells: the blanks before the last identifier
count as a single space. -/
inductive Spells : (raw value : List Char) → Prop where
  | word {cs : List Char} (h : IsIdentifier cs) : Spells cs cs
  | snoc {cs gap word : List Char} (h : IsSpaced cs) (hne : gap ≠ []) (hgap : Blanks gap)
    (hword : IsIdentifier word) : Spells (cs ++ (gap ++ word)) (cs ++ ' ' :: word)

theorem IsSpaced.exists_letter {cs : List Char} (h : IsSpaced cs) :
    ∃ x xs, cs = x :: xs ∧ isLetter x := by
  induction h with
  | word h =>
    obtain ⟨x, xs, rfl, hx, -⟩ := h
    exact ⟨x, xs, rfl, hx⟩
  | snoc _ _ _ _ ih =>
    obtain ⟨x, xs, rfl, hx⟩ := ih
    exact ⟨x, _, rfl, hx⟩

theorem Spells.exists_letter {raw value : List Char} (h : Spells raw value) :
    ∃ x xs, raw = x :: xs ∧ isLetter x := by
  cases h with
  | word h => exact (IsSpaced.word h).exists_letter
  | snoc h _ _ _ =>
    obtain ⟨x, xs, rfl, hx⟩ := h.exists_letter
    exact ⟨x, _, rfl, hx⟩

theorem Spells.isValue {raw value : List Char} (h : Spells raw value) : IsValue value := by
  cases h with
  | word h => exact .word h
  | snoc h _ _ hword => exact .snoc h hword

/-- Whatever stands between the quotes of a filter spells a value. -/
theorem IsSpaced.exists_spells {raw : List Char} (h : IsSpaced raw) :
    ∃ value, Spells raw value := by
  cases h with
  | word h => exact ⟨_, .word h⟩
  | snoc h hne hgap hword => exact ⟨_, .snoc h hne hgap hword⟩

/-- A value spells itself. -/
theorem IsValue.spells {cs : List Char} (h : IsValue cs) : Spells cs cs := by
  cases h with
  | word h => exact .word h
  | snoc h hword => exact .snoc h (by simp) blanks_space hword

end Text

namespace Query

open Text

/-- The texts and values of the query consist of identifiers, and no combination is empty. -/
inductive Proper : Query → Prop where
  | text {value : String} (h : IsPhrase value.toList) : Proper (text value)
  | keyword {key value : String} (hkey : IsIdentifier key.toList)
    (hvalue : IsValue value.toList) : Proper (keyword key value)
  | logic {operator : Connective} {children : List Query} (hne : children ≠ [])
    (h : ∀ child ∈ children, Proper child) : Proper (logic operator children)

/-- Queries under an operator. One query stays as it is, and several become a combination, which
takes in the children of those that have the same operator. -/
def merge (operator : Connective) : List Query → Query
  | [only] => only
  | children => flatten (logic operator children)

def normalize : Query → Query
  | logic operator children => merge operator (children.map normalize)
  | q => q

@[simp] theorem normalize_text (value : String) : normalize (text value) = text value := by
  rw [normalize]
  simp

@[simp] theorem normalize_keyword (key value : String) :
    normalize (keyword key value) = keyword key value := by
  rw [normalize]
  simp

@[simp] theorem normalize_logic (operator : Connective) (children : List Query) :
    normalize (logic operator children) = merge operator (children.map normalize) := by
  rw [normalize]

/-- Every combination has several children and none with its own operator. -/
inductive Normal : Query → Prop where
  | text (value : String) : Normal (text value)
  | keyword (key value : String) : Normal (keyword key value)
  | logic {operator : Connective} {children : List Query} (hlen : 2 ≤ children.length)
    (hop : ∀ child ∈ children, child.operator? ≠ some operator)
    (h : ∀ child ∈ children, Normal child) : Normal (logic operator children)

/-! ## Children of a combination -/

variable {p : Connective} {q left right : Query} {children : List Query}

theorem operandsOf_of_ne (h : q.operator? ≠ some p) : operandsOf p q = [q] := by
  cases q with
  | text value => rfl
  | keyword key value => rfl
  | logic operator children => exact operandsOf_logic_of_ne (fun heq => h (congrArg some heq)) _

theorem flatMap_operandsOf (h : ∀ child ∈ children, child.operator? ≠ some p) :
    children.flatMap (operandsOf p) = children := by
  induction children with
  | nil => rfl
  | cons child children ih =>
    have hrest := ih fun c hc => h c (List.mem_cons_of_mem child hc)
    rw [List.flatMap_cons, operandsOf_of_ne (h child List.mem_cons_self), hrest]
    rfl

/-- A child contributes itself or, if it has the operator of its parent, its own children. -/
theorem operandsOf_cases (p : Connective) (q : Query) :
    (q.operator? ≠ some p ∧ operandsOf p q = [q]) ∨
      ∃ children, q = logic p children ∧ operandsOf p q = children := by
  by_cases h : q.operator? = some p
  · cases q with
    | text value => simp [operator?] at h
    | keyword key value => simp [operator?] at h
    | logic operator children =>
      obtain rfl := Option.some.inj h
      exact .inr ⟨children, rfl, operandsOf_logic_self _ _⟩
  · exact .inl ⟨h, operandsOf_of_ne h⟩

theorem merge_of_two_le (h : 2 ≤ children.length) :
    merge p children = flatten (logic p children) := by
  match children, h with
  | _ :: _ :: _, _ => rfl

/-- Merged queries contribute what each of them contributes. -/
theorem operandsOf_merge (h : children ≠ []) :
    operandsOf p (merge p children) = children.flatMap (operandsOf p) := by
  match children, h with
  | [only], _ => simp [merge]
  | a :: b :: rest, _ => exact operandsOf_logic_self p _

/-- Merging goes through a list from its end. -/
theorem merge_cons (h : children ≠ []) :
    merge p (q :: children) = flatten (logic p [q, merge p children]) := by
  have hlen : 2 ≤ (q :: children).length := by
    have := List.length_pos_iff.2 h
    simp
    omega
  rw [merge_of_two_le hlen]
  simp only [flatten, List.flatMap_cons, List.flatMap_nil, List.append_nil, operandsOf_merge h]

/-! ## Normal forms -/

/-- A query in normal form is its own normal form. -/
theorem normalize_of_normal (h : q.Normal) : q.normalize = q := by
  induction h with
  | text value => exact normalize_text value
  | keyword key value => exact normalize_keyword key value
  | @logic operator children hlen hop h ih =>
    have hmap : children.map normalize = children := by
      conv_rhs => rw [← List.map_id children]
      exact List.map_congr_left ih
    rw [normalize_logic, hmap, merge_of_two_le hlen]
    exact congrArg (logic operator) (flatMap_operandsOf hop)

theorem Normal.operandsOf (h : q.Normal) (p : Connective) : operandsOf p q ≠ [] ∧
    ∀ child ∈ operandsOf p q, child.operator? ≠ some p ∧ child.Normal := by
  rcases operandsOf_cases p q with ⟨hop, heq⟩ | ⟨children, rfl, heq⟩
  · rw [heq]
    exact ⟨by simp, fun child hchild => List.mem_singleton.1 hchild ▸ ⟨hop, h⟩⟩
  · rw [heq]
    cases h with
    | logic hlen hop h =>
      refine ⟨?_, fun child hchild => ⟨hop child hchild, h child hchild⟩⟩
      rintro rfl
      simp at hlen

/-- Two operands are combined to a normal form. -/
theorem Normal.flatten (hleft : left.Normal) (hright : right.Normal) (p : Connective) :
    (flatten (.logic p [left, right])).Normal := by
  obtain ⟨hne, hl⟩ := hleft.operandsOf p
  obtain ⟨hne', hr⟩ := hright.operandsOf p
  have hchildren : ∀ child ∈ [left, right].flatMap (Query.operandsOf p),
      child.operator? ≠ some p ∧ child.Normal := by
    intro child hchild
    simp only [List.flatMap_cons, List.flatMap_nil, List.append_nil, List.mem_append] at hchild
    exact hchild.elim (hl child) (hr child)
  refine .logic ?_ (fun c hc => (hchildren c hc).1) fun c hc => (hchildren c hc).2
  have := List.length_pos_iff.2 hne
  have := List.length_pos_iff.2 hne'
  simp only [List.flatMap_cons, List.flatMap_nil, List.append_nil, List.length_append]
  omega

/-! ## Queries that can be written down -/

theorem Proper.operandsOf (h : q.Proper) (p : Connective) : operandsOf p q ≠ [] ∧
    ∀ child ∈ operandsOf p q, child.Proper := by
  rcases operandsOf_cases p q with ⟨-, heq⟩ | ⟨children, rfl, heq⟩
  · rw [heq]
    exact ⟨by simp, fun child hchild => List.mem_singleton.1 hchild ▸ h⟩
  · rw [heq]
    cases h with
    | logic hne h => exact ⟨hne, h⟩

theorem Proper.flatten (hleft : left.Proper) (hright : right.Proper) (p : Connective) :
    (flatten (.logic p [left, right])).Proper := by
  obtain ⟨hne, hl⟩ := hleft.operandsOf p
  obtain ⟨-, hr⟩ := hright.operandsOf p
  refine .logic (by simp [hne]) fun child hchild => ?_
  simp only [List.flatMap_cons, List.flatMap_nil, List.append_nil, List.mem_append] at hchild
  exact hchild.elim (hl child) (hr child)

end Query

end SearchQuery
