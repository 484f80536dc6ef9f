import SearchQuery.Proofs.Reading.Run

/-!
# Texts that can be completed

A text can be completed if something can be added so that the whole is an expression, whatever
parentheses and quotes are closed behind it. All ways to go on from the beginning of an expression
keep this property of what follows. A quoted operand is no exception, though a quote behind it may
turn its closing quote into an opening one, because then one more quote is added.

## Main definitions

* `Text.Closing` — what can stand behind an expression that ends there.
* `Text.Completable` — the beginning of an expression.
-/

namespace SearchQuery.Text

variable {cs ds us es ks : List Char} {x : Char}

/-- Quotes, and then the end of the text or a closing parenthesis. -/
inductive Closing : List Char → Prop where
  | nil : Closing []
  | paren (cs : List Char) : Closing (')' :: cs)
  | quote {cs : List Char} (h : Closing cs) : Closing ('"' :: cs)

/-- Something can be added to `cs` so that it is an expression before every closing text. -/
def Completable (cs : List Char) : Prop := ∃ ds, Reads afterExp Closing (cs ++ ds)

/-! ## Closing texts -/

namespace Closing

/-- No expression begins with a closing text. -/
theorem afterExp_eq_none (h : Closing ks) : afterExp ks = none := by
  induction h with
  | nil =>
    rw [afterExp_eq, afterBlanks_nil, afterOperand_nil]
    rfl
  | paren cs =>
    rw [afterExp_eq, afterBlanks_cons_of_not_isBlank (by decide),
      afterOperand_of_not_opens (by decide)]
    rfl
  | quote h ih =>
    rw [afterExp_eq, afterBlanks_cons_of_not_isBlank (by decide), afterOperand_quote, ih]
    rfl

theorem endsName (h : Closing ks) : EndsName ks := by
  cases h with
  | nil => exact nofun
  | paren cs => exact .cons (by decide) cs
  | quote _ => exact .cons (by decide) _

theorem head_ne_colon (h : Closing ks) : (afterBlanks ks).head? ≠ some ':' := by
  cases h with
  | nil => exact nofun
  | paren cs =>
    rw [afterBlanks_cons_of_not_isBlank (by decide)]
    exact nofun
  | quote _ =>
    rw [afterBlanks_cons_of_not_isBlank (by decide)]
    exact nofun

end Closing

/-! ## Ways to go on -/

namespace Completable

/-- A part of a completable text from its beginning is completable. -/
theorem of_append (ds : List Char) (h : Completable (cs ++ ds)) : Completable cs := by
  obtain ⟨es, hes⟩ := h
  exact ⟨ds ++ es, by rwa [← List.append_assoc]⟩

theorem blanks {gap : List Char} (hgap : Blanks gap) (h : Completable cs) :
    Completable (gap ++ cs) := by
  obtain ⟨ds, hds⟩ := h
  refine ⟨ds, fun ks hks => ?_⟩
  rw [List.append_assoc, List.append_assoc, afterExp_blanks_append hgap, ← List.append_assoc,
    hds ks hks]

/-- With no operand before it, an operator is a word. -/
theorem operator {op : String} (hop : op = "AND" ∨ op = "OR") (h : Completable cs) :
    Completable (op.toList ++ cs) := by
  obtain ⟨ds, hds⟩ := h
  refine ⟨ds, fun ks hks => ?_⟩
  rw [List.append_assoc, List.append_assoc, ← List.append_assoc cs]
  exact afterExp_operator hop (hds ks hks)

/-- An operand before what follows. -/
theorem operand (hread : ∀ rest, rest.head? = cs.head? → (afterBlanks rest).head? ≠ some ':' →
    afterOperand (us ++ rest) = some rest) (hcs : cs ≠ []) (h : Completable cs) :
    Completable (us ++ cs) := by
  obtain ⟨ds, hds⟩ := h
  refine ⟨ds, fun ks hks => ?_⟩
  have hrest := hds ks hks
  have hus : afterOperand (us ++ (cs ++ ds ++ ks)) = some (cs ++ ds ++ ks) := by
    refine hread _ ?_ (head_ne_colon_of_afterExp hrest)
    cases cs with
    | nil => contradiction
    | cons x cs => rfl
  rw [List.append_assoc, List.append_assoc, ← List.append_assoc cs, afterExp_of_afterOperand hus,
    hrest]
  rfl

/-- An operand before a closing text. -/
theorem of_reads (h : Reads afterOperand Closing us) : Completable us := by
  refine ⟨[], fun ks hks => ?_⟩
  rw [List.append_nil, afterExp_of_afterOperand (h ks hks), hks.afterExp_eq_none]
  rfl

theorem paren (h : Completable cs) : Completable ('(' :: cs) := by
  obtain ⟨ds, hds⟩ := h
  refine of_append (ds ++ [')']) (of_reads fun ks hks => ?_)
  have hnone : Blanks [] := nofun
  have := afterOperand_parens hnone (hds (')' :: ks) (.paren ks))
  simpa using this

theorem quote (h : Completable cs) : Completable ('"' :: cs) := by
  obtain ⟨ds, hds⟩ := h
  refine of_append (ds ++ ['"']) (of_reads fun ks hks => ?_)
  have hnone : Blanks [] := nofun
  have := afterOperand_quotes hnone (hds ('"' :: ks) (.quote hks))
  simpa using this

theorem word {name : List Char} (hx : isLetter x) (hname : name.all isNameChar) :
    Completable (x :: name) :=
  of_reads fun _ hks =>
    afterOperand_word hx hname hks.endsName.dropWhile_eq hks.head_ne_colon

/-- A filter, of which the key and the beginning of the value are given. -/
theorem filter {name : List Char} (hx : isLetter x) (hname : name.all isNameChar)
    (ds : List Char) (hcs : EndsName cs) (hne : cs ≠ []) (h : Reads afterKey Closing (cs ++ ds)) :
    Completable (x :: name ++ cs) := by
  refine of_append ds (of_reads fun ks hks => ?_)
  have hends : EndsName (cs ++ ds ++ ks) := by
    cases cs with
    | nil => contradiction
    | cons y cs => exact .cons (hcs y rfl) _
  rw [List.append_assoc, List.append_assoc, ← List.append_assoc cs, List.cons_append,
    afterOperand_letter hx, List.dropWhile_append_of_pos (List.all_eq_true.1 hname),
    hends.dropWhile_eq, h ks hks]
  rfl

end Completable

/-! ## Behind a run -/

/-- A run before what follows. -/
theorem Run.completable (h : Run us es) (hcs : cs ≠ []) (hes : Replaces cs es)
    (h' : Completable cs) : Completable (us ++ cs) := by
  induction h generalizing cs with
  | stop => exact h'
  | @blank us es x hx _ _ ih =>
    have hgap : Blanks [x] := List.forall_mem_singleton.2 hx
    have := (ih hcs hes h').blanks hgap
    simpa using this
  | @word word vs es hword hread _ ih =>
    rw [List.append_assoc]
    refine (ih hcs hes h').operand (fun rest hrest hcolon => hread rest ⟨?_, hcolon⟩) ?_
    swap
    · simp [hcs]
    intro y hy hname
    rw [hrest] at hy
    cases vs with
    | nil => exact hes y hy hname
    | cons z vs => exact hy
  | @paren us gap vs es hgap hus hin _ _ ih =>
    have hread (rest : List Char) :
        afterOperand ('(' :: (us ++ (gap ++ [')'])) ++ rest) = some rest :=
      hin.afterOperand_parens hus hgap (.of_head (by cases gap <;> rfl))
    have := (ih hcs hes h').operand (fun rest _ _ => hread rest) (by simp [hcs])
    simpa using this
  | @quote us gap vs es hgap _ _ _ _ ihin ih =>
    have hrest := ((ih hcs hes h').quote).blanks hgap
    have := (ihin (by simp) (.of_head (by cases gap <;> rfl)) hrest).quote
    simpa using this

end SearchQuery.Text
