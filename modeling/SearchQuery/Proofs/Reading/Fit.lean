import SearchQuery.Proofs.Reading.Completion

/-!
# What can stand where

Each item of the grammar has its places: behind the text before such a place the item can stand, and
the whole can still be completed. Wherever an item can stand, an identifier can stand as well.

## Main definitions

* `Expected.Heads` — a text begins with an item.
* `Expected.forms` — texts that can stand where an item was looked for.
* `Expected.Fits` — all forms of an item can stand behind a text.
-/

namespace SearchQuery

open Text Text.Completable

def Expected.Heads (cs : List Char) : Expected → Prop
  | .literal s => s.toList <+: cs
  | .described _ => ∃ x ∈ cs.head?, isLetter x
  | .endOfInput => cs = []

/-- Texts that can stand where an item was looked for: the item itself if it is a fixed text, and
always an identifier. -/
def Expected.forms : Expected → List String
  | .literal s => if s = ":\"" then [s, ":b", "b"] else [s, "b"]
  | _ => ["b"]

/-- Behind `front` and blanks, all forms of an expected item can stand. -/
def Expected.Fits (e : Expected) (front : List Char) : Prop :=
  ∀ gap, gap ≠ [] → Blanks gap → ∀ form ∈ e.forms,
    Completable (front ++ (gap ++ form.toList))

theorem Expected.Fits.behind {e : Expected} {front gap : List Char} (h : e.Fits front)
    (hgap : Blanks gap) {form : String} (hform : form ∈ e.forms) :
    Completable (front ++ (gap ++ ' ' :: form.toList)) := by
  have hspace : Blanks (gap ++ [' ']) := by
    intro x hx
    rcases List.mem_append.1 hx with hx | hx
    · exact hgap x hx
    · rw [List.mem_singleton.1 hx]
      decide
  simpa using h (gap ++ [' ']) (by simp) hspace form hform

/-! ## What fits where -/

namespace Expected

theorem fits_described {front : List Char}
    (h : ∀ gap, gap ≠ [] → Blanks gap → Completable (front ++ (gap ++ ['b']))) :
    (described identDescription).Fits front := by
  intro gap hne hgap form hform
  rw [List.mem_singleton.1 hform]
  exact h gap hne hgap

theorem fits_literal {front : List Char} {s : String} (hs : s ≠ ":\"")
    (h : ∀ gap, gap ≠ [] → Blanks gap → Completable (front ++ (gap ++ s.toList)))
    (hb : (described identDescription).Fits front) : (literal s).Fits front := by
  intro gap hne hgap form hform
  rw [forms, if_neg hs, List.mem_cons] at hform
  rcases hform with rfl | hform
  · exact h gap hne hgap
  · exact hb gap hne hgap form hform

theorem fits_endOfInput {front : List Char} (h : (described identDescription).Fits front) :
    endOfInput.Fits front :=
  h

/-! ### In expressions -/

theorem isLetter_b : isLetter 'b' := by decide

theorem all_isNameChar_nil : ([] : List Char).all isNameChar := rfl

theorem completable_word : Completable ['b'] := .word isLetter_b all_isNameChar_nil

theorem fits_operand : (described identDescription).Fits [] :=
  fits_described fun gap _ hgap => by
    rw [List.nil_append]
    exact completable_word.blanks hgap

theorem fits_open_paren : (literal "(").Fits [] := by
  refine fits_literal (by decide) (fun gap _ hgap => ?_) fits_operand
  have : Completable ['('] := completable_word.paren.of_append ['b']
  rw [List.nil_append]
  exact this.blanks hgap

theorem fits_open_quote : (literal "\"").Fits [] := by
  refine fits_literal (by decide) (fun gap _ hgap => ?_) fits_operand
  have : Completable ['"'] := completable_word.quote.of_append ['b']
  rw [List.nil_append]
  exact this.blanks hgap

theorem fits_operator {op : String} (hop : op = "AND" ∨ op = "OR") : (literal op).Fits [] := by
  refine fits_literal (by rcases hop with rfl | rfl <;> decide) (fun gap _ hgap => ?_)
    fits_operand
  have : Completable op.toList := (completable_word.operator hop).of_append ['b']
  rw [List.nil_append]
  exact this.blanks hgap

/-- An operand can follow a run. -/
theorem fits_after_run {us es : List Char} (h : Run us es) :
    (described identDescription).Fits us :=
  fits_described fun _ hne hgap =>
    h.completable (by simp) (replaces_of_blanks hne hgap) (completable_word.blanks hgap)

theorem fits_close_paren {us es : List Char} (h : Run us es) (hus : us ≠ []) :
    (literal ")").Fits ('(' :: us) := by
  refine fits_literal (by decide) (fun gap hne hgap => ?_) (fits_described fun gap hne hgap => ?_)
  · have : Reads afterOperand Closing ('(' :: (us ++ (gap ++ [')']))) :=
      fun ks _ => h.afterOperand_parens hus hgap (replaces_of_blanks hne hgap)
    exact .of_reads this
  · have := fits_after_run h gap hne hgap "b" List.mem_cons_self
    exact this.paren

theorem fits_close_quote {us es : List Char} (h : Run us es) :
    (literal "\"").Fits ('"' :: us) := by
  refine fits_literal (by decide) (fun gap hne hgap => ?_) (fits_described fun gap hne hgap => ?_)
  · have hquote : Completable ['"'] := completable_word.quote.of_append ['b']
    exact (h.completable (by simp) (replaces_of_blanks hne hgap) (hquote.blanks hgap)).quote
  · have := fits_after_run h gap hne hgap "b" List.mem_cons_self
    exact this.quote

/-! ### In filters -/

variable {x y : Char} {name word gap gap' gap'' words : List Char}

theorem completable_quoted (hx : isLetter x) (hname : name.all isNameChar)
    (hgap : Blanks gap) (hgap' : Blanks gap') (hgap'' : Blanks gap'')
    (hy : isLetter y) (hwords : Words (y :: words)) :
    Completable (x :: name ++
      (gap ++ ':' :: '"' :: (gap' ++ y :: (words ++ (gap'' ++ ['"']))))) := by
  refine .filter hx hname [] (.of_blanks hgap (.cons (by decide) _)) (by simp) ?_
  intro ks _
  simpa using afterKey_quoted hgap hgap' hgap'' hy hwords ks

theorem completable_simple (hx : isLetter x) (hname : name.all isNameChar)
    (hgap : Blanks gap) (hgap' : Blanks gap')
    (hy : isLetter y) (hword : word.all isNameChar) :
    Completable (x :: name ++ (gap ++ ':' :: (gap' ++ y :: word))) := by
  refine .filter hx hname [] (.of_blanks hgap (.cons (by decide) _)) (by simp) ?_
  intro ks hks
  simpa using afterKey_simple hgap hgap' hy hword hks.endsName

theorem fits_after_key (hx : isLetter x) (hname : name.all isNameChar) :
    (described identDescription).Fits (x :: name) := by
  refine fits_described fun gap hne hgap => ?_
  refine (completable_word.blanks hgap).operand (fun rest hrest hcolon => ?_) (by simp)
  refine afterOperand_word hx hname (EndsName.dropWhile_eq ?_) hcolon
  cases gap with
  | nil => contradiction
  | cons y gap =>
    intro z hz
    rw [hrest] at hz
    obtain rfl := Option.some.inj hz
    exact not_isNameChar_of_isBlank (hgap y List.mem_cons_self)

theorem fits_colon (hx : isLetter x) (hname : name.all isNameChar) :
    (literal ":").Fits (x :: name) := by
  refine fits_literal (by decide) (fun gap _ hgap => ?_) (fits_after_key hx hname)
  have := completable_simple hx hname hgap blanks_nil isLetter_b all_isNameChar_nil
  exact of_append ['b'] (by simpa using this)

theorem fits_colon_quote (hx : isLetter x) (hname : name.all isNameChar) :
    (literal ":\"").Fits (x :: name) := by
  intro gap hne hgap form hform
  rw [forms, if_pos rfl] at hform
  simp only [List.mem_cons, List.not_mem_nil, or_false] at hform
  rcases hform with rfl | rfl | rfl
  · have := completable_quoted hx hname hgap blanks_nil blanks_nil isLetter_b
      (words_name isLetter_b all_isNameChar_nil)
    exact of_append ['b', '"'] (by simpa using this)
  · simpa using completable_simple hx hname hgap blanks_nil isLetter_b all_isNameChar_nil
  · exact fits_after_key hx hname gap hne hgap "b" List.mem_cons_self

theorem fits_simple_value (hx : isLetter x) (hname : name.all isNameChar)
    (hgap : Blanks gap) :
    (described identDescription).Fits (x :: name ++ (gap ++ [':'])) := by
  refine fits_described fun gap' _ hgap' => ?_
  simpa using completable_simple hx hname hgap hgap' isLetter_b all_isNameChar_nil

theorem fits_quoted_value (hx : isLetter x) (hname : name.all isNameChar)
    (hgap : Blanks gap) :
    (described identDescription).Fits (x :: name ++ (gap ++ [':', '"'])) := by
  refine fits_described fun gap' _ hgap' => ?_
  have := completable_quoted hx hname hgap hgap' blanks_nil isLetter_b
    (words_name isLetter_b all_isNameChar_nil)
  exact of_append ['"'] (by simpa using this)

theorem fits_further_value (hx : isLetter x) (hname : name.all isNameChar)
    (hgap : Blanks gap) (hgap' : Blanks gap')
    (hy : isLetter y) (hwords : Words (y :: words)) :
    (described identDescription).Fits
      (x :: name ++ (gap ++ [':', '"']) ++ (gap' ++ y :: words)) := by
  refine fits_described fun gap'' hne hgap'' => ?_
  have := completable_quoted hx hname hgap hgap' blanks_nil hy
    (hwords.snoc hne hgap'' isLetter_b all_isNameChar_nil)
  exact of_append ['"'] (by simpa using this)

theorem fits_close_value (hx : isLetter x) (hname : name.all isNameChar)
    (hgap : Blanks gap) (hgap' : Blanks gap')
    (hy : isLetter y) (hwords : Words (y :: words)) :
    (literal "\"").Fits (x :: name ++ (gap ++ [':', '"']) ++ (gap' ++ y :: words)) := by
  refine fits_literal (by decide) (fun gap'' _ hgap'' => ?_)
    (fits_further_value hx hname hgap hgap' hy hwords)
  simpa using completable_quoted hx hname hgap hgap' hgap'' hy hwords

end Expected

end SearchQuery
