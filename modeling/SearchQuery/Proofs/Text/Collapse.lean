import SearchQuery.Proofs.Reading.Operand

/-!
# Runs of blanks as single spaces

Texts that differ only in which blanks stand between their words, and in how many, are the same once
every run of blanks has become a single space.

## Main definitions

* `Text.collapse` — a text with a single space for every run of blanks.

Main statements: `Text.collapse_append` joins two texts, and `Text.collapse_replace` says that one
run of blanks is as good as another.
-/

namespace SearchQuery.Text

/-- A character before a collapsed text. Blanks at the beginning of a run become one space. -/
def collapseCons (x : Char) (cs : List Char) : List Char :=
  if isBlank x then (if cs.head? = some ' ' then cs else ' ' :: cs) else x :: cs

def collapse (cs : List Char) : List Char := cs.foldr collapseCons []

example : collapse "a \t\nb".toList = "a b".toList := by decide

variable {x : Char} {as bs cs ds gap gap' : List Char}

@[simp] theorem collapse_nil : collapse [] = [] := rfl

@[simp] theorem collapse_cons (x : Char) (cs : List Char) :
    collapse (x :: cs) = collapseCons x (collapse cs) := rfl

theorem head?_collapseCons (hx : isBlank x) (cs : List Char) :
    (collapseCons x cs).head? = some ' ' := by
  rw [collapseCons, if_pos hx]
  split
  · assumption
  · rfl

/-- Further blanks before a space are lost. -/
theorem collapseCons_of_head? (hx : isBlank x) (hcs : cs.head? = some ' ') :
    collapseCons x cs = cs := by
  rw [collapseCons, if_pos hx, if_pos hcs]

/-- All blanks are treated alike. -/
theorem collapseCons_of_isBlank (hx : isBlank x) : collapseCons x cs = collapseCons ' ' cs := by
  rw [collapseCons, if_pos hx, collapseCons, if_pos isBlank_space]

/-! ## Texts behind one another -/

theorem collapse_append_right (as : List Char) (h : collapse bs = collapse cs) :
    collapse (as ++ bs) = collapse (as ++ cs) := by
  rw [collapse, List.foldr_append, collapse, List.foldr_append]
  exact congrArg (as.foldr collapseCons) h

/-- What stands in front may be collapsed before. -/
theorem collapse_collapse_append (as bs : List Char) :
    collapse (collapse as ++ bs) = collapse (as ++ bs) := by
  induction as with
  | nil => rfl
  | cons x as ih =>
    rw [collapse_cons, List.cons_append, collapse_cons, ← ih, collapseCons]
    split
    · next hx =>
      split
      · next hspace =>
        obtain ⟨front, hfront⟩ := List.head?_eq_some_iff.1 hspace
        refine (collapseCons_of_head? hx ?_).symm
        rw [hfront, List.cons_append, collapse_cons]
        exact head?_collapseCons isBlank_space _
      · exact (collapseCons_of_isBlank hx).symm
    · next hx => rw [List.cons_append, collapse_cons]

/-- Texts that collapse to the same can be replaced within a text. -/
theorem collapse_append (h : collapse as = collapse bs) (h' : collapse cs = collapse ds) :
    collapse (as ++ cs) = collapse (bs ++ ds) := by
  rw [← collapse_collapse_append, h, collapse_collapse_append]
  exact collapse_append_right bs h'

/-! ## Blanks for blanks -/

/-- Every run of blanks is as good as a single space. -/
theorem collapse_blanks (hgap : Blanks gap) (hne : gap ≠ []) (cs : List Char) :
    collapse (gap ++ cs) = collapseCons ' ' (collapse cs) := by
  induction gap with
  | nil => exact absurd rfl hne
  | cons x gap ih =>
    have hx := hgap x List.mem_cons_self
    rw [List.cons_append, collapse_cons]
    by_cases hnil : gap = []
    · rw [hnil, List.nil_append, collapseCons_of_isBlank hx]
    · rw [ih (fun y hy => hgap y (List.mem_cons_of_mem x hy)) hnil]
      exact collapseCons_of_head? hx (head?_collapseCons isBlank_space _)

theorem collapse_replace (hgap : Blanks gap) (hne : gap ≠ []) (hgap' : Blanks gap')
    (hne' : gap' ≠ []) (as bs : List Char) :
    collapse (as ++ (gap ++ bs)) = collapse (as ++ (gap' ++ bs)) := by
  refine collapse_append_right as ?_
  rw [collapse_blanks hgap hne, collapse_blanks hgap' hne']

end SearchQuery.Text
