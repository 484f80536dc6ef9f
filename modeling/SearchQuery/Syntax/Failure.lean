import SearchQuery.Text.Cursor
import SearchQuery.Text.Quoted

/-!
# Failed items

Whenever an item of the grammar does not match, the place and the item are noted. Of all notes only
those at the furthest place matter for a message: there the query could not be read any further.

## Main definitions

* `Expected` — what was looked for.
* `Failure` — an item that failed at a place.
* `Report` — the furthest place of failure and what was looked for there.
-/

namespace SearchQuery

inductive Expected where
  /-- The fixed text `s`. -/
  | literal (s : String)
  /-- A kind of text, given by its description. -/
  | described (description : String)
  /-- The end of the query. -/
  | endOfInput
deriving DecidableEq, Repr

def Expected.describe : Expected → String
  | literal s => Text.quoted s
  | described description => description
  | endOfInput => "end of input"

/-- An item that did not match at a place. -/
structure Failure where
  place : Cursor
  expected : Expected
deriving DecidableEq

/-- The furthest place at which an item failed, and the items that failed there, each once and in
the order first seen. -/
structure Report where
  furthest : Cursor
  expected : List Expected
deriving DecidableEq

namespace Report

def start (c : Cursor) : Report := ⟨c, []⟩

/-- The report after one more failure: a further one replaces all others, an earlier one changes
nothing. -/
def note (r : Report) (f : Failure) : Report :=
  if r.furthest.offset < f.place.offset then ⟨f.place, [f.expected]⟩
  else if f.place.offset = r.furthest.offset ∧ f.expected ∉ r.expected then
    ⟨r.furthest, r.expected ++ [f.expected]⟩
  else r

/-- A failure before the furthest place changes nothing. -/
@[simp] theorem note_of_lt {r : Report} {f : Failure} (h : f.place.offset < r.furthest.offset) :
    r.note f = r := by
  grind [note]

end Report

end SearchQuery
