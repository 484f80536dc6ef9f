/-!
# Lines of a text

A line ends at a line feed, and a carriage return right before it belongs to the line end. Lines
and columns are counted from 1, columns in characters.

## Main definitions

* `Text.lines` — the lines of a text without their ends.
* `Text.lineAfter`, `Text.columnAfter` — line and column of the place after some characters.
-/

namespace SearchQuery.Text

/-- A line without the carriage return at its end, if it has one. -/
def dropReturn (line : List Char) : List Char :=
  if line.getLast? = some '\r' then line.dropLast else line

/-- The lines of a text. There is no empty line after the last line end, and a carriage return
that no line feed follows is a character like others. -/
def lines (cs : List Char) : List (List Char) :=
  match cs.splitOn '\n' with
  | [] => []
  | part :: parts => go part parts
where
  /-- Every part but the last was followed by a line feed. -/
  go (part : List Char) : List (List Char) → List (List Char)
    | [] => if part.isEmpty then [] else [part]
    | next :: parts => dropReturn part :: go next parts

def lineAfter (before : List Char) : Nat := before.count '\n' + 1

def columnAfter (before : List Char) : Nat :=
  (before.reverse.takeWhile (· != '\n')).length + 1

@[simp] theorem lineAfter_nil : lineAfter [] = 1 := rfl

@[simp] theorem columnAfter_nil : columnAfter [] = 1 := rfl

/-- After a line feed the next line begins. -/
@[simp] theorem lineAfter_concat (cs : List Char) (c : Char) :
    lineAfter (cs ++ [c]) = if c = '\n' then lineAfter cs + 1 else lineAfter cs := by
  by_cases h : c = '\n' <;> simp [lineAfter, h]

@[simp] theorem columnAfter_concat (cs : List Char) (c : Char) :
    columnAfter (cs ++ [c]) = if c = '\n' then 1 else columnAfter cs + 1 := by
  by_cases h : c = '\n' <;> simp [columnAfter, h]

end SearchQuery.Text
