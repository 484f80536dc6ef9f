import SearchQuery.Syntax.Production
import Std.Data.TreeMap

/-!
# Recognition of a query

The recursion of the productions is closed in two ways. Reading afresh recomputes a `LogicalExp`
each time it is asked for, which is simple to reason about and may take exponential time; what it
keeps of the failures is left open. The economical recognizer remembers what was read at each place
and keeps only the report of the failures, and it is the one that reads queries.

A `LogicalExp` is only ever read at a later place than the one being read, so both recursions go by
the number of remaining characters.

## Main definitions

* `Recognizer.afresh` — the recognizer without a memory.
* `Exhaustive.recognize` — the tree of a text and the log of all failures.
* `Forgetful.recognize` — the tree of a text or the report of the failures, without a memory.
* `Economical.recognize` — the same with a memory.
-/

namespace SearchQuery

namespace Recognizer

variable {σ : Type} (note : Failure → σ → σ)

/-- Reads a `LogicalExp` that begins at `c`, whether or not that was done before. -/
def afreshAt (c : Cursor) : Attempt σ ParseTree :=
  logicalAlternatives
    ⟨note, fun d => if d.remaining < c.remaining then afreshAt d else failure⟩ c
termination_by c.remaining

def afresh : Recognizer σ := ⟨note, afreshAt note⟩

end Recognizer

namespace Exhaustive

def recognizer : Recognizer (List Failure) := .afresh fun f log => log ++ [f]

def recognize (s : String) : Option ParseTree × List Failure :=
  recognizer.whole (.start s) []

end Exhaustive

namespace Forgetful

def recognizer : Recognizer Report := .afresh fun f r => r.note f

def recognize (s : String) : Except Report ParseTree :=
  match recognizer.whole (.start s) (.start (.start s)) with
  | (some tree, _) => .ok tree
  | (none, report) => .error report

end Forgetful

/-- What is kept while a text is read: the report so far, and the result at each offset where a
`LogicalExp` has been read. -/
structure Economical where
  report : Report
  known : Std.TreeMap Nat (Option ParseTree)

namespace Economical

def note (f : Failure) (s : Economical) : Economical := { s with report := s.report.note f }

def remember (s : Economical) (offset : Nat) (found : Option ParseTree) : Economical :=
  { s with known := s.known.insert offset found }

/-- Reads a `LogicalExp` that begins at `c`, unless the result is known. -/
def logicalAt (c : Cursor) : Attempt Economical ParseTree := fun s =>
  match s.known[c.offset]? with
  | some found => (found, s)
  | none =>
    let (found, s) := Recognizer.logicalAlternatives
      ⟨note, fun d => if _h : d.remaining < c.remaining then logicalAt d else failure⟩ c s
    (found, s.remember c.offset found)
termination_by c.remaining

def recognizer : Recognizer Economical := ⟨note, logicalAt⟩

/-- The tree of a text, or the report of the failures if it is not a query. -/
def recognize (s : String) : Except Report ParseTree :=
  match recognizer.whole (.start s) ⟨.start (.start s), {}⟩ with
  | (some tree, _) => .ok tree
  | (none, final) => .error final.report

end Economical

end SearchQuery
