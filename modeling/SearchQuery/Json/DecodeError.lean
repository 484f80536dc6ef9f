import SearchQuery.Json.Value

/-!
# Reading from JSON

A value is read as something or is refused with a reason. The reasons are the same whatever is
read: a value of the wrong type, a field that is missing, a name that is unknown.

## Main definitions

* `DecodeError` — why a value could not be read.
* `Json.toText`, `Json.toItems`, `Json.required` — a text, a list, a field that has to be there.
-/

namespace SearchQuery

inductive DecodeError where
  /-- The value is of another type than the one wanted. -/
  | wrongType (found : Json) (wanted : String)
  /-- The value is of the right type, but not one of those wanted. -/
  | wrongValue (found wanted : String)
  /-- An array has a number of parts that does not fit. -/
  | wrongLength (length : Nat) (wanted : String)
  /-- An object lacks a field. -/
  | missingField (name : String)
  /-- A name is none of the known ones. -/
  | unknownVariant (name : String) (known : List String)

namespace DecodeError

def choice (names : List String) : String :=
  match names.map fun name => "`" ++ name ++ "`" with
  | [first, second] => first ++ " or " ++ second
  | names => "one of " ++ ", ".intercalate names

def message : DecodeError → String
  | wrongType found wanted => "invalid type: " ++ found.describe ++ ", expected " ++ wanted
  | wrongValue found wanted => "invalid value: " ++ found ++ ", expected " ++ wanted
  | wrongLength length wanted => s!"invalid length {length}, expected " ++ wanted
  | missingField name => "missing field `" ++ name ++ "`"
  | unknownVariant name known =>
    "unknown variant `" ++ name ++ "`, expected " ++ choice known

end DecodeError

namespace Json

def toText : Json → Except DecodeError String
  | string s => .ok s
  | j => .error (.wrongType j "a string")

def toItems : Json → Except DecodeError (List Json)
  | array items => .ok items
  | j => .error (.wrongType j "a sequence")

/-- The value of a field that has to be there. -/
def required {α : Type} (name : String) (value : Option α) : Except DecodeError α :=
  match value with
  | some value => .ok value
  | none => .error (.missingField name)

theorem toItems_eq_ok {j : Json} {items : List Json} :
    j.toItems = .ok items ↔ j = .array items := by
  cases j <;> simp [toItems]

theorem required_eq_ok {α : Type} {name : String} {value : Option α} {a : α} :
    required name value = .ok a ↔ value = some a := by
  cases value <;> simp [required]

end Json

namespace DecodeError

variable {α β : Type}

/-- What two readings in a row have read. -/
theorem bind_eq_ok {x : Except DecodeError α} {f : α → Except DecodeError β} {b : β} :
    x >>= f = .ok b ↔ ∃ a, x = .ok a ∧ f a = .ok b := by
  cases x <;> simp [bind, Except.bind]

/-- What has been read where a value may be missing. -/
theorem mapM_eq_ok_some {f : α → Except DecodeError β} {o : Option α} {b : β} :
    o.mapM f = .ok (some b) ↔ ∃ a, o = some a ∧ f a = .ok b := by
  cases o with
  | none => simp [pure, Except.pure]
  | some a => cases h : f a <;> simp [h, Functor.map, Except.map]

end DecodeError

end SearchQuery
