import SearchQuery.Json.Number
import SearchQuery.Text.Quoted

/-!
# JSON values

A JSON value that has been read already. The fields of an object have no order of meaning; a look-up
takes the first field with the name.
-/

namespace SearchQuery

inductive Json where
  | null
  | bool (b : Bool)
  | number (x : Json.Number)
  | string (s : String)
  | array (items : List Json)
  | object (fields : List (String × Json))
deriving Inhabited

namespace Json

def describe : Json → String
  | null => "null"
  | bool b => "boolean `" ++ (if b then "true" else "false") ++ "`"
  | number x => x.describe
  | string s => "string " ++ Text.quoted s
  | array _ => "sequence"
  | object _ => "map"

/-- A value found under a name is smaller than the fields it is found in. -/
theorem sizeOf_lt_of_lookup {fields : List (String × Json)} {name : String} {j : Json}
    (h : fields.lookup name = some j) : sizeOf j < sizeOf fields := by
  induction fields with
  | nil => simp at h
  | cons field fields ih =>
    obtain ⟨k, v⟩ := field
    rw [List.lookup_cons] at h
    split at h
    · obtain rfl := Option.some.inj h
      simp
      omega
    · have := ih h
      simp
      omega

end Json

end SearchQuery
