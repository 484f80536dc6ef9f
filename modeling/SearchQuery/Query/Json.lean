import SearchQuery.Json.DecodeError
import SearchQuery.Query.Basic

/-!
# Queries as JSON

A query is written as an object with its kind under `type` and its parts under further names. It is
read from such an object, whatever other fields there are, or from an array that lists the kind and
then the parts in order.

## Main definitions

* `Query.toJson` — the object that stands for a query.
* `Query.Layer` — the outermost node of a query in JSON.
* `Query.ofJson`, `Connective.ofJson` — the query or the operator that a value stands for.
-/

namespace SearchQuery

/-! ## Writing -/

def Connective.jsonName : Connective → String
  | and => "and"
  | or => "or"

def Query.toJson : Query → Json
  | text value => .object [("type", .string "string"), ("value", .string value)]
  | keyword key value =>
    .object [("type", .string "keyword"), ("key", .string key), ("value", .string value)]
  | logic operator children =>
    .object [("type", .string "logic"), ("value", .string operator.jsonName),
      ("children", .array (children.map fun child => toJson child))]
termination_by q => sizeOf q

/-! ## Reading operators and kinds -/

def Connective.ofJsonName (name : String) : Except DecodeError Connective :=
  if name = "and" then .ok and
  else if name = "or" then .ok or
  else .error (.unknownVariant name ["and", "or"])

/-- The operator that a value stands for: a text, or an object with the text as its only field and
no content. Null is no content, and so is an empty object where `emptyIsNull` holds. -/
def Connective.ofJson (emptyIsNull : Bool) : Json → Except DecodeError Connective
  | .string name => ofJsonName name
  | .object [(name, content)] => do
    let operator ← ofJsonName name
    match content with
    | .null => return operator
    | .object [] => if emptyIsNull then return operator else throw (.wrongType content "unit")
    | content => throw (.wrongType content "unit")
  | .object _ => .error (.wrongValue "map" "map with a single key")
  | j => .error (.wrongType j "string or map")

namespace Query

inductive Kind where
  | text
  | keyword
  | logic
deriving DecidableEq, Repr

namespace Kind

def jsonName : Kind → String
  | text => "string"
  | keyword => "keyword"
  | logic => "logic"

def ofJsonName (name : String) : Except DecodeError Kind :=
  if name = "string" then .ok text
  else if name = "keyword" then .ok keyword
  else if name = "logic" then .ok logic
  else .error (.unknownVariant name ["string", "keyword", "logic"])

/-- The kind that a value stands for: a name or, where `numbered` holds, a number from 0. -/
def ofJson (numbered : Bool) : Json → Except DecodeError Kind
  | .string name => ofJsonName name
  | .number (.integer (.ofNat n)) =>
    if numbered then
      match n with
      | 0 => .ok text
      | 1 => .ok keyword
      | 2 => .ok logic
      | n => .error (.wrongValue s!"integer `{n}`" "variant index 0 <= i < 3")
    else .error (.wrongType (.number (.integer n)) "variant identifier")
  | j => .error (.wrongType j "variant identifier")

def parts : Kind → String
  | text => "1 element"
  | keyword | logic => "2 elements"

def described : Kind → String
  | text => "struct variant QueryNode::Text with 1 element"
  | keyword => "struct variant QueryNode::Keyword with 2 elements"
  | logic => "struct variant QueryNode::Logic with 2 elements"

end Kind

/-- The outermost node of a query, with its children still in JSON. -/
inductive Layer where
  | text (value : String)
  | keyword (key value : String)
  | logic (operator : Connective) (children : List Json)

namespace Layer

/-- The outermost node that an object stands for. A field of the wrong type is reported before a
field that is missing. -/
def ofFields (nested : Bool) (fields : List (String × Json)) : Except DecodeError Layer := do
  match ← Kind.ofJson nested (← Json.required "type" (fields.lookup "type")) with
  | .text =>
    let value ← (fields.lookup "value").mapM Json.toText
    return text (← Json.required "value" value)
  | .keyword =>
    let key ← (fields.lookup "key").mapM Json.toText
    let value ← (fields.lookup "value").mapM Json.toText
    return keyword (← Json.required "key" key) (← Json.required "value" value)
  | .logic =>
    let children ← (fields.lookup "children").mapM Json.toItems
    let operator ← (fields.lookup "value").mapM (Connective.ofJson true)
    return logic (← Json.required "value" operator) (← Json.required "children" children)

/-- The node `q`, if nothing follows the parts of its array. -/
def closed (kind : Kind) (length : Nat) (more : List Json) (q : Layer) : Except DecodeError Layer :=
  if more.isEmpty then .ok q else .error (.wrongLength length (kind.parts ++ " in sequence"))

/-- The outermost node that an array stands for. The parts are read in order before it is seen that
there are too few or too many. -/
def ofItems (nested : Bool) : (items : List Json) → Except DecodeError Layer
  | [] => .error (.missingField "type")
  | kind :: parts => do
    let kind ← Kind.ofJson nested kind
    match kind, parts with
    | .text, value :: more => do
      closed kind parts.length more (text (← value.toText))
    | .keyword, key :: value :: more => do
      closed kind parts.length more (keyword (← key.toText) (← value.toText))
    | .logic, operator :: children :: more => do
      closed kind parts.length more
        (logic (← Connective.ofJson true operator) (← children.toItems))
    | .keyword, [key] => do
      let _ ← key.toText
      throw (.wrongLength 1 kind.described)
    | .logic, [operator] => do
      let _ ← Connective.ofJson true operator
      throw (.wrongLength 1 kind.described)
    | _, [] => throw (.wrongLength 0 kind.described)

/-- The outermost node that a value stands for. Inside another query, where `nested` holds, a kind
may be given by its number. -/
def ofJson (nested : Bool) : Json → Except DecodeError Layer
  | .object fields => ofFields nested fields
  | .array items => ofItems nested items
  | j => .error (.wrongType j "internally tagged enum QueryNode")

/-! ## Children are smaller than their parent -/

theorem lookup_of_ofFields {nested : Bool} {fields : List (String × Json)}
    {operator : Connective} {children : List Json}
    (h : ofFields nested fields = .ok (logic operator children)) :
    fields.lookup "children" = some (.array children) := by
  unfold ofFields at h
  obtain ⟨_, _, h⟩ := DecodeError.bind_eq_ok.1 h
  obtain ⟨kind, _, h⟩ := DecodeError.bind_eq_ok.1 h
  cases kind with
  | text =>
    obtain ⟨_, _, h⟩ := DecodeError.bind_eq_ok.1 h
    obtain ⟨_, _, h⟩ := DecodeError.bind_eq_ok.1 h
    simp [pure, Except.pure] at h
  | keyword =>
    obtain ⟨_, _, h⟩ := DecodeError.bind_eq_ok.1 h
    obtain ⟨_, _, h⟩ := DecodeError.bind_eq_ok.1 h
    obtain ⟨_, _, h⟩ := DecodeError.bind_eq_ok.1 h
    obtain ⟨_, _, h⟩ := DecodeError.bind_eq_ok.1 h
    simp [pure, Except.pure] at h
  | logic =>
    obtain ⟨found, hfound, h⟩ := DecodeError.bind_eq_ok.1 h
    obtain ⟨_, _, h⟩ := DecodeError.bind_eq_ok.1 h
    obtain ⟨_, _, h⟩ := DecodeError.bind_eq_ok.1 h
    obtain ⟨items, hitems, h⟩ := DecodeError.bind_eq_ok.1 h
    simp only [pure, Except.pure, Except.ok.injEq, logic.injEq] at h
    obtain ⟨rfl, rfl⟩ := h
    rw [Json.required_eq_ok.1 hitems, DecodeError.mapM_eq_ok_some] at hfound
    obtain ⟨j, hj, hk⟩ := hfound
    rw [hj, Json.toItems_eq_ok.1 hk]

theorem closed_eq_ok {kind : Kind} {length : Nat} {more : List Json} {q r : Layer} :
    closed kind length more q = .ok r ↔ more = [] ∧ q = r := by
  cases more <;> simp [closed]

theorem mem_of_ofItems {nested : Bool} {items : List Json} {operator : Connective}
    {children : List Json} (h : ofItems nested items = .ok (logic operator children)) :
    .array children ∈ items := by
  cases items with
  | nil => simp [ofItems] at h
  | cons kind parts =>
    obtain ⟨kind, _, h⟩ := DecodeError.bind_eq_ok.1 h
    split at h
    · obtain ⟨_, _, h⟩ := DecodeError.bind_eq_ok.1 h
      simp [closed_eq_ok] at h
    · obtain ⟨_, _, h⟩ := DecodeError.bind_eq_ok.1 h
      obtain ⟨_, _, h⟩ := DecodeError.bind_eq_ok.1 h
      simp [closed_eq_ok] at h
    · obtain ⟨_, _, h⟩ := DecodeError.bind_eq_ok.1 h
      obtain ⟨_, hitems, h⟩ := DecodeError.bind_eq_ok.1 h
      obtain ⟨_, h⟩ := closed_eq_ok.1 h
      simp only [logic.injEq] at h
      obtain ⟨rfl, rfl⟩ := h
      simp [Json.toItems_eq_ok.1 hitems]
    · obtain ⟨_, _, h⟩ := DecodeError.bind_eq_ok.1 h
      simp [throw, throwThe, MonadExceptOf.throw] at h
    · obtain ⟨_, _, h⟩ := DecodeError.bind_eq_ok.1 h
      simp [throw, throwThe, MonadExceptOf.throw] at h
    · simp [throw, throwThe, MonadExceptOf.throw] at h

/-- The children of a combination are smaller than the value that stands for it. -/
theorem sizeOf_children_lt {nested : Bool} {j : Json} {operator : Connective}
    {children : List Json} (h : ofJson nested j = .ok (logic operator children)) :
    sizeOf children < sizeOf j := by
  cases j with
  | object fields =>
    have := Json.sizeOf_lt_of_lookup (lookup_of_ofFields h)
    simp at *
    omega
  | array items =>
    have := List.sizeOf_lt_of_mem (mem_of_ofItems h)
    simp at *
    omega
  | _ => simp [ofJson] at h

end Layer

/-! ## Reading queries -/

/-- The query that a value stands for, at the root or, where `nested` holds, inside another. -/
def decode (nested : Bool) (j : Json) : Except DecodeError Query :=
  match _h : Layer.ofJson nested j with
  | .error e => .error e
  | .ok (.text value) => .ok (text value)
  | .ok (.keyword key value) => .ok (keyword key value)
  | .ok (.logic operator children) =>
    logic operator <$> children.attach.mapM fun ⟨child, _⟩ => decode true child
termination_by sizeOf j
decreasing_by
  exact Nat.lt_trans (List.sizeOf_lt_of_mem (by assumption)) (Layer.sizeOf_children_lt _h)

def ofJson (j : Json) : Except DecodeError Query := decode false j

end Query

end SearchQuery
