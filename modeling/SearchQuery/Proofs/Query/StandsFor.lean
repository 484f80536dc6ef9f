import Mathlib.Data.List.Forall2
import SearchQuery.Query.Json

/-!
# What stands for a query in JSON

Each node of a query is an object with its kind and its parts under their names, in any order and
perhaps with further fields, or an array that lists the kind and then the parts. The operator of a
combination is a name, or an object with the name as its only field. The choice is free at each
node, and whatever is chosen, reading gives the query.

## Main definitions

* `Json.StandsFor` — a value stands for a query, whatever forms its nodes have.
* `Query.Form` — the two forms of a node.
* `Connective.Spelling` — the two ways to give an operator.

Main statement: `Query.ofJson_of_standsFor`.
-/

namespace SearchQuery

namespace Json

variable {fields known : List (String × Json)} {name : String} {value : Json}

/-! ## Fields of an object -/

/-- An object has the fields `known`, in any order and perhaps among others. No two fields have the
same name. -/
structure HasFields (fields known : List (String × Json)) : Prop where
  distinct : (fields.map Prod.fst).Nodup
  known : ∀ field ∈ known, field ∈ fields

/-- If no two fields have the same name, every field is found under its name. -/
theorem lookup_of_mem (hdistinct : (fields.map Prod.fst).Nodup) (h : (name, value) ∈ fields) :
    fields.lookup name = some value := by
  induction fields with
  | nil => simp at h
  | cons field fields ih =>
    obtain ⟨k, v⟩ := field
    obtain ⟨hk, hdistinct⟩ := List.nodup_cons.1 hdistinct
    rcases List.mem_cons.1 h with heq | h
    · obtain ⟨rfl, rfl⟩ := Prod.mk.inj heq
      exact List.lookup_cons_self
    · have hne : (name == k) = false := by
        refine beq_eq_false_iff_ne.2 fun heq => hk ?_
        exact List.mem_map.2 ⟨(name, value), h, heq⟩
      rw [List.lookup_cons, hne]
      exact ih hdistinct h

theorem HasFields.lookup (h : HasFields fields known) (hmem : (name, value) ∈ known) :
    fields.lookup name = some value :=
  lookup_of_mem h.distinct (h.known _ hmem)

end Json

namespace Connective

/-- The values that stand for an operator: its name, or an object whose only field has this name and
no content. -/
inductive Spelling (p : Connective) : Json → Prop where
  | name : p.Spelling (.string p.jsonName)
  | field : p.Spelling (.object [(p.jsonName, .null)])

/-- Every spelling of an operator is read as the operator. -/
theorem Spelling.ofJson_eq {p : Connective} {j : Json} (h : p.Spelling j) (emptyIsNull : Bool) :
    ofJson emptyIsNull j = .ok p := by
  cases h <;> cases p <;> rfl

end Connective

namespace Query

/-! ## Forms of a node -/

/-- The two forms of a node with a kind and some parts. -/
inductive Form (kind : Kind) (parts : List (String × Json)) : Json → Prop where
  | object {fields : List (String × Json)}
    (h : Json.HasFields fields (("type", .string kind.jsonName) :: parts)) :
    Form kind parts (.object fields)
  | array : Form kind parts (.array (.string kind.jsonName :: parts.map Prod.snd))

end Query

/-- The value stands for the query, each node in one of its forms. -/
inductive Json.StandsFor : Json → Query → Prop where
  | text {j : Json} {value : String} (h : Query.Form .text [("value", .string value)] j) :
    j.StandsFor (.text value)
  | keyword {j : Json} {key value : String}
    (h : Query.Form .keyword [("key", .string key), ("value", .string value)] j) :
    j.StandsFor (.keyword key value)
  | logic {j o : Json} {operator : Connective} {items : List Json} {children : List Query}
    (ho : operator.Spelling o) (hitems : List.Forall₂ StandsFor items children)
    (h : Query.Form .logic [("value", o), ("children", .array items)] j) :
    j.StandsFor (.logic operator children)

namespace Query

open DecodeError

variable {nested : Bool} {j o : Json} {key value : String} {operator : Connective}
  {items : List Json} {children : List Query}

namespace Layer

theorem ofJson_text (h : Form .text [("value", .string value)] j) :
    ofJson nested j = .ok (text value) := by
  cases h with
  | array => rfl
  | object h =>
    have htype := h.lookup List.mem_cons_self
    have hvalue := h.lookup (List.mem_cons_of_mem _ List.mem_cons_self)
    rw [ofJson, ofFields, htype, hvalue]
    rfl

theorem ofJson_keyword (h : Form .keyword [("key", .string key), ("value", .string value)] j) :
    ofJson nested j = .ok (keyword key value) := by
  cases h with
  | array => rfl
  | object h =>
    have htype := h.lookup List.mem_cons_self
    have hkey := h.lookup (List.mem_cons_of_mem _ List.mem_cons_self)
    have hvalue := h.lookup (List.mem_cons_of_mem _ (List.mem_cons_of_mem _ List.mem_cons_self))
    rw [ofJson, ofFields, htype, hkey, hvalue]
    rfl

/-- The operator is read whichever way it is spelt. -/
theorem ofJson_logic (ho : operator.Spelling o)
    (h : Form .logic [("value", o), ("children", .array items)] j) :
    ofJson nested j = .ok (logic operator items) := by
  have hoperator := ho.ofJson_eq true
  cases h with
  | array =>
    exact bind_eq_ok.2 ⟨.logic, rfl, bind_eq_ok.2 ⟨operator, hoperator, rfl⟩⟩
  | object h =>
    have htype := h.lookup List.mem_cons_self
    have hvalue := h.lookup (List.mem_cons_of_mem _ List.mem_cons_self)
    have hchildren := h.lookup (List.mem_cons_of_mem _ (List.mem_cons_of_mem _ List.mem_cons_self))
    rw [ofJson, ofFields, htype, hvalue, hchildren]
    refine bind_eq_ok.2 ⟨_, rfl, bind_eq_ok.2 ⟨.logic, rfl, bind_eq_ok.2 ⟨some items, rfl, ?_⟩⟩⟩
    exact bind_eq_ok.2 ⟨some operator, mapM_eq_ok_some.2 ⟨o, rfl, hoperator⟩, rfl⟩

end Layer

/-! ## Reading -/

theorem decode_of_text (h : Layer.ofJson nested j = .ok (.text value)) :
    decode nested j = .ok (text value) := by
  rw [decode]
  split <;> simp_all

theorem decode_of_keyword (h : Layer.ofJson nested j = .ok (.keyword key value)) :
    decode nested j = .ok (keyword key value) := by
  rw [decode]
  split <;> simp_all

theorem decode_of_logic (h : Layer.ofJson nested j = .ok (.logic operator items)) :
    decode nested j = logic operator <$> items.mapM (decode true) := by
  rw [decode]
  split <;> simp_all

/-- A list is read item by item. -/
theorem mapM_decode (hitems : List.Forall₂ Json.StandsFor items children)
    (h : ∀ q ∈ children, ∀ j : Json, j.StandsFor q → decode true j = .ok q) :
    items.mapM (decode true) = .ok children := by
  induction hitems with
  | nil => rfl
  | cons hj _ ih =>
    obtain ⟨hq, hqs⟩ := List.forall_mem_cons.1 h
    rw [List.mapM_cons]
    exact bind_eq_ok.2 ⟨_, hq _ hj, bind_eq_ok.2 ⟨_, ih hqs, rfl⟩⟩

/-- A value that stands for a query is decoded as this query. -/
theorem decode_of_standsFor {q : Query} (h : j.StandsFor q) (nested : Bool) :
    decode nested j = .ok q := by
  induction q generalizing j nested with
  | text value =>
    cases h with
    | text hform => exact decode_of_text (Layer.ofJson_text hform)
  | keyword key value =>
    cases h with
    | keyword hform => exact decode_of_keyword (Layer.ofJson_keyword hform)
  | logic operator children ih =>
    cases h with
    | logic ho hitems hform =>
      have hchildren := mapM_decode hitems fun q hq j hj => ih q hq hj true
      rw [decode_of_logic (Layer.ofJson_logic ho hform), hchildren]
      rfl

/-! ## Writing -/

/-- What is written is an object at each node, with the operator as a name. -/
theorem standsFor_toJson (q : Query) : q.toJson.StandsFor q := by
  induction q with
  | text value =>
    rw [toJson]
    exact .text (.object ⟨by simp, fun _ => id⟩)
  | keyword key value =>
    rw [toJson]
    exact .keyword (.object ⟨by simp, fun _ => id⟩)
  | logic operator children ih =>
    rw [toJson]
    refine .logic .name ?_ (.object ⟨by simp, fun _ => id⟩)
    exact List.forall₂_map_left_iff.2 (List.forall₂_same.2 ih)

/-- Any value that stands for a query is read as this query. What is written for it is one of these
values, and stands for no other query. -/
theorem ofJson_of_standsFor (q : Query) :
    (∀ j : Json, j.StandsFor q → ofJson j = .ok q) ∧ ofJson q.toJson = .ok q ∧
      (∀ r, q.toJson.StandsFor r ↔ r = q) ∧ ∀ r : Query, r.toJson = q.toJson ↔ r = q := by
  have hread {j : Json} {r : Query} (h : j.StandsFor r) : ofJson j = .ok r :=
    decode_of_standsFor h false
  have hunique (r : Query) : q.toJson.StandsFor r ↔ r = q := by
    refine ⟨fun h => ?_, fun h => h ▸ standsFor_toJson r⟩
    exact Except.ok.inj ((hread h).symm.trans (hread (standsFor_toJson q)))
  refine ⟨fun j => hread, hread (standsFor_toJson q), hunique, fun r => ⟨fun h => ?_, ?_⟩⟩
  · exact (hunique r).1 (h ▸ standsFor_toJson r)
  · exact congrArg toJson

/-- An array with an object whose kind comes last, an operator as an object, and a combination of
nothing. -/
theorem ofJson_of_standsFor_mixed :
    let filter := Json.object [("value", .string "v w"), ("note", .null), ("key", .string "k"),
      ("type", .string "keyword")]
    let nothing := Json.array [.string "logic", .string "or", .array []]
    let j := Json.array [.string "logic", .object [("and", .null)], .array [filter, nothing]]
    let q := logic .and [keyword "k" "v w", logic .or []]
    j.StandsFor q ∧ ofJson j = .ok q := by
  intro filter nothing j q
  have hfilter : filter.StandsFor (keyword "k" "v w") :=
    .keyword (.object ⟨by simp, by simp [Kind.jsonName]⟩)
  have hnothing : nothing.StandsFor (logic .or []) := .logic .name .nil .array
  have hj : j.StandsFor q := .logic .field (.cons hfilter (.cons hnothing .nil)) .array
  exact ⟨hj, (ofJson_of_standsFor q).1 j hj⟩

end Query

end SearchQuery
