import Mathlib.Logic.Relation
import SearchQuery.Dialect.Template
import SearchQuery.Proofs.Tree.Lossless

/-!
# The walk of an evaluation

A recorder is a semantics whose handlers note their names, ask for the values of some of their parts
in an order of their own, and come to a value or fail. What happens when a node is evaluated is a
walk through the tree below it: a handler is called, then come the walks of the children that it
asks for, then the handler may fail. Nothing is noted behind the first failure, and that failure is
the result.

## Main definitions

* `Recorder` — what the handlers ask for and what they make of it.
* `Recorder.semantics` — the handlers of a recorder.
* `Recorder.walk` — what happens below a node, if nothing stopped it.
* `Enacts` — a computation goes along with the events up to the first failure.

Main statement: `Recorder.enacts_walk`.
-/

namespace SearchQuery

/-! ## Recorders -/

def Handler.isOptional : Handler → Bool
  | exp | logicalExp | priExp | spacedString | terminal => true
  | _ => false

/-- Fixed texts and blanks share a handler, and no others have it. -/
theorem Handler.ofRule_eq_terminal_iff (r : Rule) :
    ofRule r = terminal ↔ r = .spaces ∨ r = .terminal := by
  cases r <;> decide

/-- Handlers that note their names and then ask for some values. -/
structure Recorder (α : Type) where
  /-- Whether the recorder has a handler of its own. -/
  given : Handler → Bool
  given_of_required : ∀ h : Handler, h.isOptional = false → given h = true
  /-- The numbers of the parts that a handler asks for, in this order and as often as they are
  listed. A number that no part has stands for nothing. -/
  chosen : Handler → List Nat
  chosen_ident : chosen .ident = []
  chosen_terminal : chosen .terminal = []
  /-- What a handler makes of its parts and of the values it asked for. -/
  result : Handler → List ParseTree → List α → Except QueryError α

namespace Recorder

variable {α : Type} (R : Recorder α)

/-- Notes the handler, asks for values until one fails, and gives the result. -/
def run (h : Handler) (parts : List (Part Traced α)) : Traced α := do
  modify (· ++ [h])
  let values ← ((R.chosen h).filterMap (parts[·]?)).mapM Part.value
  MonadExcept.ofExcept (R.result h (parts.map Part.tree) values)

def self (leaf : ParseTree) : Part Traced α := ⟨leaf, throw .selfReference⟩

def required : Semantics Traced α where
  logicalAnd left operator right := R.run .logicalAnd [left, operator, right]
  logicalOr left operator right := R.run .logicalOr [left, operator, right]
  logicalJoin left right := R.run .logicalJoin [left, right]
  paren opening inner closing := R.run .paren [opening, inner, closing]
  quote opening inner closing := R.run .quote [opening, inner, closing]
  keywordQuoted key opening value closing :=
    R.run .keywordQuoted [key, opening, value, closing]
  keywordSimple key colon value := R.run .keywordSimple [key, colon, value]
  spaced left gap right := R.run .spaced [left, gap, right]
  ident leaf := R.run .ident [self leaf]

/-- The handlers of the recorder, with the usual ones where it has none of its own. -/
def semantics : Semantics Traced α where
  __ := R.required
  exp inner := if R.given .exp then R.run .exp [inner] else R.required.exp inner
  logicalExp inner :=
    if R.given .logicalExp then R.run .logicalExp [inner] else R.required.logicalExp inner
  priExp inner := if R.given .priExp then R.run .priExp [inner] else R.required.priExp inner
  spacedString first :=
    if R.given .spacedString then R.run .spacedString [first] else R.required.spacedString first
  terminal leaf :=
    if R.given .terminal then R.run .terminal [self leaf] else R.required.terminal leaf

end Recorder

/-! ## Events -/

inductive Event where
  /-- The handler of a node is called. -/
  | called (n : ParseTree)
  /-- A handler fails, though all values that it asked for were there. -/
  | failed (e : QueryError)

namespace Event

def ofResult {α : Type} : Except QueryError α → List Event
  | .ok _ => []
  | .error e => [failed e]

def record : List Event → List Handler
  | called n :: es => .ofRule n.rule :: record es
  | failed _ :: _ | [] => []

def failure? : List Event → Option QueryError
  | called _ :: es => failure? es
  | failed e :: _ => some e
  | [] => none

theorem failure?_append (es fs : List Event) :
    failure? (es ++ fs) = (failure? es).or (failure? fs) := by
  induction es with
  | nil => rfl
  | cons event es ih =>
    cases event with
    | called n => exact ih
    | failed e => rfl

/-- What comes behind a failure is not noted. -/
theorem record_append (es fs : List Event) :
    record (es ++ fs) = record es ++ if failure? es = none then record fs else [] := by
  induction es with
  | nil => rfl
  | cons event es ih =>
    cases event with
    | called n => exact congrArg _ ih
    | failed e => rfl

end Event

open Event

/-- The computation notes what the events say up to the first failure. It comes to the outcome,
which is a failure exactly if there is one among the events, and then it is the first. -/
structure Enacts {α : Type} (x : Traced α) (es : List Event) (v : Except QueryError α) : Prop where
  run : ∀ log, x.run.run log = (v, log ++ record es)
  failure : ∀ e, v = .error e ↔ failure? es = some e

namespace Enacts

variable {α β : Type} {x : Traced α} {f : α → Traced β} {es fs : List Event}
  {v : Except QueryError α} {w : α → Except QueryError β}

theorem pure (a : α) : Enacts (Pure.pure a) [] (.ok a) :=
  ⟨fun log => by simp [record]; rfl, by simp [failure?]⟩

theorem ofExcept (v : Except QueryError α) : Enacts (MonadExcept.ofExcept v) (ofResult v) v := by
  cases v with
  | ok a => exact pure a
  | error e => exact ⟨fun log => by simp [record, ofResult]; rfl, by simp [failure?, ofResult]⟩

theorem note (n : ParseTree) :
    Enacts (modify (· ++ [Handler.ofRule n.rule])) [.called n] (.ok ()) :=
  ⟨fun _ => rfl, by simp [failure?]⟩

/-- The events of a computation and of what comes next, which may be anything behind a failure. -/
theorem bind (hx : Enacts x es v) (hf : ∀ a, v = .ok a → Enacts (f a) fs (w a)) :
    Enacts (x >>= f) (es ++ fs) (v >>= w) := by
  cases v with
  | ok a =>
    have hnone : failure? es = none := by
      rw [Option.eq_none_iff_forall_ne_some]
      intro e he
      exact nomatch (hx.failure e).2 he
    obtain ⟨hrun, hfailure⟩ := hf a rfl
    refine ⟨fun log => ?_, fun e => ?_⟩
    · rw [record_append, if_pos hnone, ← List.append_assoc, ExceptT.run_bind, StateT.run_bind,
        hx.run]
      exact hrun _
    · rw [failure?_append, hnone, Option.none_or]
      exact hfailure e
  | error e =>
    have hsome : failure? es = some e := (hx.failure e).1 rfl
    refine ⟨fun log => ?_, fun e' => ?_⟩
    · rw [record_append, hsome, if_neg nofun, List.append_nil, ExceptT.run_bind, StateT.run_bind,
        hx.run]
      rfl
    · rw [failure?_append, hsome, Option.some_or]
      simp [Bind.bind, Except.bind]

/-- One tree after the other, until one of them fails. -/
theorem mapM {f : ParseTree → Traced α} {walk : ParseTree → List Event}
    {value : ParseTree → Except QueryError α} {ts : List ParseTree}
    (h : ∀ t ∈ ts, Enacts (f t) (walk t) (value t)) :
    Enacts (ts.mapM f) (ts.flatMap walk) (ts.mapM value) := by
  induction ts with
  | nil => exact pure []
  | cons t ts ih =>
    obtain ⟨ht, hts⟩ := List.forall_mem_cons.1 h
    rw [List.mapM_cons, List.mapM_cons, List.flatMap_cons]
    refine ht.bind fun a _ => ?_
    rw [← List.append_nil (ts.flatMap walk)]
    exact (ih hts).bind fun as _ => pure (a :: as)

end Enacts

/-! ## Walks -/

namespace Recorder

variable {α : Type} (R : Recorder α)

/-- The children whose values are asked for. A handler that is left out passes on its only child. -/
def asked (t : ParseTree) : List ParseTree :=
  if R.given (.ofRule t.rule) then (R.chosen (.ofRule t.rule)).filterMap (t.children[·]?)
  else t.children

def outcome (t : ParseTree) (values : List α) : Except QueryError α :=
  if R.given (.ofRule t.rule) then
    R.result (.ofRule t.rule) (if t.children.isEmpty then [t] else t.children) values
  else
    match values with
    | [value] => .ok value
    | _ => .error (.missingAction t.rule)

variable {R} {t : ParseTree}

/-- A node asks for the values of its own children only. -/
theorem mem_children_of_mem_asked {child : ParseTree} (h : child ∈ R.asked t) :
    child ∈ t.children := by
  unfold asked at h
  split at h
  · obtain ⟨i, -, hi⟩ := List.mem_filterMap.1 h
    exact List.mem_of_getElem? hi
  · exact h

variable (R)

def value (t : ParseTree) : Except QueryError α := do
  R.outcome t (← (R.asked t).attach.mapM fun child => value child.1)
termination_by sizeOf t
decreasing_by exact ParseTree.sizeOf_lt_of_mem_children (mem_children_of_mem_asked child.2)

/-- The failure of the handler of a node. There is none of its own if a value is missing. -/
def failing (t : ParseTree) : List Event :=
  match (R.asked t).mapM R.value with
  | .ok values => ofResult (R.outcome t values)
  | .error _ => []

/-- What happens in a tree, with no regard to failures: the handler is called unless it is left out,
then come the walks of the children that it asks for, then it may fail. -/
def walk (t : ParseTree) : List Event :=
  (if R.given (.ofRule t.rule) then [.called t] else []) ++
    ((R.asked t).attach.flatMap (fun child => walk child.1) ++ R.failing t)
termination_by sizeOf t
decreasing_by exact ParseTree.sizeOf_lt_of_mem_children (mem_children_of_mem_asked child.2)

variable {R}

theorem value_eq (t : ParseTree) : R.value t = (R.asked t).mapM R.value >>= R.outcome t := by
  rw [value, List.mapM_subtype fun _ _ => rfl, List.unattach_attach]

theorem walk_eq (t : ParseTree) :
    R.walk t = (if R.given (.ofRule t.rule) then [.called t] else []) ++
      ((R.asked t).flatMap R.walk ++ R.failing t) := by
  rw [walk, List.flatMap_subtype fun _ _ => rfl, List.unattach_attach]

theorem enacts_outcome {values : List α} (h : (R.asked t).mapM R.value = .ok values) :
    Enacts (MonadExcept.ofExcept (R.outcome t values)) (R.failing t) (R.outcome t values) := by
  rw [failing, h]
  exact .ofExcept _

/-- Should the handler fail in the end, that is not noted. -/
theorem record_walk (hgiven : R.given (.ofRule t.rule) = true) :
    record (R.walk t) = .ofRule t.rule :: record ((R.asked t).flatMap R.walk) := by
  have hfailing : record (R.failing t) = [] := by
    rw [failing]
    split
    · next values _ => cases R.outcome t values <;> rfl
    · rfl
  rw [walk_eq, if_pos hgiven, List.singleton_append, record, record_append, hfailing, ite_self,
    List.append_nil]

theorem called_notMem_failing {n : ParseTree} : .called n ∉ R.failing t := by
  have hresult (v : Except QueryError α) : .called n ∉ ofResult v := by cases v <;> simp [ofResult]
  rw [failing]
  split
  · exact hresult _
  · exact List.not_mem_nil

theorem called_mem_walk_iff {n : ParseTree} :
    .called n ∈ R.walk t ↔ (t = n ∧ R.given (.ofRule n.rule) = true) ∨
      ∃ child ∈ R.asked t, .called n ∈ R.walk child := by
  have hcall : .called n ∈ (if R.given (.ofRule t.rule) then [called t] else []) ↔
      t = n ∧ R.given (.ofRule n.rule) = true := by
    split
    · next hgiven =>
      rw [List.mem_singleton, Event.called.injEq]
      exact ⟨fun h => ⟨h.symm, h ▸ hgiven⟩, fun h => h.1.symm⟩
    · next hgiven => exact ⟨nofun, fun ⟨h, hn⟩ => absurd (h ▸ hn) hgiven⟩
  rw [walk_eq, List.mem_append, hcall, List.mem_append, List.mem_flatMap,
    or_iff_left called_notMem_failing]

/-- A walk comes to the trees that are asked for, directly or by trees that are asked for. -/
theorem called_mem_walk_iff_asked (t : ParseTree) {n : ParseTree} :
    .called n ∈ R.walk t ↔
      R.given (.ofRule n.rule) = true ∧
        Relation.ReflTransGen (fun parent child => child ∈ R.asked parent) t n := by
  induction t with
  | mk rule start stop children ih =>
    rw [called_mem_walk_iff, Relation.ReflTransGen.cases_head_iff, and_or_left, and_comm,
      ← exists_and_left]
    refine or_congr_right (exists_congr fun child => ?_)
    rw [and_left_comm]
    exact and_congr_right fun hchild => ih child (mem_children_of_mem_asked hchild)

/-! ## Evaluation -/

theorem chosen_of_isEmpty (harity : t.children.length = t.rule.arity)
    (hempty : t.children.isEmpty) : R.chosen (.ofRule t.rule) = [] := by
  rw [List.isEmpty_iff.1 hempty] at harity
  cases hrule : t.rule with
  | ident => exact R.chosen_ident
  | spaces | terminal => exact R.chosen_terminal
  | _ => exact nomatch hrule ▸ harity

/-- A handler of the recorder runs on the parts that it is made for. -/
theorem run_of_handles {h : Handler} {parts : List (Part Traced α)} {x : Traced α}
    (hx : R.semantics.Handles h parts x) (hgiven : R.given h = true) : x = R.run h parts := by
  cases hx with
  | exp | logicalExp | priExp | spacedString => exact if_pos hgiven
  | ident leaf => simp [semantics, required, run, self, R.chosen_ident]
  | terminal leaf => simp [semantics, hgiven, run, self, R.chosen_terminal]
  | _ => rfl

/-- A handler is noted before any value is asked for. -/
theorem eval_given (harity : t.children.length = t.rule.arity)
    (hgiven : R.given (.ofRule t.rule) = true) :
    R.semantics.eval t = (modify (· ++ [.ofRule t.rule]) >>= fun _ =>
      (R.asked t).mapM R.semantics.eval >>= fun values =>
        MonadExcept.ofExcept (R.outcome t values)) := by
  have hvalues : ((R.chosen (.ofRule t.rule)).filterMap ((R.semantics.parts t)[·]?)).mapM
      Part.value = (R.asked t).mapM R.semantics.eval := by
    rw [asked, if_pos hgiven, Semantics.parts]
    split
    · next hempty =>
      -- The one part of a leaf has no value, but the handler of a leaf asks for none.
      rw [chosen_of_isEmpty harity hempty]
      rfl
    · have hparts : (R.chosen (.ofRule t.rule)).filterMap ((t.children.map R.semantics.part)[·]?) =
          ((R.chosen (.ofRule t.rule)).filterMap (t.children[·]?)).map R.semantics.part := by
        simp [List.map_filterMap]
      rw [hparts, List.mapM_map]
      rfl
  have htrees : (R.semantics.parts t).map Part.tree =
      if t.children.isEmpty then [t] else t.children := by
    rw [Semantics.parts]
    split
    · rfl
    · simp [Semantics.part, Function.comp_def]
  rw [run_of_handles (R.semantics.handles_eval harity) hgiven, run, hvalues, htrees]
  simp only [outcome, if_pos hgiven]

/-- A node that has one child and no handler of the recorder has the value of the child. -/
theorem eval_passed (harity : t.children.length = t.rule.arity)
    (hgiven : R.given (.ofRule t.rule) = false)
    (hrule : t.rule ∈ [.exp, .logicalExp, .priExp, .spacedString]) :
    ∃ child, t.children = [child] ∧ R.semantics.eval t = R.semantics.eval child := by
  have hone : t.rule.arity = 1 := by
    revert hrule
    cases t.rule <;> decide
  obtain ⟨child, hchild⟩ := List.length_eq_one_iff.1 (harity.trans hone)
  refine ⟨child, hchild, ?_⟩
  rw [Semantics.eval_eq_call, Semantics.parts, hchild]
  simp only [List.mem_cons, List.not_mem_nil, or_false] at hrule
  rcases hrule with hrule | hrule | hrule | hrule <;> rw [hrule] at hgiven ⊢ <;>
    exact if_neg (Bool.eq_false_iff.1 hgiven)

/-- A fixed text or a blank has no value without a handler of the recorder. -/
theorem eval_missing (harity : t.children.length = t.rule.arity)
    (hgiven : R.given .terminal = false) (hrule : t.rule = .spaces ∨ t.rule = .terminal) :
    t.children = [] ∧ R.semantics.eval t = throw (.missingAction t.rule) := by
  have hzero : t.rule.arity = 0 := by rcases hrule with hrule | hrule <;> rw [hrule] <;> rfl
  have hnil := List.length_eq_zero_iff.1 (harity.trans hzero)
  refine ⟨hnil, ?_⟩
  rw [Semantics.eval_eq_call, Semantics.parts, hnil, (Handler.ofRule_eq_terminal_iff _).2 hrule]
  exact if_neg (Bool.eq_false_iff.1 hgiven)

/-- Only nodes with one child, fixed texts and blanks can do without a handler. -/
theorem rule_of_not_given (hgiven : R.given (.ofRule t.rule) = false) :
    t.rule ∈ [.exp, .logicalExp, .priExp, .spacedString] ∨
      t.rule = .spaces ∨ t.rule = .terminal := by
  have hoptional : (Handler.ofRule t.rule).isOptional = true := by
    by_contra h
    rw [R.given_of_required _ (Bool.eq_false_iff.2 h)] at hgiven
    contradiction
  revert hoptional
  cases t.rule <;> decide

theorem eval_not_given (harity : t.children.length = t.rule.arity)
    (hgiven : R.given (.ofRule t.rule) = false) :
    R.semantics.eval t = ((R.asked t).mapM R.semantics.eval >>= fun values =>
      MonadExcept.ofExcept (R.outcome t values)) := by
  have hfalse := Bool.eq_false_iff.1 hgiven
  rw [asked, if_neg hfalse]
  simp only [outcome, if_neg hfalse]
  rcases rule_of_not_given hgiven with hrule | hrule
  · obtain ⟨child, hone, heval⟩ := eval_passed harity hgiven hrule
    rw [heval, hone]
    have hpure (a : α) : MonadExcept.ofExcept (.ok a) = (pure a : Traced α) := rfl
    simp [hpure]
  · rw [(Handler.ofRule_eq_terminal_iff _).2 hrule] at hgiven
    obtain ⟨hnil, heval⟩ := eval_missing harity hgiven hrule
    rw [heval, hnil]
    rfl

/-- One node goes along with its walk, if its children do. -/
theorem enacts_node (harity : t.children.length = t.rule.arity)
    (hchildren : ∀ child ∈ t.children,
      Enacts (R.semantics.eval child) (R.walk child) (R.value child)) :
    Enacts (R.semantics.eval t) (R.walk t) (R.value t) := by
  have hvalues : Enacts ((R.asked t).mapM R.semantics.eval) ((R.asked t).flatMap R.walk)
      ((R.asked t).mapM R.value) :=
    .mapM fun child hchild => hchildren child (mem_children_of_mem_asked hchild)
  have hresult := hvalues.bind fun values hvalues => enacts_outcome hvalues
  rw [walk_eq, value_eq]
  cases hgiven : R.given (.ofRule t.rule) with
  | true =>
    rw [eval_given harity hgiven]
    exact (Enacts.note t).bind fun _ _ => hresult
  | false =>
    rw [eval_not_given harity hgiven]
    exact hresult

/-- The evaluation of a tree goes along with its walk. -/
theorem enacts_eval (t : ParseTree) (h : t.Everywhere fun n => n.children.length = n.rule.arity) :
    Enacts (R.semantics.eval t) (R.walk t) (R.value t) := by
  induction t with
  | mk rule start stop children ih =>
    exact enacts_node h.here fun child hchild => ih child hchild (h.child hchild)

/-- The evaluation of a node walks through the tree and stops at the first failure, which is then
its result. The handler of the node is noted first, then come the children it asks for, one after
the other, and no others have a part in it. Where a handler is left out, a node with one child is
evaluated like the child, and a fixed text or a blank fails. -/
theorem enacts_walk {s : String} {root : ParseTree} {path : List Nat}
    (hroot : ParseTree.ofQuery s = .ok root) (ht : root.descend? path = some t) :
    Enacts (R.semantics.eval t) (R.walk t) (R.value t) ∧
      (R.given (.ofRule t.rule) = true →
        record (R.walk t) = .ofRule t.rule :: record ((R.asked t).flatMap R.walk)) ∧
      (∀ n, .called n ∈ R.walk t ↔
        R.given (.ofRule n.rule) = true ∧
          Relation.ReflTransGen (fun parent child => child ∈ R.asked parent) t n) ∧
      (R.given (.ofRule t.rule) = false → t.rule ∈ [.exp, .logicalExp, .priExp, .spacedString] →
        ∃ child, t.children = [child] ∧ R.semantics.eval t = R.semantics.eval child) ∧
      (R.given .terminal = false → t.rule = .spaces ∨ t.rule = .terminal →
        R.semantics.eval t =
          throw (.rejected ("missing semantic action for " ++ t.rule.name))) := by
  obtain ⟨hfits, -⟩ := ParseTree.fits_of_ofQuery hroot
  have harity : t.Everywhere fun n => n.children.length = n.rule.arity :=
    fun path n hn => (hfits.lossless.descend ht path n hn).arity
  refine ⟨enacts_eval t harity, record_walk, fun n => called_mem_walk_iff_asked t,
    eval_passed harity.here, fun hgiven hrule => (eval_missing harity.here hgiven hrule).2⟩

/-- The operands of an operator one after the other and then the first again. The identifier `b` is
turned down. -/
def turnedDown : Recorder String where
  given h := !h.isOptional
  given_of_required h hh := by rw [hh]; rfl
  chosen
    | .logicalOr => [0, 2, 0]
    | _ => []
  chosen_ident := rfl
  chosen_terminal := rfl
  result
    | .ident, [leaf], _ => if leaf.text = "b" then .error (.rejected "b") else .ok leaf.text
    | _, _, values => .ok (String.join values)

/-- The operator is not asked for, and the first operand is not asked for again. -/
theorem enacts_walk_turnedDown :
    ∃ root t, ParseTree.ofQuery "a OR b" = .ok root ∧ root.descend? [0] = some t ∧
      Enacts (turnedDown.semantics.eval t) (turnedDown.walk t) (turnedDown.value t) ∧
      (turnedDown.semantics.eval t).run.run [] =
        (.error (.rejected "b"), [.logicalOr, .ident, .ident]) := by
  have hread : (ParseTree.ofQuery "a OR b").toOption.bind (fun root => (root.descend? [0]).map
      fun t => ((turnedDown.semantics.eval t).run.run []).run) =
        some (.error (.rejected "b"), [.logicalOr, .ident, .ident]) := by decide +kernel
  obtain ⟨root, hquery, hnode⟩ := Option.bind_eq_some_iff.1 hread
  obtain ⟨t, ht, hrun⟩ := Option.map_eq_some_iff.1 hnode
  have hroot := ParseTree.ofQuery_of_toOption hquery
  exact ⟨root, t, hroot, ht, (enacts_walk hroot ht).1, hrun⟩

end Recorder

end SearchQuery
