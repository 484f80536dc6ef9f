import Mathlib.Data.List.Forall2
import SearchQuery.Proofs.Query.Chain

/-!
# Precedence of the operators

Operands with operators between them are combined from the right, whatever the operators are. If
"AND" were the tighter operator, they would be cut into runs at each "OR", and the runs would be the
alternatives. The two readings are the same exactly if no "OR" comes behind an "AND".

## Main definitions

* `Series` — items with operators between them.
* `Series.runs` — the longest parts of a series without "OR".
* `Series.fromRight`, `Series.grouped` — the two readings.
* `Series.groupedText` — the text with the runs in parentheses.

Main statement: `Series.parse_eq_grouped_iff`.
-/

namespace SearchQuery

open Query Text

inductive Series (α : Type) where
  | last (a : α)
  | link (a : α) (p : Connective) (rest : Series α)

namespace Series

variable {α β : Type}

def map (f : α → β) : Series α → Series β
  | last a => last (f a)
  | link a p rest => link (f a) p (rest.map f)

def members : Series α → List α
  | last a => [a]
  | link a _ rest => a :: rest.members

def connectives : Series α → List Connective
  | last _ => []
  | link _ p rest => p :: rest.connectives

def firstRun : Series α → List α
  | last a => [a]
  | link a .and rest => a :: rest.firstRun
  | link a .or _ => [a]

def otherRuns : Series α → List (List α)
  | last _ => []
  | link _ .and rest => rest.otherRuns
  | link _ .or rest => rest.firstRun :: rest.otherRuns

/-- The longest parts without "OR". -/
def runs (s : Series α) : List (List α) := s.firstRun :: s.otherRuns

def fromRight : Series Query → Query
  | last q => q
  | link q p rest => combine p q rest.fromRight

/-- The runs of queries as alternatives. -/
def grouped (s : Series Query) : Query := merge .or (s.runs.map (merge .and))

def toChain : Series Operand → Chain
  | last o => .last o
  | link o p rest => .link o (.operator p) rest.toChain

def text (s : Series Operand) : String := s.toChain.text

/-- One operand as it is, and several in parentheses with "AND" between them. -/
def group : List Operand → Operand
  | [o] => o
  | os => .paren ((Connector.operator .and).text.intercalate (os.map Operand.text))

/-- A series of operands as written, but with each run of several operands in parentheses. -/
def groupedText (s : Series Operand) : String :=
  (Connector.operator .or).text.intercalate (s.runs.map fun os => (group os).text)

/-! ## Runs -/

theorem ne_nil_of_mem_runs (s : Series α) : ∀ run ∈ s.runs, run ≠ [] := by
  induction s with
  | last a => simp [runs, firstRun, otherRuns]
  | link a p rest ih =>
    have hrest : ∀ run ∈ rest.otherRuns, run ≠ [] := fun run h => ih run (List.mem_cons_of_mem _ h)
    cases p with
    | and => exact List.forall_mem_cons.2 ⟨List.cons_ne_nil _ _, hrest⟩
    | or => exact List.forall_mem_cons.2 ⟨List.cons_ne_nil _ _, ih⟩

/-- The runs make up the series. -/
theorem flatten_runs (s : Series α) : s.runs.flatten = s.members := by
  induction s with
  | last a => rfl
  | link a p rest ih =>
    rw [runs, List.flatten_cons] at ih
    cases p <;> simp [runs, firstRun, otherRuns, members, ih]

theorem firstRun_map (f : α → β) (s : Series α) : (s.map f).firstRun = s.firstRun.map f := by
  induction s with
  | last a => rfl
  | link a p rest ih => cases p <;> simp [map, firstRun, ih]

theorem otherRuns_map (f : α → β) (s : Series α) :
    (s.map f).otherRuns = s.otherRuns.map (List.map f) := by
  induction s with
  | last a => rfl
  | link a p rest ih => cases p <;> simp [map, otherRuns, firstRun_map, ih]

theorem runs_map (f : α → β) (s : Series α) : (s.map f).runs = s.runs.map (List.map f) := by
  simp [runs, firstRun_map, otherRuns_map]

theorem connectives_map (f : α → β) (s : Series α) : (s.map f).connectives = s.connectives := by
  induction s with
  | last a => rfl
  | link a p rest ih => simp [map, connectives, ih]

theorem members_map (f : α → β) (s : Series α) : (s.map f).members = s.members.map f := by
  induction s with
  | last a => rfl
  | link a p rest ih => simp [map, members, ih]

/-- There is one run only if there is no "OR". -/
theorem otherRuns_eq_nil_iff (s : Series α) :
    s.otherRuns = [] ↔ ∀ p ∈ s.connectives, p = .and := by
  induction s with
  | last a => simp [otherRuns, connectives]
  | link a p rest ih => cases p <;> simp [otherRuns, connectives, ih]

end Series

/-! ## Combinations of normal queries -/

namespace Query

variable {p : Connective} {q left right : Query} {qs : List Query}

theorem operator?_merge (h : 2 ≤ qs.length) : (merge p qs).operator? = some p := by
  rw [merge_of_two_le h, operator?_flatten]
  rfl

/-- Merging queries in normal form gives one in normal form. -/
theorem Normal.merge (hqs : ∀ q ∈ qs, q.Normal) (hne : qs ≠ []) : (merge p qs).Normal := by
  induction qs with
  | nil => contradiction
  | cons q qs ih =>
    have hq := hqs q List.mem_cons_self
    by_cases hnil : qs = []
    · rwa [hnil]
    · rw [merge_cons hnil]
      exact hq.flatten (ih (fun c hc => hqs c (List.mem_cons_of_mem q hc)) hnil) p

/-- A normal query can be told from what it contributes to a combination. -/
theorem eq_of_operandsOf_eq (hleft : left.Normal) (hright : right.Normal)
    (h : operandsOf p left = operandsOf p right) : left = right := by
  have hlen {children : List Query} (hn : (logic p children).Normal) (q : Query) :
      children ≠ [q] := by
    cases hn with
    | logic hlen _ _ =>
      rintro rfl
      simp at hlen
  rcases operandsOf_cases p left with ⟨-, hl⟩ | ⟨ls, rfl, hl⟩ <;>
    rcases operandsOf_cases p right with ⟨-, hr⟩ | ⟨rs, rfl, hr⟩ <;> rw [hl, hr] at h
  · exact List.singleton_inj.1 h
  · exact absurd h.symm (hlen hright left)
  · exact absurd h (hlen hleft right)
  · rw [h]

/-- Behind the same operand, different normal queries make different combinations. -/
theorem combine_right_inj (hleft : left.Normal) (hright : right.Normal) :
    combine p q left = combine p q right ↔ left = right := by
  refine ⟨fun h => ?_, fun h => h ▸ rfl⟩
  simp only [combine, flatten, logic.injEq, List.flatMap_cons, List.flatMap_nil, List.append_nil,
    List.append_cancel_left_eq, true_and] at h
  exact eq_of_operandsOf_eq hleft hright h

end Query

namespace Series

variable {s : Series Query}

theorem normal_fromRight (hs : ∀ q ∈ s.members, q.Normal) : s.fromRight.Normal := by
  induction s with
  | last q => exact hs q List.mem_cons_self
  | link q p rest ih =>
    exact (hs q List.mem_cons_self).flatten (ih fun c hc => hs c (List.mem_cons_of_mem q hc)) p

theorem normal_grouped (hs : ∀ q ∈ s.members, q.Normal) : s.grouped.Normal := by
  refine .merge ?_ (List.cons_ne_nil _ _)
  intro q hq
  obtain ⟨run, hrun, rfl⟩ := List.mem_map.1 hq
  refine .merge (fun c hc => hs c ?_) (s.ne_nil_of_mem_runs run hrun)
  rw [← flatten_runs]
  exact List.mem_flatten_of_mem hrun hc

/-- Without "OR", all operands come under one "AND". -/
theorem grouped_of_one_run (h : s.otherRuns = []) : s.grouped = merge .and s.firstRun := by
  rw [grouped, runs, h]
  rfl

/-- With "OR", the runs are alternatives. -/
theorem operator?_grouped (h : s.otherRuns ≠ []) : s.grouped.operator? = some .or := by
  refine operator?_merge ?_
  simpa [runs, Nat.one_le_iff_ne_zero] using h

/-- Behind a first "AND" there may be no "OR" at all. -/
theorem pairwise_and_cons_iff {ps : List Connective} :
    (Connective.and :: ps).Pairwise (fun p q => p = .and → q = .and) ↔ ∀ p ∈ ps, p = .and := by
  rw [List.pairwise_cons]
  refine ⟨fun h p hp => h.1 p hp rfl, fun h => ⟨fun p hp _ => h p hp, ?_⟩⟩
  exact List.pairwise_of_forall_mem_list fun _ _ p hp _ => h p hp

/-- The two readings are the same exactly if no "OR" comes behind an "AND". -/
theorem fromRight_eq_grouped_iff (hs : ∀ q ∈ s.members, q.Normal) :
    s.fromRight = s.grouped ↔ s.connectives.Pairwise fun p q => p = .and → q = .and := by
  induction s with
  | last q => simp [fromRight, grouped, runs, firstRun, otherRuns, merge, connectives]
  | link q p rest ih =>
    have hrest : ∀ c ∈ rest.members, c.Normal := fun c hc => hs c (List.mem_cons_of_mem q hc)
    cases p with
    | or =>
      have hgrouped : (link q .or rest).grouped = combine .or q rest.grouped :=
        merge_cons (List.cons_ne_nil _ _)
      rw [fromRight, hgrouped, combine_right_inj (normal_fromRight hrest) (normal_grouped hrest),
        ih hrest]
      simp [connectives]
    | and =>
      rw [connectives, pairwise_and_cons_iff, ← otherRuns_eq_nil_iff]
      by_cases hone : rest.otherRuns = []
      · have hall := pairwise_and_cons_iff.2 (rest.otherRuns_eq_nil_iff.1 hone)
        have hsame := (ih hrest).2 hall.of_cons
        have hgrouped : (link q .and rest).grouped = merge .and (q :: rest.firstRun) :=
          grouped_of_one_run hone
        refine iff_of_true ?_ hone
        rw [fromRight, hsame, grouped_of_one_run hone, hgrouped]
        exact (merge_cons (rest.ne_nil_of_mem_runs _ List.mem_cons_self)).symm
      · -- Several runs are alternatives, but from the right the first operator comes last.
        refine iff_of_false (fun heq => ?_) hone
        have hor : (link q .and rest).grouped.operator? = some .or := operator?_grouped hone
        have hand : (link q .and rest).fromRight.operator? = some .and :=
          operator?_flatten (logic .and [q, rest.fromRight])
        rw [heq, hor] at hand
        contradiction

/-! ## Series of operands -/

variable {s : Series Operand}

theorem valid_toChain (h : ∀ o ∈ s.members, o.Valid) : s.toChain.Valid := by
  induction s with
  | last o => exact h o List.mem_cons_self
  | link o p rest ih =>
    exact ⟨h o List.mem_cons_self, trivial, ih fun o' ho => h o' (List.mem_cons_of_mem o ho)⟩

/-- A series is read from the right. -/
theorem value_toChain {value : Operand → Query}
    (h : ∀ o ∈ s.members, parse o.alone = .ok (value o)) :
    s.toChain.value = .ok (s.map value).fromRight := by
  induction s with
  | last o => exact h o List.mem_cons_self
  | link o p rest ih =>
    have hrest := ih fun o' ho => h o' (List.mem_cons_of_mem o ho)
    exact Chain.value_link (h o List.mem_cons_self) hrest

/-- A valid chain has the value of its operands combined from the right. -/
theorem parse_chain {ch : Chain} (h : ch.Valid) : parse ch.text = ch.value := by
  obtain ⟨q, hq, hfinds⟩ := h.exists_finds
  exact hfinds.parse.trans hq.symm

/-- Operands with one operator between them are merged. -/
theorem parse_run (p : Connective) {l : List α} {f : α → Operand} {g : α → Query} (hne : l ≠ [])
    (hvalid : ∀ a ∈ l, (f a).Valid) (hvalue : ∀ a ∈ l, parse (f a).alone = .ok (g a)) :
    parse ((Connector.operator p).text.intercalate (l.map fun a => (f a).text)) =
      .ok (merge p (l.map g)) := by
  obtain ⟨a, l, rfl⟩ := List.exists_cons_of_ne_nil hne
  obtain ⟨ha, hl⟩ := List.forall_mem_cons.1 hvalid
  have hrest : ∀ o ∈ l.map f, o.Valid := List.forall_mem_map.2 hl
  obtain ⟨qs, hqs, hrun⟩ := Chain.value_run p ha hrest
  have hvalues : List.Forall₂ (fun o q => parse o.alone = .ok q) ((a :: l).map f)
      ((a :: l).map g) := by
    rw [List.forall₂_map_left_iff, List.forall₂_map_right_iff, List.forall₂_same]
    exact hvalue
  have hunique : Relator.RightUnique fun (o : Operand) q => parse o.alone = .ok q :=
    fun o q q' hq hq' => Except.ok.inj (hq.symm.trans hq')
  have htext := Chain.text_run p (f a) (l.map f)
  rw [← List.map_cons, List.map_map] at htext
  rw [List.right_unique_forall₂' hunique hvalues hqs, ← hrun,
    ← parse_chain (Chain.valid_run p ha hrest), htext]
  rfl

section Values

variable {value : Operand → Query}

/-- A group is an operand with the values of its operands merged. -/
theorem valid_group {os : List Operand} (hne : os ≠ []) (hos : ∀ o ∈ os, o.Valid)
    (hvalue : ∀ o ∈ os, parse o.alone = .ok (value o)) :
    (group os).Valid ∧ parse (group os).alone = .ok (merge .and (os.map value)) := by
  match os, hne with
  | [o], _ =>
    obtain ⟨ho, -⟩ := List.forall_mem_cons.1 hos
    exact ⟨ho, hvalue o List.mem_cons_self⟩
  | o :: o' :: os, hne =>
    have hparse := parse_run .and hne hos hvalue
    exact ⟨exists_ofQuery_of_parse hparse, hparse⟩

/-- With parentheses around its runs, a series is read as the runs are grouped. -/
theorem parse_groupedText (hs : ∀ o ∈ s.members, o.Valid)
    (hvalue : ∀ o ∈ s.members, parse o.alone = .ok (value o)) :
    parse s.groupedText = .ok (s.map value).grouped := by
  have hgroup (os : List Operand) (hos : os ∈ s.runs) :
      (group os).Valid ∧ parse (group os).alone = .ok (merge .and (os.map value)) := by
    have hmem (o : Operand) (ho : o ∈ os) : o ∈ s.members :=
      s.flatten_runs ▸ List.mem_flatten_of_mem hos ho
    exact valid_group (s.ne_nil_of_mem_runs os hos) (fun o ho => hs o (hmem o ho)) fun o ho =>
      hvalue o (hmem o ho)
  rw [groupedText, grouped, runs_map, List.map_map]
  exact parse_run .or (List.cons_ne_nil _ _) (fun os hos => (hgroup os hos).1) fun os hos =>
    (hgroup os hos).2

end Values

/-- A series of operands is read from the right, and with its runs in parentheses it is read as the
alternatives between them. So the parentheses make no difference exactly if no "OR" comes behind an
"AND". -/
theorem parse_eq_grouped_iff (s : Series Operand) (hs : ∀ o ∈ s.members, o.Valid) :
    ∃ value : Operand → Query, (∀ o ∈ s.members, parse o.alone = .ok (value o)) ∧
      parse s.text = .ok (s.map value).fromRight ∧
      parse s.groupedText = .ok (s.map value).grouped ∧
      (parse s.text = parse s.groupedText ↔
        s.connectives.Pairwise fun p q => p = .and → q = .and) := by
  have hread (o : Operand) (ho : o ∈ s.members) : ∃ q, parse o.alone = .ok q := by
    obtain ⟨q, hq, -⟩ := (hs o ho).exists_finds
    exact ⟨q, hq⟩
  have : Nonempty Query := ⟨.text ""⟩
  choose! value hvalue using hread
  have htext : parse s.text = .ok (s.map value).fromRight :=
    (parse_chain (valid_toChain hs)).trans (value_toChain hvalue)
  have hgrouped := parse_groupedText hs hvalue
  refine ⟨value, hvalue, htext, hgrouped, ?_⟩
  have hnormal : ∀ q ∈ (s.map value).members, q.Normal := by
    rw [members_map]
    exact List.forall_mem_map.2 fun o ho => (canonical_of_parse (hvalue o ho)).normal
  rw [htext, hgrouped, Except.ok.injEq, fromRight_eq_grouped_iff hnormal, connectives_map]

/-- An "OR" before an "AND". -/
theorem parse_eq_grouped_or_and :
    let s := link (.word "a") .or (link (.simple "k" "v") .and (last (.paren "b c")))
    s.text = "a OR k:v AND (b c)" ∧ s.groupedText = "a OR (k:v AND (b c))" ∧
      (∀ o ∈ s.members, o.Valid) ∧ parse s.text = parse s.groupedText := by
  intro s
  have hparen : parse "b c" = .ok (.text "b c") := by decide +kernel
  have hword : (Operand.word "a").Valid := isIdentifier_letter (by decide)
  have hfilter : (Operand.simple "k" "v").Valid :=
    ⟨isIdentifier_letter (by decide), isIdentifier_letter (by decide)⟩
  have hgroup : (Operand.paren "b c").Valid := exists_ofQuery_of_parse hparen
  have hs : ∀ o ∈ s.members, o.Valid :=
    List.forall_mem_cons.2 ⟨hword, List.forall_mem_cons.2 ⟨hfilter,
      List.forall_mem_singleton.2 hgroup⟩⟩
  obtain ⟨value, -, -, -, hiff⟩ := parse_eq_grouped_iff s hs
  exact ⟨by decide, by decide, hs, hiff.2 (by decide)⟩

/-- An "OR" behind an "AND". -/
theorem parse_ne_grouped_and_or :
    let s := link (.word "a") .and (link (.word "b") .or (last (.word "c")))
    s.text = "a AND b OR c" ∧ s.groupedText = "(a AND b) OR c" ∧
      parse s.text = .ok (logic .and [.text "a", logic .or [.text "b", .text "c"]]) ∧
      parse s.groupedText = .ok (logic .or [logic .and [.text "a", .text "b"], .text "c"]) := by
  have htext : text (link (.word "a") .and (link (.word "b") .or (last (.word "c")))) =
      "a AND b OR c" := by decide
  have hgrouped : groupedText (link (.word "a") .and (link (.word "b") .or (last (.word "c")))) =
      "(a AND b) OR c" := by decide
  intro s
  rw [htext, hgrouped]
  exact ⟨rfl, rfl, by decide +kernel, by decide +kernel⟩

end Series

end SearchQuery
