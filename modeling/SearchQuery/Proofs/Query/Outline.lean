import SearchQuery.Proofs.Query.Nesting
import SearchQuery.Proofs.Text.Line
import SearchQuery.Proofs.Text.Quoted
import SearchQuery.Query.Outline

/-!
# What an outline shows

An outline has one line for each node, in the order of the query. The spaces before a line show how
deep its node lies, and the rest of the line shows the node itself. Together they show the whole
query, so different queries have different outlines.

## Main definitions

* `Query.preorder` — all nodes of a query with their depths.
* `Text.indentation` — the number of spaces a line begins with.

Main statement: `Query.outline_eq_iff`.
-/

namespace SearchQuery

def Text.indentation (line : List Char) : Nat := (line.takeWhile (· = ' ')).length

namespace Query

open Text

variable {a b q : Query} {depth : Nat} {xs ys : List String}

def preorder (q : Query) (depth : Nat) : List (Nat × Query) :=
  match q with
  | logic operator children =>
    (depth, logic operator children) :: children.flatMap fun child => preorder child (depth + 1)
  | q => [(depth, q)]
termination_by sizeOf q

/-! ## Lines -/

theorem outlineLines_eq (q : Query) (depth : Nat) : q.outlineLines depth =
    indented depth q.outlineHead :: q.children.flatMap (outlineLines · (depth + 1)) := by
  cases q <;> simp [outlineLines]

/-- Every node has a line of its own, indented by its depth. -/
theorem outlineLines_preorder (q : Query) (depth : Nat) :
    q.outlineLines depth = (q.preorder depth).map fun n => indented n.1 n.2.outlineHead := by
  induction q generalizing depth with
  | text value => simp [outlineLines, preorder]
  | keyword key value => simp [outlineLines, preorder]
  | logic operator children ih =>
    rw [outlineLines, preorder, List.map_cons, List.map_flatMap]
    congr 1
    exact List.flatMap_congr fun child hchild => ih child hchild (depth + 1)

/-- The line of a node begins with no space, so its indentation can be told from the rest. -/
theorem head?_outlineHead (q : Query) : q.outlineHead.toList.head? ≠ some ' ' := by
  cases q with
  | text value => simp [outlineHead]
  | keyword key value => simp [outlineHead]
  | logic operator children => cases operator <;> simp [outlineHead, heading]

theorem getLast?_indented (q : Query) (depth : Nat) :
    (indented depth q.outlineHead).toList.getLast? ≠ some '\r' := by
  cases q with
  | text value => simp [indented, outlineHead, List.getLast?_append, List.getLast?_cons]
  | keyword key value => simp [indented, outlineHead, List.getLast?_append, List.getLast?_cons]
  | logic operator children => cases operator <;> simp [indented, outlineHead, heading]

/-- There are no line ends within the line of a node. -/
theorem newline_notMem_outlineHead (q : Query) : '\n' ∉ q.outlineHead.toList := by
  cases q with
  | text value => simp [outlineHead, newline_notMem_quoted]
  | keyword key value => simp [outlineHead, newline_notMem_quoted]
  | logic operator children => cases operator <;> simp [outlineHead, heading]

/-- No line begins with a space of its own, so the spaces before it show its depth. -/
theorem indentation_indented (q : Query) (depth : Nat) :
    indentation (indented depth q.outlineHead).toList = 2 * depth := by
  have hhead : q.outlineHead.toList.takeWhile (· = ' ') = [] := by
    have := q.head?_outlineHead
    cases h : q.outlineHead.toList <;> simp_all
  rw [indented, String.toList_append, String.toList_ofList, indentation,
    List.takeWhile_append_of_pos (by simp), hhead]
  simp

/-- The lines of an outline are what was written as such. -/
theorem lines_outline (q : Query) :
    lines q.outline.toList = (q.outlineLines 0).map String.toList := by
  have htext : q.outline.toList = ((q.outlineLines 0).map String.toList).flatMap (· ++ ['\n']) := by
    simp [outline, String.toList_join, List.flatMap_map]
  rw [htext, lines_flatMap, List.map_map]
  · refine List.map_congr_left fun line hline => dropReturn_of_ne ?_
    rw [outlineLines_preorder] at hline
    obtain ⟨n, -, rfl⟩ := List.mem_map.1 hline
    exact getLast?_indented n.2 n.1
  · rw [outlineLines_preorder, List.map_map]
    intro row hrow
    obtain ⟨n, -, rfl⟩ := List.mem_map.1 hrow
    simp [indented, newline_notMem_outlineHead]

/-! ## Reading an outline back -/

/-- The line of a node shows all of it but what is below. -/
theorem eq_of_outlineHead (h : a.outlineHead = b.outlineHead)
    (hchildren : a.children = b.children) : a = b := by
  have hlists := congrArg String.toList h
  cases a with
  | text value =>
    cases b with
    | text value' =>
      have hquoted : (quoted value).toList ++ [')'] = (quoted value').toList ++ [')'] := by
        simpa [outlineHead] using hlists
      rw [(quoted_append_inj hquoted).1]
    | keyword key' value' => simp [outlineHead] at hlists
    | logic operator' children' => cases operator' <;> simp [outlineHead, heading] at hlists
  | keyword key value =>
    cases b with
    | text value' => simp [outlineHead] at hlists
    | keyword key' value' =>
      have hquoted : (quoted key).toList ++ (',' :: ' ' :: ((quoted value).toList ++ [')'])) =
          (quoted key').toList ++ (',' :: ' ' :: ((quoted value').toList ++ [')'])) := by
        simpa [outlineHead] using hlists
      obtain ⟨rfl, hrest⟩ := quoted_append_inj hquoted
      have hvalue : (quoted value).toList ++ [')'] = (quoted value').toList ++ [')'] := by
        simpa using hrest
      rw [(quoted_append_inj hvalue).1]
    | logic operator' children' => cases operator' <;> simp [outlineHead, heading] at hlists
  | logic operator children =>
    obtain rfl : children = b.children := hchildren
    cases b with
    | text value' => cases operator <;> simp [outlineHead, heading] at hlists
    | keyword key' value' => cases operator <;> simp [outlineHead, heading] at hlists
    | logic operator' children' =>
      cases operator <;> cases operator' <;> simp_all [outlineHead, heading]

/-- The first of the lines, if there are any, lies no deeper than `depth`. -/
def Shallow (depth : Nat) (lines : List String) : Prop :=
  ∀ line ∈ lines.head?, indentation line.toList ≤ 2 * depth

def ShowsItself (q : Query) : Prop :=
  ∀ depth other xs ys, Shallow depth xs → Shallow depth ys →
    q.outlineLines depth ++ xs = other.outlineLines depth ++ ys → q = other ∧ xs = ys

theorem shallow_cons_iff (q : Query) (depth : Nat) (qs : List Query) (limit : Nat) :
    Shallow limit ((q :: qs).flatMap (outlineLines · depth) ++ xs) ↔ depth ≤ limit := by
  rw [List.flatMap_cons, outlineLines_eq, ← Nat.mul_le_mul_left_iff (Nat.zero_lt_two)]
  simp [Shallow, indentation_indented]

theorem shallow_flatMap (hxs : Shallow depth xs) (qs : List Query) :
    Shallow (depth + 1) (qs.flatMap (outlineLines · (depth + 1)) ++ xs) := by
  cases qs with
  | nil => exact fun line hline => (hxs line hline).trans (by omega)
  | cons q qs => exact (shallow_cons_iff q _ qs _).2 le_rfl

/-- Lines of children end where a line is not deeper than the parent. -/
theorem flatMap_outlineLines_inj {qs others : List Query} (hqs : ∀ q ∈ qs, q.ShowsItself)
    (hxs : Shallow depth xs) (hys : Shallow depth ys)
    (h : qs.flatMap (outlineLines · (depth + 1)) ++ xs =
      others.flatMap (outlineLines · (depth + 1)) ++ ys) : qs = others ∧ xs = ys := by
  induction qs generalizing others with
  | nil =>
    cases others with
    | nil => exact ⟨rfl, h⟩
    | cons other others =>
      rw [List.flatMap_nil, List.nil_append] at h
      have := (shallow_cons_iff other _ others _).1 (h ▸ hxs)
      omega
  | cons q qs ih =>
    cases others with
    | nil =>
      rw [List.flatMap_nil, List.nil_append] at h
      have := (shallow_cons_iff q _ qs _).1 (h ▸ hys)
      omega
    | cons other others =>
      obtain ⟨hq, hqs⟩ := List.forall_mem_cons.1 hqs
      rw [List.flatMap_cons, List.append_assoc, List.flatMap_cons, List.append_assoc] at h
      obtain ⟨rfl, hrest⟩ :=
        hq _ _ _ _ (shallow_flatMap hxs qs) (shallow_flatMap hys others) h
      obtain ⟨rfl, rfl⟩ := ih hqs hrest
      exact ⟨rfl, rfl⟩

theorem showsItself_of_children (h : ∀ child ∈ q.children, child.ShowsItself) : q.ShowsItself := by
  intro depth other xs ys hxs hys hlines
  rw [outlineLines_eq, outlineLines_eq, List.cons_append, List.cons_append] at hlines
  obtain ⟨hline, hrest⟩ := List.cons.inj hlines
  have hhead : q.outlineHead = other.outlineHead := by
    simpa [indented] using hline
  obtain ⟨hchildren, rfl⟩ := flatMap_outlineLines_inj h hxs hys hrest
  exact ⟨eq_of_outlineHead hhead hchildren, rfl⟩

/-- The lines of every query show which query it is. -/
theorem showsItself (q : Query) : q.ShowsItself := by
  induction q with
  | text value => exact showsItself_of_children (by simp)
  | keyword key value => exact showsItself_of_children (by simp)
  | logic operator children ih => exact showsItself_of_children ih

/-- Different queries have different outlines. -/
theorem eq_of_outline (h : a.outline = b.outline) : a = b := by
  have hlines : a.outlineLines 0 = b.outlineLines 0 := by
    have hlists := congrArg (fun s => lines s.toList) h
    simp only [lines_outline] at hlists
    exact List.map_injective_iff.2 (fun _ _ => String.toList_inj.1) hlists
  exact (a.showsItself 0 b [] [] nofun nofun (congrArg (· ++ []) hlines)).1

/-- Different queries have different outlines. An outline has one line for each node, in order, and
twice as many spaces before it as the node is deep. -/
theorem outline_eq_iff (a b : Query) : (a.outline = b.outline ↔ a = b) ∧
    (lines a.outline.toList).map indentation = (a.preorder 0).map fun n => 2 * n.1 := by
  refine ⟨⟨eq_of_outline, congrArg outline⟩, ?_⟩
  rw [lines_outline, outlineLines_preorder, List.map_map, List.map_map]
  exact List.map_congr_left fun n _ => indentation_indented n.2 n.1

end Query

end SearchQuery
