import SearchQuery.Proofs.Reading.Operand
import SearchQuery.Proofs.Reading.Place
import SearchQuery.Proofs.Tree.Leaf

/-!
# Trees in a row

The children of a node and the leaves of a tree stand one after another in the text. Between two
places of a text, a row of trees with gaps between them takes up every character once.

## Main definitions

* `Cursor.Leads` — the characters from one place to another.
* `ParseTree.Row` — trees one after another between two places.

Main statements: `ParseTree.row_leaves` puts the rows of all nodes together, and
`ParseTree.Row.existsUnique_holds` finds the one tree that holds a character.
-/

namespace SearchQuery

open Text

/-! ## From place to place -/

namespace Cursor

/-- The characters `cs` lead from the place `c` to the place `d`. -/
structure Leads (c : Cursor) (cs : List Char) (d : Cursor) : Prop where
  rest : c.rest = cs ++ d.rest
  offset : d.offset = c.offset + byteCount cs

variable {c d e : Cursor} {cs ds : List Char} {s : String}

theorem leads_self (c : Cursor) : c.Leads [] c := ⟨rfl, rfl⟩

theorem Leads.trans (h : c.Leads cs d) (h' : d.Leads ds e) : c.Leads (cs ++ ds) e := by
  refine ⟨?_, ?_⟩
  · rw [h.rest, h'.rest, List.append_assoc]
  · rw [h'.offset, h.offset, byteCount_append, Nat.add_assoc]

theorem Leads.eq_upTo (h : c.Leads cs d) : cs = c.upTo d := (upTo_of_rest h.rest).symm

theorem Leads.offset_le (h : c.Leads cs d) : c.offset ≤ d.offset := by
  have := h.offset
  omega

/-- Characters take up bytes. -/
theorem Leads.offset_lt (h : c.Leads cs d) (hne : cs ≠ []) : c.offset < d.offset := by
  have hpos := byteCount_pos hne
  have := h.offset
  omega

/-- Of two places behind a third one, the later one is behind the earlier one. -/
theorem Leads.split (h : c.Leads cs d) (h' : c.Leads ds e) (hle : d.offset ≤ e.offset) :
    ∃ es, ds = cs ++ es ∧ d.Leads es e := by
  have hrest := h.rest.symm.trans h'.rest
  have hd := h.offset
  have he := h'.offset
  rcases List.append_eq_append_iff.1 hrest with ⟨es, rfl, hes⟩ | ⟨es, rfl, hes⟩
  · rw [byteCount_append] at he
    exact ⟨es, rfl, hes, by omega⟩
  · rw [byteCount_append] at hd
    obtain rfl : es = [] := byteCount_eq_zero_iff.1 (by omega)
    exact ⟨[], by simp, by simpa using hes.symm, by rw [byteCount_nil]; omega⟩

/-- Within a gap, the next character is a blank. -/
theorem Leads.isBlank (h : c.Leads cs d) (h' : c.Leads ds e) (hlt : d.offset < e.offset)
    (hgap : Blanks ds) {x : Char} {rest : List Char} (hx : d.rest = x :: rest) : isBlank x := by
  obtain ⟨es, rfl, hes⟩ := h.split h' (Nat.le_of_lt hlt)
  cases es with
  | nil =>
    have := hes.offset
    simp only [byteCount_nil] at this
    omega
  | cons y es =>
    obtain rfl : x = y := by
      have := hx.symm.trans hes.rest
      simpa using (List.cons.inj this).1
    exact hgap x (by simp)

theorem leads_advance (c : Cursor) (n : Nat) : c.Leads (c.rest.take n) (c.advance n) :=
  ⟨(List.take_append_drop n c.rest).symm, rfl⟩

theorem leads_skipWhile (p : Char → Bool) (c : Cursor) :
    c.Leads (c.rest.takeWhile p) (c.skipWhile p) := by
  have htake := List.prefix_iff_eq_take.1 (c.rest.takeWhile_prefix p)
  have hleads := leads_advance c (c.rest.takeWhile p).length
  rwa [← htake] at hleads

theorem leads_skipBlanks (c : Cursor) : ∃ gap, Blanks gap ∧ c.Leads gap c.skipBlanks :=
  ⟨_, fun _ => List.mem_takeWhile_imp, leads_skipWhile isBlank c⟩

theorem Leads.within (h : c.Leads cs d) (hc : c.Within s) : d.Within s := by
  have hd : c.advance cs.length = d := by
    obtain ⟨offset, rest⟩ := d
    obtain ⟨hrest, hoffset⟩ := h
    simp only at hrest hoffset
    simp [advance, hrest, hoffset]
  exact hd ▸ hc.advance cs.length

theorem Within.exists_leads (h : c.Within s) : ∃ front, (start s).Leads front c := by
  obtain ⟨n, rfl⟩ := h
  exact ⟨_, leads_advance (start s) n⟩

end Cursor

/-! ## From tree to tree -/

namespace ParseTree

def Holds (t : ParseTree) (offset : Nat) : Prop := t.span.1 ≤ offset ∧ offset < t.span.2

/-- The trees stand one after another between two places, each with its text, and the gaps before,
between and behind them satisfy `G`. -/
inductive Row (G : List Char → Prop) : Cursor → List ParseTree → Cursor → Prop where
  | nil {c d : Cursor} {gap : List Char} (hgap : G gap) (h : c.Leads gap d) : Row G c [] d
  | cons {c d : Cursor} {t : ParseTree} {ts : List ParseTree} {gap : List Char} (hgap : G gap)
    (h : c.Leads gap t.start) (ht : t.start.Leads t.text.toList t.stop)
    (hts : Row G t.stop ts d) : Row G c (t :: ts) d

namespace Row

variable {G G' : List Char → Prop} {c d e : Cursor} {ts us : List ParseTree}

theorem mono (h : Row G c ts d) (hG : ∀ gap, G gap → G' gap) : Row G' c ts d := by
  induction h with
  | nil hgap h => exact .nil (hG _ hgap) h
  | cons hgap h ht _ ih => exact .cons (hG _ hgap) h ht ih

theorem exists_leads (h : Row G c ts d) : ∃ cs, c.Leads cs d := by
  induction h with
  | nil _ h => exact ⟨_, h⟩
  | cons _ h ht _ ih =>
    obtain ⟨cs, hcs⟩ := ih
    exact ⟨_, h.trans (ht.trans hcs)⟩

/-- Blanks before a row belong to its first gap. -/
theorem behind {gap : List Char} (hgap : Blanks gap) (hc : c.Leads gap d)
    (h : Row Blanks d ts e) : Row Blanks c ts e := by
  have hblanks {gap' : List Char} (hgap' : Blanks gap') : Blanks (gap ++ gap') :=
    List.forall_mem_append.2 ⟨hgap, hgap'⟩
  cases h with
  | nil hgap' h => exact .nil (hblanks hgap') (hc.trans h)
  | cons hgap' h ht hts => exact .cons (hblanks hgap') (hc.trans h) ht hts

theorem append (h : Row Blanks c ts d) (h' : Row Blanks d us e) : Row Blanks c (ts ++ us) e := by
  induction h with
  | nil hgap h => exact h'.behind hgap h
  | cons hgap h ht _ ih => exact .cons hgap h ht (ih h')

/-- Trees in a row may be replaced by their leaves. -/
theorem flatMap_leaves (h : Row Blanks c ts d)
    (hleaves : ∀ t ∈ ts, Row Blanks t.start t.leaves t.stop) :
    Row Blanks c (ts.flatMap leaves) d := by
  induction h with
  | nil hgap h => exact .nil hgap h
  | @cons _ _ t ts _ hgap h _ _ ih =>
    rw [List.flatMap_cons]
    have hfirst := (hleaves t List.mem_cons_self).behind hgap h
    exact hfirst.append (ih fun u hu => hleaves u (List.mem_cons_of_mem t hu))

/-- But for the blanks, a row has the characters of its trees. -/
theorem filter_eq {cs : List Char} (h : Row Blanks c ts d) (hcs : c.Leads cs d) :
    cs.filter (fun x => !isBlank x) =
      ts.flatMap fun t => t.text.toList.filter fun x => !isBlank x := by
  have hgap {gap : List Char} (hgap : Blanks gap) : gap.filter (fun x => !isBlank x) = [] := by
    simpa using hgap
  induction h generalizing cs with
  | nil hblanks h =>
    rw [hcs.eq_upTo, ← h.eq_upTo, hgap hblanks, List.flatMap_nil]
  | cons hblanks h ht hts ih =>
    obtain ⟨ds, hds⟩ := hts.exists_leads
    have hfront := h.trans (ht.trans hds)
    rw [hcs.eq_upTo, ← hfront.eq_upTo, List.filter_append, List.filter_append, hgap hblanks,
      ih hds, List.nil_append, List.flatMap_cons]

/-- A row begins no earlier than its first gap. -/
theorem offset_le (h : Row G c ts d) : ∀ t ∈ ts, c.offset ≤ t.start.offset := by
  induction h with
  | nil _ _ => nofun
  | cons _ h ht _ ih =>
    intro u hu
    have hstart := h.offset_le
    have hstop := ht.offset_le
    rcases List.mem_cons.1 hu with rfl | hu
    · exact hstart
    · have := ih u hu
      omega

/-- Exactly one tree of a row holds a place before a character that is no blank. -/
theorem existsUnique_holds {cs : List Char} (h : Row Blanks c ts d) (he : c.Leads cs e)
    (hlt : e.offset < d.offset) {x : Char} {rest : List Char} (hrest : e.rest = x :: rest)
    (hx : isBlank x = false) : ∃! i : Nat, ∃ t, ts[i]? = some t ∧ t.Holds e.offset := by
  have hstart {c f : Cursor} {cs gap : List Char} (he : c.Leads cs e) (hf : c.Leads gap f)
      (hgap : Blanks gap) : f.offset ≤ e.offset := by
    by_contra hlt
    have := he.isBlank hf (by omega) hgap hrest
    simp [hx] at this
  induction h generalizing cs with
  | nil hgap h =>
    have := hstart he h hgap
    omega
  | @cons c d t ts gap hgap h ht hts ih =>
    by_cases hstop : e.offset < t.stop.offset
    · refine ⟨0, ⟨t, rfl, hstart he h hgap, hstop⟩, ?_⟩
      rintro (_ | i) ⟨u, hu, hholds⟩
      · rfl
      · have hle := hts.offset_le u (List.mem_of_getElem? hu)
        have hle' : u.start.offset ≤ e.offset := hholds.1
        omega
    · obtain ⟨es, -, hes⟩ := (h.trans ht).split he (by omega)
      obtain ⟨i, hi, hunique⟩ := ih hes hlt
      refine ⟨i + 1, hi, ?_⟩
      rintro (_ | j) ⟨u, hu, hholds⟩
      · obtain rfl := Option.some.inj hu
        exact absurd hholds.2 hstop
      · exact congrArg (· + 1) (hunique j ⟨u, hu, hholds⟩)

end Row

/-- The leaves of a tree stand in a row if the children of each node do. -/
theorem row_leaves {t : ParseTree}
    (htext : t.Everywhere fun n => n.start.Leads n.text.toList n.stop)
    (hrow : t.Everywhere fun n => n.children ≠ [] → Row Blanks n.start n.children n.stop) :
    Row Blanks t.start t.leaves t.stop := by
  induction t with
  | mk rule start stop children ih =>
    by_cases hnil : children = []
    · rw [leaves_of_nil hnil]
      have hend : Row Blanks stop [] stop := .nil blanks_nil stop.leads_self
      exact .cons blanks_nil (Cursor.leads_self _) htext.here hend
    · rw [leaves_of_ne_nil hnil]
      exact (hrow.here hnil).flatMap_leaves fun t ht => ih t ht (htext.child ht) (hrow.child ht)

end ParseTree

end SearchQuery
