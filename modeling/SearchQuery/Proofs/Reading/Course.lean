import Mathlib.Data.List.Perm.Subperm
import SearchQuery.Proofs.Reading.Memory
import SearchQuery.Proofs.Tree.Row

/-!
# The course of a reading

With a memory, the alternatives of a `LogicalExp` are tried at most once at each place. The memory
alone is not the reason, since a result is remembered only after the alternatives have been tried.
In the meantime the place is not met again, because whatever is asked for lies behind it.

So the recursion ends of itself. It is followed here without a bound on the places, and instead with
a bound on the number of readings that wait for one another, which is never reached.

## Main definitions

* `Economical.Event` — what happens with a `LogicalExp` while a text is read.
* `Economical.Course` — the state of a reading and its events so far.
* `Economical.traced` — the recognizer with a memory that keeps its events.

Main statement: `Economical.whole_traced`.
-/

namespace SearchQuery

open Recognizer Correspondence Text

/-! ## The loop over a quoted value -/

/-- An identifier has at least one byte. -/
theorem Cursor.offset_lt_of_word? {c d : Cursor} (h : c.word? = some d) : c.offset < d.offset := by
  have hlt := remaining_lt_of_word? h
  obtain ⟨-, rfl⟩ := word?_eq_some_iff.1 h
  have hleads := leads_skipWhile isNameChar c
  refine hleads.offset_lt fun hnil => ?_
  rw [hnil] at hleads
  exact absurd (congrArg List.length hleads.rest) (Nat.ne_of_gt hlt)

namespace Recognizer

/-- A quoted value after one more turn of the loop, if another identifier follows. -/
def longer? (string : ParseTree) : Option ParseTree :=
  let gap := string.stop.skipBlanks
  gap.word?.map fun d => .node .spaced string [.leaf .spaces string.stop gap, .leaf .ident gap d]

theorem offset_lt_of_longer? {string longer : ParseTree} (h : longer? string = some longer) :
    string.stop.offset < longer.stop.offset := by
  obtain ⟨d, hd, rfl⟩ := Option.map_eq_some_iff.1 h
  obtain ⟨gap, -, hgap⟩ := Cursor.leads_skipBlanks string.stop
  exact Nat.lt_of_le_of_lt hgap.offset_le (Cursor.offset_lt_of_word? hd)

/-- The loop goes on with a longer value or stops with the one it has. -/
theorem spacedTail_eq_longer {σ : Type} (note : Failure → σ → σ) (string : ParseTree) :
    spacedTail note string = match longer? string with
      | some longer => spacedTail note longer
      | none => miss note string.stop.skipBlanks (.described identDescription) <|> pure string := by
  rw [longer?]
  cases h : string.stop.skipBlanks.word? with
  | none => exact spacedTail_of_no_word h
  | some d => exact spacedTail_of_word? h

end Recognizer

namespace Economical

/-! ## Events -/

/-- What happens with a `LogicalExp` while a text is read. -/
inductive Event where
  /-- A `LogicalExp` is asked for at an offset. -/
  | asked (offset : Nat)
  /-- The result is not known, and the alternatives begin to be tried. -/
  | begun (offset : Nat)
  /-- The alternatives have been tried, and the result is remembered. -/
  | ended (offset : Nat)
  /-- The reading is given up, because too many others wait for it. -/
  | givenUp (offset : Nat)
deriving DecidableEq, Repr

namespace Event

def allBegun (events : List Event) : List Nat :=
  events.filterMap fun
    | begun x => some x
    | _ => none

/-- The offsets at which the alternatives are being tried, the innermost first. -/
def allOpen (events : List Event) : List Nat :=
  events.foldl (fun stack e => match e with
    | begun x => x :: stack
    | ended x => stack.erase x
    | _ => stack) []

def Allowed (before : List Event) : Event → Prop
  | asked x => ∀ y ∈ allOpen before, y < x
  | begun x => x ∉ allBegun before
  | ended x => (allOpen before).head? = some x
  | givenUp _ => False

def Orderly (events : List Event) : Prop := ∀ before e, before ++ [e] <+: events → Allowed before e

variable {events : List Event}

@[simp] theorem allBegun_concat (e : Event) :
    allBegun (events ++ [e]) = allBegun events ++ match e with
      | begun x => [x]
      | _ => [] := by
  cases e <;> simp [allBegun]

@[simp] theorem allOpen_concat (e : Event) :
    allOpen (events ++ [e]) = match e with
      | begun x => x :: allOpen events
      | ended x => (allOpen events).erase x
      | _ => allOpen events := by
  simp [allOpen]

/-- Wherever the alternatives are being tried, they have begun to be tried. -/
theorem allOpen_subset (events : List Event) : allOpen events ⊆ allBegun events := by
  induction events using List.reverseRecOn with
  | nil => exact fun _ h => h
  | append_singleton events e ih =>
    rw [allOpen_concat, allBegun_concat]
    cases e with
    | begun x => grind
    | ended x => grind
    | asked x => simpa using ih
    | givenUp x => simpa using ih

theorem orderly_nil : Orderly [] := by
  intro before e h
  simp at h

theorem orderly_concat {e : Event} :
    Orderly (events ++ [e]) ↔ Orderly events ∧ Allowed events e := by
  constructor
  · exact fun h => ⟨fun before e' he' => h before e' (he'.trans (List.prefix_append _ _)),
      h events e (List.prefix_refl _)⟩
  · rintro ⟨h, he⟩ before e' hprefix
    rcases List.prefix_concat_iff.1 hprefix with heq | hprefix
    · obtain ⟨rfl, rfl⟩ := List.append_singleton_inj.1 heq
      exact he
    · exact h before e' hprefix

/-- In an orderly course, the alternatives never begin to be tried twice at an offset. -/
theorem Orderly.nodup_allBegun (h : Orderly events) : (allBegun events).Nodup := by
  induction events using List.reverseRecOn with
  | nil => exact List.nodup_nil
  | append_singleton events e ih =>
    obtain ⟨hbefore, he⟩ := orderly_concat.1 h
    have hnodup := ih hbefore
    rw [allBegun_concat]
    cases e with
    | begun x => exact List.nodup_append.2 ⟨hnodup, by simp, by grind [Allowed]⟩
    | asked x => simpa using hnodup
    | ended x => simpa using hnodup
    | givenUp x => simpa using hnodup

/-- An orderly course is never given up. -/
theorem Orderly.givenUp_notMem (h : Orderly events) (x : Nat) : .givenUp x ∉ events := by
  intro hx
  obtain ⟨before, after, rfl⟩ := List.append_of_mem hx
  exact h before (.givenUp x) ⟨after, by simp⟩

end Event

/-! ## Readings with their events -/

/-- The state of a reading with a memory, and what has happened so far. -/
structure Course where
  state : Economical
  events : List Event

namespace Course

def note (f : Failure) (h : Course) : Course := { h with state := h.state.note f }

def add (h : Course) (e : Event) : Course := { h with events := h.events ++ [e] }

def finish (h : Course) (offset : Nat) (found : Option ParseTree) : Course :=
  add { h with state := h.state.remember offset found } (.ended offset)

@[simp] theorem state_add (h : Course) (e : Event) : (h.add e).state = h.state := rfl

@[simp] theorem events_add (h : Course) (e : Event) : (h.add e).events = h.events ++ [e] := rfl

@[simp] theorem events_finish (h : Course) (offset : Nat) (found : Option ParseTree) :
    (h.finish offset found).events = h.events ++ [.ended offset] := rfl

end Course

open Event

/-- Reads a `LogicalExp` that begins at `c` with a memory, wherever others are asked for, and keeps
the events. At most `depth` readings wait for one another. -/
def tracedAt : (depth : Nat) → (c : Cursor) → Attempt Course ParseTree
  | 0, c => .failAfter fun h => h.add (.givenUp c.offset)
  | depth + 1, c => fun h =>
    let h := h.add (.asked c.offset)
    match h.state.known[c.offset]? with
    | some found => (found, h)
    | none =>
      let (found, h) := Recognizer.logicalAlternatives ⟨Course.note, tracedAt depth⟩ c
        (h.add (.begun c.offset))
      (found, h.finish c.offset found)

def traced (depth : Nat) : Recognizer Course := ⟨Course.note, tracedAt depth⟩

/-- The reading with the state `st` has taken an orderly course so far, and the alternatives are
being tried at the offsets `stack`. Wherever they have begun to be tried before, the result is
known, and nothing else is. -/
structure Tidy (s : String) (stack : List Nat) (st : Economical) (h : Course) : Prop where
  state : h.state = st
  allOpen : allOpen h.events = stack
  orderly : Orderly h.events
  begun : ∀ x ∈ allBegun h.events, x ≤ byteCount s.toList ∧ (x ∈ stack ∨ x ∈ st.known)
  remembered : ∀ x ∈ st.known, x ∈ allBegun h.events
  known : ∀ (c : Cursor) (t : ParseTree), c.Within s → st.known[c.offset]? = some (some t) →
    t.stop.Within s ∧ t.stop.remaining < c.remaining

variable {s : String} {stack : List Nat} {st : Economical} {h : Course} {c : Cursor}

theorem tidy_initial (s : String) : Tidy s [] (initial s) ⟨initial s, []⟩ where
  state := rfl
  allOpen := rfl
  orderly := orderly_nil
  begun := nofun
  remembered x hx := by simp [initial] at hx
  known c t _ h := by simp [initial] at h

namespace Tidy

theorem note (hst : Tidy s stack st h) (f : Failure) : Tidy s stack (st.note f) (h.note f) :=
  ⟨congrArg (Economical.note f) hst.state, hst.allOpen, hst.orderly, hst.begun, hst.remembered,
    hst.known⟩

theorem asked (hst : Tidy s stack st h) {x : Nat} (hx : ∀ y ∈ stack, y < x) :
    Tidy s stack st (h.add (.asked x)) where
  state := hst.state
  allOpen := by simpa using hst.allOpen
  orderly := orderly_concat.2 ⟨hst.orderly, by simpa only [Allowed, hst.allOpen] using hx⟩
  begun := by simpa using hst.begun
  remembered := by simpa using hst.remembered
  known := hst.known

/-- Where nothing is known, the alternatives have not been tried before unless they are being tried
right now. -/
theorem begin (hst : Tidy s stack st h) (hc : c.Within s) (hstack : ∀ y ∈ stack, y < c.offset)
    (hknown : st.known[c.offset]? = none) :
    Tidy s (c.offset :: stack) st (h.add (.begun c.offset)) where
  state := hst.state
  allOpen := by simp [hst.allOpen]
  orderly := by
    refine orderly_concat.2 ⟨hst.orderly, fun hbegun => ?_⟩
    rcases (hst.begun _ hbegun).2 with hopen | hmem
    · exact absurd (hstack _ hopen) (Nat.lt_irrefl _)
    · rw [Std.TreeMap.mem_iff_isSome_getElem?, hknown] at hmem
      contradiction
  begun x hx := by
    have hoffset := hc.offset_add
    simp only [Course.events_add, allBegun_concat, List.mem_append, List.mem_singleton] at hx
    rcases hx with hx | rfl
    · obtain ⟨hle, hx⟩ := hst.begun x hx
      exact ⟨hle, hx.imp_left (List.mem_cons_of_mem _)⟩
    · exact ⟨by omega, .inl List.mem_cons_self⟩
  remembered x hx := by
    rw [Course.events_add, allBegun_concat]
    exact List.mem_append_left _ (hst.remembered x hx)
  known := hst.known

theorem finish (hst : Tidy s (c.offset :: stack) st h) (hc : c.Within s)
    {found : Option ParseTree}
    (hfound : ∀ t, found = some t → t.stop.Within s ∧ t.stop.remaining < c.remaining) :
    Tidy s stack (st.remember c.offset found) (h.finish c.offset found) where
  state := congrArg (fun st => remember st c.offset found) hst.state
  allOpen := by simp [hst.allOpen]
  orderly := orderly_concat.2 ⟨hst.orderly, by simp [Allowed, hst.allOpen]⟩
  begun x hx := by
    simp only [Course.events_finish, allBegun_concat, List.append_nil] at hx
    obtain ⟨hle, hx⟩ := hst.begun x hx
    refine ⟨hle, ?_⟩
    simp only [remember, Std.TreeMap.mem_insert]
    grind
  remembered x hx := by
    simp only [remember, Std.TreeMap.mem_insert, Nat.compare_eq_eq] at hx
    rw [Course.events_finish, allBegun_concat, List.append_nil]
    rcases hx with rfl | hx
    · exact allOpen_subset h.events (hst.allOpen ▸ List.mem_cons_self)
    · exact hst.remembered x hx
  known d t hd hknown := by
    simp only [remember, Std.TreeMap.getElem?_insert] at hknown
    split at hknown
    · next heq =>
      obtain rfl : c = d := hc.eq_of_offset hd (by simpa using heq)
      exact hfound t (Option.some.inj hknown)
    · exact hst.known d t hd hknown

end Tidy

/-! ## The course of a whole reading -/

/-- From a tidy state, reading a `LogicalExp` behind all places at which the alternatives are being
tried ends in a tidy state, within as many readings as there are characters left. -/
theorem tracedAt_follows {depth : Nat} (hc : c.Within s) (hdepth : c.remaining < depth)
    (hstack : ∀ y ∈ stack, y < c.offset) :
    (onward note Course.note (Tidy s stack) (Cursor.Within s) c).Follows (logicalAt c)
      (tracedAt depth c) := by
  induction depth generalizing c stack with
  | zero => omega
  | succ depth ih =>
    intro st h hst
    have hasked := hst.asked hstack
    obtain rfl : h.state = st := hst.state
    rw [logicalAt, tracedAt]
    simp only [Course.state_add]
    cases hknown : h.state.known[c.offset]? with
    | some found =>
      exact agree_onward_iff.2 ⟨rfl, hasked, fun t ht => hst.known c t hc (ht ▸ hknown)⟩
    | none =>
      -- While the alternatives are being tried, nothing is known at `c`, but it is on the stack.
      have hbehind (d : Cursor) (hlt : d.remaining < c.remaining) (hd : d.Within s) :
          (onward note Course.note (Tidy s (c.offset :: stack)) (Cursor.Within s) d).Follows
            (if d.remaining < c.remaining then logicalAt d else failure) (tracedAt depth d) := by
        have hoffset := (hc.offset_lt_iff hd).2 hlt
        rw [if_pos hlt]
        refine ih hd (by omega) fun y hy => ?_
        rcases List.mem_cons.1 hy with rfl | hy
        · exact hoffset
        · exact Nat.lt_trans (hstack y hy) hoffset
      have hround := onward_round (fun _ n hd => hd.advance n) (fun f _ _ _ hst => hst.note f) hc
        hbehind _ _ (hasked.begin hc hstack hknown)
      obtain ⟨hfound, htidy, hstop⟩ := agree_onward_iff.1 hround
      simp only [dite_eq_ite]
      refine agree_onward_iff.2 ⟨hfound, ?_, hstop⟩
      exact hfound ▸ htidy.finish hc hstop

/-- A whole reading takes a tidy course and finds what is found without events. -/
theorem whole_follows {depth : Nat} (hdepth : s.length < depth) :
    (same note Course.note (Tidy s []) (Cursor.Within s)).Follows (recognizer.whole (.start s))
      ((traced depth).whole (.start s)) := by
  refine same_whole (fun _ n hc => hc.advance n) (fun f _ _ _ hst => hst.note f) ?_
    (Cursor.within_start s)
  intro c hc st h hst
  have hlength : c.remaining ≤ s.length := hc.suffix.length_le
  obtain ⟨hfound, htidy, hstop⟩ := agree_onward_iff.1
    (tracedAt_follows hc (Nat.lt_of_le_of_lt hlength hdepth) (by simp) st h hst)
  exact agree_same_iff.2 ⟨hfound, htidy, fun t ht => (hstop t ht).1⟩

/-- The events of a reading of so many bytes that comes to an end, tries the alternatives at most
once at each place and goes on with later places only. -/
structure Sparing (bytes : Nat) (events : List Event) : Prop where
  /-- No reading is given up for want of depth. -/
  not_givenUp : ∀ x, .givenUp x ∉ events
  /-- Whatever has begun has ended. -/
  completed : allOpen events = []
  /-- At no offset do the alternatives begin to be tried twice. -/
  once : (allBegun events).Nodup
  length_le : (allBegun events).length ≤ bytes + 1
  /-- They do not begin to be tried where they are being tried. -/
  not_open : ∀ before x, before ++ [.begun x] <+: events → x ∉ allOpen before
  /-- Whatever is asked for while they are being tried lies behind the place. -/
  onward : ∀ before x, before ++ [.asked x] <+: events → ∀ y ∈ allOpen before, y < x

theorem Tidy.sparing (hst : Tidy s [] st h) : Sparing (byteCount s.toList) h.events where
  not_givenUp := hst.orderly.givenUp_notMem
  completed := hst.allOpen
  once := hst.orderly.nodup_allBegun
  length_le := by
    have hsubset : allBegun h.events ⊆ List.range (byteCount s.toList + 1) :=
      fun x hx => List.mem_range.2 (Nat.lt_succ_of_le (hst.begun x hx).1)
    simpa using (List.subperm_of_subset hst.orderly.nodup_allBegun hsubset).length_le
  not_open before x hx hopen := hst.orderly before (.begun x) hx (allOpen_subset before hopen)
  onward before x := hst.orderly before (.asked x)

/-- In the end, results are known for exactly the offsets at which the alternatives were tried. -/
theorem Tidy.mem_allBegun_iff (hst : Tidy s [] st h) (x : Nat) :
    x ∈ allBegun h.events ↔ x ∈ h.state.known := by
  rw [hst.state]
  refine ⟨fun hx => (hst.begun x hx).2.resolve_left (by simp), hst.remembered x⟩

/-- Reading a text with a memory comes to an end, although the recursion is not bound to later
places: at any time, at most one more reading is open than the text has characters. The alternatives
of a `LogicalExp` are tried at most once at each place, and whatever is asked for in the meantime
lies behind it. In the end the results of exactly these places are remembered. A turn of the loop
over a quoted value that goes on ends behind the one before. -/
theorem whole_traced (s : String) {depth : Nat} (hdepth : s.length < depth) :
    let outcome := (traced depth).whole (.start s) ⟨initial s, []⟩
    (outcome.1, outcome.2.state) = recognizer.whole (.start s) (initial s) ∧
      Sparing (byteCount s.toList) outcome.2.events ∧
      (∀ x, x ∈ allBegun outcome.2.events ↔ x ∈ outcome.2.state.known) ∧
      ∀ {σ : Type} (note : Failure → σ → σ) (string : ParseTree),
        (spacedTail note string = match longer? string with
          | some longer => spacedTail note longer
          | none =>
            miss note string.stop.skipBlanks (.described identDescription) <|> pure string) ∧
          ∀ longer, longer? string = some longer → string.stop.offset < longer.stop.offset := by
  intro outcome
  obtain ⟨hfound, htidy, -⟩ := agree_same_iff.1
    (whole_follows hdepth (initial s) ⟨initial s, []⟩ (tidy_initial s))
  refine ⟨Prod.ext hfound.symm htidy.state, htidy.sparing, htidy.mem_allBegun_iff,
    fun note string => ?_⟩
  exact ⟨spacedTail_eq_longer note string, fun _ => offset_lt_of_longer?⟩

/-- A reading that fails. Where the bracket stands and where the operator stands, a `LogicalExp` is
asked for again in the end, and both times the result is known. -/
theorem whole_traced_unclosed :
    "\"a\" AND (b".length < 11 ∧
      let outcome := (traced 11).whole (.start "\"a\" AND (b") ⟨initial "\"a\" AND (b", []⟩
      (outcome.1, outcome.2.state) =
          recognizer.whole (.start "\"a\" AND (b") (initial "\"a\" AND (b") ∧
        Sparing (byteCount "\"a\" AND (b".toList) outcome.2.events ∧
        (∀ x, x ∈ allBegun outcome.2.events ↔ x ∈ outcome.2.state.known) ∧
        allBegun outcome.2.events = [0, 1, 2, 4, 8, 9, 10] ∧
        outcome.2.events.drop 20 = [.asked 8, .asked 4, .ended 0] := by
  have hlength : "\"a\" AND (b".length < 11 := by decide
  obtain ⟨houtcome, hsparing, hbegun, -⟩ := whole_traced "\"a\" AND (b" hlength
  have hevents :
      ((traced 11).whole (.start "\"a\" AND (b") ⟨initial "\"a\" AND (b", []⟩).2.events =
        [.asked 0, .begun 0, .asked 1, .begun 1, .asked 2, .begun 2, .asked 4, .begun 4, .asked 8,
          .begun 8, .asked 9, .begun 9, .asked 10, .begun 10, .ended 10, .ended 9, .ended 8,
          .ended 4, .ended 2, .ended 1, .asked 8, .asked 4, .ended 0] := by decide +kernel
  exact ⟨hlength, houtcome, hsparing, hbegun, by rw [hevents]; rfl, by rw [hevents]; rfl⟩

end Economical

end SearchQuery
