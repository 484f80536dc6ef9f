import SearchQuery.Proofs.Reading.Fit

/-!
# Other texts behind a place

Whatever was looked for behind some front, the front is read in the same way before another text,
as long as nothing that was looked for in vain begins that text. In the comparison the left reading
is lost as soon as it looks beyond the front for anything more, or misses something there that the
other text would offer.

## Main definitions

* `Text.Joins` — a text behind which no item of the front goes on.
* `Correspondence.replaced` — readings of one front before two texts.
-/

namespace SearchQuery

open Recognizer Text

namespace Text

/-- In the place of `rs`, the text `ws` completes nothing that begins before it: it begins with a
blank or with the same character, which is not a letter. -/
def Joins (rs ws : List Char) : Prop :=
  ∀ x ∈ ws.head?, isBlank x = false → x ∈ rs.head? ∧ isLetter x = false

theorem joins_blank {x : Char} (hx : isBlank x) (rs ws : List Char) : Joins rs (x :: ws) := by
  intro y hy hblank
  obtain rfl := Option.some.inj hy
  rw [hx] at hblank
  contradiction

theorem joins_head {x : Char} (hx : isLetter x = false) (rs ws : List Char) :
    Joins (x :: rs) (x :: ws) := by
  intro y hy _
  obtain rfl := Option.some.inj hy
  exact ⟨rfl, hx⟩

/-- What is no longer than the front depends on the front alone. -/
theorem prefix_append_of_length_le {l zs rs : List Char} (h : l <+: zs ++ rs)
    (hlen : l.length ≤ zs.length) (ws : List Char) : l <+: zs ++ ws := by
  have hfront := List.prefix_of_prefix_length_le h (List.prefix_append zs rs) hlen
  exact hfront.trans (List.prefix_append zs ws)

/-- A fixed text that goes on behind the front before `ws` is there before `rs` as well. -/
theorem Joins.literal {rs ws zs : List Char} (h : Joins rs ws) {l : String} (hl : l ∈ literals)
    (hzs : zs ≠ []) (hlen : zs.length < l.length) (hws : l.toList <+: zs ++ ws) :
    l.toList <+: zs ++ rs := by
  have hmarks : ∀ l ∈ literals, ∀ x ∈ l.toList.drop 1, isBlank x = false ∧
      (l.toList.length = 2 ∨ x.isAlpha) := by simp [literals, isBlank]
  rw [← String.length_toList] at hlen
  have hfront := List.prefix_of_prefix_length_le (List.prefix_append zs ws) hws (Nat.le_of_lt hlen)
  obtain ⟨back, hback⟩ := hfront
  rw [← hback, List.prefix_append_right_inj] at hws
  obtain ⟨z, zs', rfl⟩ := List.exists_cons_of_ne_nil hzs
  cases back with
  | nil =>
    have := congrArg List.length hback
    simp at this hlen
    omega
  | cons x back =>
    obtain ⟨es, rfl⟩ := hws
    obtain ⟨hblank, htwo⟩ := hmarks l hl x (by simp [← hback])
    obtain ⟨hx, hletter⟩ := h x rfl hblank
    have hlength : l.toList.length = 2 := by
      refine htwo.resolve_right fun halpha => ?_
      simp [isLetter, halpha] at hletter
    simp only [← hback, List.length_append, List.length_cons] at hlength
    obtain rfl : back = [] := List.length_eq_zero_iff.1 (by omega)
    obtain ⟨rs', rfl⟩ := List.head?_eq_some_iff.1 hx
    rw [← hback, List.prefix_append_right_inj]
    exact List.prefix_append [x] rs'

/-- If no identifier goes on with `rs`, none goes on with `ws`. -/
theorem Joins.endsName {rs ws : List Char} (h : Joins rs ws) (hrs : EndsName rs) :
    EndsName ws := by
  intro x hx
  cases hblank : isBlank x with
  | true => exact not_isNameChar_of_isBlank hblank
  | false => exact hrs x (h x hx hblank).1

theorem dropWhile_append_of_endsName {zs cs : List Char}
    (h : zs.dropWhile isNameChar = [] → EndsName cs) :
    (zs ++ cs).dropWhile isNameChar = zs.dropWhile isNameChar ++ cs := by
  rw [List.dropWhile_append]
  split
  · next hempty =>
    rw [List.isEmpty_iff] at hempty
    rw [(h hempty).dropWhile_eq, hempty, List.nil_append]
  · rfl

end Text

namespace Correspondence

def replaced (rs ws : List Char) : Correspondence (List Failure) Unit where
  noteLeft f log := log ++ [f]
  noteRight _ _ := ()
  states _ _ := True
  places c d := (∃ zs, c.rest = zs ++ rs ∧ d.rest = zs ++ ws) ∨
    (c.rest = rs ∧ d.rest = afterBlanks ws)
  facing c d := (∃ zs, zs ≠ [] ∧ c.rest = zs ++ rs ∧ d.rest = zs ++ ws) ∨
    (c.rest = rs ∧ d.rest = afterBlanks ws)
  trees a b := (∃ zs, a.stop.rest = zs ++ rs ∧ b.stop.rest = zs ++ ws) ∨
    (a.stop.rest = rs ∧ b.stop.rest = afterBlanks ws)
  lost log := ∃ f ∈ log, f.place.remaining < rs.length ∨
    f.place.remaining = rs.length ∧ f.expected.Heads (afterBlanks ws)
  edge := rs.length

variable {rs ws : List Char}

theorem replaced_skip (hrs : afterBlanks rs = rs) {c d : Cursor}
    (h : (replaced rs ws).places c d) :
    (replaced rs ws).facing c.skipBlanks d.skipBlanks := by
  have hrest (c : Cursor) : c.skipBlanks.rest = afterBlanks c.rest := Cursor.rest_skipBlanks c
  rcases h with ⟨zs, hc, hd⟩ | ⟨hc, hd⟩
  · by_cases hzs : afterBlanks zs = []
    · right
      obtain ⟨gap, hgap, hgap'⟩ := exists_blanks zs
      rw [hzs, List.append_nil] at hgap'
      rw [hrest, hrest, hc, hd, hgap', afterBlanks_append hgap, afterBlanks_append hgap]
      exact ⟨hrs, rfl⟩
    · left
      refine ⟨afterBlanks zs, hzs, ?_, ?_⟩
      · rw [hrest, hc, afterBlanks_append_of_ne hzs]
      · rw [hrest, hd, afterBlanks_append_of_ne hzs]
  · right
    rw [hrest, hrest, hc, hd, afterBlanks_afterBlanks]
    exact ⟨hrs, rfl⟩

theorem agree_miss {c d : Cursor} {e : Expected} {log : List Failure} :
    (replaced rs ws).Agree (miss (replaced rs ws).noteLeft c e log)
      (miss (replaced rs ws).noteRight d e ()) :=
  .none trivial

/-- A fixed text that is found within the front is found before the other text. -/
theorem replaced_found_literal {l : String} (hpos : 0 < l.length) {c d : Cursor}
    (h : (replaced rs ws).facing c d) (hc : l.toList <+: c.rest)
    (hlen : rs.length ≤ (c.advance l.length).remaining) :
    l.toList <+: d.rest ∧ (replaced rs ws).trees (.leaf .terminal c (c.advance l.length))
      (.leaf .terminal d (d.advance l.length)) := by
  have hle := hc.length_le
  rw [String.length_toList] at hle
  rw [Cursor.remaining_advance, Cursor.remaining] at hlen
  rcases h with ⟨zs, -, hcs, hds⟩ | ⟨hcs, -⟩
  · rw [hcs, List.length_append] at hlen hle
    have hfront : l.length ≤ zs.length := by omega
    refine ⟨?_, .inl ⟨zs.drop l.length, ?_, ?_⟩⟩
    · rw [hcs] at hc
      rw [hds]
      exact prefix_append_of_length_le hc (String.length_toList ▸ hfront) ws
    · change c.rest.drop l.length = _
      rw [hcs, List.drop_append_of_le_length hfront]
    · change d.rest.drop l.length = _
      rw [hds, List.drop_append_of_le_length hfront]
  · rw [hcs] at hlen hle
    omega

/-- A fixed text that is found before the other text only is missed right behind the front. -/
theorem replaced_missed_literal (hjoins : Joins rs ws) {l : String} (hl : l ∈ literals)
    {c d : Cursor} (h : (replaced rs ws).facing c d) (hc : ¬ l.toList <+: c.rest)
    (hd : l.toList <+: d.rest) :
    c.remaining = rs.length ∧ (Expected.literal l).Heads (afterBlanks ws) := by
  rcases h with ⟨zs, hzs, hcs, hds⟩ | ⟨hcs, hds⟩
  · rw [hcs] at hc
    rw [hds] at hd
    refine absurd ?_ hc
    rcases Nat.lt_or_ge zs.length l.length with hlen | hlen
    · exact hjoins.literal hl hzs hlen hd
    · exact prefix_append_of_length_le hd (String.length_toList ▸ hlen) rs
  · exact ⟨congrArg List.length hcs, hds ▸ hd⟩

theorem replaced_literal (hjoins : Joins rs ws) {l : String} (hl : l ∈ literals) {c d : Cursor}
    (h : (replaced rs ws).facing c d) :
    (replaced rs ws).Follows (Recognizer.literal (replaced rs ws).noteLeft l c)
      (Recognizer.literal (replaced rs ws).noteRight l d) := by
  rintro log ⟨⟩ -
  have hpos : 0 < l.length := by
    revert l
    decide
  by_cases hc : l.toList <+: c.rest
  · rw [literal_of_some _ (Cursor.literal?_eq_some_iff.2 ⟨hc, rfl⟩)]
    rcases Nat.lt_or_ge (c.advance l.length).remaining rs.length with hpast | hlen
    · exact .gone (.past hpast)
    obtain ⟨hd, htrees⟩ := replaced_found_literal hpos h hc hlen
    rw [literal_of_some _ (Cursor.literal?_eq_some_iff.2 ⟨hd, rfl⟩)]
    exact .some htrees trivial
  · rw [literal_of_none _ (Cursor.literal?_eq_none_iff.2 hc)]
    by_cases hd : l.toList <+: d.rest
    · have hmissed := replaced_missed_literal hjoins hl h hc hd
      exact .gone (.lost ⟨⟨c, .literal l⟩, List.mem_concat_self, .inr hmissed⟩)
    · rw [literal_of_none _ (Cursor.literal?_eq_none_iff.2 hd)]
      exact agree_miss

/-- An identifier that is found within the front is found before the other text. -/
theorem replaced_found_ident (hjoins : Joins rs ws) {c d : Cursor}
    (h : (replaced rs ws).facing c d) {x : Char} {xs : List Char} (hc : c.rest = x :: xs)
    (hx : isLetter x) (hlen : rs.length ≤ (c.skipWhile isNameChar).remaining) :
    (∃ ys, d.rest = x :: ys) ∧
      (replaced rs ws).trees (.leaf .ident c (c.skipWhile isNameChar))
        (.leaf .ident d (d.skipWhile isNameChar)) := by
  rw [Cursor.remaining, Cursor.rest_skipWhile] at hlen
  rcases h with ⟨zs, hzs, hcs, hds⟩ | ⟨hcs, -⟩
  · obtain ⟨z, zs, rfl⟩ := List.exists_cons_of_ne_nil hzs
    obtain rfl : x = z := (List.cons.inj (hc.symm.trans hcs)).1
    -- An identifier that ends with the front does not go on behind it.
    have hends : (x :: zs).dropWhile isNameChar = [] → EndsName rs := by
      intro hempty
      rw [hcs, List.dropWhile_append, hempty, List.isEmpty_nil, if_pos rfl] at hlen
      have hsuffix := List.dropWhile_suffix isNameChar (l := rs)
      rw [← hsuffix.eq_of_length_le hlen]
      exact endsName_dropWhile rs
    refine ⟨⟨zs ++ ws, hds⟩, .inl ⟨(x :: zs).dropWhile isNameChar, ?_, ?_⟩⟩
    · change (c.skipWhile isNameChar).rest = _
      rw [Cursor.rest_skipWhile, hcs, dropWhile_append_of_endsName hends]
    · change (d.skipWhile isNameChar).rest = _
      rw [Cursor.rest_skipWhile, hds,
        dropWhile_append_of_endsName fun h => hjoins.endsName (hends h)]
  · have hle := (List.dropWhile_suffix isNameChar (l := xs)).length_le
    rw [← hcs, hc, List.dropWhile_cons_of_pos (isNameChar_of_isLetter hx), List.length_cons] at hlen
    omega

/-- An identifier that is found before the other text only is missed right behind the front. -/
theorem replaced_missed_ident {c d : Cursor} (h : (replaced rs ws).facing c d)
    (hc : c.word? = none) {y : Char} {ys : List Char} (hd : d.rest = y :: ys) (hy : isLetter y) :
    c.remaining = rs.length ∧ (Expected.described identDescription).Heads (afterBlanks ws) := by
  rcases h with ⟨zs, hzs, hcs, hds⟩ | ⟨hcs, hds⟩
  · obtain ⟨z, zs, rfl⟩ := List.exists_cons_of_ne_nil hzs
    obtain rfl : y = z := (List.cons.inj (hd.symm.trans hds)).1
    have hletter := Cursor.word?_eq_none_iff.1 hc y (by rw [hcs]; rfl)
    rw [hy] at hletter
    contradiction
  · exact ⟨congrArg List.length hcs, y, by rw [← hds, hd]; rfl, hy⟩

theorem replaced_ident (hjoins : Joins rs ws) {c d : Cursor}
    (h : (replaced rs ws).facing c d) :
    (replaced rs ws).Follows (Recognizer.ident (replaced rs ws).noteLeft c)
      (Recognizer.ident (replaced rs ws).noteRight d) := by
  rintro log ⟨⟩ -
  cases hc : c.word? with
  | some e =>
    rw [ident_of_some _ hc]
    obtain ⟨⟨x, xs, hx, hletter⟩, rfl⟩ := Cursor.word?_eq_some_iff.1 hc
    rcases Nat.lt_or_ge (c.skipWhile isNameChar).remaining rs.length with hpast | hlen
    · exact .gone (.past hpast)
    obtain ⟨⟨ys, hy⟩, htrees⟩ := replaced_found_ident hjoins h hx hletter hlen
    rw [ident_of_some _ (Cursor.word?_eq_some_iff.2 ⟨⟨x, ys, hy, hletter⟩, rfl⟩)]
    exact .some htrees trivial
  | none =>
    rw [ident_of_none _ hc]
    cases hd : d.word? with
    | some e =>
      obtain ⟨⟨y, ys, hy, hletter⟩, -⟩ := Cursor.word?_eq_some_iff.1 hd
      have hmissed := replaced_missed_ident h hc hy hletter
      exact .gone (.lost ⟨⟨c, .described identDescription⟩, List.mem_concat_self, .inr hmissed⟩)
    | none =>
      rw [ident_of_none _ hd]
      exact agree_miss

theorem replaced_lawful (hrs : afterBlanks rs = rs) (hjoins : Joins rs ws) :
    (replaced rs ws).Lawful where
  lost_note f log h := by
    obtain ⟨g, hg, hlost⟩ := h
    exact ⟨g, List.mem_append_left _ hg, hlost⟩
  lost_note_of_past f log h := ⟨f, List.mem_concat_self, .inl h⟩
  skip := replaced_skip hrs
  stop h := h
  node _ hab h := forall₂_getLastD hab h
  spaces {c d} h := by
    rcases replaced_skip hrs h with ⟨zs, -, hzs⟩ | h
    · exact .inl ⟨zs, hzs⟩
    · exact .inr h
  literal hl h := replaced_literal hjoins hl h
  ident h := replaced_ident hjoins h
  order {c c' d d'} h h' := by
    have hle := (List.dropWhile_suffix isBlank (l := ws)).length_le
    change (afterBlanks ws).length ≤ ws.length at hle
    unfold Cursor.remaining
    rcases h with ⟨zs, hzs, hc, hc'⟩ | ⟨hc, hc'⟩
    · have := List.length_pos_iff.2 hzs
      rcases h' with ⟨zs', hzs', hd, hd'⟩ | ⟨hd, hd'⟩ <;>
        simp only [hc, hc', hd, hd', List.length_append] <;> omega
    · rcases h' with ⟨zs', hzs', hd, hd'⟩ | ⟨hd, hd'⟩
      · simp only [hc, hc', hd, hd', List.length_append]
        omega
      · rw [hc, hc', hd, hd']
        simp
  edge_le {c d} h := by
    rcases h with ⟨zs, -, hc, -⟩ | ⟨hc, -⟩
    · simp [Cursor.remaining, hc, replaced]
    · exact Nat.le_of_eq (congrArg List.length hc).symm

end Correspondence

/-- If a front fails before `rs`, where nothing that was looked for begins `ws`, then it fails
before `ws` as well. -/
theorem Exhaustive.whole_elsewhere {us rs ws : List Char} {c : Cursor} {log : List Failure}
    (h : recognizer.whole c [] = (none, log)) (hc : c.rest = us ++ rs)
    (hrs : afterBlanks rs = rs) (hjoins : Joins rs ws)
    (hfar : ∀ f ∈ log, rs.length ≤ f.place.remaining)
    (hmissed : ∀ f ∈ log, f.place.remaining = rs.length → ¬ f.expected.Heads (afterBlanks ws))
    {es : List Char} (hes : afterExp (us ++ ws) = some es) : afterBlanks es ≠ [] := by
  have hfollows : (Correspondence.replaced rs ws).Follows (recognizer.exp c)
      (silent.exp ⟨0, us ++ ws⟩) :=
    (Correspondence.replaced_lawful hrs hjoins).exp_follows
      (fun _ _ => (Correspondence.replaced_lawful hrs hjoins).afresh_logicalExp_follows)
      (.inl ⟨us, hc, rfl⟩)
  have hagree := hfollows [] () trivial
  have hread : (silent.exp ⟨0, us ++ ws⟩ ()).1.map (·.stop.rest) = some es :=
    (rest_exp silent.note ⟨0, us ++ ws⟩ ()).trans hes
  have hnotlost (log' : List Failure) (hsub : ∀ f ∈ log', f ∈ log) :
      ¬ (Correspondence.replaced rs ws).lost log' := by
    rintro ⟨f, hf, hpast | ⟨hedge, hheads⟩⟩
    · exact absurd hpast (Nat.not_lt.2 (hfar f (hsub f hf)))
    · exact hmissed f (hsub f hf) hedge hheads
  rw [whole, Attempt.bind_apply] at h
  rcases hexp : recognizer.exp c [] with ⟨_ | root, log'⟩ <;> rw [hexp] at h hagree
  · obtain rfl : log' = log := congrArg Prod.snd h
    generalize silent.exp ⟨0, us ++ ws⟩ () = q at hagree hread
    cases hagree with
    | none _ => simp at hread
    | gone h =>
      cases h with
      | lost h => exact absurd h (hnotlost log' fun _ => id)
  · dsimp only at h
    split at h
    · simp at h
    next hend =>
    obtain rfl : log' ++ [⟨root.stop.skipBlanks, .endOfInput⟩] = log := congrArg Prod.snd h
    have hstop := hfar _ List.mem_concat_self
    have hle := Cursor.remaining_skipBlanks_le root.stop
    generalize silent.exp ⟨0, us ++ ws⟩ () = q at hagree hread
    cases hagree with
    | gone h =>
      cases h with
      | lost h => exact absurd h (hnotlost log' fun _ => List.mem_append_left _)
      | past h => exact absurd (Nat.lt_of_le_of_lt hle h) (Nat.not_lt.2 hstop)
    | @some _ b _ _ hab _ =>
      obtain rfl : b.stop.rest = es := Option.some.inj hread
      rw [afterBlanks, ← Cursor.rest_skipBlanks]
      rcases Correspondence.replaced_skip hrs hab with ⟨zs, hzs, -, hd⟩ | ⟨hcs, hd⟩
      · rw [hd]
        simp [hzs]
      · rw [hd]
        exact hmissed _ List.mem_concat_self (congrArg List.length hcs)

end SearchQuery
