import SearchQuery.Proofs.Reading.Fit

/-!
# What is looked for can stand there

Wherever an item is looked for, the text before that place can be completed, and also if the item is
put there. Many failures happen on ways that are given up later. Each of them lies on the way to
some query nevertheless.

## Main definitions

* `Failure.OnWay` — a failure at which a text can be completed.
* `Attempt.Notes` — a property of whatever failure an attempt notes.
* `Exhaustive.Viable` — an item missed in a query, where the front can be completed.

Main statements: `Exhaustive.logicalExp_notes` covers all failures in an expression, and
`Exhaustive.whole_notes` those in a query.
-/

namespace SearchQuery

open Text Text.Completable

/-! ## Failures on the way -/

namespace Failure

def Genuine (f : Failure) : Prop :=
  ¬ f.expected.Heads f.place.rest ∧
    ((∃ l ∈ Recognizer.literals, f.expected = .literal l) ∨
      f.expected = .described identDescription)

theorem genuine_literal {l : String} (hl : l ∈ Recognizer.literals) {c : Cursor}
    (h : c.literal? l = none) : Genuine ⟨c, .literal l⟩ :=
  ⟨Cursor.literal?_eq_none_iff.1 h, .inl ⟨l, hl, rfl⟩⟩

theorem genuine_ident {c : Cursor} (h : c.word? = none) :
    Genuine ⟨c, .described identDescription⟩ := by
  refine ⟨?_, .inr rfl⟩
  rintro ⟨x, hx, hletter⟩
  rw [Cursor.word?_eq_none_iff.1 h x hx] at hletter
  contradiction

/-- The failure happened in the text `cs` behind `front`, at a place where no blank follows. As far
as there, the text can be completed, whatever form of the expected item comes next. -/
def OnWay (front cs : List Char) (f : Failure) : Prop :=
  afterBlanks f.place.rest = f.place.rest ∧ f.Genuine ∧
    ∃ us, cs = us ++ f.place.rest ∧
      ∀ form ∈ f.expected.forms, Completable (front ++ (us ++ ' ' :: form.toList))

variable {front vs cs : List Char} {f : Failure}

/-- A failure behind `vs` if `vs` keeps what follows completable. -/
theorem OnWay.before (h : OnWay [] cs f)
    (hvs : ∀ ds, ds ≠ [] → Replaces ds cs → Completable ds → Completable (vs ++ ds)) :
    OnWay [] (vs ++ cs) f := by
  obtain ⟨hblanks, hgenuine, us, rfl, hforms⟩ := h
  refine ⟨hblanks, hgenuine, vs ++ us, (List.append_assoc ..).symm, fun form hform => ?_⟩
  have := hvs _ (by simp) ?_ (hforms form hform)
  · simpa using this
  cases us with
  | nil =>
    intro x hx hname
    obtain rfl := Option.some.inj hx
    exact absurd hname (by decide)
  | cons x us => exact .of_head rfl

theorem OnWay.blanks {gap : List Char} (h : OnWay [] cs f) (hgap : Blanks gap) :
    OnWay [] (gap ++ cs) f :=
  h.before fun _ _ _ hds => hds.blanks hgap

theorem OnWay.shift_front (h : OnWay (front ++ vs) cs f) : OnWay front (vs ++ cs) f := by
  obtain ⟨hblanks, hgenuine, us, rfl, hforms⟩ := h
  refine ⟨hblanks, hgenuine, vs ++ us, (List.append_assoc ..).symm, fun form hform => ?_⟩
  simpa using hforms form hform

theorem OnWay.shift (h : OnWay front cs f) : OnWay [] (front ++ cs) f :=
  shift_front (show OnWay ([] ++ front) cs f from h)

end Failure

/-- An item that would fit behind `front` and is missed there fails on the way. -/
theorem Failure.onWay_of_fits {front gap cs : List Char} {f : Failure} (h : f.expected.Fits front)
    (hgap : Blanks gap) (hcs : cs = gap ++ f.place.rest)
    (hblanks : afterBlanks f.place.rest = f.place.rest) (hf : f.Genuine) : f.OnWay front cs :=
  ⟨hblanks, hf, gap, hcs, fun _ hform => h.behind hgap hform⟩

/-! ## What an attempt notes -/

namespace Attempt

variable {α β : Type} {F G : Failure → Prop}

def Notes (x : Attempt (List Failure) α) (F : Failure → Prop) : Prop :=
  ∀ log, ∀ f ∈ (x log).2, f ∈ log ∨ F f

namespace Notes

variable {x y : Attempt (List Failure) α}

theorem pure (a : α) : (Pure.pure a : Attempt (List Failure) α).Notes F := fun _ _ h => .inl h

theorem bind {P : α → Prop} {k : α → Attempt (List Failure) β} (hx : x.Notes F) (hP : x.Yields P)
    (hk : ∀ a, P a → (k a).Notes F) : (x >>= k).Notes F := by
  intro log f hf
  have h := hx log
  have hread := hP log
  rw [bind_apply] at hf
  rcases hxs : x log with ⟨_ | a, log'⟩ <;> rw [hxs] at h hread hf
  · exact h f hf
  · rcases hk a (hread a rfl) log' f hf with hf | hf
    · exact h f hf
    · exact .inr hf

theorem orElse (hx : x.Notes F) (hy : y.Notes F) : (x <|> y).Notes F := by
  intro log f hf
  have h := hx log
  rw [orElse_apply] at hf
  rcases hxs : x log with ⟨_ | a, log'⟩ <;> rw [hxs] at h hf
  · rcases hy log' f hf with hf | hf
    · exact h f hf
    · exact .inr hf
  · exact h f hf

theorem mono (hx : x.Notes F) (h : ∀ f, F f → G f) : x.Notes G :=
  fun log f hf => (hx log f hf).imp_right (h f)

end Notes

end Attempt

/-! ## What is left, of what was read -/

namespace Recognizer

section Rest

variable {σ : Type} {note : Failure → σ → σ}

theorem yields_of_rest {x : Attempt σ ParseTree} {r : Option (List Char)}
    (h : ∀ s, (x s).1.map (·.stop.rest) = r) : x.Yields fun t => r = some t.stop.rest := by
  intro s t ht
  rw [← h s, ht]
  rfl

theorem literal_rest (l : String) (c : Cursor) :
    (literal note l c).Yields fun t => c.rest = l.toList ++ t.stop.rest := by
  unfold literal
  split
  · next d h =>
    obtain ⟨⟨es, hes⟩, rfl⟩ := Cursor.literal?_eq_some_iff.1 h
    refine .pure ?_
    change c.rest = l.toList ++ c.rest.drop l.length
    rw [← hes, ← String.length_toList, List.drop_left]
  · exact .failAfter _

theorem token_rest (l : String) (c : Cursor) :
    (token note l c).Yields fun t =>
      ∃ gap, Blanks gap ∧ c.rest = gap ++ (l.toList ++ t.stop.rest) :=
  (literal_rest l _).mono fun t ht => by
    obtain ⟨gap, hgap, hc⟩ := exists_skipBlanks c
    exact ⟨gap, hgap, ht ▸ hc⟩

theorem ident_rest (c : Cursor) :
    (ident note c).Yields fun t => afterName c.rest = some t.stop.rest := by
  unfold ident
  split
  · next d h =>
    obtain ⟨⟨x, xs, hc, hx⟩, rfl⟩ := Cursor.word?_eq_some_iff.1 h
    refine .pure ?_
    change _ = some (c.skipWhile isNameChar).rest
    rw [Cursor.rest_skipWhile, hc, afterName_cons_of_isLetter hx,
      List.dropWhile_cons_of_pos (isNameChar_of_isLetter hx)]
  · exact .failAfter _

theorem spacedString_rest (c : Cursor) :
    (spacedString note c).Yields fun t => afterWords c.rest = some t.stop.rest :=
  (ident_rest c).bind fun first hfirst =>
    (yields_of_rest (rest_spacedTail note _)).mono fun t ht => by
      rw [afterWords, hfirst]
      exact ht

theorem priExp_rest (c : Cursor) :
    ((afresh note).priExp c).Yields fun t => afterOperand c.rest = some t.stop.rest :=
  yields_of_rest (rest_priExp note c)

theorem exp_rest (c : Cursor) :
    ((afresh note).exp c).Yields fun t => afterExp c.rest = some t.stop.rest :=
  yields_of_rest (rest_exp note c)

end Rest

end Recognizer

namespace Exhaustive

open Recognizer Expected Failure

variable {front gap cs : List Char} {c : Cursor}

/-! ## Leaves and filters -/

theorem miss_notes {α : Type} {e : Expected} (h : e.Fits front) (hgap : Blanks gap)
    (hcs : cs = gap ++ c.rest) (hblanks : afterBlanks c.rest = c.rest)
    (hf : Failure.Genuine ⟨c, e⟩) :
    (miss recognizer.note c e : Attempt _ α).Notes (OnWay front cs) := by
  intro log f hf'
  rcases List.mem_append.1 hf' with hf' | hf'
  · exact .inl hf'
  · rw [List.mem_singleton.1 hf']
    exact .inr (onWay_of_fits h hgap hcs hblanks hf)

theorem token_notes {l : String} (hl : l ∈ literals) (h : (literal l).Fits front) (c : Cursor) :
    (token recognizer.note l c).Notes (OnWay front c.rest) := by
  obtain ⟨gap, hgap, hc⟩ := exists_skipBlanks c
  unfold token Recognizer.literal
  split
  · exact .pure _
  · next hs => exact miss_notes h hgap hc (afterBlanks_skipBlanks c) (genuine_literal hl hs)

theorem ident_notes (h : (described identDescription).Fits front) (c : Cursor) :
    (ident recognizer.note c.skipBlanks).Notes (OnWay front c.rest) := by
  obtain ⟨gap, hgap, hc⟩ := exists_skipBlanks c
  unfold ident
  split
  · exact .pure _
  · next hs => exact miss_notes h hgap hc (afterBlanks_skipBlanks c) (genuine_ident hs)

/-- Where a quoted value ends, another identifier was looked for. -/
theorem spacedTail_notes (string : ParseTree) :
    (spacedTail recognizer.note string).Notes fun f =>
      ∃ ds, afterMore string.stop.rest = some ds ∧ f.place.rest = afterBlanks ds ∧
        f.expected = .described identDescription ∧ f.Genuine := by
  fun_induction spacedTail recognizer.note string with
  | case1 string gap d h ih =>
    have hrest := rest_spacedTail recognizer.note string []
    rw [spacedTail_of_word? h, rest_spacedTail] at hrest
    rwa [hrest] at ih
  | case2 string gap h =>
    refine .orElse (fun log f hf => ?_) (.pure _)
    rcases List.mem_append.1 hf with hf | hf
    · exact .inl hf
    rw [List.mem_singleton.1 hf]
    refine .inr ⟨string.stop.rest, ?_, Cursor.rest_skipBlanks _, rfl, genuine_ident h⟩
    rw [← rest_spacedTail recognizer.note string [], spacedTail_of_no_word h]
    rfl

theorem spacedString_notes (h : (described identDescription).Fits front)
    (hmore : ∀ gap y words, Blanks gap → isLetter y → Words (y :: words) →
      (described identDescription).Fits (front ++ (gap ++ y :: words))) (c : Cursor) :
    (spacedString recognizer.note c.skipBlanks).Notes (OnWay front c.rest) := by
  refine (ident_notes h c).bind (ident_rest _) fun first hfirst => ?_
  refine (spacedTail_notes _).mono ?_
  rintro f ⟨ds, hds, hplace, hexpected, hgenuine⟩
  have hvalue : afterWords c.skipBlanks.rest = some ds := by
    rw [afterWords, hfirst]
    exact hds
  obtain ⟨y, words, hy, heq, hwords⟩ := exists_words hvalue
  obtain ⟨gap, hgap, hc⟩ := exists_skipBlanks c
  obtain ⟨gap', hgap', hds'⟩ := exists_blanks ds
  have hfits : f.expected.Fits (front ++ (gap ++ y :: words)) := by
    rw [hexpected]
    exact hmore gap y words hgap hy hwords
  rw [← hplace] at hds'
  have := (onWay_of_fits hfits hgap' hds' (by simp [hplace]) hgenuine).shift_front
  rwa [List.append_assoc, ← heq, ← hc] at this

theorem keywordQuoted_notes {x : Char} {name : List Char} (hx : isLetter x)
    (hname : name.all isNameChar) (key : ParseTree) :
    (keywordQuoted recognizer.note key).Notes (OnWay (x :: name) key.stop.rest) := by
  refine (token_notes (by decide) (fits_colon_quote hx hname) key.stop).bind (token_rest _ _) ?_
  rintro opening ⟨gap, hgap, hopening⟩
  have hshift (f : Failure) (hf : f.OnWay (x :: name ++ (gap ++ [':', '"'])) opening.stop.rest) :
      f.OnWay (x :: name) key.stop.rest := by
    rw [hopening, ← List.append_assoc]
    exact hf.shift_front
  refine .bind (.mono (spacedString_notes (fits_quoted_value hx hname hgap)
    (fun _ _ _ hgap' => fits_further_value hx hname hgap hgap') _) hshift) (spacedString_rest _) ?_
  intro value hvalue
  obtain ⟨y, words, hy, heq, hwords⟩ := exists_words hvalue
  obtain ⟨gap', hgap', hopening'⟩ := exists_skipBlanks opening.stop
  rw [heq, ← List.append_assoc] at hopening'
  have hfits := fits_close_value hx hname hgap hgap' hy hwords
  refine .bind (.mono (token_notes (by decide) hfits value.stop) fun f hf => hshift f ?_)
    (token_rest _ _) fun _ _ => .pure _
  rw [hopening']
  exact hf.shift_front

theorem keywordSimple_notes {x : Char} {name : List Char} (hx : isLetter x)
    (hname : name.all isNameChar) (key : ParseTree) :
    (keywordSimple recognizer.note key).Notes (OnWay (x :: name) key.stop.rest) := by
  refine (token_notes (by decide) (fits_colon hx hname) key.stop).bind (token_rest _ _) ?_
  rintro colon ⟨gap, hgap, hcolon⟩
  refine .bind (.mono (ident_notes (fits_simple_value hx hname hgap) colon.stop) fun f hf => ?_)
    (ident_rest _) fun _ _ => .pure _
  rw [hcolon, ← List.append_assoc]
  exact hf.shift_front

theorem keywordExp_notes (c : Cursor) :
    (keywordExp recognizer.note c.skipBlanks).Notes (OnWay [] c.rest) := by
  refine (ident_notes fits_operand c).bind (ident_rest _) fun key hkey => ?_
  obtain ⟨x, name, hx, hname, heq, -⟩ := exists_name hkey
  obtain ⟨gap, hgap, hc⟩ := exists_skipBlanks c
  rw [heq] at hc
  refine .mono (.orElse (keywordQuoted_notes hx hname key) (keywordSimple_notes hx hname key)) ?_
  intro f hf
  rw [hc]
  exact hf.shift.blanks hgap

/-! ## Expressions -/

theorem single_notes {F : Failure → Prop} {x : Attempt (List Failure) ParseTree}
    (h : x.Notes F) : (single x).Notes F :=
  h.bind (fun _ _ _ => trivial) fun _ (_ : True) => .pure _

theorem exp_notes {F : Failure → Prop} (h : (recognizer.logicalExp c).Notes F) :
    (recognizer.exp c).Notes F :=
  h.bind (fun _ _ _ => trivial) fun _ (_ : True) => .pure _

section Expressions

variable (ih : ∀ d, d.remaining < c.remaining → (recognizer.logicalExp d).Notes (OnWay [] d.rest))

include ih

/-- An expression between two marks, the first of which keeps what follows completable. -/
theorem delimited_notes {opening closing : String} {o : Char} (ho : opening.toList = [o])
    (hl : opening ∈ literals ∧ closing ∈ literals) (rule : Rule) (hopen : (literal opening).Fits [])
    (hin : ∀ ds, Completable ds → Completable (o :: ds))
    (hclose : ∀ us es, us ≠ [] → Run us es → (literal closing).Fits (o :: us)) :
    (recognizer.delimited opening closing rule c.skipBlanks).Notes (OnWay [] c.rest) := by
  obtain ⟨gap, hgap, hc⟩ := exists_skipBlanks c
  refine (token_notes hl.1 hopen c).bind (literal_rest _ _) fun first hfirst => ?_
  rw [hfirst, ho] at hc
  have hlt : first.stop.remaining < c.remaining := by
    simp only [Cursor.remaining, hc, List.length_append, List.length_cons]
    omega
  have hexp : (recognizer.exp first.stop).Notes (OnWay [] c.rest) := by
    refine .mono (exp_notes (ih _ hlt)) ?_
    intro f hf
    have hopened : f.OnWay [] ([o] ++ first.stop.rest) := hf.before fun ds _ _ => hin ds
    rw [hc]
    exact hopened.blanks hgap
  refine hexp.bind (exp_rest _) fun inner hinner => ?_
  obtain ⟨us, hus, heq, hrun⟩ := exists_run hinner
  refine .bind (.mono (token_notes hl.2 (hclose us _ hus hrun) inner.stop) fun f hf => ?_)
    (token_rest _ _) fun _ _ => .pure _
  rw [hc, heq]
  exact hf.shift.blanks hgap

theorem priExp_notes : (recognizer.priExp c.skipBlanks).Notes (OnWay [] c.rest) := by
  refine .orElse ?_ (.orElse ?_ (.orElse ?_ ?_))
  · exact delimited_notes ih rfl (by decide) _ fits_open_paren (fun _ => paren) fun _ _ hus h =>
      fits_close_paren h hus
  · exact delimited_notes ih rfl (by decide) _ fits_open_quote (fun _ => quote) fun _ _ _ h =>
      fits_close_quote h
  · exact single_notes (keywordExp_notes c)
  · exact single_notes (ident_notes fits_operand c)

theorem connected_notes {left : ParseTree} (hleft : left.stop.remaining < c.remaining)
    {op : String} (hop : op = "AND" ∨ op = "OR") (rule : Rule) :
    (recognizer.connected left op rule).Notes (OnWay [] left.stop.rest) := by
  have hl : op ∈ literals := by rcases hop with rfl | rfl <;> decide
  refine (token_notes hl (fits_operator hop) left.stop).bind (token_rest _ _) ?_
  rintro operator ⟨gap, hgap, hrest⟩
  have hlt : operator.stop.remaining < c.remaining := by
    simp only [Cursor.remaining, hrest, List.length_append] at hleft ⊢
    omega
  refine .bind (.mono (ih _ hlt) fun f hf => ?_) (fun _ _ _ => trivial) fun _ (_ : True) => .pure _
  rw [hrest]
  exact (hf.before fun ds _ _ => Completable.operator hop).blanks hgap

theorem joined_notes {left : ParseTree} (hleft : left.stop.remaining < c.remaining) :
    (recognizer.joined left).Notes (OnWay [] left.stop.rest) :=
  (ih _ hleft).bind (fun _ _ _ => trivial) fun _ (_ : True) => .pure _

theorem logicalAlternatives_notes :
    (recognizer.logicalAlternatives c.skipBlanks).Notes (OnWay [] c.rest) := by
  have hrest (t : ParseTree) (ht : afterOperand c.skipBlanks.rest = some t.stop.rest) :
      t.stop.remaining < c.remaining :=
    Nat.lt_of_lt_of_le (length_lt_of_afterOperand ht) (Cursor.remaining_skipBlanks_le c)
  refine (priExp_notes ih).bind (priExp_rest _) fun left hleft => ?_
  have hlt := hrest left hleft
  refine .mono (.orElse (connected_notes ih hlt (.inl rfl) _) (.orElse
    (connected_notes ih hlt (.inr rfl) _) (.orElse (joined_notes ih hlt) (.pure _)))) ?_
  intro f hf
  obtain ⟨gap, hgap, hc⟩ := exists_skipBlanks c
  obtain ⟨us, -, heq, hrun⟩ := exists_operand hleft
  rw [heq] at hc
  rw [hc]
  exact (hf.before fun ds hne hes hds => hrun.completable hne hes hds).blanks hgap

end Expressions

/-- Every failure in an expression happens on the way to some other expression. -/
theorem logicalExp_notes (c : Cursor) : (recognizer.logicalExp c).Notes (OnWay [] c.rest) := by
  induction hn : c.remaining using Nat.strongRecOn generalizing c with
  | ind n ih =>
    subst hn
    have hround : recognizer.logicalExp c = recognizer.logicalAlternatives c.skipBlanks :=
      afreshAt_eq _ _
    rw [hround]
    exact logicalAlternatives_notes fun d hd => ih _ hd d rfl

/-! ## Whole queries -/

/-- What is not found behind the front `us` of a query, where `rs` stands instead. The front can be
completed. If the end of the query was looked for, the front is a query itself. -/
structure Viable (us rs : List Char) (item : Expected) : Prop where
  blanks : afterBlanks rs = rs
  not_heads : ¬ item.Heads rs
  forms : ∀ form ∈ item.forms, Completable (us ++ ' ' :: form.toList)
  literal : ∀ l, item = .literal l → l ∈ literals
  described : ∀ d, item = .described d → d = identDescription
  ends : item = .endOfInput → ∃ es, afterExp us = some es ∧ afterBlanks es = []

theorem viable_of_onWay {f : Failure} (h : f.OnWay [] cs) :
    ∃ us, cs = us ++ f.place.rest ∧ Viable us f.place.rest f.expected := by
  obtain ⟨hblanks, ⟨hheads, hitem⟩, us, hcs, hforms⟩ := h
  refine ⟨us, hcs, hblanks, hheads, hforms, ?_, ?_, ?_⟩
  · rintro l' hl'
    rcases hitem with ⟨l, hl, hitem⟩ | hitem
    · obtain rfl := Expected.literal.inj (hitem.symm.trans hl')
      exact hl
    · simp [hitem] at hl'
  · rintro d hd
    rcases hitem with ⟨l, -, hitem⟩ | hitem
    · simp [hitem] at hd
    · exact (Expected.described.inj (hitem.symm.trans hd)).symm
  · rintro hend
    rcases hitem with ⟨l, -, hitem⟩ | hitem <;> simp [hitem] at hend

/-- Behind operands and blanks, the end of the query can be looked for. -/
theorem viable_end {us es rs : List Char} (h : Run us es) (hus : us ≠ []) (hes : es = gap ++ rs)
    (hgap : Blanks gap) (hblanks : afterBlanks rs = rs) (hrs : rs ≠ []) :
    Viable (us ++ gap) rs .endOfInput where
  blanks := hblanks
  not_heads := hrs
  forms form hform := by
    have hfits : endOfInput.Fits us := fits_endOfInput (fits_after_run h)
    simpa using hfits.behind hgap hform
  literal := nofun
  described := nofun
  ends _ := by
    have hnil := afterBlanks_of_blanks hgap
    refine ⟨gap, h.read hus (afterExp_of_blanks hgap) ?_ ?_ ?_, hnil⟩
    · cases gap with
      | nil => exact nofun
      | cons x gap => exact .of_head (by rw [hes]; rfl)
    · simp [hnil]
    · simp [hnil]

/-- Every failure of a query leaves something behind that can be completed. -/
theorem whole_notes (c : Cursor) :
    (recognizer.whole c).Notes fun f =>
      ∃ us, c.rest = us ++ f.place.rest ∧ Viable us f.place.rest f.expected := by
  refine .bind (.mono (exp_notes (logicalExp_notes c)) fun f => viable_of_onWay) (exp_rest c)
    fun root hroot => ?_
  obtain ⟨us, hus, heq, hrun⟩ := exists_run hroot
  obtain ⟨gap, hgap, hrest⟩ := exists_skipBlanks root.stop
  dsimp only
  split
  · exact .pure _
  · next hend =>
    intro log f hf
    rcases List.mem_append.1 hf with hf | hf
    · exact .inl hf
    rw [List.mem_singleton.1 hf]
    have hne : root.stop.skipBlanks.rest ≠ [] := by simpa [Cursor.atEnd] using hend
    refine .inr ⟨us ++ gap, ?_, viable_end hrun hus hrest hgap (afterBlanks_skipBlanks _) hne⟩
    rw [heq, hrest, List.append_assoc]

end Exhaustive

end SearchQuery
