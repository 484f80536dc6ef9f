import Mathlib.Data.List.Forall2
import SearchQuery.Proofs.Reading.Correspondence

/-!
# Productions correspond

If the leaves of two readings behave alike, so do all productions, and if one round of the recursion
does, so does the whole recursion.

Main statements: `Correspondence.Lawful.logicalAlternatives_follows` is the round of the recursion
for any recognizers, and `Correspondence.Lawful.afreshAt_follows` compares readings afresh.
-/

namespace SearchQuery.Correspondence

open Recognizer

variable {σ τ : Type} {K : Correspondence σ τ}

/-- The leaves of the two readings behave alike, and places and trees fit together. -/
structure Lawful (K : Correspondence σ τ) : Prop where
  lost_note : ∀ f s, K.lost s → K.lost (K.noteLeft f s)
  lost_note_of_past : ∀ f s, f.place.remaining < K.edge → K.lost (K.noteLeft f s)
  skip : ∀ {c d}, K.places c d → K.facing c.skipBlanks d.skipBlanks
  stop : ∀ {a b}, K.trees a b → K.places a.stop b.stop
  node : ∀ {a b as bs} rule, K.trees a b → List.Forall₂ K.trees as bs →
    K.trees (.node rule a as) (.node rule b bs)
  spaces : ∀ {c d}, K.places c d →
    K.trees (.leaf .spaces c c.skipBlanks) (.leaf .spaces d d.skipBlanks)
  literal : ∀ {s c d}, s ∈ literals → K.facing c d →
    K.Follows (Recognizer.literal K.noteLeft s c) (Recognizer.literal K.noteRight s d)
  ident : ∀ {c d}, K.facing c d →
    K.Follows (Recognizer.ident K.noteLeft c) (Recognizer.ident K.noteRight d)
  order : ∀ {c c' d d'}, K.facing c c' → K.facing d d' →
    (d.remaining < c.remaining ↔ d'.remaining < c'.remaining)
  edge_le : ∀ {c d}, K.facing c d → K.edge ≤ c.remaining

/-- Related lists end in related elements. -/
theorem forall₂_getLastD {α β : Type} {S : α → β → Prop} {a : α} {b : β} {as : List α}
    {bs : List β} (hab : S a b) (h : List.Forall₂ S as bs) : S (as.getLastD a) (bs.getLastD b) := by
  induction h generalizing a b with
  | nil => exact hab
  | cons hcd _ ih =>
    rw [List.getLastD_cons, List.getLastD_cons]
    exact ih hcd

namespace Lawful

variable (hK : K.Lawful) {L : Cursor → Attempt σ ParseTree} {R : Cursor → Attempt τ ParseTree}

include hK

/-! ## No way back -/

section Escapes

theorem miss_escapes {c d : Cursor} (e : Expected) (h : d.remaining ≤ c.remaining) :
    K.Escapes c (miss K.noteLeft d e) :=
  fun s => ⟨hK.lost_note _ s, fun hc => .lost (hK.lost_note_of_past _ s (Nat.lt_of_le_of_lt h hc))⟩

theorem literal_escapes (s : String) (c : Cursor) :
    K.Escapes c (Recognizer.literal K.noteLeft s c) := by
  unfold Recognizer.literal
  split
  · next d h =>
    have := Cursor.remaining_of_literal? h
    exact (Escapes.pure (.leaf .terminal c d)).mono (by simp [ParseTree.leaf]; omega)
  · exact hK.miss_escapes _ (Nat.le_refl _)

theorem token_escapes (s : String) (c : Cursor) : K.Escapes c (token K.noteLeft s c) :=
  (hK.literal_escapes s _).mono (Cursor.remaining_skipBlanks_le c)

theorem ident_escapes (c : Cursor) : K.Escapes c (Recognizer.ident K.noteLeft c) := by
  unfold Recognizer.ident
  split
  · next d h =>
    exact (Escapes.pure (.leaf .ident c d)).mono (Nat.le_of_lt (Cursor.remaining_lt_of_word? h))
  · exact hK.miss_escapes _ (Nat.le_refl _)

theorem spacedTail_escapes (string : ParseTree) :
    K.Escapes string.stop (spacedTail K.noteLeft string) := by
  fun_induction spacedTail K.noteLeft string with
  | case1 string gap d h ih =>
    have hd := Cursor.remaining_lt_of_word? h
    have hgap := Cursor.remaining_skipBlanks_le string.stop
    exact ih.mono (Nat.le_trans (Nat.le_of_lt hd) hgap)
  | case2 string gap h =>
    exact .orElse (hK.miss_escapes _ (Cursor.remaining_skipBlanks_le _)) (.pure string)

theorem spacedString_escapes (c : Cursor) : K.Escapes c (spacedString K.noteLeft c) :=
  (hK.ident_escapes c).bind fun first => hK.spacedTail_escapes (.node .spacedString first [])

theorem keywordQuoted_escapes (key : ParseTree) :
    K.Escapes key.stop (keywordQuoted K.noteLeft key) :=
  (hK.token_escapes _ _).bind fun opening =>
    ((hK.spacedString_escapes _).bind fun value =>
      (hK.token_escapes _ _).bind fun closing =>
        Escapes.pure (.node .keywordQuoted key [opening, value, closing])).mono
      (Cursor.remaining_skipBlanks_le _)

theorem keywordSimple_escapes (key : ParseTree) :
    K.Escapes key.stop (keywordSimple K.noteLeft key) :=
  (hK.token_escapes _ _).bind fun colon =>
    ((hK.ident_escapes _).bind fun value =>
      Escapes.pure (.node .keywordSimple key [colon, value])).mono
      (Cursor.remaining_skipBlanks_le _)

theorem keywordExp_escapes (c : Cursor) : K.Escapes c (keywordExp K.noteLeft c) :=
  (hK.ident_escapes c).bind fun key =>
    .orElse (hK.keywordQuoted_escapes key) (hK.keywordSimple_escapes key)

variable (hL : ∀ c, K.Escapes c (L c))

include hL

theorem delimited_escapes (opening closing : String) (rule : Rule) (c : Cursor) :
    K.Escapes c (delimited ⟨K.noteLeft, L⟩ opening closing rule c) :=
  (hK.literal_escapes _ c).bind fun first =>
    (Escapes.exp hL _).bind fun inner =>
      (hK.token_escapes _ _).bind fun last => Escapes.pure (.node rule first [inner, last])

theorem connected_escapes (left : ParseTree) (op : String) (rule : Rule) :
    K.Escapes left.stop (connected ⟨K.noteLeft, L⟩ left op rule) :=
  (hK.token_escapes _ _).bind fun operator =>
    (Escapes.logicalExp hL _).bind fun right =>
      Escapes.pure (.node rule left [operator, right])

end Escapes

/-! ## Corresponding leaves and keyword filters -/

theorem token_follows {s : String} {c d : Cursor} (hs : s ∈ literals) (h : K.places c d) :
    K.Follows (token K.noteLeft s c) (token K.noteRight s d) :=
  hK.literal hs (hK.skip h)

theorem spacedTail_follows {a b : ParseTree} (h : K.trees a b) :
    K.Follows (spacedTail K.noteLeft a) (spacedTail K.noteRight b) := by
  induction hn : a.stop.remaining using Nat.strongRecOn generalizing a b with
  | ind n ih =>
    subst hn
    have hstop := hK.stop h
    rw [spacedTail_eq, spacedTail_eq]
    refine .orElse (.bind_of_yields (hK.ident (hK.skip hstop)) (ident_yields _) ?_ ?_) ?_ (.pure h)
    · exact fun word => hK.spacedTail_escapes (.node .spaced a [_, word])
    · intro word word' hread hword
      have hgap := Cursor.remaining_skipBlanks_le a.stop
      exact ih _ (Nat.lt_of_lt_of_le hread hgap)
        (hK.node .spaced h (.cons (hK.spaces hstop) (.cons hword .nil))) rfl
    · exact fun _ => id

theorem spacedString_follows {c d : Cursor} (h : K.facing c d) :
    K.Follows (spacedString K.noteLeft c) (spacedString K.noteRight d) :=
  .bind (hK.ident h) (fun first => hK.spacedTail_escapes (.node _ first []))
    fun _ _ hab => hK.spacedTail_follows (hK.node .spacedString hab .nil)

theorem keywordQuoted_follows {a b : ParseTree} (h : K.trees a b) :
    K.Follows (keywordQuoted K.noteLeft a) (keywordQuoted K.noteRight b) := by
  have hclose (opening : ParseTree) (value : ParseTree) : K.Escapes value.stop
      (token K.noteLeft "\"" value.stop >>= fun closing =>
        pure (.node .keywordQuoted a [opening, value, closing])) :=
    (hK.token_escapes _ _).bind fun closing =>
      Escapes.pure (.node .keywordQuoted a [opening, value, closing])
  refine .bind (hK.token_follows (by decide) (hK.stop h)) ?_ ?_
  · exact fun opening => ((hK.spacedString_escapes _).bind (hclose opening)).mono
      (Cursor.remaining_skipBlanks_le _)
  intro opening opening' hopening
  refine .bind (hK.spacedString_follows (hK.skip (hK.stop hopening)))
    (hclose opening) ?_
  intro value value' hvalue
  refine .bind (hK.token_follows (by decide) (hK.stop hvalue))
    (fun closing => Escapes.pure (.node .keywordQuoted a [opening, value, closing])) ?_
  intro closing closing' hclosing
  exact .pure (hK.node _ h (.cons hopening (.cons hvalue (.cons hclosing .nil))))

theorem keywordSimple_follows {a b : ParseTree} (h : K.trees a b) :
    K.Follows (keywordSimple K.noteLeft a) (keywordSimple K.noteRight b) := by
  refine .bind (hK.token_follows (by decide) (hK.stop h)) ?_ ?_
  · exact fun colon => ((hK.ident_escapes _).bind fun value =>
      Escapes.pure (.node .keywordSimple a [colon, value])).mono (Cursor.remaining_skipBlanks_le _)
  intro colon colon' hcolon
  refine .bind (hK.ident (hK.skip (hK.stop hcolon)))
    (fun value => Escapes.pure (.node .keywordSimple a [colon, value])) ?_
  intro value value' hvalue
  exact .pure (hK.node _ h (.cons hcolon (.cons hvalue .nil)))

theorem keywordExp_follows {c d : Cursor} (h : K.facing c d) :
    K.Follows (keywordExp K.noteLeft c) (keywordExp K.noteRight d) :=
  .bind (hK.ident h)
    (fun key => .orElse (hK.keywordQuoted_escapes key) (hK.keywordSimple_escapes key))
    fun key _ hkey => .orElse (hK.keywordQuoted_follows hkey)
      (fun s => (hK.keywordSimple_escapes key s).1) (hK.keywordSimple_follows hkey)

/-! ## Corresponding expressions -/

section Follows

theorem logicalExp_follows (hLR : ∀ c d, K.facing c d → K.Follows (L c) (R d)) {c d : Cursor}
    (h : K.places c d) : K.Follows (logicalExp ⟨K.noteLeft, L⟩ c) (logicalExp ⟨K.noteRight, R⟩ d) :=
  hLR _ _ (hK.skip h)

variable (hL : ∀ c, K.Escapes c (L c)) (hLR : ∀ c d, K.places c d →
  K.Follows (logicalExp ⟨K.noteLeft, L⟩ c) (logicalExp ⟨K.noteRight, R⟩ d))

include hLR

theorem exp_follows {c d : Cursor} (h : K.places c d) :
    K.Follows (exp ⟨K.noteLeft, L⟩ c) (exp ⟨K.noteRight, R⟩ d) :=
  .bind (hLR _ _ h)
    (fun inner => Escapes.pure (.node .exp inner []))
    fun _ _ hab => .pure (hK.node .exp hab .nil)

omit hLR in
theorem single_follows {x : Attempt σ ParseTree} {y : Attempt τ ParseTree}
    (h : K.Follows x y) : K.Follows (single x) (single y) :=
  .bind h (fun t => Escapes.pure (.node .priExp t []))
    fun _ _ hab => .pure (hK.node .priExp hab .nil)

section

include hL

theorem delimited_follows {opening closing : String} (ho : opening ∈ literals)
    (hc : closing ∈ literals) (rule : Rule) {c d : Cursor} (h : K.facing c d) :
    K.Follows (delimited ⟨K.noteLeft, L⟩ opening closing rule c)
      (delimited ⟨K.noteRight, R⟩ opening closing rule d) := by
  have hlast (first inner : ParseTree) : K.Escapes inner.stop
      (token K.noteLeft closing inner.stop >>= fun last =>
        pure (.node rule first [inner, last])) :=
    (hK.token_escapes _ _).bind fun last => Escapes.pure (.node rule first [inner, last])
  refine .bind (hK.literal ho h)
    (fun first => (Escapes.exp hL _).bind (hlast first)) ?_
  intro first first' hfirst
  refine .bind (hK.exp_follows hLR (hK.stop hfirst)) (hlast first) ?_
  intro inner inner' hinner
  refine .bind (hK.token_follows hc (hK.stop hinner))
    (fun last => Escapes.pure (.node rule first [inner, last])) ?_
  intro last last' hlast
  exact .pure (hK.node rule hfirst (.cons hinner (.cons hlast .nil)))

theorem priExp_follows {c d : Cursor} (h : K.facing c d) :
    K.Follows (priExp ⟨K.noteLeft, L⟩ c) (priExp ⟨K.noteRight, R⟩ d) := by
  have hkeyword := (hK.keywordExp_escapes c).single
  have hident := (hK.ident_escapes c).single
  have hquote := hK.delimited_escapes hL "\"" "\"" .quote c
  refine .orElse (hK.delimited_follows hL hLR (by decide) (by decide) _ h)
    (fun s => (hquote.orElse (hkeyword.orElse hident) s).1) ?_
  refine .orElse (hK.delimited_follows hL hLR (by decide) (by decide) _ h)
    (fun s => (hkeyword.orElse hident s).1) ?_
  exact .orElse (hK.single_follows (hK.keywordExp_follows h)) (fun s => (hident s).1)
    (hK.single_follows (hK.ident h))

theorem connected_follows {left left' : ParseTree} (h : K.trees left left') {op : String}
    (ho : op ∈ literals) (rule : Rule) :
    K.Follows (connected ⟨K.noteLeft, L⟩ left op rule)
      (connected ⟨K.noteRight, R⟩ left' op rule) := by
  refine .bind (hK.token_follows ho (hK.stop h)) ?_ ?_
  · exact fun operator => (Escapes.logicalExp hL _).bind fun right =>
      Escapes.pure (.node rule left [operator, right])
  intro operator operator' hoperator
  refine .bind (hLR _ _ (hK.stop hoperator))
    (fun right => Escapes.pure (.node rule left [operator, right])) ?_
  intro right right' hright
  exact .pure (hK.node rule h (.cons hoperator (.cons hright .nil)))

omit hL in
theorem joined_follows {left left' : ParseTree} (h : K.trees left left') :
    K.Follows (joined ⟨K.noteLeft, L⟩ left) (joined ⟨K.noteRight, R⟩ left') :=
  .bind (hLR _ _ (hK.stop h))
    (fun right => Escapes.pure (.node .logicalJoin left [right]))
    fun _ _ hright => .pure (hK.node _ h (.cons hright .nil))

/-- One round of the recursion. -/
theorem logicalAlternatives_follows {c d : Cursor} (h : K.facing c d) :
    K.Follows (logicalAlternatives ⟨K.noteLeft, L⟩ c)
      (logicalAlternatives ⟨K.noteRight, R⟩ d) := by
  have hor (left : ParseTree) := hK.connected_escapes hL left "OR" .logicalOr
  have hrest (left : ParseTree) := (Escapes.joined hL left).orElse
    (Escapes.pure (.node .logicalExp left []))
  refine .bind (hK.priExp_follows hL hLR h) ?_ ?_
  · exact fun left => (hK.connected_escapes hL left _ _).orElse ((hor left).orElse (hrest left))
  intro left left' hleft
  refine .orElse (hK.connected_follows hL hLR hleft (by decide) _)
    (fun s => ((hor left).orElse (hrest left) s).1) ?_
  refine .orElse (hK.connected_follows hL hLR hleft (by decide) _) (fun s => (hrest left s).1) ?_
  exact .orElse (hK.joined_follows hLR hleft) (fun _ => id)
    (.pure (hK.node .logicalExp hleft .nil))

end

theorem whole_follows {c d : Cursor} (h : K.places c d)
    (hend : ∀ {c d}, K.facing c d → c.atEnd = d.atEnd ∧
      K.Follows (miss K.noteLeft c .endOfInput) (miss K.noteRight d .endOfInput)) :
    K.Follows (whole ⟨K.noteLeft, L⟩ c) (whole ⟨K.noteRight, R⟩ d) := by
  refine .bind (hK.exp_follows hLR h) ?_ ?_
  · intro root
    dsimp only
    split
    · exact .pure root
    · exact hK.miss_escapes _ (Cursor.remaining_skipBlanks_le _)
  · intro root root' hroot
    obtain ⟨hatEnd, hmiss⟩ := hend (hK.skip (hK.stop hroot))
    dsimp only
    rw [hatEnd]
    split
    · exact .pure hroot
    · exact hmiss

end Follows

/-! ## Reading afresh -/

/-- Readings afresh correspond if the left one never finds back. -/
theorem afreshAt_follows (he : ∀ c, K.Escapes c (afreshAt K.noteLeft c)) {c d : Cursor}
    (h : K.facing c d) : K.Follows (afreshAt K.noteLeft c) (afreshAt K.noteRight d) := by
  induction hn : c.remaining using Nat.strongRecOn generalizing c d with
  | ind n ih =>
    subst hn
    rw [afreshAt, afreshAt]
    refine hK.logicalAlternatives_follows ?_ (fun _ _ => hK.logicalExp_follows ?_) h
    · intro c'
      split
      · exact he c'
      · next hlt =>
        have := hK.edge_le h
        exact fun s => ⟨id, fun hpast => absurd (Nat.lt_of_lt_of_le hpast this) hlt⟩
    · intro c' d' h'
      by_cases hlt : c'.remaining < c.remaining
      · simpa only [if_pos hlt, if_pos ((hK.order h h').1 hlt)] using ih _ hlt h' rfl
      · simp only [if_neg hlt, if_neg (mt (hK.order h h').2 hlt)]
        exact fun _ _ => .none

end Lawful

end SearchQuery.Correspondence
