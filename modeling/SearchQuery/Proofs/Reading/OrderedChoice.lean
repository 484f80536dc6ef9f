import SearchQuery.Proofs.Reading.Moment
import SearchQuery.Proofs.Reading.Word

/-!
# The grammar by ordered choice

The alternatives of a category are tried in order, each from its beginning, and the first one whose
items all match one after the other is taken. Quoted values are the exception: their first
alternative begins with a quoted value itself, so it stands for a repetition of its other items.

Only one reading does this, because every item of an alternative but the first is looked for at a
later place, and it is what the productions find. A filter is the one category whose production does
not skip the blanks before its first item. It is looked for behind them, as an operand does.

## Main definitions

* `Reading` — what is read of each category at each place.
* `Reading.alternative` — the items of an alternative one after the other.
* `Reading.OrderedChoice` — the reading takes the first alternative that matches.

Main statement: `ordered_choice`.
-/

namespace SearchQuery

open Recognizer Text

/-- What is read of each category at each place, if anything. -/
abbrev Reading := Category → Cursor → Option ParseTree

/-- Where an item of the rule is looked for. Syntactic rules skip the blanks before it. -/
def Rule.itemPlace (r : Rule) (c : Cursor) : Cursor := if r.isSyntactic then c.skipBlanks else c

namespace Reading

variable (ρ : Reading)

def item (c : Cursor) : Item → Option ParseTree
  | .literal s => (c.literal? s).map (.leaf .terminal c)
  | .category k => ρ k c

def items (r : Rule) (c : Cursor) : List Item → Option (List ParseTree)
  | [] => some []
  | i :: is => do
    let t ← ρ.item (r.itemPlace c) i
    let ts ← items r t.stop is
    return t :: ts

def alternative (c : Cursor) (a : Alternative) : Option ParseTree :=
  match ρ.items a.rule c a.items with
  | some (t :: ts) => some (.node a.rule t ts)
  | _ => none

/-- The second tree is the first one, extended by the items `is` as long as they match. -/
inductive Grown (r : Rule) (is : List Item) : ParseTree → ParseTree → Prop where
  | stop {t : ParseTree} (h : ρ.items r t.stop is = none) : Grown r is t t
  | more {t t' : ParseTree} {ts : List ParseTree} (h : ρ.items r t.stop is = some ts)
    (h' : Grown r is (.node r t ts) t') : Grown r is t t'

/-- What the first alternative of a quoted value adds to a quoted value. -/
def further : List Item := [.category .spaces, .category .ident]

/-- The reading takes the first alternative that matches. -/
structure OrderedChoice : Prop where
  choice : ∀ k ∈ [.exp, .logicalExp, .priExp, .keywordExp], ∀ c,
    ρ k c = k.alternatives.findSome? (ρ.alternative c)
  spacedString : ∀ c first, ρ .ident c = some first → ∃ t, ρ .spacedString c = some t ∧
    ρ.Grown .spaced further (.node .spacedString first []) t
  spacedString_eq_none : ∀ c, ρ .ident c = none → ρ .spacedString c = none
  ident : ∀ c x name rest, isLetter x → name.all isNameChar → EndsName rest →
    c.rest = x :: name ++ rest →
    ρ .ident c = some (.leaf .ident c (c.advance (name.length + 1)))
  ident_eq_none : ∀ c, (∀ x ∈ c.rest.head?, isLetter x = false) → ρ .ident c = none
  spaces : ∀ c gap rest, Blanks gap → (∀ x ∈ rest.head?, isBlank x = false) →
    c.rest = gap ++ rest → ρ .spaces c = some (.leaf .spaces c (c.advance gap.length))

variable {ρ : Reading}

theorem items_nil (r : Rule) (c : Cursor) : ρ.items r c [] = some [] := rfl

theorem items_cons (r : Rule) (c : Cursor) (i : Item) (is : List Item) :
    ρ.items r c (i :: is) =
      (ρ.item (r.itemPlace c) i).bind fun t => (ρ.items r t.stop is).map (t :: ·) := by
  rw [items]
  cases ρ.item (r.itemPlace c) i with
  | none => rfl
  | some t => cases h : ρ.items r t.stop is <;> simp [h]

theorem alternative_cons (r : Rule) (c : Cursor) (i : Item) (is : List Item) :
    ρ.alternative c ⟨r, i :: is⟩ =
      (ρ.item (r.itemPlace c) i).bind fun t => (ρ.items r t.stop is).map (.node r t) := by
  rw [alternative, items_cons]
  cases ρ.item (r.itemPlace c) i with
  | none => rfl
  | some t => cases h : ρ.items r t.stop is <;> simp [h]

/-! ## What the productions find -/

/-- What the productions find, a filter behind blanks. -/
def silent : Reading
  | .keywordExp, c => (Recognizer.silent.production .keywordExp c.skipBlanks).found
  | k, c => (Recognizer.silent.production k c).found

/-- All productions but that of filters are called where their categories are read. -/
theorem silent_of_ne {k : Category} (hk : k ≠ .keywordExp) (c : Cursor) :
    silent k c = (Recognizer.silent.production k c).found := by
  cases k <;> first | rfl | contradiction

theorem itemPlace_of_isSyntactic {r : Rule} (h : r.isSyntactic = true) (c : Cursor) :
    r.itemPlace c = c.skipBlanks :=
  if_pos h

theorem findSome?_cons_eq_or {α β : Type} (f : α → Option β) (a : α) (as : List α) :
    (a :: as).findSome? f = (f a).or (as.findSome? f) := by
  rw [List.findSome?_cons]
  cases f a <;> rfl

theorem item_literal (s : String) (c : Cursor) :
    silent.item c (.literal s) = (literal Recognizer.silent.note s c).found := by
  cases h : c.literal? s with
  | none => simp [item, h, literal_of_none _ h]; rfl
  | some d => simp [item, h, literal_of_some _ h]

theorem item_token (s : String) (c : Cursor) :
    silent.item c.skipBlanks (.literal s) = (token Recognizer.silent.note s c).found :=
  item_literal s c.skipBlanks

theorem item_exp (c : Cursor) :
    silent.item c.skipBlanks (.category .exp) = (Recognizer.silent.exp c).found := by
  simp [item, silent, production, Recognizer.exp, Recognizer.logicalExp, skipBlanks_skipBlanks]

theorem item_logicalExp (c : Cursor) :
    silent.item c.skipBlanks (.category .logicalExp) = (Recognizer.silent.logicalExp c).found := by
  simp [item, silent, production, Recognizer.logicalExp, skipBlanks_skipBlanks]

theorem item_priExp (c : Cursor) :
    silent.item c.skipBlanks (.category .priExp) =
      (Recognizer.silent.priExp c.skipBlanks).found := by
  simp [item, silent, production, skipBlanks_skipBlanks]

theorem silent_exp (c : Cursor) :
    silent .exp c = Category.exp.alternatives.findSome? (silent.alternative c) := by
  have hplace := itemPlace_of_isSyntactic (r := .exp) (by decide)
  simp only [Category.alternatives, findSome?_cons_eq_or, List.findSome?_nil, alternative_cons,
    items_nil, hplace, item_logicalExp, Option.or_none]
  simp only [silent, production, Recognizer.exp, Attempt.found_bind, Attempt.found_pure,
    Option.map_some]

theorem silent_logicalExp (c : Cursor) :
    silent .logicalExp c = Category.logicalExp.alternatives.findSome? (silent.alternative c) := by
  have hand := itemPlace_of_isSyntactic (r := .logicalAnd) (by decide)
  have hor := itemPlace_of_isSyntactic (r := .logicalOr) (by decide)
  have hjoin := itemPlace_of_isSyntactic (r := .logicalJoin) (by decide)
  have halone := itemPlace_of_isSyntactic (r := .logicalExp) (by decide)
  have hread : Recognizer.silent.logicalExp c =
      Recognizer.silent.logicalAlternatives c.skipBlanks := afreshAt_eq _ _
  simp only [Category.alternatives, findSome?_cons_eq_or, List.findSome?_nil, alternative_cons,
    items_cons, items_nil, hand, hor, hjoin, halone, item_token, item_logicalExp, item_priExp]
  simp only [silent, production, hread, logicalAlternatives, Attempt.found_bind,
    Attempt.found_orElse, connected, joined]
  -- All alternatives begin with the same operand, so they fail together without it.
  cases (Recognizer.silent.priExp c.skipBlanks).found with
  | none => rfl
  | some left =>
    simp only [Option.bind_some, Option.map_bind, Option.map_some, Function.comp_def,
      Attempt.found_pure, Option.or_none]

theorem item_keywordExp (c : Cursor) : silent.item c.skipBlanks (.category .keywordExp) =
    (keywordExp Recognizer.silent.note c.skipBlanks).found := by
  simp only [item, silent, production, skipBlanks_skipBlanks]

theorem item_spacedString (c : Cursor) : silent.item c (.category .spacedString) =
    (Recognizer.spacedString Recognizer.silent.note c).found := rfl

theorem item_ident (c : Cursor) : silent.item c (.category .ident) =
    (Recognizer.ident Recognizer.silent.note c).found := rfl

theorem silent_priExp (c : Cursor) :
    silent .priExp c = Category.priExp.alternatives.findSome? (silent.alternative c) := by
  have hparen := itemPlace_of_isSyntactic (r := .paren) (by decide)
  have hquote := itemPlace_of_isSyntactic (r := .quote) (by decide)
  have hsingle := itemPlace_of_isSyntactic (r := .priExp) (by decide)
  simp only [Category.alternatives, findSome?_cons_eq_or, List.findSome?_nil, alternative_cons,
    items_cons, items_nil, hparen, hquote, hsingle, item_token, item_exp, item_keywordExp,
    item_ident]
  simp only [silent, production, priExp, delimited, single, token, Attempt.found_orElse,
    Attempt.found_bind, Attempt.found_pure, Option.map_bind, Option.map_some, Function.comp_def,
    Option.or_none]

theorem silent_keywordExp (c : Cursor) :
    silent .keywordExp c = Category.keywordExp.alternatives.findSome? (silent.alternative c) := by
  have hquoted := itemPlace_of_isSyntactic (r := .keywordQuoted) (by decide)
  have hsimple := itemPlace_of_isSyntactic (r := .keywordSimple) (by decide)
  simp only [Category.alternatives, findSome?_cons_eq_or, List.findSome?_nil, alternative_cons,
    items_cons, items_nil, hquoted, hsimple, item_token, item_spacedString, item_ident]
  simp only [silent, production, keywordExp, Attempt.found_bind, Attempt.found_orElse]
  -- Both alternatives begin with the same identifier.
  cases (Recognizer.ident Recognizer.silent.note c.skipBlanks).found with
  | none => rfl
  | some key =>
    simp only [keywordQuoted, keywordSimple, Attempt.found_bind, Option.bind_some,
      Option.map_bind, Option.map_some, Function.comp_def, Attempt.found_pure, Option.or_none]

/-- Blanks always match, so a quoted value goes on exactly if an identifier follows them. -/
theorem items_further (c : Cursor) :
    silent.items .spaced c further =
      c.skipBlanks.word?.map fun d =>
        [.leaf .spaces c c.skipBlanks, .leaf .ident c.skipBlanks d] := by
  have hplace (c : Cursor) : Rule.spaced.itemPlace c = c := if_neg (by decide)
  simp only [further, items_cons, items_nil, hplace, item_ident]
  have hspaces : silent.item c (.category .spaces) = some (.leaf .spaces c c.skipBlanks) := rfl
  cases h : c.skipBlanks.word? with
  | none =>
    have hident : (Recognizer.ident Recognizer.silent.note c.skipBlanks).found = none :=
      congrArg Attempt.found (ident_of_none _ h)
    simp [hspaces, ParseTree.leaf, hident]
  | some d => simp [hspaces, ParseTree.leaf, ident_of_some _ h]

/-- The loop over a quoted value goes on for as long as its items match. -/
theorem exists_grown (string : ParseTree) :
    ∃ t, (spacedTail Recognizer.silent.note string).found = some t ∧
      silent.Grown .spaced further string t := by
  fun_induction spacedTail Recognizer.silent.note string with
  | case1 string gap d h ih =>
    obtain ⟨t, ht, hgrown⟩ := ih
    refine ⟨t, ht, .more ?_ hgrown⟩
    rw [items_further, h, Option.map_some]
  | case2 string gap h =>
    refine ⟨string, rfl, .stop ?_⟩
    rw [items_further, h, Option.map_none]

/-- The productions take the first alternative that matches. -/
theorem silent_orderedChoice : silent.OrderedChoice where
  choice k hk c := by
    simp only [List.mem_cons, List.not_mem_nil, or_false] at hk
    rcases hk with rfl | rfl | rfl | rfl
    · exact silent_exp c
    · exact silent_logicalExp c
    · exact silent_priExp c
    · exact silent_keywordExp c
  spacedString c first h := by
    have h : (Recognizer.ident Recognizer.silent.note c).found = some first := h
    obtain ⟨t, ht, hgrown⟩ := exists_grown (.node .spacedString first [])
    refine ⟨t, ?_, hgrown⟩
    simp only [silent, production, Recognizer.spacedString, Attempt.found_bind, h,
      Option.bind_some, ht]
  spacedString_eq_none c h := by
    have h : (Recognizer.ident Recognizer.silent.note c).found = none := h
    simp only [silent, production, Recognizer.spacedString, Attempt.found_bind, h, Option.bind_none]
  ident c x name rest hx hname hrest hc := by
    have hlen : (c.rest.takeWhile isNameChar).length = name.length + 1 := by
      rw [hc, List.cons_append, List.takeWhile_cons_of_pos (isNameChar_of_isLetter hx),
        List.takeWhile_append_of_pos (List.all_eq_true.1 hname)]
      cases rest with
      | nil => simp
      | cons y rest => simp [hrest y rfl]
    have hword : c.word? = some (c.advance (name.length + 1)) :=
      Cursor.word?_eq_some_iff.2 ⟨⟨x, name ++ rest, hc, hx⟩, by rw [Cursor.skipWhile, hlen]⟩
    simp only [silent, production, ident_of_some _ hword, Attempt.found_pure]
  ident_eq_none c h := by
    simp only [silent, production, ident_of_none _ (Cursor.word?_eq_none_iff.2 h)]
    rfl
  spaces c gap rest hgap hrest hc := by
    have hlen : (c.rest.takeWhile isBlank).length = gap.length := by
      rw [hc, List.takeWhile_append_of_pos hgap]
      cases rest with
      | nil => simp
      | cons y rest => simp [hrest y rfl]
    simp only [silent, production, Cursor.skipBlanks, Cursor.skipWhile, hlen, Attempt.found_pure]

/-! ## No other reading -/

/-- What the alternatives of a category can begin with, fixed texts apart. -/
def firsts (k : Category) : List Category :=
  k.alternatives.filterMap fun a => match a.items with
    | .category k :: _ => some k
    | _ => none

theorem mem_firsts {k k' : Category} {a : Alternative} (ha : a ∈ k.alternatives)
    (h : a.items.head? = some (.category k')) : k' ∈ firsts k := by
  obtain ⟨is, his⟩ := List.head?_eq_some_iff.1 h
  exact List.mem_filterMap.2 ⟨a, ha, by rw [his]⟩

@[simp] theorem firsts_exp : firsts .exp = [.logicalExp] := rfl

@[simp] theorem firsts_logicalExp : firsts .logicalExp = [.priExp, .priExp, .priExp, .priExp] := rfl

@[simp] theorem firsts_priExp : firsts .priExp = [.keywordExp, .ident] := rfl

@[simp] theorem firsts_keywordExp : firsts .keywordExp = [.ident, .ident] := rfl

/-- Wherever the item matches, it takes up at least one character. -/
def takesUp : Item → Bool
  | .literal s => 0 < s.length
  | .category k => k ≠ .spaces

/-- Such an item ends behind the place where it is looked for. -/
theorem remaining_lt_of_item {i : Item} (hi : takesUp i) {c : Cursor} {t : ParseTree}
    (h : silent.item c i = some t) : t.stop.remaining < c.remaining := by
  cases i with
  | literal s =>
    obtain ⟨d, hd, rfl⟩ := Option.map_eq_some_iff.1 h
    have hlen := Cursor.remaining_of_literal? hd
    have hpos : 0 < s.length := by simpa [takesUp] using hi
    change d.remaining < c.remaining
    omega
  | category k =>
    have hk : k ≠ .spaces := by simpa [takesUp] using hi
    by_cases hfilter : k = .keywordExp
    · subst hfilter
      have hlt := production_yields (afresh_advances _) hk c.skipBlanks () t h
      exact Nat.lt_of_lt_of_le hlt (Cursor.remaining_skipBlanks_le c)
    · have h : silent k c = some t := h
      rw [silent_of_ne hfilter] at h
      exact production_yields (afresh_advances _) hk c () t h

theorem remaining_le_of_item {i : Item} {c : Cursor} {t : ParseTree}
    (h : silent.item c i = some t) : t.stop.remaining ≤ c.remaining := by
  by_cases hi : takesUp i
  · exact Nat.le_of_lt (remaining_lt_of_item hi h)
  · cases i with
    | literal s =>
      obtain ⟨d, hd, rfl⟩ := Option.map_eq_some_iff.1 h
      exact Nat.le.intro (Cursor.remaining_of_literal? hd)
    | category k =>
      obtain rfl : k = .spaces := by simpa [takesUp] using hi
      obtain rfl := Option.some.inj h
      exact Cursor.remaining_skipBlanks_le c

theorem remaining_itemPlace_le (r : Rule) (c : Cursor) :
    (r.itemPlace c).remaining ≤ c.remaining := by
  unfold Rule.itemPlace
  split
  · exact Cursor.remaining_skipBlanks_le c
  · exact Nat.le_refl _

/-- Readings that agree on the items from a place on agree on all of them together. -/
theorem items_congr {r : Rule} {is : List Item} {c : Cursor}
    (h : ∀ i ∈ is, ∀ d, d.remaining ≤ c.remaining → ρ.item d i = silent.item d i) :
    ρ.items r c is = silent.items r c is := by
  induction is generalizing c with
  | nil => rfl
  | cons i is ih =>
    have hplace := remaining_itemPlace_le r c
    rw [items_cons, items_cons, h i List.mem_cons_self _ hplace]
    refine Option.bind_congr fun t ht => congrArg _ (ih fun j hj d hd => ?_)
    have hle := remaining_le_of_item ht
    exact h j (List.mem_cons_of_mem i hj) d (hd.trans (hle.trans hplace))

/-- The first item of an alternative is looked for at its beginning, all others later. -/
theorem alternative_congr {a : Alternative} {c : Cursor} (ha : a.items.head?.any takesUp)
    (hfirst : ∀ i ∈ a.items.head?, ∀ d, d.remaining ≤ c.remaining →
      ρ.item d i = silent.item d i)
    (hlater : ∀ i d, d.remaining < c.remaining → ρ.item d i = silent.item d i) :
    ρ.alternative c a = silent.alternative c a := by
  obtain ⟨r, is⟩ := a
  cases is with
  | nil => simp at ha
  | cons i is =>
  have htakes : takesUp i := ha
  have hplace := remaining_itemPlace_le r c
  rw [alternative_cons, alternative_cons, hfirst i rfl _ hplace]
  refine Option.bind_congr fun t ht => congrArg _ (items_congr fun j _ d hd => ?_)
  have hlt := remaining_lt_of_item htakes ht
  exact hlater j d (by omega)

/-- Every alternative begins with an item that takes up characters. -/
theorem takesUp_first (k : Category) : ∀ a ∈ k.alternatives, a.items.head?.any takesUp := by
  cases k <;> decide

theorem findSome?_congr {α β : Type} {f g : α → Option β} {as : List α}
    (h : ∀ a ∈ as, f a = g a) : as.findSome? f = as.findSome? g := by
  induction as with
  | nil => rfl
  | cons a as ih =>
    rw [findSome?_cons_eq_or, findSome?_cons_eq_or, h a List.mem_cons_self,
      ih fun b hb => h b (List.mem_cons_of_mem a hb)]

namespace OrderedChoice

variable (h : ρ.OrderedChoice)

include h

/-- The characters at a place determine the identifier. -/
theorem ident_eq (c : Cursor) : ρ .ident c = silent .ident c := by
  cases hword : c.word? with
  | some d =>
    obtain ⟨⟨x, xs, hc, hx⟩, -⟩ := Cursor.word?_eq_some_iff.1 hword
    have hname : (xs.takeWhile isNameChar).all isNameChar :=
      List.all_eq_true.2 fun _ => List.mem_takeWhile_imp
    have hrest : c.rest = x :: xs.takeWhile isNameChar ++ xs.dropWhile isNameChar := by
      rw [hc, List.cons_append, List.takeWhile_append_dropWhile]
    have hends := endsName_dropWhile xs
    rw [h.ident c x _ _ hx hname hends hrest,
      silent_orderedChoice.ident c x _ _ hx hname hends hrest]
  | none =>
    have hnone := Cursor.word?_eq_none_iff.1 hword
    rw [h.ident_eq_none c hnone, silent_orderedChoice.ident_eq_none c hnone]

theorem spaces_eq (c : Cursor) : ρ .spaces c = silent .spaces c := by
  have hgap : Blanks (c.rest.takeWhile isBlank) := fun _ => List.mem_takeWhile_imp
  have hrest : ∀ x ∈ (afterBlanks c.rest).head?, isBlank x = false := by
    intro x hx
    obtain ⟨xs, hxs⟩ := List.head?_eq_some_iff.1 hx
    exact not_isBlank_of_afterBlanks hxs
  have happend : c.rest = c.rest.takeWhile isBlank ++ afterBlanks c.rest :=
    List.takeWhile_append_dropWhile.symm
  rw [h.spaces c _ _ hgap hrest happend, silent_orderedChoice.spaces c _ _ hgap hrest happend]

/-- A tree grows in one way only. -/
theorem grown_unique {t t' t'' : ParseTree}
    (hρ : ρ.Grown .spaced further t t')
    (hsilent : silent.Grown .spaced further t t'') : t' = t'' := by
  have hitems (c : Cursor) : ρ.items .spaced c further =
      silent.items .spaced c further := by
    refine items_congr fun i hi d _ => ?_
    simp only [further, List.mem_cons, List.not_mem_nil, or_false] at hi
    rcases hi with rfl | rfl
    · exact h.spaces_eq d
    · exact h.ident_eq d
  induction hρ with
  | stop hstop =>
    rw [hitems] at hstop
    cases hsilent with
    | stop _ => rfl
    | more hmore _ => simp [hstop] at hmore
  | more hmore _ ih =>
    rw [hitems] at hmore
    cases hsilent with
    | stop hstop => simp [hmore] at hstop
    | more hmore' hgrown =>
      obtain rfl := Option.some.inj (hmore.symm.trans hmore')
      exact ih hgrown

theorem spacedString_eq (c : Cursor) : ρ .spacedString c = silent .spacedString c := by
  cases hfirst : silent .ident c with
  | none =>
    rw [silent_orderedChoice.spacedString_eq_none c hfirst,
      h.spacedString_eq_none c ((h.ident_eq c).trans hfirst)]
  | some first =>
    obtain ⟨t, ht, hgrown⟩ := h.spacedString c first ((h.ident_eq c).trans hfirst)
    obtain ⟨t', ht', hgrown'⟩ := silent_orderedChoice.spacedString c first hfirst
    rw [ht, ht', h.grown_unique hgrown hgrown']

/-- What a category can begin with, and all that is read later, determine what is read of it. -/
theorem choice_eq {k : Category} (hk : k ∈ [.exp, .logicalExp, .priExp, .keywordExp]) {c : Cursor}
    (hfirst : ∀ k' ∈ firsts k, ∀ d, d.remaining ≤ c.remaining → ρ k' d = silent k' d)
    (hlater : ∀ k d, d.remaining < c.remaining → ρ k d = silent k d) : ρ k c = silent k c := by
  rw [h.choice k hk c, silent_orderedChoice.choice k hk c]
  refine findSome?_congr fun a ha => alternative_congr (takesUp_first k a ha) ?_ ?_
  · rintro (s | k') hi d hd
    · rfl
    · exact hfirst k' (mem_firsts ha hi) d hd
  · rintro (s | k') d hd
    · rfl
    · exact hlater k' d hd

/-- Every item but the first of an alternative is looked for later than the alternative, so the
reading is determined from the end of the text on. -/
theorem eq_silent : ρ = silent := by
  have hread (n : Nat) : ∀ k (c : Cursor), c.remaining = n → ρ k c = silent k c := by
    induction n using Nat.strongRecOn with
    | ind n ih =>
      have hstep {k : Category} (hk : k ∈ [.exp, .logicalExp, .priExp, .keywordExp])
          (hfirst : ∀ k' ∈ firsts k, ∀ d, d.remaining ≤ n → ρ k' d = silent k' d) (c : Cursor)
          (hc : c.remaining ≤ n) : ρ k c = silent k c :=
        h.choice_eq hk (fun k' hk' d hd => hfirst k' hk' d (hd.trans hc))
          fun k d hd => ih _ (Nat.lt_of_lt_of_le hd hc) k d rfl
      -- Within one place, a category only begins with those before it in this list.
      have hkeyword := hstep (k := .keywordExp) (by simp) (by simp [firsts_keywordExp, h.ident_eq])
      have hpri := hstep (k := .priExp) (by simp)
        (by simpa [firsts_priExp, h.ident_eq] using hkeyword)
      have hlogical := hstep (k := .logicalExp) (by simp) (by simpa [firsts_logicalExp] using hpri)
      have hexp := hstep (k := .exp) (by simp) (by simpa [firsts_exp] using hlogical)
      rintro k c rfl
      cases k with
      | exp => exact hexp c (Nat.le_refl _)
      | logicalExp => exact hlogical c (Nat.le_refl _)
      | priExp => exact hpri c (Nat.le_refl _)
      | keywordExp => exact hkeyword c (Nat.le_refl _)
      | spacedString => exact h.spacedString_eq c
      | ident => exact h.ident_eq c
      | spaces => exact h.spaces_eq c
  funext k c
  exact hread _ k c rfl

end OrderedChoice

/-- A filter begins with an identifier, and the identifier begins exactly where the filter is looked
for. -/
theorem found_keywordExp (c : Cursor) :
    (Recognizer.silent.production .keywordExp c).found =
      if c.skipBlanks = c then silent .keywordExp c else none := by
  split_ifs with hc
  · rw [silent, hc]
  · have hword : c.word? = none := by
      refine Cursor.word?_eq_none_iff.2 fun x hx => ?_
      by_contra hletter
      have hname : isNameChar x := isNameChar_of_isLetter (by simpa using hletter)
      refine hc (skipBlanks_eq_self fun y hy => ?_)
      rw [Option.mem_unique hy hx]
      exact not_isBlank_of_isNameChar hname
    rw [production, keywordExp, ident_of_none _ hword, Attempt.found_bind]
    rfl

/-- The grammar has exactly one reading by ordered choice. It is what all productions find, at every
moment of reading a text and at every place in the text, except that the production of filters only
finds one that begins exactly there. An operand looks for it behind the blanks, where it finds what
the grammar reads. A query is a text that the grammar reads to its end. -/
theorem ordered_choice : ∃ ρ : Reading, ρ.OrderedChoice ∧
    (∀ ρ' : Reading, ρ'.OrderedChoice → ρ' = ρ) ∧ ∀ s : String,
      (∀ st ∈ Economical.initial s :: Economical.moments s, ∀ c : Cursor, c.Within s →
        (∀ k ≠ .keywordExp, (Economical.recognizer.production k c st).1 = ρ k c) ∧
        (Economical.recognizer.production .keywordExp c.skipBlanks st).1 = ρ .keywordExp c ∧
        (Economical.recognizer.production .keywordExp c st).1 =
          if c.skipBlanks = c then ρ .keywordExp c else none) ∧
      ∀ t, ParseTree.ofQuery s = .ok t ↔
        ρ .exp (.start s) = some t ∧ t.stop.skipBlanks.atEnd := by
  refine ⟨silent, silent_orderedChoice, fun ρ' h => h.eq_silent, fun s => ⟨?_, fun t => ?_⟩⟩
  · intro st hst c hc
    have hsound : st.Sound s := by
      rcases List.mem_cons.1 hst with rfl | hst
      · exact Economical.sound_initial s
      · exact Economical.sound_of_mem_moments hst
    refine ⟨fun k hk => ?_, ?_, ?_⟩
    · rw [Economical.production_eq_silent hsound k hc, silent_of_ne hk]
    · exact Economical.production_eq_silent hsound .keywordExp (hc.advance _)
    · rw [Economical.production_eq_silent hsound .keywordExp hc, found_keywordExp]
  · exact ParseTree.ofQuery_eq_ok_iff.trans found_whole

/-- At the blank before a filter, the production of filters finds none and the grammar reads one. -/
theorem keywordExp_at_blank :
    let c := Cursor.start " a:b"
    (Economical.recognizer.production .keywordExp c (Economical.initial " a:b")).1 = none ∧
      ∀ ρ : Reading, ρ.OrderedChoice → ∃ t, ρ .keywordExp c = some t ∧
        t.rule = .keywordSimple ∧ t.span = (1, 4) := by
  have hread : (silent .keywordExp (.start " a:b")).map (fun t => (t.rule, t.span)) =
      some (.keywordSimple, 1, 4) := by decide +kernel
  refine ⟨by decide +kernel, fun ρ hρ => ?_⟩
  obtain ⟨t, ht, htree⟩ := Option.map_eq_some_iff.1 hread
  obtain ⟨hrule, hspan⟩ := Prod.mk.inj htree
  exact ⟨t, hρ.eq_silent ▸ ht, hrule, hspan⟩

end Reading

end SearchQuery
