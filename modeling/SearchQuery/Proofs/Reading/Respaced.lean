import SearchQuery.Proofs.Reading.Memory
import SearchQuery.Proofs.Reading.Word
import SearchQuery.Proofs.Text.Collapse

/-!
# Other blanks in the same place

Two texts that differ in one run of blanks are read in the same way. The places that the two
readings come to lie both before the run, equally far from the beginning, or both behind it, equally
far from the end. No item begins before the run and ends behind it, as blanks end every item.

## Main definitions

* `ParseTree.Resembles` — trees of one shape with the same texts, blanks apart.
* `Respacing` — two texts that differ in a run of blanks.
* `Respacing.Aligned` — places of the two texts that belong together.
* `Correspondence.respaced` — readings of the two texts.

Main statement: `Respacing.recognize` compares what is found and what is reported.
-/

namespace SearchQuery

open Recognizer Text

/-- Trees of one shape. Nodes in the same place have the same rule, leaves have the same text unless
they stand for blanks, and all texts are the same up to runs of blanks. -/
inductive ParseTree.Resembles : ParseTree → ParseTree → Prop where
  | intro {t t' : ParseTree} (rule : t.rule = t'.rule)
    (leaf : t.children = [] → t.rule ≠ .spaces → t.text = t'.text)
    (text : collapse t.text.toList = collapse t'.text.toList)
    (children : List.Forall₂ Resembles t.children t'.children) : Resembles t t'

/-! ## The end of items -/

namespace Text

/-- No item that begins before `cs` goes on with it. -/
def EndsItems (cs : List Char) : Prop := ∀ x ∈ cs.head?, isBlank x

theorem endsItems_nil : EndsItems [] := nofun

theorem endsItems_gap {gap : List Char} (hgap : Blanks gap) (hne : gap ≠ []) (cs : List Char) :
    EndsItems (gap ++ cs) := by
  intro x hx
  obtain ⟨y, gap, rfl⟩ := List.exists_cons_of_ne_nil hne
  obtain rfl : y = x := Option.some.inj hx
  exact hgap y List.mem_cons_self

theorem EndsItems.endsName {cs : List Char} (h : EndsItems cs) : EndsName cs :=
  fun x hx => not_isNameChar_of_isBlank (h x hx)

/-- A text without blanks does not reach into what ends all items. -/
theorem EndsItems.prefix_iff {l xs cs : List Char} (h : EndsItems cs)
    (hl : ∀ x ∈ l, isBlank x = false) : l <+: xs ++ cs ↔ l <+: xs := by
  refine ⟨prefix_of_head (p := (isBlank · = false)) hl fun x hx => ?_, fun hxs => ?_⟩
  · simp [h x hx]
  · exact hxs.trans (List.prefix_append xs cs)

/-- What comes next is a word exactly if the common front begins with one. -/
theorem EndsItems.word?_eq {xs cs : List Char} (h : EndsItems cs) {c : Cursor}
    (hc : c.rest = xs ++ cs) :
    c.word? = if xs.head?.any isLetter then
      some (c.advance (xs.takeWhile isNameChar).length) else none := by
  have htake : (xs ++ cs).takeWhile isNameChar = xs.takeWhile isNameChar := by
    have hcs : cs.takeWhile isNameChar = [] := by
      cases cs with
      | nil => rfl
      | cons x cs => exact List.takeWhile_cons_of_neg (by simp [h.endsName x rfl])
    rw [List.takeWhile_append, hcs, List.append_nil]
    split
    · next hlen => exact ((List.takeWhile_prefix _).eq_of_length hlen).symm
    · rfl
  have hhead : (xs ++ cs).head?.any isLetter = xs.head?.any isLetter := by
    cases xs with
    | cons x xs => rfl
    | nil =>
      cases cs with
      | nil => rfl
      | cons x cs =>
        have hname := h.endsName x rfl
        rw [isNameChar, Bool.or_eq_false_iff] at hname
        exact hname.1
  rw [Cursor.word?, Cursor.skipWhile, hc, htake, hhead]

end Text

/-! ## Places -/

namespace Cursor

/-- The place behind `front` in a text that goes on with `back`. -/
def between (front back : List Char) : Cursor := ⟨byteCount front, back⟩

@[simp] theorem rest_between (front back : List Char) : (between front back).rest = back := rfl

@[simp] theorem offset_between (front back : List Char) :
    (between front back).offset = byteCount front := rfl

@[simp] theorem remaining_between (front back : List Char) :
    (between front back).remaining = back.length := rfl

theorem advance_between (front back : List Char) (n : Nat) :
    (between front back).advance n = between (front ++ back.take n) (back.drop n) := by
  simp [between, advance]

theorem skipBlanks_between (front back : List Char) :
    (between front back).skipBlanks =
      between (front ++ back.takeWhile isBlank) (afterBlanks back) := by
  have htake := List.prefix_iff_eq_take.1 (back.takeWhile_prefix isBlank)
  have hdrop : back.drop (back.takeWhile isBlank).length = afterBlanks back :=
    rest_skipWhile isBlank (between front back)
  rw [skipBlanks, skipWhile, rest_between, advance_between, ← htake, hdrop]

end Cursor

/-- Two texts that are the same but for a run of blanks. -/
structure Respacing where
  /-- What stands before the run. -/
  before : List Char
  /-- What stands behind it. -/
  behind : List Char
  /-- The run in the first text. -/
  gap : List Char
  /-- The run in the second text. -/
  gap' : List Char
  blanks_gap : Blanks gap
  gap_ne_nil : gap ≠ []
  blanks_gap' : Blanks gap'
  gap'_ne_nil : gap' ≠ []

namespace Respacing

variable (R : Respacing)

def left : String := String.ofList (R.before ++ (R.gap ++ R.behind))

def right : String := String.ofList (R.before ++ (R.gap' ++ R.behind))

/-- Places of the two texts that are both before the run or both behind it. -/
inductive Aligned : Cursor → Cursor → Prop where
  | before {front back : List Char} (h : front ++ back = R.before) :
    Aligned (.between front (back ++ (R.gap ++ R.behind)))
      (.between front (back ++ (R.gap' ++ R.behind)))
  | behind {front back : List Char} (h : front ++ back = R.behind) :
    Aligned (.between (R.before ++ (R.gap ++ front)) back)
      (.between (R.before ++ (R.gap' ++ front)) back)

variable {R} {c c' d d' : Cursor}

namespace Aligned

theorem start : R.Aligned (.start R.left) (.start R.right) := by
  have hstart := before (R := R) (List.nil_append _)
  simpa [Cursor.start, Cursor.between, left, right] using hstart

/-- The readings go on alike up to a place that ends every item. -/
theorem exists_common (h : R.Aligned c d) : ∃ xs cs ds, c.rest = xs ++ cs ∧ d.rest = xs ++ ds ∧
    EndsItems cs ∧ EndsItems ds ∧ ∀ n ≤ xs.length, R.Aligned (c.advance n) (d.advance n) := by
  cases h with
  | @before front back h =>
    refine ⟨back, _, _, rfl, rfl, endsItems_gap R.blanks_gap R.gap_ne_nil _,
      endsItems_gap R.blanks_gap' R.gap'_ne_nil _, fun n hn => ?_⟩
    rw [Cursor.advance_between, Cursor.advance_between, List.take_append_of_le_length hn,
      List.take_append_of_le_length hn, List.drop_append_of_le_length hn,
      List.drop_append_of_le_length hn]
    exact .before (by simp [h])
  | @behind front back h =>
    refine ⟨back, [], [], (List.append_nil _).symm, (List.append_nil _).symm, endsItems_nil,
      endsItems_nil, fun n _ => ?_⟩
    rw [Cursor.advance_between, Cursor.advance_between, List.append_assoc, List.append_assoc,
      List.append_assoc, List.append_assoc]
    exact .behind (by simp [h])

theorem atEnd_eq (h : R.Aligned c d) : c.atEnd = d.atEnd := by
  cases h with
  | before =>
    have hmore {gap : List Char} (hne : gap ≠ []) (front back : List Char) :
        (front ++ (gap ++ back)).isEmpty = false :=
      List.isEmpty_eq_false_iff.2 (by simp [hne])
    exact (hmore R.gap_ne_nil _ _).trans (hmore R.gap'_ne_nil _ _).symm
  | behind => rfl

/-! ## Order -/

/-- Places that belong together come in the same order. -/
theorem offset_lt_iff (h : R.Aligned c d) (h' : R.Aligned c' d') :
    c.offset < c'.offset ↔ d.offset < d'.offset := by
  have hgap := byteCount_pos R.gap_ne_nil
  have hgap' := byteCount_pos R.gap'_ne_nil
  cases h with
  | before h =>
    cases h' with
    | before => exact Iff.rfl
    | behind =>
      simp only [Cursor.offset_between, ← h, byteCount_append]
      omega
  | behind h =>
    cases h' with
    | before h' =>
      simp only [Cursor.offset_between, ← h', byteCount_append]
      omega
    | behind =>
      simp only [Cursor.offset_between, byteCount_append]
      omega

theorem remaining_lt_iff (h : R.Aligned c d) (h' : R.Aligned c' d') :
    c.remaining < c'.remaining ↔ d.remaining < d'.remaining := by
  have hgap := List.length_pos_iff.2 R.gap_ne_nil
  have hgap' := List.length_pos_iff.2 R.gap'_ne_nil
  cases h with
  | before h =>
    cases h' with
    | before =>
      simp only [Cursor.remaining_between, List.length_append]
      omega
    | behind h' =>
      simp only [Cursor.remaining_between, ← h', List.length_append]
      omega
  | behind h =>
    cases h' with
    | before h' =>
      simp only [Cursor.remaining_between, ← h, List.length_append]
      omega
    | behind => exact Iff.rfl

/-- The texts between two places are the same up to runs of blanks. -/
theorem collapse_upTo (h : R.Aligned c d) (h' : R.Aligned c' d') :
    collapse (c.upTo c') = collapse (d.upTo d') := by
  cases h with
  | @before front back h =>
    cases h' with
    | @before front' back' h' =>
      have hupTo (cs : List Char) : (Cursor.between front (back ++ cs)).upTo
          (Cursor.between front' (back' ++ cs)) = back.take (back.length - back'.length) := by
        simp only [Cursor.upTo, Cursor.remaining_between, Cursor.rest_between, List.length_append,
          Nat.add_sub_add_right]
        exact List.take_append_of_le_length (Nat.sub_le _ _)
      rw [hupTo, hupTo]
    | @behind front' back' h' =>
      have hupTo (gap : List Char) : (Cursor.between front (back ++ (gap ++ R.behind))).upTo
          (Cursor.between (R.before ++ (gap ++ front')) back') = back ++ (gap ++ front') :=
        Cursor.upTo_of_rest (by simp [← h'])
      rw [hupTo, hupTo]
      exact collapse_replace R.blanks_gap R.gap_ne_nil R.blanks_gap' R.gap'_ne_nil back front'
  | @behind front back h =>
    cases h' with
    | @before front' back' h' =>
      have hupTo (front'' gap : List Char) : (Cursor.between front'' back).upTo
          (Cursor.between front' (back' ++ (gap ++ R.behind))) = [] := by
        have hle : back.length ≤ (back' ++ (gap ++ R.behind)).length := by
          simp only [← h, List.length_append]
          omega
        rw [Cursor.upTo, Cursor.remaining_between, Cursor.remaining_between,
          Nat.sub_eq_zero_of_le hle, List.take_zero]
      rw [hupTo, hupTo]
    | behind => rfl

/-- So are the texts of trees between two places. -/
theorem collapse_text {t t' : ParseTree} (h : R.Aligned t.start t'.start)
    (h' : R.Aligned t.stop t'.stop) : collapse t.text.toList = collapse t'.text.toList := by
  rw [ParseTree.text, ParseTree.text, String.toList_ofList, String.toList_ofList]
  exact h.collapse_upTo h'

/-! ## Blanks -/

/-- From places that belong together, skipping blanks leads to places that do. -/
theorem skipBlanks (h : R.Aligned c d) : R.Aligned c.skipBlanks d.skipBlanks := by
  cases h with
  | @before front back h =>
    by_cases hnil : afterBlanks back = []
    · -- What is skipped goes on behind the run.
      have hback : Blanks back := List.dropWhile_eq_nil_iff.1 hnil
      have hskip {gap : List Char} (hgap : Blanks gap) :
          (Cursor.between front (back ++ (gap ++ R.behind))).skipBlanks =
            .between (R.before ++ (gap ++ R.behind.takeWhile isBlank)) (afterBlanks R.behind) := by
        rw [Cursor.skipBlanks_between, List.takeWhile_append_of_pos hback,
          List.takeWhile_append_of_pos hgap, afterBlanks_append hback, afterBlanks_append hgap,
          ← List.append_assoc, h]
      rw [hskip R.blanks_gap, hskip R.blanks_gap']
      exact .behind List.takeWhile_append_dropWhile
    · have hskip (cs : List Char) : (Cursor.between front (back ++ cs)).skipBlanks =
          .between (front ++ back.takeWhile isBlank) (afterBlanks back ++ cs) := by
        rw [Cursor.skipBlanks_between, afterBlanks_append_of_ne hnil, List.takeWhile_append, if_neg]
        intro hlen
        have hall := (List.takeWhile_prefix isBlank).eq_of_length hlen
        exact hnil (List.dropWhile_eq_nil_iff.2 (List.takeWhile_eq_self_iff.1 hall))
      rw [hskip, hskip]
      exact .before (by rw [List.append_assoc, afterBlanks, List.takeWhile_append_dropWhile, h])
  | @behind front back h =>
    rw [Cursor.skipBlanks_between, Cursor.skipBlanks_between, List.append_assoc, List.append_assoc,
      List.append_assoc, List.append_assoc]
    exact .behind (by rw [List.append_assoc, afterBlanks, List.takeWhile_append_dropWhile, h])

end Aligned

/-- Trees of one shape that begin and end at places that belong together. -/
def Matches (R : Respacing) (t t' : ParseTree) : Prop :=
  t.Resembles t' ∧ R.Aligned t.start t'.start ∧ R.Aligned t.stop t'.stop

theorem matches_of_aligned {t t' : ParseTree} (hrule : t.rule = t'.rule)
    (hleaf : t.children = [] → t.rule ≠ .spaces → t.text = t'.text)
    (hstart : R.Aligned t.start t'.start) (hstop : R.Aligned t.stop t'.stop)
    (hchildren : List.Forall₂ ParseTree.Resembles t.children t'.children) : R.Matches t t' :=
  ⟨.intro hrule hleaf (hstart.collapse_text hstop) hchildren, hstart, hstop⟩

end Respacing

/-! ## Corresponding readings -/

namespace Correspondence

/-- Readings of two texts that differ in a run of blanks. -/
def respaced (R : Respacing) : Correspondence Report Report where
  noteLeft f r := r.note f
  noteRight f r := r.note f
  states r r' := r.expected = r'.expected ∧ R.Aligned r.furthest r'.furthest
  places := R.Aligned
  facing := R.Aligned
  trees := R.Matches
  lost _ := False
  edge := 0

variable {R : Respacing} {c d : Cursor}

theorem respaced_miss (h : R.Aligned c d) (e : Expected) :
    (respaced R).Follows (miss (respaced R).noteLeft c e) (miss (respaced R).noteRight d e) := by
  rintro r r' ⟨hexpected, hfurthest⟩
  have hlt := hfurthest.offset_lt_iff h
  have hgt := h.offset_lt_iff hfurthest
  have heq : c.offset = r.furthest.offset ↔ d.offset = r'.furthest.offset := by omega
  refine .none ?_
  simp only [respaced, Report.note, hlt, heq, hexpected]
  split
  · exact ⟨rfl, h⟩
  · split
    · exact ⟨rfl, hfurthest⟩
    · exact ⟨hexpected, hfurthest⟩

/-- An item of the same characters in both texts. -/
theorem respaced_leaf {n : Nat} (rule : Rule) (h : R.Aligned c d)
    (h' : R.Aligned (c.advance n) (d.advance n)) (hrest : c.rest.take n = d.rest.take n) :
    (respaced R).Follows (pure (.leaf rule c (c.advance n)))
      (pure (.leaf rule d (d.advance n))) := by
  have htext : (ParseTree.leaf rule c (c.advance n)).text =
      (ParseTree.leaf rule d (d.advance n)).text := by
    refine congrArg String.ofList ?_
    change c.upTo (c.advance n) = d.upTo (d.advance n)
    rw [Cursor.upTo_advance, Cursor.upTo_advance, hrest]
  exact .pure (Respacing.matches_of_aligned rfl (fun _ _ => htext) h h' .nil)

theorem respaced_literal {l : String} (hl : l ∈ literals) (h : R.Aligned c d) :
    (respaced R).Follows (Recognizer.literal (respaced R).noteLeft l c)
      (Recognizer.literal (respaced R).noteRight l d) := by
  have hblanks : ∀ l ∈ literals, ∀ x ∈ l.toList, isBlank x = false := by simp [literals, isBlank]
  obtain ⟨xs, cs, ds, hc, hd, hcs, hds, hadvance⟩ := h.exists_common
  have hfits : l.toList <+: c.rest ↔ l.toList <+: xs := hc ▸ hcs.prefix_iff (hblanks l hl)
  have hfits' : l.toList <+: d.rest ↔ l.toList <+: xs := hd ▸ hds.prefix_iff (hblanks l hl)
  by_cases hxs : l.toList <+: xs
  · have hlen : l.length ≤ xs.length := String.length_toList ▸ hxs.length_le
    rw [literal_of_some _ (Cursor.literal?_eq_some_iff.2 ⟨hfits.2 hxs, rfl⟩),
      literal_of_some _ (Cursor.literal?_eq_some_iff.2 ⟨hfits'.2 hxs, rfl⟩)]
    refine respaced_leaf .terminal h (hadvance _ hlen) ?_
    rw [hc, hd, List.take_append_of_le_length hlen, List.take_append_of_le_length hlen]
  · rw [literal_of_none _ (Cursor.literal?_eq_none_iff.2 (mt hfits.1 hxs)),
      literal_of_none _ (Cursor.literal?_eq_none_iff.2 (mt hfits'.1 hxs))]
    exact respaced_miss h _

theorem respaced_ident (h : R.Aligned c d) :
    (respaced R).Follows (Recognizer.ident (respaced R).noteLeft c)
      (Recognizer.ident (respaced R).noteRight d) := by
  obtain ⟨xs, cs, ds, hc, hd, hcs, hds, hadvance⟩ := h.exists_common
  have hword := hcs.word?_eq hc
  have hword' := hds.word?_eq hd
  split at hword
  · next hletter =>
    rw [if_pos hletter] at hword'
    have hlen := (List.takeWhile_prefix isNameChar (l := xs)).length_le
    rw [ident_of_some _ hword, ident_of_some _ hword']
    refine respaced_leaf .ident h (hadvance _ hlen) ?_
    rw [hc, hd, List.take_append_of_le_length hlen, List.take_append_of_le_length hlen]
  · next hletter =>
    rw [if_neg hletter] at hword'
    rw [ident_of_none _ hword, ident_of_none _ hword']
    exact respaced_miss h _

theorem respaced_lawful (R : Respacing) : (respaced R).Lawful where
  lost_note _ _ h := h
  lost_note_of_past _ _ h := absurd h (Nat.not_lt_zero _)
  skip h := h.skipBlanks
  stop h := h.2.2
  node rule hab h := by
    have hstop := (forall₂_getLastD hab h).2.2
    have hchildren := h.imp fun _ _ h => h.1
    exact Respacing.matches_of_aligned rfl nofun hab.2.1 hstop (.cons hab.1 hchildren)
  spaces h := Respacing.matches_of_aligned rfl (fun _ h => absurd rfl h) h h.skipBlanks .nil
  literal := respaced_literal
  ident := respaced_ident
  order h h' := h'.remaining_lt_iff h
  edge_le _ := Nat.zero_le _

end Correspondence

/-- What is found in two texts that differ in a run of blanks, and the reports where nothing is. -/
theorem Respacing.recognize (R : Respacing) :
    (∃ t t', Forgetful.recognize R.left = .ok t ∧ Forgetful.recognize R.right = .ok t' ∧
        t.Resembles t') ∨
      ∃ r r', Forgetful.recognize R.left = .error r ∧ Forgetful.recognize R.right = .error r' ∧
        r.expected = r'.expected ∧ R.Aligned r.furthest r'.furthest := by
  have hwhole : (Correspondence.respaced R).Follows
      (Forgetful.recognizer.whole (.start R.left)) (Forgetful.recognizer.whole (.start R.right)) :=
    (Correspondence.respaced_lawful R).whole_follows
      (fun _ _ => (Correspondence.respaced_lawful R).afresh_logicalExp_follows) Aligned.start
      fun h => ⟨h.atEnd_eq, Correspondence.respaced_miss h _⟩
  have hagree := hwhole (.start (.start R.left)) (.start (.start R.right)) ⟨rfl, Aligned.start⟩
  rw [Forgetful.recognize, Forgetful.recognize]
  generalize Forgetful.recognizer.whole (.start R.left) _ = outcome at hagree ⊢
  generalize Forgetful.recognizer.whole (.start R.right) _ = outcome' at hagree ⊢
  cases hagree with
  | none h => exact .inr ⟨_, _, rfl, rfl, h⟩
  | some hab _ => exact .inl ⟨_, _, rfl, rfl, hab.1⟩
  | gone h =>
    cases h with
    | lost h => exact h.elim
    | past h => exact absurd h (Nat.not_lt_zero _)

end SearchQuery
