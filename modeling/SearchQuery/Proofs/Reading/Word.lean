import SearchQuery.Proofs.Reading.Operand

/-!
# Words before other texts

An identifier, a quoted value or a filter is read in the same way before any text that does not go
on with it.

## Main definitions

* `Text.EndsName`, `Text.EndsWords` — a text that ends an identifier or a quoted value before it.
* `Text.Reads` — what comes next is left, whatever it is.
* `Text.Replaces` — a text that can follow in the place of another one.
-/

namespace SearchQuery.Text

variable {cs ds : List Char}

def EndsName (cs : List Char) : Prop := ∀ x ∈ cs.head?, isNameChar x = false

def EndsWords (cs : List Char) : Prop := EndsName cs ∧ afterName (afterBlanks cs) = none

/-- No identifier that ends before `cs` goes on with `ds`. -/
def Replaces (ds cs : List Char) : Prop := ∀ x ∈ ds.head?, isNameChar x → x ∈ cs.head?

/-- Behind `front`, all of what comes next is left if it satisfies `follow`. -/
def Reads (read : List Char → Option (List Char)) (follow : List Char → Prop)
    (front : List Char) : Prop :=
  ∀ rest, follow rest → read (front ++ rest) = some rest

/-! ## The end of a word -/

theorem EndsName.cons {x : Char} (h : isNameChar x = false) (cs : List Char) :
    EndsName (x :: cs) :=
  fun _ hx => Option.some.inj hx ▸ h

theorem EndsName.dropWhile_eq (h : EndsName cs) : cs.dropWhile isNameChar = cs := by
  cases cs with
  | nil => rfl
  | cons x cs => exact List.dropWhile_cons_of_neg (by simp [h x rfl])

/-- What an identifier leaves does not go on with it. -/
theorem endsName_dropWhile (cs : List Char) : EndsName (cs.dropWhile isNameChar) := by
  intro x hx
  have := List.head?_dropWhile_not isNameChar cs
  rw [hx] at this
  simpa using this

theorem EndsName.append {front : List Char} (h : EndsName (front ++ ds)) (hcs : EndsName cs) :
    EndsName (front ++ cs) := by
  cases front with
  | nil => exact hcs
  | cons x front => exact .cons (h x rfl) _

theorem endsName_gap {gap : List Char} (hne : gap ≠ []) (hgap : Blanks gap) (cs : List Char) :
    EndsName (gap ++ cs) := by
  cases gap with
  | nil => contradiction
  | cons x gap => exact .cons (not_isNameChar_of_isBlank (hgap x List.mem_cons_self)) _

theorem EndsName.of_blanks {gap : List Char} (hgap : Blanks gap) (h : EndsName cs) :
    EndsName (gap ++ cs) := by
  by_cases hne : gap = []
  · rwa [hne]
  · exact endsName_gap hne hgap cs

theorem EndsName.replaces (h : EndsName cs) (hds : Replaces ds cs) : EndsName ds := by
  intro x hx
  by_contra hname
  have := h x (hds x hx (by simpa using hname))
  contradiction

theorem Replaces.of_head (h : ds.head? = cs.head?) : Replaces ds cs := fun _ hx _ => h ▸ hx

theorem replaces_nil (cs : List Char) : Replaces [] cs := nofun

theorem replaces_append (front : List Char) (h : Replaces ds cs) :
    Replaces (front ++ ds) (front ++ cs) := by
  cases front with
  | nil => exact h
  | cons x front => exact .of_head rfl

theorem replaces_of_blanks {gap : List Char} (hne : gap ≠ []) (hgap : Blanks gap) :
    Replaces (gap ++ ds) cs := by
  intro y hy hname
  rw [endsName_gap hne hgap ds y hy] at hname
  contradiction

/-- What is made up of certain characters does not go on where there is none of them. -/
theorem prefix_of_head {p : Char → Prop} {front xs : List Char} (hfront : ∀ x ∈ front, p x)
    (hcs : ∀ x ∈ cs.head?, ¬ p x) (h : front <+: xs ++ cs) : front <+: xs := by
  obtain ⟨es, hes⟩ := h
  rcases List.append_eq_append_iff.1 hes with ⟨back, rfl, -⟩ | ⟨back, rfl, hrest⟩
  · exact List.prefix_append front back
  · cases back with
    | nil => exact ⟨[], by simp⟩
    | cons y back => exact absurd (hfront y (by simp)) (hcs y (by rw [hrest]; rfl))

/-- An identifier at the beginning of a text lies in the word there. -/
theorem prefix_of_endsName {name word : List Char} (hname : IsIdentifier name) (hcs : EndsName cs)
    (h : name <+: word ++ cs) : name <+: word := by
  refine prefix_of_head (p := (isNameChar · = true)) (fun x hx => hname.isNameChar_of_mem hx) ?_ h
  intro x hx
  simp [hcs x hx]

theorem endsWords_quote {gap : List Char} (hgap : Blanks gap) (cs : List Char) :
    EndsWords (gap ++ '"' :: cs) := by
  refine ⟨.of_blanks hgap (.cons (by decide) cs), ?_⟩
  rw [afterBlanks_append hgap, afterBlanks_cons_of_not_isBlank (by decide)]
  exact afterName_cons_of_not_isLetter (by decide)

/-! ## Identifiers and quoted values -/

theorem afterName_append {x : Char} {name : List Char} (hx : isLetter x)
    (hname : name.all isNameChar) : Reads afterName EndsName (x :: name) := by
  intro rest hrest
  rw [List.cons_append, afterName_cons_of_isLetter hx,
    List.dropWhile_append_of_pos (List.all_eq_true.1 hname), hrest.dropWhile_eq]

theorem exists_name (h : afterName cs = some ds) :
    ∃ x name, isLetter x ∧ name.all isNameChar ∧ cs = x :: name ++ ds ∧ EndsName ds := by
  cases cs with
  | nil => simp [afterName] at h
  | cons x cs =>
    by_cases hx : isLetter x
    · rw [afterName_cons_of_isLetter hx, Option.some.injEq] at h
      obtain rfl := h
      refine ⟨x, cs.takeWhile isNameChar, hx, ?_, ?_, endsName_dropWhile cs⟩
      · rw [List.all_eq_true]
        exact fun _ => List.mem_takeWhile_imp
      · rw [List.cons_append, List.takeWhile_append_dropWhile]
    · rw [afterName_cons_of_not_isLetter (by simpa using hx)] at h
      contradiction

theorem afterMore_of_endsWords (h : EndsWords cs) : afterMore cs = some cs := by
  rw [afterMore_eq, h.2]
  rfl

/-- Behind blanks, another identifier belongs to the value. -/
theorem afterMore_word {gap : List Char} (hgap : Blanks gap) {x : Char}
    {name : List Char} (hx : isLetter x) (hname : name.all isNameChar) (hcs : EndsName cs) :
    afterMore (gap ++ (x :: name ++ cs)) = afterMore cs := by
  have hblank : isBlank x = false := not_isBlank_of_isNameChar (isNameChar_of_isLetter hx)
  have hmore : ∃ ds, afterMore cs = some ds := by
    rw [← Option.isSome_iff_exists, afterMore_eq]
    simp
  obtain ⟨ds, hds⟩ := hmore
  rw [afterMore_eq, afterBlanks_append hgap, List.cons_append,
    afterBlanks_cons_of_not_isBlank hblank, ← List.cons_append, afterName_append hx hname cs hcs,
    Option.bind_some, hds, Option.some_or]

/-- The further identifiers of a quoted value are read in the same way before other texts. -/
theorem exists_more (h : afterMore cs = some ds) :
    ∃ front, cs = front ++ ds ∧
      ∀ rest, EndsName rest → afterMore (front ++ rest) = afterMore rest := by
  induction hn : cs.length using Nat.strongRecOn generalizing cs with
  | ind n ih =>
    subst hn
    cases hword : afterName (afterBlanks cs) with
    | none =>
      rw [afterMore_eq, hword] at h
      obtain rfl := Option.some.inj h
      exact ⟨[], rfl, fun rest _ => rfl⟩
    | some es =>
      obtain ⟨x, name, hx, hname, heq, hes⟩ := exists_name hword
      obtain ⟨gap, hgap, hcs⟩ := exists_blanks cs
      rw [heq] at hcs
      rw [hcs, afterMore_word hgap hx hname hes] at h
      obtain ⟨front, rfl, hread⟩ := ih _ (by simp [hcs]; omega) h rfl
      refine ⟨gap ++ (x :: name ++ front), by simp [hcs], fun rest hrest => ?_⟩
      have := afterMore_word hgap hx hname (hes.append hrest)
      rw [List.append_assoc, List.append_assoc, this, hread rest hrest]

/-- `words` begins a quoted value, and all that can be read behind it belongs to the value. -/
def Words (words : List Char) : Prop :=
  ∀ rest, EndsName rest → afterWords (words ++ rest) = afterMore rest

theorem words_name {x : Char} {name : List Char} (hx : isLetter x) (hname : name.all isNameChar) :
    Words (x :: name) := by
  intro rest hrest
  rw [afterWords, afterName_append hx hname rest hrest, Option.bind_some]

/-- A quoted value can be lengthened by blanks and an identifier. -/
theorem Words.snoc {words gap name : List Char} {x : Char} (h : Words words) (hne : gap ≠ [])
    (hgap : Blanks gap) (hx : isLetter x) (hname : name.all isNameChar) :
    Words (words ++ (gap ++ x :: name)) := by
  intro rest hrest
  rw [List.append_assoc, List.append_assoc, h _ (endsName_gap hne hgap _),
    afterMore_word hgap hx hname hrest]

theorem exists_words (h : afterWords cs = some ds) :
    ∃ x words, isLetter x ∧ cs = x :: words ++ ds ∧ Words (x :: words) := by
  obtain ⟨es, hes, hmore⟩ := Option.bind_eq_some_iff.1 h
  obtain ⟨x, name, hx, hname, rfl, hname'⟩ := exists_name hes
  obtain ⟨front, rfl, hread⟩ := exists_more hmore
  refine ⟨x, name ++ front, hx, by simp, fun rest hrest => ?_⟩
  have hword := afterName_append hx hname _ (hname'.append hrest)
  rw [afterWords, List.cons_append, List.append_assoc, ← List.cons_append, hword]
  exact hread rest hrest

/-! ## Filters -/

theorem afterBlanks_letter {gap : List Char} (hgap : Blanks gap) {x : Char}
    (hx : isLetter x) (cs : List Char) : afterBlanks (gap ++ x :: cs) = x :: cs := by
  rw [afterBlanks_append hgap]
  exact afterBlanks_cons_of_not_isBlank (not_isBlank_of_isNameChar (isNameChar_of_isLetter hx))

theorem afterBlanks_mark {gap : List Char} (hgap : Blanks gap) {x : Char}
    (hx : isBlank x = false) (cs : List Char) : afterBlanks (gap ++ x :: cs) = x :: cs := by
  rw [afterBlanks_append hgap, afterBlanks_cons_of_not_isBlank hx]

theorem afterKey_quoted {gap gap' words gap'' : List Char} (hgap : Blanks gap)
    (hgap' : Blanks gap') (hgap'' : Blanks gap'') {x : Char}
    (hx : isLetter x) (hwords : Words (x :: words)) (rest : List Char) :
    afterKey (gap ++ ':' :: '"' :: (gap' ++ x :: (words ++ (gap'' ++ '"' :: rest)))) =
      some rest := by
  have hopening (cs : List Char) : afterLiteral ":\"" (':' :: '"' :: cs) = some cs :=
    afterLiteral_append ":\"" cs
  have hclosing : afterLiteral "\"" ('"' :: rest) = some rest := afterLiteral_append "\"" rest
  have hends := endsWords_quote hgap'' rest
  have hvalue := hwords _ hends.1
  rw [List.cons_append, afterMore_of_endsWords hends] at hvalue
  rw [afterKey_eq, afterBlanks_mark hgap (by decide), hopening, Option.bind_some,
    afterBlanks_letter hgap' hx, hvalue, Option.bind_some, afterBlanks_mark hgap'' (by decide),
    hclosing]
  rfl

/-- A value that begins with a letter is not in quotes. -/
theorem afterLiteral_opening {gap : List Char} (hgap : Blanks gap) {x : Char} (hx : isLetter x)
    (cs : List Char) : afterLiteral ":\"" (':' :: (gap ++ x :: cs)) = none := by
  cases h : afterLiteral ":\"" (':' :: (gap ++ x :: cs)) with
  | none => rfl
  | some ds =>
    have hds : ':' :: (gap ++ x :: cs) = ':' :: '"' :: ds := afterLiteral_eq_some_iff.1 h
    have hfirst := congrArg afterBlanks (List.cons.inj hds).2
    rw [afterBlanks_letter hgap hx, afterBlanks_cons_of_not_isBlank (by decide)] at hfirst
    obtain ⟨rfl, -⟩ := List.cons.inj hfirst
    exact absurd hx (by decide)

theorem afterKey_simple {gap gap' name : List Char} (hgap : Blanks gap)
    (hgap' : Blanks gap') {x : Char} (hx : isLetter x) (hname : name.all isNameChar)
    {rest : List Char} (hrest : EndsName rest) :
    afterKey (gap ++ ':' :: (gap' ++ x :: (name ++ rest))) = some rest := by
  have hcolon (cs : List Char) : afterLiteral ":" (':' :: cs) = some cs :=
    afterLiteral_append ":" cs
  have hvalue := afterName_append hx hname rest hrest
  rw [List.cons_append] at hvalue
  rw [afterKey_eq, afterBlanks_mark hgap (by decide), afterLiteral_opening hgap' hx, hcolon,
    Option.bind_none, Option.none_or, Option.bind_some, afterBlanks_letter hgap' hx, hvalue]

theorem exists_key (h : afterKey cs = some ds) :
    ∃ front, cs = front ++ ds ∧ Reads afterKey (Replaces · ds) front := by
  obtain ⟨gap, hgap, hcs⟩ := exists_blanks cs
  rw [afterKey_eq, Option.or_eq_some_iff] at h
  rcases h with h | ⟨-, h⟩
  · obtain ⟨es, hes, h⟩ := Option.bind_eq_some_iff.1 h
    obtain ⟨fs, hfs, h⟩ := Option.bind_eq_some_iff.1 h
    obtain ⟨gap', hgap', hes'⟩ := exists_blanks es
    obtain ⟨gap'', hgap'', hfs'⟩ := exists_blanks fs
    obtain ⟨x, words, hx, hwords, hread⟩ := exists_words hfs
    have hclosing : afterBlanks fs = '"' :: ds := afterLiteral_eq_some_iff.1 h
    rw [afterLiteral_eq_some_iff.1 hes, hes', hwords, hfs', hclosing] at hcs
    refine ⟨gap ++ ':' :: '"' :: (gap' ++ x :: (words ++ (gap'' ++ ['"']))), by simp [hcs],
      fun rest _ => ?_⟩
    have := afterKey_quoted hgap hgap' hgap'' hx hread rest
    simpa using this
  · obtain ⟨es, hes, h⟩ := Option.bind_eq_some_iff.1 h
    obtain ⟨gap', hgap', hes'⟩ := exists_blanks es
    obtain ⟨x, name, hx, hname, heq, hds⟩ := exists_name h
    rw [afterLiteral_eq_some_iff.1 hes, hes', heq] at hcs
    refine ⟨gap ++ ':' :: (gap' ++ x :: name), by simp [hcs], fun rest hrest => ?_⟩
    have := afterKey_simple hgap hgap' hx hname (hds.replaces hrest)
    simpa using this

/-- A word or a filter is read in the same way before other texts that do not go on with it. -/
theorem exists_word {x : Char} (hx : isLetter x) (h : afterOperand (x :: cs) = some ds) :
    ∃ front, cs = front ++ ds ∧
      Reads afterOperand (fun rest => Replaces rest ds ∧ (afterBlanks rest).head? ≠ some ':')
        (x :: front) := by
  have hname : (cs.takeWhile isNameChar).all isNameChar := by
    rw [List.all_eq_true]
    exact fun _ => List.mem_takeWhile_imp
  have hcs : cs = cs.takeWhile isNameChar ++ cs.dropWhile isNameChar :=
    List.takeWhile_append_dropWhile.symm
  have hends := endsName_dropWhile cs
  generalize cs.takeWhile isNameChar = name at hname hcs
  rw [afterOperand_letter hx] at h
  generalize cs.dropWhile isNameChar = es at h hcs hends
  have hread (rest : List Char) (hrest : EndsName rest) :
      afterOperand (x :: (name ++ rest)) = some ((afterKey rest).getD rest) := by
    rw [afterOperand_letter hx, List.dropWhile_append_of_pos (List.all_eq_true.1 hname),
      hrest.dropWhile_eq]
  cases hkey : afterKey es with
  | none =>
    rw [hkey] at h
    obtain rfl := Option.some.inj h
    refine ⟨name, hcs, fun rest hrest => ?_⟩
    rw [List.cons_append, hread _ (hends.replaces hrest.1), afterKey_of_head hrest.2]
    rfl
  | some fs =>
    rw [hkey] at h
    obtain rfl : fs = ds := Option.some.inj h
    obtain ⟨front, rfl, hfront⟩ := exists_key hkey
    refine ⟨name ++ front, by rw [hcs, List.append_assoc], fun rest hrest => ?_⟩
    have hends' : EndsName (front ++ rest) := by
      cases front with
      | nil => exact hends.replaces hrest.1
      | cons y front => exact .cons (hends y rfl) _
    rw [List.cons_append, List.append_assoc, hread _ hends', hfront rest hrest.1]
    rfl

end SearchQuery.Text
