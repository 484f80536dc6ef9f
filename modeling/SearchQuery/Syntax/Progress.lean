import SearchQuery.Syntax.Recognition

/-!
# Productions read on

Every production that succeeds has read at least one character, provided the recognizer's way of
reading a `LogicalExp` does. So a `LogicalExp` is only ever read at a later place than the one being
read, and leaving out all other places changes nothing.

Main statements: `afreshAt_eq` is the recursion of the grammar without a bound on the places, and
`afresh_advances` says that it reads on.
-/

namespace SearchQuery.Recognizer

variable {σ : Type} {note : Failure → σ → σ} {R : Recognizer σ}

def Advances (R : Recognizer σ) : Prop :=
  ∀ c, (R.logicalAt c).Yields fun t => t.stop.remaining < c.remaining

/-- The recognizer that reads a `LogicalExp` only at places after `c`. -/
def beyond (R : Recognizer σ) (c : Cursor) : Recognizer σ :=
  ⟨R.note, fun d => if d.remaining < c.remaining then R.logicalAt d else failure⟩

/-! ## Leaves and keyword filters -/

theorem literal_yields (s : String) (c : Cursor) :
    (literal note s c).Yields fun t => t.stop.remaining + s.length = c.remaining := by
  unfold literal
  split
  · next h => exact .pure (Cursor.remaining_of_literal? h)
  · exact .failAfter _

theorem token_yields (s : String) (c : Cursor) :
    (token note s c).Yields fun t => t.stop.remaining + s.length ≤ c.remaining :=
  (literal_yields s _).mono fun _ h => h ▸ Cursor.remaining_skipBlanks_le c

theorem ident_yields (c : Cursor) :
    (ident note c).Yields fun t => t.stop.remaining < c.remaining := by
  unfold ident
  split
  · next h => exact .pure (Cursor.remaining_lt_of_word? h)
  · exact .failAfter _

theorem spacedTail_yields (string : ParseTree) :
    (spacedTail note string).Yields fun t => t.stop.remaining ≤ string.stop.remaining := by
  fun_induction spacedTail note string with
  | case1 string gap d h ih =>
    refine ih.mono fun t ht => Nat.le_trans ht ?_
    exact Nat.le_trans (Nat.le_of_lt (Cursor.remaining_lt_of_word? h))
      (Cursor.remaining_skipBlanks_le string.stop)
  | case2 string gap h => exact .orElse (.failAfter _) (.pure (Nat.le_refl _))

/-- A quoted value is never given up once it has begun. -/
theorem spacedTail_isSome (string : ParseTree) (s : σ) :
    (spacedTail note string s).1.isSome := by
  fun_induction spacedTail note string generalizing s with
  | case1 string gap d h ih => exact ih s
  | case2 string gap h => rfl

theorem spacedTail_of_word? {string : ParseTree} {d : Cursor}
    (h : string.stop.skipBlanks.word? = some d) :
    spacedTail note string = spacedTail note (.node .spaced string
      [.leaf .spaces string.stop string.stop.skipBlanks,
        .leaf .ident string.stop.skipBlanks d]) := by
  rw [spacedTail]
  split
  · next d' h' =>
    obtain rfl := Option.some.inj (h.symm.trans h')
    rfl
  · next h' => simp [h] at h'

theorem spacedTail_of_no_word {string : ParseTree} (h : string.stop.skipBlanks.word? = none) :
    spacedTail note string =
      (miss note string.stop.skipBlanks (.described identDescription) <|> pure string) := by
  rw [spacedTail]
  split
  · next d h' => simp [h] at h'
  · rfl

/-- The loop over a quoted value as an ordered choice. -/
theorem spacedTail_eq (string : ParseTree) :
    spacedTail note string =
      ((do
        let word ← ident note string.stop.skipBlanks
        spacedTail note
          (.node .spaced string [.leaf .spaces string.stop string.stop.skipBlanks, word]))
      <|> pure string) := by
  funext s
  cases h : string.stop.skipBlanks.word? with
  | none =>
    simp only [spacedTail_of_no_word h, Attempt.orElse_apply, Attempt.bind_apply, ident_of_none _ h,
      miss, Attempt.failAfter_apply]
  | some d =>
    simp only [spacedTail_of_word? h, Attempt.orElse_apply, Attempt.bind_apply, ident_of_some _ h,
      Attempt.pure_apply]
    rcases hs : spacedTail note _ s with ⟨_ | t, s'⟩
    · have hsome := congrArg (·.1.isSome) hs
      rw [spacedTail_isSome] at hsome
      contradiction
    · rfl

theorem spacedString_yields (c : Cursor) :
    (spacedString note c).Yields fun t => t.stop.remaining < c.remaining :=
  (ident_yields c).bind fun _ h =>
    (spacedTail_yields _).mono fun _ ht => Nat.lt_of_le_of_lt ht h

theorem keywordQuoted_yields (key : ParseTree) :
    (keywordQuoted note key).Yields fun t => t.stop.remaining < key.stop.remaining :=
  (token_yields _ _).bind fun opening hopening =>
    (spacedString_yields _).bind fun value hvalue =>
      (token_yields _ _).bind fun closing hclosing => .pure <| by
        have := Cursor.remaining_skipBlanks_le opening.stop
        simp
        omega

theorem keywordSimple_yields (key : ParseTree) :
    (keywordSimple note key).Yields fun t => t.stop.remaining < key.stop.remaining :=
  (token_yields _ _).bind fun colon hcolon =>
    (ident_yields _).bind fun value hvalue => .pure <| by
      have := Cursor.remaining_skipBlanks_le colon.stop
      simp
      omega

theorem keywordExp_yields (c : Cursor) :
    (keywordExp note c).Yields fun t => t.stop.remaining < c.remaining :=
  (ident_yields c).bind fun key hkey =>
    .orElse ((keywordQuoted_yields key).mono fun _ h => Nat.lt_trans h hkey)
      ((keywordSimple_yields key).mono fun _ h => Nat.lt_trans h hkey)

/-! ## Expressions -/

theorem logicalExp_yields (hR : R.Advances) (c : Cursor) :
    (R.logicalExp c).Yields fun t => t.stop.remaining < c.remaining :=
  (hR _).mono fun _ h => Nat.lt_of_lt_of_le h (Cursor.remaining_skipBlanks_le c)

theorem exp_yields (hR : R.Advances) (c : Cursor) :
    (R.exp c).Yields fun t => t.stop.remaining < c.remaining :=
  (logicalExp_yields hR c).bind fun _ h => .pure h

theorem delimited_yields (hR : R.Advances) (opening closing : String) (rule : Rule) (c : Cursor) :
    (R.delimited opening closing rule c).Yields fun t => t.stop.remaining < c.remaining :=
  (literal_yields _ _).bind fun _ hfirst =>
    (exp_yields hR _).bind fun _ hinner =>
      (token_yields _ _).bind fun _ hlast => .pure <| by
        simp
        omega

theorem single_yields {item : Attempt σ ParseTree} {n : Nat}
    (h : item.Yields fun t => t.stop.remaining < n) :
    (single item).Yields fun t => t.stop.remaining < n :=
  h.bind fun _ ht => .pure ht

theorem priExp_yields (hR : R.Advances) (c : Cursor) :
    (R.priExp c).Yields fun t => t.stop.remaining < c.remaining :=
  .orElse (delimited_yields hR _ _ _ _) <| .orElse (delimited_yields hR _ _ _ _) <|
    .orElse (single_yields (keywordExp_yields c)) (single_yields (ident_yields c))

theorem connected_yields (hR : R.Advances) (left : ParseTree) (op : String) (rule : Rule) :
    (R.connected left op rule).Yields fun t => t.stop.remaining < left.stop.remaining :=
  (token_yields _ _).bind fun _ hop =>
    (logicalExp_yields hR _).bind fun _ hright => .pure <| by
      simp
      omega

theorem joined_yields (hR : R.Advances) (left : ParseTree) :
    (R.joined left).Yields fun t => t.stop.remaining < left.stop.remaining :=
  (logicalExp_yields hR _).bind fun _ h => .pure h

/-- A round of the recursion takes up at least one character. -/
theorem logicalAlternatives_yields (hR : R.Advances) (c : Cursor) :
    (R.logicalAlternatives c).Yields fun t => t.stop.remaining < c.remaining :=
  (priExp_yields hR c).bind fun left hleft =>
    have after {x : Attempt σ ParseTree}
        (h : x.Yields fun t => t.stop.remaining < left.stop.remaining) :
        x.Yields fun t => t.stop.remaining < c.remaining :=
      h.mono fun _ ht => Nat.lt_trans ht hleft
    .orElse (after (connected_yields hR _ _ _)) <| .orElse (after (connected_yields hR _ _ _)) <|
      .orElse (after (joined_yields hR _)) (.pure hleft)

/-! ## Failure at the first character

The last thing that is looked for before an operand is given up is an identifier at its place.
-/

theorem ident_eq_none {c : Cursor} {s s' : σ} (h : ident note c s = (none, s')) :
    s' = note ⟨c, .described identDescription⟩ s := by
  cases hw : c.word? with
  | none =>
    rw [ident_of_none _ hw] at h
    exact (congrArg Prod.snd h).symm
  | some d =>
    rw [ident_of_some _ hw] at h
    simp at h

theorem single_eq_none {x : Attempt σ ParseTree} {s s' : σ} (h : single x s = (none, s')) :
    x s = (none, s') := by
  rw [single, Attempt.bind_apply] at h
  rcases hx : x s with ⟨_ | t, s''⟩ <;> rw [hx] at h
  · exact h
  · simp at h

/-- Where there is no operand, an identifier was looked for last. -/
theorem priExp_eq_none {c : Cursor} {s s' : σ} (h : R.priExp c s = (none, s')) :
    ∃ s₀, s' = R.note ⟨c, .described identDescription⟩ s₀ := by
  obtain ⟨s₁, h⟩ := Attempt.of_orElse_eq_none h
  obtain ⟨s₂, h⟩ := Attempt.of_orElse_eq_none h
  obtain ⟨s₃, h⟩ := Attempt.of_orElse_eq_none h
  exact ⟨s₃, ident_eq_none (single_eq_none h)⟩

theorem logicalAlternatives_eq_none {c : Cursor} {s s' : σ}
    (h : R.logicalAlternatives c s = (none, s')) : R.priExp c s = (none, s') := by
  rw [logicalAlternatives, Attempt.bind_apply] at h
  rcases hx : R.priExp c s with ⟨_ | left, s''⟩ <;> rw [hx] at h
  · exact h
  · obtain ⟨s₁, h⟩ := Attempt.of_orElse_eq_none h
    obtain ⟨s₂, h⟩ := Attempt.of_orElse_eq_none h
    obtain ⟨s₃, h⟩ := Attempt.of_orElse_eq_none h
    simp at h

/-! ## Later places suffice -/

theorem logicalExp_beyond {c d : Cursor} (h : d.remaining < c.remaining) :
    (R.beyond c).logicalExp d = R.logicalExp d :=
  if_pos (Nat.lt_of_le_of_lt (Cursor.remaining_skipBlanks_le d) h)

theorem exp_beyond {c d : Cursor} (h : d.remaining < c.remaining) :
    (R.beyond c).exp d = R.exp d := by
  rw [exp, exp, logicalExp_beyond h]

theorem delimited_beyond {opening : String} (h : 0 < opening.length) (closing : String)
    (rule : Rule) (c : Cursor) :
    (R.beyond c).delimited opening closing rule c = R.delimited opening closing rule c :=
  Attempt.bind_congr_of_yields (literal_yields opening c) fun first hfirst => by
    rw [exp_beyond (by omega)]
    rfl

/-- An operand looks for expressions only behind its beginning. -/
theorem priExp_beyond (c : Cursor) : (R.beyond c).priExp c = R.priExp c := by
  rw [priExp, priExp, delimited_beyond (by decide), delimited_beyond (by decide)]
  rfl

theorem connected_beyond {c : Cursor} {left : ParseTree} (h : left.stop.remaining < c.remaining)
    (op : String) (rule : Rule) :
    (R.beyond c).connected left op rule = R.connected left op rule :=
  Attempt.bind_congr_of_yields (token_yields op left.stop) fun operator hop => by
    rw [logicalExp_beyond (by omega)]

theorem joined_beyond {c : Cursor} {left : ParseTree} (h : left.stop.remaining < c.remaining) :
    (R.beyond c).joined left = R.joined left := by
  rw [joined, joined, logicalExp_beyond h]

/-- Reading the alternatives at `c` needs a `LogicalExp` only after `c`. -/
theorem logicalAlternatives_beyond (hR : R.Advances) (c : Cursor) :
    (R.beyond c).logicalAlternatives c = R.logicalAlternatives c := by
  rw [logicalAlternatives, logicalAlternatives, priExp_beyond]
  refine Attempt.bind_congr_of_yields (priExp_yields hR c) fun left hleft => ?_
  rw [connected_beyond hleft, connected_beyond hleft, joined_beyond hleft]

/-! ## Reading afresh -/

/-- A property of what is read passes through the recursion if it passes through one round. -/
theorem afreshAt_yields {P : Cursor → ParseTree → Prop}
    (hP : ∀ R : Recognizer σ, (∀ d, (R.logicalAt d).Yields (P d)) →
      ∀ c, (R.logicalAlternatives c).Yields (P c)) (c : Cursor) :
    (afreshAt note c).Yields (P c) := by
  induction hn : c.remaining using Nat.strongRecOn generalizing c with
  | ind n ih =>
    subst hn
    rw [afreshAt]
    refine hP ((afresh note).beyond c) (fun d => ?_) c
    by_cases h : d.remaining < c.remaining
    · simpa only [beyond, if_pos h, afresh] using ih _ h d rfl
    · simpa only [beyond, if_neg h] using .failAfter id

/-- Reading a `LogicalExp` afresh takes up at least one character. -/
theorem afresh_advances (note : Failure → σ → σ) : (afresh note).Advances :=
  afreshAt_yields fun _ hR => logicalAlternatives_yields hR

/-- The recursion of the grammar, without a bound on the places. -/
theorem afreshAt_eq (note : Failure → σ → σ) (c : Cursor) :
    afreshAt note c = (afresh note).logicalAlternatives c := by
  rw [← logicalAlternatives_beyond (afresh_advances note) c, afreshAt]
  rfl

theorem afreshAt_eq_none {c : Cursor} {s s' : σ} (h : afreshAt note c s = (none, s')) :
    ∃ s₀, s' = note ⟨c, .described identDescription⟩ s₀ := by
  rw [afreshAt_eq] at h
  exact priExp_eq_none (logicalAlternatives_eq_none h)

end SearchQuery.Recognizer
