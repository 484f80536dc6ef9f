import SearchQuery.Proofs.Reading.Word

/-!
# Runs of operands

An expression is a run of operands behind which no other operand follows. The operands are read in
the same way before any other text that ends the run, provided that the quotes in it keep their
partners.

## Main definitions

* `Text.Run` — operands one after another, before a text that ends them.

Main statements: `Text.exists_operand` and `Text.exists_run` say that operands and expressions are
runs, and `Text.Run.read` that a run is read before other texts.
-/

namespace SearchQuery.Text

variable {cs ds us es ks : List Char}

inductive Run : (us es : List Char) → Prop where
  | stop {es : List Char} : Run [] es
  | blank {us es : List Char} {x : Char} (hx : isBlank x) (hus : us ≠ []) (h : Run us es) :
    Run (x :: us) es
  | word {word vs es : List Char} (hword : word ≠ [])
    (hread : Reads afterOperand
      (fun rest => Replaces rest (vs ++ es) ∧ (afterBlanks rest).head? ≠ some ':') word)
    (h : Run vs es) : Run (word ++ vs) es
  | paren {us gap vs es : List Char} (hgap : Blanks gap) (hus : us ≠ [])
    (hin : Run us (gap ++ ')' :: (vs ++ es))) (h : Run vs es) :
    Run ('(' :: (us ++ (gap ++ ')' :: vs))) es
  -- Otherwise, the closing quote and the one behind the run would enclose the run.
  | quote {us gap vs es : List Char} (hgap : Blanks gap) (hus : us ≠ [])
    (hes : vs ≠ [] → (afterBlanks es).head? ≠ some '"')
    (hin : Run us (gap ++ '"' :: (vs ++ es))) (h : Run vs es) :
    Run ('"' :: (us ++ (gap ++ '"' :: vs))) es

/-! ## Behind an operand -/

/-- An operand and all that can be read behind it. -/
theorem afterExp_of_afterOperand (h : afterOperand cs = some ds) :
    afterExp cs = some ((afterExp ds).getD ds) := by
  obtain ⟨x, xs, rfl, hx⟩ := opens_of_afterOperand h
  rw [afterExp_eq, afterBlanks_cons_of_not_isBlank (not_isBlank_of_opens hx), h]
  rfl

/-- An expression begins with an operand. -/
theorem afterExp_mark_eq_none_iff {gap : List Char} (hgap : Blanks gap) {x : Char}
    (hx : isBlank x = false) :
    afterExp (gap ++ x :: cs) = none ↔ afterOperand (x :: cs) = none := by
  rw [afterExp_eq, afterBlanks_mark hgap hx, Option.map_eq_none_iff]

/-- No operand is in quotes if no expression ends before the second quote. -/
theorem afterOperand_quote_eq_none_iff : afterOperand ('"' :: cs) = none ↔
    ∀ ds, afterExp cs = some ds → (afterBlanks ds).head? ≠ some '"' := by
  rw [afterOperand_quote, Option.bind_eq_none_iff]
  refine forall₂_congr fun ds _ => ?_
  cases hds : afterBlanks ds with
  | nil => simp [afterLiteral]
  | cons x xs => simp [afterLiteral, eq_comm]

theorem afterOperand_parens {gap : List Char} (hgap : Blanks gap)
    (h : afterExp (us ++ (gap ++ ')' :: ks)) = some (gap ++ ')' :: ks)) :
    afterOperand ('(' :: (us ++ (gap ++ ')' :: ks))) = some ks := by
  rw [afterOperand_paren, h, Option.bind_some, afterBlanks_mark hgap (by decide)]
  exact afterLiteral_append ")" ks

theorem afterOperand_quotes {gap : List Char} (hgap : Blanks gap)
    (h : afterExp (us ++ (gap ++ '"' :: ks)) = some (gap ++ '"' :: ks)) :
    afterOperand ('"' :: (us ++ (gap ++ '"' :: ks))) = some ks := by
  rw [afterOperand_quote, h, Option.bind_some, afterBlanks_mark hgap (by decide)]
  exact afterLiteral_append "\"" ks

/-- An operand, and an expression if anything follows the operand, are an expression. -/
theorem afterExp_append (us : List Char) {vs : List Char}
    (hus : afterOperand (us ++ (vs ++ ks)) = some (vs ++ ks))
    (hvs : vs ≠ [] → afterExp (vs ++ ks) = some ks) (hks : afterExp ks = none) :
    afterExp (us ++ (vs ++ ks)) = some ks := by
  rw [afterExp_of_afterOperand hus]
  by_cases hne : vs = []
  · subst hne
    rw [List.nil_append, hks]
    rfl
  · rw [hvs hne]
    rfl

/-- No expression begins with a colon. -/
theorem head_ne_colon_of_afterExp (h : afterExp cs = some ds) :
    (afterBlanks cs).head? ≠ some ':' := by
  obtain ⟨x, xs, hx, hopens⟩ := opens_of_afterExp h
  rw [hx]
  exact fun h => opens_ne_colon hopens (Option.some.inj h)

/-! ## Runs -/

namespace Run

theorem blanks {gap : List Char} (hgap : Blanks gap) (hus : us ≠ []) (h : Run us es) :
    Run (gap ++ us) es := by
  induction gap with
  | nil => exact h
  | cons x gap ih =>
    refine .blank (hgap x List.mem_cons_self) ?_ (ih fun y hy => hgap y (List.mem_cons_of_mem x hy))
    simp [hus]

end Run

/-- An operand begins a run if the expressions in it are runs. -/
theorem operand_run
    (hin : ∀ xs es, xs.length < cs.length → afterExp xs = some es →
      ∃ us, us ≠ [] ∧ xs = us ++ es ∧ Run us es)
    (h : afterOperand cs = some ds) :
    ∃ us, us ≠ [] ∧ cs = us ++ ds ∧ ∀ vs es, ds = vs ++ es →
      (vs ≠ [] → afterExp (vs ++ es) = some es) → Run vs es → Run (us ++ vs) es := by
  obtain ⟨x, xs, rfl, hx⟩ := opens_of_afterOperand h
  have hlen : xs.length < (x :: xs).length := by simp
  simp only [opens, Bool.or_eq_true, decide_eq_true_eq] at hx
  rcases hx with (rfl | rfl) | hx
  · rw [afterOperand_paren] at h
    obtain ⟨fs, hfs, hclosing⟩ := Option.bind_eq_some_iff.1 h
    obtain ⟨us, hus, rfl, hrun⟩ := hin _ _ hlen hfs
    obtain ⟨gap, hgap, rfl⟩ : ∃ gap, Blanks gap ∧ fs = gap ++ ')' :: ds :=
      exists_token hclosing
    refine ⟨'(' :: (us ++ (gap ++ [')'])), by simp, by simp, ?_⟩
    rintro vs es rfl - hvs
    simpa using Run.paren hgap hus hrun hvs
  · rw [afterOperand_quote] at h
    obtain ⟨fs, hfs, hclosing⟩ := Option.bind_eq_some_iff.1 h
    obtain ⟨us, hus, rfl, hrun⟩ := hin _ _ hlen hfs
    obtain ⟨gap, hgap, rfl⟩ : ∃ gap, Blanks gap ∧ fs = gap ++ '"' :: ds :=
      exists_token hclosing
    -- Otherwise the closing quote and one behind the run would enclose an operand.
    have hends := (afterExp_mark_eq_none_iff hgap (by decide)).1 (afterExp_of_afterExp hfs)
    rw [afterOperand_quote_eq_none_iff] at hends
    refine ⟨'"' :: (us ++ (gap ++ ['"'])), by simp, by simp, ?_⟩
    rintro vs es rfl hread hvs
    simpa using Run.quote hgap hus (fun hne => hends es (hread hne)) hrun hvs
  · obtain ⟨front, rfl, hread⟩ := exists_word hx h
    refine ⟨x :: front, by simp, rfl, ?_⟩
    rintro vs es rfl - hvs
    exact .word (by simp) hread hvs

/-- An expression that is read is a run of operands. -/
theorem exists_run (h : afterExp cs = some es) : ∃ us, us ≠ [] ∧ cs = us ++ es ∧ Run us es := by
  induction hn : cs.length using Nat.strongRecOn generalizing cs es with
  | ind n ih =>
    subst hn
    rw [afterExp_eq] at h
    obtain ⟨ds, hds, hes⟩ := Option.map_eq_some_iff.1 h
    obtain ⟨gap, hgap, hcs⟩ := exists_blanks cs
    have hle : (afterBlanks cs).length ≤ cs.length := (List.dropWhile_suffix isBlank).length_le
    obtain ⟨us, hus, heq, hrun⟩ := operand_run
      (fun xs es hlt hxs => ih _ (Nat.lt_of_lt_of_le hlt hle) hxs rfl) hds
    rw [heq] at hcs
    -- What follows the first operand is a run, perhaps an empty one.
    obtain ⟨vs, rfl, hvs, hrest⟩ : ∃ vs, ds = vs ++ es ∧
        (vs ≠ [] → afterExp (vs ++ es) = some es) ∧ Run vs es := by
      cases he : afterExp ds with
      | none =>
        rw [he] at hes
        obtain rfl : ds = es := hes
        exact ⟨[], rfl, fun h => absurd rfl h, .stop⟩
      | some k =>
        rw [he] at hes
        obtain rfl : k = es := hes
        have hlt := length_lt_of_afterOperand hds
        obtain ⟨vs, -, rfl, hvs⟩ := ih _ (Nat.lt_of_lt_of_le hlt hle) he rfl
        exact ⟨vs, rfl, fun _ => he, hvs⟩
    refine ⟨gap ++ (us ++ vs), by simp [hus], by simp [hcs], ?_⟩
    exact (hrun vs es rfl hvs hrest).blanks hgap (by simp [hus])

theorem exists_operand (h : afterOperand cs = some ds) :
    ∃ us, us ≠ [] ∧ cs = us ++ ds ∧ Run us ds := by
  obtain ⟨us, hus, heq, hrun⟩ := operand_run (fun _ _ _ => exists_run) h
  have := hrun [] ds rfl (fun h => absurd rfl h) .stop
  exact ⟨us, hus, heq, by simpa using this⟩

/-- A run of operands is read in the same way before any text that ends it. The text may only begin
with a quote if this was so before. -/
theorem Run.read (h : Run us es) (hus : us ≠ []) (hks : afterExp ks = none)
    (hname : Replaces ks es) (hcolon : (afterBlanks ks).head? ≠ some ':')
    (hquote : (afterBlanks ks).head? = some '"' → (afterBlanks es).head? = some '"') :
    afterExp (us ++ ks) = some ks := by
  induction h generalizing ks with
  | stop => exact absurd rfl hus
  | blank hx hne h ih =>
    have := ih hne hks hname hcolon hquote
    rwa [List.cons_append, afterExp_cons_of_isBlank hx]
  | @word word vs es hword hread h ih =>
    have hvs (hne : vs ≠ []) := ih hne hks hname hcolon hquote
    rw [List.append_assoc]
    refine afterExp_append word (hread _ ⟨?_, ?_⟩) hvs hks
    · cases vs with
      | nil => exact hname
      | cons y vs => exact .of_head rfl
    · by_cases hne : vs = []
      · rwa [hne]
      · exact head_ne_colon_of_afterExp (hvs hne)
  | @paren us gap vs es hgap hne hin h ihin ih =>
    have hvs (hne : vs ≠ []) := ih hne hks hname hcolon hquote
    have hblanks (rest : List Char) := afterBlanks_mark hgap (x := ')') (by decide) rest
    have hends : afterExp (gap ++ ')' :: (vs ++ ks)) = none :=
      (afterExp_mark_eq_none_iff hgap (by decide)).2 (afterOperand_of_not_opens (by decide))
    have hinner := ihin hne hends (.of_head (by cases gap <;> rfl)) (by rw [hblanks]; nofun)
      (by rw [hblanks]; nofun)
    have hoperand := afterOperand_parens hgap hinner
    have := afterExp_append ('(' :: (us ++ (gap ++ [')']))) (by simpa using hoperand) hvs hks
    simpa using this
  | @quote us gap vs es hgap hne hes hin h ihin ih =>
    have hvs (hne : vs ≠ []) := ih hne hks hname hcolon hquote
    have hblanks (rest : List Char) := afterBlanks_mark hgap (x := '"') (by decide) rest
    have hends : afterExp (gap ++ '"' :: (vs ++ ks)) = none := by
      rw [afterExp_mark_eq_none_iff hgap (by decide), afterOperand_quote_eq_none_iff]
      intro ds hds hhead
      by_cases hempty : vs = []
      · rw [hempty, List.nil_append, hks] at hds
        contradiction
      · obtain rfl : ks = ds := Option.some.inj ((hvs hempty).symm.trans hds)
        exact hes hempty (hquote hhead)
    have hinner := ihin hne hends (.of_head (by cases gap <;> rfl)) (by rw [hblanks]; nofun)
      (fun _ => by rw [hblanks]; rfl)
    have hoperand := afterOperand_quotes hgap hinner
    have := afterExp_append ('"' :: (us ++ (gap ++ ['"']))) (by simpa using hoperand) hvs hks
    simpa using this

/-- A run in parentheses is an operand. -/
theorem Run.afterOperand_parens (h : Run us es) (hus : us ≠ []) {gap : List Char}
    (hgap : Blanks gap) (hes : Replaces (gap ++ ')' :: ks) es) :
    afterOperand ('(' :: (us ++ (gap ++ [')'])) ++ ks) = some ks := by
  have hblanks := afterBlanks_mark hgap (x := ')') (by decide) ks
  have hends : afterExp (gap ++ ')' :: ks) = none :=
    (afterExp_mark_eq_none_iff hgap (by decide)).2 (afterOperand_of_not_opens (by decide))
  have hread := h.read hus hends hes (by rw [hblanks]; nofun) (by rw [hblanks]; nofun)
  simpa using Text.afterOperand_parens hgap hread

end SearchQuery.Text
