import SearchQuery.Proofs.Query.Context
import SearchQuery.Proofs.Query.RoundTrip

/-!
# Chains of operands

Operands that stand one after another, with operators or spaces between them, are read from the
right. The value of a chain follows from the values that its operands have when they stand alone.

## Main definitions

* `Operand` — words, filters, and queries in parentheses or quotes.
* `Connector` — what stands between two operands.
* `Chain` — operands with connectors between them.
* `Chain.value` — the values of the operands, combined from the right.

Main statement: `Chain.parse_text`.
-/

namespace SearchQuery

open Recognizer Text

/-! ## Operands and connectors -/

inductive Operand where
  | word (name : String)
  | simple (key value : String)
  | quoted (key words : String)
  | paren (query : String)
  | quote (query : String)

namespace Operand

def text : Operand → String
  | word name => name
  | simple key value => key ++ ":" ++ value
  | quoted key words => key ++ ":\"" ++ words ++ "\""
  | paren query => "(" ++ query ++ ")"
  | quote query => "\"" ++ query ++ "\""

/-- An operand standing alone, without delimiters around it. -/
def alone : Operand → String
  | paren query => query
  | quote query => query
  | o => o.text

/-- Words, keys and values are identifiers, and what is delimited is a query. A query in quotes has
no quotes itself. -/
def Valid : Operand → Prop
  | word name => IsIdentifier name.toList
  | simple key value => IsIdentifier key.toList ∧ IsIdentifier value.toList
  | quoted key words => IsIdentifier key.toList ∧ IsSpaced words.toList
  | paren query => ∃ t, ParseTree.ofQuery query = .ok t
  | quote query => (∃ t, ParseTree.ofQuery query = .ok t) ∧ '"' ∉ query.toList

end Operand

/-- What stands between two operands. -/
inductive Connector where
  | operator (p : Connective)
  | space

namespace Connector

def text : Connector → String
  | operator p => " " ++ p.keyword ++ " "
  | space => " "

theorem exists_text (c : Connector) : ∃ xs, c.text.toList = ' ' :: xs := by
  cases c <;> simp [text]

/-- Behind a mere space, no operand begins like an operator. -/
def Allows : Connector → Operand → Prop
  | operator _, _ => True
  | space, o => Query.startsWithOperator o.text.toList = false

def join : Connector → (left right : Query) → Query
  | operator p => Query.combine p
  | space => Query.juxtapose

end Connector

/-! ## Chains -/

inductive Chain where
  | last (o : Operand)
  | link (o : Operand) (c : Connector) (rest : Chain)

namespace Chain

def first : Chain → Operand
  | last o => o
  | link o _ _ => o

def text : Chain → String
  | last o => o.text
  | link o c rest => o.text ++ c.text ++ rest.text

/-- The values of the operands, each read alone, combined from the right. -/
def value : Chain → Except QueryError Query
  | last o => Query.parse o.alone
  | link o c rest => return c.join (← Query.parse o.alone) (← rest.value)

/-- All operands are valid, and each can stand behind its connector. -/
def Valid : Chain → Prop
  | last o => o.Valid
  | link o c rest => o.Valid ∧ c.Allows rest.first ∧ rest.Valid

end Chain

namespace Query

/-! ## Operands before other texts -/

/-- A query is an expression with blanks behind it. -/
theorem exists_found_of_ofQuery {s : String} {t : ParseTree} (h : ParseTree.ofQuery s = .ok t) :
    ∃ us gap q, s.toList = us ++ gap ∧ Blanks gap ∧ Found silent.logicalExp us gap q ∧
      parse s = .ok q := by
  have hwhole := ParseTree.ofQuery_eq_ok_iff.1 h
  obtain ⟨hexp, hend⟩ := found_whole.1 hwhole
  rw [Recognizer.exp, Attempt.found_bind, Option.bind_eq_some_iff] at hexp
  obtain ⟨inner, hinner, ht⟩ := hexp
  obtain rfl : ParseTree.node .exp inner [] = t := Option.some.inj ht
  obtain ⟨us, q, hus, hq, hfound⟩ := exists_found_logicalExp hinner
  refine ⟨us, inner.stop.rest, q, hus, ?_, hfound, ?_⟩
  · obtain ⟨gap, hgap, hrest⟩ := exists_skipBlanks inner.stop
    have hnil : inner.stop.skipBlanks.rest = [] := List.isEmpty_iff.1 hend
    rw [hrest, hnil, List.append_nil]
    exact hgap
  · exact parse_eq_ok_iff.2 ⟨_, hwhole, by rw [eval_only (by simp), hq]⟩

/-- A closing delimiter can stand behind a query. -/
theorem takesPlace_close {us gap ks : List Char} (hgap : Blanks gap) {x : Char}
    (hx : isBlank x = false) (hname : isNameChar x = false) (hcolon : x ≠ ':')
    (hends : afterOperand (x :: ks) = none) (hquote : x = '"' → '"' ∉ us) :
    TakesPlace us gap (gap ++ x :: ks) where
  exp := (afterExp_mark_eq_none_iff hgap hx).2 hends
  name y hy hletter := by
    have := EndsName.of_blanks hgap (.cons hname ks) y hy
    simp [this] at hletter
  colon := by simpa [afterBlanks_mark hgap hx] using hcolon
  quote hmem h := by
    rw [afterBlanks_mark hgap hx, List.head?_cons, Option.some.injEq] at h
    exact absurd hmem (hquote h)

/-- What is read as an operand before any text is read alone with the same value. -/
theorem parse_of_finds {s : String} {q : Query}
    (h : ∀ ks, Follows ks → Finds silent.priExp s.toList ks q) : parse s = .ok q :=
  Finds.parse (finds_alone (h [] ends_nil.follows) afterExp_nil)

/-- A query in parentheses is read as it is read alone. -/
theorem exists_finds_paren {s : String} {t : ParseTree} (h : ParseTree.ofQuery s = .ok t) :
    ∃ q, parse s = .ok q ∧
      ∀ ks, Finds silent.priExp (Operand.paren s).text.toList ks q := by
  obtain ⟨us, gap, q, hs, hgap, hfound, hq⟩ := exists_found_of_ofQuery h
  refine ⟨q, hq, fun ks => ?_⟩
  have hends : Text.afterOperand (')' :: ks) = none := afterOperand_of_not_opens (by decide)
  have := finds_paren hgap <| hfound.finds_expression <|
    takesPlace_close hgap (by decide) (by decide) (by decide) hends nofun
  simpa [Operand.text, hs] using this

/-- A query in quotes is read as it is read alone. -/
theorem exists_finds_quote {s : String} {t : ParseTree} (h : ParseTree.ofQuery s = .ok t)
    (hs : '"' ∉ s.toList) :
    ∃ q, parse s = .ok q ∧
      ∀ ks, Follows ks → Finds silent.priExp (Operand.quote s).text.toList ks q := by
  obtain ⟨us, gap, q, heq, hgap, hfound, hq⟩ := exists_found_of_ofQuery h
  refine ⟨q, hq, fun ks hks => ?_⟩
  have hends : Text.afterOperand ('"' :: ks) = none := afterOperand_quote_eq_none_iff.2 hks.quote
  have hus : '"' ∉ us := fun hmem => hs (heq ▸ List.mem_append_left gap hmem)
  have := finds_quote hgap <| hfound.finds_expression <|
    takesPlace_close hgap (by decide) (by decide) (by decide) hends fun _ => hus
  simpa [Operand.text, heq] using this

end Query

open Query

namespace Operand

variable {o : Operand} {q : Query}

/-- Words and filters are read alone, and with the same value before what can follow them. -/
theorem exists_finds_atom (halone : o.alone = o.text)
    (h : ∀ ks, EndsName ks → Atom o.text.toList ks q) :
    ∃ q, parse o.alone = .ok q ∧ ∀ ks, Follows ks → Finds silent.priExp o.text.toList ks q := by
  have hfinds (ks : List Char) (hks : Follows ks) : Finds silent.priExp o.text.toList ks q :=
    (h ks hks.name).finds hks.colon
  exact ⟨q, halone ▸ parse_of_finds hfinds, hfinds⟩

/-- Every operand is read alone, and with the same value before what can follow an operand. -/
theorem Valid.exists_finds (h : o.Valid) :
    ∃ q, parse o.alone = .ok q ∧ ∀ ks, Follows ks → Finds silent.priExp o.text.toList ks q := by
  cases o with
  | word name => exact exists_finds_atom rfl fun ks hks => .word h hks
  | simple key value =>
    obtain ⟨hkey, hvalue⟩ := h
    refine exists_finds_atom (q := keyword key value) rfl fun ks hks => ?_
    simpa [text] using Atom.simple hkey blanks_nil blanks_nil hvalue hks
  | quoted key words =>
    obtain ⟨hkey, hwords⟩ := h
    obtain ⟨value, hvalue⟩ := hwords.exists_spells
    refine exists_finds_atom (q := keyword key (String.ofList value)) rfl fun ks _ => ?_
    have hatom : Atom _ ks _ := .quoted hkey blanks_nil blanks_nil hvalue blanks_nil
    simpa [text] using hatom
  | paren query =>
    obtain ⟨t, ht⟩ := h
    obtain ⟨q, hq, hfinds⟩ := exists_finds_paren ht
    exact ⟨q, hq, fun ks _ => hfinds ks⟩
  | quote query =>
    obtain ⟨⟨t, ht⟩, hquote⟩ := h
    exact exists_finds_quote ht hquote

end Operand

namespace Chain

/-! ## Runs of operands -/

variable {ch : Chain}

theorem Valid.first (h : ch.Valid) : ch.first.Valid := by
  cases ch with
  | last o => exact h
  | link o c rest => exact h.1

/-- Behind its first operand, a chain goes on with a connector or ends. -/
theorem exists_text (ch : Chain) :
    ∃ tail, ch.text.toList = ch.first.text.toList ++ tail ∧ EndsName tail := by
  cases ch with
  | last o => exact ⟨[], by simp [text, Chain.first], nofun⟩
  | link o c rest =>
    obtain ⟨xs, hxs⟩ := c.exists_text
    refine ⟨c.text.toList ++ rest.text.toList, by simp [text, Chain.first], ?_⟩
    rw [hxs]
    exact .cons (by decide) _

/-- Behind a mere space, a chain is not read as an operator and an operand. -/
theorem afterLiteral_text (h : ch.Valid) (hno : startsWithOperator ch.first.text.toList = false)
    (p : Connective) : afterLiteral p.keyword (afterBlanks ch.text.toList) = none := by
  obtain ⟨tail, htext, htail⟩ := ch.exists_text
  obtain ⟨q, -, hfinds⟩ := h.first.exists_finds
  obtain ⟨x, xs, hfirst, hx⟩ := opens_of_afterOperand (hfinds [] ends_nil.follows).afterOperand
  rw [List.append_nil] at hfirst
  rw [htext]
  refine afterLiteral_of_not_startsWithOperator ?_ hno htail p
  rw [hfirst]
  exact afterBlanks_cons_of_not_isBlank (not_isBlank_of_opens hx)

theorem value_link {o : Operand} {c : Connector} {rest : Chain} {left right : Query}
    (ho : parse o.alone = .ok left) (hrest : rest.value = .ok right) :
    (link o c rest).value = .ok (c.join left right) := by
  rw [value, ho, hrest]
  rfl

/-- A chain is read from the right. -/
theorem Valid.exists_finds (h : ch.Valid) :
    ∃ q, ch.value = .ok q ∧ Finds silent.logicalExp ch.text.toList [] q := by
  induction ch with
  | last o =>
    obtain ⟨q, hq, hfinds⟩ := Operand.Valid.exists_finds h
    exact ⟨q, hq, finds_alone (hfinds [] ends_nil.follows) afterExp_nil⟩
  | link o c rest ih =>
    obtain ⟨ho, hc, hrest⟩ := h
    obtain ⟨left, hleft, hoperand⟩ := ho.exists_finds
    obtain ⟨right, hright, hexp⟩ := ih hrest
    refine ⟨c.join left right, value_link hleft hright, ?_⟩
    cases c with
    | operator p =>
      have hfollows := follows_separator p hexp.afterExp ends_nil
      have := finds_separator p (hoperand _ hfollows) hexp
      simpa [text, Connector.text, Connector.join, separator] using this
    | space =>
      have hread : Text.afterExp (' ' :: (rest.text.toList ++ [])) = some [] := by
        rw [afterExp_cons_of_isBlank isBlank_space]
        exact hexp.afterExp
      have hfollows := follows_of_afterExp (.cons (by decide) _) hread ends_nil
      have := finds_spaced (hoperand _ hfollows) hexp fun p => by
        rw [List.append_nil]
        exact afterLiteral_text hrest hc p
      simpa [text, Connector.text, Connector.join] using this

/-! ## One operator -/

/-- Operands with one operator between them. -/
def run (p : Connective) : (o : Operand) → (os : List Operand) → Chain
  | o, [] => last o
  | o, o' :: os => link o (.operator p) (run p o' os)

/-- A run is written as its operands with the operator between them. -/
theorem text_run (p : Connective) (o : Operand) (os : List Operand) :
    (run p o os).text = (Connector.operator p).text.intercalate ((o :: os).map Operand.text) := by
  induction os generalizing o with
  | nil => simp [run, text]
  | cons o' os ih => simp [run, text, ih]

theorem valid_run (p : Connective) {o : Operand} {os : List Operand} (ho : o.Valid)
    (hos : ∀ o ∈ os, o.Valid) : (run p o os).Valid := by
  induction os generalizing o with
  | nil => exact ho
  | cons o' os ih =>
    exact ⟨ho, trivial, ih (hos o' List.mem_cons_self) fun o h => hos o (List.mem_cons_of_mem o' h)⟩

/-- One operator throughout merges the values of all operands. -/
theorem value_run (p : Connective) {o : Operand} {os : List Operand} (ho : o.Valid)
    (hos : ∀ o ∈ os, o.Valid) :
    ∃ qs, List.Forall₂ (fun o q => parse o.alone = .ok q) (o :: os) qs ∧
      (run p o os).value = .ok (merge p qs) := by
  induction os generalizing o with
  | nil =>
    obtain ⟨q, hq, -⟩ := ho.exists_finds
    exact ⟨[q], .cons hq .nil, hq⟩
  | cons o' os ih =>
    obtain ⟨q, hq, -⟩ := ho.exists_finds
    obtain ⟨qs, hqs, hvalue⟩ :=
      ih (hos o' List.mem_cons_self) fun o h => hos o (List.mem_cons_of_mem o' h)
    refine ⟨q :: qs, .cons hq hqs, ?_⟩
    have hne : qs ≠ [] := by
      rintro rfl
      cases hqs
    rw [run, value_link hq hvalue, merge_cons hne]
    rfl

/-- A chain has the value of its operands, combined from the right. Parentheses around a query do
not matter, and operands with one operator between them become one combination. -/
theorem parse_text :
    (∀ ch : Chain, ch.Valid → ∃ q, ch.value = .ok q ∧ parse ch.text = .ok q) ∧
      (∀ s t, ParseTree.ofQuery s = .ok t → parse ("(" ++ s ++ ")") = parse s) ∧
      ∀ (p : Connective) (os : List Operand), 2 ≤ os.length → (∀ o ∈ os, o.Valid) →
        ∃ qs, List.Forall₂ (fun o q => parse o.alone = .ok q) os qs ∧
          parse ((Connector.operator p).text.intercalate (os.map Operand.text)) =
            .ok (logic p (qs.flatMap (operandsOf p))) := by
  have hread (ch : Chain) (h : ch.Valid) : ∃ q, ch.value = .ok q ∧ parse ch.text = .ok q :=
    let ⟨q, hq, hfinds⟩ := h.exists_finds
    ⟨q, hq, hfinds.parse⟩
  refine ⟨hread, fun s t h => ?_, fun p os hlen hos => ?_⟩
  · obtain ⟨q, hq, hparse⟩ := hread (.last (.paren s)) ⟨t, h⟩
    exact hparse.trans hq.symm
  · obtain ⟨o, os, rfl⟩ := List.exists_cons_of_length_pos (l := os) (by omega)
    have ho := hos o List.mem_cons_self
    have hrest : ∀ o ∈ os, o.Valid := fun o' h => hos o' (List.mem_cons_of_mem o h)
    obtain ⟨qs, hqs, hvalue⟩ := value_run p ho hrest
    obtain ⟨q, hq, hparse⟩ := hread _ (valid_run p ho hrest)
    rw [hvalue, Except.ok.injEq, merge_of_two_le (hqs.length_eq ▸ hlen)] at hq
    exact ⟨qs, hqs, by rw [← text_run, hparse, ← hq, flatten]⟩

/-- A filter, a group and words in quotes, and the last two under one operator. -/
theorem parse_text_filter :
    let group := Operand.paren "a AND b "
    let words := Operand.quote "c d"
    let ch := link (.quoted "k" "v w") (.operator .or) (link group .space (last words))
    let q := logic .or [keyword "k" "v w", logic .and [.text "a", .text "b", .text "c d"]]
    ch.text = "k:\"v w\" OR (a AND b ) \"c d\"" ∧ ch.Valid ∧ parse ch.text = .ok q ∧
      parse ("(" ++ "a AND b " ++ ")") = parse "a AND b " ∧
      ∃ qs, List.Forall₂ (fun o q => parse o.alone = .ok q) [group, words] qs ∧
        parse ((Connector.operator .or).text.intercalate ([group, words].map Operand.text)) =
          .ok (logic .or (qs.flatMap (operandsOf .or))) := by
  intro group words ch q
  have hfilter : parse (Operand.quoted "k" "v w").alone = .ok (keyword "k" "v w") := by
    decide +kernel
  have hparen : parse "a AND b " = .ok (logic .and [.text "a", .text "b"]) := by decide +kernel
  have hquote : parse "c d" = .ok (.text "c d") := by decide +kernel
  have hgroup : group.Valid := exists_ofQuery_of_parse hparen
  have hwords : words.Valid := ⟨exists_ofQuery_of_parse hquote, by decide⟩
  have hspaced : IsSpaced ['v', ' ', 'w'] :=
    .snoc (.word (isIdentifier_letter (by decide))) (by simp) blanks_space
      (isIdentifier_letter (by decide))
  have hallows : startsWithOperator words.text.toList = false := by decide
  have hvalid : ch.Valid :=
    ⟨⟨isIdentifier_letter (by decide), hspaced⟩, trivial, hgroup, hallows, hwords⟩
  obtain ⟨q', hvalue, hparse⟩ := parse_text.1 ch hvalid
  have hlinks : ch.value = _ :=
    value_link (c := .operator .or) hfilter (value_link (c := .space) hparen hquote)
  have hq : Except.ok q = Except.ok q' := hlinks.symm.trans hvalue
  obtain ⟨t, ht⟩ := id hgroup
  have hrun := parse_text.2.2 .or [group, words] (by decide) (by simp [hgroup, hwords])
  exact ⟨by decide, hvalid, hq ▸ hparse, parse_text.2.1 _ t ht, hrun⟩

end Chain

end SearchQuery
