import SearchQuery.Proofs.Query.Total
import SearchQuery.Proofs.Reading.Respaced
import SearchQuery.Proofs.Semantics.Dispatch

/-!
# Blanks do not matter

Where blanks stand in a query matters, but not which ones or how many. A query with other blanks in
the same place has a tree of the same shape, and its value differs in nothing but the blanks within
the values of filters. If there is no tree, the same is expected at the same place.

## Main definitions

* `Query.collapse` — a query with single spaces in the values of its filters.

Main statement: `Query.parse_respaced`.
-/

namespace SearchQuery

open Text

namespace ParseTree

variable {t t' first inner last : ParseTree} {others : List ParseTree} {rule : Rule}

/-- A tree of the shape of a node is as good as a node with children of the same shapes. -/
theorem Resembles.exists_node (h : (node rule first others).Resembles t') :
    ∃ first' others', first.Resembles first' ∧ List.Forall₂ Resembles others others' ∧
      Query.semantics.eval t' = Query.semantics.eval (node rule first' others') := by
  obtain ⟨hrule, -, -, hchildren⟩ := h
  obtain ⟨first', others', hfirst, hothers, heq⟩ := List.forall₂_cons_left_iff.1 hchildren
  refine ⟨first', others', hfirst, hothers, ?_⟩
  rw [Semantics.eval_eq_call, Semantics.eval_eq_call, Semantics.parts, heq, ← hrule]
  rfl

/-- Between delimiters, only what they enclose matters. -/
theorem Resembles.delimited (h : (node rule first [inner, last]).Resembles t')
    (hrule : rule = .paren ∨ rule = .quote) :
    ∃ inner', inner.Resembles inner' ∧
      Query.semantics.eval t' = Query.semantics.eval inner' := by
  obtain ⟨_, _, -, _ | ⟨hinner, _ | ⟨-, _ | _⟩⟩, heval⟩ := h.exists_node
  exact ⟨_, hinner, heval.trans (Query.eval_delimited hrule _ _ _)⟩

/-- Identifiers of one shape are the same. -/
theorem Resembles.ident (h : t.Resembles t') (hident : Derives .ident t) :
    t.text = t'.text ∧ Query.semantics.eval t = .ok (.text t.text) ∧
      Query.semantics.eval t' = .ok (.text t.text) := by
  obtain ⟨hrule, hleaf, -, hchildren⟩ := h
  obtain ⟨rule', c', d', children'⟩ := t'
  cases hident with
  | @ident c d _ =>
    obtain rfl : rule' = .ident := hrule.symm
    obtain rfl := List.forall₂_nil_left_iff.1 hchildren
    have htext := hleaf rfl nofun
    exact ⟨htext, Query.eval_ident c d, htext ▸ Query.eval_ident c' d'⟩

end ParseTree

namespace Query

open ParseTree

variable {k : Category} {t t' : ParseTree} {s : String}

def collapse : Query → Query
  | keyword key value => keyword key (String.ofList (Text.collapse value.toList))
  | logic p children => logic p (children.map collapse)
  | text value => text value

@[simp] theorem collapse_text (value : String) : (text value).collapse = text value := by
  rw [collapse]

@[simp] theorem collapse_keyword (key value : String) :
    (keyword key value).collapse = keyword key (String.ofList (Text.collapse value.toList)) := by
  rw [collapse]

@[simp] theorem collapse_logic (p : Connective) (children : List Query) :
    (logic p children).collapse = logic p (children.map collapse) := by
  rw [collapse]

theorem collapse_operandsOf (p : Connective) (q : Query) :
    (operandsOf p q).map collapse = operandsOf p q.collapse := by
  cases q with
  | text value => simp
  | keyword key value => simp
  | logic r children =>
    by_cases h : r = p
    · simp [h]
    · simp [h]

/-- Values can be collapsed before or after queries are combined. -/
theorem collapse_combine (p : Connective) (left right : Query) :
    (combine p left right).collapse = combine p left.collapse right.collapse := by
  simp [combine, flatten, collapse_operandsOf]

theorem collapse_juxtapose (left right : Query) :
    (juxtapose left right).collapse = juxtapose left.collapse right.collapse := by
  cases left <;> cases right <;> simp [juxtapose, collapse_combine]

/-! ## Values of trees of one shape -/

/-- What stands between the quotes of a filter has the same value but for blanks. -/
theorem exists_eval_spacedString (h : Derives .spacedString t) (ht : t.Resembles t') :
    ∃ value value', semantics.eval t = .ok (text value) ∧ semantics.eval t' = .ok (text value') ∧
      Text.collapse value.toList = Text.collapse value'.toList := by
  cases h with
  | @spaced left gap right hleft hgap hright =>
    obtain ⟨left', _, hleft', _ | ⟨-, _ | ⟨hright', _ | _⟩⟩, heval⟩ := ht.exists_node
    refine ⟨_, _, eval_spaced left gap right, heval.trans (eval_spaced left' _ _), ?_⟩
    obtain ⟨-, -, htext, -⟩ := hleft'
    have hlast := (hright'.ident hright).1
    simp only [String.toList_append, hlast]
    exact collapse_append (collapse_append htext rfl) rfl
  | @first word hword =>
    obtain ⟨word', _, hword', _ | _, heval⟩ := ht.exists_node
    obtain ⟨-, hvalue, hvalue'⟩ := hword'.ident hword
    refine ⟨word.text, word.text, ?_, ?_, rfl⟩
    · rw [eval_only (by simp), hvalue]
    · rw [heval, eval_only (by simp), hvalue']

/-- Trees of one shape have the same value but for blanks in the values of filters. -/
theorem exists_eval_resembles (h : Derives k t) (hk : k ≠ .spacedString) (ht : t.Resembles t') :
    ∃ q q', semantics.eval t = .ok q ∧ semantics.eval t' = .ok q' ∧ q.collapse = q'.collapse := by
  induction h generalizing t' with
  | exp _ ih | alone _ ih | filter _ ih | word _ ih =>
    obtain ⟨inner, _, hinner, _ | _, heval⟩ := ht.exists_node
    rw [heval, eval_only (by simp), eval_only (by simp)]
    exact ih nofun hinner
  | paren _ _ _ ih =>
    obtain ⟨_, hinner, heval⟩ := ht.delimited (.inl rfl)
    rw [heval, eval_delimited (.inl rfl)]
    exact ih nofun hinner
  | quote _ _ _ ih =>
    obtain ⟨_, hinner, heval⟩ := ht.delimited (.inr rfl)
    rw [heval, eval_delimited (.inr rfl)]
    exact ih nofun hinner
  | operator p _ _ _ ihleft ihright =>
    obtain ⟨_, _, hleft, _ | ⟨-, _ | ⟨hright, _ | _⟩⟩, heval⟩ := ht.exists_node
    obtain ⟨left, left', hl, hl', heq⟩ := ihleft nofun hleft
    obtain ⟨right, right', hr, hr', heq'⟩ := ihright nofun hright
    refine ⟨_, _, eval_operator p hl hr _, heval.trans (eval_operator p hl' hr' _), ?_⟩
    rw [collapse_combine, collapse_combine, heq, heq']
  | join _ _ ihleft ihright =>
    obtain ⟨_, _, hleft, _ | ⟨hright, _ | _⟩, heval⟩ := ht.exists_node
    obtain ⟨left, left', hl, hl', heq⟩ := ihleft nofun hleft
    obtain ⟨right, right', hr, hr', heq'⟩ := ihright nofun hright
    refine ⟨_, _, eval_join hl hr, heval.trans (eval_join hl' hr'), ?_⟩
    rw [collapse_juxtapose, collapse_juxtapose, heq, heq']
  | quoted hkey _ hvalue _ _ _ =>
    obtain ⟨_, _, hkey', _ | ⟨-, _ | ⟨hvalue', _ | ⟨-, _ | _⟩⟩⟩, heval⟩ := ht.exists_node
    obtain ⟨value, value', hv, hv', heq⟩ := exists_eval_spacedString hvalue hvalue'
    refine ⟨_, _, eval_quoted hv _ _, heval.trans (eval_quoted hv' _ _), ?_⟩
    rw [collapse_keyword, collapse_keyword, heq, (hkey'.ident hkey).1]
  | simple hkey _ hvalue _ _ =>
    obtain ⟨_, _, hkey', _ | ⟨-, _ | ⟨hvalue', _ | _⟩⟩, heval⟩ := ht.exists_node
    obtain ⟨-, hv, hv'⟩ := hvalue'.ident hvalue
    refine ⟨_, _, eval_simple hv _, heval.trans (eval_simple hv' _), ?_⟩
    rw [(hkey'.ident hkey).1]
  | spaced _ _ _ _ _ => contradiction
  | first _ _ => contradiction
  | ident h =>
    obtain ⟨-, hv, hv'⟩ := ht.ident (.ident h)
    exact ⟨_, _, hv, hv', rfl⟩

/-! ## Queries -/

/-- The position of an error is the number of bytes before the furthest place. -/
theorem position_ofReport {r : Report} {front : List Char}
    (h : s.toList = front ++ r.furthest.rest) :
    (SyntaxError.ofReport s r).position = byteCount front :=
  congrArg byteCount (Cursor.upTo_of_rest h)

/-- A failure before the run is as far from the beginning of either text, and one behind it is as
far from the end. -/
theorem position_respaced {R : Respacing} {r r' : Report} {e e' : SyntaxError}
    (h : R.Aligned r.furthest r'.furthest) (he : e = .ofReport R.left r)
    (he' : e' = .ofReport R.right r') :
    e.position ≤ byteCount R.before ∧ e'.position = e.position ∨
      byteCount R.before + byteCount R.gap ≤ e.position ∧
        e'.position + byteCount R.gap = e.position + byteCount R.gap' := by
  obtain ⟨c, expected⟩ := r
  obtain ⟨d, expected'⟩ := r'
  cases h with
  | @before front back h =>
    have hp : e.position = byteCount front := by
      rw [he]
      exact position_ofReport (by simp [Respacing.left, ← h])
    have hp' : e'.position = byteCount front := by
      rw [he']
      exact position_ofReport (by simp [Respacing.right, ← h])
    left
    rw [hp, hp', ← h, byteCount_append]
    omega
  | @behind front back h =>
    have hp : e.position = byteCount (R.before ++ (R.gap ++ front)) := by
      rw [he]
      exact position_ofReport (by simp [Respacing.left, ← h])
    have hp' : e'.position = byteCount (R.before ++ (R.gap' ++ front)) := by
      rw [he']
      exact position_ofReport (by simp [Respacing.right, ← h])
    right
    simp only [hp, hp', byteCount_append]
    omega

/-- Whatever blanks stand in a place, the tree of the query has the same shape, with the same rules
and with the same leaves but for blanks, and the value is the same but for blanks in the values of
filters. If there is none, the same items are expected at the same place. -/
theorem parse_respaced (u v : String) {w w' : String} (hw : Blanks w.toList) (hne : w ≠ "")
    (hw' : Blanks w'.toList) (hne' : w' ≠ "") :
    (∃ t t' q q', ofQuery (u ++ w ++ v) = .ok t ∧ ofQuery (u ++ w' ++ v) = .ok t' ∧
        t.Resembles t' ∧ parse (u ++ w ++ v) = .ok q ∧ parse (u ++ w' ++ v) = .ok q' ∧
        q.collapse = q'.collapse) ∨
      ∃ e e', ofQuery (u ++ w ++ v) = .error (.malformed e) ∧
        ofQuery (u ++ w' ++ v) = .error (.malformed e') ∧ e.expected = e'.expected ∧
        (e.position ≤ byteCount u.toList ∧ e'.position = e.position ∨
          byteCount u.toList + byteCount w.toList ≤ e.position ∧
            e'.position + byteCount w.toList = e.position + byteCount w'.toList) := by
  let R : Respacing :=
    ⟨u.toList, v.toList, w.toList, w'.toList, hw, by simpa using hne, hw', by simpa using hne'⟩
  have hleft : u ++ w ++ v = R.left := by
    apply String.toList_injective
    simp [R, Respacing.left]
  have hright : u ++ w' ++ v = R.right := by
    apply String.toList_injective
    simp [R, Respacing.right]
  rw [hleft, hright]
  rcases R.recognize with ⟨t, t', ht, ht', hresembles⟩ | ⟨r, r', hr, hr', hexpected, hfurthest⟩
  · have hread : ofQuery R.left = .ok t := by rw [ofQuery, Economical.recognize_eq, ht]
    have hread' : ofQuery R.right = .ok t' := by rw [ofQuery, Economical.recognize_eq, ht']
    obtain ⟨q, q', hq, hq', hcollapse⟩ :=
      exists_eval_resembles (derives_of_ofQuery hread) (by simp) hresembles
    exact .inl ⟨t, t', q, q', hread, hread', hresembles, (parse_of_ofQuery_ok hread).trans hq,
      (parse_of_ofQuery_ok hread').trans hq', hcollapse⟩
  · refine .inr ⟨.ofReport R.left r, .ofReport R.right r', ?_, ?_, hexpected,
      position_respaced hfurthest rfl rfl⟩
    · rw [ofQuery, Economical.recognize_eq, hr]
    · rw [ofQuery, Economical.recognize_eq, hr']

/-- Several blanks for one in the value of a filter, and before a parenthesis that closes none. -/
theorem parse_respaced_several :
    (∃ q, parse ("k:\"a" ++ "\t\n " ++ "b\"") = .ok q ∧ q.collapse = keyword "k" "a b") ∧
      ∃ e, ofQuery ("(a)" ++ "\t\n " ++ ")") = .error (.malformed e) ∧ e.position = 6 := by
  have hspace : Blanks " ".toList := by simp [Blanks, isBlank]
  have hgap : Blanks "\t\n ".toList := by simp [Blanks, isBlank]
  have hfilter := parse_respaced "k:\"a" "b\"" hspace (by simp) hgap (by simp)
  have hparen := parse_respaced "(a)" ")" hspace (by simp) hgap (by simp)
  let e : SyntaxError := ⟨"(a) ".toList, [')'], [.literal "AND", .literal "OR", .literal "(",
    .literal "\"", .described identDescription, .endOfInput]⟩
  have hvalue : parse ("k:\"a" ++ " " ++ "b\"") = .ok (keyword "k" "a b") := by decide +kernel
  have herror : ofQuery ("(a)" ++ " " ++ ")") = .error (.malformed e) :=
    ofQuery_of_parse_error (by decide +kernel)
  have hcollapse : (keyword "k" "a b").collapse = keyword "k" "a b" := by
    rw [collapse_keyword]
    decide
  constructor
  · rcases hfilter with ⟨-, -, q, q', -, -, -, hq, hq', heq⟩ | ⟨e, -, he, -⟩
    · obtain rfl := Except.ok.inj (hvalue.symm.trans hq)
      exact ⟨q', hq', heq.symm.trans hcollapse⟩
    · cases hvalue.symm.trans (parse_of_ofQuery_error he)
  · rcases hparen with ⟨t, -, -, -, ht, -⟩ | ⟨e', e'', he, he', -, hposition⟩
    · cases herror.symm.trans ht
    · obtain rfl : e = e' := QueryError.malformed.inj (Except.error.inj (herror.symm.trans he))
      have hbefore : byteCount "(a)".toList = 3 := by decide
      have hone : byteCount " ".toList = 1 := by decide
      have hthree : byteCount "\t\n ".toList = 3 := by decide
      have hfour : e.position = 4 := by decide
      rw [hbefore, hone, hthree, hfour] at hposition
      exact ⟨e'', he', by omega⟩

end Query

end SearchQuery
