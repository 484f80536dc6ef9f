import SearchQuery.Text.Cursor

/-!
# Places of one text

A place of a text is what its beginning advances to. Among the places of one text, the offset tells
where a place is and how much is still to come.
-/

namespace SearchQuery

namespace Text

theorem byteCount_eq_zero_iff {cs : List Char} : byteCount cs = 0 ↔ cs = [] := by
  cases cs with
  | nil => simp
  | cons x cs => simp [Nat.ne_of_gt x.utf8Size_pos]

theorem byteCount_pos {cs : List Char} (h : cs ≠ []) : 0 < byteCount cs :=
  Nat.pos_of_ne_zero (mt byteCount_eq_zero_iff.1 h)

/-- Of two suffixes of one text, the one with more bytes is the longer one. -/
theorem byteCount_lt_iff_of_suffix {cs ds es : List Char} (hd : ds <:+ cs) (he : es <:+ cs) :
    byteCount ds < byteCount es ↔ ds.length < es.length := by
  rcases List.suffix_or_suffix_of_suffix hd he with ⟨front, rfl⟩ | ⟨front, rfl⟩
  · simp only [byteCount_append, List.length_append]
    cases front with
    | nil => simp
    | cons c front =>
      have := c.utf8Size_pos
      simp only [byteCount_cons, List.length_cons]
      omega
  · simp only [byteCount_append, List.length_append]
    omega

end Text

namespace Cursor

def Within (s : String) (c : Cursor) : Prop := ∃ n, c = (start s).advance n

variable {s : String} {c d : Cursor}

theorem within_start (s : String) : (start s).Within s := ⟨0, (advance_zero _).symm⟩

theorem Within.advance (h : c.Within s) (n : Nat) : (c.advance n).Within s := by
  obtain ⟨m, rfl⟩ := h
  exact ⟨m + n, advance_advance _ m n⟩

theorem Within.suffix (h : c.Within s) : c.rest <:+ s.toList := by
  obtain ⟨n, rfl⟩ := h
  exact List.drop_suffix n _

/-- The bytes before a place and those after it make up the text. -/
theorem Within.offset_add (h : c.Within s) :
    c.offset + Text.byteCount c.rest = Text.byteCount s.toList := by
  obtain ⟨n, rfl⟩ := h
  simp only [start, offset_advance, rest_advance, Nat.zero_add]
  rw [← Text.byteCount_append, List.take_append_drop]

/-- Reading on increases the offset exactly when it decreases what remains. -/
theorem Within.offset_lt_iff (hc : c.Within s) (hd : d.Within s) :
    c.offset < d.offset ↔ d.remaining < c.remaining := by
  have hc' := hc.offset_add
  have hd' := hd.offset_add
  have := Text.byteCount_lt_iff_of_suffix hd.suffix hc.suffix
  unfold remaining
  omega

/-- A place of a text is known by its offset. -/
theorem Within.eq_of_offset (hc : c.Within s) (hd : d.Within s) (h : c.offset = d.offset) :
    c = d := by
  have hcd := hc.offset_lt_iff hd
  have hdc := hd.offset_lt_iff hc
  have hlen : c.rest.length = d.rest.length := by
    unfold remaining at hcd hdc
    omega
  obtain ⟨offset, rest⟩ := c
  obtain ⟨offset', rest'⟩ := d
  obtain rfl : offset = offset' := h
  have hsuffix := List.suffix_of_suffix_length_le hc.suffix hd.suffix (Nat.le_of_eq hlen)
  obtain rfl : rest = rest' := hsuffix.eq_of_length hlen
  rfl

end Cursor

end SearchQuery
