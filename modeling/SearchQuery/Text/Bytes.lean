/-!
# Bytes of a text

Places in a text are counted in bytes of UTF-8. A number of bytes stands for a place only if it
does not fall inside a character.

## Main definitions

* `Text.byteCount` — the length of a text in bytes.
* `Text.splitAtByte?` — a text cut in two after some bytes.
-/

namespace SearchQuery.Text

def byteCount : (cs : List Char) → Nat
  | [] => 0
  | c :: cs => c.utf8Size + byteCount cs

@[simp] theorem byteCount_nil : byteCount [] = 0 := rfl

@[simp] theorem byteCount_cons (c : Char) (cs : List Char) :
    byteCount (c :: cs) = c.utf8Size + byteCount cs := rfl

@[simp] theorem byteCount_append (cs ds : List Char) :
    byteCount (cs ++ ds) = byteCount cs + byteCount ds := by
  induction cs with
  | nil => simp
  | cons c cs ih => simp [ih, Nat.add_assoc]

/-- Cuts `cs` after `n` bytes, or at the end if there are fewer. Fails inside a character. -/
def splitAtByte? : (cs : List Char) → (n : Nat) → Option (List Char × List Char)
  | cs, 0 => some ([], cs)
  | [], _ + 1 => some ([], [])
  | c :: cs, n + 1 =>
    if c.utf8Size ≤ n + 1 then
      (splitAtByte? cs (n + 1 - c.utf8Size)).map fun (front, back) => (c :: front, back)
    else none

/-- A cut loses nothing. -/
theorem append_of_splitAtByte? {cs front back : List Char} {n : Nat}
    (h : splitAtByte? cs n = some (front, back)) : front ++ back = cs := by
  fun_induction splitAtByte? cs n generalizing front back with
  | case1 | case2 => grind
  | case3 c cs n _ ih =>
    obtain ⟨⟨front', back'⟩, hs, heq⟩ := Option.map_eq_some_iff.1 h
    have := ih hs
    grind
  | case4 => simp at h

theorem splitAtByte?_cons_add (c : Char) (cs : List Char) (n : Nat) :
    splitAtByte? (c :: cs) (c.utf8Size + n) =
      (splitAtByte? cs n).map fun (front, back) => (c :: front, back) := by
  have hc := c.utf8Size_pos
  obtain ⟨m, hm⟩ : ∃ m, c.utf8Size + n = m + 1 := ⟨c.utf8Size + n - 1, by omega⟩
  rw [hm, splitAtByte?, if_pos (by omega), ← hm, Nat.add_sub_cancel_left]

/-- A cut after all bytes of a front gives the front back. -/
theorem splitAtByte?_byteCount (front back : List Char) :
    splitAtByte? (front ++ back) (byteCount front) = some (front, back) := by
  induction front with
  | nil => simp [splitAtByte?]
  | cons c front ih => simp [splitAtByte?_cons_add, ih]

end SearchQuery.Text
