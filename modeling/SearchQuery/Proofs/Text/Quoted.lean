import Mathlib.Data.Nat.Basic
import SearchQuery.Text.Quoted

/-!
# Quoted texts can be read back

What is written for a character tells the character and where it ends, so a quoted text ends at its
closing quote, whatever comes behind, and different texts are quoted differently. No quoted text
breaks a line.

## Main definitions

* `Text.ofHexDigits` — the number that hexadecimal digits stand for.
* `Text.unescape?` — the character that an escape stands for, and what is left.

Main statements: `Text.quoted_append_inj` and `Text.newline_notMem_quoted`.
-/

namespace SearchQuery.Text

variable {s t : String} {c : Char} {xs ys : List Char}

/-! ## Hexadecimal digits -/

def hexDigits : List Char := "0123456789abcdef".toList

def ofHexDigits (digits : List Char) : Nat :=
  digits.foldl (fun n x => 16 * n + hexDigits.idxOf x) 0

theorem digitChar_mem_and_idxOf :
    ∀ n < 16, n.digitChar ∈ hexDigits ∧ hexDigits.idxOf n.digitChar = n := by
  decide

theorem ofHexDigits_concat (digits : List Char) (x : Char) :
    ofHexDigits (digits ++ [x]) = 16 * ofHexDigits digits + hexDigits.idxOf x := by
  simp [ofHexDigits]

/-- The digits of a number stand for it. -/
theorem ofHexDigits_toDigits (n : Nat) : ofHexDigits (Nat.toDigits 16 n) = n := by
  induction n using Nat.strongRecOn with
  | ind n ih =>
    rcases Nat.lt_or_ge n 16 with hn | hn
    · rw [Nat.toDigits_of_lt_base hn]
      simpa [ofHexDigits] using (digitChar_mem_and_idxOf n hn).2
    · have hlast := (digitChar_mem_and_idxOf (n % 16) (Nat.mod_lt n (by decide))).2
      rw [Nat.toDigits_of_base_le (by decide) hn, ofHexDigits_concat, hlast,
        ih (n / 16) (Nat.div_lt_self (by omega) (by decide)), Nat.div_add_mod]

theorem mem_hexDigits_of_mem_toDigits {n : Nat} {x : Char} (h : x ∈ Nat.toDigits 16 n) :
    x ∈ hexDigits := by
  induction n using Nat.strongRecOn with
  | ind n ih =>
    rcases Nat.lt_or_ge n 16 with hn | hn
    · rw [Nat.toDigits_of_lt_base hn, List.mem_singleton] at h
      exact h ▸ (digitChar_mem_and_idxOf n hn).1
    · rw [Nat.toDigits_of_base_le (by decide) hn] at h
      rcases List.mem_append.1 h with h | h
      · exact ih (n / 16) (Nat.div_lt_self (by omega) (by decide)) h
      · rw [List.mem_singleton.1 h]
        exact (digitChar_mem_and_idxOf (n % 16) (Nat.mod_lt n (by decide))).1

/-! ## Escapes -/

/-- The character that comes first in escaped characters, and what is left behind it. -/
def unescape? : List Char → Option (Char × List Char)
  | '\\' :: '0' :: xs => some ('\x00', xs)
  | '\\' :: 't' :: xs => some ('\t', xs)
  | '\\' :: 'r' :: xs => some ('\r', xs)
  | '\\' :: 'n' :: xs => some ('\n', xs)
  | '\\' :: 'u' :: '\x7b' :: xs =>
    let digits := xs.takeWhile (· != '\x7d')
    some (Char.ofNat (ofHexDigits digits), xs.drop (digits.length + 1))
  | '\\' :: x :: xs => some (x, xs)
  | x :: xs => some (x, xs)
  | [] => none

/-- A code point in hexadecimal digits is read back. -/
theorem unescape?_codePoint (c : Char) (xs : List Char) :
    unescape? (codePoint c ++ xs) = some (c, xs) := by
  have hdigits : ∀ x ∈ Nat.toDigits 16 c.toNat, x != '\x7d' := by
    intro x hx
    have hbrace : '\x7d' ∉ hexDigits := by decide
    have hne : x ≠ '\x7d' := fun h => hbrace (h ▸ mem_hexDigits_of_mem_toDigits hx)
    simpa using hne
  have htake : (Nat.toDigits 16 c.toNat ++ '\x7d' :: xs).takeWhile (· != '\x7d') =
      Nat.toDigits 16 c.toNat := by
    rw [List.takeWhile_append_of_pos hdigits]
    simp
  simp [codePoint, unescape?, htake, ofHexDigits_toDigits]

/-- An escape stands for its character, whatever comes behind it. -/
theorem unescape?_escape (c : Char) (xs : List Char) :
    unescape? (escape c ++ xs) = some (c, xs) := by
  unfold escape
  split
  case h_7 hbackslash =>
    split
    · exact unescape?_codePoint c xs
    · unfold unescape?
      split <;> simp_all
  all_goals rfl

/-- Different characters are written differently, whatever follows them. -/
theorem escape_append_inj {d : Char} (h : escape c ++ xs = escape d ++ ys) : c = d ∧ xs = ys := by
  have hread := unescape?_escape c xs
  rw [h, unescape?_escape] at hread
  obtain ⟨rfl, rfl⟩ := Prod.mk.inj (Option.some.inj hread)
  exact ⟨rfl, rfl⟩

/-- A character is written as it is, or a backslash comes first. -/
theorem escape_cases (c : Char) :
    (escape c = [c] ∧ c ≠ '"' ∧ c ≠ '\n') ∨ ∃ xs, escape c = '\\' :: xs ∧ '\n' ∉ xs := by
  unfold escape
  split
  case h_7 hnewline hquote _ =>
    split
    · have hdigits : '\n' ∉ Nat.toDigits 16 c.toNat := fun h =>
        absurd (mem_hexDigits_of_mem_toDigits h) (by decide)
      exact .inr ⟨_, rfl, by simp [hdigits]⟩
    · exact .inl ⟨rfl, hquote, hnewline⟩
  all_goals exact .inr ⟨_, rfl, by decide⟩

/-- Quotes are escaped, so what is written for a character never begins with one. -/
theorem escape_append_ne (c : Char) (xs ys : List Char) : escape c ++ xs ≠ '"' :: ys := by
  intro h
  rcases escape_cases c with ⟨hc, hquote, -⟩ | ⟨zs, hc, -⟩ <;> simp_all

theorem newline_notMem_escape (c : Char) : '\n' ∉ escape c := by
  rcases escape_cases c with ⟨hc, -, hnewline⟩ | ⟨xs, hc, hxs⟩
  · simpa [hc] using hnewline.symm
  · simpa [hc] using hxs

/-! ## Quoted texts -/

/-- The closing quote is not taken for a quote of the text. -/
theorem flatMap_escape_inj {cs ds : List Char}
    (h : cs.flatMap escape ++ '"' :: xs = ds.flatMap escape ++ '"' :: ys) : cs = ds ∧ xs = ys := by
  induction cs generalizing ds with
  | nil =>
    cases ds with
    | nil => simpa using h
    | cons d ds =>
      rw [List.flatMap_cons, List.append_assoc] at h
      exact absurd h.symm (escape_append_ne _ _ _)
  | cons c cs ih =>
    cases ds with
    | nil =>
      rw [List.flatMap_cons, List.append_assoc] at h
      exact absurd h (escape_append_ne _ _ _)
    | cons d ds =>
      rw [List.flatMap_cons, List.append_assoc, List.flatMap_cons, List.append_assoc] at h
      obtain ⟨rfl, hrest⟩ := escape_append_inj h
      obtain ⟨rfl, rfl⟩ := ih hrest
      exact ⟨rfl, rfl⟩

/-- A quoted text shows the text and where it ends. -/
theorem quoted_append_inj (h : (quoted s).toList ++ xs = (quoted t).toList ++ ys) :
    s = t ∧ xs = ys := by
  have hlists : s.toList.flatMap escape ++ '"' :: xs = t.toList.flatMap escape ++ '"' :: ys := by
    simpa [toList_quoted] using h
  exact (flatMap_escape_inj hlists).imp_left String.toList_inj.1

/-- A quoted text does not break a line. -/
theorem newline_notMem_quoted (s : String) : '\n' ∉ (quoted s).toList := by
  simp [toList_quoted, newline_notMem_escape]

end SearchQuery.Text
