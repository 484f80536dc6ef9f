import SearchQuery.Text.Alphabetic
import SearchQuery.Text.GraphemeExtend
import SearchQuery.Text.Unprintable

/-!
# Classes of characters

A query is cut into words and blanks by two classes, `isBlank` and `isNameChar`. The other classes
serve messages about a query: which characters are shown as they are, and which count as white
space at the end of a text.

## Main definitions

* `Text.isBlank` — what separates the items of a query.
* `Text.isLetter`, `Text.isNameChar` — what an identifier begins with and goes on with.
* `Text.isAttached`, `Text.isPrintable` — what a quoted text shows unescaped.
* `Text.isWhiteSpace` — white space of any script, a wider class than blanks.
-/

namespace SearchQuery.Text

/-! ## Words and blanks -/

/-- Blanks are the space and every control character below it. -/
def isBlank (c : Char) : Bool := c.toNat ≤ 0x20

/-- Letters are the alphabetic characters of every script. -/
def isLetter (c : Char) : Bool := c.isAlpha || CodeRange.covers alphabeticRanges c.toNat

/-- An identifier goes on with letters and the ten ASCII digits. -/
def isNameChar (c : Char) : Bool := isLetter c || c.isDigit

theorem isBlank_space : isBlank ' ' := by decide

/-- The first alphabetic character beyond ASCII is U+00AA. -/
theorem covers_alphabetic_of_lt {n : Nat} (h : n < 0xAA) :
    CodeRange.covers alphabeticRanges n = false :=
  CodeRange.covers_of_lt h

theorem isLetter_of_lt {c : Char} (h : c.toNat < 0xAA) : isLetter c = c.isAlpha := by
  simp [isLetter, covers_alphabetic_of_lt h]

@[grind →] theorem isNameChar_of_isLetter {c : Char} (h : isLetter c) : isNameChar c := by
  simp [isNameChar, h]

/-- The ASCII characters of identifiers lie between the first digit and the last letter. -/
theorem bounds_of_isNameChar {c : Char} (h : isNameChar c)
    (hcovers : CodeRange.covers alphabeticRanges c.toNat = false) :
    0x30 ≤ c.toNat ∧ c.toNat ≤ 0x7A := by
  rw [isNameChar, isLetter, hcovers, Bool.or_false, Bool.or_eq_true] at h
  rcases h with halpha | hdigit
  · rcases Bool.or_eq_true_iff.1 halpha with hupper | hlower
    · obtain ⟨hfirst, hlast⟩ : 0x41 ≤ c.toNat ∧ c.toNat ≤ 0x5A := of_decide_eq_true hupper
      omega
    · have hbounds := Bool.and_eq_true_iff.1 hlower
      have hfirst : 0x61 ≤ c.toNat := of_decide_eq_true hbounds.1
      have hlast : c.toNat ≤ 0x7A := of_decide_eq_true hbounds.2
      omega
  · have hbounds := Bool.and_eq_true_iff.1 hdigit
    have hfirst : 0x30 ≤ c.toNat := of_decide_eq_true hbounds.1
    have hlast : c.toNat ≤ 0x39 := of_decide_eq_true hbounds.2
    omega

/-- Blanks end an identifier. -/
@[grind →] theorem not_isNameChar_of_isBlank {c : Char} (h : isBlank c) :
    isNameChar c = false := by
  have hle : c.toNat ≤ 0x20 := by simpa [isBlank] using h
  cases hname : isNameChar c with
  | false => rfl
  | true =>
    have hbounds := bounds_of_isNameChar hname (covers_alphabetic_of_lt (by omega))
    omega

@[grind →] theorem not_isBlank_of_isNameChar {c : Char} (h : isNameChar c) :
    isBlank c = false := by
  cases hc : isBlank c with
  | false => rfl
  | true => simp [not_isNameChar_of_isBlank hc] at h

/-! ## Showing characters -/

def isHalfwidthMark (c : Char) : Bool := c = '\uff9e' || c = '\uff9f'

/-- Whether `c` is drawn as part of the character before it. Halfwidth sound marks extend a grapheme
but take a place of their own. -/
def isAttached (c : Char) : Bool :=
  CodeRange.covers graphemeExtendRanges c.toNat && !isHalfwidthMark c

/-- The fillers of Hangul, letters that show nothing. -/
def isFiller (c : Char) : Bool :=
  c = '\u115f' || c = '\u1160' || c = '\u3164' || c = '\uffa0'

def isPrintable (c : Char) : Bool :=
  0x20 ≤ c.toNat && c.toNat != 0x7F && !isFiller c && !CodeRange.covers unprintableRanges c.toNat

/-! ## White space -/

def whiteSpaceRanges : List CodeRange :=
  [⟨0x9, 0xD⟩, ⟨0x20, 0x20⟩, ⟨0x85, 0x85⟩, ⟨0xA0, 0xA0⟩, ⟨0x1680, 0x1680⟩, ⟨0x2000, 0x200A⟩,
  ⟨0x2028, 0x2029⟩, ⟨0x202F, 0x202F⟩, ⟨0x205F, 0x205F⟩, ⟨0x3000, 0x3000⟩]

def isWhiteSpace (c : Char) : Bool := CodeRange.covers whiteSpaceRanges c.toNat

end SearchQuery.Text
