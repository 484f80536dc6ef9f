import SearchQuery.Text.Class

/-!
# Quoted text

A text is shown between double quotes. Inside, a quote and a backslash are written with a backslash
before them, the usual controls have one-letter names, and every other character that would not be
seen by itself is written as its code point.

## Main definitions

* `Text.escape` — how a character is written between quotes.
* `Text.quoted` — a text between quotes.
-/

namespace SearchQuery.Text

/-- The code point of `c` in lower-case hexadecimal digits, as in `\u{a0}`. -/
def codePoint (c : Char) : List Char :=
  ['\\', 'u', '\x7b'] ++ Nat.toDigits 16 c.toNat ++ ['\x7d']

def escape (c : Char) : List Char :=
  match c with
  | '\x00' => ['\\', '0']
  | '\t' => ['\\', 't']
  | '\r' => ['\\', 'r']
  | '\n' => ['\\', 'n']
  | '"' => ['\\', '"']
  | '\\' => ['\\', '\\']
  | c => if isAttached c || !isPrintable c then codePoint c else [c]

def quoted (s : String) : String :=
  String.ofList ('"' :: s.toList.flatMap escape ++ ['"'])

theorem toList_quoted (s : String) :
    (quoted s).toList = '"' :: s.toList.flatMap escape ++ ['"'] := by
  simp [quoted]

end SearchQuery.Text
