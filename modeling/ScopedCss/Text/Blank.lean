set_option autoImplicit false

/-!
# Text and white space

A text is its list of characters. `trim` strips white space, in the sense of the Unicode property
White_Space, from both ends; everything between the first and the last other character stays.
-/

namespace ScopedCss

/-- Text as a list of Unicode characters. -/
abbrev Text := List Char

namespace Text

/-- The Unicode property White_Space. Zero-width characters and the information separators
U+001C to U+001F do not have it. -/
def isBlank (character : Char) : Bool :=
  let code := character.toNat
  (9 ≤ code && code ≤ 13) || code == 0x20 || code == 0x85 || code == 0xA0 || code == 0x1680 ||
    (0x2000 ≤ code && code ≤ 0x200A) || code == 0x2028 || code == 0x2029 || code == 0x202F ||
    code == 0x205F || code == 0x3000

def trimStart (text : Text) : Text := text.dropWhile isBlank

def trimEnd (text : Text) : Text := (text.reverse.dropWhile isBlank).reverse

def trim (text : Text) : Text := trimEnd (trimStart text)

/-- How many bytes a text takes in UTF-8. -/
def byteLength : Text → Nat
  | [] => 0
  | character :: rest => character.utf8Size + byteLength rest

theorem trimStart_cons_of_blank {character : Char} {text : Text}
    (blank : isBlank character = true) : trimStart (character :: text) = trimStart text := by
  simp [trimStart, blank]

theorem trimStart_cons_of_not_blank {character : Char} {text : Text}
    (solid : isBlank character = false) : trimStart (character :: text) = character :: text := by
  simp [trimStart, solid]

theorem trimEnd_concat_of_not_blank {character : Char} {text : Text}
    (solid : isBlank character = false) :
    trimEnd (text ++ [character]) = text ++ [character] := by
  simp [trimEnd, solid]

end Text

end ScopedCss
