namespace Unsugar

/-! # Characters of texts -/

/-! ## Blank characters

The characters with the Unicode property `White_Space`, and trimming by them.
-/

/-- Code points of blank characters, as closed ranges in increasing order. -/
def blankRanges : List (Nat × Nat) :=
  [(0x09, 0x0d), (0x20, 0x20), (0x85, 0x85), (0xa0, 0xa0), (0x1680, 0x1680),
    (0x2000, 0x200a), (0x2028, 0x2029), (0x202f, 0x202f), (0x205f, 0x205f),
    (0x3000, 0x3000)]

def isBlank (char : Char) : Bool :=
  blankRanges.any fun range => range.1 ≤ char.toNat && char.toNat ≤ range.2

def trimBlankEnd (text : List Char) : List Char :=
  (text.reverse.dropWhile isBlank).reverse

def trimBlank (text : List Char) : List Char :=
  trimBlankEnd (text.dropWhile isBlank)

namespace Quoted

/-! ## Quoted text

How characters are written inside quotes.  A backslash, the quote itself and
five control characters are escaped; everything else stands for itself.  In an
interpolated string a brace is written twice.
-/

def escapeChar (quote char : Char) : List Char :=
  if char = '\\' then ['\\', '\\']
  else if char = '\n' then ['\\', 'n']
  else if char = '\r' then ['\\', 'r']
  else if char = '\t' then ['\\', 't']
  else if char = '\x00' then ['\\', '0']
  else if char = quote then ['\\', quote]
  else [char]

def escape (quote : Char) (text : List Char) : List Char :=
  text.flatMap (escapeChar quote)

def openBrace : Char := '\x7b'

def closeBrace : Char := '\x7d'

def doubleBraces (text : List Char) : List Char :=
  text.flatMap fun char =>
    if char = openBrace ∨ char = closeBrace then [char, char] else [char]

def charLiteral (char : Char) : String :=
  String.ofList ('\'' :: escapeChar '\'' char ++ ['\''])

def stringLiteral (text : String) : String :=
  String.ofList ('"' :: escape '"' text.toList ++ ['"'])

def interpolationText (text : String) : String :=
  String.ofList (doubleBraces (escape '"' text.toList))

end Quoted

end Unsugar
