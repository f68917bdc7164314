/-!
# Texts

What the methods of `str` take for white space.
-/

namespace AutoSwe

/-- `str.isspace` of one character. -/
def isSpace (c : Char) : Bool :=
  [9, 10, 11, 12, 13, 28, 29, 30, 31, 32, 133, 160, 5760, 8232, 8233, 8239, 8287, 12288].contains
    c.toNat || (8192 ≤ c.toNat && c.toNat ≤ 8202)

/-- `not text.strip()` -/
def isBlank (text : String) : Bool := text.toList.all isSpace

end AutoSwe
