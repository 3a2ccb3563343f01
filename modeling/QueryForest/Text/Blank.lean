namespace QueryForest

/-!
# White space

The characters with the Unicode property `White_Space`, which readers of dates skip.
-/

/-- Whether a character is white space: the ASCII controls from tab to carriage return, the space,
and the separators beyond ASCII. -/
def isBlank (c : Char) : Bool :=
  let n := c.toNat
  (9 ≤ n && n ≤ 13) || n == 0x20 || n == 0x85 || n == 0xA0 || n == 0x1680 ||
    (0x2000 ≤ n && n ≤ 0x200A) || n == 0x2028 || n == 0x2029 || n == 0x202F || n == 0x205F ||
    n == 0x3000

/-- The text from its first character that is not white space on. -/
def skipBlank (cs : List Char) : List Char := cs.dropWhile isBlank

end QueryForest
