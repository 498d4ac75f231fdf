namespace LeafWeb.Lib

def isSpace (c : Char) : Bool :=
  let n := c.toNat
  (9 ≤ n && n ≤ 13) || (28 ≤ n && n ≤ 32) || n == 0x85 || n == 0xa0 || n == 0x1680 ||
    (0x2000 ≤ n && n ≤ 0x200a) || n == 0x2028 || n == 0x2029 || n == 0x202f || n == 0x205f ||
    n == 0x3000

def strip (s : String) : String := String.ofList ((s.toList.dropWhile isSpace).reverse.dropWhile isSpace).reverse

def isBlank (s : String) : Bool := strip s = ""

/-- Of the characters beyond ASCII only the Kelvin sign becomes an ASCII character. -/
def lowerAscii (c : Char) : Char := if c = '\u212a' then 'k' else c.toLower

end LeafWeb.Lib
