/-! The characters with the Unicode property White_Space, and texts without them at the ends. -/

namespace NeuralGraph.Text

/-- The 25 characters with the property White_Space. -/
def isBlank (c : Char) : Bool :=
  let code := c.toNat
  (0x9 ≤ code && code ≤ 0xd) || code = 0x20 || code = 0x85 || code = 0xa0 || code = 0x1680 ||
    (0x2000 ≤ code && code ≤ 0x200a) || code = 0x2028 || code = 0x2029 || code = 0x202f ||
    code = 0x205f || code = 0x3000

/-- Drops the blank characters at both ends. -/
def trim (text : String) : String :=
  String.ofList (((text.toList.dropWhile isBlank).reverse.dropWhile isBlank).reverse)

/-- Writes ASCII capitals as small letters; every other character stays. -/
def lower (text : String) : String := text.map Char.toLower

end NeuralGraph.Text
