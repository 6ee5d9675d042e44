/-! White space, in the sense of the property of that name. -/
namespace TenantQueue.Text

def isBlank (character : Char) : Bool :=
  let point := character.toNat
  (9 ≤ point && point ≤ 13) || point == 0x20 || point == 0x85 || point == 0xa0 ||
    point == 0x1680 || (0x2000 ≤ point && point ≤ 0x200a) || point == 0x2028 ||
    point == 0x2029 || point == 0x202f || point == 0x205f || point == 0x3000

def skipBlanks (text : List Char) : List Char := text.dropWhile isBlank

end TenantQueue.Text
