namespace ContainerBuild
namespace Text

/-!
# White space

The characters with the Unicode property `White_Space`.
-/

/-- Whether a character is white space. -/
def isBlank (c : Char) : Bool :=
  let point := c.toNat
  (0x9 ≤ point && point ≤ 0xD) || point == 0x20 || point == 0x85 || point == 0xA0 ||
    point == 0x1680 || (0x2000 ≤ point && point ≤ 0x200A) || point == 0x2028 ||
    point == 0x2029 || point == 0x202F || point == 0x205F || point == 0x3000

/-- A text without its leading white space. -/
def trimStart (text : List Char) : List Char := text.dropWhile isBlank

end Text
end ContainerBuild
