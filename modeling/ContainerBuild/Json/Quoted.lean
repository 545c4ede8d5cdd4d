namespace ContainerBuild
namespace Json

/-!
# Quoted strings

Writing is by character: `"`, `\` and what is below U+0020 get an escape, and every other
character stands for itself, or, in the ASCII form, for itself as far as U+007F and for the
escapes of its one or two UTF-16 units beyond.

Reading has two steps.  `scan` takes the text up to the closing quote apart into code points and
settles whether the text is well formed.  An escape may name half of a surrogate pair, so the
code points need not be characters; `pair?` joins the halves that belong together and rejects
the others.
-/

namespace Quoted

/-! ## Surrogates -/

/-- Whether a code point is the first half of a surrogate pair. -/
def IsLead (point : Nat) : Prop := 0xD800 ≤ point ∧ point < 0xDC00

/-- Whether a code point is the second half of a surrogate pair. -/
def IsTrail (point : Nat) : Prop := 0xDC00 ≤ point ∧ point < 0xE000

instance (point : Nat) : Decidable (IsLead point) := by unfold IsLead; infer_instance
instance (point : Nat) : Decidable (IsTrail point) := by unfold IsTrail; infer_instance

/-- The UTF-16 units of a character. -/
def units (c : Char) : List Nat :=
  if c.toNat < 0x10000 then
    [c.toNat]
  else
    [0xD800 + (c.toNat - 0x10000) / 0x400, 0xDC00 + (c.toNat - 0x10000) % 0x400]

/-- The characters that code points stand for, halves of surrogate pairs joined; none if a half
has no partner. -/
def pair? : List Nat → Option (List Char)
  | [] => some []
  | lead :: trail :: rest =>
      if IsLead lead then
        if IsTrail trail then
          (pair? rest).map (Char.ofNat (0x10000 + (lead - 0xD800) * 0x400 + (trail - 0xDC00)) :: ·)
        else
          none
      else if IsTrail lead then
        none
      else
        (pair? (trail :: rest)).map (Char.ofNat lead :: ·)
  | [point] => if IsLead point ∨ IsTrail point then none else some [Char.ofNat point]

/-! ## Writing -/

/-- The `position`-th hexadecimal digit of a unit, in lower case. -/
def hexDigit (unit position : Nat) : Char := Nat.digitChar (unit >>> (4 * position) % 16)

/-- The escape that names a UTF-16 unit. -/
def unitEscape (unit : Nat) : List Char :=
  ['\\', 'u', hexDigit unit 3, hexDigit unit 2, hexDigit unit 1, hexDigit unit 0]

/-- The written form of one character. -/
def escape (ascii : Bool) (c : Char) : List Char :=
  if c = '"' then ['\\', '"']
  else if c = '\\' then ['\\', '\\']
  else if c = '\n' then ['\\', 'n']
  else if c = '\r' then ['\\', 'r']
  else if c = '\t' then ['\\', 't']
  else if c = '\x08' then ['\\', 'b']
  else if c = '\x0c' then ['\\', 'f']
  else if c.toNat < 0x20 then unitEscape c.toNat
  else if ascii ∧ 0x80 ≤ c.toNat then (units c).flatMap unitEscape
  else [c]

/-- A string in quotes. -/
def write (ascii : Bool) (text : String) : List Char :=
  '"' :: text.toList.flatMap (escape ascii) ++ ['"']

/-! ## Reading -/

/-- The value of a hexadecimal digit of either case. -/
def hexValue? (c : Char) : Option Nat :=
  if '0' ≤ c ∧ c ≤ '9' then some (c.toNat - 48)
  else if 'a' ≤ c ∧ c ≤ 'f' then some (c.toNat - 87)
  else if 'A' ≤ c ∧ c ≤ 'F' then some (c.toNat - 55)
  else none

/-- The unit that four hexadecimal digits name. -/
def hexUnit? (a b c d : Char) : Option Nat := do
  let a ← hexValue? a
  let b ← hexValue? b
  let c ← hexValue? c
  let d ← hexValue? d
  some (((a * 16 + b) * 16 + c) * 16 + d)

/-- The character that a single-letter escape names. -/
def shortEscape? (c : Char) : Option Char :=
  if c = '"' ∨ c = '\\' ∨ c = '/' then some c
  else if c = 'b' then some '\x08'
  else if c = 'f' then some '\x0c'
  else if c = 'n' then some '\n'
  else if c = 'r' then some '\r'
  else if c = 't' then some '\t'
  else none

/-- The code points up to the closing quote, and the text after it.  None if the text ends
first, holds a control character, or has an escape that is not one. -/
def scan : List Char → Option (List Nat × List Char)
  | [] => none
  | '"' :: rest => some ([], rest)
  | '\\' :: 'u' :: a :: b :: c :: d :: rest =>
      match hexUnit? a b c d, scan rest with
      | some unit, some (points, rest) => some (unit :: points, rest)
      | _, _ => none
  | '\\' :: c :: rest =>
      match shortEscape? c, scan rest with
      | some character, some (points, rest) => some (character.toNat :: points, rest)
      | _, _ => none
  | c :: rest =>
      if c.toNat < 0x20 ∨ c = '\\' then
        none
      else
        (scan rest).map fun (points, rest) => (c.toNat :: points, rest)

/-- The string that scanned code points stand for. -/
def text? (points : List Nat) : Option String := (pair? points).map String.ofList

end Quoted

end Json
end ContainerBuild
