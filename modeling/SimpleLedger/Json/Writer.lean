import SimpleLedger.Bytes.Hex
import SimpleLedger.Json.Basic

/-!
# Writing JSON

`Json.compact` writes a value without any white space.  A string is escaped only where it has to
be: quotes, backslashes and control characters.
-/

set_option autoImplicit false

namespace SimpleLedger
namespace Json
namespace Writer

/-- The letter of the short escape of a character. -/
def shortEscape? (c : Char) : Option Char :=
  if c = '"' then some '"'
  else if c = '\\' then some '\\'
  else if c = '\x08' then some 'b'
  else if c = '\x0c' then some 'f'
  else if c = '\n' then some 'n'
  else if c = '\r' then some 'r'
  else if c = '\t' then some 't'
  else none

/-- The characters that stand for a character between quotes. -/
def escape (c : Char) : List Char :=
  match shortEscape? c with
  | some e => ['\\', e]
  | none =>
    if c.toNat < 0x20 then
      ['\\', 'u', '0', '0', Hex.digit (c.toNat / 16), Hex.digit (c.toNat % 16)]
    else [c]

/-- A string in quotes.  One without a text is written as half of a surrogate pair. -/
def string : Option String → List Char
  | some s => '"' :: s.toList.flatMap escape ++ ['"']
  | none => ['"', '\\', 'u', 'd', '8', '0', '0', '"']

/-- The digits of an integer, after a minus if it is negative. -/
def integer (n : Int) : List Char :=
  if n < 0 then '-' :: Nat.toDigits 10 n.natAbs else Nat.toDigits 10 n.natAbs

/-- The characters of a number.  One that is no integer is written with an exponent. -/
def number : Number → List Char
  | .integer n => integer n
  | .decimal negative significand exponent =>
    (if negative then ['-'] else []) ++ Nat.toDigits 10 significand.toNat ++
      'e' :: integer exponent

mutual

/-- The characters of a value. -/
def value : Json → List Char
  | .null => ['n', 'u', 'l', 'l']
  | .bool true => ['t', 'r', 'u', 'e']
  | .bool false => ['f', 'a', 'l', 's', 'e']
  | .num n => number n
  | .str s => string s
  | .arr [] => ['[', ']']
  | .arr (x :: xs) => '[' :: value x ++ items xs
  | .obj [] => ['\x7b', '\x7d']
  | .obj ((k, v) :: ms) => '\x7b' :: string k ++ ':' :: value v ++ members ms

/-- The items after the first one, and the end of the array. -/
def items : List Json → List Char
  | [] => [']']
  | x :: xs => ',' :: value x ++ items xs

/-- The members after the first one, and the end of the object. -/
def members : List (Option String × Json) → List Char
  | [] => ['\x7d']
  | (k, v) :: ms => ',' :: string k ++ ':' :: value v ++ members ms

end

end Writer

/-- The document that holds a value, without white space. -/
def compact (j : Json) : String := String.ofList (Writer.value j)

end Json
end SimpleLedger
