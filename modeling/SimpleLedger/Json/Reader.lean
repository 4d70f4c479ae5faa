import SimpleLedger.Json.Basic

/-!
# Reading JSON

`Json.parse?` reads exactly one document of RFC 8259: no byte order mark, no comma before a
closing bracket, no raw control characters in strings, no digits after a leading zero.

Each reader takes characters and returns what it read with the characters that are left.  The
nesting of values is followed by recursion on a bound, which `Json.parse?` takes from the length
of the text: every step down or along uses up a character.
-/

set_option autoImplicit false

namespace SimpleLedger
namespace Json
namespace Reader

/-- White space between the parts of a document. -/
def isBlank (c : Char) : Bool := c == ' ' || c == '\t' || c == '\n' || c == '\r'

/-- What is left after white space. -/
def skipBlank (cs : List Char) : List Char := cs.dropWhile isBlank

/-! ## Strings -/

/-- What a place in a string stands for: a character, or half of a surrogate pair. -/
inductive Piece where
  | char (c : Char)
  | surrogate (unit : Nat)
  deriving DecidableEq

/-- The piece with a number below `2 ^ 16`. -/
def Piece.ofUnit (n : Nat) : Piece :=
  if 0xd800 ≤ n ∧ n ≤ 0xdfff then .surrogate n else .char (Char.ofNat n)

/-- The value of a hexadecimal digit, in either case. -/
def hexValue? (c : Char) : Option Nat :=
  let n := c.toNat
  if 48 ≤ n ∧ n ≤ 57 then some (n - 48)
  else if 97 ≤ n ∧ n ≤ 102 then some (n - 87)
  else if 65 ≤ n ∧ n ≤ 70 then some (n - 55)
  else none

/-- The number of four hexadecimal digits. -/
def unit? (a b c d : Char) : Option Nat := do
  let a ← hexValue? a
  let b ← hexValue? b
  let c ← hexValue? c
  let d ← hexValue? d
  return ((a * 16 + b) * 16 + c) * 16 + d

/-- What the character after a backslash stands for. -/
def unescape? (c : Char) : Option Char :=
  if c = '"' then some '"'
  else if c = '\\' then some '\\'
  else if c = '/' then some '/'
  else if c = 'b' then some '\x08'
  else if c = 'f' then some '\x0c'
  else if c = 'n' then some '\n'
  else if c = 'r' then some '\r'
  else if c = 't' then some '\t'
  else none

/-- The pieces up to the closing quote. -/
def pieces : List Char → Option (List Piece × List Char)
  | [] => none
  | '"' :: rest => some ([], rest)
  | '\\' :: 'u' :: a :: b :: c :: d :: rest => do
    let n ← unit? a b c d
    let (ps, rest) ← pieces rest
    return (.ofUnit n :: ps, rest)
  | '\\' :: e :: rest => do
    let c ← unescape? e
    let (ps, rest) ← pieces rest
    return (.char c :: ps, rest)
  | c :: rest =>
    if c.toNat < 0x20 ∨ c = '\\' then none
    else do
      let (ps, rest) ← pieces rest
      return (.char c :: ps, rest)

/-- The characters of a text.  The two halves of a pair have to stand side by side. -/
def join : List Piece → Option (List Char)
  | [] => some []
  | .char c :: ps => do return c :: (← join ps)
  | .surrogate high :: .surrogate low :: ps =>
    if high < 0xdc00 ∧ 0xdc00 ≤ low then do
      let c := Char.ofNat (0x10000 + (high - 0xd800) * 0x400 + (low - 0xdc00))
      return c :: (← join ps)
    else none
  | .surrogate _ :: _ => none

/-- A string after its opening quote. -/
def string (cs : List Char) : Option (Option String × List Char) := do
  let (ps, rest) ← pieces cs
  return ((join ps).map String.ofList, rest)

/-! ## Numbers -/

/-- The digits in front, and what comes after them. -/
def digits (cs : List Char) : List Char × List Char :=
  (cs.takeWhile Char.isDigit, cs.dropWhile Char.isDigit)

/-- A leading minus. -/
def sign : List Char → Bool × List Char
  | '-' :: rest => (true, rest)
  | cs => (false, cs)

/-- The digits after a point, `none` inside if there is no point. -/
def fraction : List Char → Option (Option (List Char) × List Char)
  | '.' :: rest =>
    let (ds, rest) := digits rest
    if ds.isEmpty then none else some (some ds, rest)
  | cs => some (none, cs)

/-- The power of ten after an `e` with its sign. -/
def power (cs : List Char) : Option (Option Int × List Char) :=
  let (negative, cs) :=
    match cs with
    | '+' :: rest => (false, rest)
    | cs => sign cs
  let (ds, rest) := digits cs
  if ds.isEmpty then none
  else
    let n : Int := Nat.ofDigitChars 10 ds 0
    some (some (if negative then -n else n), rest)

/-- The exponent, `none` inside if there is none. -/
def exponent : List Char → Option (Option Int × List Char)
  | 'e' :: rest => power rest
  | 'E' :: rest => power rest
  | cs => some (none, cs)

/-- A number, without a superfluous zero in front. -/
def number (cs : List Char) : Option (Number × List Char) :=
  let (negative, cs) := sign cs
  let (whole, cs) := digits cs
  if whole.isEmpty || (whole.head? == some '0' && whole.length != 1) then none
  else do
    let (fraction, cs) ← fraction cs
    let (exponent, cs) ← exponent cs
    return (Number.ofParts negative whole fraction exponent, cs)

/-! ## Values -/

mutual

/-- The next value.  White space before it does not count. -/
def value : Nat → List Char → Option (Json × List Char)
  | 0, _ => none
  | bound + 1, cs =>
    match skipBlank cs with
    | '"' :: rest => do
      let (s, rest) ← string rest
      return (.str s, rest)
    | '[' :: rest =>
      match skipBlank rest with
      | ']' :: rest => some (.arr [], rest)
      | rest => do
        let (xs, rest) ← items bound rest
        return (.arr xs, rest)
    | '\x7b' :: rest =>
      match skipBlank rest with
      | '\x7d' :: rest => some (.obj [], rest)
      | rest => do
        let (ms, rest) ← members bound rest
        return (.obj ms, rest)
    | 'n' :: 'u' :: 'l' :: 'l' :: rest => some (.null, rest)
    | 't' :: 'r' :: 'u' :: 'e' :: rest => some (.bool true, rest)
    | 'f' :: 'a' :: 'l' :: 's' :: 'e' :: rest => some (.bool false, rest)
    | cs => do
      let (n, rest) ← number cs
      return (.num n, rest)

/-- The items of an array up to its end. -/
def items : Nat → List Char → Option (List Json × List Char)
  | 0, _ => none
  | bound + 1, cs => do
    let (x, rest) ← value bound cs
    match skipBlank rest with
    | ']' :: rest => return ([x], rest)
    | ',' :: rest => do
      let (xs, rest) ← items bound rest
      return (x :: xs, rest)
    | _ => none

/-- The members of an object up to its end. -/
def members : Nat → List Char → Option (List (Option String × Json) × List Char)
  | 0, _ => none
  | bound + 1, cs =>
    match skipBlank cs with
    | '"' :: rest => do
      let (key, rest) ← string rest
      match skipBlank rest with
      | ':' :: rest => do
        let (v, rest) ← value bound rest
        match skipBlank rest with
        | '\x7d' :: rest => return ([(key, v)], rest)
        | ',' :: rest => do
          let (ms, rest) ← members bound rest
          return ((key, v) :: ms, rest)
        | _ => none
      | _ => none
    | _ => none

end

end Reader

/-- The value that a document holds. -/
def parse? (document : String) : Option Json :=
  let cs := document.toList
  match Reader.value (2 * cs.length + 2) cs with
  | some (j, rest) => if (Reader.skipBlank rest).isEmpty then some j else none
  | none => none

end Json
end SimpleLedger
