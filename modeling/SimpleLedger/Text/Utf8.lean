import SimpleLedger.Bytes

/-!
# Text as bytes

`Utf8.encode` writes a text in UTF-8.  `Utf8.decodeLossy` reads any bytes at all: where they are
not well formed it puts the replacement character U+FFFD, once for every longest piece that
starts some encoded character but does not finish it, and once for every byte that starts none.

The reader is a machine that takes a byte at a time.  Between bytes it is either at a boundary or
inside a character, and then it knows which bytes may come next: the first byte of a character
may narrow the range of the second, which shuts out overlong forms, surrogates and numbers
above 10FFFF.
-/

set_option autoImplicit false

namespace SimpleLedger
namespace Utf8

/-- A text in UTF-8. -/
def encode (s : String) : Bytes := s.toList.flatMap String.utf8EncodeChar

/-- Where the reader stands between two bytes. -/
inductive State where
  /-- Between characters. -/
  | start
  /-- Inside a character with `code` read so far and `more + 1` bytes to come, of which the next
  one lies between `low` and `high`. -/
  | inside (code more : Nat) (low high : UInt8)
  deriving DecidableEq

/-- What the first byte of a character leads to, and the characters finished by it. -/
def first (b : UInt8) : List Char × State :=
  if b ≤ 0x7f then ([Char.ofNat b.toNat], .start)
  else if 0xc2 ≤ b ∧ b ≤ 0xdf then ([], .inside (b.toNat % 32) 0 0x80 0xbf)
  else if b = 0xe0 then ([], .inside 0 1 0xa0 0xbf)
  else if b = 0xed then ([], .inside 13 1 0x80 0x9f)
  else if 0xe1 ≤ b ∧ b ≤ 0xef then ([], .inside (b.toNat % 16) 1 0x80 0xbf)
  else if b = 0xf0 then ([], .inside 0 2 0x90 0xbf)
  else if 0xf1 ≤ b ∧ b ≤ 0xf3 then ([], .inside (b.toNat % 8) 2 0x80 0xbf)
  else if b = 0xf4 then ([], .inside 4 2 0x80 0x8f)
  else (['\uFFFD'], .start)

/-- One byte.  A byte that cannot go on with the character begun ends it with a replacement, and
is then looked at again as a first byte. -/
def step : State → UInt8 → List Char × State
  | .start, b => first b
  | .inside code more low high, b =>
    if low ≤ b ∧ b ≤ high then
      let code := code * 64 + b.toNat % 64
      match more with
      | 0 => ([Char.ofNat code], .start)
      | more + 1 => ([], .inside code more 0x80 0xbf)
    else
      let (out, next) := first b
      ('\uFFFD' :: out, next)

/-- The characters read from a state on.  A character that the end cuts off is replaced. -/
def run : State → Bytes → List Char
  | .start, [] => []
  | .inside .., [] => ['\uFFFD']
  | q, b :: bs =>
    let (out, next) := step q b
    out ++ run next bs

/-- The text that some bytes read as, well formed or not. -/
def decodeLossy (bs : Bytes) : String := String.ofList (run .start bs)

end Utf8
end SimpleLedger
