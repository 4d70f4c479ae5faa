import SimpleLedger.Text.Printable

/-!
# Quoted text in messages

Error messages quote the text they complain about.  Inside the quotes a backslash introduces the
quote itself, a backslash, the usual names of NUL, tab, line feed and carriage return, or the
number of a character that `Text.isPrintable` does not show.
-/

set_option autoImplicit false

namespace SimpleLedger
namespace Text

/-- The number of a character in lower-case hexadecimal, braced, without leading zeros. -/
def escapedNumber (c : Char) : String :=
  "\\u\x7b" ++ String.ofList (Nat.toDigits 16 c.toNat) ++ "\x7d"

/-- A character between quotes of the kind `mark`. -/
def escape (mark : Char) (c : Char) : String :=
  if c = '\x00' then "\\0"
  else if c = '\t' then "\\t"
  else if c = '\n' then "\\n"
  else if c = '\r' then "\\r"
  else if c = '\\' then "\\\\"
  else if c = mark then String.ofList ['\\', mark]
  else if isPrintable c then String.singleton c
  else escapedNumber c

/-- A text in double quotes. -/
def quote (s : String) : String :=
  "\"" ++ String.join (s.toList.map (escape '"')) ++ "\""

/-- A character in single quotes. -/
def quoteChar (c : Char) : String :=
  "'" ++ escape '\'' c ++ "'"

end Text
end SimpleLedger
