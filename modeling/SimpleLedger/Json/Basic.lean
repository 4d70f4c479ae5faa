import SimpleLedger.Json.Number

/-!
# JSON values

A value is kept as it was written: members of an object stay in their order, also repeated ones.

A string of a document need not denote a text, because an escape may name half of a surrogate
pair.  Such a string is `none`.
-/

set_option autoImplicit false

namespace SimpleLedger

/-- A value of a document. -/
inductive Json where
  | null
  | bool (b : Bool)
  | num (n : Json.Number)
  | str (s : Option String)
  | arr (items : List Json)
  | obj (members : List (Option String × Json))

namespace Json

/-! ## Making values -/

/-- A text as a string. -/
def text (s : String) : Json := .str (some s)

/-- An integer as a number. -/
def int (n : Int) : Json := .num (.integer n)

/-- A natural number as a number. -/
def nat (n : Nat) : Json := .int n

/-- An array of items, written one by one. -/
def list {α : Type} (write : α → Json) (xs : List α) : Json := .arr (xs.map write)

/-- Null for `none`. -/
def nullable {α : Type} (write : α → Json) : Option α → Json
  | none => .null
  | some a => write a

/-- An object whose names are texts. -/
def object (members : List (String × Json)) : Json :=
  .obj (members.map fun (key, value) => (some key, value))

end Json
end SimpleLedger
