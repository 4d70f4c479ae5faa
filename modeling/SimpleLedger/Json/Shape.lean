import SimpleLedger.Json.Basic
import SimpleLedger.Satoshi

/-!
# Typed views of JSON values

Readers that turn a value into data of a given shape, or fail.

* A scalar has to be written as one: an integer without fraction or exponent, in range.
* A record is an object with a member for each field, or an array of the fields in their order
  (`Json.record?`).  An object may have further members, whose values do not matter; no field may
  be given twice.  What a missing or null field means is up to the field.
* A choice without data is its name, or an object with that single name and null.
* A choice with data is a record with the name of the choice in an additional first field
  (`Json.tagged?`).  Since the name may come last, all of it is held back until the name is known,
  and everything held back has to be representable: texts, numbers in the range of doubles
  (`Json.Number.isDouble`), and a bounded nesting.
-/

set_option autoImplicit false

namespace SimpleLedger
namespace Json

variable {α : Type}

/-! ## Scalars and lists -/

/-- A string that denotes a text. -/
def text? : Json → Option String
  | .str s => s
  | _ => none

/-- A truth value. -/
def bool? : Json → Option Bool
  | .bool b => some b
  | _ => none

/-- A number written without fraction and exponent. -/
def int? : Json → Option Int
  | .num (.integer n) => some n
  | _ => none

/-- A number below `bound`. -/
def below? (bound : Nat) (j : Json) : Option Nat := do
  let n ← j.int?
  if 0 ≤ n ∧ n < bound then some n.toNat else none

/-- A number of 8 bits. -/
def uint8? (j : Json) : Option UInt8 := (j.below? UInt8.size).map UInt8.ofNat

/-- A number of 32 bits. -/
def uint32? (j : Json) : Option UInt32 := (j.below? UInt32.size).map UInt32.ofNat

/-- A number of 64 bits. -/
def uint64? (j : Json) : Option UInt64 := (j.below? UInt64.size).map UInt64.ofNat

/-- A number in the range of amounts, which may be negative. -/
def satoshi? (j : Json) : Option Satoshi := j.int?.bind Satoshi.ofInt?

/-- An array of which every item can be read. -/
def list? (read : Json → Option α) : Json → Option (List α)
  | .arr items => items.mapM read
  | _ => none

/-- Null is `none`. -/
def nullable? (read : Json → Option α) : Json → Option (Option α)
  | .null => some none
  | j => (read j).map some

/-- A choice without data. -/
def choice? (ofName? : String → Option α) : Json → Option α
  | .str (some name) => ofName? name
  | .obj [(some name, .null)] => ofName? name
  | _ => none

/-! ## Records -/

/-- The fields of a record that are there, and whether they were given by name. -/
structure Record where
  named : Bool
  fields : List (String × Json)

/-- The members of an object, if all their names are texts. -/
def texts? (members : List (Option String × Json)) : Option (List (String × Json)) :=
  members.mapM fun (key, value) => key.map (·, value)

/-- The fields of a value that is a record of the given fields. -/
def record? (names : List String) : Json → Option Record
  | .obj members => do
    let fields := (← texts? members).filter fun (key, _) => names.contains key
    if (fields.map Prod.fst).Nodup then some ⟨true, fields⟩ else none
  | .arr items => if items.length ≤ names.length then some ⟨false, names.zip items⟩ else none
  | _ => none

namespace Record

/-- A field that has to be there. -/
def required (r : Record) (name : String) (read : Json → Option α) : Option α :=
  (r.fields.lookup name).bind read

/-- A field that is `fallback` where it is missing. -/
def withDefault (r : Record) (name : String) (read : Json → Option α) (fallback : α) :
    Option α :=
  match r.fields.lookup name with
  | some j => read j
  | none => some fallback

/-- A field that is `none` where it is null, and where it is missing among named fields. -/
def optional (r : Record) (name : String) (read : Json → Option α) : Option (Option α) :=
  match r.fields.lookup name with
  | some j => j.nullable? read
  | none => if r.named then some none else none

end Record

/-! ## Choices with data -/

mutual

/-- Whether a value can be held back where `room` more levels of nesting are allowed. -/
def fits (room : Nat) : Json → Bool
  | .null | .bool _ => true
  | .num n => n.isDouble
  | .str s => s.isSome
  | .arr xs => 0 < room && fitItems (room - 1) xs
  | .obj ms => 0 < room && fitMembers (room - 1) ms

/-- Whether the items of an array can be held back. -/
def fitItems (room : Nat) : List Json → Bool
  | [] => true
  | x :: xs => fits room x && fitItems room xs

/-- Whether the members of an object can be held back.  Their names have to be texts. -/
def fitMembers (room : Nat) : List (Option String × Json) → Bool
  | [] => true
  | (key, v) :: ms => key.isSome && fits room v && fitMembers room ms

end

/-- How deep a value that is held back may reach into a document. -/
def maxNesting : Nat := 127

/-- The name of a choice and the record of its data, for a value inside `nesting` others. -/
def tagged? (nesting : Nat) (j : Json) : Option (String × Json) :=
  if j.fits (maxNesting - nesting) then
    match j with
    | .arr (tag :: items) => do return (← tag.text?, .arr items)
    | .obj members =>
      match members.partition fun (key, _) => key == some "type" with
      | ([(_, tag)], others) => do return (← tag.text?, .obj others)
      | _ => none
    | _ => none
  else none

/-- The data of a choice that has none.  Members of an object do not matter. -/
def empty? : Json → Option Unit
  | .obj _ | .arr [] => some ()
  | _ => none

end Json
end SimpleLedger
