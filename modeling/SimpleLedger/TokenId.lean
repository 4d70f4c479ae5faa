import SimpleLedger.Bytes.Hex

/-!
# Token identifiers

A token is named by the 32 bytes of the transaction that created it.  The identifier is written
as 64 lower-case hexadecimal digits, and read from digits in either case.
-/

set_option autoImplicit false

namespace SimpleLedger

/-- The name of a token. -/
structure TokenId where
  /-- The transaction that created the token. -/
  digest : Digest
  deriving DecidableEq

namespace TokenId

/-- Why a text or a byte string names no token. -/
inductive Error where
  | hex (cause : Hex.Error)
  | length (actual : Nat)
  deriving DecidableEq

/-- The reason as it is shown to a user. -/
def Error.message : Error → String
  | .hex cause => "invalid hex: " ++ cause.message
  | .length actual => s!"expected 32 bytes, got {actual}"

/-- The 32 bytes of an identifier, as they are pushed in a script. -/
def bytes (id : TokenId) : Bytes := id.digest.bytes

@[simp]
theorem length_bytes (id : TokenId) : id.bytes.length = 32 := id.digest.length_bytes

/-- The identifier with these bytes.  Only their number can be wrong. -/
def ofBytes (bs : Bytes) : Except Error TokenId :=
  match Digest.ofBytes? bs with
  | some d => .ok ⟨d⟩
  | none => .error (.length bs.length)

theorem ofBytes_eq_ok_iff {bs : Bytes} {id : TokenId} : ofBytes bs = .ok id ↔ id.bytes = bs := by
  rw [ofBytes]
  constructor
  · intro h
    split at h
    next d hd =>
      cases h
      exact Digest.ofBytes?_eq_some_iff.1 hd
    next => cases h
  · intro h
    rw [Digest.ofBytes?_eq_some_iff.2 h]

theorem bytes_inj {a b : TokenId} : a.bytes = b.bytes ↔ a = b := by
  rw [← ofBytes_eq_ok_iff, ofBytes_eq_ok_iff.2 rfl, Except.ok.injEq, eq_comm]

/-- The identifier that a text of 64 digits stands for. -/
def ofHex (text : String) : Except Error TokenId :=
  match Hex.decode text with
  | .ok bs => ofBytes bs
  | .error e => .error (.hex e)

/-- The 64 digits of an identifier, in lower case. -/
def toHex (id : TokenId) : String := Hex.encode id.bytes

instance : ToString TokenId := ⟨toHex⟩

/-- Identifiers are ordered by their bytes, the first one counting most. -/
instance : Ord TokenId := ⟨fun a b => compare a.bytes b.bytes⟩

end TokenId
end SimpleLedger
