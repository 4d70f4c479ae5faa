import SimpleLedger.Bytes.Hex

/-!
# Message scripts

The script of a message is the opcode `OP_RETURN` and then nothing but data pushes.  Each push
says how long its data is, and there are four ways to say it: the length itself as an opcode, or
an opcode that announces one, two or four bytes of length.

* `Script.ofChunks` writes pushes in the shortest way.  Empty data is pushed with one length byte,
  since the opcode 0 is not a push.
* `Script.chunks` reads every way.
-/

set_option autoImplicit false

namespace SimpleLedger
namespace Script

/-- The opcode that a message script begins with. -/
def opReturn : UInt8 := 0x6a

/-! ## Writing -/

/-- What comes before `n` bytes of data. -/
def header (n : Nat) : Bytes :=
  if n = 0 then [0x4c, 0]
  else if n ≤ 75 then [UInt8.ofNat n]
  else if n ≤ 255 then [0x4c, UInt8.ofNat n]
  else if n ≤ 65535 then 0x4d :: Bytes.littleEndian 2 n
  else 0x4e :: Bytes.littleEndian 4 n

/-- A push of some data, which follows its header. -/
def push (data : Bytes) : Bytes := header data.length ++ data

/-- The script that pushes the chunks in their order. -/
def ofChunks (chunks : List Bytes) : Bytes := opReturn :: chunks.flatMap push

/-- A quantity as a chunk: eight bytes, the most significant one first. -/
def quantity (q : UInt64) : Bytes := Bytes.bigEndian 8 q.toNat

/-- A chunk that may be missing: empty or a single byte. -/
def optionalByte (b : Option UInt8) : Bytes := b.toList

/-! ## Reading -/

/-- Why a script is not a list of pushes. -/
inductive Error where
  | notMessage
  /-- The script ends inside the length of the push at this place, or inside the data that begins
  here. -/
  | truncated (position : Nat)
  | notPush (opcode : UInt8)
  deriving DecidableEq

namespace Error

/-- The machine-readable name of the error.  Broken pushes are told apart from other scripts, and
not from each other. -/
def code : Error → String
  | .notMessage => "not_slp"
  | .truncated _ | .notPush _ => "malformed_op_return"

/-- The error as a sentence for people. -/
def message : Error → String
  | .notMessage => "Script is not an OP_RETURN"
  | .truncated position => s!"Script truncated at byte {position}"
  | .notPush opcode => s!"Unexpected opcode 0x{Hex.encode [opcode]} in SLP payload"

end Error

/-- How many bytes of length follow an opcode that pushes. -/
def lengthBytes? (opcode : UInt8) : Option Nat :=
  if 0x01 ≤ opcode ∧ opcode ≤ 0x4b then some 0
  else if opcode = 0x4c then some 1
  else if opcode = 0x4d then some 2
  else if opcode = 0x4e then some 4
  else none

/-- The chunks that a piece of script pushes, where `position` bytes come before it. -/
def chunksAt (position : Nat) : Bytes → Except Error (List Bytes)
  | [] => .ok []
  | opcode :: rest =>
    match lengthBytes? opcode with
    | none => .error (.notPush opcode)
    | some k =>
      if (rest.take k).length < k then .error (.truncated position)
      else
        let n := if k = 0 then opcode.toNat else Bytes.ofLittleEndian (rest.take k)
        let data := (rest.drop k).take n
        if data.length < n then .error (.truncated (position + 1 + k))
        else do
          let chunks ← chunksAt (position + 1 + k + n) ((rest.drop k).drop n)
          return data :: chunks
  termination_by s => s.length

/-- The chunks that a script pushes. -/
def chunks : Bytes → Except Error (List Bytes)
  | [] => .error .notMessage
  | opcode :: rest => if opcode = opReturn then chunksAt 1 rest else .error .notMessage

end Script
end SimpleLedger
