/-!
Texts that are written piece by piece.  Room for their bytes is reserved at first, and grows
when a piece does not fit; a text cannot have 2 ^ 63 bytes.
-/

namespace TableJoin.Text

/-- Why writing a text stops. -/
inductive Overrun where
  /-- A number that 64 bits do not hold. -/
  | number
  /-- More room than a text can have. -/
  | room
deriving DecidableEq, Repr

def addWord (a b : UInt64) : Except Overrun UInt64 :=
  if a.toNat + b.toNat < UInt64.size then .ok (a + b) else .error .number

def mulWord (a b : UInt64) : Except Overrun UInt64 :=
  if a.toNat * b.toNat < UInt64.size then .ok (a * b) else .error .number

/-- The most room that a text can have, in bytes. -/
def greatestRoom : Nat := UInt64.size / 2 - 1

/-- What has been written of a text, and how many bytes there is room for. -/
structure Buffer where
  text : String
  room : Nat
deriving DecidableEq, Repr

namespace Buffer

def reserve (room : Nat) : Except Overrun Buffer :=
  if room ≤ greatestRoom then .ok ⟨"", room⟩ else .error .room

/-- The room after growing for a number of bytes: at least twice what it was, if that was not
enough. -/
def grown (room needed : Nat) : Nat :=
  if needed ≤ room then room else max (2 * room) needed

def push (b : Buffer) (s : String) : Except Overrun Buffer :=
  let room := grown b.room (b.text.utf8ByteSize + s.utf8ByteSize)
  if room ≤ greatestRoom then .ok ⟨b.text ++ s, room⟩ else .error .room

def pushAll (b : Buffer) (pieces : List String) : Except Overrun Buffer :=
  pieces.foldlM push b

end Buffer

end TableJoin.Text
