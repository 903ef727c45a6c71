import Ros1Tools.Error

/-!
# Dynamic ROS messages

The message trees of ros_babel_fish.  A message is indexed by its type, so a value
of the wrong kind, a field table that does not match its keys or a fixed array of
the wrong length cannot be built.  Integers are bit vectors, read as unsigned or in
two's complement as their type says.
-/

namespace Ros1Tools.Codec

open Lib

/-! ## Primitive values -/

/-- The primitive kinds of `ros_babel_fish::MessageTypes`. -/
inductive Primitive where
  | bool
  | uint8
  | uint16
  | uint32
  | uint64
  | int8
  | int16
  | int32
  | int64
  | float32
  | float64
  | string
  | time
  | duration
deriving DecidableEq, Repr

/-- `ros::Time`; both fields are unsigned. -/
structure Time where
  sec : BitVec 32
  nsec : BitVec 32
deriving DecidableEq

/-- `ros::Duration`; both fields are signed. -/
structure Duration where
  sec : BitVec 32
  nsec : BitVec 32
deriving DecidableEq

/-- The constructor of `ros::Time`, which carries whole seconds over. -/
def Time.ofParts (sec nsec : BitVec 32) : Except Exn Time :=
  let carried := sec.toNat + nsec.toNat / 10 ^ 9
  if carried > 2 ^ 32 - 1 then .error (.foreign (.std "Time is out of dual 32-bit range"))
  else .ok ⟨.ofNat 32 carried, .ofNat 32 (nsec.toNat % 10 ^ 9)⟩

/-- The constructor of `ros::Duration`, which makes the nanoseconds nonnegative. -/
def Duration.ofParts (sec nsec : BitVec 32) : Except Exn Duration :=
  let nsecPart := nsec.toInt.tmod (10 ^ 9)
  let secPart := sec.toInt + nsec.toInt.tdiv (10 ^ 9)
  let carried := if nsecPart < 0 then (secPart - 1, nsecPart + 10 ^ 9) else (secPart, nsecPart)
  if carried.1 < -2 ^ 31 ∨ carried.1 > 2 ^ 31 - 1 then
    .error (.foreign (.std "Duration is out of dual 32-bit range"))
  else .ok ⟨.ofInt 32 carried.1, .ofInt 32 carried.2⟩

namespace Primitive

/-- The values of a kind. -/
def Value : Primitive → Type
  | .bool => Bool
  | .uint8 | .int8 => BitVec 8
  | .uint16 | .int16 => BitVec 16
  | .uint32 | .int32 => BitVec 32
  | .uint64 | .int64 => BitVec 64
  | .float32 => Single
  | .float64 => Double
  | .string => String
  | .time => Time
  | .duration => Duration

/-- What a field of the kind holds in an empty message. -/
def default : (p : Primitive) → p.Value
  | .bool => false
  | .uint8 | .int8 => 0#8
  | .uint16 | .int16 => 0#16
  | .uint32 | .int32 => 0#32
  | .uint64 | .int64 => 0#64
  | .float32 => Binary.ofInt .binary32 0
  | .float64 => Binary.ofInt .binary64 0
  | .string => ""
  | .time => Time.mk 0#32 0#32
  | .duration => Duration.mk 0#32 0#32

/-- A time or duration has less than a second of nanoseconds. -/
def Normalized : (p : Primitive) → p.Value → Prop
  | .time, (t : Time) => t.nsec.toNat < 10 ^ 9
  | .duration, (d : Duration) => 0 ≤ d.nsec.toInt ∧ d.nsec.toInt < 10 ^ 9
  | _, _ => True

end Primitive

/-! ## Types -/

mutual

/-- A message type. -/
inductive RosType where
  | none
  | primitive (p : Primitive)
  | compound (fields : Fields)
  /-- An array of a fixed length, or a dynamic one. -/
  | array (element : RosType) (length : Option Nat)

/-- The fields of a compound type, in order. -/
inductive Fields where
  | nil
  | cons (name : String) (type : RosType) (rest : Fields)

end

namespace Fields

/-- `keys()`. -/
def keys : Fields → List String
  | .nil => []
  | .cons name _ rest => name :: rest.keys

def toList : Fields → List (String × RosType)
  | .nil => []
  | .cons name type rest => (name, type) :: rest.toList

end Fields

mutual

/-- The fields of every compound in the type have distinct names. -/
def RosType.Distinct : RosType → Prop
  | .none | .primitive _ => True
  | .compound fields => fields.Distinct
  | .array element _ => element.Distinct

def Fields.Distinct : Fields → Prop
  | .nil => True
  | .cons name type rest => name ∉ rest.keys ∧ type.Distinct ∧ rest.Distinct

end

/-! ## Messages -/

/-- An array message.  A fixed one has its length at all times. -/
@[ext] structure ArrayMessage (α : Type) (length : Option Nat) where
  items : List α
  fixed : ∀ n, length = some n → items.length = n

namespace ArrayMessage

variable {α : Type} {length : Option Nat}

/-- A fixed array is made with all its elements, a dynamic one with none. -/
def empty (item : α) (length : Option Nat) : ArrayMessage α length :=
  ⟨List.replicate (length.getD 0) item, by rintro n rfl; exact List.length_replicate⟩

/-- `assign` at an index if the array is fixed, and `append` otherwise. -/
def store (array : ArrayMessage α length) (index : Nat) (item : α) : ArrayMessage α length :=
  match length with
  | some _ => ⟨array.items.set index item, fun n h => List.length_set.trans (array.fixed n h)⟩
  | none => ⟨array.items ++ [item], nofun⟩

end ArrayMessage

mutual

/-- The messages of a type. -/
def Message : RosType → Type
  | .none => Unit
  | .primitive p => p.Value
  | .compound fields => FieldMessages fields
  | .array element length => ArrayMessage (Message element) length

/-- The values of a field table. -/
def FieldMessages : Fields → Type
  | .nil => Unit
  | .cons _ type rest => Message type × FieldMessages rest

end

mutual

/-- A fresh message of the type. -/
def Message.empty : (t : RosType) → Message t
  | .none => ()
  | .primitive p => p.default
  | .compound fields => FieldMessages.empty fields
  | .array element length => ArrayMessage.empty (Message.empty element) length

def FieldMessages.empty : (fields : Fields) → FieldMessages fields
  | .nil => ()
  | .cons _ type rest => (Message.empty type, FieldMessages.empty rest)

end

mutual

/-- Every time and duration in the message is normalized. -/
def Message.Normalized : (t : RosType) → Message t → Prop
  | .none, _ => True
  | .primitive p, value => p.Normalized value
  | .compound fields, values => FieldMessages.Normalized fields values
  | .array element _, array => ∀ item ∈ array.items, Message.Normalized element item

def FieldMessages.Normalized : (fields : Fields) → FieldMessages fields → Prop
  | .nil, _ => True
  | .cons _ type rest, (value, values) =>
      Message.Normalized type value ∧ FieldMessages.Normalized rest values

end

end Ros1Tools.Codec
