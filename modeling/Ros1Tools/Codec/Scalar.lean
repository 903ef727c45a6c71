import Ros1Tools.Codec.Message
import Ros1Tools.Lib.Decimal

/-!
# Scalars in JSON

The converters of the JSON codec for single values.  The source dispatches on the
kind four times: for scalars and for array elements, and for each direction.  All
four dispatches are here as they are there; `decodeElement_eq` and
`encodeElement_eq` say that the two of each direction agree.
-/

namespace Ros1Tools.Codec

open Lib

/-- `codecError`. -/
def codecError (path message : String) : Exn :=
  permanentError "invalid_message_payload" (path ++ ": " ++ message)

/-! ## Integers -/

/-- The checks of `integerText` from the first digit on. -/
def isCanonicalDigits : List Char → Bool
  | [] => false
  | first :: rest => first.isDigit && !(first == '0' && !rest.isEmpty) && rest.all Char.isDigit

/-- The checks of `integerText` on a text: an optional sign, digits, no superfluous
zero, and not minus zero. -/
def isCanonicalDecimal (text : String) : Bool :=
  match text.toList with
  | '-' :: cs => isCanonicalDigits cs && text != "-0"
  | cs => isCanonicalDigits cs && text != "-0"

/-- `integerText`. -/
def integerText (value : Json) (path : String) : Except Exn String :=
  match value with
  | .string text =>
      if text = "" then .error (codecError path "integer string must not be empty")
      else if isCanonicalDecimal text then .ok text
      else .error (codecError path "integer string must use canonical decimal syntax")
  | value =>
      if value.isIntegral then .ok (toString value.asInteger)
      else .error (codecError path "expected an integer or decimal integer string")

/-- `std::stoll`; `none` if it throws. -/
def stoll (text : String) : Option (Int × Nat) :=
  (scanInteger text).filter fun p => decide (-2 ^ 63 ≤ p.1 ∧ p.1 ≤ 2 ^ 63 - 1)

/-- `std::stoull` of a text without a sign; `none` if it throws. -/
def stoull (text : String) : Option (Int × Nat) :=
  (scanInteger text).filter fun p => decide (0 ≤ p.1 ∧ p.1 ≤ 2 ^ 64 - 1)

/-- `signedInteger<T>`, for the signed type of `w` bits. -/
def signedInteger (w : Nat) (value : Json) (path : String) : Except Exn (BitVec w) := do
  let text ← integerText value path
  match stoll text with
  | none => .error (codecError path "signed integer is outside the supported range")
  | some (parsed, consumed) =>
      if consumed ≠ text.length ∨ parsed < -2 ^ (w - 1) ∨ parsed > 2 ^ (w - 1) - 1 then
        .error (codecError path "signed integer is outside the ROS field range")
      else .ok (.ofInt w parsed)

/-- `unsignedInteger<T>`, for the unsigned type of `w` bits. -/
def unsignedInteger (w : Nat) (value : Json) (path : String) : Except Exn (BitVec w) := do
  let text ← integerText value path
  if text.toList.head? = some '-' then
    .error (codecError path "unsigned integer must not be negative")
  else
    match stoull text with
    | none => .error (codecError path "unsigned integer is outside the supported range")
    | some (parsed, consumed) =>
        if consumed ≠ text.length ∨ parsed > 2 ^ w - 1 then
          .error (codecError path "unsigned integer is outside the ROS field range")
        else .ok (.ofInt w parsed)

/-! ## Other values -/

/-- `floatingPoint`. -/
def floatingPoint (value : Json) (path : String) : Except Exn Double :=
  if !value.isNumeric then .error (codecError path "expected a finite JSON number")
  else if !value.asDouble.isFinite then
    .error (codecError path "non-finite floating point values are not supported")
  else .ok value.asDouble

/-- `std::numeric_limits<float>::max()`, as the `double` it is compared as. -/
def floatMax : Double := (Binary.max .binary32).convert .binary64

/-- The conversion of a `Float32`. -/
def float32Value (value : Json) (path : String) : Except Exn Single := do
  let parsed ← floatingPoint value path
  if parsed.lt floatMax.neg || floatMax.lt parsed then
    .error (codecError path "number is outside the ROS float32 range")
  else .ok (parsed.convert .binary32)

/-- `booleanValue`. -/
def booleanValue (value : Json) (path : String) : Except Exn Bool :=
  match value with
  | .boolean b => .ok b
  | _ => .error (codecError path "expected a boolean")

/-- `stringValue`. -/
def stringValue (value : Json) (path : String) : Except Exn String :=
  match value with
  | .string s => .ok s
  | _ => .error (codecError path "expected a string")

/-- `rejectUnknownMembers`. -/
def rejectUnknownMembers (members : Json.Members) (allowed : List String)
    (path : String) : Except Exn Unit :=
  match members with
  | [] => .ok ()
  | (member, _) :: rest =>
      if member ∈ allowed then rejectUnknownMembers rest allowed path
      else .error (codecError (path ++ "." ++ member) "unknown field")

/-- The two members of a time or a duration. -/
def secsAndNsecs (what : String) (value : Json) (path : String) : Except Exn (Json × Json) :=
  match value with
  | .object members => do
      rejectUnknownMembers members ["secs", "nsecs"] path
      match Json.find "secs" members, Json.find "nsecs" members with
      | some secs, some nsecs => .ok (secs, nsecs)
      | _, _ => .error (codecError path ("ROS " ++ what ++ " requires secs and nsecs"))
  | _ => .error (codecError path ("expected \x7bsecs, nsecs\x7d for ROS " ++ what))

/-- `timeValue`. -/
def timeValue (value : Json) (path : String) : Except Exn Time := do
  let parts ← secsAndNsecs "time" value path
  let secs ← unsignedInteger 32 parts.1 (path ++ ".secs")
  let nsecs ← unsignedInteger 32 parts.2 (path ++ ".nsecs")
  if nsecs.toNat ≥ 10 ^ 9 then
    .error (codecError (path ++ ".nsecs") "ROS time nanoseconds must be below 1e9")
  else Time.ofParts secs nsecs

/-- `durationValue`. -/
def durationValue (value : Json) (path : String) : Except Exn Duration := do
  let parts ← secsAndNsecs "duration" value path
  let secs ← signedInteger 32 parts.1 (path ++ ".secs")
  let nsecs ← signedInteger 32 parts.2 (path ++ ".nsecs")
  if nsecs.toInt ≤ -10 ^ 9 ∨ nsecs.toInt ≥ 10 ^ 9 then
    .error (codecError (path ++ ".nsecs") "ROS duration nanoseconds must be between -1e9 and 1e9")
  else Duration.ofParts secs nsecs

/-! ## Decoding by kind -/

/-- The cases of `decodeValue` for scalars. -/
def decodeScalar : (p : Primitive) → Json → String → Except Exn p.Value
  | .bool => booleanValue
  | .uint8 => unsignedInteger 8
  | .uint16 => unsignedInteger 16
  | .uint32 => unsignedInteger 32
  | .uint64 => unsignedInteger 64
  | .int8 => signedInteger 8
  | .int16 => signedInteger 16
  | .int32 => signedInteger 32
  | .int64 => signedInteger 64
  | .float32 => float32Value
  | .float64 => floatingPoint
  | .string => stringValue
  | .time => timeValue
  | .duration => durationValue

/-- The converters that `decodeValue` gives to `decodePrimitiveArray`. -/
def decodeElement : (p : Primitive) → Json → String → Except Exn p.Value
  | .bool => booleanValue
  | .uint8 => unsignedInteger 8
  | .uint16 => unsignedInteger 16
  | .uint32 => unsignedInteger 32
  | .uint64 => unsignedInteger 64
  | .int8 => signedInteger 8
  | .int16 => signedInteger 16
  | .int32 => signedInteger 32
  | .int64 => signedInteger 64
  | .float32 => float32Value
  | .float64 => floatingPoint
  | .string => stringValue
  | .time => timeValue
  | .duration => durationValue

/-! ## Encoding by kind -/

/-- `Json::Value(Json::UInt(value))`. -/
def uintJson {w : Nat} (value : BitVec w) : Json := .uint (.ofNat value.toNat)

/-- `Json::Value(Json::Int(value))`. -/
def intJson {w : Nat} (value : BitVec w) : Json := .int (.ofInt value.toInt)

/-- The conversion of a `Float32`, which JsonCpp stores as a `double`. -/
def encodeFloat32 (value : Single) (path : String) : Except Exn Json :=
  if !value.isFinite then
    .error (codecError path "non-finite float32 cannot be represented as JSON")
  else .ok (.real (value.convert .binary64))

/-- The conversion of a `Float64`. -/
def encodeFloat64 (value : Double) (path : String) : Except Exn Json :=
  if !value.isFinite then
    .error (codecError path "non-finite float64 cannot be represented as JSON")
  else .ok (.real value)

/-- `encodeTime`. -/
def encodeTime (value : Time) : Json :=
  .ofMembers [("secs", uintJson value.sec), ("nsecs", uintJson value.nsec)]

/-- `encodeDuration`. -/
def encodeDuration (value : Duration) : Json :=
  .ofMembers [("secs", intJson value.sec), ("nsecs", intJson value.nsec)]

/-- The cases of `encodeValue` for scalars. -/
def encodeScalar : (p : Primitive) → p.Value → String → Except Exn Json
  | .bool, (value : Bool), _ => .ok (.boolean value)
  | .uint8, (value : BitVec 8), _ => .ok (uintJson value)
  | .uint16, (value : BitVec 16), _ => .ok (uintJson value)
  | .uint32, (value : BitVec 32), _ => .ok (uintJson value)
  | .uint64, (value : BitVec 64), _ => .ok (.string (toString value.toNat))
  | .int8, (value : BitVec 8), _ => .ok (intJson value)
  | .int16, (value : BitVec 16), _ => .ok (intJson value)
  | .int32, (value : BitVec 32), _ => .ok (intJson value)
  | .int64, (value : BitVec 64), _ => .ok (.string (toString value.toInt))
  | .float32, (value : Single), path => encodeFloat32 value path
  | .float64, (value : Double), path => encodeFloat64 value path
  | .string, (value : String), _ => .ok (.string value)
  | .time, (value : Time), _ => .ok (encodeTime value)
  | .duration, (value : Duration), _ => .ok (encodeDuration value)

/-- The encoders that `encodeValue` gives to `encodePrimitiveArray`. -/
def encodeElement : (p : Primitive) → p.Value → String → Except Exn Json
  | .bool, (value : Bool), _ => .ok (.boolean value)
  | .uint8, (value : BitVec 8), _ => .ok (uintJson value)
  | .uint16, (value : BitVec 16), _ => .ok (uintJson value)
  | .uint32, (value : BitVec 32), _ => .ok (uintJson value)
  | .uint64, (value : BitVec 64), _ => .ok (.string (toString value.toNat))
  | .int8, (value : BitVec 8), _ => .ok (intJson value)
  | .int16, (value : BitVec 16), _ => .ok (intJson value)
  | .int32, (value : BitVec 32), _ => .ok (intJson value)
  | .int64, (value : BitVec 64), _ => .ok (.string (toString value.toInt))
  | .float32, (value : Single), path => encodeFloat32 value path
  | .float64, (value : Double), path => encodeFloat64 value path
  | .string, (value : String), _ => .ok (.string value)
  | .time, (value : Time), _ => .ok (encodeTime value)
  | .duration, (value : Duration), _ => .ok (encodeDuration value)

theorem decodeElement_eq (p : Primitive) : decodeElement p = decodeScalar p := by
  cases p <;> rfl

theorem encodeElement_eq (p : Primitive) : encodeElement p = encodeScalar p := by
  cases p <;> rfl

end Ros1Tools.Codec
