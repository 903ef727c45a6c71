import Ros1Tools.Codec.Scalar

/-!
# The JSON codec

`JsonCodec::decodeValue` and `JsonCodec::encodeValue`, by recursion on the type of
the message.  Decoding fills a message that is there already: a member that is
absent leaves its field alone, a fixed array is assigned item by item and a
dynamic one is appended to.
-/

namespace Ros1Tools.Codec

/-- `JsonCodec::Limits`. -/
structure Limits where
  maximumDepth : Nat := 64
  maximumArrayElements : Nat := 1000000

/-- A codec, with limits that its constructor has accepted. -/
structure JsonCodec where
  limits : Limits
  valid : ¬(limits.maximumDepth = 0 ∨ limits.maximumArrayElements = 0)

/-- The constructor of `JsonCodec`. -/
def JsonCodec.ofLimits (limits : Limits) : Except Exn JsonCodec :=
  if h : limits.maximumDepth = 0 ∨ limits.maximumArrayElements = 0 then
    .error (permanentError "invalid_configuration" "JSON codec limits must be greater than zero")
  else .ok ⟨limits, h⟩

/-- `checkDepth`. -/
def checkDepth (depth maximum : Nat) (path : String) : Except Exn Unit :=
  if depth > maximum then .error (codecError path "maximum message nesting depth exceeded")
  else .ok ()

def elementPath (path : String) (index : Nat) : String := path ++ "[" ++ toString index ++ "]"

/-! ## Decoding -/

/-- `validateArrayInput`, for an array message of the given length.  The items of the
value are returned. -/
def validateArrayInput (value : Json) (fixedSize : Bool) (length maximumElements : Nat)
    (path : String) : Except Exn (List Json) :=
  match value with
  | .array items =>
      if items.length > maximumElements then
        .error (codecError path "maximum array element count exceeded")
      else if fixedSize = true ∧ items.length ≠ length then
        .error (codecError path
          ("fixed ROS array requires exactly " ++ toString length ++ " elements"))
      else if fixedSize = false ∧ length ≠ 0 then
        .error (codecError path "dynamic ROS array target must be empty before decoding")
      else .ok items
  | _ => .error (codecError path "expected an array")

section Array

variable {α : Type} {length : Option Nat}

/-- The loop over the items of an array, from an index on.  An item is decoded into
the element that is there, or into a fresh one. -/
def decodeItems (decode : Json → α → String → Except Exn α) (fresh : α) (path : String) :
    List Json → Nat → ArrayMessage α length → Except Exn (ArrayMessage α length)
  | [], _, array => .ok array
  | value :: rest, index, array => do
      let item ← decode value (array.items.getD index fresh) (elementPath path index)
      decodeItems decode fresh path rest (index + 1) (array.store index item)

/-- An array is validated and then filled. -/
def decodeArray (limits : Limits) (decode : Json → α → String → Except Exn α) (fresh : α)
    (value : Json) (array : ArrayMessage α length) (path : String) :
    Except Exn (ArrayMessage α length) := do
  let items ← validateArrayInput value length.isSome array.items.length
    limits.maximumArrayElements path
  decodeItems decode fresh path items 0 array

end Array

/-- `decodePrimitiveArray`. -/
def decodePrimitiveArray (limits : Limits) (p : Primitive) {length : Option Nat} (value : Json)
    (array : ArrayMessage p.Value length) (path : String) :
    Except Exn (ArrayMessage p.Value length) :=
  decodeArray limits (fun value _ path => decodeElement p value path) p.default value array path

/-- A compound takes an object whose members are all among its fields. -/
def compoundMembers (value : Json) (keys : List String) (path : String) :
    Except Exn Json.Members :=
  match value with
  | .object members => do
      rejectUnknownMembers members keys path
      .ok members
  | _ => .error (codecError path "expected an object")

/-- A field that the object does not mention is left alone. -/
def decodeField {α : Type} (decode : Json → α → Except Exn α) (current : α) :
    Option Json → Except Exn α
  | some value => decode value current
  | none => .ok current

mutual

/-- `decodeValue`. -/
def decodeValue (limits : Limits) :
    (t : RosType) → Json → Message t → String → Nat → Except Exn (Message t)
  | .none, _, _, path, depth => do
      checkDepth depth limits.maximumDepth path
      .error (codecError path "unsupported ROS message field type")
  | .primitive p, value, _, path, depth => do
      checkDepth depth limits.maximumDepth path
      decodeScalar p value path
  | .compound fields, value, message, path, depth => do
      checkDepth depth limits.maximumDepth path
      let members ← compoundMembers value fields.keys path
      decodeFields limits fields members message path depth
  | .array (.primitive p) _, value, message, path, depth => do
      checkDepth depth limits.maximumDepth path
      decodePrimitiveArray limits p value message path
  | .array (.compound fields) _, value, message, path, depth => do
      checkDepth depth limits.maximumDepth path
      decodeArray limits
        (fun value child path => decodeValue limits (.compound fields) value child path (depth + 1))
        (Message.empty (.compound fields)) value message path
  | .array .none _, _, _, path, depth => do
      checkDepth depth limits.maximumDepth path
      .error (codecError path "unsupported ROS array element type")
  | .array (.array _ _) _, _, _, path, depth => do
      checkDepth depth limits.maximumDepth path
      .error (codecError path "unsupported ROS array element type")

/-- The loop over the fields of a compound. -/
def decodeFields (limits : Limits) : (fields : Fields) → Json.Members →
    FieldMessages fields → String → Nat → Except Exn (FieldMessages fields)
  | .nil, _, _, _, _ => .ok ()
  | .cons name type rest, members, (message, messages), path, depth => do
      let message ← decodeField
        (fun value child => decodeValue limits type value child (path ++ "." ++ name) (depth + 1))
        message (Json.find name members)
      let messages ← decodeFields limits rest members messages path depth
      .ok (message, messages)

end

/-- `JsonCodec::decode`. -/
def JsonCodec.decode (codec : JsonCodec) (t : RosType) (value : Json) (message : Message t) :
    Except Exn (Message t) := decodeValue codec.limits t value message "$" 0

/-! ## Encoding -/

/-- The loop over the elements of an array, from an index on. -/
def encodeItems {α : Type} (encode : α → String → Except Exn Json) (path : String) :
    List α → Nat → Except Exn (List Json)
  | [], _ => .ok []
  | item :: rest, index => do
      let value ← encode item (elementPath path index)
      let values ← encodeItems encode path rest (index + 1)
      .ok (value :: values)

/-- The check of `encodeValue` on the length of an array. -/
def checkLength (limits : Limits) (length : Nat) (path : String) : Except Exn Unit :=
  if length > limits.maximumArrayElements then
    .error (codecError path "maximum array element count exceeded")
  else .ok ()

/-- The elements of an array within the limit. -/
def encodeArray (limits : Limits) {α : Type} {length : Option Nat}
    (encode : α → String → Except Exn Json) (array : ArrayMessage α length) (path : String) :
    Except Exn Json := do
  checkLength limits array.items.length path
  let values ← encodeItems encode path array.items 0
  .ok (.array values)

/-- `encodePrimitiveArray`. -/
def encodePrimitiveArray (limits : Limits) (p : Primitive) {length : Option Nat}
    (array : ArrayMessage p.Value length) (path : String) : Except Exn Json :=
  encodeArray limits (encodeElement p) array path

mutual

/-- `encodeValue`. -/
def encodeValue (limits : Limits) :
    (t : RosType) → Message t → String → Nat → Except Exn Json
  | .none, _, path, depth => do
      checkDepth depth limits.maximumDepth path
      .error (codecError path "unsupported ROS message field type")
  | .primitive p, message, path, depth => do
      checkDepth depth limits.maximumDepth path
      encodeScalar p message path
  | .compound fields, message, path, depth => do
      checkDepth depth limits.maximumDepth path
      let members ← encodeFields limits fields message path depth []
      .ok (.object members)
  | .array (.primitive p) _, message, path, depth => do
      checkDepth depth limits.maximumDepth path
      encodePrimitiveArray limits p message path
  | .array (.compound fields) _, message, path, depth => do
      checkDepth depth limits.maximumDepth path
      encodeArray limits
        (fun child path => encodeValue limits (.compound fields) child path (depth + 1))
        message path
  | .array .none _, message, path, depth => do
      checkDepth depth limits.maximumDepth path
      checkLength limits (ArrayMessage.items message).length path
      .error (codecError path "unsupported ROS array element type")
  | .array (.array _ _) _, message, path, depth => do
      checkDepth depth limits.maximumDepth path
      checkLength limits (ArrayMessage.items message).length path
      .error (codecError path "unsupported ROS array element type")

/-- The loop over the fields of a compound, with the object built so far. -/
def encodeFields (limits : Limits) : (fields : Fields) → FieldMessages fields → String → Nat →
    Json.Members → Except Exn Json.Members
  | .nil, _, _, _, result => .ok result
  | .cons name type rest, (message, messages), path, depth, result => do
      let value ← encodeValue limits type message (path ++ "." ++ name) (depth + 1)
      encodeFields limits rest messages path depth (Json.set name value result)

end

/-- `JsonCodec::encode`. -/
def JsonCodec.encode (codec : JsonCodec) (t : RosType) (message : Message t) : Except Exn Json :=
  encodeValue codec.limits t message "$" 0

end Ros1Tools.Codec
