import Ros1Tools.Codec.RoundTrip

/-!
# How the decoder rejects

Every check of the decoder raises `invalid_message_payload`.  The one exception that is not
its own comes from the constructor of `ros::Duration`: a duration of `-2^31` seconds and a
negative number of nanoseconds passes the checks on both fields and has no normal form.

Decoding stops at the first field that it refuses, so such a duration is only met if everything
that is decoded before it is accepted.  `OverflowTrap` says so in the order of the decoder.
-/

namespace Ros1Tools.Codec

open Lib

/-! ## Durations without a normal form -/

/-- A duration below the least one that `ros::Duration` can hold, with both of its fields in
range. -/
def Overflows (value : Json) : Prop :=
  ∃ secs nsecs n, SecsAndNsecs value secs nsecs ∧ DenotesInteger secs (-2 ^ 31) ∧
    DenotesInteger nsecs n ∧ -10 ^ 9 < n ∧ n < 0

section Array

variable {α : Type} {length : Option Nat}

/-- The items of an array up to one that is a trap are decoded. -/
def ItemsTrap (decode : Json → α → String → Except Exn α) (trap : Json → α → String → Prop)
    (fresh : α) (path : String) : List Json → Nat → ArrayMessage α length → Prop
  | [], _, _ => False
  | value :: rest, index, array =>
      trap value (array.items.getD index fresh) (elementPath path index) ∨
        Passes (decode value (array.items.getD index fresh) (elementPath path index)) fun item =>
          ItemsTrap decode trap fresh path rest (index + 1) (array.store index item)

/-- The array itself is accepted. -/
def ArrayTrap (limits : Limits) (decode : Json → α → String → Except Exn α)
    (trap : Json → α → String → Prop) (fresh : α) (value : Json) (array : ArrayMessage α length)
    (path : String) : Prop :=
  Passes (validateArrayInput value length.isSome array.items.length limits.maximumArrayElements
    path) fun items => ItemsTrap decode trap fresh path items 0 array

end Array

mutual

/-- **The first part of the value that is not decoded is a duration that overflows.** -/
def OverflowTrap (limits : Limits) :
    (t : RosType) → Json → Message t → String → Nat → Prop
  | .primitive p, value, _, _, depth =>
      depth ≤ limits.maximumDepth ∧ p = .duration ∧ Overflows value
  | .compound fields, value, message, path, depth =>
      depth ≤ limits.maximumDepth ∧
        Passes (compoundMembers value fields.keys path) fun members =>
          FieldsTrap limits fields members message path depth
  | .array (.primitive p) _, value, message, path, depth =>
      depth ≤ limits.maximumDepth ∧
        ArrayTrap limits (fun value _ path => decodeElement p value path)
          (fun value _ _ => p = .duration ∧ Overflows value) p.default value message path
  | .array (.compound fields) _, value, message, path, depth =>
      depth ≤ limits.maximumDepth ∧
        ArrayTrap limits
          (fun value child path =>
            decodeValue limits (.compound fields) value child path (depth + 1))
          (fun value child path =>
            OverflowTrap limits (.compound fields) value child path (depth + 1))
          (Message.empty (.compound fields)) value message path
  | .array .none _, _, _, _, _ | .array (.array _ _) _, _, _, _, _ | .none, _, _, _, _ => False

def FieldsTrap (limits : Limits) : (fields : Fields) → Json.Members →
    FieldMessages fields → String → Nat → Prop
  | .nil, _, _, _, _ => False
  | .cons name type rest, members, (message, messages), path, depth =>
      (∃ value, Json.find name members = some value ∧
          OverflowTrap limits type value message (path ++ "." ++ name) (depth + 1)) ∨
        Passes (decodeField
          (fun value child =>
            decodeValue limits type value child (path ++ "." ++ name) (depth + 1))
          message (Json.find name members)) fun _ =>
        FieldsTrap limits rest members messages path depth

end

/-! ## Scalars -/

/-- An error that is reported as permanent and invalid. -/
def IsRefusal (e : Exn) : Prop := ∃ text, e = permanentError "invalid_message_payload" text

@[simp]
theorem isRefusal_codecError (path message : String) : IsRefusal (codecError path message) :=
  ⟨_, rfl⟩

section Scalars

variable {value : Json} {path : String} {w : Nat}

theorem not_escapes_integerText : ¬Escapes IsRefusal (integerText value path) := by
  unfold integerText
  repeat' split
  all_goals simp

theorem not_escapes_signedInteger : ¬Escapes IsRefusal (signedInteger w value path) := by
  rw [signedInteger, escapes_bind]
  rintro (h | ⟨text, -, h⟩)
  · exact not_escapes_integerText h
  · repeat' split at h
    all_goals simp at h

theorem not_escapes_unsignedInteger : ¬Escapes IsRefusal (unsignedInteger w value path) := by
  rw [unsignedInteger, escapes_bind]
  rintro (h | ⟨text, -, h⟩)
  · exact not_escapes_integerText h
  · repeat' split at h
    all_goals simp at h

theorem not_escapes_floatingPoint : ¬Escapes IsRefusal (floatingPoint value path) := by
  unfold floatingPoint
  repeat' split
  all_goals simp

theorem not_escapes_float32Value : ¬Escapes IsRefusal (float32Value value path) := by
  rw [float32Value, escapes_bind]
  rintro (h | ⟨parsed, -, h⟩)
  · exact not_escapes_floatingPoint h
  · split at h <;> simp at h

theorem not_escapes_booleanValue : ¬Escapes IsRefusal (booleanValue value path) := by
  unfold booleanValue
  split <;> simp

theorem not_escapes_stringValue : ¬Escapes IsRefusal (stringValue value path) := by
  unfold stringValue
  split <;> simp

theorem not_escapes_rejectUnknownMembers {members : Json.Members} {allowed : List String} :
    ¬Escapes IsRefusal (rejectUnknownMembers members allowed path) := by
  induction members with
  | nil => simp [rejectUnknownMembers]
  | cons member rest ih =>
      rw [rejectUnknownMembers]
      split
      · exact ih
      · simp

theorem not_escapes_secsAndNsecs {what : String} :
    ¬Escapes IsRefusal (secsAndNsecs what value path) := by
  unfold secsAndNsecs
  split
  · rw [escapes_bind]
    rintro (h | ⟨_, -, h⟩)
    · exact not_escapes_rejectUnknownMembers h
    · split at h <;> simp at h
  · simp

/-- The constructor of `ros::Time` is given what it can hold. -/
theorem not_escapes_timeValue : ¬Escapes IsRefusal (timeValue value path) := by
  simp only [timeValue, escapes_bind, not_escapes_secsAndNsecs, not_escapes_unsignedInteger,
    false_or]
  rintro ⟨parts, -, secs, -, nsecs, -, h⟩
  split at h
  · simp at h
  next hlt =>
    rw [Time.ofParts_eq (Nat.not_le.mp hlt)] at h
    exact not_escapes_ok _ h

/-- The constructor of `ros::Duration` throws. -/
theorem durationValue_of_overflows (h : Overflows value) :
    durationValue value path = .error (.foreign (.std "Duration is out of dual 32-bit range")) := by
  obtain ⟨secs, nsecs, n, hparts, hsecs, hnsecs, hlow, hneg⟩ := h
  have hn : (BitVec.ofInt 32 n).toInt = n :=
    BitVec.toInt_ofInt_eq_self (by decide) (by omega) (by omega)
  have hparts : secsAndNsecs "duration" value path = .ok (secs, nsecs) :=
    secsAndNsecs_eq_ok.mpr hparts
  have hsecs : signedInteger 32 secs (path ++ ".secs") = .ok (BitVec.ofInt 32 (-2 ^ 31)) :=
    (signedInteger_eq_ok (by decide) (by decide)).mpr hsecs
  have hnsecs : signedInteger 32 nsecs (path ++ ".nsecs") = .ok (BitVec.ofInt 32 n) :=
    (signedInteger_eq_ok (by decide) (by decide)).mpr (hn.symm ▸ hnsecs)
  have hrange : ¬((BitVec.ofInt 32 n).toInt ≤ -10 ^ 9 ∨ (BitVec.ofInt 32 n).toInt ≥ 10 ^ 9) := by
    omega
  calc durationValue value path
      = Duration.ofParts (BitVec.ofInt 32 (-2 ^ 31)) (BitVec.ofInt 32 n) := by
        simp only [durationValue, hparts, hsecs, hnsecs, bind, Except.bind, if_neg hrange]
    _ = .error (.foreign (.std "Duration is out of dual 32-bit range")) := by
        rw [Duration.ofParts_eq (by omega) (by omega), if_pos (by omega), if_pos (by decide)]

/-- The constructor of `ros::Duration` is given what it can hold, unless the duration overflows. -/
theorem escapes_durationValue : Escapes IsRefusal (durationValue value path) ↔ Overflows value := by
  constructor
  · simp only [durationValue, escapes_bind, not_escapes_secsAndNsecs, not_escapes_signedInteger,
      false_or]
    rintro ⟨parts, hparts, secs, hsecs, nsecs, hnsecs, h⟩
    split at h
    · simp at h
    next hrange =>
      rw [not_or, Int.not_le, Int.not_le] at hrange
      rw [Duration.ofParts_eq hrange.1 hrange.2] at h
      split at h
      next hneg =>
        split at h
        next hlow =>
          have hsecs := (signedInteger_eq_ok (by decide) (by decide)).mp hsecs
          have hnsecs := (signedInteger_eq_ok (by decide) (by decide)).mp hnsecs
          have hleast : secs.toInt = -2 ^ 31 := by
            have := secs.le_toInt
            omega
          rw [hleast] at hsecs
          exact ⟨_, _, _, secsAndNsecs_eq_ok.mp hparts, hsecs, hnsecs, hrange.1, hneg⟩
        next => simp at h
      next => simp at h
  · intro h
    rw [durationValue_of_overflows h, escapes_error]
    rintro ⟨text, ⟨⟩⟩

/-- **The converters** refuse what they do not take. -/
theorem escapes_decodeScalar {p : Primitive} :
    Escapes IsRefusal (decodeScalar p value path) ↔ p = .duration ∧ Overflows value := by
  cases p with
  | bool => exact iff_of_false not_escapes_booleanValue (by simp)
  | uint8 | uint16 | uint32 | uint64 => exact iff_of_false not_escapes_unsignedInteger (by simp)
  | int8 | int16 | int32 | int64 => exact iff_of_false not_escapes_signedInteger (by simp)
  | float32 => exact iff_of_false not_escapes_float32Value (by simp)
  | float64 => exact iff_of_false not_escapes_floatingPoint (by simp)
  | string => exact iff_of_false not_escapes_stringValue (by simp)
  | time => exact iff_of_false not_escapes_timeValue (by simp)
  | duration => exact escapes_durationValue.trans (by simp)

end Scalars

/-! ## Messages -/

/-- What comes behind a check of the depth. -/
theorem escapes_checkDepth_bind {α : Type} {depth maximum : Nat} {path : String}
    {x : Except Exn α} :
    Escapes IsRefusal (checkDepth depth maximum path >>= fun _ => x) ↔
      depth ≤ maximum ∧ Escapes IsRefusal x := by
  unfold checkDepth
  split
  next h => simp [bind, Except.bind, Nat.not_le.mpr h]
  next h => simp [bind, Except.bind, Nat.not_lt.mp h]

section Array

variable {α : Type} {length : Option Nat} {decode : Json → α → String → Except Exn α}
  {trap : Json → α → String → Prop} {fresh : α}

theorem not_escapes_validateArrayInput {value : Json} {fixedSize : Bool} {length maximum : Nat}
    {path : String} :
    ¬Escapes IsRefusal (validateArrayInput value fixedSize length maximum path) := by
  unfold validateArrayInput
  repeat' split
  all_goals simp

/-- The loop escapes at the first item that does. -/
theorem escapes_decodeItems
    (h : ∀ value item path, Escapes IsRefusal (decode value item path) ↔ trap value item path)
    {path : String} {values : List Json} {index : Nat} {array : ArrayMessage α length} :
    Escapes IsRefusal (decodeItems decode fresh path values index array) ↔
      ItemsTrap decode trap fresh path values index array := by
  induction values generalizing index array with
  | nil => simp [decodeItems, ItemsTrap]
  | cons value values ih => rw [decodeItems, ItemsTrap, escapes_bind, h]; simp only [ih]

theorem escapes_decodeArray
    (h : ∀ value item path, Escapes IsRefusal (decode value item path) ↔ trap value item path)
    {limits : Limits} {value : Json} {array : ArrayMessage α length} {path : String} :
    Escapes IsRefusal (decodeArray limits decode fresh value array path) ↔
      ArrayTrap limits decode trap fresh value array path := by
  simp only [decodeArray, ArrayTrap, escapes_bind, not_escapes_validateArrayInput, false_or,
    escapes_decodeItems h]

end Array

theorem not_escapes_compoundMembers {value : Json} {keys : List String} {path : String} :
    ¬Escapes IsRefusal (compoundMembers value keys path) := by
  unfold compoundMembers
  split
  · simp [escapes_bind, not_escapes_rejectUnknownMembers]
  · simp

mutual

/-- **Decoding refuses** what it does not take, at every depth of the type, unless it comes to a
duration that overflows. -/
theorem escapes_decodeValue {limits : Limits} : (t : RosType) → ∀ {value : Json}
    {message : Message t} {path : String} {depth : Nat},
    Escapes IsRefusal (decodeValue limits t value message path depth) ↔
      OverflowTrap limits t value message path depth
  | .none => escapes_checkDepth_bind.trans (by simp [OverflowTrap])
  | .primitive _ => escapes_checkDepth_bind.trans (and_congr_right fun _ => escapes_decodeScalar)
  | .compound fields => by
      refine escapes_checkDepth_bind.trans (and_congr_right fun _ => ?_)
      refine escapes_bind.trans ((or_iff_right not_escapes_compoundMembers).trans ?_)
      exact exists_congr fun members => and_congr_right fun _ => escapes_decodeFields fields
  | .array (.primitive p) _ => by
      refine escapes_checkDepth_bind.trans (and_congr_right fun _ => escapes_decodeArray ?_)
      intro value _ path
      rw [decodeElement_eq]
      exact escapes_decodeScalar
  | .array (.compound fields) _ =>
      escapes_checkDepth_bind.trans (and_congr_right fun _ => escapes_decodeArray fun _ _ _ =>
        escapes_decodeValue (.compound fields))
  | .array .none _ => escapes_checkDepth_bind.trans (by simp [OverflowTrap])
  | .array (.array _ _) _ => escapes_checkDepth_bind.trans (by simp [OverflowTrap])

theorem escapes_decodeFields {limits : Limits} : (fields : Fields) →
    ∀ {members : Json.Members} {messages : FieldMessages fields} {path : String}
      {depth : Nat},
    Escapes IsRefusal (decodeFields limits fields members messages path depth) ↔
      FieldsTrap limits fields members messages path depth
  | .nil => iff_of_false (not_escapes_ok _) id
  | .cons name type rest => by
      rename_i members path depth messages
      obtain ⟨message, messages⟩ := messages
      refine escapes_bind.trans (or_congr ?_ (exists_congr fun _ => and_congr_right fun _ => ?_))
      · cases Json.find name members with
        | none => simp [decodeField]
        | some value => simp [decodeField, escapes_decodeValue type]
      · exact escapes_bind.trans ((or_iff_left fun ⟨_, _, h⟩ => not_escapes_ok _ h).trans
          (escapes_decodeFields rest))

end

/-! ## What is reported -/

/-- **Undecodable payloads are permanent errors**, exactly if the first part that is not decoded
is not a duration that overflows: whatever the type, the value and the message that is filled,
an error of `decode` is then one of its own and is reported as permanent. -/
theorem undecodable_is_permanent (codec : JsonCodec) (t : RosType) (value : Json)
    (message : Message t) :
    (∀ e, codec.decode t value message = .error e →
        ∃ text, e = permanentError "invalid_message_payload" text ∧
          failure e = some (.failure .permanent "invalid_message_payload" text)) ↔
      ¬OverflowTrap codec.limits t value message "$" 0 := by
  rw [← escapes_decodeValue, ← JsonCodec.decode]
  constructor
  · rintro h ⟨e, he, hrefusal⟩
    obtain ⟨text, heq, -⟩ := h e he
    exact hrefusal ⟨text, heq⟩
  · intro h e he
    obtain ⟨text, rfl⟩ : IsRefusal e := by_contra fun hrefusal => h ⟨e, he, hrefusal⟩
    exact ⟨text, rfl, rfl⟩

/-- The type of `std_msgs/Duration`. -/
def durationType : RosType := .compound (.cons "data" (.primitive .duration) .nil)

def durationJson (secs nsecs : Int64) : Json :=
  .object [("data", .object [("nsecs", .int nsecs), ("secs", .int secs)])]

/-- A member that no field has is refused before a duration that overflows. -/
theorem undecodable_is_permanent_unknown :
    ¬OverflowTrap defaultCodec.limits durationType
      (.object [("bogus", .boolean true), ("data", .object [("nsecs", .int (-1)),
        ("secs", .int (-2147483648))])]) (Message.empty durationType) "$" 0 := by
  refine (undecodable_is_permanent defaultCodec durationType _ _).mp fun e he => ?_
  cases he
  exact ⟨_, rfl, rfl⟩

/-- **An undecodable payload is reported as a transient error**: one nanosecond less than
`-2^31` seconds. -/
theorem overflowing_duration_is_transient :
    ∃ e, defaultCodec.decode durationType (durationJson (-2147483648) (-1))
        (Message.empty durationType) = .error e ∧
      failure e = some (.failure .transient "internal_error"
        "Duration is out of dual 32-bit range") :=
  ⟨_, rfl, rfl⟩

end Ros1Tools.Codec
