import Ros1Tools.Codec.Reads

/-!
# The round trip

What the encoder writes is read as what it was written from.  The induction is on
the type; for a compound it needs the names of the fields to be distinct, because
the object under construction is looked up by name once it is finished.
-/

namespace Ros1Tools.Codec

open Lib

/-! ## Scalars -/

theorem denotesInteger_uintJson {w : Nat} (hw : w ≤ 64) (v : BitVec w) :
    DenotesInteger (uintJson v) v.toNat := by
  have hlt : v.toNat < UInt64.size :=
    Nat.lt_of_lt_of_le v.isLt (Nat.pow_le_pow_right (by decide) hw)
  refine .inr ⟨by simp [uintJson, Json.isIntegral, Json.isUInt64], ?_⟩
  rw [uintJson, Json.asInteger, UInt64.toNat_ofNat_of_lt' hlt]

theorem denotesInteger_intJson {w : Nat} (hw : w ≤ 64) (v : BitVec w) :
    DenotesInteger (intJson v) v.toInt := by
  have hpow : (2 : Int) ^ (w - 1) ≤ 2 ^ 63 := by
    exact_mod_cast Nat.pow_le_pow_right (show 0 < 2 by decide) (show w - 1 ≤ 63 by omega)
  have hlo := v.le_toInt
  have hhi := v.toInt_lt
  refine .inr ⟨by simp [intJson, Json.isIntegral, Json.isInt64], ?_⟩
  rw [intJson, Json.asInteger, Int64.toInt_ofInt_of_le (by omega) (by omega)]

/-- The members of a time or a duration are found again. -/
theorem secsAndNsecs_ofMembers (secs nsecs : Json) :
    SecsAndNsecs (.ofMembers [("secs", secs), ("nsecs", nsecs)]) secs nsecs := by
  refine ⟨_, rfl, fun k hk => ?_, ?_, ?_⟩
  · simp only [List.foldl_cons, List.foldl_nil, Json.mem_keys_set, List.map_nil,
      List.not_mem_nil, or_false] at hk
    rcases hk with rfl | rfl <;> decide
  · simp only [List.foldl_cons, List.foldl_nil]
    rw [Json.find_set_of_ne (by decide), Json.find_set_self]
  · simp only [List.foldl_cons, List.foldl_nil]
    rw [Json.find_set_self]

/-- No finite `float` exceeds the largest one. -/
theorem inFloatRange_convert {x : Single} (hx : x.isFinite = true) :
    InFloatRange (x.convert .binary64) := by
  have hmax : (Binary.max .binary32).isFinite = true := by decide
  have hpos : (0 : Int) ≤ 2 ^ (Format.binary64.unit - Format.binary32.unit) := by positivity
  have hle : magnitude Format.binary32.t x.mag ≤
      magnitude Format.binary32.t (Binary.max .binary32).mag :=
    (magnitude_strictMono _).monotone (Nat.le_sub_one_of_lt (of_decide_eq_true hx))
  have hscaled : (Binary.max .binary32).scaled =
      magnitude Format.binary32.t (Binary.max .binary32).mag := rfl
  have habs : -(Binary.max .binary32).scaled ≤ x.scaled ∧
      x.scaled ≤ (Binary.max .binary32).scaled := by
    rw [hscaled]
    unfold Binary.scaled
    split <;> omega
  rw [InFloatRange, floatMax, Binary.scaled_convert (by decide) (by decide) hx,
    Binary.scaled_convert (by decide) (by decide) hmax, ← Int.neg_mul]
  exact ⟨Int.mul_le_mul_of_nonneg_right habs.1 hpos, Int.mul_le_mul_of_nonneg_right habs.2 hpos⟩

theorem denotes_encodeFloat32 {x : Single} {path : String} {value : Json}
    (h : encodeFloat32 x path = .ok value) : Primitive.Denotes .float32 value x := by
  rw [encodeFloat32, ite_error_eq_ok] at h
  obtain ⟨hfin, hvalue⟩ := h
  cases hvalue
  have hfin : x.isFinite = true := by simpa using hfin
  exact ⟨rfl, (Binary.magnitude_convert (by decide) (by decide) hfin).1, inFloatRange_convert hfin,
    (Binary.convert_convert (by decide) (by decide) hfin).symm⟩

theorem denotes_encodeFloat64 {x : Double} {path : String} {value : Json}
    (h : encodeFloat64 x path = .ok value) : Primitive.Denotes .float64 value x := by
  rw [encodeFloat64, ite_error_eq_ok] at h
  obtain ⟨hfin, hvalue⟩ := h
  cases hvalue
  have hfin : x.isFinite = true := by simpa using hfin
  exact ⟨rfl, hfin, rfl⟩

theorem denotes_encodeTime {t : Time} (h : t.nsec.toNat < 10 ^ 9) :
    Primitive.Denotes .time (encodeTime t) t :=
  ⟨_, _, secsAndNsecs_ofMembers _ _, denotesInteger_uintJson (by decide) _,
    denotesInteger_uintJson (by decide) _, h⟩

theorem denotes_encodeDuration {d : Duration} (h : 0 ≤ d.nsec.toInt ∧ d.nsec.toInt < 10 ^ 9) :
    Primitive.Denotes .duration (encodeDuration d) d := by
  have hlo := d.sec.le_toInt
  have hhi := d.sec.toInt_lt
  exact ⟨_, _, _, _, secsAndNsecs_ofMembers _ _, denotesInteger_intJson (by decide) _,
    denotesInteger_intJson (by decide) _, ⟨by omega, by omega⟩, ⟨by omega, by omega⟩, h, rfl⟩

/-- What a scalar is encoded as denotes it. -/
theorem denotes_encodeScalar {p : Primitive} {v : p.Value} {path : String} {value : Json}
    (hv : p.Normalized v) (h : encodeScalar p v path = .ok value) : p.Denotes value v := by
  cases p with
  | bool | string => cases h; rfl
  | uint8 | uint16 | uint32 => cases h; exact denotesInteger_uintJson (by decide) v
  | uint64 | int64 => cases h; exact .inl rfl
  | int8 | int16 | int32 => cases h; exact denotesInteger_intJson (by decide) v
  | float32 => exact denotes_encodeFloat32 h
  | float64 => exact denotes_encodeFloat64 h
  | time => cases h; exact denotes_encodeTime hv
  | duration => cases h; exact denotes_encodeDuration hv

/-! ## Arrays -/

section Array

variable {α : Type} {length : Option Nat} {limits : Limits}
  {encode : α → String → Except Exn Json} {R : Json → α → Prop}

theorem forall₂_encodeItems {path : String} {items : List α} {index : Nat} {values : List Json}
    (h : ∀ item ∈ items, ∀ path value, encode item path = .ok value → R value item)
    (hvalues : encodeItems encode path items index = .ok values) :
    List.Forall₂ R values items := by
  induction items generalizing index values with
  | nil =>
      cases hvalues
      exact .nil
  | cons item items ih =>
      rw [encodeItems, bind_eq_ok] at hvalues
      obtain ⟨value, hvalue, hvalues⟩ := hvalues
      obtain ⟨rest, hrest, hvalues⟩ := bind_eq_ok.mp hvalues
      cases hvalues
      exact .cons (h item List.mem_cons_self _ _ hvalue)
        (ih (fun item hitem => h item (List.mem_cons_of_mem _ hitem)) hrest)

/-- An array is read as what it was encoded from if its items are.  The limit on its
length is the decoder's. -/
theorem readsItems_encodeArray {array : ArrayMessage α length} {path : String} {value : Json}
    (h : ∀ item ∈ array.items, ∀ path value, encode item path = .ok value → R value item)
    (hvalue : encodeArray limits encode array path = .ok value) :
    ReadsItems limits R value array := by
  rw [encodeArray, bind_eq_ok] at hvalue
  obtain ⟨_, hlength, hvalue⟩ := hvalue
  obtain ⟨values, hvalues, hvalue⟩ := bind_eq_ok.mp hvalue
  cases hvalue
  rw [checkLength, ite_error_eq_ok, Nat.not_lt] at hlength
  have hitems := forall₂_encodeItems h hvalues
  refine ⟨values, rfl, ⟨?_, fun n hn => ?_⟩, hitems⟩
  · rw [hitems.length_eq]
    exact hlength.1
  · rw [hitems.length_eq, array.fixed n hn]

end Array

/-! ## Compounds -/

/-- The loop over the fields touches no other member. -/
theorem find_encodeFields {limits : Limits} : (fields : Fields) → ∀ {messages path depth members
    result}, encodeFields limits fields messages path depth result = .ok members →
    ∀ {key : String}, key ∉ fields.keys → Json.find key members = Json.find key result
  | .nil, _, _, _, _, _, h, _, _ => by
      cases h
      rfl
  | .cons name type rest, (message, messages), path, depth, members, result, h, key, hkey => by
      obtain ⟨value, -, h⟩ := bind_eq_ok.mp h
      rw [Fields.keys, List.mem_cons, not_or] at hkey
      rw [find_encodeFields rest h hkey.2, Json.find_set_of_ne hkey.1]

/-- The loop over the fields adds no other name. -/
theorem keys_encodeFields {limits : Limits} : (fields : Fields) → ∀ {messages path depth members
    result}, encodeFields limits fields messages path depth result = .ok members →
    ∀ k ∈ members.map Prod.fst, k ∈ fields.keys ∨ k ∈ result.map Prod.fst
  | .nil, _, _, _, _, _, h, _, hk => by
      cases h
      exact .inr hk
  | .cons name type rest, (message, messages), path, depth, members, result, h, k, hk => by
      obtain ⟨value, -, h⟩ := bind_eq_ok.mp h
      rw [Fields.keys, List.mem_cons]
      rcases keys_encodeFields rest h k hk with hk | hk
      · exact .inl (.inr hk)
      · rcases Json.mem_keys_set.mp hk with rfl | hk
        · exact .inl (.inl rfl)
        · exact .inr hk

/-! ## All types -/

mutual

/-- What a message is encoded as is read as the message, at the same depth. -/
theorem reads_encodeValue {limits : Limits} : (t : RosType) → t.Distinct → ∀ {message : Message t}
    {path : String} {depth : Nat} {value : Json}, Message.Normalized t message →
    encodeValue limits t message path depth = .ok value → Reads limits t depth value message
  | .none, _, _, _, _, _, _, h => absurd (checkDepth_bind_eq_ok.mp h).2 nofun
  | .primitive p, _, _, _, _, _, hm, h => by
      obtain ⟨hdepth, h⟩ := checkDepth_bind_eq_ok.mp h
      exact ⟨hdepth, denotes_encodeScalar hm h⟩
  | .compound fields, ht, message, path, depth, value, hm, h => by
      obtain ⟨hdepth, h⟩ := checkDepth_bind_eq_ok.mp h
      obtain ⟨members, hmembers, h⟩ := bind_eq_ok.mp h
      cases h
      refine ⟨hdepth, members, rfl, fun k hk => ?_, readsFields_encodeFields fields ht hm hmembers⟩
      exact (keys_encodeFields fields hmembers k hk).resolve_right List.not_mem_nil
  | .array (.primitive p) length, _, message, path, depth, value, hm, h => by
      obtain ⟨hdepth, h⟩ := checkDepth_bind_eq_ok.mp h
      refine ⟨hdepth, readsItems_encodeArray (fun item hitem path value hvalue => ?_) h⟩
      rw [encodeElement_eq] at hvalue
      exact denotes_encodeScalar (hm item hitem) hvalue
  | .array (.compound fields) length, ht, message, path, depth, value, hm, h => by
      obtain ⟨hdepth, h⟩ := checkDepth_bind_eq_ok.mp h
      exact ⟨hdepth, readsItems_encodeArray (fun item hitem _ _ =>
        reads_encodeValue (.compound fields) ht (hm item hitem)) h⟩
  | .array .none _, _, _, _, _, _, _, h => by
      obtain ⟨-, h⟩ := checkDepth_bind_eq_ok.mp h
      obtain ⟨_, -, h⟩ := bind_eq_ok.mp h
      cases h
  | .array (.array _ _) _, _, _, _, _, _, _, h => by
      obtain ⟨-, h⟩ := checkDepth_bind_eq_ok.mp h
      obtain ⟨_, -, h⟩ := bind_eq_ok.mp h
      cases h

/-- A field is found under its own name, because no later field has it. -/
theorem readsFields_encodeFields {limits : Limits} : (fields : Fields) → fields.Distinct →
    ∀ {messages : FieldMessages fields} {path : String} {depth : Nat}
    {members result : Json.Members}, FieldMessages.Normalized fields messages →
    encodeFields limits fields messages path depth result = .ok members →
    ReadsFields limits fields (depth + 1) members messages
  | .nil, _, _, _, _, _, _, _, _ => trivial
  | .cons name type rest, ht, (message, messages), path, depth, members, result, hm, h => by
      obtain ⟨value, hvalue, h⟩ := bind_eq_ok.mp h
      have hfind : Json.find name members = some value := by
        rw [find_encodeFields rest h ht.1, Json.find_set_self]
      refine ⟨fun found hfound => ?_, fun hnone => ?_, readsFields_encodeFields rest ht.2.2 hm.2 h⟩
      · cases hfind.symm.trans hfound
        exact reads_encodeValue type ht.2.1 hm.1 hvalue
      · cases hfind.symm.trans hnone

end

/-- **The JSON codec round trip.**  For every message type with distinct field names
and every message of it whose times and durations are normalized: if the message can
be encoded, then decoding the result into an empty message of the type succeeds, and
yields the message. -/
theorem json_codec_round_trip (codec : JsonCodec) (t : RosType) (ht : t.Distinct) (m : Message t)
    (hm : Message.Normalized t m) (value : Json) (h : codec.encode t m = .ok value) :
    codec.decode t value (Message.empty t) = .ok m :=
  (decodeValue_eq_ok t).mpr (reads_encodeValue t ht hm h)

/-- A stamped series of samples with a 64-bit sequence number. -/
def seriesType : RosType :=
  .compound (.cons "stamp" (.primitive .time) (.cons "seq" (.primitive .uint64)
    (.cons "gains" (.array (.primitive .int16) (some 2))
      (.cons "samples" (.array (.compound (.cons "offset" (.primitive .duration)
        (.cons "label" (.primitive .string) .nil))) none) .nil))))

def seriesMessage : Message seriesType :=
  (Time.mk 7#32 999999999#32, 18446744073709551615#64,
    ⟨[32768#16, 32767#16], by rintro _ ⟨⟩; rfl⟩,
    ⟨[(Duration.mk 4294967295#32 5#32, "a", ()), (Duration.mk 0#32 0#32, "", ())], nofun⟩, ())

def defaultCodec : JsonCodec := ⟨{}, by decide⟩

theorem json_codec_round_trip_series :
    ∃ value, seriesType.Distinct ∧ Message.Normalized seriesType seriesMessage ∧
      defaultCodec.encode seriesType seriesMessage = .ok value ∧
      defaultCodec.decode seriesType value (Message.empty seriesType) = .ok seriesMessage := by
  have ht : seriesType.Distinct := by
    simp [seriesType, RosType.Distinct, Fields.Distinct, Fields.keys]
  have hm : Message.Normalized seriesType seriesMessage := by
    refine ⟨show (999999999#32).toNat < 10 ^ 9 by decide, trivial, fun _ _ => trivial,
      fun item hitem => ?_, trivial⟩
    rcases hitem with _ | ⟨_, _ | ⟨_, ⟨⟩⟩⟩
    · exact ⟨show 0 ≤ (5#32).toInt ∧ (5#32).toInt < 10 ^ 9 by decide, trivial, trivial⟩
    · exact ⟨show 0 ≤ (0#32).toInt ∧ (0#32).toInt < 10 ^ 9 by decide, trivial, trivial⟩
  have h : ∃ value, defaultCodec.encode seriesType seriesMessage = .ok value := ⟨_, rfl⟩
  obtain ⟨value, h⟩ := h
  exact ⟨value, ht, hm, h,
    json_codec_round_trip defaultCodec seriesType ht seriesMessage hm value h⟩

end Ros1Tools.Codec
