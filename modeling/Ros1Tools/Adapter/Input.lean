import Ros1Tools.Json.Number
import Ros1Tools.Publish.Registry
import Ros1Tools.Adapter.Request

/-!
# The input of both operations

What `ToolsAdapter::Publish` reads from its input, and what `ToolsAdapter::CallService` reads
with the fields that only its codec and its clock look at.  For every kind of field there is
one lemma that says when it is accepted and what is read, in terms of the exact number that a
JSON value is.
-/

namespace Ros1Tools

open Lib

namespace Adapter

/-! ## Fields -/

def maximumQueueSize : Nat := 10000
def maximumPublishCount : Nat := 10000

/-- The double nearest to `0.1`. -/
def minimumPublishRateHz : Double := .ofRatio _ false (2 ^ Format.binary64.unit) 10

def maximumPublishRateHz : Double := .ofInt _ 1000
def maximumPublishDurationSeconds : Double := .ofInt _ 240

def requiredBool (members : Json.Members) (field : String) : Except Exn Bool :=
  match Json.find field members with
  | some (.boolean value) => .ok value
  | _ => .error (permanentError "invalid_request" (field ++ " must be a boolean"))

def requiredNumber (members : Json.Members) (field : String) (minimum maximum : Double) :
    Except Exn Double :=
  match Json.find field members with
  | none => .error (permanentError "invalid_request" (field ++ " must be a number"))
  | some value =>
      if value.isNumeric = false then
        .error (permanentError "invalid_request" (field ++ " must be a number"))
      else if value.asDouble.isFinite = false ∨ value.asDouble.lt minimum = true ∨
          maximum.lt value.asDouble = true then
        .error (permanentError "invalid_request" (field ++ " must be between " ++
          minimum.toFixed ++ " and " ++ maximum.toFixed))
      else .ok value.asDouble

/-! ## Requests -/

/-- `PublishRequest`, without the deadline and the cancellation callback. -/
structure PublishRequest extends Publish.PublishRequest where
  message : Json.Members
  publishRateHz : Double

/-- `static_cast<double>(publish_count - 1u) / publish_rate_hz`. -/
def publishDuration (publishCount : UInt32) (publishRateHz : Double) : Double :=
  (Binary.ofInt _ (publishCount - 1).toNat).div publishRateHz

/-- The fields of a publication. -/
def Platform.readPublish (platform : Platform) (input : Json.Members) :
    Except Exn PublishRequest := do
  rejectUnknownFields ["topic", "messageType", "message", "publishCount", "publishRateHz",
    "latch", "queueSize", "waitForSubscribersMs"] input
  let topic ← requiredString input "topic"
  let messageType ← requiredString input "messageType"
  platform.validateAbsoluteRosName topic "topic"
  validateRosType messageType "messageType"
  let message ← requiredObject input "message"
  let publishCount ← requiredUInt input "publishCount" 1 maximumPublishCount
  let publishRateHz ←
    requiredNumber input "publishRateHz" minimumPublishRateHz maximumPublishRateHz
  check (!maximumPublishDurationSeconds.lt (publishDuration publishCount publishRateHz))
    "invalid_request" "publishCount and publishRateHz must complete within 240 seconds"
  let latch ← requiredBool input "latch"
  let queueSize ← requiredUInt input "queueSize" 1 maximumQueueSize
  let waitForSubscribersMs ←
    requiredUInt input "waitForSubscribersMs" 0 maximumWaitMilliseconds
  return { topic, messageType, message, publishCount, publishRateHz, latch, queueSize,
           waitForSubscribersMs }

/-! ## What is accepted -/

section Accepted

variable {members : Json.Members} {field : String}

theorem rejectUnknownFields_eq_ok {allowed : List String} {u : Unit} :
    rejectUnknownFields allowed members = .ok u ↔ ∀ member ∈ members, member.1 ∈ allowed := by
  induction members with
  | nil => exact ⟨fun _ => nofun, fun _ => rfl⟩
  | cons member rest ih =>
      obtain ⟨name, value⟩ := member
      rw [rejectUnknownFields, List.forall_mem_cons, ← ih]
      by_cases hname : name ∈ allowed
      · rw [if_pos (List.contains_iff_mem.mpr hname)]
        exact (and_iff_right hname).symm
      · rw [if_neg (by rwa [List.contains_iff_mem])]
        exact ⟨nofun, fun h => absurd h.1 hname⟩

theorem requiredString_eq_ok {text : String} :
    requiredString members field = .ok text ↔
      Json.find field members = some (.string text) ∧ text ≠ "" := by
  unfold requiredString
  split
  · rename_i found hfound
    rw [ite_error_eq_ok, hfound]
    constructor
    · rintro ⟨hne, ⟨⟩⟩
      exact ⟨rfl, hne⟩
    · rintro ⟨⟨⟩, hne⟩
      exact ⟨hne, rfl⟩
  · rename_i hfound
    exact ⟨nofun, fun h => absurd h.1 (hfound text)⟩

theorem requiredBool_eq_ok {value : Bool} :
    requiredBool members field = .ok value ↔
      Json.find field members = some (.boolean value) := by
  unfold requiredBool
  split
  · rename_i found hfound
    rw [hfound]
    constructor
    · rintro ⟨⟩
      rfl
    · rintro ⟨⟩
      rfl
  · rename_i hfound
    exact ⟨nofun, fun h => absurd h (hfound value)⟩

theorem requiredObject_eq_ok {inner : Json.Members} :
    requiredObject members field = .ok inner ↔
      Json.find field members = some (.object inner) := by
  unfold requiredObject
  split
  · rename_i hfound
    rw [hfound]
    exact ⟨nofun, nofun⟩
  · rename_i found hfound
    rw [hfound]
    unfold requireObject
    split
    · constructor
      · rintro ⟨⟩
        rfl
      · rintro ⟨⟩
        rfl
    · rename_i hobject
      refine ⟨nofun, ?_⟩
      rintro ⟨⟩
      exact absurd rfl (hobject inner)

/-! ### Integers -/

theorem requiredUInt_eq_ok_iff {minimum maximum : Nat} {n : UInt32} (hmaximum : maximum < 2 ^ 32) :
    requiredUInt members field minimum maximum = .ok n ↔
      ∃ value, Json.find field members = some value ∧ value.number = some (n.toNat : ℚ) ∧
        minimum ≤ n.toNat ∧ n.toNat ≤ maximum := by
  unfold requiredUInt
  split
  · rename_i hfound
    rw [hfound]
    exact ⟨nofun, nofun⟩
  rename_i found hfound
  rw [hfound, ite_error_eq_ok, ite_error_eq_ok]
  constructor
  · rintro ⟨hinteger, hrange, ⟨⟩⟩
    rw [not_or, Bool.not_eq_false] at hinteger
    have hnumber := Json.number_of_isIntegral hinteger.1
    have htoNat : (UInt32.ofNat found.asInteger.toNat).toNat = found.asInteger.toNat :=
      UInt32.toNat_ofNat_of_lt' (by rw [UInt32.size]; omega)
    have hcast : (found.asInteger.toNat : Int) = found.asInteger := Int.toNat_of_nonneg (by omega)
    refine ⟨found, rfl, ?_, by omega, by omega⟩
    rw [hnumber, htoNat, ← Int.cast_natCast, hcast]
  · rintro ⟨value, ⟨⟩, hnumber, hmin, hmax⟩
    obtain ⟨hintegral, hinteger⟩ :=
      Json.isIntegral_of_number (n := n.toNat) (by rw [hnumber, Int.cast_natCast]) (by omega)
        (by omega)
    rw [hintegral, hinteger]
    refine ⟨?_, by omega, ?_⟩
    · rintro (h | ⟨-, h⟩)
      · cases h
      · omega
    · rw [Int.toNat_natCast, UInt32.ofNat_toNat]

/-! ### Numbers -/

theorem requiredNumber_eq_ok {minimum maximum x : Double} (hminimum : minimum.isFinite = true)
    (hmaximum : maximum.isFinite = true) :
    requiredNumber members field minimum maximum = .ok x ↔
      ∃ value, Json.find field members = some value ∧ value.isNumeric = true ∧
        x = value.asDouble ∧ x.isFinite = true ∧ minimum.value ≤ x.value ∧
        x.value ≤ maximum.value := by
  unfold requiredNumber
  split
  · rename_i hfound
    rw [hfound]
    exact ⟨nofun, nofun⟩
  rename_i found hfound
  rw [hfound, ite_error_eq_ok, ite_error_eq_ok, Bool.not_eq_false]
  constructor
  · rintro ⟨hnumeric, hrange, ⟨⟩⟩
    simp only [not_or, Bool.not_eq_false, Bool.not_eq_true] at hrange
    obtain ⟨hfinite, hmin, hmax⟩ := hrange
    exact ⟨found, rfl, hnumeric, rfl, hfinite, (Binary.not_lt_iff hfinite hminimum).mp hmin,
      (Binary.not_lt_iff hmaximum hfinite).mp hmax⟩
  · rintro ⟨_, ⟨⟩, hnumeric, rfl, hfinite, hmin, hmax⟩
    refine ⟨hnumeric, ?_, rfl⟩
    rw [hfinite, (Binary.not_lt_iff hfinite hminimum).mpr hmin,
      (Binary.not_lt_iff hmaximum hfinite).mpr hmax]
    decide

end Accepted

/-! ### The rate -/

theorem minimumPublishRateHz_isFinite : minimumPublishRateHz.isFinite = true := by decide +kernel
theorem maximumPublishRateHz_isFinite : maximumPublishRateHz.isFinite = true := by decide +kernel

theorem ofInt_value {n : Int} (h : n.natAbs < 2 ^ 53) :
    (Binary.ofInt .binary64 n).isFinite = true ∧ (Binary.ofInt .binary64 n).value = n :=
  ⟨Binary.isFinite_ofInt h (by decide),
    Binary.value_eq_intCast.mpr (Binary.scaled_ofInt h (by decide))⟩

theorem maximumPublishRateHz_value : maximumPublishRateHz.value = 1000 := by
  exact_mod_cast (ofInt_value (n := 1000) (by decide)).2

/-- No double lies between `1 / 10` and the double next to it. -/
theorem minimumPublishRateHz_le_iff {x : Double} :
    minimumPublishRateHz.value ≤ x.value ↔ 1 / 10 ≤ x.value := by
  have hge : 2 ^ Format.binary64.unit ≤
      magnitude Format.binary64.t minimumPublishRateHz.mag * 10 := by decide +kernel
  have hlt : magnitude Format.binary64.t (minimumPublishRateHz.mag - 1) * 10 <
      2 ^ Format.binary64.unit := by decide +kernel
  refine Binary.value_le_iff_of_least rfl (by norm_num) ?_ ?_
  · rw [Binary.value_of_pos rfl, div_le_div_iff₀ (by norm_num) (by positivity), one_mul]
    exact_mod_cast hge
  · rw [div_lt_div_iff₀ (by positivity) (by norm_num), one_mul]
    exact_mod_cast hlt

/-- An integer above the maximum is not rounded down to it. -/
theorem le_of_not_maximum_lt {n : Int} (hn : 0 ≤ n)
    (h : maximumPublishRateHz.lt (.ofInt .binary64 n) = false) : n ≤ 1000 := by
  have hratio : Binary.ofInt .binary64 n =
      .ofRatio .binary64 false (n.natAbs * 2 ^ Format.binary64.unit) 1 := by
    rw [Binary.ofInt, decide_eq_false (not_lt.mpr hn)]
  have hsign : maximumPublishRateHz.sign = false := by decide +kernel
  have hmiddle : magnitude Format.binary64.t maximumPublishRateHz.mag +
      magnitude Format.binary64.t (maximumPublishRateHz.mag + 1) <
        2002 * 2 ^ Format.binary64.unit := by decide +kernel
  rw [hratio, ← Bool.not_eq_true, Binary.lt_ofRatio_iff hsign maximumPublishRateHz_isFinite,
    not_not, nearest_le_iff (by decide) Nat.one_pos] at h
  revert h hmiddle
  -- What is left holds in every unit.
  generalize 2 ^ Format.binary64.unit = unit
  generalize magnitude Format.binary64.t maximumPublishRateHz.mag +
    magnitude Format.binary64.t (maximumPublishRateHz.mag + 1) = middle
  intro hmiddle h
  have hlt : 2 * n.natAbs * unit < 2002 * unit := by
    rw [Nat.mul_assoc]
    omega
  have hlt := Nat.lt_of_mul_lt_mul_right hlt
  omega

/-- **A number in the range of the rate is read exactly**, whatever it is written as. -/
theorem asDouble_of_number {value : Json} {q : ℚ} (h : value.number = some q) (hq : q ≤ 1000)
    (hpos : 0 ≤ q) : value.asDouble.isFinite = true ∧ value.asDouble.value = q := by
  have hexact : ∀ n : Int, (n : ℚ) = q →
      (Binary.ofInt .binary64 n).isFinite = true ∧ (Binary.ofInt .binary64 n).value = q := by
    rintro n rfl
    have hle : n ≤ 1000 := by exact_mod_cast hq
    have hge : 0 ≤ n := by exact_mod_cast hpos
    exact ofInt_value (by omega)
  cases value with
  | int n => exact hexact _ (Option.some.inj h)
  | uint n => exact hexact _ (by exact_mod_cast Option.some.inj h)
  | real x =>
      obtain ⟨hfinite, hvalue⟩ := Option.ite_none_right_eq_some.mp h
      exact ⟨hfinite, Option.some.inj hvalue⟩
  | _ => cases h

theorem isNumeric_of_number {value : Json} {q : ℚ} (h : value.number = some q) :
    value.isNumeric = true := by
  cases value with
  | int n => rfl
  | uint n => exact Bool.or_true _
  | real x => rfl
  | _ => cases h

/-- A value whose double is in the range of the rate is the number that double is. -/
theorem number_of_asDouble {value : Json} (hnumeric : value.isNumeric = true)
    (hfinite : value.asDouble.isFinite = true) (hpos : 0 < value.asDouble.value)
    (hle : value.asDouble.value ≤ maximumPublishRateHz.value) :
    value.number = some value.asDouble.value := by
  have hexact : ∀ n : Int, (Binary.ofInt .binary64 n).isFinite = true →
      0 < (Binary.ofInt .binary64 n).value →
      (Binary.ofInt .binary64 n).value ≤ maximumPublishRateHz.value →
      (n : ℚ) = (Binary.ofInt .binary64 n).value := by
    intro n hfinite hpos hle
    have hge : 0 ≤ n := by
      refine not_lt.mp fun hneg => absurd hpos (not_lt.mpr (Binary.value_nonpos ?_))
      exact decide_eq_true hneg
    have hle := le_of_not_maximum_lt hge
      ((Binary.not_lt_iff maximumPublishRateHz_isFinite hfinite).mpr hle)
    exact (ofInt_value (by omega)).2.symm
  cases value with
  | int n => exact congrArg some (hexact _ hfinite hpos hle)
  | uint n =>
      have h := hexact n.toNat hfinite hpos hle
      exact congrArg some (by exact_mod_cast h)
  | real x => exact if_pos hfinite
  | _ => cases hnumeric

/-- When a rate is accepted, and what is read. -/
theorem publishRateHz_eq_ok {members : Json.Members} {field : String} {x : Double} :
    requiredNumber members field minimumPublishRateHz maximumPublishRateHz = .ok x ↔
      ∃ value, Json.find field members = some value ∧ x = value.asDouble ∧
        value.number = some x.value ∧ 1 / 10 ≤ x.value ∧ x.value ≤ 1000 := by
  rw [requiredNumber_eq_ok minimumPublishRateHz_isFinite maximumPublishRateHz_isFinite]
  constructor
  · rintro ⟨value, hfind, hnumeric, rfl, hfinite, hmin, hmax⟩
    have hmin := minimumPublishRateHz_le_iff.mp hmin
    exact ⟨value, hfind, rfl,
      number_of_asDouble hnumeric hfinite (lt_of_lt_of_le (by norm_num) hmin) hmax, hmin,
      hmax.trans_eq maximumPublishRateHz_value⟩
  · rintro ⟨value, hfind, rfl, hnumber, hmin, hmax⟩
    have hpos : 0 ≤ value.asDouble.value := le_trans (by norm_num) hmin
    exact ⟨value, hfind, isNumeric_of_number hnumber, rfl,
      (asDouble_of_number hnumber hmax hpos).1, minimumPublishRateHz_le_iff.mpr hmin,
      hmax.trans_eq maximumPublishRateHz_value.symm⟩

/-! ### The duration -/

theorem maximumPublishDurationSeconds_middle :
    ((magnitude Format.binary64.t maximumPublishDurationSeconds.mag +
      magnitude Format.binary64.t (maximumPublishDurationSeconds.mag + 1) : Nat) : ℚ) /
        2 ^ (Format.binary64.unit + 1) = 240 + 1 / 2 ^ 46 := by
  have h : (magnitude Format.binary64.t maximumPublishDurationSeconds.mag +
      magnitude Format.binary64.t (maximumPublishDurationSeconds.mag + 1)) * 2 ^ 46 =
        (240 * 2 ^ 46 + 1) * 2 ^ (Format.binary64.unit + 1) := by decide +kernel
  revert h
  generalize Format.binary64.unit + 1 = e
  generalize magnitude Format.binary64.t maximumPublishDurationSeconds.mag +
    magnitude Format.binary64.t (maximumPublishDurationSeconds.mag + 1) = c
  intro h
  have hcast : (c : ℚ) * 2 ^ 46 = (240 * 2 ^ 46 + 1) * 2 ^ e := by exact_mod_cast h
  rw [div_eq_iff (by positivity), ← mul_left_inj' (show (2 ^ 46 : ℚ) ≠ 0 by norm_num), hcast]
  ring

/-- **The duration is compared exactly, up to a hair**: a quotient that exceeds 240 by less
than half the distance to the next double is rounded down to it. -/
theorem publishDuration_le_iff {count : UInt32} {rate : Double} (hcount : 1 ≤ count.toNat)
    (hfinite : rate.isFinite = true) (hrate : 0 < rate.value) :
    maximumPublishDurationSeconds.lt (publishDuration count rate) = false ↔
      ((count.toNat : ℚ) - 1) / rate.value ≤ 240 + 1 / 2 ^ 46 := by
  have hsub : (count - 1).toNat = count.toNat - 1 := UInt32.toNat_sub_of_le count 1 hcount
  have hlt : (count - 1).toNat < 2 ^ 53 :=
    lt_trans (UInt32.toNat_lt _) (Nat.pow_lt_pow_right (by decide) (by decide))
  obtain ⟨hcfinite, hcvalue⟩ := ofInt_value (n := (count - 1).toNat) (by omega)
  have hsign : rate.sign = false := by
    cases h : rate.sign with
    | false => rfl
    | true => exact absurd hrate (not_lt.mpr (Binary.value_nonpos h))
  have hzero : rate.mag ≠ 0 := by
    intro h
    rw [Binary.value_of_pos hsign, h] at hrate
    simp [magnitude] at hrate
  have hcsign : (Binary.ofInt .binary64 (count - 1).toNat).sign = false :=
    decide_eq_false (not_lt.mpr (Int.natCast_nonneg (count - 1).toNat))
  rw [publishDuration, ← Bool.not_eq_true,
    Binary.lt_div_iff (by decide) (by decide +kernel) hcfinite hfinite (by decide +kernel) hcsign
      hsign hzero (by decide +kernel),
    maximumPublishDurationSeconds_middle, not_lt, hcvalue, hsub, Int.cast_natCast,
    Nat.cast_sub hcount, Nat.cast_one]

example : maximumPublishRateHz.toFixed = "1000.000000" := by decide +kernel
example : minimumPublishRateHz.toFixed = "0.100000" := by decide +kernel

end Adapter

end Ros1Tools
