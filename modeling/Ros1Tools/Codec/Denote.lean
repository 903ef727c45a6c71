import Ros1Tools.Codec.Scalar
import Ros1Tools.Lib.Except

/-!
# What a scalar denotes

The values that a JSON value can stand for, kind by kind, said without reference
to the converters; `decodeScalar_eq_ok` is the specification of all of them at
once.
-/

namespace Ros1Tools.Codec

open Lib

/-! ## Integers -/

/-- The integer that a JSON value stands for: its canonical decimal text, or a number
without a fraction. -/
def DenotesInteger (value : Json) (z : Int) : Prop :=
  value = .string (toString z) ∨ value.isIntegral = true ∧ value.asInteger = z

theorem isCanonicalDigits_iff {cs : List Char} : isCanonicalDigits cs = true ↔ IsNumeral cs := by
  cases cs with
  | nil => exact ⟨nofun, fun h => absurd rfl h.ne_nil⟩
  | cons c cs =>
      simp only [isCanonicalDigits, Bool.and_eq_true, Bool.not_eq_true', Bool.and_eq_false_iff,
        Bool.not_eq_false', List.all_eq_true, beq_eq_false_iff_ne, List.isEmpty_iff]
      constructor
      · rintro ⟨⟨hc, hzero⟩, hall⟩
        refine ⟨nofun, ?_, ?_⟩
        · intro d hd
          rcases List.mem_cons.mp hd with rfl | hd
          · exact hc
          · exact hall d hd
        · intro hhead
          simp only [List.head?_cons, Option.some.injEq] at hhead
          subst hhead
          rw [hzero.resolve_left fun h => h rfl]
      · intro h
        refine ⟨⟨h.digits c List.mem_cons_self, ?_⟩, fun d hd => h.digits d (.tail _ hd)⟩
        by_cases hz : c = '0'
        · subst hz
          exact .inr (List.cons.inj (h.leading rfl)).2
        · exact .inl hz

/-- The check on texts accepts exactly what integers are rendered as. -/
theorem isCanonicalDecimal_iff {text : String} :
    isCanonicalDecimal text = true ↔ ∃ z : Int, text = toString z := by
  have hminus : text = "-0" ↔ text.toList = ['-', '0'] := by
    rw [← String.toList_inj]
    rfl
  rw [exists_toString_iff, isCanonicalDecimal]
  split
  · rename_i cs htext
    rw [Bool.and_eq_true, bne_iff_ne, ne_eq, hminus, isCanonicalDigits_iff, htext]
    constructor
    · rintro ⟨hcs, hne⟩
      exact .inr ⟨cs, rfl, hcs, fun h => hne (by rw [h])⟩
    · rintro (h | ⟨ds, hds, hnum, hne⟩)
      · exact absurd (h.digits '-' List.mem_cons_self) (by decide)
      · cases hds
        exact ⟨hnum, fun h => hne (List.cons.inj h).2⟩
  · rename_i hsign
    rw [Bool.and_eq_true, bne_iff_ne, ne_eq, hminus, isCanonicalDigits_iff]
    constructor
    · rintro ⟨hcs, -⟩
      exact .inl hcs
    · rintro (h | ⟨ds, hds, -⟩)
      · exact ⟨h, fun hm => hsign _ hm⟩
      · exact absurd hds (hsign ds)

theorem integerText_eq_ok {value : Json} {path text : String} :
    integerText value path = .ok text ↔ ∃ z, DenotesInteger value z ∧ text = toString z := by
  unfold integerText
  split
  · rename_i s
    rw [ite_error_eq_ok]
    constructor
    · rintro ⟨-, h⟩
      split at h
      · rename_i hcan
        cases h
        obtain ⟨z, rfl⟩ := isCanonicalDecimal_iff.mp hcan
        exact ⟨z, .inl rfl, rfl⟩
      · cases h
    · rintro ⟨z, hz | ⟨hint, -⟩, rfl⟩
      · cases hz
        refine ⟨?_, if_pos (isCanonicalDecimal_iff.mpr ⟨z, rfl⟩)⟩
        intro hempty
        have := isCanonicalDecimal_iff.mpr ⟨z, rfl⟩
        rw [hempty] at this
        exact absurd this (by decide)
      · exact absurd hint (by simp [Json.isIntegral, Json.isInt64, Json.isUInt64])
  · rename_i hstring
    constructor
    · intro h
      split at h
      · rename_i hint
        cases h
        exact ⟨_, .inr ⟨hint, rfl⟩, rfl⟩
      · cases h
    · rintro ⟨z, hz | ⟨hint, rfl⟩, rfl⟩
      · exact absurd hz (hstring _)
      · rw [if_pos hint]

/-- **Signed fields** take exactly the integers in their range. -/
theorem signedInteger_eq_ok {w : Nat} (hw : 0 < w) (hw' : w ≤ 64) {value : Json} {path : String}
    {v : BitVec w} : signedInteger w value path = .ok v ↔ DenotesInteger value v.toInt := by
  have hpow : (2 : Int) ^ (w - 1) ≤ 2 ^ 63 := by
    exact_mod_cast Nat.pow_le_pow_right (show 0 < 2 by decide) (show w - 1 ≤ 63 by omega)
  rw [signedInteger, bind_eq_ok]
  simp only [integerText_eq_ok]
  constructor
  · rintro ⟨_, ⟨z, hz, rfl⟩, h⟩
    split at h
    · cases h
    · rename_i parsed consumed hscan
      rw [stoll, scanInteger_toString, Option.filter_eq_some_iff] at hscan
      obtain ⟨hscan, -⟩ := hscan
      cases hscan
      rw [ite_error_eq_ok] at h
      obtain ⟨hrange, h⟩ := h
      cases h
      rwa [BitVec.toInt_ofInt_eq_self hw (by omega) (by omega)]
  · intro h
    have hlo := v.le_toInt
    have hhi := v.toInt_lt
    refine ⟨_, ⟨_, h, rfl⟩, ?_⟩
    have hscan : stoll (toString v.toInt) = some (v.toInt, (toString v.toInt).length) := by
      rw [stoll, scanInteger_toString, Option.filter_eq_some_iff]
      exact ⟨rfl, decide_eq_true ⟨by omega, by omega⟩⟩
    simp only [hscan]
    rw [ite_error_eq_ok]
    exact ⟨by omega, congrArg _ BitVec.ofInt_toInt⟩

theorem head_toString_ne {n : Nat} : (toString (n : Int)).toList.head? ≠ some '-' := by
  rw [toList_toString_natCast]
  intro h
  have := (isNumeral_toDigits n).digits '-' (List.mem_of_mem_head? h)
  exact absurd this (by decide)

/-- **Unsigned fields** take exactly the integers in their range. -/
theorem unsignedInteger_eq_ok {w : Nat} (hw : w ≤ 64) {value : Json} {path : String}
    {v : BitVec w} : unsignedInteger w value path = .ok v ↔ DenotesInteger value v.toNat := by
  have hpow : (2 : Int) ^ w ≤ 2 ^ 64 := by
    exact_mod_cast Nat.pow_le_pow_right (show 0 < 2 by decide) hw
  rw [unsignedInteger, bind_eq_ok]
  simp only [integerText_eq_ok]
  constructor
  · rintro ⟨_, ⟨z, hz, rfl⟩, h⟩
    rw [ite_error_eq_ok] at h
    obtain ⟨-, h⟩ := h
    split at h
    · cases h
    · rename_i parsed consumed hscan
      rw [stoull, scanInteger_toString, Option.filter_eq_some_iff] at hscan
      obtain ⟨hscan, hnonneg⟩ := hscan
      cases hscan
      obtain ⟨hnonneg, -⟩ := of_decide_eq_true hnonneg
      rw [ite_error_eq_ok] at h
      obtain ⟨hrange, h⟩ := h
      cases h
      obtain ⟨n, rfl⟩ := Int.eq_ofNat_of_zero_le hnonneg
      have hlt : (n : Int) < 2 ^ w := by omega
      have hlt : n < 2 ^ w := by exact_mod_cast hlt
      rwa [BitVec.ofInt_natCast, BitVec.toNat_ofNat, Nat.mod_eq_of_lt hlt]
  · intro h
    have hlt : (v.toNat : Int) < 2 ^ w := by
      exact_mod_cast v.isLt
    refine ⟨_, ⟨_, h, rfl⟩, ?_⟩
    have hscan : stoull (toString (v.toNat : Int)) =
        some ((v.toNat : Int), (toString (v.toNat : Int)).length) := by
      rw [stoull, scanInteger_toString, Option.filter_eq_some_iff]
      exact ⟨rfl, decide_eq_true ⟨by omega, by omega⟩⟩
    rw [ite_error_eq_ok]
    refine ⟨head_toString_ne, ?_⟩
    simp only [hscan]
    rw [ite_error_eq_ok]
    refine ⟨by omega, congrArg _ ?_⟩
    rw [BitVec.ofInt_natCast, BitVec.ofNat_toNat, BitVec.setWidth_eq]

/-! ## Floating point -/

/-- A number within the range of `float`. -/
def InFloatRange (x : Double) : Prop := -floatMax.scaled ≤ x.scaled ∧ x.scaled ≤ floatMax.scaled

theorem isFinite_floatMax : floatMax.isFinite = true :=
  (Binary.magnitude_convert (by decide) (by decide) (by decide)).1

theorem scaled_neg {f : Format} (x : Binary f) : x.neg.scaled = -x.scaled := by
  unfold Binary.scaled Binary.neg
  cases x.sign
  · rfl
  · simp

/-- The two comparisons with the largest `float`, of a finite number. -/
theorem inFloatRange_iff {x : Double} (hx : x.isFinite = true) :
    InFloatRange x ↔ (x.lt floatMax.neg || floatMax.lt x) = false := by
  have hnan := Binary.isNaN_of_isFinite hx
  have hmax := Binary.isNaN_of_isFinite isFinite_floatMax
  have hneg : floatMax.neg.isNaN = false := hmax
  simp only [Binary.lt, hnan, hmax, hneg, scaled_neg, Bool.not_false, Bool.true_and,
    Bool.or_eq_false_iff, decide_eq_false_iff_not, Int.not_lt, InFloatRange]

theorem floatingPoint_eq_ok {value : Json} {path : String} {x : Double} :
    floatingPoint value path = .ok x ↔
      value.isNumeric = true ∧ value.asDouble.isFinite = true ∧ x = value.asDouble := by
  rw [floatingPoint, ite_error_eq_ok, ite_error_eq_ok]
  simp only [Bool.not_eq_true', Bool.not_eq_false, Except.ok.injEq, @eq_comm _ x]

theorem float32Value_eq_ok {value : Json} {path : String} {x : Single} :
    float32Value value path = .ok x ↔
      value.isNumeric = true ∧ value.asDouble.isFinite = true ∧ InFloatRange value.asDouble ∧
        x = value.asDouble.convert .binary32 := by
  rw [float32Value, bind_eq_ok]
  simp only [floatingPoint_eq_ok, ite_error_eq_ok, Bool.not_eq_true, Except.ok.injEq]
  constructor
  · rintro ⟨_, ⟨hnum, hfin, rfl⟩, hrange, rfl⟩
    exact ⟨hnum, hfin, (inFloatRange_iff hfin).mpr hrange, rfl⟩
  · rintro ⟨hnum, hfin, hrange, rfl⟩
    exact ⟨_, ⟨hnum, hfin, rfl⟩, (inFloatRange_iff hfin).mp hrange, rfl⟩

/-! ## Booleans and strings -/

theorem booleanValue_eq_ok {value : Json} {path : String} {b : Bool} :
    booleanValue value path = .ok b ↔ value = .boolean b := by
  unfold booleanValue
  split
  · rw [Except.ok.injEq, Json.boolean.injEq]
  · rename_i hbool
    exact ⟨nofun, fun h => absurd h (hbool b)⟩

theorem stringValue_eq_ok {value : Json} {path text : String} :
    stringValue value path = .ok text ↔ value = .string text := by
  unfold stringValue
  split
  · rw [Except.ok.injEq, Json.string.injEq]
  · rename_i hstring
    exact ⟨nofun, fun h => absurd h (hstring text)⟩

/-! ## Times and durations -/

/-- An object with the members `secs` and `nsecs` and no others. -/
def SecsAndNsecs (value secs nsecs : Json) : Prop :=
  ∃ members, value = .object members ∧
    (∀ k ∈ members.map Prod.fst, k ∈ ["secs", "nsecs"]) ∧
    Json.find "secs" members = some secs ∧ Json.find "nsecs" members = some nsecs

theorem rejectUnknownMembers_eq_ok {members : Json.Members} {allowed : List String}
    {path : String} : rejectUnknownMembers members allowed path = .ok () ↔
      ∀ k ∈ members.map Prod.fst, k ∈ allowed := by
  induction members with
  | nil => simp [rejectUnknownMembers]
  | cons m rest ih =>
      obtain ⟨k, v⟩ := m
      rw [rejectUnknownMembers, List.map_cons, List.forall_mem_cons, ← ih]
      by_cases hk : k ∈ allowed
      · simp [hk]
      · simp [hk]

theorem secsAndNsecs_eq_ok {what : String} {value : Json} {path : String} {parts : Json × Json} :
    secsAndNsecs what value path = .ok parts ↔ SecsAndNsecs value parts.1 parts.2 := by
  unfold secsAndNsecs
  split
  · rename_i members
    rw [bind_eq_ok]
    constructor
    · rintro ⟨⟨⟩, hkeys, h⟩
      split at h
      · rename_i hsecs hnsecs
        cases h
        exact ⟨members, rfl, rejectUnknownMembers_eq_ok.mp hkeys, hsecs, hnsecs⟩
      · cases h
    · rintro ⟨_, ⟨⟩, hkeys, hsecs, hnsecs⟩
      refine ⟨(), rejectUnknownMembers_eq_ok.mpr hkeys, ?_⟩
      rw [hsecs, hnsecs]
  · rename_i hobject
    constructor
    · nofun
    · rintro ⟨members, hvalue, -⟩
      exact absurd hvalue (hobject members)

/-- A time whose nanoseconds are below a second is left as it is. -/
theorem Time.ofParts_eq {sec nsec : BitVec 32} (h : nsec.toNat < 10 ^ 9) :
    Time.ofParts sec nsec = .ok ⟨sec, nsec⟩ := by
  have hsec := sec.isLt
  unfold Time.ofParts
  simp only [Nat.div_eq_of_lt h, Nat.mod_eq_of_lt h, Nat.add_zero, BitVec.ofNat_toNat,
    BitVec.setWidth_eq]
  exact if_neg (by omega)

theorem timeValue_eq_ok {value : Json} {path : String} {t : Time} :
    timeValue value path = .ok t ↔ ∃ secs nsecs, SecsAndNsecs value secs nsecs ∧
      DenotesInteger secs t.sec.toNat ∧ DenotesInteger nsecs t.nsec.toNat ∧
      t.nsec.toNat < 10 ^ 9 := by
  simp only [timeValue, bind_eq_ok, secsAndNsecs_eq_ok,
    unsignedInteger_eq_ok (show 32 ≤ 64 by decide), ite_error_eq_ok, Nat.not_le]
  constructor
  · rintro ⟨parts, hparts, sec, hsec, nsec, hnsec, hlt, h⟩
    rw [Time.ofParts_eq hlt] at h
    cases h
    exact ⟨_, _, hparts, hsec, hnsec, hlt⟩
  · rintro ⟨secs, nsecs, hparts, hsec, hnsec, hlt⟩
    exact ⟨(secs, nsecs), hparts, t.sec, hsec, t.nsec, hnsec, hlt, Time.ofParts_eq hlt⟩

/-- A duration with less than a second of nanoseconds loses at most one second. -/
theorem Duration.ofParts_eq {sec nsec : BitVec 32} (hlo : -10 ^ 9 < nsec.toInt)
    (hhi : nsec.toInt < 10 ^ 9) :
    Duration.ofParts sec nsec =
      if nsec.toInt < 0 then
        if sec.toInt - 1 < -2 ^ 31 then
          .error (.foreign (.std "Duration is out of dual 32-bit range"))
        else .ok ⟨.ofInt 32 (sec.toInt - 1), .ofInt 32 (nsec.toInt + 10 ^ 9)⟩
      else .ok ⟨sec, nsec⟩ := by
  have hsec := sec.toInt_lt
  have hsec' := sec.le_toInt
  have htdiv : nsec.toInt.tdiv (10 ^ 9) = 0 := by
    rcases Int.lt_or_le nsec.toInt 0 with hneg | hpos
    · rw [← Int.neg_neg nsec.toInt, Int.neg_tdiv, Int.tdiv_eq_zero_of_lt (by omega) (by omega),
        Int.neg_zero]
    · exact Int.tdiv_eq_zero_of_lt hpos hhi
  have htmod : nsec.toInt.tmod (10 ^ 9) = nsec.toInt := by
    rw [Int.tmod_def, htdiv]
    ring
  unfold Duration.ofParts
  simp only [htdiv, htmod, Int.add_zero]
  split
  · simp only
    split
    · rw [if_pos (by omega)]
    · rw [if_neg (by omega)]
  · simp only
    rw [if_neg (by omega), BitVec.ofInt_toInt, BitVec.ofInt_toInt]

/-- The constructor of `ros::Duration`: the normalized duration of the same length,
if there is one. -/
theorem Duration.ofParts_eq_ok {sec nsec : BitVec 32} {d : Duration}
    (hlo : -10 ^ 9 < nsec.toInt) (hhi : nsec.toInt < 10 ^ 9) :
    Duration.ofParts sec nsec = .ok d ↔
      (0 ≤ d.nsec.toInt ∧ d.nsec.toInt < 10 ^ 9) ∧
        d.sec.toInt * 10 ^ 9 + d.nsec.toInt = sec.toInt * 10 ^ 9 + nsec.toInt := by
  have hsec := sec.toInt_lt
  have hdsec := d.sec.le_toInt
  rw [Duration.ofParts_eq hlo hhi]
  obtain ⟨dsec, dnsec⟩ := d
  simp only at hdsec ⊢
  by_cases hneg : nsec.toInt < 0
  · rw [if_pos hneg, ite_error_eq_ok, Except.ok.injEq, Duration.mk.injEq]
    constructor
    · rintro ⟨hrange, rfl, rfl⟩
      rw [BitVec.toInt_ofInt_eq_self (by decide) (by omega) (by omega),
        BitVec.toInt_ofInt_eq_self (by decide) (by omega) (by omega)]
      omega
    · rintro ⟨hnorm, hsum⟩
      refine ⟨by omega, BitVec.eq_of_toInt_eq ?_, BitVec.eq_of_toInt_eq ?_⟩
      · rw [BitVec.toInt_ofInt_eq_self (by decide) (by omega) (by omega)]
        omega
      · rw [BitVec.toInt_ofInt_eq_self (by decide) (by omega) (by omega)]
        omega
  · rw [if_neg hneg, Except.ok.injEq, Duration.mk.injEq]
    constructor
    · rintro ⟨rfl, rfl⟩
      omega
    · rintro ⟨hnorm, hsum⟩
      exact ⟨BitVec.eq_of_toInt_eq (by omega), BitVec.eq_of_toInt_eq (by omega)⟩

theorem durationValue_eq_ok {value : Json} {path : String} {d : Duration} :
    durationValue value path = .ok d ↔ ∃ secs nsecs s n, SecsAndNsecs value secs nsecs ∧
      DenotesInteger secs s ∧ DenotesInteger nsecs n ∧ (-2 ^ 31 ≤ s ∧ s < 2 ^ 31) ∧
      (-10 ^ 9 < n ∧ n < 10 ^ 9) ∧ (0 ≤ d.nsec.toInt ∧ d.nsec.toInt < 10 ^ 9) ∧
      d.sec.toInt * 10 ^ 9 + d.nsec.toInt = s * 10 ^ 9 + n := by
  simp only [durationValue, bind_eq_ok, secsAndNsecs_eq_ok,
    signedInteger_eq_ok (show 0 < 32 by decide) (show 32 ≤ 64 by decide), ite_error_eq_ok]
  constructor
  · rintro ⟨parts, hparts, sec, hsec, nsec, hnsec, hrange, h⟩
    rw [Duration.ofParts_eq_ok (by omega) (by omega)] at h
    have hlo := sec.le_toInt
    have hhi := sec.toInt_lt
    exact ⟨_, _, _, _, hparts, hsec, hnsec, ⟨by omega, by omega⟩, ⟨by omega, by omega⟩, h.1, h.2⟩
  · rintro ⟨secs, nsecs, s, n, hparts, hsec, hnsec, hs, hn, hnorm, hsum⟩
    have hs' : (BitVec.ofInt 32 s).toInt = s :=
      BitVec.toInt_ofInt_eq_self (by decide) (by omega) (by omega)
    have hn' : (BitVec.ofInt 32 n).toInt = n :=
      BitVec.toInt_ofInt_eq_self (by decide) (by omega) (by omega)
    refine ⟨(secs, nsecs), hparts, .ofInt 32 s, ?_, .ofInt 32 n, ?_, by omega, ?_⟩
    · rwa [hs']
    · rwa [hn']
    · rw [Duration.ofParts_eq_ok (by omega) (by omega), hs', hn']
      exact ⟨hnorm, hsum⟩

/-! ## All kinds -/

/-- The value of a kind that a JSON value stands for. -/
def Primitive.Denotes : (p : Primitive) → Json → p.Value → Prop
  | .bool, value, (b : Bool) => value = .boolean b
  | .uint8, value, (v : BitVec 8) => DenotesInteger value v.toNat
  | .uint16, value, (v : BitVec 16) => DenotesInteger value v.toNat
  | .uint32, value, (v : BitVec 32) => DenotesInteger value v.toNat
  | .uint64, value, (v : BitVec 64) => DenotesInteger value v.toNat
  | .int8, value, (v : BitVec 8) => DenotesInteger value v.toInt
  | .int16, value, (v : BitVec 16) => DenotesInteger value v.toInt
  | .int32, value, (v : BitVec 32) => DenotesInteger value v.toInt
  | .int64, value, (v : BitVec 64) => DenotesInteger value v.toInt
  | .float32, value, (x : Single) =>
      value.isNumeric = true ∧ value.asDouble.isFinite = true ∧ InFloatRange value.asDouble ∧
        x = value.asDouble.convert .binary32
  | .float64, value, (x : Double) =>
      value.isNumeric = true ∧ value.asDouble.isFinite = true ∧ x = value.asDouble
  | .string, value, (s : String) => value = .string s
  | .time, value, (t : Time) => ∃ secs nsecs, SecsAndNsecs value secs nsecs ∧
      DenotesInteger secs t.sec.toNat ∧ DenotesInteger nsecs t.nsec.toNat ∧
      t.nsec.toNat < 10 ^ 9
  | .duration, value, (d : Duration) => ∃ secs nsecs s n, SecsAndNsecs value secs nsecs ∧
      DenotesInteger secs s ∧ DenotesInteger nsecs n ∧ (-2 ^ 31 ≤ s ∧ s < 2 ^ 31) ∧
      (-10 ^ 9 < n ∧ n < 10 ^ 9) ∧ (0 ≤ d.nsec.toInt ∧ d.nsec.toInt < 10 ^ 9) ∧
      d.sec.toInt * 10 ^ 9 + d.nsec.toInt = s * 10 ^ 9 + n

/-- **The converters decode what a value denotes**, and nothing else. -/
theorem decodeScalar_eq_ok {p : Primitive} {value : Json} {path : String} {v : p.Value} :
    decodeScalar p value path = .ok v ↔ p.Denotes value v := by
  cases p with
  | bool => exact booleanValue_eq_ok
  | uint8 => exact unsignedInteger_eq_ok (by decide)
  | uint16 => exact unsignedInteger_eq_ok (by decide)
  | uint32 => exact unsignedInteger_eq_ok (by decide)
  | uint64 => exact unsignedInteger_eq_ok (by decide)
  | int8 => exact signedInteger_eq_ok (by decide) (by decide)
  | int16 => exact signedInteger_eq_ok (by decide) (by decide)
  | int32 => exact signedInteger_eq_ok (by decide) (by decide)
  | int64 => exact signedInteger_eq_ok (by decide) (by decide)
  | float32 => exact float32Value_eq_ok
  | float64 => exact floatingPoint_eq_ok
  | string => exact stringValue_eq_ok
  | time => exact timeValue_eq_ok
  | duration => exact durationValue_eq_ok

end Ros1Tools.Codec
