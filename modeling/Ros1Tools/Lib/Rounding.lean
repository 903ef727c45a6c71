import Mathlib.Algebra.Order.Field.Basic
import Mathlib.Tactic.NormNum
import Ros1Tools.Lib.BinaryFloat

/-!
# Where rounding turns

`nearest_le_iff` says which ratios round to a given word or below it: those up to the middle
between its value and the next one, the middle included if the word is even.  Comparing a
rounded result with a datum is thereby comparing the exact result with a rational number.

Division of data, and their values as rational numbers, are defined here as well.
-/

namespace Ros1Tools.Lib

/-! ## Words and their neighbours -/

theorem roundHalfEven_le_iff {a b m : Nat} (hb : 0 < b) :
    roundHalfEven a b ≤ m ↔ 2 * a < b * (2 * m + 1) ∨ (2 * a = b * (2 * m + 1) ∧ m % 2 = 0) := by
  obtain ⟨q, hq⟩ : ∃ q, a / b = q := ⟨_, rfl⟩
  obtain ⟨r, hr⟩ : ∃ r, a % b = r := ⟨_, rfl⟩
  have hdiv := Nat.div_add_mod a b
  have hmod := Nat.mod_lt a hb
  rw [hq, hr] at hdiv
  rw [hr] at hmod
  have hmiddle : b * (2 * m + 1) = 2 * (b * m) + b := by ring
  unfold roundHalfEven
  rw [hq, hr, hmiddle]
  rcases Nat.lt_trichotomy q m with hlt | rfl | hlt
  · have hle : b * q + b ≤ b * m := Nat.mul_succ b q ▸ Nat.mul_le_mul_left b hlt
    have hround : ∀ c : Prop, ∀ [Decidable c], (if c then q else q + 1) ≤ m := by
      intro c _
      split
      · exact Nat.le_of_lt hlt
      · exact hlt
    exact ⟨fun _ => by omega, fun _ => hround _⟩
  · split
    · omega
    · omega
  · have hle : b * m + b ≤ b * q := Nat.mul_succ b m ▸ Nat.mul_le_mul_left b hlt
    split
    · omega
    · omega

/-- The words of a binade and the first one behind it. -/
theorem magnitude_binade {t s m : Nat} (hlo : s = 0 ∨ 2 ^ t ≤ m) (hhi : m ≤ 2 ^ (t + 1)) :
    magnitude t (s * 2 ^ t + m) = m * 2 ^ s := by
  have hpos := Nat.two_pow_pos t
  rw [pow_succ] at hhi
  unfold magnitude
  rcases Nat.lt_or_ge m (2 ^ t) with hm | hm
  · -- A subnormal is its own value.
    obtain rfl := hlo.resolve_right (Nat.not_le_of_lt hm)
    rw [Nat.zero_mul, Nat.zero_add, if_pos hm, pow_zero, Nat.mul_one]
  have hge : ¬s * 2 ^ t + m < 2 ^ t := by omega
  rw [if_neg hge]
  rcases Nat.lt_or_ge m (2 ^ t * 2) with hm' | hm'
  · have hdiv : (s * 2 ^ t + m) / 2 ^ t = s + 1 := by
      rw [Nat.add_comm, Nat.add_mul_div_right _ _ hpos,
        show m / 2 ^ t = 1 from Nat.div_eq_of_lt_le (by omega) (by omega), Nat.add_comm]
    have hmod := Nat.div_add_mod (s * 2 ^ t + m) (2 ^ t)
    rw [hdiv] at hmod
    have hexpand : 2 ^ t * (s + 1) = s * 2 ^ t + 2 ^ t := by ring
    rw [hdiv, Nat.add_sub_cancel]
    congr 1
    omega
  · obtain rfl : m = 2 ^ t * 2 := Nat.le_antisymm hhi hm'
    have hword : s * 2 ^ t + 2 ^ t * 2 = 2 ^ t * (s + 2) := by ring
    rw [hword, Nat.mul_mod_right, Nat.mul_div_cancel_left _ hpos, Nat.add_zero,
      show s + 2 - 1 = s + 1 from rfl, pow_succ]
    ring

theorem div_le_roundHalfEven (a b : Nat) : a / b ≤ roundHalfEven a b := by
  unfold roundHalfEven
  split
  · exact le_rfl
  · exact Nat.le_succ _

theorem roundHalfEven_le_succ (a b : Nat) : roundHalfEven a b ≤ a / b + 1 := by
  unfold roundHalfEven
  split
  · exact Nat.le_succ _
  · exact le_rfl

/-- The binade of a ratio, by the number of bits that rounding drops. -/
theorem ratio_bounds {t a b s : Nat} (hb : 0 < b) (hs : Nat.log2 (a / b) - t = s) :
    a < b * 2 ^ s * 2 ^ (t + 1) ∧ (0 < s → b * 2 ^ s * 2 ^ t ≤ a) := by
  constructor
  · have hlt : a / b < 2 ^ (s + (t + 1)) :=
      lt_of_lt_of_le Nat.lt_log2_self (Nat.pow_le_pow_right (by decide) (by omega))
    rw [Nat.mul_assoc, ← pow_add]
    exact (Nat.div_lt_iff_lt_mul hb).mp hlt |>.trans_eq (Nat.mul_comm _ _)
  · intro hpos
    have hlog : Nat.log2 (a / b) = s + t := by omega
    have hne : a / b ≠ 0 := by
      intro hzero
      rw [hzero, Nat.log2_zero] at hlog
      omega
    rw [Nat.mul_assoc, ← pow_add, ← hlog]
    exact (Nat.mul_le_mul_left b (Nat.log2_self_le hne)).trans (Nat.mul_div_le a b)

/-- **A ratio rounds to a word or below it** if and only if it does not exceed the middle
between the word's value and the next one, which itself goes to the even word. -/
theorem nearest_le_iff {t a b k : Nat} (ht : 0 < t) (hb : 0 < b) :
    nearest t a b ≤ k ↔
      2 * a < b * (magnitude t k + magnitude t (k + 1)) ∨
        (2 * a = b * (magnitude t k + magnitude t (k + 1)) ∧ k % 2 = 0) := by
  obtain ⟨s, hs⟩ : ∃ s, Nat.log2 (a / b) - t = s := ⟨_, rfl⟩
  have hnearest : nearest t a b = s * 2 ^ t + roundHalfEven a (b * 2 ^ s) := by
    rw [nearest, hs]
  obtain ⟨hupper, hlower⟩ := ratio_bounds hb hs
  have hscale : 0 < b * 2 ^ s := Nat.mul_pos hb (Nat.two_pow_pos s)
  have hmono := (magnitude_strictMono t).monotone
  have hword : magnitude t k < magnitude t (k + 1) := magnitude_strictMono t (Nat.lt_succ_self k)
  have hpow : 2 ^ (t + 1) = 2 ^ t * 2 := pow_succ 2 t
  by_cases hbelow : 0 < s ∧ k + 1 ≤ s * 2 ^ t + 2 ^ t
  · -- The word lies below the binade of the ratio: neither side holds.
    have hge := hlower hbelow.1
    have hround : 2 ^ t ≤ roundHalfEven a (b * 2 ^ s) :=
      le_trans ((Nat.le_div_iff_mul_le hscale).mpr (by rwa [Nat.mul_comm]))
        (div_le_roundHalfEven _ _)
    have hnext : magnitude t (k + 1) ≤ 2 ^ t * 2 ^ s := by
      rw [← magnitude_binade (.inr le_rfl) (Nat.pow_le_pow_right (by decide) (Nat.le_succ t))]
      exact hmono hbelow.2
    have hlt : b * (magnitude t k + magnitude t (k + 1)) < 2 * a := by
      calc b * (magnitude t k + magnitude t (k + 1)) < b * (2 * (2 ^ t * 2 ^ s)) :=
            Nat.mul_lt_mul_of_pos_left (by omega) hb
        _ = 2 * (b * 2 ^ s * 2 ^ t) := by ring
        _ ≤ 2 * a := Nat.mul_le_mul_left 2 hge
    rw [hnearest]
    constructor
    · intro h
      omega
    · rintro (h | h)
      · omega
      · omega
  by_cases habove : s * 2 ^ t + 2 ^ (t + 1) ≤ k
  · -- It lies above the binade: both sides hold.
    have hround : roundHalfEven a (b * 2 ^ s) ≤ 2 ^ (t + 1) :=
      (roundHalfEven_le_succ _ _).trans (Nat.div_lt_of_lt_mul hupper)
    have hge : 2 ^ (t + 1) * 2 ^ s ≤ magnitude t k := by
      rw [← magnitude_binade (.inr (by omega)) le_rfl]
      exact hmono habove
    have hlt : 2 * a < b * (magnitude t k + magnitude t (k + 1)) := by
      calc 2 * a < 2 * (b * 2 ^ s * 2 ^ (t + 1)) := Nat.mul_lt_mul_of_pos_left hupper (by decide)
        _ = b * (2 ^ (t + 1) * 2 ^ s + 2 ^ (t + 1) * 2 ^ s) := by ring
        _ ≤ b * (magnitude t k + magnitude t (k + 1)) := Nat.mul_le_mul_left b (by omega)
    rw [hnearest]
    exact ⟨fun _ => .inl hlt, fun _ => by omega⟩
  · -- Within the binade words are significands.
    obtain ⟨m, rfl⟩ : ∃ m, k = s * 2 ^ t + m := by
      refine Nat.exists_eq_add_of_le ?_
      rcases Nat.eq_zero_or_pos s with rfl | hpos
      · simp
      · omega
    have hm : s = 0 ∨ 2 ^ t ≤ m := by omega
    have hparity : (s * 2 ^ t + m) % 2 = m % 2 := by
      have heven : s * 2 ^ t % 2 = 0 := by
        rw [Nat.mul_mod, Nat.pow_mod, Nat.mod_self, Nat.zero_pow ht, Nat.zero_mod, Nat.mul_zero,
          Nat.zero_mod]
      omega
    have hmiddle : b * (m * 2 ^ s + (m + 1) * 2 ^ s) = b * 2 ^ s * (2 * m + 1) := by ring
    rw [hnearest, Nat.add_assoc, magnitude_binade hm (by omega),
      magnitude_binade (hm.imp_right Nat.le_succ_of_le) (by omega), hparity, hmiddle,
      Nat.add_le_add_iff_left]
    exact roundHalfEven_le_iff hscale

/-! ## Values -/

namespace Binary

variable {f : Format}

/-- The value of a finite datum. -/
def value (x : Binary f) : ℚ := x.scaled / 2 ^ f.unit

theorem value_lt_value {x y : Binary f} : x.value < y.value ↔ x.scaled < y.scaled := by
  rw [value, value, div_lt_div_iff_of_pos_right (by positivity)]
  exact Int.cast_lt

/-- A comparison of finite data is one of their values. -/
theorem lt_iff {x y : Binary f} (hx : x.isFinite = true) (hy : y.isFinite = true) :
    x.lt y = true ↔ x.value < y.value := by
  rw [lt, isNaN_of_isFinite hx, isNaN_of_isFinite hy, value_lt_value]
  simp

theorem not_lt_iff {x y : Binary f} (hx : x.isFinite = true) (hy : y.isFinite = true) :
    x.lt y = false ↔ y.value ≤ x.value := by
  rw [← Bool.not_eq_true, lt_iff hx hy, not_lt]

theorem value_of_pos {x : Binary f} (h : x.sign = false) :
    x.value = magnitude f.t x.mag / 2 ^ f.unit := by
  rw [value, scaled, h]
  simp

theorem value_nonpos {x : Binary f} (h : x.sign = true) : x.value ≤ 0 := by
  rw [value, scaled, if_pos h]
  exact div_nonpos_of_nonpos_of_nonneg (by simp) (by positivity)

/-- A datum is the least one that is not below `q`, so comparing with either is the same. -/
theorem value_le_iff_of_least {d x : Binary f} {q : ℚ} (hsign : d.sign = false) (hpos : 0 < q)
    (hle : q ≤ d.value) (hprev : (magnitude f.t (d.mag - 1) : ℚ) / 2 ^ f.unit < q) :
    d.value ≤ x.value ↔ q ≤ x.value := by
  refine ⟨hle.trans, fun hx => not_lt.mp fun hlt => ?_⟩
  cases hxsign : x.sign with
  | true => exact absurd (hx.trans (value_nonpos hxsign)) (not_le.mpr hpos)
  | false =>
      rw [value_of_pos hxsign, value_of_pos hsign, div_lt_div_iff_of_pos_right (by positivity),
        Nat.cast_lt, (magnitude_strictMono f.t).lt_iff_lt] at hlt
      have hmag : magnitude f.t x.mag ≤ magnitude f.t (d.mag - 1) :=
        (magnitude_strictMono f.t).monotone (Nat.le_sub_one_of_lt hlt)
      refine absurd hx (not_le.mpr (lt_of_le_of_lt ?_ hprev))
      rw [value_of_pos hxsign, div_le_div_iff_of_pos_right (by positivity)]
      exact Nat.cast_le.mpr hmag

theorem value_eq_intCast {x : Binary f} {z : Int} : x.value = z ↔ x.scaled = z * 2 ^ f.unit := by
  rw [value, div_eq_iff (by positivity)]
  exact_mod_cast Iff.rfl

/-- A datum without a fraction is a multiple of the unit. -/
theorem isIntegral_iff {x : Binary f} :
    x.isIntegral = true ↔ x.isFinite = true ∧ x.value = x.toInt := by
  have hdvd : (2 ^ f.unit : Int) ∣ x.scaled ↔ magnitude f.t x.mag % 2 ^ f.unit = 0 := by
    rw [← Nat.dvd_iff_mod_eq_zero, ← Int.natCast_dvd_natCast, scaled]
    push_cast
    split
    · exact Int.dvd_neg
    · rfl
  rw [isIntegral, Bool.and_eq_true, beq_iff_eq, ← hdvd, value_eq_intCast, toInt]
  refine and_congr_right fun _ => ⟨fun h => (Int.tdiv_mul_cancel h).symm, fun h => ?_⟩
  rw [h]
  exact Int.dvd_mul_left _ _

theorem toInt_of_value {x : Binary f} {z : Int} (h : x.value = z) : x.toInt = z := by
  rw [toInt, value_eq_intCast.mp h]
  exact Int.mul_tdiv_cancel _ (by positivity)

/-- Whether a datum lies below a rounded ratio. -/
theorem lt_ofRatio_iff {x : Binary f} (hsign : x.sign = false) (hx : x.isFinite = true)
    {a b : Nat} : x.lt (ofRatio f false a b) = true ↔ ¬nearest f.t a b ≤ x.mag := by
  have hinfinity : x.mag < f.infinity := of_decide_eq_true hx
  have hnan : (ofRatio f false a b).isNaN = false :=
    decide_eq_false (Nat.not_lt_of_le (Nat.min_le_right _ _))
  have hscaled : x.scaled < (ofRatio f false a b).scaled ↔
      magnitude f.t x.mag < magnitude f.t (min (nearest f.t a b) f.infinity) := by
    rw [scaled, scaled, hsign, if_neg Bool.false_ne_true, ofRatio, if_neg Bool.false_ne_true]
    exact Int.ofNat_lt
  rw [lt, isNaN_of_isFinite hx, hnan, Bool.not_false, Bool.and_self, Bool.true_and,
    decide_eq_true_eq, hscaled, (magnitude_strictMono f.t).lt_iff_lt]
  omega

/-! ## Division -/

theorem nan_lt (f : Format) : 2 ^ (f.w + f.t) - 1 < 2 ^ (f.w + f.t) :=
  Nat.sub_lt (Nat.two_pow_pos _) Nat.one_pos

theorem zero_lt (f : Format) : 0 < 2 ^ (f.w + f.t) := Nat.two_pow_pos _

/-- `x / y`, rounded to nearest. -/
def div (x y : Binary f) : Binary f :=
  let sign := x.sign != y.sign
  if x.isNaN || y.isNaN || (!x.isFinite && !y.isFinite) || (x.mag == 0 && y.mag == 0) then
    ⟨sign, 2 ^ (f.w + f.t) - 1, nan_lt f⟩
  else if !x.isFinite || y.mag == 0 then ⟨sign, f.infinity, f.infinity_lt⟩
  else if !y.isFinite then ⟨sign, 0, zero_lt f⟩
  else ofRatio f sign (magnitude f.t x.mag * 2 ^ f.unit) (magnitude f.t y.mag)

theorem div_of_pos {x y : Binary f} (hx : x.isFinite = true) (hy : y.isFinite = true)
    (hsign : x.sign = y.sign) (hzero : y.mag ≠ 0) :
    x.div y = ofRatio f false (magnitude f.t x.mag * 2 ^ f.unit) (magnitude f.t y.mag) := by
  simp [div, hx, hy, isNaN_of_isFinite hx, isNaN_of_isFinite hy, hsign, hzero]

/-- **Whether a quotient exceeds a datum with an even word**: the exact quotient is compared
with the middle between the datum and the next one. -/
theorem lt_div_iff {d x y : Binary f} (ht : 0 < f.t) (hd : d.isFinite = true)
    (hx : x.isFinite = true) (hy : y.isFinite = true) (hdsign : d.sign = false)
    (hxsign : x.sign = false) (hysign : y.sign = false) (hzero : y.mag ≠ 0)
    (heven : d.mag % 2 = 0) :
    d.lt (x.div y) = true ↔
      ((magnitude f.t d.mag + magnitude f.t (d.mag + 1) : Nat) : ℚ) / 2 ^ (f.unit + 1) <
        x.value / y.value := by
  have hpos : 0 < magnitude f.t y.mag :=
    lt_of_le_of_lt (Nat.zero_le _) (magnitude_strictMono f.t (Nat.pos_of_ne_zero hzero))
  rw [div_of_pos hx hy (hxsign.trans hysign.symm) hzero, lt_ofRatio_iff hdsign hd,
    nearest_le_iff ht hpos, value_of_pos hxsign, value_of_pos hysign,
    div_div_div_cancel_right₀ (by positivity),
    div_lt_div_iff₀ (by positivity) (Nat.cast_pos.mpr hpos)]
  generalize magnitude f.t x.mag = a
  generalize magnitude f.t y.mag = b
  generalize magnitude f.t d.mag + magnitude f.t (d.mag + 1) = c
  have hcast : (c : ℚ) * b < a * 2 ^ (f.unit + 1) ↔ b * c < 2 * (a * 2 ^ f.unit) := by
    rw [← Nat.cast_lt (α := ℚ), pow_succ, mul_comm (c : ℚ), ← mul_assoc, mul_comm _ (2 : ℚ)]
    push_cast
    rfl
  rw [hcast]
  simp only [heven, and_true, not_or]
  omega

/-! ## Sums and products -/

/-- `x * y`, rounded to nearest. -/
def mul (x y : Binary f) : Binary f :=
  let sign := x.sign != y.sign
  if x.isNaN || y.isNaN || (!x.isFinite && y.mag == 0) || (x.mag == 0 && !y.isFinite) then
    ⟨sign, 2 ^ (f.w + f.t) - 1, nan_lt f⟩
  else if !x.isFinite || !y.isFinite then ⟨sign, f.infinity, f.infinity_lt⟩
  else ofRatio f sign (magnitude f.t x.mag * magnitude f.t y.mag) (2 ^ f.unit)

/-- `x + y`, rounded to nearest. -/
def add (x y : Binary f) : Binary f :=
  if x.isNaN || y.isNaN || (!x.isFinite && !y.isFinite && x.sign != y.sign) then
    ⟨x.sign, 2 ^ (f.w + f.t) - 1, nan_lt f⟩
  else if !x.isFinite then x
  else if !y.isFinite then y
  else
    let sum := x.scaled + y.scaled
    ofRatio f (decide (sum < 0) || (sum == 0 && x.sign && y.sign)) sum.natAbs 1

/-! ## Text -/

/-- `std::to_string`: six decimals, rounded to nearest. -/
def toFixed (x : Binary f) : String :=
  let n := roundHalfEven (magnitude f.t x.mag * 10 ^ 6) (2 ^ f.unit)
  let fraction := Nat.toDigits 10 (n % 10 ^ 6)
  (if x.sign then "-" else "") ++
    if x.isNaN then "nan"
    else if x.isFinite then
      toString (n / 10 ^ 6) ++ "." ++
        String.ofList (List.replicate (6 - fraction.length) '0' ++ fraction)
    else "inf"

end Binary

end Ros1Tools.Lib
