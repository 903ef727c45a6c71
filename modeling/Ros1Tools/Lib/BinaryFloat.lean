import Mathlib.Data.Rat.Defs
import Mathlib.Tactic.Positivity
import Mathlib.Tactic.Ring

/-!
# IEEE 754 binary interchange formats

A datum of a binary format is a sign and a *magnitude word*, the remaining bits
of its encoding read as a number.  Magnitude words are ordered like the values
they encode: below `2 ^ t` they are the subnormals, and from there on every block
of `2 ^ t` words covers one binade.  Measured in units of the least subnormal,
every finite value is therefore a natural number, `magnitude t k`, and no
rounding is involved in reading one.

Writing one rounds.  `nearest t a b` is the magnitude word of the datum closest
to the ratio `a / b`, ties going to the even word, which is the datum with the
even significand.  Conversion between formats and from the integers are both
`nearest` at the appropriate ratio, with overflow to infinity.

The one theorem about all this is `convert_convert`: widening a finite datum and
narrowing it again is the identity.
-/

namespace Ros1Tools.Lib

/-- A binary interchange format, by the number of explicit significand bits and
the number of exponent bits. -/
structure Format where
  t : Nat
  w : Nat
  w_pos : 2 ≤ w

namespace Format

def binary32 : Format := ⟨23, 8, by decide⟩
def binary64 : Format := ⟨52, 11, by decide⟩

/-- The least subnormal is `2 ^ (-unit)`. -/
def unit (f : Format) : Nat := 2 ^ (f.w - 1) - 2 + f.t

/-- The magnitude word of infinity: exponent bits all ones, significand zero. -/
def infinity (f : Format) : Nat := (2 ^ f.w - 1) * 2 ^ f.t

theorem infinity_lt (f : Format) : f.infinity < 2 ^ (f.w + f.t) := by
  rw [infinity, pow_add]
  exact Nat.mul_lt_mul_of_pos_right (Nat.sub_lt (by positivity) Nat.one_pos) (by positivity)

end Format

/-! ## Magnitude words -/

/-- The value of a magnitude word, in units of the least subnormal. -/
def magnitude (t k : Nat) : Nat :=
  if k < 2 ^ t then k else (2 ^ t + k % 2 ^ t) * 2 ^ (k / 2 ^ t - 1)

/-- The integer nearest to `a / b`, ties going to the even one. -/
def roundHalfEven (a b : Nat) : Nat :=
  if 2 * (a % b) < b ∨ (2 * (a % b) = b ∧ a / b % 2 = 0) then a / b else a / b + 1

/-- The magnitude word nearest to the value `a / b`, ties going to the even one.
The quotient is scaled down by the power of two that leaves `t + 1` significand
bits, and rounded there; a carry out of the significand moves to the next binade
by itself, since the words of consecutive binades are consecutive. -/
def nearest (t a b : Nat) : Nat :=
  let s := Nat.log2 (a / b) - t
  s * 2 ^ t + roundHalfEven a (b * 2 ^ s)

theorem roundHalfEven_mul_right {a b c : Nat} (hc : 0 < c) :
    roundHalfEven (a * c) (b * c) = roundHalfEven a b := by
  have h₁ : 2 * (a % b * c) < b * c ↔ 2 * (a % b) < b := by
    rw [← Nat.mul_assoc]
    exact Nat.mul_lt_mul_right hc
  have h₂ : 2 * (a % b * c) = b * c ↔ 2 * (a % b) = b := by
    rw [← Nat.mul_assoc]
    exact Nat.mul_left_inj (Nat.ne_of_gt hc)
  simp only [roundHalfEven, Nat.mul_mod_mul_right, Nat.mul_div_mul_right _ _ hc, h₁, h₂]

/-- A ratio that is an integer rounds to it. -/
theorem roundHalfEven_mul_self (a : Nat) {b : Nat} (hb : 0 < b) : roundHalfEven (a * b) b = a := by
  simp [roundHalfEven, Nat.mul_mod_left, Nat.mul_div_cancel _ hb, hb]

/-- Rounding depends on the ratio only. -/
theorem nearest_mul_right (t : Nat) {a b c : Nat} (hc : 0 < c) :
    nearest t (a * c) (b * c) = nearest t a b := by
  rw [nearest, nearest, Nat.mul_div_mul_right _ _ hc, Nat.mul_right_comm,
    roundHalfEven_mul_right hc]

/-- A datum is a significand of at most `t + 1` bits times a power of two. -/
theorem exists_magnitude_eq (t k : Nat) :
    ∃ m j, m < 2 ^ (t + 1) ∧ magnitude t k = m * 2 ^ j := by
  unfold magnitude
  split
  · rename_i h
    exact ⟨k, 0, lt_trans h (Nat.pow_lt_pow_right (by decide) (Nat.lt_succ_self t)), by simp⟩
  · refine ⟨_, _, ?_, rfl⟩
    have := Nat.mod_lt k (Nat.two_pow_pos t)
    rw [pow_succ]
    omega

private theorem log2_mul_two_pow {m : Nat} (hm : 0 < m) (j : Nat) :
    Nat.log2 (m * 2 ^ j) = Nat.log2 m + j := by
  have hpow : 0 < m * 2 ^ j := Nat.mul_pos hm (Nat.two_pow_pos j)
  refine (Nat.log2_eq_iff (Nat.ne_of_gt hpow)).mpr ⟨?_, ?_⟩
  · rw [pow_add]
    exact Nat.mul_le_mul_right _ (Nat.log2_self_le (Nat.ne_of_gt hm))
  · rw [Nat.add_right_comm, pow_add]
    exact Nat.mul_lt_mul_of_pos_right Nat.lt_log2_self (Nat.two_pow_pos j)

/-- A significand shifted by its own number of surplus bits fills the binade. -/
private theorem two_pow_le_shifted {t m j s : Nat} (hm : 0 < m)
    (hs : Nat.log2 m + j - t = s) (hpos : 0 < s) : 2 ^ t ≤ m * 2 ^ (j - s) := by
  have hlog : 2 ^ Nat.log2 m ≤ m := Nat.log2_self_le (Nat.ne_of_gt hm)
  rcases Nat.le_total s j with h | h
  · calc 2 ^ t = 2 ^ Nat.log2 m * 2 ^ (j - s) := by rw [← pow_add]; congr 1; omega
      _ ≤ m * 2 ^ (j - s) := Nat.mul_le_mul_right _ hlog
  · calc 2 ^ t ≤ 2 ^ Nat.log2 m := Nat.pow_le_pow_right (by decide) (by omega)
      _ ≤ m := hlog
      _ = m * 2 ^ (j - s) := by rw [Nat.sub_eq_zero_of_le h]; simp

/-- **Representable values are not rounded**, and the word they are written as
reads back as the value. -/
theorem magnitude_nearest {t m : Nat} (j : Nat) (hm : m < 2 ^ (t + 1)) :
    magnitude t (nearest t (m * 2 ^ j) 1) = m * 2 ^ j := by
  rcases Nat.eq_zero_or_pos m with rfl | hpos
  · simp [nearest, roundHalfEven, magnitude]
  have hlogm : Nat.log2 m ≤ t := by
    have := (Nat.log2_lt (Nat.ne_of_gt hpos)).mpr hm
    omega
  have hlog : Nat.log2 (m * 2 ^ j) = Nat.log2 m + j := log2_mul_two_pow hpos j
  obtain ⟨s, hs⟩ : ∃ s, Nat.log2 m + j - t = s := ⟨_, rfl⟩
  have hsj : s ≤ j := by omega
  have hsplit : m * 2 ^ j = m * 2 ^ (j - s) * 2 ^ s := by
    rw [Nat.mul_assoc, ← pow_add, Nat.sub_add_cancel hsj]
  have hword : nearest t (m * 2 ^ j) 1 = s * 2 ^ t + m * 2 ^ (j - s) := by
    rw [nearest, Nat.div_one, hlog, hs]
    simp only [Nat.one_mul]
    rw [hsplit, roundHalfEven_mul_self _ (Nat.two_pow_pos s)]
  have hlt : m * 2 ^ (j - s) < 2 ^ (t + 1) := by
    have hlt : m < 2 ^ (Nat.log2 m + 1) := Nat.lt_log2_self
    calc m * 2 ^ (j - s) < 2 ^ (Nat.log2 m + 1) * 2 ^ (j - s) :=
          Nat.mul_lt_mul_of_pos_right hlt (Nat.two_pow_pos _)
      _ = 2 ^ (Nat.log2 m + 1 + (j - s)) := (pow_add 2 _ _).symm
      _ ≤ 2 ^ (t + 1) := Nat.pow_le_pow_right (by decide) (by omega)
  rw [hword, magnitude, hsplit]
  rw [pow_succ] at hlt
  rcases Nat.eq_zero_or_pos s with rfl | hspos
  · -- The first binade and the subnormals: the word is the value.
    simp only [Nat.zero_mul, Nat.zero_add, pow_zero, Nat.mul_one]
    split
    · rfl
    · rename_i h
      have hdiv : m * 2 ^ (j - 0) / 2 ^ t = 1 := Nat.div_eq_of_lt_le (by omega) (by omega)
      have hmod := Nat.div_add_mod (m * 2 ^ (j - 0)) (2 ^ t)
      rw [hdiv] at hmod ⊢
      simp only [Nat.sub_self, pow_zero, Nat.mul_one] at hmod ⊢
      omega
  · have hge := two_pow_le_shifted hpos hs hspos
    have hdiv : (s * 2 ^ t + m * 2 ^ (j - s)) / 2 ^ t = s + 1 := by
      rw [Nat.add_comm, Nat.add_mul_div_right _ _ (Nat.two_pow_pos t)]
      have : m * 2 ^ (j - s) / 2 ^ t = 1 := Nat.div_eq_of_lt_le (by omega) (by omega)
      omega
    have hmod := Nat.div_add_mod (s * 2 ^ t + m * 2 ^ (j - s)) (2 ^ t)
    rw [hdiv] at hmod
    rw [if_neg, hdiv, Nat.add_sub_cancel]
    · congr 1
      have : 2 ^ t * (s + 1) = s * 2 ^ t + 2 ^ t := by ring
      omega
    · intro h
      have : 2 ^ t ≤ s * 2 ^ t := Nat.le_mul_of_pos_left _ hspos
      omega

/-- Every word is the one its own value is written as. -/
theorem nearest_magnitude (t k : Nat) : nearest t (magnitude t k) 1 = k := by
  unfold magnitude
  split
  · rename_i h
    have hlog : Nat.log2 k ≤ t := by
      rcases Nat.eq_zero_or_pos k with rfl | hpos
      · simp
      · exact Nat.le_of_lt ((Nat.log2_lt (Nat.ne_of_gt hpos)).mpr h)
    rw [nearest, Nat.div_one, Nat.sub_eq_zero_of_le hlog]
    simpa using roundHalfEven_mul_self k Nat.one_pos
  · rename_i h
    have hmod := Nat.mod_lt k (Nat.two_pow_pos t)
    have hdiv := Nat.div_add_mod k (2 ^ t)
    have hk : 0 < k / 2 ^ t := Nat.div_pos (Nat.le_of_not_lt h) (Nat.two_pow_pos t)
    have hlog : Nat.log2 (2 ^ t + k % 2 ^ t) = t :=
      (Nat.log2_eq_iff (by positivity)).mpr ⟨by omega, by rw [pow_succ]; omega⟩
    rw [nearest, Nat.div_one, log2_mul_two_pow (by positivity), hlog,
      Nat.add_sub_cancel_left, Nat.one_mul, roundHalfEven_mul_self _ (Nat.two_pow_pos _)]
    obtain ⟨e, he⟩ : ∃ e, k / 2 ^ t = e + 1 := ⟨_, (Nat.succ_pred_eq_of_pos hk).symm⟩
    rw [he] at hdiv ⊢
    rw [Nat.add_sub_cancel]
    have : 2 ^ t * (e + 1) = e * 2 ^ t + 2 ^ t := by ring
    omega

/-- A larger word has a larger value. -/
theorem magnitude_strictMono (t : Nat) : StrictMono (magnitude t) := by
  refine strictMono_nat_of_lt_succ fun k => ?_
  have hpos := Nat.two_pow_pos t
  have hdiv := Nat.div_add_mod k (2 ^ t)
  have hmod := Nat.mod_lt k hpos
  unfold magnitude
  rcases Nat.lt_trichotomy (k + 1) (2 ^ t) with h | h | h
  · simp only [h, Nat.lt_of_succ_lt h, if_true, Nat.lt_succ_self]
  · simp [← h, Nat.div_self]
  · obtain ⟨e, he⟩ : ∃ e, k / 2 ^ t = e + 1 :=
      ⟨_, (Nat.succ_pred_eq_of_pos (Nat.div_pos (by omega) hpos)).symm⟩
    rw [if_neg (by omega), if_neg (by omega), he, Nat.add_sub_cancel]
    rcases Nat.lt_or_ge (k % 2 ^ t + 1) (2 ^ t) with hr | hr
    · -- The successor lies in the same binade.
      have hq : (k + 1) / 2 ^ t = e + 1 := by
        refine Nat.div_eq_of_lt_le ?_ ?_
        · rw [← he, Nat.mul_comm]; omega
        · rw [Nat.succ_mul, ← he, Nat.mul_comm]; omega
      have hm := Nat.div_add_mod (k + 1) (2 ^ t)
      rw [hq] at hm ⊢
      rw [he] at hdiv
      exact Nat.mul_lt_mul_of_pos_right (by omega) (Nat.two_pow_pos e)
    · -- The successor starts the next one.
      have hk : k + 1 = 2 ^ t * (e + 2) := by
        rw [he] at hdiv
        rw [Nat.mul_add] at hdiv ⊢
        omega
      rw [hk, Nat.mul_div_cancel_left _ hpos, Nat.mul_mod_right, Nat.add_zero,
        show e + 2 - 1 = e + 1 from rfl, pow_succ, ← Nat.mul_assoc, Nat.mul_right_comm]
      exact Nat.mul_lt_mul_of_pos_right (by omega) (Nat.two_pow_pos e)

/-- How far up a value can be rounded. -/
theorem nearest_le (t a : Nat) : nearest t a 1 ≤ (Nat.log2 a - t + 2) * 2 ^ t := by
  obtain ⟨s, hs⟩ : ∃ s, Nat.log2 a - t = s := ⟨_, rfl⟩
  have hlt : a / 2 ^ s < 2 ^ (t + 1) := by
    refine Nat.div_lt_of_lt_mul ?_
    calc a < 2 ^ (Nat.log2 a + 1) := Nat.lt_log2_self
      _ ≤ 2 ^ s * 2 ^ (t + 1) := by
        rw [← pow_add]
        exact Nat.pow_le_pow_right (by decide) (by omega)
  have hround : roundHalfEven a (2 ^ s) ≤ 2 ^ (t + 1) := by
    unfold roundHalfEven
    split <;> omega
  rw [nearest, Nat.div_one, hs, Nat.one_mul]
  rw [pow_succ] at hround
  have : (s + 2) * 2 ^ t = s * 2 ^ t + 2 ^ t * 2 := by ring
  omega

/-! ## Data -/

/-- A datum of a binary format. -/
structure Binary (f : Format) where
  sign : Bool
  /-- The encoding without its sign bit. -/
  mag : Nat
  mag_lt : mag < 2 ^ (f.w + f.t)
deriving DecidableEq

/-- C's `float`. -/
abbrev Single := Binary .binary32

/-- C's `double`. -/
abbrev Double := Binary .binary64

namespace Binary

variable {f g : Format}

/-- `std::isfinite`. -/
def isFinite (x : Binary f) : Bool := decide (x.mag < f.infinity)

def isNaN (x : Binary f) : Bool := decide (f.infinity < x.mag)

/-- The value in units of the least subnormal.  Infinity is given the value of
the power of two it stands in the place of, which orders it correctly. -/
def scaled (x : Binary f) : Int :=
  if x.sign then -(magnitude f.t x.mag : Int) else magnitude f.t x.mag

/-- `x < y`; false if either is not a number. -/
def lt (x y : Binary f) : Bool := !x.isNaN && !y.isNaN && decide (x.scaled < y.scaled)

/-- `-x`. -/
def neg (x : Binary f) : Binary f := { x with sign := !x.sign }

/-- The datum nearest to a ratio, infinity if that exceeds the format. -/
def ofRatio (f : Format) (sign : Bool) (a b : Nat) : Binary f :=
  ⟨sign, min (nearest f.t a b) f.infinity, Nat.lt_of_le_of_lt (Nat.min_le_right _ _) f.infinity_lt⟩

/-- Conversion between formats, rounding to nearest.  A NaN becomes the NaN
whose bits are all set; nothing looks at a NaN's payload. -/
def convert (g : Format) (x : Binary f) : Binary g :=
  if x.isNaN then
    ⟨x.sign, 2 ^ (g.w + g.t) - 1, Nat.sub_lt (Nat.two_pow_pos _) Nat.one_pos⟩
  else if x.isFinite then
    ofRatio g x.sign (magnitude f.t x.mag * 2 ^ g.unit) (2 ^ f.unit)
  else
    ⟨x.sign, g.infinity, g.infinity_lt⟩

/-- Conversion from the integers, rounding to nearest. -/
def ofInt (f : Format) (n : Int) : Binary f :=
  ofRatio f (decide (n < 0)) (n.natAbs * 2 ^ f.unit) 1

/-- Whether a finite datum is an integer: `modf` leaves no fraction. -/
def isIntegral (x : Binary f) : Bool := x.isFinite && magnitude f.t x.mag % 2 ^ f.unit == 0

/-- Truncation towards zero. -/
def toInt (x : Binary f) : Int := x.scaled.tdiv (2 ^ f.unit)

/-- `std::numeric_limits<T>::max()`: the word below infinity. -/
def max (f : Format) : Binary f :=
  ⟨false, f.infinity - 1, Nat.lt_of_le_of_lt (Nat.sub_le _ _) f.infinity_lt⟩

theorem isNaN_of_isFinite {x : Binary f} (h : x.isFinite = true) : x.isNaN = false :=
  decide_eq_false (Nat.lt_asymm (of_decide_eq_true h))

@[simp] theorem sign_convert (x : Binary f) : (x.convert g).sign = x.sign := by
  unfold convert ofRatio
  split
  · rfl
  · split <;> rfl

/-- Integers too small to overflow convert to finite data. -/
theorem isFinite_ofInt {n : Int} {e : Nat} (hn : n.natAbs < 2 ^ e)
    (he : e + f.unit - f.t + 2 < 2 ^ f.w - 1) : (ofInt f n).isFinite = true := by
  have hlog : Nat.log2 (n.natAbs * 2 ^ f.unit) ≤ e + f.unit := by
    rcases Nat.eq_zero_or_pos n.natAbs with h | h
    · rw [h, Nat.zero_mul]
      exact Nat.zero_le _
    · have := (Nat.log2_lt (Nat.ne_of_gt h)).mpr hn
      rw [log2_mul_two_pow h]
      omega
  refine decide_eq_true (Nat.lt_of_le_of_lt (Nat.min_le_left _ _) ?_)
  calc nearest f.t (n.natAbs * 2 ^ f.unit) 1
      ≤ (Nat.log2 (n.natAbs * 2 ^ f.unit) - f.t + 2) * 2 ^ f.t := nearest_le _ _
    _ < f.infinity := Nat.mul_lt_mul_of_pos_right (by omega) (Nat.two_pow_pos _)

/-- Integers of no more bits than the significand are represented exactly. -/
theorem scaled_ofInt {n : Int} (hn : n.natAbs < 2 ^ (f.t + 1))
    (he : f.t + 1 + f.unit - f.t + 2 < 2 ^ f.w - 1) : (ofInt f n).scaled = n * 2 ^ f.unit := by
  have hfinite : nearest f.t (n.natAbs * 2 ^ f.unit) 1 < f.infinity := by
    have hlt := of_decide_eq_true (isFinite_ofInt hn he)
    exact (min_lt_iff.mp hlt).resolve_right (Nat.lt_irrefl _)
  have hmag : magnitude f.t (ofInt f n).mag = n.natAbs * 2 ^ f.unit := by
    have hmin : (ofInt f n).mag = nearest f.t (n.natAbs * 2 ^ f.unit) 1 :=
      Nat.min_eq_left (Nat.le_of_lt hfinite)
    rw [hmin, magnitude_nearest f.unit hn]
  have hsign : (ofInt f n).sign = decide (n < 0) := rfl
  rw [scaled, hmag, hsign, Nat.cast_mul, Nat.cast_pow]
  by_cases h : n < 0
  · rw [decide_eq_true h, if_pos rfl, ← Int.neg_mul, Int.ofNat_natAbs_of_nonpos (Int.le_of_lt h),
      Int.neg_neg]
    rfl
  · rw [decide_eq_false h, if_neg Bool.false_ne_true, Int.natAbs_of_nonneg (Int.not_lt.mp h)]
    rfl

/-! ## Widening -/

section Widening

variable (ht : f.t ≤ g.t) (hw : f.w ≤ g.w)
include ht hw

theorem unit_le_unit : f.unit ≤ g.unit := by
  have := Nat.pow_le_pow_right (show 0 < 2 by decide) (Nat.sub_le_sub_right hw 1)
  unfold Format.unit
  omega

/-- The largest finite value of the smaller format is still finite in the larger
one. -/
private theorem widened_lt_infinity {k : Nat} (hk : k < f.infinity) :
    magnitude f.t k * 2 ^ (g.unit - f.unit) < magnitude g.t g.infinity := by
  have hinf (h : Format) : magnitude h.t h.infinity = 2 ^ (h.t + (2 ^ h.w - 2)) := by
    have h4 : 2 ^ 2 ≤ 2 ^ h.w := Nat.pow_le_pow_right (by decide) h.w_pos
    have hge : ¬ (2 ^ h.w - 1) * 2 ^ h.t < 2 ^ h.t := by
      have : 1 * 2 ^ h.t ≤ (2 ^ h.w - 1) * 2 ^ h.t := Nat.mul_le_mul_right _ (by omega)
      omega
    rw [magnitude, Format.infinity, if_neg hge, Nat.mul_mod_left, Nat.add_zero,
      Nat.mul_div_cancel _ (Nat.two_pow_pos h.t), ← pow_add]
    rfl
  have hlt := magnitude_strictMono f.t hk
  rw [hinf] at hlt ⊢
  calc magnitude f.t k * 2 ^ (g.unit - f.unit)
      < 2 ^ (f.t + (2 ^ f.w - 2)) * 2 ^ (g.unit - f.unit) :=
        Nat.mul_lt_mul_of_pos_right hlt (Nat.two_pow_pos _)
    _ = 2 ^ (f.t + (2 ^ f.w - 2) + (g.unit - f.unit)) := (pow_add 2 _ _).symm
    _ ≤ 2 ^ (g.t + (2 ^ g.w - 2)) := by
        refine Nat.pow_le_pow_right (by decide) ?_
        have hhalf (h : Format) : 2 ^ h.w = 2 ^ (h.w - 1) * 2 := by
          rw [← pow_succ, Nat.sub_add_cancel (Nat.le_of_succ_le h.w_pos)]
        have h2 : 2 ^ 1 ≤ 2 ^ (f.w - 1) :=
          Nat.pow_le_pow_right (by decide) (Nat.sub_le_sub_right f.w_pos 1)
        have hle : 2 ^ (f.w - 1) ≤ 2 ^ (g.w - 1) :=
          Nat.pow_le_pow_right (by decide) (Nat.sub_le_sub_right hw 1)
        rw [hhalf f, hhalf g]
        unfold Format.unit
        omega

/-- Widening a finite datum does not round and does not overflow. -/
theorem magnitude_convert {x : Binary f} (hx : x.isFinite = true) :
    (x.convert g).isFinite = true ∧
      magnitude g.t (x.convert g).mag = magnitude f.t x.mag * 2 ^ (g.unit - f.unit) := by
  have hlt : x.mag < f.infinity := of_decide_eq_true hx
  have hnan : x.isNaN = false := isNaN_of_isFinite hx
  have hunit := unit_le_unit ht hw
  obtain ⟨m, j, hm, hj⟩ := exists_magnitude_eq f.t x.mag
  have hm' : m < 2 ^ (g.t + 1) :=
    Nat.lt_of_lt_of_le hm (Nat.pow_le_pow_right (by decide) (Nat.succ_le_succ ht))
  have hword : nearest g.t (magnitude f.t x.mag * 2 ^ g.unit) (2 ^ f.unit) =
      nearest g.t (m * 2 ^ (j + (g.unit - f.unit))) 1 := by
    rw [hj, show m * 2 ^ j * 2 ^ g.unit = m * 2 ^ (j + (g.unit - f.unit)) * 2 ^ f.unit by
      rw [Nat.mul_assoc, Nat.mul_assoc, ← pow_add, ← pow_add]
      congr 2
      omega]
    simpa using nearest_mul_right g.t (a := m * 2 ^ (j + (g.unit - f.unit))) (b := 1)
      (Nat.two_pow_pos f.unit)
  have hval : magnitude g.t (nearest g.t (magnitude f.t x.mag * 2 ^ g.unit) (2 ^ f.unit)) =
      magnitude f.t x.mag * 2 ^ (g.unit - f.unit) := by
    rw [hword, magnitude_nearest _ hm', hj, pow_add, Nat.mul_assoc]
  have hfin : nearest g.t (magnitude f.t x.mag * 2 ^ g.unit) (2 ^ f.unit) < g.infinity := by
    rw [← (magnitude_strictMono g.t).lt_iff_lt, hval]
    exact widened_lt_infinity ht hw hlt
  have hmag : (x.convert g).mag =
      nearest g.t (magnitude f.t x.mag * 2 ^ g.unit) (2 ^ f.unit) := by
    simp only [convert, hnan, hx, ofRatio, Bool.false_eq_true, if_false, if_true]
    exact Nat.min_eq_left (Nat.le_of_lt hfin)
  exact ⟨by rw [isFinite, hmag]; exact decide_eq_true hfin, by rw [hmag, hval]⟩

/-- Widening keeps the value. -/
theorem scaled_convert {x : Binary f} (hx : x.isFinite = true) :
    (x.convert g).scaled = x.scaled * 2 ^ (g.unit - f.unit) := by
  rw [scaled, scaled, sign_convert, (magnitude_convert ht hw hx).2]
  split
  · push_cast
    ring
  · push_cast
    rfl

/-- **Narrowing undoes widening** on finite data. -/
theorem convert_convert {x : Binary f} (hx : x.isFinite = true) :
    (x.convert g).convert f = x := by
  obtain ⟨hfin, hval⟩ := magnitude_convert ht hw hx
  have hlt : x.mag < f.infinity := of_decide_eq_true hx
  have hnan : (x.convert g).isNaN = false := isNaN_of_isFinite hfin
  have hword : nearest f.t (magnitude g.t (x.convert g).mag * 2 ^ f.unit) (2 ^ g.unit) = x.mag := by
    rw [hval, Nat.mul_assoc, ← pow_add, Nat.sub_add_cancel (unit_le_unit ht hw)]
    have := nearest_mul_right f.t (a := magnitude f.t x.mag) (b := 1) (Nat.two_pow_pos g.unit)
    rw [Nat.one_mul] at this
    rw [this, nearest_magnitude]
  rw [convert, if_neg (by rw [hnan]; exact Bool.false_ne_true), if_pos hfin]
  simp only [ofRatio, hword, sign_convert, Nat.min_eq_left (Nat.le_of_lt hlt)]

end Widening

end Binary

end Ros1Tools.Lib
