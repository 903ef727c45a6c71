import Mathlib.Data.Rat.Floor
import Ros1Tools.Lib.Decimal
import Ros1Tools.Lib.Machine
import Ros1Tools.Lib.Pattern

/-!
# The target of a clock wait

`clockTarget` reads decimal seconds and rounds them up to a nanosecond of ROS time.  A text is
read with one character a byte.  The arithmetic is that of 64-bit unsigned integers, and the
computation carries whether a step of it overflowed.
-/

namespace Ros1Tools.Clock

open Lib Lib.Pattern

/-- A computation that may throw `std::invalid_argument`. -/
abbrev Reader (α : Type) : Type := ExceptT String Arith α

/-- `UINT32_MAX`. -/
def uint32Max : Nat := 4294967295

def notDigit (digit : Char) : Bool := decide (digit < '0') || decide ('9' < digit)

/-- `number * 10 + static_cast<unsigned>(digit - '0')`. -/
def appendDigit (number : Word .uint64) (digit : Char) : Arith (Word .uint64) := do
  let scaled ← Arith.mul number 10
  Arith.add scaled (.wrap _ (digit.toNat - '0'.toNat : Nat))

/-- The loop over the digits in front of the point. -/
def wholeSeconds : List Char → Word .uint64 → Reader (Word .uint64)
  | [], seconds => pure seconds
  | digit :: rest, seconds =>
      if notDigit digit ∨ (uint32Max / 10 : Nat) < seconds.val then
        throw "target is outside ROS time"
      else do
        let seconds ← appendDigit seconds digit
        if uint32Max < seconds.val then throw "target is outside ROS time"
        else wholeSeconds rest seconds

/-- The loop over the digits behind the point, from the `i`-th on. -/
def fractionNanos : List Char → Nat → Word .uint64 → Bool → Reader (Word .uint64 × Bool)
  | [], _, nanos, roundUp => pure (nanos, roundUp)
  | digit :: rest, i, nanos, roundUp =>
      if notDigit digit then throw "invalid decimal target"
      else if i < 9 then do
        let nanos ← appendDigit nanos digit
        fractionNanos rest (i + 1) nanos roundUp
      else fractionNanos rest (i + 1) nanos (roundUp || digit != '0')

/-- The loop that scales a short fraction. -/
def scaleNanos : Nat → Word .uint64 → Arith (Word .uint64)
  | 0, nanos => pure nanos
  | missing + 1, nanos => do
      let nanos ← Arith.mul nanos 10
      scaleNanos missing nanos

/-- The nanoseconds of what follows the whole seconds. -/
def nanosOf : List Char → Reader (Word .uint64)
  | [] => pure 0
  | _ :: fraction =>
      if fraction = [] then throw "target has an empty fraction"
      else do
        let (nanos, roundUp) ← fractionNanos fraction 0 0 false
        let nanos ← scaleNanos (9 - fraction.length) nanos
        Arith.add nanos (if roundUp then 1 else 0)

/-- `clockTarget`. -/
def clockTarget (text : String) : Reader (Word .uint64) :=
  let whole := text.toList.takeWhile (· != '.')
  if whole = [] ∨ 128 < text.length then
    throw "target must be bounded nonnegative decimal seconds"
  else do
    let seconds ← wholeSeconds whole 0
    let nanos ← nanosOf (text.toList.dropWhile (· != '.'))
    if seconds.val = uint32Max ∧ nanos.val ≠ 0 then throw "target is outside ROS time"
    else do
      let scaled ← Arith.mul seconds 1000000000
      Arith.add scaled nanos

/-! ## The texts -/

/-- `[0-9]+`. -/
def digitsPattern : Language Char := plus (cls (range '0' '9'))

/-- `[0-9]+(\.[0-9]+)?`. -/
def targetPattern : Language Char := digitsPattern * opt (text ['.'] * digitsPattern)

/-- The seconds that such a text denotes. -/
def decimalSeconds (cs : List Char) : ℚ :=
  let whole := cs.takeWhile (· != '.')
  let fraction := (cs.dropWhile (· != '.')).tail
  Nat.ofDigitChars 10 whole 0 + Nat.ofDigitChars 10 fraction 0 / 10 ^ fraction.length

theorem mem_digitsPattern {cs : List Char} :
    cs ∈ digitsPattern ↔ cs ≠ [] ∧ ∀ c ∈ cs, c.isDigit = true := by
  simp only [digitsPattern, mem_plus_cls, range_digit]

/-- Digits, and digits behind the point if there is one. -/
theorem mem_targetPattern {cs : List Char} :
    cs ∈ targetPattern ↔ cs.takeWhile (· != '.') ∈ digitsPattern ∧
      (cs.dropWhile (· != '.') = [] ∨
        ∃ fraction ∈ digitsPattern, cs.dropWhile (· != '.') = '.' :: fraction) := by
  have hdigit : ∀ digits ∈ digitsPattern, ∀ c ∈ digits, (c != '.') = true := by
    intro digits hdigits c hc
    have hc := (mem_digitsPattern.mp hdigits).2 c hc
    rw [bne_iff_ne]
    rintro rfl
    exact absurd hc (by decide)
  rw [targetPattern, Language.mem_mul]
  constructor
  · rintro ⟨whole, hwhole, rest, hrest, rfl⟩
    rcases hrest with rfl | hrest
    · rw [List.append_nil, List.takeWhile_eq_self_iff.mpr (hdigit _ hwhole),
        List.dropWhile_eq_nil_iff.mpr (hdigit _ hwhole)]
      exact ⟨hwhole, .inl rfl⟩
    · obtain ⟨fraction, hfraction, rfl⟩ := mem_text_mul.mp hrest
      rw [List.takeWhile_append_of_pos (hdigit _ hwhole),
        List.dropWhile_append_of_pos (hdigit _ hwhole)]
      refine ⟨?_, .inr ⟨fraction, hfraction, rfl⟩⟩
      rw [List.singleton_append, List.takeWhile_cons_of_neg (by decide), List.append_nil]
      exact hwhole
  · rintro ⟨hwhole, hrest⟩
    refine ⟨_, hwhole, cs.dropWhile (· != '.'), ?_, List.takeWhile_append_dropWhile⟩
    rcases hrest with hnil | ⟨fraction, hfraction, hpoint⟩
    · exact .inl hnil
    · exact .inr (mem_text_mul.mpr ⟨fraction, hfraction, hpoint⟩)

/-! ## The loops -/

theorem notDigit_eq (c : Char) : notDigit c = !c.isDigit := by
  rw [← range_digit, notDigit, range, Bool.not_and, ← decide_not, ← decide_not]
  simp only [Char.not_le]

/-- A number of the program is one that is known. -/
theorem exists_word (n : Nat) (h : n ≤ 18446744073709551615) : ∃ w : Word .uint64, w.val = n :=
  ⟨⟨n, Int.natCast_nonneg n, by rw [Range.uint64_hi]; omega⟩, rfl⟩

theorem mul_eq_pure {a b : Word .uint64} {m n : Nat} (ha : a.val = m) (hb : b.val = n)
    (h : m * n ≤ 18446744073709551615) :
    ∃ w : Word .uint64, Arith.mul a b = pure w ∧ w.val = (m * n : Nat) := by
  obtain ⟨w, hw⟩ := exists_word (m * n) h
  exact ⟨w, Arith.ofInt_eq w (by rw [hw, ha, hb, Nat.cast_mul]), hw⟩

theorem add_eq_pure {a b : Word .uint64} {m n : Nat} (ha : a.val = m) (hb : b.val = n)
    (h : m + n ≤ 18446744073709551615) :
    ∃ w : Word .uint64, Arith.add a b = pure w ∧ w.val = (m + n : Nat) := by
  obtain ⟨w, hw⟩ := exists_word (m + n) h
  exact ⟨w, Arith.ofInt_eq w (by rw [hw, ha, hb, Nat.cast_add]), hw⟩

theorem appendDigit_eq_pure {number : Word .uint64} {n : Nat} (hn : number.val = n)
    (h : n < 1844674407370955161) {digit : Char} (hdigit : digit.isDigit = true) :
    ∃ w, appendDigit number digit = pure w ∧
      w.val = (10 * n + (digit.toNat - '0'.toNat) : Nat) := by
  have hlt := (digitChar_toNat hdigit).1
  have hvalue : (Word.wrap .uint64 (digit.toNat - '0'.toNat : Nat)).val =
      (digit.toNat - '0'.toNat : Nat) :=
    Word.wrap_val (Int.natCast_nonneg _) (by rw [Range.uint64_hi]; omega)
  obtain ⟨scaled, hscaled, hs⟩ := mul_eq_pure hn (b := 10) (n := 10) rfl (by omega)
  obtain ⟨w, hw, hval⟩ := add_eq_pure hs hvalue (by omega)
  refine ⟨w, ?_, by rw [hval, Nat.mul_comm]⟩
  rw [appendDigit, hscaled, pure_bind, hw]

theorem le_ofDigitChars {cs : List Char} (h : ∀ c ∈ cs, c.isDigit = true) (n : Nat) :
    n ≤ Nat.ofDigitChars 10 cs n :=
  le_trans (Nat.le_mul_of_pos_right n (Nat.pow_pos (by decide))) (ofDigitChars_bounds h n).1

/-- An exact step leaves nothing behind. -/
theorem liftM_pure_bind {α β : Type} (a : α) (f : α → Reader β) :
    (liftM (pure a : Arith α) : Reader α) >>= f = f a := rfl

section Loops

variable {cs : List Char} {number : Word .uint64} {n : Nat}

theorem zero_val : (0 : Word .uint64).val = ((0 : Nat) : Int) := rfl

theorem wholeSeconds_eq_pure (hn : number.val = n) (hdigits : ∀ c ∈ cs, c.isDigit = true)
    (hle : Nat.ofDigitChars 10 cs n ≤ uint32Max) :
    ∃ w, wholeSeconds cs number = pure w ∧ w.val = Nat.ofDigitChars 10 cs n := by
  induction cs generalizing number n with
  | nil => exact ⟨number, rfl, hn⟩
  | cons digit rest ih =>
      obtain ⟨hdigit, hrest⟩ := List.forall_mem_cons.mp hdigits
      rw [Nat.ofDigitChars_cons] at hle ⊢
      -- what is read so far is at most what is read in the end
      have hnext := le_trans (le_ofDigitChars hrest _) hle
      have hten : 10 * n ≤ uint32Max := le_trans (Nat.le_add_right _ _) hnext
      rw [uint32Max] at hten
      obtain ⟨next, happend, hval⟩ := appendDigit_eq_pure hn (by omega) hdigit
      obtain ⟨w, hw, hresult⟩ := ih hval hrest hle
      have hfirst : ¬(notDigit digit = true ∨ ((uint32Max / 10 : Nat) : Int) < number.val) := by
        rw [notDigit_eq, hdigit, hn, Int.ofNat_lt, uint32Max]
        exact not_or.mpr ⟨by decide, by omega⟩
      have hsecond : ¬((uint32Max : Nat) : Int) < next.val := by
        rw [hval, Int.ofNat_lt]
        exact not_lt.mpr hnext
      refine ⟨w, ?_, hresult⟩
      rw [wholeSeconds, if_neg hfirst, happend, liftM_pure_bind, if_neg hsecond, hw]

theorem wholeSeconds_eq_throw (hn : number.val = n) (hle : n ≤ uint32Max)
    (h : ¬((∀ c ∈ cs, c.isDigit = true) ∧ Nat.ofDigitChars 10 cs n ≤ uint32Max)) :
    wholeSeconds cs number = throw "target is outside ROS time" := by
  induction cs generalizing number n with
  | nil => exact absurd ⟨List.forall_mem_nil _, hle⟩ h
  | cons digit rest ih =>
      rw [wholeSeconds]
      split
      next hfirst => rfl
      next hfirst =>
        obtain ⟨hdigit, hguard⟩ := not_or.mp hfirst
        rw [notDigit_eq, Bool.not_eq_true, Bool.not_eq_false'] at hdigit
        rw [hn, Int.ofNat_lt, uint32Max] at hguard
        obtain ⟨next, happend, hval⟩ := appendDigit_eq_pure hn (by omega) hdigit
        rw [happend, liftM_pure_bind]
        split
        next => rfl
        next hsecond =>
          rw [hval, Int.ofNat_lt, not_lt] at hsecond
          refine ih hval hsecond fun hrest => h ⟨List.forall_mem_cons.mpr ⟨hdigit, hrest.1⟩, ?_⟩
          rw [Nat.ofDigitChars_cons]
          exact hrest.2

/-- Behind the ninth digit only a digit that is not zero is noticed. -/
theorem fractionNanos_late {i : Nat} (hi : 9 ≤ i) (roundUp : Bool) :
    fractionNanos cs i number roundUp =
      if cs.all Char.isDigit then pure (number, roundUp || cs.any (· != '0'))
      else throw "invalid decimal target" := by
  induction cs generalizing i roundUp with
  | nil => simp [fractionNanos]
  | cons digit rest ih =>
      rw [fractionNanos, notDigit_eq, if_neg (not_lt.mpr hi), ih (Nat.le_succ_of_le hi),
        List.all_cons, List.any_cons, Bool.or_assoc]
      cases digit.isDigit <;> rfl

theorem appendDigit_lt {i : Nat} (hlt : n < 10 ^ i) {digit : Char} (hdigit : digit.isDigit = true) :
    10 * n + (digit.toNat - '0'.toNat) < 10 ^ (i + 1) := by
  have hdigit := (digitChar_toNat hdigit).1
  rw [Nat.pow_succ]
  omega

theorem lt_of_lt_pow {i : Nat} (hlt : n < 10 ^ i) (hi : i ≤ 9) : n < 1844674407370955161 :=
  lt_of_lt_of_le hlt (le_trans (Nat.pow_le_pow_right (by decide) hi) (by decide))

theorem fractionNanos_eq_throw {i : Nat} (hn : number.val = n) (hlt : n < 10 ^ i) (hi : i ≤ 9)
    (h : cs.all Char.isDigit = false) (roundUp : Bool) :
    fractionNanos cs i number roundUp = throw "invalid decimal target" := by
  induction cs generalizing i number n with
  | nil => simp at h
  | cons digit rest ih =>
      rcases Nat.lt_or_eq_of_le hi with hi | rfl
      · rw [fractionNanos, notDigit_eq, if_pos hi]
        cases hdigit : digit.isDigit with
        | false => rfl
        | true =>
            rw [List.all_cons, hdigit, Bool.true_and] at h
            obtain ⟨next, happend, hval⟩ := appendDigit_eq_pure hn (lt_of_lt_pow hlt hi.le) hdigit
            rw [Bool.not_true, if_neg Bool.false_ne_true, happend, liftM_pure_bind]
            exact ih hval (appendDigit_lt hlt hdigit) hi h
      · rw [fractionNanos_late le_rfl, h]
        rfl

theorem fractionNanos_eq_pure {i : Nat} (hn : number.val = n) (hlt : n < 10 ^ i) (hi : i ≤ 9)
    (h : cs.all Char.isDigit = true) (roundUp : Bool) :
    ∃ w, fractionNanos cs i number roundUp =
        pure (w, roundUp || (cs.drop (9 - i)).any (· != '0')) ∧
      w.val = Nat.ofDigitChars 10 (cs.take (9 - i)) n := by
  induction cs generalizing i number n with
  | nil => exact ⟨number, by simp [fractionNanos], by simpa using hn⟩
  | cons digit rest ih =>
      rcases Nat.lt_or_eq_of_le hi with hi | rfl
      · obtain ⟨hdigit, hrest⟩ := Bool.and_eq_true_iff.mp (List.all_cons ▸ h)
        obtain ⟨next, happend, hval⟩ := appendDigit_eq_pure hn (lt_of_lt_pow hlt hi.le) hdigit
        obtain ⟨w, hw, hresult⟩ := ih hval (appendDigit_lt hlt hdigit) hi hrest
        have hindex : 9 - i = 9 - (i + 1) + 1 := by omega
        rw [hindex, List.drop_succ_cons, List.take_succ_cons, Nat.ofDigitChars_cons]
        refine ⟨w, ?_, hresult⟩
        rw [fractionNanos, notDigit_eq, hdigit, if_pos hi, Bool.not_true,
          if_neg Bool.false_ne_true, happend, liftM_pure_bind, hw]
      · exact ⟨number, by rw [fractionNanos_late le_rfl, h]; rfl, hn⟩

theorem scaleNanos_eq_pure {missing : Nat} (hn : number.val = n)
    (h : n * 10 ^ missing ≤ 18446744073709551615) :
    ∃ w, scaleNanos missing number = pure w ∧ w.val = (n * 10 ^ missing : Nat) := by
  induction missing generalizing number n with
  | zero => exact ⟨number, rfl, by rw [hn, Nat.pow_zero, Nat.mul_one]⟩
  | succ missing ih =>
      rw [Nat.pow_succ', ← Nat.mul_assoc] at h ⊢
      have hten := le_trans (Nat.le_mul_of_pos_right _ (Nat.pow_pos (n := missing) (by decide))) h
      obtain ⟨scaled, hscaled, hs⟩ := mul_eq_pure hn (b := 10) (n := 10) rfl hten
      obtain ⟨w, hw, hval⟩ := ih hs h
      exact ⟨w, by rw [scaleNanos, hscaled, pure_bind, hw], hval⟩

end Loops

/-! ## Rounding up -/

/-- The nanoseconds of a fraction, rounded up. -/
def ceilNanos (fraction : List Char) : Nat :=
  Nat.ofDigitChars 10 (fraction.take 9) 0 * 10 ^ (9 - fraction.length) +
    if (fraction.drop 9).any (· != '0') then 1 else 0

theorem ofDigitChars_pos_iff {cs : List Char} (h : ∀ c ∈ cs, c.isDigit = true) :
    0 < Nat.ofDigitChars 10 cs 0 ↔ cs.any (· != '0') = true := by
  induction cs with
  | nil => simp
  | cons digit rest ih =>
      obtain ⟨hdigit, hrest⟩ := List.forall_mem_cons.mp h
      have hchar := (digitChar_toNat hdigit).2
      rw [Nat.ofDigitChars_cons, Nat.mul_zero, Nat.zero_add, List.any_cons, Bool.or_eq_true,
        bne_iff_ne]
      by_cases hzero : digit = '0'
      · subst hzero
        exact (ih hrest).trans (or_iff_right (not_not_intro rfl)).symm
      · refine iff_of_true (Nat.lt_of_lt_of_le ?_ (le_ofDigitChars hrest _)) (.inl hzero)
        refine Nat.pos_of_ne_zero fun hdifference => hzero ?_
        rw [← hchar, hdifference]
        rfl

section Ceiling

variable {fraction : List Char}

theorem scaled_lt (h : ∀ c ∈ fraction, c.isDigit = true) :
    Nat.ofDigitChars 10 (fraction.take 9) 0 * 10 ^ (9 - fraction.length) < 10 ^ 9 := by
  have hdigits : ∀ c ∈ fraction.take 9, c.isDigit = true :=
    fun c hc => h c (List.mem_of_mem_take hc)
  have hlt := (ofDigitChars_bounds hdigits 0).2
  rw [Nat.zero_add, Nat.one_mul, List.length_take] at hlt
  calc _ < 10 ^ min 9 fraction.length * 10 ^ (9 - fraction.length) :=
        Nat.mul_lt_mul_of_pos_right hlt (Nat.pow_pos (by decide))
    _ = 10 ^ (min 9 fraction.length + (9 - fraction.length)) := (Nat.pow_add _ _ _).symm
    _ = 10 ^ 9 := by
        congr 1
        omega

theorem ceilNanos_le (h : ∀ c ∈ fraction, c.isDigit = true) : ceilNanos fraction ≤ 10 ^ 9 := by
  have := scaled_lt h
  unfold ceilNanos
  split <;> omega

/-- A proper fraction is rounded up to one unless it is zero. -/
theorem ceil_div_pow {b k : Nat} (h : b < 10 ^ k) :
    ⌈(b : ℚ) / 10 ^ k⌉ = if 0 < b then 1 else 0 := by
  have hpos : (0 : ℚ) < 10 ^ k := by positivity
  have hlt : (b : ℚ) < 10 ^ k := by exact_mod_cast h
  split
  next hb =>
    have hb : (0 : ℚ) < b := Nat.cast_pos.mpr hb
    rw [Int.ceil_eq_iff, Int.cast_one, sub_self]
    exact ⟨div_pos hb hpos, (div_le_one hpos).mpr hlt.le⟩
  next hb =>
    rw [Nat.eq_zero_of_not_pos hb, Nat.cast_zero, zero_div, Int.ceil_zero]

/-- **Nine digits and a sticky one are the ceiling.** -/
theorem ceil_fraction (h : ∀ c ∈ fraction, c.isDigit = true) :
    ⌈(Nat.ofDigitChars 10 fraction 0 : ℚ) / 10 ^ fraction.length * 10 ^ 9⌉ =
      ceilNanos fraction := by
  rcases Nat.le_total fraction.length 9 with hshort | hlong
  · -- a short fraction is a whole number of nanoseconds
    obtain ⟨missing, hmissing⟩ := Nat.exists_eq_add_of_le hshort
    have hscaled : (Nat.ofDigitChars 10 fraction 0 : ℚ) / 10 ^ fraction.length * 10 ^ 9 =
        (Nat.ofDigitChars 10 fraction 0 * 10 ^ missing : Nat) := by
      rw [hmissing, pow_add, ← mul_assoc, div_mul_cancel₀ _ (by positivity)]
      push_cast
      rfl
    have hround : ¬(fraction.drop 9).any (· != '0') = true := by
      rw [List.drop_eq_nil_of_le hshort]
      decide
    rw [hscaled, Int.ceil_natCast, ceilNanos, List.take_of_length_le hshort, if_neg hround,
      Nat.add_zero]
    congr 3
    omega
  · -- the digits behind the ninth are less than a nanosecond
    have hfront : (fraction.take 9).length = 9 := List.length_take_of_le hlong
    have hback : ∀ c ∈ fraction.drop 9, c.isDigit = true :=
      fun c hc => h c (List.mem_of_mem_drop hc)
    have hvalue : Nat.ofDigitChars 10 fraction 0 =
        10 ^ (fraction.drop 9).length * Nat.ofDigitChars 10 (fraction.take 9) 0 +
          Nat.ofDigitChars 10 (fraction.drop 9) 0 := by
      rw [← Nat.ofDigitChars_eq_ofDigitChars_zero, ← Nat.ofDigitChars_append,
        List.take_append_drop]
    have hlength : fraction.length = 9 + (fraction.drop 9).length := by
      rw [List.length_drop]
      omega
    have hlt := (ofDigitChars_bounds hback 0).2
    rw [Nat.zero_add, Nat.one_mul] at hlt
    have hscaled : (Nat.ofDigitChars 10 fraction 0 : ℚ) / 10 ^ fraction.length * 10 ^ 9 =
        (Nat.ofDigitChars 10 (fraction.take 9) 0 : Nat) +
          (Nat.ofDigitChars 10 (fraction.drop 9) 0 : ℚ) / 10 ^ (fraction.drop 9).length := by
      rw [hvalue, hlength, pow_add]
      push_cast
      field_simp
    rw [hscaled, Int.ceil_natCast_add, ceil_div_pow hlt, ceilNanos,
      Nat.sub_eq_zero_of_le hlong, Nat.pow_zero, Nat.mul_one, Nat.cast_add, Nat.cast_ite,
      Nat.cast_one, Nat.cast_zero]
    congr 1
    exact if_congr (ofDigitChars_pos_iff hback) rfl rfl

end Ceiling

/-! ## The target -/

section Target

variable {cs fraction : List Char} {text : String}

theorem nanosOf_eq_pure (h : fraction ∈ digitsPattern) (point : Char) :
    ∃ w, nanosOf (point :: fraction) = pure w ∧ w.val = ceilNanos fraction := by
  obtain ⟨hne, hdigits⟩ := mem_digitsPattern.mp h
  obtain ⟨read, hread, hr⟩ := fractionNanos_eq_pure zero_val (i := 0)
    (by decide) (by decide) (List.all_eq_true.mpr hdigits) false
  have hlt := scaled_lt hdigits
  have hfits : Nat.ofDigitChars 10 (fraction.take (9 - 0)) 0 * 10 ^ (9 - fraction.length) ≤
      18446744073709551615 := by
    rw [Nat.sub_zero]
    omega
  obtain ⟨scaled, hscaled, hs⟩ := scaleNanos_eq_pure hr hfits
  obtain ⟨w, hw, hval⟩ := add_eq_pure hs
    (b := if (fraction.drop 9).any (· != '0') then 1 else 0)
    (n := if (fraction.drop 9).any (· != '0') then 1 else 0) (by split <;> rfl)
    (by rw [Nat.sub_zero]; split <;> omega)
  refine ⟨w, ?_, hval⟩
  rw [nanosOf, if_neg hne, hread, pure_bind]
  change liftM (scaleNanos (9 - fraction.length) read) >>= _ = _
  rw [hscaled, liftM_pure_bind]
  change liftM (Arith.add scaled (if (fraction.drop 9).any (· != '0') then 1 else 0)) = _
  rw [hw]
  rfl

theorem nanosOf_eq_throw (h : fraction ∉ digitsPattern) (point : Char) :
    ∃ message, nanosOf (point :: fraction) = throw message := by
  rw [nanosOf]
  split
  next => exact ⟨_, rfl⟩
  next hne =>
    have hdigits : fraction.all Char.isDigit = false :=
      Bool.eq_false_iff.mpr fun hall => h (mem_digitsPattern.mpr ⟨hne, List.all_eq_true.mp hall⟩)
    refine ⟨"invalid decimal target", ?_⟩
    rw [fractionNanos_eq_throw (n := 0) rfl (by decide) (by decide) hdigits]
    rfl

/-- The seconds of a text of the pattern are rounded up to its whole seconds and the rounded
fraction. -/
theorem ceil_decimalSeconds (h : cs ∈ targetPattern) :
    ⌈decimalSeconds cs * 10 ^ 9⌉ =
      (Nat.ofDigitChars 10 (cs.takeWhile (· != '.')) 0 * 10 ^ 9 +
        ceilNanos (cs.dropWhile (· != '.')).tail : Nat) := by
  have hdigits : ∀ c ∈ (cs.dropWhile (· != '.')).tail, c.isDigit = true := by
    rcases (mem_targetPattern.mp h).2 with hnil | ⟨fraction, hfraction, hpoint⟩
    · rw [hnil]
      exact List.forall_mem_nil _
    · rw [hpoint]
      exact (mem_digitsPattern.mp hfraction).2
  have hscaled : (Nat.ofDigitChars 10 (cs.takeWhile (· != '.')) 0 : ℚ) * 10 ^ 9 =
      (Nat.ofDigitChars 10 (cs.takeWhile (· != '.')) 0 * 10 ^ 9 : Nat) := by
    push_cast
    rfl
  rw [decimalSeconds, add_mul, hscaled, Int.ceil_natCast_add, ceil_fraction hdigits, Nat.cast_add]

/-- The seconds of a text of the pattern are at most those of ROS time if and only if both
parts of the rounded number are. -/
theorem decimalSeconds_le_iff (h : cs ∈ targetPattern) :
    decimalSeconds cs ≤ uint32Max ↔
      Nat.ofDigitChars 10 (cs.takeWhile (· != '.')) 0 * 10 ^ 9 +
        ceilNanos (cs.dropWhile (· != '.')).tail ≤ uint32Max * 10 ^ 9 := by
  have hpos : (0 : ℚ) < 10 ^ 9 := by positivity
  rw [← mul_le_mul_iff_left₀ hpos, ← Nat.cast_le (α := ℤ), ← ceil_decimalSeconds h, Int.ceil_le]
  push_cast
  rfl

theorem nanosOf_rest (h : text.toList ∈ targetPattern) :
    ∃ w, nanosOf (text.toList.dropWhile (· != '.')) = pure w ∧
      w.val = ceilNanos (text.toList.dropWhile (· != '.')).tail := by
  rcases (mem_targetPattern.mp h).2 with hnil | ⟨fraction, hfraction, hpoint⟩
  · rw [hnil]
    exact ⟨0, rfl, rfl⟩
  · rw [hpoint]
    exact nanosOf_eq_pure hfraction '.'

theorem ceilNanos_rest_le (h : text.toList ∈ targetPattern) :
    ceilNanos (text.toList.dropWhile (· != '.')).tail ≤ 10 ^ 9 := by
  rcases (mem_targetPattern.mp h).2 with hnil | ⟨fraction, hfraction, hpoint⟩
  · rw [hnil]
    decide
  · rw [hpoint]
    exact ceilNanos_le (mem_digitsPattern.mp hfraction).2

/-- The texts that are accepted. -/
structure Accepted (text : String) : Prop where
  length_le : text.length ≤ 128
  mem_pattern : text.toList ∈ targetPattern
  seconds_le : decimalSeconds text.toList ≤ 4294967295

theorem Accepted.clockTarget_eq_pure (h : Accepted text) :
    ∃ result, clockTarget text = pure result ∧
      result.val = ⌈decimalSeconds text.toList * 10 ^ 9⌉ := by
  obtain ⟨hwhole, hdigits⟩ := mem_digitsPattern.mp (mem_targetPattern.mp h.mem_pattern).1
  have hfits := (decimalSeconds_le_iff h.mem_pattern).mp h.seconds_le
  rw [uint32Max] at hfits
  obtain ⟨seconds, hseconds, hs⟩ := wholeSeconds_eq_pure zero_val hdigits (by
    rw [uint32Max]
    omega)
  obtain ⟨nanos, hnanos, hn⟩ := nanosOf_rest h.mem_pattern
  obtain ⟨scaled, hscaled, hsc⟩ := mul_eq_pure hs (b := 1000000000) (n := 10 ^ 9)
    (by decide) (le_trans (Nat.le_add_right _ _) (le_trans hfits (by decide)))
  obtain ⟨result, hresult, hval⟩ := add_eq_pure hsc hn (by omega)
  refine ⟨result, ?_, by rw [hval, ceil_decimalSeconds h.mem_pattern]⟩
  have hbound : ¬(text.toList.takeWhile (· != '.') = [] ∨ 128 < text.length) :=
    not_or.mpr ⟨hwhole, not_lt.mpr h.length_le⟩
  have hlast : ¬(seconds.val = uint32Max ∧ nanos.val ≠ 0) := by
    rw [hs, hn, uint32Max]
    omega
  rw [clockTarget, if_neg hbound, hseconds, pure_bind, hnanos, pure_bind, if_neg hlast, hscaled,
    liftM_pure_bind, hresult]
  rfl

theorem clockTarget_eq_throw (h : ¬Accepted text) :
    ∃ message, clockTarget text = throw message := by
  rw [clockTarget]
  split
  next => exact ⟨_, rfl⟩
  next hbound =>
    obtain ⟨hwhole, hlength⟩ := not_or.mp hbound
    by_cases hseconds : (∀ c ∈ text.toList.takeWhile (· != '.'), c.isDigit = true) ∧
        Nat.ofDigitChars 10 (text.toList.takeWhile (· != '.')) 0 ≤ uint32Max
    · obtain ⟨seconds, hread, hs⟩ := wholeSeconds_eq_pure zero_val hseconds.1
        hseconds.2
      rw [hread, pure_bind]
      by_cases hmatches : text.toList ∈ targetPattern
      · -- only the end of ROS time is left
        obtain ⟨nanos, hnanos, hn⟩ := nanosOf_rest hmatches
        rw [hnanos, pure_bind]
        have hlast : seconds.val = uint32Max ∧ nanos.val ≠ 0 := by
          have hle := ceilNanos_rest_le hmatches
          have hout := mt (decimalSeconds_le_iff hmatches).mpr fun hfits =>
            h ⟨not_lt.mp hlength, hmatches, hfits⟩
          have hwhole := hseconds.2
          rw [hs, hn]
          rw [uint32Max] at hout hwhole ⊢
          omega
        rw [if_pos hlast]
        exact ⟨_, rfl⟩
      · -- the fraction is none
        cases hrest : text.toList.dropWhile (· != '.') with
        | nil =>
            exact absurd (mem_targetPattern.mpr
              ⟨mem_digitsPattern.mpr ⟨hwhole, hseconds.1⟩, .inl hrest⟩) hmatches
        | cons point fraction =>
            have hpoint : point = '.' := by
              have := List.head_dropWhile_not (· != '.') (l := text.toList) (by rw [hrest]; simp)
              simpa [hrest] using this
            have hfraction : fraction ∉ digitsPattern := fun hfraction =>
              hmatches (mem_targetPattern.mpr ⟨mem_digitsPattern.mpr ⟨hwhole, hseconds.1⟩,
                .inr ⟨fraction, hfraction, hpoint ▸ hrest⟩⟩)
            obtain ⟨message, hthrow⟩ := nanosOf_eq_throw hfraction point
            rw [hthrow]
            exact ⟨message, rfl⟩
    · rw [wholeSeconds_eq_throw (n := 0) rfl (by decide) hseconds]
      exact ⟨_, rfl⟩

theorem clockTarget_val {target : Word .uint64} (h : clockTarget text = pure target) :
    target.val = ⌈decimalSeconds text.toList * 10 ^ 9⌉ := by
  by_cases haccepted : Accepted text
  · obtain ⟨result, hresult, hval⟩ := haccepted.clockTarget_eq_pure
    have hsame := congrArg (fun x => (ExceptT.run x).value) (h.symm.trans hresult)
    rw [Except.ok.inj hsame, hval]
  · obtain ⟨message, hthrow⟩ := clockTarget_eq_throw haccepted
    exact nomatch congrArg (fun x => (ExceptT.run x).value) (h.symm.trans hthrow)

/-- **The target is the ceiling of the decimal seconds**, computed without overflow, and every
other text is refused. -/
theorem clockTarget_exact (text : String) :
    (Accepted text ∧ ∃ result, clockTarget text = pure result ∧
      result.val = ⌈decimalSeconds text.toList * 10 ^ 9⌉) ∨
    (¬Accepted text ∧ ∃ message, clockTarget text = throw message) := by
  by_cases h : Accepted text
  · exact .inl ⟨h, h.clockTarget_eq_pure⟩
  · exact .inr ⟨h, clockTarget_eq_throw h⟩

end Target

end Ros1Tools.Clock
