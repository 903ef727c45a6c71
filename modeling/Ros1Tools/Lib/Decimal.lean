import Mathlib.Algebra.Order.Ring.Nat
import Mathlib.Data.List.TakeWhile

/-!
# Decimal text

The texts that `toString` renders integers as, told by their characters, and the
scanner of C's `strtoll`, which reads an optional sign and as many digits as there
are.  The two are inverse to each other on the texts of the first kind.
-/

namespace Ros1Tools.Lib

/-! ## Numerals -/

/-- Decimal digits without a superfluous zero in front. -/
structure IsNumeral (cs : List Char) : Prop where
  ne_nil : cs ≠ []
  digits : ∀ c ∈ cs, c.isDigit = true
  leading : cs.head? = some '0' → cs = ['0']

theorem digitChar_toNat {c : Char} (h : c.isDigit = true) :
    c.toNat - '0'.toNat < 10 ∧ (c.toNat - '0'.toNat).digitChar = c := by
  obtain ⟨hlo, hhi⟩ := Char.isDigit_iff_toNat.mp h
  have h0 : '0'.toNat = 48 := rfl
  have h9 : '9'.toNat = 57 := rfl
  have hlt : c.toNat - '0'.toNat < 10 := by omega
  refine ⟨hlt, Char.toNat_inj.mp ?_⟩
  rw [Nat.toNat_digitChar_of_lt_ten hlt]
  omega

/-- The digits of a number are a numeral. -/
theorem isNumeral_toDigits (n : Nat) : IsNumeral (Nat.toDigits 10 n) where
  ne_nil := Nat.toDigits_ne_nil
  digits _ hc := Nat.isDigit_of_mem_toDigits (by decide) (by decide) hc
  leading := by
    induction n using Nat.strongRecOn with
    | ind n ih =>
        intro hhead
        rw [Nat.toDigits_eq_if (by decide)] at hhead ⊢
        split at hhead
        · rename_i hlt
          rw [if_pos hlt]
          simp only [List.head?_cons, Option.some.injEq] at hhead
          rw [hhead]
        · -- More digits: a leading zero would make the front part the number zero.
          rename_i hge
          have hhead : (Nat.toDigits 10 (n / 10)).head? = some '0' := by
            obtain ⟨c, cs, hcs⟩ := List.exists_cons_of_ne_nil (Nat.toDigits_ne_nil (n := n / 10))
            rw [hcs] at hhead ⊢
            exact hhead
          have hzero := ih (n / 10) (Nat.div_lt_self (by omega) (by decide)) hhead
          have hval := congrArg (Nat.ofDigitChars 10 · 0) hzero
          simp only [Nat.ofDigitChars_ten_toDigits] at hval
          have : n / 10 = 0 := hval
          omega

/-- Reading more digits behind a number that is not zero. -/
theorem toDigits_ofDigitChars_init {cs : List Char} (h : ∀ c ∈ cs, c.isDigit = true) {n : Nat}
    (hn : 0 < n) : Nat.toDigits 10 (Nat.ofDigitChars 10 cs n) = Nat.toDigits 10 n ++ cs := by
  induction cs generalizing n with
  | nil => simp
  | cons c cs ih =>
      obtain ⟨hlt, hchar⟩ := digitChar_toNat (h c List.mem_cons_self)
      have hstep : Nat.ofDigitChars 10 (c :: cs) n =
          Nat.ofDigitChars 10 cs (10 * n + (c.toNat - '0'.toNat)) := rfl
      rw [hstep, ih (fun c hc => h c (List.mem_cons_of_mem _ hc)) (by omega),
        ← Nat.toDigits_append_toDigits (by decide) hn hlt, Nat.toDigits_of_lt_base hlt, hchar,
        List.append_assoc, List.singleton_append]

/-- **A numeral is the text of the number it is read as.** -/
theorem IsNumeral.toDigits_ofDigitChars {cs : List Char} (h : IsNumeral cs) :
    Nat.toDigits 10 (Nat.ofDigitChars 10 cs 0) = cs := by
  cases cs with
  | nil => exact absurd rfl h.ne_nil
  | cons c cs =>
      by_cases hc : c = '0'
      · subst hc
        rw [h.leading rfl]
        rfl
      · obtain ⟨hlt, hchar⟩ := digitChar_toNat (h.digits c List.mem_cons_self)
        have hpos : 0 < c.toNat - '0'.toNat := by
          refine Nat.pos_of_ne_zero fun hzero => hc ?_
          rw [← hchar, hzero]
          rfl
        have hstep : Nat.ofDigitChars 10 (c :: cs) 0 =
            Nat.ofDigitChars 10 cs (c.toNat - '0'.toNat) := by
          rw [← Nat.zero_add (c.toNat - '0'.toNat)]
          rfl
        rw [hstep, toDigits_ofDigitChars_init (fun c hc => h.digits c (List.mem_cons_of_mem _ hc))
          hpos, Nat.toDigits_of_lt_base hlt, hchar, List.singleton_append]

/-- The last digits of a number move it less than one unit of the digit before them. -/
theorem ofDigitChars_bounds {cs : List Char} (h : ∀ c ∈ cs, c.isDigit = true) (n : Nat) :
    n * 10 ^ cs.length ≤ Nat.ofDigitChars 10 cs n ∧
      Nat.ofDigitChars 10 cs n < (n + 1) * 10 ^ cs.length := by
  induction cs generalizing n with
  | nil => simp
  | cons c cs ih =>
      obtain ⟨hc, hcs⟩ := List.forall_mem_cons.mp h
      obtain ⟨hlo, hhi⟩ := ih hcs (10 * n + (c.toNat - '0'.toNat))
      have hlt := (digitChar_toNat hc).1
      rw [Nat.ofDigitChars_cons, List.length_cons, Nat.pow_succ']
      constructor
      · calc n * (10 * 10 ^ cs.length) = (10 * n) * 10 ^ cs.length := by
              rw [← Nat.mul_assoc, Nat.mul_comm n]
          _ ≤ (10 * n + (c.toNat - '0'.toNat)) * 10 ^ cs.length :=
              Nat.mul_le_mul_right _ (Nat.le_add_right _ _)
          _ ≤ _ := hlo
      · calc _ < (10 * n + (c.toNat - '0'.toNat) + 1) * 10 ^ cs.length := hhi
          _ ≤ ((n + 1) * 10) * 10 ^ cs.length := Nat.mul_le_mul_right _ (by omega)
          _ = (n + 1) * (10 * 10 ^ cs.length) := Nat.mul_assoc _ _ _

/-! ## Integers -/

theorem toList_toString_natCast (n : Nat) :
    (toString (n : Int)).toList = Nat.toDigits 10 n := by
  rw [show toString (n : Int) = toString n from rfl, Nat.toString_eq_ofList_toDigits,
    String.toList_ofList]

theorem toList_toString_neg {n : Nat} (h : 0 < n) :
    (toString (-(n : Int))).toList = '-' :: Nat.toDigits 10 n := by
  obtain ⟨k, rfl⟩ := Nat.exists_eq_succ_of_ne_zero (Nat.ne_of_gt h)
  rw [show toString (-((k.succ : Nat) : Int)) = "-" ++ toString k.succ from rfl,
    Nat.toString_eq_ofList_toDigits, String.toList_append, String.toList_ofList,
    String.toList_ofList, List.singleton_append]

/-- A text is the text of an integer if and only if it is a numeral, or a sign and
a numeral that is not zero. -/
theorem exists_toString_iff {text : String} :
    (∃ z : Int, text = toString z) ↔
      IsNumeral text.toList ∨ ∃ cs, text.toList = '-' :: cs ∧ IsNumeral cs ∧ cs ≠ ['0'] := by
  constructor
  · rintro ⟨z, rfl⟩
    rcases Int.lt_or_le z 0 with hz | hz
    · obtain ⟨n, hn, rfl⟩ : ∃ n : Nat, 0 < n ∧ z = -(n : Int) := ⟨z.natAbs, by omega, by omega⟩
      refine .inr ⟨_, toList_toString_neg hn, isNumeral_toDigits n, fun hzero => ?_⟩
      have hval := congrArg (Nat.ofDigitChars 10 · 0) hzero
      simp only [Nat.ofDigitChars_ten_toDigits] at hval
      exact absurd hval (Nat.ne_of_gt hn)
    · obtain ⟨n, rfl⟩ := Int.eq_ofNat_of_zero_le hz
      rw [toList_toString_natCast]
      exact .inl (isNumeral_toDigits n)
  · rintro (h | ⟨cs, htext, h, hne⟩)
    · refine ⟨(Nat.ofDigitChars 10 text.toList 0 : Nat), String.toList_inj.mp ?_⟩
      rw [toList_toString_natCast, h.toDigits_ofDigitChars]
    · have hval := h.toDigits_ofDigitChars
      have hpos : 0 < Nat.ofDigitChars 10 cs 0 := by
        refine Nat.pos_of_ne_zero fun hzero => hne ?_
        rw [← hval, hzero]
        rfl
      refine ⟨-(Nat.ofDigitChars 10 cs 0 : Nat), String.toList_inj.mp ?_⟩
      rw [toList_toString_neg hpos, hval, htext]

/-! ## Scanning -/

/-- The number at the front of a text and how many characters it takes; `none` if
there is no digit. -/
def scanDigits (cs : List Char) : Option (Nat × Nat) :=
  match cs.takeWhile Char.isDigit with
  | [] => none
  | ds => some (Nat.ofDigitChars 10 ds 0, ds.length)

/-- `strtoll` with base ten, of a text that does not start with white space or a
plus sign: the value and how many characters were consumed. -/
def scanInteger (text : String) : Option (Int × Nat) :=
  match text.toList with
  | '-' :: cs => (scanDigits cs).map fun p => (-(p.1 : Int), p.2 + 1)
  | cs => (scanDigits cs).map fun p => ((p.1 : Int), p.2)

theorem scanDigits_toDigits (n : Nat) :
    scanDigits (Nat.toDigits 10 n) = some (n, (Nat.toDigits 10 n).length) := by
  have hall := List.takeWhile_eq_self_iff.mpr (isNumeral_toDigits n).digits
  unfold scanDigits
  split
  · rename_i hnil
    exact absurd (hall.symm.trans hnil) Nat.toDigits_ne_nil
  · rw [hall, Nat.ofDigitChars_ten_toDigits]

/-- **Scanning undoes rendering**, and consumes all of the text. -/
theorem scanInteger_toString (z : Int) :
    scanInteger (toString z) = some (z, (toString z).length) := by
  rw [← String.length_toList]
  rcases Int.lt_or_le z 0 with hz | hz
  · obtain ⟨n, hn, rfl⟩ : ∃ n : Nat, 0 < n ∧ z = -(n : Int) := ⟨z.natAbs, by omega, by omega⟩
    rw [scanInteger, toList_toString_neg hn]
    simp only [scanDigits_toDigits, Option.map_some, List.length_cons]
  · obtain ⟨n, rfl⟩ := Int.eq_ofNat_of_zero_le hz
    rw [scanInteger, toList_toString_natCast]
    split
    · rename_i hsign
      have hdigit := (isNumeral_toDigits n).digits '-' (by rw [hsign]; exact List.mem_cons_self)
      exact absurd hdigit (by decide)
    · rw [scanDigits_toDigits]
      rfl

end Ros1Tools.Lib
