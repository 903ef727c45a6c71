import Ros1Tools.Codec.Denote
import Ros1Tools.Json.Number
import Ros1Tools.Lib.Pattern

/-!
# Integer fields

The texts that an integer field takes are those of a pattern, and the integer that such a text
denotes is a sum of its digits.  Both are said here without the scanner: `eq_toString_iff` is
where they meet the texts that integers are rendered as, and the converters accept exactly
those (`signedInteger_eq_ok`, `unsignedInteger_eq_ok`).
-/

namespace Ros1Tools.Codec

open Lib Lib.Pattern

/-! ## Decimal texts -/

/-- `[1-9][0-9]*`. -/
def positivePattern : Language Char :=
  cls (range '1' '9') * KStar.kstar (cls (range '0' '9'))

/-- `0|[1-9][0-9]*`. -/
def unsignedPattern : Language Char := text ['0'] + positivePattern

/-- `0|-?[1-9][0-9]*`. -/
def signedPattern : Language Char := text ['0'] + opt (text ['-']) * positivePattern

/-- The integer that a decimal text denotes. -/
def decimalValue (cs : List Char) : Int :=
  match cs with
  | '-' :: digits => -(Nat.ofDigitChars 10 digits 0 : Nat)
  | digits => (Nat.ofDigitChars 10 digits 0 : Nat)

section Patterns

variable {cs : List Char} {text : String} {z : Int}

theorem mem_positivePattern : cs ∈ positivePattern ↔ IsNumeral cs ∧ cs ≠ ['0'] := by
  rw [positivePattern, mem_cls_mul]
  simp only [mem_kstar_cls, range_digit]
  constructor
  · rintro ⟨c, rest, hc, hrest, rfl⟩
    obtain ⟨hlo, hhi⟩ := range_iff.mp hc
    have hdigit : c.isDigit = true := Char.isDigit_iff_toNat.mpr ⟨Nat.le_of_succ_le hlo, hhi⟩
    have hne : c ≠ '0' := by
      rintro rfl
      exact absurd hlo (by decide)
    refine ⟨⟨nofun, List.forall_mem_cons.mpr ⟨hdigit, hrest⟩, fun hhead => ?_⟩, fun h => ?_⟩
    · exact absurd (Option.some.inj hhead) hne
    · exact hne (List.cons.inj h).1
  · rintro ⟨h, hne⟩
    obtain ⟨c, rest, rfl⟩ := List.exists_cons_of_ne_nil h.ne_nil
    obtain ⟨hc, hrest⟩ := List.forall_mem_cons.mp h.digits
    obtain ⟨hlo, hhi⟩ := Char.isDigit_iff_toNat.mp hc
    have hzero : c ≠ '0' := fun hzero => hne (h.leading (congrArg some hzero))
    refine ⟨c, rest, range_iff.mpr ⟨?_, hhi⟩, hrest, rfl⟩
    exact Nat.lt_of_le_of_ne hlo fun heq => hzero (Char.toNat_inj.mp heq.symm)

theorem mem_unsignedPattern : cs ∈ unsignedPattern ↔ IsNumeral cs := by
  rw [unsignedPattern, Language.mem_add, mem_positivePattern]
  constructor
  · rintro (rfl | h)
    · exact ⟨nofun, List.forall_mem_singleton.mpr (by decide), fun _ => rfl⟩
    · exact h.1
  · intro h
    exact or_iff_not_imp_left.mpr fun hne => ⟨h, hne⟩

theorem mem_signedPattern :
    cs ∈ signedPattern ↔ IsNumeral cs ∨ ∃ ds, cs = '-' :: ds ∧ IsNumeral ds ∧ ds ≠ ['0'] := by
  rw [← mem_unsignedPattern, unsignedPattern, signedPattern, Language.mem_add, Language.mem_add,
    or_assoc, Language.mem_mul]
  refine or_congr_right ?_
  constructor
  · rintro ⟨sign, rfl | rfl, ds, hds, rfl⟩
    · exact .inl hds
    · exact .inr ⟨ds, rfl, mem_positivePattern.mp hds⟩
  · rintro (h | ⟨ds, rfl, h⟩)
    · exact ⟨[], .inl rfl, cs, h, rfl⟩
    · exact ⟨['-'], .inr rfl, ds, mem_positivePattern.mpr h, rfl⟩

theorem decimalValue_toString (z : Int) : decimalValue (toString z).toList = z := by
  rcases Int.lt_or_le z 0 with hz | hz
  · obtain ⟨n, hn, rfl⟩ : ∃ n : Nat, 0 < n ∧ z = -(n : Int) := ⟨z.natAbs, by omega, by omega⟩
    rw [toList_toString_neg hn, decimalValue, Nat.ofDigitChars_ten_toDigits]
  · obtain ⟨n, rfl⟩ := Int.eq_ofNat_of_zero_le hz
    rw [toList_toString_natCast]
    unfold decimalValue
    split
    · rename_i hsign
      have hdigit := (isNumeral_toDigits n).digits '-' (by rw [hsign]; exact List.mem_cons_self)
      exact absurd hdigit (by decide)
    · rw [Nat.ofDigitChars_ten_toDigits]

/-- **The texts of the pattern are those that integers are rendered as.** -/
theorem eq_toString_iff :
    text = toString z ↔ text.toList ∈ signedPattern ∧ decimalValue text.toList = z := by
  rw [mem_signedPattern, ← exists_toString_iff]
  constructor
  · rintro rfl
    exact ⟨⟨z, rfl⟩, decimalValue_toString z⟩
  · rintro ⟨⟨z', rfl⟩, hvalue⟩
    rw [← hvalue, decimalValue_toString]

theorem eq_toString_natCast_iff {n : Nat} :
    text = toString (n : Int) ↔ text.toList ∈ unsignedPattern ∧ decimalValue text.toList = n := by
  rw [eq_toString_iff, mem_signedPattern, mem_unsignedPattern]
  refine and_congr_left fun hvalue => or_iff_left ?_
  -- A sign in front of a numeral that is not zero denotes a negative integer.
  rintro ⟨ds, htext, hds, hne⟩
  rw [htext, decimalValue] at hvalue
  have hzero : Nat.ofDigitChars 10 ds 0 = 0 := by omega
  have hdigits := hds.toDigits_ofDigitChars
  rw [hzero] at hdigits
  exact hne hdigits.symm

end Patterns

/-! ## The converters -/

theorem denotesInteger_string {s : String} {z : Int} :
    DenotesInteger (.string s) z ↔ s = toString z := by
  constructor
  · rintro (h | ⟨h, -⟩)
    · exact Json.string.inj h
    · exact absurd h (by simp [Json.isIntegral, Json.isInt64, Json.isUInt64])
  · rintro rfl
    exact .inl rfl

theorem denotesInteger_of_number {value : Json} {n z : Int} (h : value.number = some (n : ℚ))
    (hlo : -2 ^ 63 ≤ n) (hhi : n < 2 ^ 64) : DenotesInteger value z ↔ n = z := by
  obtain ⟨hintegral, hinteger⟩ := Json.isIntegral_of_number h hlo hhi
  constructor
  · rintro (rfl | ⟨-, hz⟩)
    · cases h
    · exact hinteger.symm.trans hz
  · rintro rfl
    exact .inr ⟨hintegral, hinteger⟩

/-- An integer is the value of a signed word if it is in its range. -/
theorem exists_toInt_iff {w : Nat} (hw : 0 < w) {z : Int} :
    (∃ v : BitVec w, z = v.toInt) ↔ -2 ^ (w - 1) ≤ z ∧ z < 2 ^ (w - 1) := by
  constructor
  · rintro ⟨v, rfl⟩
    exact ⟨v.le_toInt, v.toInt_lt⟩
  · rintro ⟨hlo, hhi⟩
    exact ⟨.ofInt w z, (BitVec.toInt_ofInt_eq_self hw hlo hhi).symm⟩

theorem exists_toNat_iff {w : Nat} {z : Int} :
    (∃ v : BitVec w, z = v.toNat) ↔ 0 ≤ z ∧ z < 2 ^ w := by
  constructor
  · rintro ⟨v, rfl⟩
    exact ⟨Int.natCast_nonneg _, by exact_mod_cast v.isLt⟩
  · rintro ⟨hlo, hhi⟩
    obtain ⟨n, rfl⟩ := Int.eq_ofNat_of_zero_le hlo
    have hlt : n < 2 ^ w := by exact_mod_cast hhi
    exact ⟨.ofNat w n, by rw [BitVec.toNat_ofNat, Nat.mod_eq_of_lt hlt]⟩

/-- A converter reads exactly the integers from `lo` up to `hi`, written in the pattern or as
numbers: nothing is wrapped around, truncated or read in part. -/
structure ReadsExactly {w : Nat} (convert : Json → Except Exn (BitVec w))
    (pattern : Language Char) (lo hi : Int) (toInt : BitVec w → Int) : Prop where
  texts : ∀ s, (∃ v, convert (.string s) = .ok v) ↔
    s.toList ∈ pattern ∧ lo ≤ decimalValue s.toList ∧ decimalValue s.toList < hi
  numbers : ∀ (value : Json) (n : Int), value.number = some (n : ℚ) → -2 ^ 63 ≤ n → n < 2 ^ 64 →
    ((∃ v, convert value = .ok v) ↔ lo ≤ n ∧ n < hi)
  exact : ∀ value v, convert value = .ok v →
    (∃ s, value = .string s ∧ s.toList ∈ pattern ∧ decimalValue s.toList = toInt v) ∨
      value.number = some (toInt v : ℚ)
  rendered : ∀ v, convert (.string (toString (toInt v))) = .ok v

/-- What a converter accepts follows from the integers that it takes and their texts. -/
theorem readsExactly_of_denotes {w : Nat} {convert : Json → Except Exn (BitVec w)}
    {pattern : Language Char} {lo hi : Int} {toInt : BitVec w → Int}
    (hspec : ∀ {value v}, convert value = .ok v ↔ DenotesInteger value (toInt v))
    (hrange : ∀ {z}, (∃ v, z = toInt v) ↔ lo ≤ z ∧ z < hi)
    (hpattern : ∀ {s : String} {v}, s = toString (toInt v) ↔
      s.toList ∈ pattern ∧ decimalValue s.toList = toInt v) :
    ReadsExactly convert pattern lo hi toInt where
  texts s := by
    simp only [hspec, denotesInteger_string, hpattern, exists_and_left, hrange]
  numbers value n hnumber hlo hhi := by
    simp only [hspec, denotesInteger_of_number hnumber hlo hhi, hrange]
  exact value v h := by
    rcases hspec.mp h with rfl | ⟨hintegral, hinteger⟩
    · exact .inl ⟨_, rfl, hpattern.mp rfl⟩
    · rw [← hinteger]
      exact .inr (Json.number_of_isIntegral hintegral)
  rendered _ := hspec.mpr (.inl rfl)

/-- **Integer fields are read exactly**, for the eight widths of ROS. -/
theorem integer_fields_exact {w : Nat} (hw : w ∈ [8, 16, 32, 64]) (path : String) :
    ReadsExactly (signedInteger w · path) signedPattern (-2 ^ (w - 1)) (2 ^ (w - 1))
        BitVec.toInt ∧
      ReadsExactly (unsignedInteger w · path) unsignedPattern 0 (2 ^ w) (fun v => v.toNat) := by
  have hpos : 0 < w := by
    rcases w with _ | w
    · exact absurd hw (by decide)
    · exact Nat.succ_pos w
  have hle : w ≤ 64 := by
    simp only [List.mem_cons, List.not_mem_nil, or_false] at hw
    omega
  exact ⟨readsExactly_of_denotes (signedInteger_eq_ok hpos hle) (exists_toInt_iff hpos)
      eq_toString_iff,
    readsExactly_of_denotes (unsignedInteger_eq_ok hle) exists_toNat_iff eq_toString_natCast_iff⟩

theorem integer_fields_exact_byte :
    signedInteger 8 (.string (toString (-128))) "data" = .ok (-128#8) ∧
      ∃ v, unsignedInteger 8 (.uint 255) "data" = .ok v := by
  have h := integer_fields_exact (w := 8) (by decide) "data"
  refine ⟨h.1.rendered (-128#8), (h.2.numbers (.uint 255) 255 rfl (by decide) (by decide)).mpr ?_⟩
  decide

end Ros1Tools.Codec
