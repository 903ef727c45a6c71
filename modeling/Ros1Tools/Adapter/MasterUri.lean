import Ros1Tools.Lib.Decimal
import Ros1Tools.Lib.Pattern
import Ros1Tools.Adapter.Context

/-!
# The master URI

The address of the master is checked twice: by the pattern of the published schema, which
spells out the numerals from 1 to 65535, and by `NativeContext::FromInstanceSpec`, which
matches one to five digits and compares the number they stand for.  The two agree on every
text whose port does not start with a zero.  A zero in front is a second spelling of the
same port, which only the code accepts.
-/

namespace Ros1Tools.Adapter

open Lib Lib.Pattern

/-! ## The published schema -/

namespace NativeContextSchema

/-- `[A-Za-z0-9._~-]`. -/
def hostCharacter (c : Char) : Bool :=
  range 'A' 'Z' c || range 'a' 'z' c || range '0' '9' c || c == '.' || c == '_' || c == '~' ||
    c == '-'

/-- `[0-9A-Fa-f:]`. -/
def addressCharacter (c : Char) : Bool :=
  range '0' '9' c || range 'A' 'F' c || range 'a' 'f' c || c == ':'

/-- `(?:[A-Za-z0-9._~-]+|\[[0-9A-Fa-f:]+\])`. -/
def host : Language Char :=
  plus (cls hostCharacter) + text ['['] * (plus (cls addressCharacter) * text [']'])

/-- `[0-9]`. -/
def digit : Language Char := cls (range '0' '9')

/-- `[1-9][0-9]{0,3}|[1-5][0-9]{4}|6[0-4][0-9]{3}|65[0-4][0-9]{2}|655[0-2][0-9]|6553[0-5]`. -/
def port : Language Char :=
  cls (range '1' '9') * opt digit ^ 3 + cls (range '1' '5') * digit ^ 4 +
    text ['6'] * (cls (range '0' '4') * digit ^ 3) +
    text ['6', '5'] * (cls (range '0' '4') * digit ^ 2) +
    text ['6', '5', '5'] * (cls (range '0' '2') * digit ^ 1) +
    text ['6', '5', '5', '3'] * (cls (range '0' '5') * digit ^ 0)

/-- The pattern of `rosMasterUri`. -/
def pattern : Language Char :=
  text "http://".toList * (host * (text [':'] * (port * opt (text ['/']))))

/-- What the schema requires of a string `rosMasterUri`. -/
structure Accepts (value : String) : Prop where
  maxLength : value.length ≤ 2048
  pattern : value.toList ∈ pattern

end NativeContextSchema

open NativeContextSchema

theorem hostCharacter_eq (c : Char) : hostCharacter c = isHostCharacter c := by
  rw [hostCharacter, range_upper, range_lower, range_digit]
  rfl

theorem addressCharacter_eq (c : Char) : addressCharacter c = (isHexDigit c || c == ':') := by
  rw [addressCharacter, range_digit]
  rfl

/-! ## Ports -/

section Port

variable {cs front rest : List Char} {lo hi c : Char}

theorem mem_digit_pow {n : Nat} :
    cs ∈ digit ^ n ↔ cs.length = n ∧ ∀ c ∈ cs, c.isDigit = true := by
  simp only [digit, mem_cls_pow, range_digit]

theorem mem_opt_digit_pow {n : Nat} :
    cs ∈ opt digit ^ n ↔ cs.length ≤ n ∧ ∀ c ∈ cs, c.isDigit = true := by
  simp only [digit, mem_opt_cls_pow, range_digit]

/-- A port, one alternative of the pattern after the other. -/
theorem mem_port : cs ∈ port ↔
    (∃ c rest, range '1' '9' c = true ∧ (rest.length ≤ 3 ∧ ∀ c ∈ rest, c.isDigit = true) ∧
      cs = c :: rest) ∨
    (∃ c rest, range '1' '5' c = true ∧ (rest.length = 4 ∧ ∀ c ∈ rest, c.isDigit = true) ∧
      cs = c :: rest) ∨
    (∃ c rest, range '0' '4' c = true ∧ (rest.length = 3 ∧ ∀ c ∈ rest, c.isDigit = true) ∧
      cs = '6' :: c :: rest) ∨
    (∃ c rest, range '0' '4' c = true ∧ (rest.length = 2 ∧ ∀ c ∈ rest, c.isDigit = true) ∧
      cs = '6' :: '5' :: c :: rest) ∨
    (∃ c rest, range '0' '2' c = true ∧ (rest.length = 1 ∧ ∀ c ∈ rest, c.isDigit = true) ∧
      cs = '6' :: '5' :: '5' :: c :: rest) ∨
    ∃ c rest, range '0' '5' c = true ∧ (rest.length = 0 ∧ ∀ c ∈ rest, c.isDigit = true) ∧
      cs = '6' :: '5' :: '5' :: '3' :: c :: rest := by
  have hfront : ∀ {lo hi : Char} {front : List Char} {n : Nat},
      cs ∈ text front * (cls (range lo hi) * digit ^ n) ↔
        ∃ c rest, range lo hi c = true ∧ (rest.length = n ∧ ∀ c ∈ rest, c.isDigit = true) ∧
          cs = front ++ c :: rest := by
    intro lo hi front n
    rw [mem_text_mul]
    constructor
    · rintro ⟨_, htail, rfl⟩
      obtain ⟨c, rest, hc, hrest, rfl⟩ := mem_cls_mul.mp htail
      exact ⟨c, rest, hc, mem_digit_pow.mp hrest, rfl⟩
    · rintro ⟨c, rest, hc, hrest, rfl⟩
      exact ⟨c :: rest, mem_cls_mul.mpr ⟨c, rest, hc, mem_digit_pow.mpr hrest, rfl⟩, rfl⟩
  simp only [port, Language.mem_add, hfront, mem_cls_mul, mem_digit_pow, mem_opt_digit_pow,
    or_assoc, List.cons_append, List.nil_append]

/-- The number of some digits, of which the last ones are free. -/
theorem ofDigitChars_range {a b : Nat} (hlo : lo.toNat = '0'.toNat + a)
    (hhi : hi.toNat = '0'.toNat + b) (hc : range lo hi c = true)
    (hrest : ∀ c ∈ rest, c.isDigit = true) (n : Nat) :
    (10 * n + a) * 10 ^ rest.length ≤ Nat.ofDigitChars 10 (c :: rest) n ∧
      Nat.ofDigitChars 10 (c :: rest) n < (10 * n + b + 1) * 10 ^ rest.length := by
  rw [range_iff] at hc
  obtain ⟨hge, hlt⟩ := ofDigitChars_bounds hrest (10 * n + (c.toNat - '0'.toNat))
  rw [Nat.ofDigitChars_cons]
  exact ⟨le_trans (Nat.mul_le_mul_right _ (by omega)) hge,
    lt_of_lt_of_le hlt (Nat.mul_le_mul_right _ (by omega))⟩

theorem isDigit_of_range (hlo : '0'.toNat ≤ lo.toNat) (hhi : hi.toNat ≤ '9'.toNat)
    (hc : range lo hi c = true) : c.isDigit = true := by
  rw [range_iff] at hc
  exact Char.isDigit_iff_toNat.mpr ⟨le_trans hlo hc.1, le_trans hc.2 hhi⟩

theorem isNumeral_cons (hc : range '1' '9' c = true) (hrest : ∀ c ∈ rest, c.isDigit = true) :
    IsNumeral (c :: rest) where
  ne_nil := by simp
  digits := List.forall_mem_cons.mpr ⟨isDigit_of_range (by decide) (by decide) hc, hrest⟩
  leading hzero := by
    rw [List.head?_cons, Option.some.injEq] at hzero
    subst hzero
    exact absurd hc (by decide)

/-- The alternatives that start with a six. -/
theorem isNumeral_six (front : List Char) (n b : Nat) {k : Nat}
    (hfront : ∀ c ∈ front, c.isDigit = true) (hn : Nat.ofDigitChars 10 ('6' :: front) 0 = n)
    (hhi : hi.toNat = '0'.toNat + b) (hb : b ≤ 9) (hc : range '0' hi c = true)
    (hrest : rest.length = k ∧ ∀ c ∈ rest, c.isDigit = true)
    (hrange : 1 ≤ 10 * n * 10 ^ k ∧ (10 * n + b + 1) * 10 ^ k ≤ 65536) :
    IsNumeral ('6' :: front ++ c :: rest) ∧
      1 ≤ Nat.ofDigitChars 10 ('6' :: front ++ c :: rest) 0 ∧
      Nat.ofDigitChars 10 ('6' :: front ++ c :: rest) 0 ≤ 65535 := by
  have hdigit : c.isDigit = true := by
    have h9 : '9'.toNat = '0'.toNat + 9 := rfl
    exact isDigit_of_range (by omega) (by omega) hc
  have hdigits : ∀ d ∈ front ++ c :: rest, d.isDigit = true := by
    rw [List.forall_mem_append, List.forall_mem_cons]
    exact ⟨hfront, hdigit, hrest.2⟩
  refine ⟨isNumeral_cons (by decide) hdigits, ?_⟩
  rw [Nat.ofDigitChars_append, hn]
  have hvalue := ofDigitChars_range (a := 0) rfl hhi hc hrest.2 n
  rw [hrest.1] at hvalue
  exact ⟨le_trans hrange.1 hvalue.1, Nat.le_of_lt_succ (lt_of_lt_of_le hvalue.2 hrange.2)⟩

end Port

/-- Every alternative is a numeral from 1 to 65535. -/
theorem isNumeral_of_mem_port {cs : List Char} (h : cs ∈ port) :
    IsNumeral cs ∧ 1 ≤ Nat.ofDigitChars 10 cs 0 ∧ Nat.ofDigitChars 10 cs 0 ≤ 65535 := by
  obtain (⟨c, rest, hc, ⟨hlength, hrest⟩, rfl⟩ | ⟨c, rest, hc, ⟨hlength, hrest⟩, rfl⟩ |
    ⟨c, rest, hc, hrest, rfl⟩ | ⟨c, rest, hc, hrest, rfl⟩ | ⟨c, rest, hc, hrest, rfl⟩ |
    ⟨c, rest, hc, hrest, rfl⟩) := mem_port.mp h
  · obtain ⟨hge, hlt⟩ := ofDigitChars_range (a := 1) (b := 9) rfl rfl hc hrest 0
    have hpos : 1 ≤ 10 ^ rest.length := Nat.one_le_pow _ _ (by decide)
    have hle : 10 ^ rest.length ≤ 10 ^ 3 := Nat.pow_le_pow_right (by decide) hlength
    exact ⟨isNumeral_cons hc hrest, by omega, by omega⟩
  · obtain ⟨hge, hlt⟩ := ofDigitChars_range (a := 1) (b := 5) rfl rfl hc hrest 0
    rw [hlength] at hge hlt
    have hc : range '1' '9' c = true := by
      rw [range_iff] at hc ⊢
      exact ⟨hc.1, le_trans hc.2 (by decide)⟩
    exact ⟨isNumeral_cons hc hrest, by omega, by omega⟩
  · exact isNumeral_six [] 6 4 (by simp) rfl rfl (by decide) hc hrest (by decide)
  · exact isNumeral_six ['5'] 65 4 (by simp) rfl rfl (by decide) hc hrest (by decide)
  · exact isNumeral_six ['5', '5'] 655 2 (by simp) rfl rfl (by decide) hc hrest (by decide)
  · exact isNumeral_six ['5', '5', '3'] 6553 5 (by simp) rfl rfl (by decide) hc hrest (by decide)

/-- Five digits that stand for at most 65535 match one of the alternatives. -/
theorem mem_port_of_five {a b c d e : Char} (ha : range '1' '9' a = true)
    (hrest : ∀ x ∈ [b, c, d, e], x.isDigit = true)
    (hle : Nat.ofDigitChars 10 [a, b, c, d, e] 0 ≤ 65535) : [a, b, c, d, e] ∈ port := by
  have h0 : '0'.toNat = 48 := rfl
  have hdigit : ∀ {x : Char}, x.isDigit = true → 48 ≤ x.toNat ∧ x.toNat ≤ 57 :=
    Char.isDigit_iff_toNat.mp
  have heq : ∀ {x y : Char}, x.toNat = y.toNat → x = y := Char.toNat_inj.mp
  have ha' := range_iff.mp ha
  have h1 : '1'.toNat = 49 := rfl
  simp only [List.forall_mem_cons] at hrest
  obtain ⟨hb, hc, hd, he, -⟩ := hrest
  simp only [Nat.ofDigitChars_cons, Nat.ofDigitChars_nil, h0] at hle
  have hb' := hdigit hb
  have hc' := hdigit hc
  have hd' := hdigit hd
  have he' := hdigit he
  rw [mem_port]
  by_cases h5 : a.toNat ≤ '5'.toNat
  · exact .inr (.inl ⟨a, _, range_iff.mpr ⟨ha'.1, h5⟩, ⟨rfl, by simp [*]⟩, rfl⟩)
  have h5' : '5'.toNat = 53 := rfl
  obtain rfl : a = '6' := heq (show a.toNat = 54 by omega)
  by_cases h64 : b.toNat ≤ '4'.toNat
  · exact .inr (.inr (.inl ⟨b, _, range_iff.mpr ⟨hb'.1, h64⟩, ⟨rfl, by simp [*]⟩, rfl⟩))
  have h4 : '4'.toNat = 52 := rfl
  have h6 : '6'.toNat = 54 := rfl
  obtain rfl : b = '5' := heq (show b.toNat = 53 by omega)
  by_cases h654 : c.toNat ≤ '4'.toNat
  · exact .inr (.inr (.inr (.inl
      ⟨c, _, range_iff.mpr ⟨hc'.1, h654⟩, ⟨rfl, by simp [*]⟩, rfl⟩)))
  obtain rfl : c = '5' := heq (show c.toNat = 53 by omega)
  by_cases h6552 : d.toNat ≤ '2'.toNat
  · exact .inr (.inr (.inr (.inr (.inl
      ⟨d, _, range_iff.mpr ⟨hd'.1, h6552⟩, ⟨rfl, by simp [*]⟩, rfl⟩))))
  have h2 : '2'.toNat = 50 := rfl
  obtain rfl : d = '3' := heq (show d.toNat = 51 by omega)
  have h3 : '3'.toNat = 51 := rfl
  exact .inr (.inr (.inr (.inr (.inr
    ⟨e, _, range_iff.mpr ⟨he'.1, by omega⟩, ⟨rfl, by simp⟩, rfl⟩))))

theorem length_le_of_isNumeral {cs : List Char} (h : IsNumeral cs)
    (hle : Nat.ofDigitChars 10 cs 0 ≤ 65535) : cs.length ≤ 5 := by
  rw [← h.toDigits_ofDigitChars]
  exact (Nat.length_toDigits_le_iff (by decide) (by decide)).mpr (by omega)

/-- **The pattern spells out the numerals from 1 to 65535.** -/
theorem mem_port_iff {cs : List Char} :
    cs ∈ port ↔
      IsNumeral cs ∧ 1 ≤ Nat.ofDigitChars 10 cs 0 ∧ Nat.ofDigitChars 10 cs 0 ≤ 65535 := by
  refine ⟨isNumeral_of_mem_port, ?_⟩
  rintro ⟨hnumeral, hpos, hle⟩
  have hlength := length_le_of_isNumeral hnumeral hle
  cases cs with
  | nil => exact absurd rfl hnumeral.ne_nil
  | cons a rest =>
      obtain ⟨ha, hrest⟩ := List.forall_mem_cons.mp hnumeral.digits
      have hzero : a ≠ '0' := by
        rintro rfl
        obtain rfl : rest = [] := (List.cons.inj (hnumeral.leading rfl)).2
        exact absurd hpos (by decide)
      have ha : range '1' '9' a = true := by
        obtain ⟨hlo, hhi⟩ := Char.isDigit_iff_toNat.mp ha
        have hne : a.toNat ≠ '0'.toNat := fun h => hzero (Char.toNat_inj.mp h)
        exact range_iff.mpr ⟨Nat.lt_of_le_of_ne hlo hne.symm, hhi⟩
      match rest, hlength with
      | [b, c, d, e], _ => exact mem_port_of_five ha hrest hle
      | [], _ | [_], _ | [_, _], _ | [_, _, _], _ =>
          exact mem_port.mpr (.inl ⟨a, _, ha, ⟨by simp, hrest⟩, rfl⟩)

/-! ## The code's pattern -/

/-- A URI and its parts: `http://`, host, colon, port, and a slash or nothing. -/
structure Spells (value : String) (host digits back : List Char) : Prop where
  text : value.toList = "http://".toList ++ (host ++ (':' :: digits ++ back))
  host : host ∈ NativeContextSchema.host
  back : back = [] ∨ back = ['/']

/-- `[0-9]{1,5}`. -/
structure IsDigits (cs : List Char) : Prop where
  digits : ∀ c ∈ cs, c.isDigit = true
  pos : 1 ≤ cs.length
  le : cs.length ≤ 5

section Pattern

variable {value : String} {cs host digits back rest : List Char}

theorem masterPort_eq_some :
    masterPort cs = some digits ↔
      IsDigits digits ∧ ∃ back, cs = ':' :: digits ++ back ∧ (back = [] ∨ back = ['/']) := by
  constructor
  · intro h
    unfold masterPort at h
    split at h
    · rename_i rest
      dsimp only at h
      split at h
      · rename_i hmatch
        obtain ⟨hpos, hle, hback⟩ := hmatch
        cases h
        obtain ⟨hrest, hdigits, -⟩ := span_iff.mp ⟨rfl, rfl⟩
        exact ⟨⟨hdigits, hpos, hle⟩, _, congrArg (':' :: ·) hrest, hback⟩
      · cases h
    · cases h
  · rintro ⟨hdigits, back, rfl, hback⟩
    have hstop : ∀ c ∈ back.head?, c.isDigit = false := by
      rcases hback with rfl | rfl
      · nofun
      · rintro c ⟨⟩
        rfl
    obtain ⟨htake, hdrop⟩ := span_iff.mpr ⟨rfl, hdigits.digits, hstop⟩
    rw [List.cons_append, masterPort, htake, hdrop]
    exact if_pos ⟨hdigits.pos, hdigits.le, hback⟩

theorem mem_host : host ∈ NativeContextSchema.host ↔
    (host ≠ [] ∧ ∀ c ∈ host, isHostCharacter c = true) ∨
      ∃ inner, host = '[' :: inner ++ [']'] ∧ inner ≠ [] ∧
        ∀ c ∈ inner, (isHexDigit c || c == ':') = true := by
  rw [NativeContextSchema.host, Language.mem_add, mem_plus_cls, mem_text_mul]
  simp only [hostCharacter_eq]
  refine or_congr_right ?_
  constructor
  · rintro ⟨rest, hrest, rfl⟩
    obtain ⟨inner, hinner, _, rfl, rfl⟩ := Language.mem_mul.mp hrest
    simp only [mem_plus_cls, addressCharacter_eq] at hinner
    exact ⟨inner, rfl, hinner⟩
  · rintro ⟨inner, rfl, hinner⟩
    refine ⟨inner ++ [']'], Language.mem_mul.mpr ⟨inner, ?_, [']'], rfl, rfl⟩, rfl⟩
    simpa only [mem_plus_cls, addressCharacter_eq] using hinner

/-- The code's pattern behind `http://`. -/
def hostAndPort (rest : List Char) : Option (List Char) :=
  match rest with
  | '[' :: inner =>
      let host := inner.takeWhile fun c => isHexDigit c || c == ':'
      match inner.dropWhile fun c => isHexDigit c || c == ':' with
      | ']' :: back => if host = [] then none else masterPort back
      | _ => none
  | _ =>
      if rest.takeWhile isHostCharacter = [] then none
      else masterPort (rest.dropWhile isHostCharacter)

theorem masterUriPattern_eq :
    masterUriPattern value = (value.toList.dropPrefix? "http://".toList).bind hostAndPort := rfl

theorem hostAndPort_bracket (inner : List Char) :
    hostAndPort ('[' :: inner) =
      match inner.dropWhile fun c => isHexDigit c || c == ':' with
      | ']' :: back =>
          if (inner.takeWhile fun c => isHexDigit c || c == ':') = [] then none
          else masterPort back
      | _ => none := rfl

theorem hostAndPort_eq_some :
    hostAndPort cs = some digits ↔
      ∃ host rest, cs = host ++ rest ∧ host ∈ NativeContextSchema.host ∧
        masterPort rest = some digits := by
  constructor
  · intro h
    unfold hostAndPort at h
    split at h
    · rename_i inner
      dsimp only at h
      split at h
      · rename_i back hback
        obtain ⟨hne, h⟩ := Option.ite_none_left_eq_some.mp h
        obtain ⟨hinner, hall, -⟩ := span_iff.mp ⟨rfl, hback⟩
        refine ⟨'[' :: inner.takeWhile (fun c => isHexDigit c || c == ':') ++ [']'], back, ?_, ?_,
          h⟩
        · simpa using hinner
        · exact mem_host.mpr (.inr ⟨_, rfl, hne, hall⟩)
      · cases h
    · obtain ⟨hne, h⟩ := Option.ite_none_left_eq_some.mp h
      obtain ⟨hcs, hall, -⟩ := span_iff.mp ⟨rfl, rfl⟩
      exact ⟨_, _, hcs, mem_host.mpr (.inl ⟨hne, hall⟩), h⟩
  · rintro ⟨host, rest, rfl, hhost, h⟩
    obtain ⟨-, back, rfl, -⟩ := masterPort_eq_some.mp h
    rcases mem_host.mp hhost with ⟨hne, hall⟩ | ⟨inner, rfl, hne, hall⟩
    · have hstop : ∀ c ∈ (':' :: digits ++ back).head?, isHostCharacter c = false := by
        rintro c ⟨⟩
        rfl
      obtain ⟨htake, hdrop⟩ := span_iff.mpr ⟨rfl, hall, hstop⟩
      unfold hostAndPort
      split
      · -- A host does not start with a bracket.
        rename_i inner hbracket
        obtain ⟨c, tail, rfl⟩ := List.exists_cons_of_ne_nil hne
        obtain rfl : c = '[' := (List.cons.inj hbracket).1
        exact absurd (hall '[' List.mem_cons_self) (by decide)
      · rw [htake, hdrop, if_neg hne]
        exact h
    · have hstop : ∀ c ∈ (']' :: (':' :: digits ++ back)).head?,
          (isHexDigit c || c == ':') = false := by
        rintro c ⟨⟩
        rfl
      obtain ⟨htake, hdrop⟩ := span_iff.mpr ⟨rfl, hall, hstop⟩
      have htext : '[' :: inner ++ [']'] ++ (':' :: digits ++ back) =
          '[' :: (inner ++ ']' :: (':' :: digits ++ back)) := by simp
      rw [htext, hostAndPort_bracket, htake, hdrop]
      exact (if_neg hne).trans h

/-- **What the code's pattern matches.** -/
theorem masterUriPattern_eq_some :
    masterUriPattern value = some digits ↔
      IsDigits digits ∧ ∃ host back, Spells value host digits back := by
  rw [masterUriPattern_eq, Option.bind_eq_some_iff]
  constructor
  · rintro ⟨rest, hrest, h⟩
    obtain ⟨front, htext, hfront⟩ := List.dropPrefix?_eq_some_iff.mp hrest
    obtain ⟨host, port, rfl, hhost, hport⟩ := hostAndPort_eq_some.mp h
    obtain ⟨hdigits, back, rfl, hback⟩ := masterPort_eq_some.mp hport
    rw [beq_iff_eq.mp hfront] at htext
    exact ⟨hdigits, host, back, htext, hhost, hback⟩
  · rintro ⟨hdigits, host, back, h⟩
    refine ⟨_, List.dropPrefix?_eq_some_iff.mpr ⟨_, h.text, beq_self_eq_true _⟩, ?_⟩
    exact hostAndPort_eq_some.mpr
      ⟨host, _, rfl, h.host, masterPort_eq_some.mpr ⟨hdigits, back, rfl, h.back⟩⟩

/-- A URI matches in one way. -/
theorem Spells.masterUriPattern_eq (h : Spells value host digits back)
    (hdigits : IsDigits digits) : masterUriPattern value = some digits :=
  masterUriPattern_eq_some.mpr ⟨hdigits, host, back, h⟩

end Pattern

/-! ## Control characters -/

/-- What `validateNoControlCharacters` lets through. -/
def isPrintable (c : Char) : Bool := 0x20 ≤ c.toNat && c.toNat != 0x7f

theorem isPrintable_of_range {lo hi c : Char} (hlo : 0x20 ≤ lo.toNat) (hhi : hi.toNat < 0x7f)
    (hc : range lo hi c = true) : isPrintable c = true := by
  rw [range_iff] at hc
  rw [isPrintable, Bool.and_eq_true, decide_eq_true_eq, bne_iff_ne]
  exact ⟨le_trans hlo hc.1, Nat.ne_of_lt (lt_of_le_of_lt hc.2 hhi)⟩

theorem isPrintable_of_isDigit {c : Char} (h : c.isDigit = true) : isPrintable c = true := by
  rw [← range_digit] at h
  exact isPrintable_of_range (by decide) (by decide) h

theorem isPrintable_of_hostCharacter {c : Char} (h : hostCharacter c = true) :
    isPrintable c = true := by
  simp only [hostCharacter, Bool.or_eq_true, beq_iff_eq] at h
  rcases h with (((((h | h) | h) | rfl) | rfl) | rfl) | rfl
  · exact isPrintable_of_range (by decide) (by decide) h
  · exact isPrintable_of_range (by decide) (by decide) h
  · exact isPrintable_of_range (by decide) (by decide) h
  all_goals rfl

theorem isPrintable_of_addressCharacter {c : Char} (h : addressCharacter c = true) :
    isPrintable c = true := by
  simp only [addressCharacter, Bool.or_eq_true, beq_iff_eq] at h
  rcases h with ((h | h) | h) | rfl
  · exact isPrintable_of_range (by decide) (by decide) h
  · exact isPrintable_of_range (by decide) (by decide) h
  · exact isPrintable_of_range (by decide) (by decide) h
  · rfl

theorem isPrintable_of_mem_host {host : List Char} (h : host ∈ NativeContextSchema.host) :
    ∀ c ∈ host, isPrintable c = true := by
  intro c hc
  rcases mem_host.mp h with ⟨-, hall⟩ | ⟨inner, rfl, -, hall⟩
  · exact isPrintable_of_hostCharacter (hostCharacter_eq c ▸ hall c hc)
  · simp only [List.cons_append, List.mem_cons, List.mem_append, List.not_mem_nil, or_false] at hc
    rcases hc with rfl | hc | rfl
    · rfl
    · exact isPrintable_of_addressCharacter (addressCharacter_eq c ▸ hall c hc)
    · rfl

/-- A URI has no control characters. -/
theorem Spells.printable {value : String} {host digits back : List Char}
    (h : Spells value host digits back) (hdigits : ∀ c ∈ digits, c.isDigit = true) :
    value.toList.all isPrintable = true := by
  rw [h.text, List.all_append, List.all_append, List.all_append, List.all_cons]
  have hhost := List.all_eq_true.mpr (isPrintable_of_mem_host h.host)
  have hport : digits.all isPrintable = true :=
    List.all_eq_true.mpr fun c hc => isPrintable_of_isDigit (hdigits c hc)
  have hback : back.all isPrintable = true := by
    rcases h.back with rfl | rfl
    · rfl
    · rfl
  rw [hhost, hport, hback]
  rfl

/-! ## The checks -/

/-- The checks on `rosMasterUri` of `NativeContext::FromInstanceSpec`. -/
def checkMasterUri (value : String) : Except Exn Unit := do
  validateNoControlCharacters value "rosMasterUri"
  validateLength value maximumMasterUriBytes "rosMasterUri"
  validateMasterUri value

theorem validateMasterUri_eq_ok {value : String} :
    validateMasterUri value = .ok () ↔
      ∃ digits, masterUriPattern value = some digits ∧
        1 ≤ Nat.ofDigitChars 10 digits 0 ∧ Nat.ofDigitChars 10 digits 0 ≤ 65535 := by
  unfold validateMasterUri
  cases masterUriPattern value with
  | none => exact ⟨nofun, nofun⟩
  | some digits =>
      rw [check_eq_ok, Bool.and_eq_true, bne_iff_ne, decide_eq_true_eq, ← Nat.one_le_iff_ne_zero]
      constructor
      · exact fun h => ⟨digits, rfl, h⟩
      · rintro ⟨_, ⟨⟩, h⟩
        exact h

/-- **What the code accepts**: one to five digits that stand for a port. -/
theorem checkMasterUri_eq_ok {value : String} :
    checkMasterUri value = .ok () ↔
      value.length ≤ 2048 ∧ ∃ host digits back, Spells value host digits back ∧
        IsDigits digits ∧ 1 ≤ Nat.ofDigitChars 10 digits 0 ∧
        Nat.ofDigitChars 10 digits 0 ≤ 65535 := by
  simp only [checkMasterUri, bind_eq_ok, validateNoControlCharacters, validateLength, check_eq_ok,
    validateMasterUri_eq_ok, masterUriPattern_eq_some, maximumMasterUriBytes]
  constructor
  · rintro ⟨-, -, -, hlength, digits, ⟨hdigits, host, back, h⟩, hport⟩
    exact ⟨of_decide_eq_true hlength, host, digits, back, h, hdigits, hport⟩
  · rintro ⟨hlength, host, digits, back, h, hdigits, hport⟩
    exact ⟨(), h.printable hdigits.digits, (), decide_eq_true hlength, digits,
      ⟨hdigits, host, back, h⟩, hport⟩

/-- **What the schema accepts**: a numeral from 1 to 65535. -/
theorem accepts_iff {value : String} :
    Accepts value ↔
      value.length ≤ 2048 ∧ ∃ host digits back, Spells value host digits back ∧
        IsNumeral digits ∧ 1 ≤ Nat.ofDigitChars 10 digits 0 ∧
        Nat.ofDigitChars 10 digits 0 ≤ 65535 := by
  constructor
  · rintro ⟨hlength, hpattern⟩
    obtain ⟨address, haddress, htext⟩ := mem_text_mul.mp hpattern
    obtain ⟨host, hhost, colon, hcolon, rfl⟩ := Language.mem_mul.mp haddress
    obtain ⟨rest, hrest, rfl⟩ := mem_text_mul.mp hcolon
    obtain ⟨digits, hport, back, hback, rfl⟩ := Language.mem_mul.mp hrest
    exact ⟨hlength, host, digits, back, ⟨htext, hhost, mem_opt_text.mp hback⟩,
      mem_port_iff.mp hport⟩
  · rintro ⟨hlength, host, digits, back, h, hport⟩
    refine ⟨hlength, mem_text_mul.mpr ⟨_, ?_, h.text⟩⟩
    refine Language.mem_mul.mpr ⟨host, h.host, _, mem_text_mul.mpr ⟨digits ++ back, ?_, rfl⟩, rfl⟩
    exact Language.mem_mul.mpr
      ⟨digits, mem_port_iff.mpr hport, back, mem_opt_text.mpr h.back, rfl⟩

/-! ## The two compared -/

/-- Whether the port that the code reads does not start with a zero. -/
def hasCanonicalPort (value : String) : Bool :=
  (masterUriPattern value).all fun digits => digits.head? != some '0'

theorem IsDigits.of_isNumeral {cs : List Char} (h : IsNumeral cs)
    (hle : Nat.ofDigitChars 10 cs 0 ≤ 65535) : IsDigits cs where
  digits := h.digits
  pos := List.length_pos_of_ne_nil h.ne_nil
  le := length_le_of_isNumeral h hle

theorem IsDigits.isNumeral {cs : List Char} (h : IsDigits cs) (hhead : cs.head? ≠ some '0') :
    IsNumeral cs where
  ne_nil := List.ne_nil_of_length_pos h.pos
  digits := h.digits
  leading hzero := absurd hzero hhead

/-- **The schema accepts what the code accepts, up to zeros in front of the port.** -/
theorem accepts_iff_checkMasterUri {value : String} :
    Accepts value ↔ checkMasterUri value = .ok () ∧ hasCanonicalPort value = true := by
  rw [accepts_iff, checkMasterUri_eq_ok]
  constructor
  · rintro ⟨hlength, host, digits, back, h, hnumeral, hpos, hle⟩
    have hdigits := IsDigits.of_isNumeral hnumeral hle
    refine ⟨⟨hlength, host, digits, back, h, hdigits, hpos, hle⟩, ?_⟩
    rw [hasCanonicalPort, h.masterUriPattern_eq hdigits, Option.all_some, bne_iff_ne]
    intro hzero
    rw [hnumeral.leading hzero] at hpos
    exact absurd hpos (by decide)
  · rintro ⟨⟨hlength, host, digits, back, h, hdigits, hport⟩, hcanonical⟩
    rw [hasCanonicalPort, h.masterUriPattern_eq hdigits, Option.all_some, bne_iff_ne] at hcanonical
    exact ⟨hlength, host, digits, back, h, hdigits.isNumeral hcanonical, hport⟩

/-- A host and the number of a port, as a URI without a slash at the end. -/
def spelling (host : List Char) (port : Nat) : String :=
  "http://" ++ String.ofList host ++ ":" ++ toString port

/-- A URI has a host and the number of a port. -/
def Names (value : String) (host : List Char) (port : Nat) : Prop :=
  ∃ digits back, Spells value host digits back ∧ IsDigits digits ∧
    Nat.ofDigitChars 10 digits 0 = port

theorem Names.eq_spelling {value : String} {host : List Char} {port : Nat}
    (h : Names value host port) (hcanonical : hasCanonicalPort value = true) :
    value = spelling host port ∨ value = spelling host port ++ "/" := by
  obtain ⟨digits, back, h, hdigits, rfl⟩ := h
  rw [hasCanonicalPort, h.masterUriPattern_eq hdigits, Option.all_some, bne_iff_ne] at hcanonical
  have hport := (hdigits.isNumeral hcanonical).toDigits_ofDigitChars
  have hspelling : (spelling host (Nat.ofDigitChars 10 digits 0)).toList =
      "http://".toList ++ (host ++ (':' :: digits)) := by
    simp [spelling, hport]
  simp only [← String.toList_inj, String.toList_append, hspelling, h.text]
  rcases h.back with rfl | rfl
  · left
    simp
  · right
    simp

/-- A host and a port within the length, with a zero in front of the number of the port. -/
def HasPaddedPort (value : String) : Prop :=
  value.length ≤ 2048 ∧ ∃ host digits back, Spells value host digits back ∧ IsDigits digits ∧
    digits.head? = some '0' ∧ 1 ≤ Nat.ofDigitChars 10 digits 0 ∧
    Nat.ofDigitChars 10 digits 0 ≤ 65535

theorem hasPaddedPort_iff {value : String} :
    HasPaddedPort value ↔ checkMasterUri value = .ok () ∧ hasCanonicalPort value = false := by
  have hcanonical : ∀ {host digits back}, Spells value host digits back → IsDigits digits →
      (hasCanonicalPort value = false ↔ digits.head? = some '0') := by
    intro host digits back h hdigits
    rw [hasCanonicalPort, h.masterUriPattern_eq hdigits, Option.all_some, bne_eq_false_iff_eq]
  rw [checkMasterUri_eq_ok]
  constructor
  · rintro ⟨hlength, host, digits, back, h, hdigits, hzero, hport⟩
    exact ⟨⟨hlength, host, digits, back, h, hdigits, hport⟩, (hcanonical h hdigits).mpr hzero⟩
  · rintro ⟨⟨hlength, host, digits, back, h, hdigits, hport⟩, hzero⟩
    exact ⟨hlength, host, digits, back, h, hdigits, (hcanonical h hdigits).mp hzero, hport⟩

/-- The master URI of a configuration that is read has passed the checks. -/
theorem Platform.checkMasterUri_of_readConfiguration (platform : Platform) {value : String}
    {rosMasterUri rosIp rosHostname : String}
    (h : platform.readConfiguration value = .ok (rosMasterUri, rosIp, rosHostname)) :
    checkMasterUri rosMasterUri = .ok () := by
  unfold Platform.readConfiguration at h
  simp only [bind_eq_ok] at h
  obtain ⟨_, _, _, _, _, _, uri, _, ip, _, hostname, _, _, hcontrol, _, _, _, _, _, hlength, _, _,
    _, _, _, huri, _, _, _, _, _, _, hreturn⟩ := h
  cases hreturn
  simp only [checkMasterUri, bind_eq_ok]
  exact ⟨(), hcontrol, (), hlength, huri⟩

/-- **The code accepts the master URIs of the schema**, exactly if the port of the text has no
zero in front; then a host and a port number are spelled with or without a slash at the end, and
in no other way.  The checks are those of every configuration that is read. -/
theorem master_uri_accepted_iff_schema (value : String) :
    ((checkMasterUri value = .ok () ↔ Accepts value) ↔ ¬HasPaddedPort value) ∧
      (checkMasterUri value = .ok () → ¬HasPaddedPort value →
        (∃ host port, Names value host port) ∧
          ∀ host port, Names value host port →
            value = spelling host port ∨ value = spelling host port ++ "/") ∧
      ∀ (platform : Platform) (text rosIp rosHostname : String),
        platform.readConfiguration text = .ok (value, rosIp, rosHostname) →
        checkMasterUri value = .ok () := by
  refine ⟨?_, fun hok hpadded => ⟨?_, fun host port hnames => hnames.eq_spelling ?_⟩,
    fun platform text rosIp rosHostname => platform.checkMasterUri_of_readConfiguration⟩
  · rw [accepts_iff_checkMasterUri, hasPaddedPort_iff, iff_self_and, not_and, Bool.not_eq_false]
  · obtain ⟨-, host, digits, back, hspells, hdigits, -⟩ := checkMasterUri_eq_ok.mp hok
    exact ⟨host, _, digits, back, hspells, hdigits, rfl⟩
  · rw [hasPaddedPort_iff, not_and, Bool.not_eq_false] at hpadded
    exact hpadded hok

theorem master_uri_accepted_iff_schema_sample :
    ¬HasPaddedPort "http://[fe80::1]:11311/" ∧ Accepts "http://[fe80::1]:11311/" := by
  have hok : checkMasterUri "http://[fe80::1]:11311/" = .ok () := by decide +kernel
  have hpadded : ¬HasPaddedPort "http://[fe80::1]:11311/" := by
    rw [hasPaddedPort_iff]
    exact fun h => absurd h.2 (by decide +kernel)
  exact ⟨hpadded, ((master_uri_accepted_iff_schema _).1.mpr hpadded).mp hok⟩

/-- A zero in front of the port is accepted, against the schema, and the same host and port
have a third spelling. -/
theorem leading_zero_accepted :
    checkMasterUri "http://h:080" = .ok () ∧ ¬Accepts "http://h:080" ∧
      ∀ value ∈ ["http://h:80", "http://h:80/", "http://h:080"],
        checkMasterUri value = .ok () ∧ Names value ['h'] 80 := by
  have hhost : ['h'] ∈ NativeContextSchema.host :=
    mem_host.mpr (.inl ⟨nofun, List.forall_mem_singleton.mpr (by decide)⟩)
  refine ⟨by decide +kernel, ?_, ?_⟩
  · rw [accepts_iff_checkMasterUri]
    rintro ⟨-, hcanonical⟩
    exact absurd hcanonical (by decide +kernel)
  · simp only [List.forall_mem_cons]
    refine ⟨⟨by decide +kernel, ['8', '0'], [], ⟨by decide, hhost, by decide⟩, ?_, rfl⟩,
      ⟨by decide +kernel, ['8', '0'], ['/'], ⟨by decide, hhost, by decide⟩, ?_, rfl⟩,
      ⟨by decide +kernel, ['0', '8', '0'], [], ⟨by decide, hhost, by decide⟩, ?_, rfl⟩, nofun⟩
    all_goals exact ⟨List.all_eq_true.mp rfl, by decide, by decide⟩

end Ros1Tools.Adapter
