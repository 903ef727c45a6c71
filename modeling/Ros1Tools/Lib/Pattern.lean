import Mathlib.Computability.Language
import Mathlib.Data.List.TakeWhile

/-!
# The languages of patterns

What an anchored pattern `^…$` without lookahead matches is a language, built from classes of
characters with Mathlib's operations on languages: products, sums, powers and stars.  The
lemmas below say which texts the building blocks contain; `{0,n}` is a power of an option.
-/

namespace Ros1Tools.Lib.Pattern

/-- One character of a class. -/
def cls (p : Char → Bool) : Language Char := {cs | ∃ c, p c = true ∧ cs = [c]}

/-- The text itself. -/
def text (cs : List Char) : Language Char := {cs}

/-- `…?`. -/
def opt (l : Language Char) : Language Char := 1 + l

/-- `…+`. -/
def plus (l : Language Char) : Language Char := l * KStar.kstar l

/-- `[lo-hi]`. -/
def range (lo hi : Char) (c : Char) : Bool := decide (lo ≤ c) && decide (c ≤ hi)

variable {p : Char → Bool} {l m : Language Char} {cs : List Char}

theorem range_iff {lo hi c : Char} :
    range lo hi c = true ↔ lo.toNat ≤ c.toNat ∧ c.toNat ≤ hi.toNat := by
  rw [range, Bool.and_eq_true, decide_eq_true_eq, decide_eq_true_eq]
  rfl

theorem range_upper (c : Char) : range 'A' 'Z' c = c.isUpper := by
  have hupper : c.isUpper = true ↔ c.val ≥ 'A'.val ∧ c.val ≤ 'Z'.val := decide_eq_true_iff
  rw [Bool.eq_iff_iff, range_iff, hupper]
  rfl

theorem range_lower (c : Char) : range 'a' 'z' c = c.isLower := by
  have hlower : c.isLower = true ↔ c.val ≥ 'a'.val ∧ c.val ≤ 'z'.val := by
    change (decide _ && decide _) = true ↔ _
    rw [Bool.and_eq_true, decide_eq_true_eq, decide_eq_true_eq]
  rw [Bool.eq_iff_iff, range_iff, hlower]
  rfl

theorem range_digit (c : Char) : range '0' '9' c = c.isDigit := by
  rw [Bool.eq_iff_iff, range_iff, Char.isDigit_iff_toNat]

theorem mem_cls_mul : cs ∈ cls p * l ↔ ∃ c rest, p c = true ∧ rest ∈ l ∧ cs = c :: rest := by
  rw [Language.mem_mul]
  constructor
  · rintro ⟨_, ⟨c, hc, rfl⟩, rest, hrest, rfl⟩
    exact ⟨c, rest, hc, hrest, rfl⟩
  · rintro ⟨c, rest, hc, hrest, rfl⟩
    exact ⟨[c], ⟨c, hc, rfl⟩, rest, hrest, rfl⟩

theorem mem_text_mul {front : List Char} :
    cs ∈ text front * l ↔ ∃ rest, rest ∈ l ∧ cs = front ++ rest := by
  rw [Language.mem_mul]
  constructor
  · rintro ⟨_, rfl, rest, hrest, rfl⟩
    exact ⟨rest, hrest, rfl⟩
  · rintro ⟨rest, hrest, rfl⟩
    exact ⟨front, rfl, rest, hrest, rfl⟩

theorem mem_opt_text {back : List Char} : cs ∈ opt (text back) ↔ cs = [] ∨ cs = back :=
  Iff.rfl

/-- `[…]*`. -/
theorem mem_kstar_cls : cs ∈ KStar.kstar (cls p) ↔ ∀ c ∈ cs, p c = true := by
  rw [Language.mem_kstar]
  constructor
  · rintro ⟨parts, rfl, hparts⟩ c hc
    obtain ⟨part, hpart, hc⟩ := List.mem_flatten.mp hc
    obtain ⟨d, hd, rfl⟩ := hparts part hpart
    rw [List.mem_singleton.mp hc]
    exact hd
  · intro h
    refine ⟨cs.map fun c => [c], ?_, ?_⟩
    · simp [List.flatten_eq_flatMap, List.flatMap_map]
    · intro part hpart
      obtain ⟨c, hc, rfl⟩ := List.mem_map.mp hpart
      exact ⟨c, h c hc, rfl⟩

/-- `[…]+`. -/
theorem mem_plus_cls : cs ∈ plus (cls p) ↔ cs ≠ [] ∧ ∀ c ∈ cs, p c = true := by
  rw [plus, mem_cls_mul]
  constructor
  · rintro ⟨c, rest, hc, hrest, rfl⟩
    exact ⟨by simp, List.forall_mem_cons.mpr ⟨hc, mem_kstar_cls.mp hrest⟩⟩
  · rintro ⟨hne, h⟩
    obtain ⟨c, rest, rfl⟩ := List.exists_cons_of_ne_nil hne
    obtain ⟨hc, hrest⟩ := List.forall_mem_cons.mp h
    exact ⟨c, rest, hc, mem_kstar_cls.mpr hrest, rfl⟩

/-- `[…]{n}`. -/
theorem mem_cls_pow {n : Nat} : cs ∈ cls p ^ n ↔ cs.length = n ∧ ∀ c ∈ cs, p c = true := by
  induction n generalizing cs with
  | zero =>
      rw [pow_zero, Language.mem_one, List.length_eq_zero_iff]
      constructor
      · rintro rfl
        exact ⟨rfl, nofun⟩
      · exact fun h => h.1
  | succ n ih =>
      rw [pow_succ', mem_cls_mul]
      constructor
      · rintro ⟨c, rest, hc, hrest, rfl⟩
        obtain ⟨hlength, hall⟩ := ih.mp hrest
        exact ⟨congrArg (· + 1) hlength, List.forall_mem_cons.mpr ⟨hc, hall⟩⟩
      · rintro ⟨hlength, hall⟩
        obtain ⟨c, rest, rfl⟩ := List.exists_cons_of_length_eq_add_one hlength
        obtain ⟨hc, hrest⟩ := List.forall_mem_cons.mp hall
        exact ⟨c, rest, hc, ih.mpr ⟨Nat.succ.inj hlength, hrest⟩, rfl⟩

/-- `[…]{0,n}`. -/
theorem mem_opt_cls_pow {n : Nat} :
    cs ∈ opt (cls p) ^ n ↔ cs.length ≤ n ∧ ∀ c ∈ cs, p c = true := by
  induction n generalizing cs with
  | zero =>
      rw [pow_zero, Language.mem_one, Nat.le_zero, List.length_eq_zero_iff]
      constructor
      · rintro rfl
        exact ⟨rfl, nofun⟩
      · exact fun h => h.1
  | succ n ih =>
      rw [pow_succ', opt, add_mul, one_mul, Language.mem_add, ← opt, ih, mem_cls_mul]
      constructor
      · rintro (⟨hlength, hall⟩ | ⟨c, rest, hc, hrest, rfl⟩)
        · exact ⟨Nat.le_succ_of_le hlength, hall⟩
        · obtain ⟨hlength, hall⟩ := ih.mp hrest
          exact ⟨Nat.succ_le_succ hlength, List.forall_mem_cons.mpr ⟨hc, hall⟩⟩
      · rintro ⟨hlength, hall⟩
        cases cs with
        | nil => exact .inl ⟨Nat.zero_le _, hall⟩
        | cons c rest =>
            obtain ⟨hc, hrest⟩ := List.forall_mem_cons.mp hall
            exact .inr ⟨c, rest, hc, ih.mpr ⟨Nat.le_of_succ_le_succ hlength, hrest⟩, rfl⟩

/-! ## Scanning -/

/-- Where a scan over a class of characters stops. -/
theorem span_iff {front back : List Char} :
    cs.takeWhile p = front ∧ cs.dropWhile p = back ↔
      cs = front ++ back ∧ (∀ c ∈ front, p c = true) ∧ ∀ c ∈ back.head?, p c = false := by
  constructor
  · rintro ⟨rfl, rfl⟩
    refine ⟨List.takeWhile_append_dropWhile.symm, fun c => List.mem_takeWhile_imp, ?_⟩
    intro c hc
    have hne : cs.dropWhile p ≠ [] := fun hnil => by simp [hnil] at hc
    rw [List.head?_eq_some_head hne, Option.mem_some_iff] at hc
    rw [← hc]
    exact List.head_dropWhile_not p hne
  · rintro ⟨rfl, hfront, hback⟩
    rw [List.takeWhile_append_of_pos hfront, List.dropWhile_append_of_pos hfront]
    cases back with
    | nil => simp
    | cons c back =>
        have hc : ¬p c = true := by simp [hback c rfl]
        rw [List.takeWhile_cons_of_neg hc, List.dropWhile_cons_of_neg hc, List.append_nil]
        exact ⟨rfl, rfl⟩

end Ros1Tools.Lib.Pattern
