import Mathlib.Data.List.Basic
import Ros1Tools.Lib.Decimal

/-!
# The names of bag files

A recorder writes its volumes under *native* names, numbered from zero behind an
underscore, with `.active` at the end as long as a volume is open.  When the record
is finalized every closed volume is given its *issued* name, which depends on its
number and on how many volumes there are.  The directory may hold other files, of
which those that look like bag files of this record are *recorded* too.

What the finalization rests on is that these names never get in each other's way:
native names are never issued names, and both kinds are numbered without repetition.
-/

namespace Ros1Tools.Archive

open Lib

/-- What a recorder process is told about the record it writes. -/
structure Recorder where
  outputDirectory : String
  prefixName : String
  recordingId : String
deriving DecidableEq, Repr

/-- `str.zfill` of a text without a sign. -/
def zfill (text : String) (width : Nat) : String :=
  String.ofList (text.toList.leftpad width '0')

/-- `name.endswith(".bag.active")`: a volume that was not closed. -/
def isActive (name : String) : Bool := ".bag.active".toList.isSuffixOf name.toList

/-- The expression `0|[1-9][0-9]*`. -/
def matchesIndex (digits : List Char) : Bool :=
  digits == ['0'] ||
    (digits.head?.any fun c => c.isDigit && c != '0') && digits.all Char.isDigit

namespace Recorder

variable (r : Recorder)

/-- Whether `recorded_paths` lists a name. -/
def isRecorded (name : String) : Bool :=
  match name.toList.dropPrefix? r.prefixName.toList with
  | none => false
  | some suffix =>
      (suffix.head?.any fun c => c == '_' || c == '-' || c == '.') &&
        (".bag".toList.isSuffixOf suffix || ".bag.active".toList.isSuffixOf suffix)

/-- `native_pattern.fullmatch(name)`, and `int(match.group(1))` where it matches. -/
def nativeIndex (name : String) : Option Nat :=
  ((name.toList.dropPrefix? (r.prefixName.toList ++ ['_'])).bind fun suffix =>
    suffix.dropSuffix? ".bag".toList).bind fun digits =>
      if matchesIndex digits then some (Nat.ofDigitChars 10 digits 0) else none

/-- The name the native recorder gives a closed volume. -/
def nativeName (index : Nat) : String :=
  r.prefixName ++ "_" ++ toString index ++ ".bag"

/-- `issued_bag_name`: one closed volume is the record, several are its parts. -/
def issuedBagName (index count : Nat) : String :=
  if count = 1 ∧ index = 0 then r.prefixName ++ ".bag"
  else r.prefixName ++ "-part" ++ zfill (toString (index + 1)) 2 ++ ".bag"

end Recorder

/-! ## Numbers in names -/

theorem toList_toString_nat (n : Nat) : (toString n).toList = Nat.toDigits 10 n := by
  rw [Nat.toString_eq_ofList_toDigits, String.toList_ofList]

theorem matchesIndex_iff {digits : List Char} :
    matchesIndex digits = true ↔ IsNumeral digits := by
  constructor
  · intro h
    rcases Bool.or_eq_true_iff.mp h with h | h
    · rw [beq_iff_eq.mp h]
      exact ⟨List.cons_ne_nil _ _, List.forall_mem_singleton.mpr rfl, fun _ => rfl⟩
    · obtain ⟨hhead, hall⟩ := Bool.and_eq_true_iff.mp h
      cases digits with
      | nil => exact absurd hhead (by decide)
      | cons c cs =>
          refine ⟨List.cons_ne_nil _ _, List.all_eq_true.mp hall, fun hzero => ?_⟩
          cases hzero
          exact absurd hhead (by simp)
  · intro h
    cases digits with
    | nil => exact absurd rfl h.ne_nil
    | cons c cs =>
        by_cases hc : c = '0'
        · rw [h.leading (by rw [hc]; rfl)]
          rfl
        · have hall : (c :: cs).all Char.isDigit = true := List.all_eq_true.mpr h.digits
          have hdigit := h.digits c List.mem_cons_self
          simp [matchesIndex, hall, hdigit, hc]

theorem ofDigitChars_zfill (n : Nat) (width : Nat) :
    Nat.ofDigitChars 10 (zfill (toString n) width).toList 0 = n := by
  rw [zfill, String.toList_ofList, toList_toString_nat, List.leftpad, Nat.ofDigitChars_append,
    Nat.ofDigitChars_replicate_zero, Nat.mul_zero, Nat.ofDigitChars_ten_toDigits]

/-! ## Names -/

/-- A closed volume's name does not end like an open one's. -/
theorem isActive_append_bag (text : String) : isActive (text ++ ".bag") = false := by
  refine Bool.eq_false_iff.mpr fun h => ?_
  have hactive := List.isSuffixOf_iff_suffix.mp h
  have hbag : ".bag".toList <:+ (text ++ ".bag").toList :=
    ⟨text.toList, String.toList_append.symm⟩
  exact absurd (List.suffix_of_suffix_length_le hbag hactive (by decide)) (by decide)

namespace Recorder

variable (r : Recorder)

theorem toList_nativeName (index : Nat) : (r.nativeName index).toList =
    (r.prefixName.toList ++ ['_']) ++ (Nat.toDigits 10 index ++ ".bag".toList) := by
  simp only [nativeName, String.toList_append, toList_toString_nat, List.append_assoc]
  rfl

/-- **The native pattern matches exactly the native names**, and reads their index. -/
theorem nativeIndex_eq_some {name : String} {index : Nat} :
    r.nativeIndex name = some index ↔ name = r.nativeName index := by
  unfold nativeIndex
  constructor
  · intro h
    obtain ⟨digits, hdigits, hindex⟩ := Option.bind_eq_some_iff.mp h
    obtain ⟨suffix, hsuffix, hdigits⟩ := Option.bind_eq_some_iff.mp hdigits
    obtain ⟨front, hname, hfront⟩ := List.dropPrefix?_eq_some_iff.mp hsuffix
    obtain ⟨back, hsplit, hback⟩ := List.dropSuffix?_eq_some_iff.mp hdigits
    split at hindex
    · rename_i hmatches
      cases hindex
      refine String.toList_inj.mp ?_
      rw [toList_nativeName, (matchesIndex_iff.mp hmatches).toDigits_ofDigitChars, hname, hsplit,
        beq_iff_eq.mp hfront, beq_iff_eq.mp hback]
    · exact absurd hindex (by simp)
  · rintro rfl
    have hsuffix := List.dropPrefix?_eq_some_iff.mpr
      ⟨_, r.toList_nativeName index, beq_self_eq_true (r.prefixName.toList ++ ['_'])⟩
    have hdigits := List.dropSuffix?_eq_some_iff.mpr
      ⟨_, rfl (a := Nat.toDigits 10 index ++ ".bag".toList), beq_self_eq_true ".bag".toList⟩
    rw [hsuffix, Option.bind_some, hdigits, Option.bind_some,
      if_pos (matchesIndex_iff.mpr (isNumeral_toDigits index)), Nat.ofDigitChars_ten_toDigits]

theorem nativeName_injective {i j : Nat} (h : r.nativeName i = r.nativeName j) : i = j := by
  have hi : r.nativeIndex (r.nativeName i) = some i := r.nativeIndex_eq_some.mpr rfl
  have hj : r.nativeIndex (r.nativeName j) = some j := r.nativeIndex_eq_some.mpr rfl
  rw [h, hj] at hi
  exact (Option.some.inj hi).symm

/-- Two volumes of a record are never issued the same name. -/
theorem issuedBagName_injective {i j count : Nat}
    (h : r.issuedBagName i count = r.issuedBagName j count) : i = j := by
  unfold issuedBagName at h
  -- A part name is longer than the name of an only volume, by the word in it.
  have hlong : ∀ n, r.prefixName ++ ".bag" ≠
      r.prefixName ++ "-part" ++ zfill (toString (n + 1)) 2 ++ ".bag" := by
    intro n hn
    have hlength := congrArg String.length hn
    have hpart : "-part".length = 5 := rfl
    simp only [String.length_append] at hlength
    omega
  by_cases hi : count = 1 ∧ i = 0
  · by_cases hj : count = 1 ∧ j = 0
    · rw [hi.2, hj.2]
    · rw [if_pos hi, if_neg hj] at h
      exact absurd h (hlong j)
  · by_cases hj : count = 1 ∧ j = 0
    · rw [if_neg hi, if_pos hj] at h
      exact absurd h.symm (hlong i)
    · rw [if_neg hi, if_neg hj, String.append_left_inj, String.append_right_inj] at h
      have hvalue := congrArg (fun text : String => Nat.ofDigitChars 10 text.toList 0) h
      simp only [ofDigitChars_zfill] at hvalue
      omega

/-- What follows the prefix of an issued name. -/
theorem toList_issuedBagName (index count : Nat) :
    ∃ suffix : List Char, (r.issuedBagName index count).toList = r.prefixName.toList ++ suffix ∧
      (suffix.head? = some '.' ∨ suffix.head? = some '-') ∧ ".bag".toList <:+ suffix := by
  unfold issuedBagName
  split
  · exact ⟨".bag".toList, String.toList_append, .inl rfl, List.suffix_rfl⟩
  · refine ⟨"-part".toList ++ (zfill (toString (index + 1)) 2).toList ++ ".bag".toList, ?_,
      .inr rfl, List.suffix_append _ _⟩
    simp only [String.toList_append, List.append_assoc]

/-- **An issued name is never a native one.** -/
theorem issuedBagName_ne_nativeName (i count j : Nat) :
    r.issuedBagName i count ≠ r.nativeName j := by
  intro h
  obtain ⟨suffix, htext, hhead, -⟩ := r.toList_issuedBagName i count
  rw [h, toList_nativeName, List.append_assoc] at htext
  rw [← List.append_cancel_left htext] at hhead
  exact absurd hhead (by simp)

theorem isRecorded_of_suffix {name : String} {suffix : List Char}
    (hname : name.toList = r.prefixName.toList ++ suffix)
    (hhead : suffix.head? = some '_' ∨ suffix.head? = some '.' ∨ suffix.head? = some '-')
    (hbag : ".bag".toList <:+ suffix) : r.isRecorded name = true := by
  have hdrop : name.toList.dropPrefix? r.prefixName.toList = some suffix :=
    List.dropPrefix?_eq_some_iff.mpr ⟨_, hname, beq_self_eq_true _⟩
  have hsuffix : ".bag".toList.isSuffixOf suffix = true := List.isSuffixOf_iff_suffix.mpr hbag
  simp only [isRecorded, hdrop, hsuffix, Bool.true_or, Bool.and_true]
  rcases hhead with h | h | h <;> rw [h] <;> rfl

theorem isRecorded_nativeName (index : Nat) : r.isRecorded (r.nativeName index) = true := by
  have htext := r.toList_nativeName index
  rw [List.append_assoc] at htext
  exact r.isRecorded_of_suffix htext (.inl rfl) ⟨'_' :: Nat.toDigits 10 index, by simp⟩

theorem isRecorded_issuedBagName (index count : Nat) :
    r.isRecorded (r.issuedBagName index count) = true := by
  obtain ⟨suffix, htext, hhead, hbag⟩ := r.toList_issuedBagName index count
  exact r.isRecorded_of_suffix htext (.inr hhead) hbag

@[simp] theorem isActive_nativeName (index : Nat) : isActive (r.nativeName index) = false :=
  isActive_append_bag _

@[simp] theorem isActive_issuedBagName (index count : Nat) :
    isActive (r.issuedBagName index count) = false := by
  unfold issuedBagName
  split <;> exact isActive_append_bag _

end Recorder

end Ros1Tools.Archive
