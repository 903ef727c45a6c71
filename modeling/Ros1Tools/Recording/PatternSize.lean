import Ros1Tools.Recording.Parameters

/-!
# The size of the exclusion pattern

The names that the preparation accepts have no characters that `re.escape` escapes, so
the size of the exclusion pattern is the size of the names plus that of the text around
them.
-/

namespace Ros1Tools.Recording

open Lib Lib.Python

/-! ## Names are not escaped -/

theorem isPlain_of_isWord {c : Char} (h : isWord c = true) : c ∉ Regex.specialChars := by
  intro hmem
  have hall : (Regex.specialChars.all fun d => !isWord d) = true := by decide
  have hc := List.all_eq_true.mp hall c hmem
  rw [h] at hc
  exact Bool.false_ne_true hc

theorem isWord_of_isNameStart {c : Char} (h : isNameStart c = true) : isWord c = true := by
  rw [isNameStart, Bool.or_eq_true] at h
  rw [isWord, Bool.or_eq_true]
  refine h.imp_left fun halpha => ?_
  rw [Char.isAlphanum, halpha, Bool.true_or]

/-- The characters of segments are word characters and slashes. -/
theorem isPlain_of_segments (cs : List Char) :
    (segments isNameStart cs = true → ∀ c ∈ cs, c ∉ Regex.specialChars) ∧
    (restOfSegment isNameStart cs = true → ∀ c ∈ cs, c ∉ Regex.specialChars) := by
  induction cs with
  | nil =>
      have hnone : ∀ c ∈ ([] : List Char), c ∉ Regex.specialChars :=
        fun c hc => absurd hc List.not_mem_nil
      exact ⟨fun _ => hnone, fun _ => hnone⟩
  | cons d cs ih =>
      constructor
      · intro h c hc
        rw [segments, Bool.and_eq_true] at h
        rcases List.mem_cons.mp hc with rfl | hc
        · exact isPlain_of_isWord (isWord_of_isNameStart h.1)
        · exact ih.2 h.2 c hc
      · intro h c hc
        rw [restOfSegment] at h
        by_cases hd : d = '/'
        · rw [if_pos hd] at h
          rcases List.mem_cons.mp hc with rfl | hc
          · rw [hd]
            decide
          · exact ih.1 h c hc
        · rw [if_neg hd, Bool.and_eq_true] at h
          rcases List.mem_cons.mp hc with rfl | hc
          · exact isPlain_of_isWord h.1
          · exact ih.2 h.2 c hc

theorem exists_of_isAbsolute {text : String} (h : isAbsolute text = true) :
    ∃ cs, text.toList = '/' :: cs ∧ segments isNameStart cs = true := by
  unfold isAbsolute at h
  split at h
  · next cs hcs => exact ⟨cs, hcs, h⟩
  · exact absurd h Bool.false_ne_true

theorem startsWith_of_isAbsolute {text : String} (h : isAbsolute text = true) :
    startsWith text "/" = true := by
  obtain ⟨cs, hcs, -⟩ := exists_of_isAbsolute h
  exact startsWith_iff.mpr ⟨cs, hcs⟩

theorem escape_of_isAbsolute {text : String} (h : isAbsolute text = true) :
    escape text = text := by
  obtain ⟨cs, hcs, hsegments⟩ := exists_of_isAbsolute h
  have hplain : ∀ c ∈ text.toList, c ∉ Regex.specialChars := by
    intro c hc
    rw [hcs] at hc
    rcases List.mem_cons.mp hc with rfl | hc
    · decide
    · exact (isPlain_of_segments cs).1 hsegments c hc
  rw [escape, Regex.escape_of_plain hplain, String.ofList_toList]

/-! ## The size of the pattern -/

/-- The bytes of the names, with a separator for each. -/
def joinedBytes (names : List String) : Nat := (names.map fun name => name.utf8ByteSize + 1).sum

/-- The size of the exclusion pattern of topics that need no escapes. -/
def patternBytes (topics excluded : List String) : Nat :=
  26 + joinedBytes excluded +
    if (explicitCopies topics).isEmpty then 0 else 8 + joinedBytes (explicitCopies topics)

theorem utf8ByteSize_intercalate {names : List String} (hne : names ≠ []) :
    ("|".intercalate names).utf8ByteSize + 1 = joinedBytes names := by
  induction names with
  | nil => exact absurd rfl hne
  | cons name names ih =>
      cases names with
      | nil =>
          rw [String.intercalate_singleton]
          rfl
      | cons next rest =>
          have htail := ih (List.cons_ne_nil _ _)
          have hcons : joinedBytes (name :: next :: rest) =
              name.utf8ByteSize + 1 + joinedBytes (next :: rest) := List.sum_cons
          have hbar : "|".utf8ByteSize = 1 := rfl
          rw [String.intercalate_cons_cons, String.utf8ByteSize_append, String.utf8ByteSize_append,
            hbar, hcons, ← htail]
          omega

theorem joinedBytes_append (names more : List String) :
    joinedBytes (names ++ more) = joinedBytes names + joinedBytes more := by
  rw [joinedBytes, List.map_append, List.sum_append]
  rfl

theorem map_escape {names : List String} (h : ∀ name ∈ names, isAbsolute name = true) :
    names.map escape = names :=
  (List.map_congr_left fun name hname => escape_of_isAbsolute (h name hname)).trans
    (List.map_id names)

theorem utf8ByteSize_derivedPattern {topics : List String}
    (h : ∀ topic ∈ topics, isAbsolute topic = true) :
    (derivedPattern topics).utf8ByteSize =
      20 + if (explicitCopies topics).isEmpty then 0
        else 8 + joinedBytes (explicitCopies topics) := by
  have hcopies : ∀ topic ∈ explicitCopies topics, isAbsolute topic = true :=
    fun topic htopic => h topic (List.mem_of_mem_filter htopic)
  have hdisplay : "/xgc/display(?:/.*)?".utf8ByteSize = 20 := rfl
  have hopen : "(?!(?:".utf8ByteSize = 6 := rfl
  have hclose : ")$)".utf8ByteSize = 3 := rfl
  unfold derivedPattern
  split
  · exact hdisplay
  · next hne =>
      rw [List.isEmpty_iff] at hne
      have hjoin := utf8ByteSize_intercalate hne
      rw [map_escape hcopies, String.utf8ByteSize_append, String.utf8ByteSize_append,
        String.utf8ByteSize_append, hdisplay, hopen, hclose]
      omega

theorem utf8ByteSize_exclusionPattern {topics excluded : List String}
    (htopics : ∀ topic ∈ topics, isAbsolute topic = true)
    (hexcluded : ∀ name ∈ excluded, isAbsolute name = true) :
    (exclusionPattern topics excluded).utf8ByteSize = patternBytes topics excluded := by
  have hopen : "^(?:".utf8ByteSize = 4 := rfl
  have hclose : ")$".utf8ByteSize = 2 := rfl
  have hne : excluded ++ [derivedPattern topics] ≠ [] := by simp
  have hjoin := utf8ByteSize_intercalate hne
  have hlast : joinedBytes [derivedPattern topics] = (derivedPattern topics).utf8ByteSize + 1 := rfl
  rw [joinedBytes_append, hlast, utf8ByteSize_derivedPattern htopics] at hjoin
  rw [exclusionPattern, map_escape hexcluded, String.utf8ByteSize_append,
    String.utf8ByteSize_append, hopen, hclose, patternBytes]
  omega

end Ros1Tools.Recording
