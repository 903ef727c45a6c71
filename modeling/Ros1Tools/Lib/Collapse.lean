import Mathlib.Data.List.Destutter

/-!
# Sequences without repetitions

`List.destutter (· ≠ ·)` collapses consecutive equal entries of a list to one.  Here it is
read from the other end, the way a history grows: what a further entry adds depends on the
last entry only.
-/

namespace Ros1Tools.Lib

variable {α : Type} [DecidableEq α]

private theorem destutter'_concat (b : α) (l : List α) (a : α) :
    (l ++ [a]).destutter' (· ≠ ·) b =
      if (b :: l).getLast? = some a then l.destutter' (· ≠ ·) b
      else l.destutter' (· ≠ ·) b ++ [a] := by
  induction l generalizing b with
  | nil =>
      by_cases h : b = a
      · simp [h]
      · simp [h]
  | cons c l ih =>
      by_cases h : b = c
      · subst h
        rw [List.cons_append, List.destutter'_cons_neg _ (not_not.mpr rfl),
          List.destutter'_cons_neg _ (not_not.mpr rfl), ih, List.getLast?_cons_cons]
      · rw [List.cons_append, List.destutter'_cons_pos _ h, List.destutter'_cons_pos _ h, ih,
          List.getLast?_cons_cons]
        split
        · rfl
        · rfl

/-- **One more entry** is kept if it is not equal to the last one. -/
theorem destutter_concat (l : List α) (a : α) :
    (l ++ [a]).destutter (· ≠ ·) =
      if l.getLast? = some a then l.destutter (· ≠ ·) else l.destutter (· ≠ ·) ++ [a] := by
  cases l with
  | nil => rfl
  | cons b l => exact destutter'_concat b l a

end Ros1Tools.Lib
