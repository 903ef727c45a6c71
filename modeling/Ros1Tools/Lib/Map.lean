import Mathlib.Data.List.Nodup
import Mathlib.Data.List.Perm.Subperm

/-!
# Maps told by some of their entries and their size

A map that has all the entries of another one, and no more of them, is that map.
-/

namespace Ros1Tools.Lib

variable {α β : Type} {cmp : α → α → Ordering} [Std.TransCmp cmp] [Std.LawfulEqCmp cmp]

theorem nodup_keys (m : Std.ExtTreeMap α β cmp) : m.keys.Nodup :=
  m.distinct_keys.imp fun hne heq => hne (Std.LawfulEqCmp.compare_eq_iff_eq.mpr heq)

/-- **Entries and size determine a map.** -/
theorem eq_of_getElem?_of_size_le {m m' : Std.ExtTreeMap α β cmp}
    (hentries : ∀ (a : α) (b : β), m[a]? = some b → m'[a]? = some b) (hsize : m'.size ≤ m.size) :
    m' = m := by
  have hsub : m.keys ⊆ m'.keys := by
    intro a ha
    obtain ⟨b, hb⟩ := Option.isSome_iff_exists.mp
      (Std.ExtTreeMap.mem_iff_isSome_getElem?.mp (Std.ExtTreeMap.mem_keys.mp ha))
    refine Std.ExtTreeMap.mem_keys.mpr (Std.ExtTreeMap.mem_iff_isSome_getElem?.mpr ?_)
    rw [hentries a b hb]
    rfl
  have hperm : m.keys.Perm m'.keys := by
    refine (List.subperm_of_subset (nodup_keys m) hsub).perm_of_length_le ?_
    rw [Std.ExtTreeMap.length_keys, Std.ExtTreeMap.length_keys]
    exact hsize
  refine Std.ExtTreeMap.ext_getElem? fun a => ?_
  cases hb : m[a]? with
  | some b => exact hentries a b hb
  | none =>
      -- A key that only the other map had would be one too many.
      cases hb' : m'[a]? with
      | none => rfl
      | some b =>
          have hmem : a ∈ m'.keys := by
            refine Std.ExtTreeMap.mem_keys.mpr (Std.ExtTreeMap.mem_iff_isSome_getElem?.mpr ?_)
            rw [hb']
            rfl
          have hmem := Std.ExtTreeMap.mem_iff_isSome_getElem?.mp
            (Std.ExtTreeMap.mem_keys.mp (hperm.mem_iff.mpr hmem))
          rw [hb] at hmem
          cases hmem

end Ros1Tools.Lib
