import Mathlib.Data.List.Basic
import Mathlib.Logic.Function.Basic

/-!
# Storage behind a cache

What a process sees of a file system and what a power cut leaves of it are different
things.  Here a directory is `Cached`: besides its present state it remembers every state
it has had since it was last synced, and a power cut may leave any one of them, so that
a change of the directory is made as a whole or not at all.  The contents of a file are
not ordered with the directory: they survive if the file was synced after it was last
written, and are anything otherwise.

A file without a name keeps its contents here.  They cannot be seen, and a power cut can
bring the name back.
-/

namespace Ros1Tools.Lib

/-! ## A cached value -/

/-- A value, and the values it had since it was last synced. -/
structure Cached (δ : Type) where
  now : δ
  earlier : List δ

namespace Cached

variable {δ : Type} (c : Cached δ)

/-- What a power cut may leave. -/
def views : List δ := c.now :: c.earlier

/-- A change that is not synced. -/
def update (next : δ) : Cached δ := ⟨next, c.views⟩

def sync : Cached δ := ⟨c.now, []⟩

variable {c}

theorem now_mem_views : c.now ∈ c.views := List.mem_cons_self

/-- What holds of the new value and of the views so far holds of all views. -/
theorem forall_views_update {p : δ → Prop} {next : δ} :
    (∀ d ∈ (c.update next).views, p d) ↔ p next ∧ ∀ d ∈ c.views, p d :=
  List.forall_mem_cons

theorem forall_views_sync {p : δ → Prop} (h : ∀ d ∈ c.views, p d) : ∀ d ∈ c.sync.views, p d :=
  List.forall_mem_singleton.mpr (h _ now_mem_views)

end Cached

/-! ## A directory and its files -/

/-- A directory, the contents of the files, and which contents are synced. -/
structure Storage (δ ι φ : Type) where
  directory : Cached δ
  files : ι → φ
  synced : ι → Bool

namespace Storage

variable {δ ι φ : Type} (v : Storage δ ι φ)

/-- The directory is changed: a name is added, replaced or removed. -/
def setDirectory (next : δ) : Storage δ ι φ := { v with directory := v.directory.update next }

def syncDirectory : Storage δ ι φ := { v with directory := v.directory.sync }

/-- What is found when the power is back: one of the directories since the last sync, and
the contents that were synced. -/
structure Survives (v v' : Storage δ ι φ) : Prop where
  directory : v'.directory.now ∈ v.directory.views
  earlier : v'.directory.earlier = []
  files : ∀ id, v.synced id = true → v'.files id = v.files id
  synced : ∀ id, v'.synced id = true

variable {v}

theorem Survives.views {v' : Storage δ ι φ} (h : v.Survives v') :
    v'.directory.views = [v'.directory.now] := by
  rw [Cached.views, h.earlier]

/-- Everything is on the medium. -/
def settled (v : Storage δ ι φ) : Storage δ ι φ := ⟨v.directory.sync, v.files, fun _ => true⟩

/-- The power may go without harm. -/
theorem survives_settled (v : Storage δ ι φ) : v.Survives v.settled :=
  ⟨Cached.now_mem_views, rfl, fun _ _ => rfl, fun _ => rfl⟩

section Files

variable [DecidableEq ι] (v : Storage δ ι φ)

/-- A file gets new contents. -/
def write (id : ι) (contents : φ) : Storage δ ι φ :=
  { v with
    files := Function.update v.files id contents
    synced := Function.update v.synced id false }

def syncFile (id : ι) : Storage δ ι φ := { v with synced := Function.update v.synced id true }

variable {v}

theorem files_write_of_ne {id other : ι} (contents : φ) (h : other ≠ id) :
    (v.write id contents).files other = v.files other :=
  Function.update_of_ne h _ _

theorem synced_write_of_ne {id other : ι} (contents : φ) (h : other ≠ id) :
    (v.write id contents).synced other = v.synced other :=
  Function.update_of_ne h _ _

@[simp] theorem files_write_self {id : ι} (contents : φ) :
    (v.write id contents).files id = contents :=
  Function.update_self _ _ _

@[simp] theorem synced_syncFile_self {id : ι} : (v.syncFile id).synced id = true :=
  Function.update_self _ _ _

/-- Syncing a file makes no other file unsafe. -/
theorem synced_syncFile {id other : ι} (h : v.synced other = true) :
    (v.syncFile id).synced other = true := by
  by_cases hid : other = id
  · rw [hid]
    exact synced_syncFile_self
  · exact (Function.update_of_ne hid _ _).trans h

end Files

end Storage

end Ros1Tools.Lib
