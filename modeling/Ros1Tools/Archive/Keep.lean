import Ros1Tools.Archive.Volume

/-!
# What the finalization keeps

The finalization moves every volume of a directory from its native name to its issued
one, by a link and an unlink, and may be cut off between any two of these.  `Keeps`
describes all directories it can leave behind, whatever else was in the directory
before: no name is lost but the native name of a volume, that volume is then found
under its issued name, and no name is added but issued ones.  A link to a free issued
name and an unlink of a volume that has its issued name both keep it.

`Settled` describes the directory and the manifest at the end.  It determines both.
-/

namespace Ros1Tools.Archive

open Lib

/-- The names and files of the directory are those before the finalization. -/
def Untouched (before fs : FileSystem) : Prop :=
  fs.directory = before.directory ∧ fs.files = before.files

/-- The volumes of the directory are somewhere between their two names, and everything
else is as it was before the finalization. -/
structure Keeps (r : Recorder) (before fs : FileSystem) : Prop where
  files : fs.files = before.files
  named : ∀ seg ∈ r.segments before,
    fs.directory[seg.sourceName]? = some seg.file ∨ fs.directory[seg.name]? = some seg.file
  others : ∀ (name : String) (id : FileId), before.directory[name]? = some id →
    (∀ seg ∈ r.segments before, seg.sourceName ≠ name) → fs.directory[name]? = some id
  added : ∀ (name : String) (id : FileId), fs.directory[name]? = some id →
    before.directory[name]? = some id ∨
      ∃ seg ∈ r.segments before, seg.name = name ∧ seg.file = id

/-- A volume has its issued name and no longer its native one. -/
def Moved (fs : FileSystem) (seg : Segment) : Prop :=
  fs.directory[seg.sourceName]? = none ∧ fs.directory[seg.name]? = some seg.file

/-- The entries of the volumes that were not closed. -/
def partialBags (fs : FileSystem) (names : List String) : List BagFile :=
  names.filterMap fun name =>
    if isActive name then (fs.lstat name).map fun info => .partialBag name info.sizeBytes
    else none

/-- The finalization is complete: every volume is moved, and the manifest lists the open
volumes and the closed ones. -/
structure Settled (r : Recorder) (before fs : FileSystem) (manifest : Manifest) : Prop where
  moved : ∀ seg ∈ r.segments before, Moved fs seg
  segments : manifest.archiveSegments = some (r.segments before)
  error : manifest.archiveFinalizationError = none
  bagFiles : manifest.bagFiles = partialBags fs (r.recordedNames fs.directory) ++
    (r.byIndex (r.segments before)).entries

/-- Every recorded name is a closed volume of the native recorder or an open one, and a
regular file. -/
def Recorder.Closed (r : Recorder) (before : FileSystem) : Prop :=
  ∀ name ∈ r.recordedNames before.directory,
    ((before.lstat name).any (·.isRegular) = true) ∧
      (isActive name = true ∨ (r.nativeIndex name).isSome = true)

instance Recorder.Closed.instDecidable (r : Recorder) (before : FileSystem) :
    Decidable (r.Closed before) :=
  inferInstanceAs (Decidable (∀ name ∈ r.recordedNames before.directory, _))

variable {r : Recorder} {before fs : FileSystem} {seg : Segment}

/-! ## Moving a volume -/

theorem Untouched.keeps (h : Untouched before fs) : Keeps r before fs where
  files := h.2
  named seg hseg := .inl (by rw [h.1]; exact Recorder.directory_of_mem hseg)
  others name id hid _ := by rw [h.1]; exact hid
  added name id hid := .inl (by rw [h.1] at hid; exact hid)

namespace Keeps

/-- Only its own volume is ever found under a native name. -/
theorem sourceName_eq (h : Keeps r before fs) (hseg : seg ∈ r.segments before) {id : FileId}
    (hid : fs.directory[seg.sourceName]? = some id) : id = seg.file := by
  rcases h.added _ _ hid with hbefore | ⟨seg', hseg', hname, -⟩
  · rw [Recorder.directory_of_mem hseg] at hbefore
    exact (Option.some.inj hbefore).symm
  · exact absurd hname (Recorder.name_ne_sourceName hseg' hseg)

/-- A volume without its native name has its issued one. -/
theorem name_of_absent (h : Keeps r before fs) (hseg : seg ∈ r.segments before)
    (habsent : fs.directory[seg.sourceName]? = none) :
    fs.directory[seg.name]? = some seg.file := by
  rcases h.named seg hseg with hsource | hname
  · rw [habsent] at hsource
    exact absurd hsource (by simp)
  · exact hname

/-- **Linking** a volume to its issued name, if there is no such name. -/
theorem link (h : Keeps r before fs) (hseg : seg ∈ r.segments before)
    (hfree : fs.directory[seg.name]? = none) : Keeps r before (fs.addName seg.name seg.file) := by
  have hother : ∀ (name : String) (id : FileId), fs.directory[name]? = some id →
      (fs.addName seg.name seg.file).directory[name]? = some id := by
    intro name id hid
    rw [FileSystem.addName_of_ne]
    · exact hid
    · rintro rfl
      rw [hfree] at hid
      exact absurd hid (by simp)
  refine ⟨h.files, fun seg' hseg' => ?_,
    fun name id hid hne => hother _ _ (h.others name id hid hne), fun name id hid => ?_⟩
  · exact (h.named seg' hseg').imp (hother _ _) (hother _ _)
  · by_cases hname : seg.name = name
    · subst hname
      rw [FileSystem.addName_same] at hid
      exact .inr ⟨seg, hseg, rfl, Option.some.inj hid⟩
    · rw [FileSystem.addName_of_ne hname] at hid
      exact h.added name id hid

/-- **Unlinking** the native name of a volume that has its issued one.  The bytes stay,
since the issued name is another name of the same file. -/
theorem unlink (h : Keeps r before fs) (hseg : seg ∈ r.segments before)
    (hname : fs.directory[seg.name]? = some seg.file) :
    Keeps r before (fs.removeName seg.sourceName seg.file) := by
  have hdest : ∀ seg' ∈ r.segments before,
      (fs.removeName seg.sourceName seg.file).directory[seg'.name]? = fs.directory[seg'.name]? :=
    fun seg' hseg' => FileSystem.removeName_of_ne (Recorder.name_ne_sourceName hseg' hseg).symm
  refine ⟨?_, fun seg' hseg' => ?_, fun name id hid hne => ?_, fun name id hid => ?_⟩
  · rw [FileSystem.files_removeName (Recorder.name_ne_sourceName hseg hseg).symm hname]
    exact h.files
  · -- The volume itself is left with its issued name; the others keep what they have.
    by_cases heq : seg.sourceName = seg'.sourceName
    · obtain rfl := Recorder.eq_of_sourceName hseg hseg' heq
      exact .inr ((hdest seg hseg).trans hname)
    · rw [FileSystem.removeName_of_ne heq, hdest seg' hseg']
      exact h.named seg' hseg'
  · rw [FileSystem.removeName_of_ne (hne seg hseg)]
    exact h.others name id hid hne
  · by_cases heq : seg.sourceName = name
    · subst heq
      rw [FileSystem.removeName_same] at hid
      exact absurd hid (by simp)
    · rw [FileSystem.removeName_of_ne heq] at hid
      exact h.added name id hid

end Keeps

/-! ## Closed archives -/

namespace Recorder.Closed

variable (hclosed : r.Closed before) {name : String} {id : FileId}

include hclosed

theorem isRegular (hid : before.directory[name]? = some id) (hrecorded : r.isRecorded name = true) :
    (before.files id).isRegular = true := by
  have h := (hclosed name (mem_recordedNames.mpr ⟨⟨id, hid⟩, hrecorded⟩)).1
  rw [FileSystem.lstat_of_some hid] at h
  exact h

/-- A closed recorded name is a volume's. -/
theorem exists_segment (hid : before.directory[name]? = some id)
    (hrecorded : r.isRecorded name = true) (hactive : isActive name = false) :
    ∃ seg ∈ r.segments before, seg.sourceName = name := by
  rcases (hclosed name (mem_recordedNames.mpr ⟨⟨id, hid⟩, hrecorded⟩)).2 with h | h
  · exact absurd (hactive.symm.trans h) (by decide)
  · obtain ⟨index, hindex⟩ := Option.isSome_iff_exists.mp h
    obtain rfl := r.nativeIndex_eq_some.mp hindex
    exact ⟨_, Recorder.mem_segments.mpr ⟨index, id, hid, rfl⟩, rfl⟩

/-- Issued names are free before the finalization. -/
theorem name_free (hseg : seg ∈ r.segments before) : before.directory[seg.name]? = none := by
  cases hid : before.directory[seg.name]? with
  | none => rfl
  | some id =>
      obtain ⟨seg', hseg', hname⟩ := hclosed.exists_segment hid (Recorder.isRecorded_name hseg)
        (Recorder.isActive_name hseg)
      exact absurd hname.symm (Recorder.name_ne_sourceName hseg hseg')

/-- Only its own volume is ever found under an issued name. -/
theorem name_eq (h : Keeps r before fs) (hseg : seg ∈ r.segments before)
    (hid : fs.directory[seg.name]? = some id) : id = seg.file := by
  rcases h.added _ _ hid with hbefore | ⟨seg', hseg', hname, hfile⟩
  · rw [hclosed.name_free hseg] at hbefore
    exact absurd hbefore (by simp)
  · rw [← hfile, Recorder.eq_of_name hseg' hseg hname]

end Recorder.Closed

/-! ## The end of the finalization -/

/-- **A settled directory is determined** by what was there before. -/
theorem Keeps.directory_eq {fs' : FileSystem} (h : Keeps r before fs) (h' : Keeps r before fs')
    (hmoved : ∀ seg ∈ r.segments before, Moved fs seg)
    (hmoved' : ∀ seg ∈ r.segments before, Moved fs' seg) : fs = fs' := by
  -- What is found in one of the two is found in the other.
  have hsub : ∀ {fs fs' : FileSystem}, Keeps r before fs → Keeps r before fs' →
      (∀ seg ∈ r.segments before, Moved fs seg) → (∀ seg ∈ r.segments before, Moved fs' seg) →
      ∀ (name : String) (id : FileId), fs.directory[name]? = some id →
        fs'.directory[name]? = some id := by
    intro fs fs' h h' hmoved hmoved' name id hid
    rcases h.added name id hid with hbefore | ⟨seg, hseg, rfl, rfl⟩
    · refine h'.others name id hbefore fun seg hseg hname => ?_
      rw [← hname, (hmoved seg hseg).1] at hid
      exact absurd hid (by simp)
    · exact (hmoved' seg hseg).2
  refine FileSystem.ext (Std.ExtTreeMap.ext_getElem? fun name => ?_) (h.files.trans h'.files.symm)
  exact Option.ext fun id =>
    ⟨hsub h h' hmoved hmoved' name id, hsub h' h hmoved' hmoved name id⟩

end Ros1Tools.Archive
