import Ros1Tools.Archive.Keep

/-!
# What each step of the finalization does

One specification for every function of the finalization.  A specification names what
holds when the function returns, and what holds wherever it stops otherwise; that part
is the same for all steps of a phase, so it is a parameter `P` of `ends`.

The specifications also say *why* a run stops: a crash needs a crash, and an exception
needs a system call that raised one, or a directory that is not `Closed`.  That the
uninterrupted finalization of a closed archive returns is then a matter of allowing
nothing.
-/

namespace Ros1Tools.Archive

open Lib Lib.Faulty

section Steps

variable (allowed : Fate PyException → Prop) (r : Recorder) (before : FileSystem)

/-- In a closed archive, only a system call raises. -/
def Excused : Prop := r.Closed before → ∃ e, allowed (.error e)

/-- Returns with `R`, and otherwise stops for a reason and where `P` holds. -/
def ends {α : Type} (P : Session → Prop) (R : α → Session → Prop) :
    Post PyException Session α :=
  ⟨R, fun _ s => P s ∧ Excused allowed r before, fun s => P s ∧ allowed .crash⟩

variable {allowed r before} {α β : Type} {P : Session → Prop} {s : Session}
  {R : α → Session → Prop} {name : String}

/-! ## System calls -/

theorem wp_step {f : Session → Except PyException (α × Session)} (hP : P s)
    (hok : ∀ a s', f s = .ok (a, s') → R a s')
    (herror : ∀ e, f s = .error e → Excused allowed r before) :
    Wp allowed (atomic f) (ends allowed r before P R) s :=
  Wp.atomic hok (fun e he => ⟨hP, herror e he⟩) (fun e he => ⟨hP, fun _ => ⟨e, he⟩⟩)
    fun hcrash => ⟨hP, hcrash⟩

theorem wp_sync {R : Unit → Session → Prop} (hP : P s) (hR : R () s) :
    Wp allowed sync (ends allowed r before P R) s :=
  wp_step hP (by rintro _ _ ⟨⟩; exact hR) (by rintro _ ⟨⟩)

theorem wp_recordedPaths {R : List String → Session → Prop} (hP : P s)
    (hR : R (r.recordedNames s.disk.directory) s) :
    Wp allowed r.recordedPaths (ends allowed r before P R) s :=
  wp_step hP (by rintro _ _ ⟨⟩; exact hR) (by rintro _ ⟨⟩)

theorem wp_lstat {R : FileInfo → Session → Prop} (hP : P s)
    (hsome : ∀ id, s.disk.directory[name]? = some id → R (s.disk.info id) s)
    (hnone : s.disk.directory[name]? = none → Excused allowed r before) :
    Wp allowed (r.lstat name) (ends allowed r before P R) s := by
  cases hid : s.disk.directory[name]? with
  | none =>
      refine wp_step hP (fun info s' h => ?_) fun _ _ => hnone hid
      rw [FileSystem.lstat_of_none hid] at h
      exact absurd h (by simp)
  | some id =>
      refine wp_step hP (fun info s' h => ?_) fun e h => ?_
      · rw [FileSystem.lstat_of_some hid] at h
        cases h
        exact hsome id hid
      · rw [FileSystem.lstat_of_some hid] at h
        exact absurd h (by simp)

/-- `os.path.lexists` misses a name only because a system call raised. -/
theorem wp_lexists {R : Bool → Session → Prop} (hP : P s)
    (htrue : ∀ id, s.disk.directory[name]? = some id → R true s)
    (hfalse : s.disk.directory[name]? = none ∨ (∃ e, allowed (.error e)) → R false s) :
    Wp allowed (r.lexists name) (ends allowed r before P R) s := by
  refine Wp.tryCatch (F := fun e s' => s = s' ∧
    (s.disk.directory[name]? = none ∧ e.isOSError = true ∨ ∃ e, allowed (.error e))) ?_ ?_
  · refine Wp.bind (R := fun _ s' => R true s') ?_ fun _ _ h => Wp.pure h
    refine Wp.atomic (fun info s' h => ?_) (fun e h => ⟨rfl, .inl ?_⟩)
      (fun e he => ⟨rfl, .inr ⟨e, he⟩⟩) fun hcrash => ⟨hP, hcrash⟩
    · cases hid : s.disk.directory[name]? with
      | none => rw [FileSystem.lstat_of_none hid] at h; exact absurd h (by simp)
      | some id =>
          rw [FileSystem.lstat_of_some hid] at h
          cases h
          exact htrue id hid
    · cases hid : s.disk.directory[name]? with
      | none => rw [FileSystem.lstat_of_none hid] at h; cases h; exact ⟨rfl, rfl⟩
      | some id => rw [FileSystem.lstat_of_some hid] at h; exact absurd h (by simp)
  · rintro e _ ⟨rfl, hwhy⟩
    split
    · exact Wp.pure (hfalse (hwhy.imp_left And.left))
    · rename_i hos
      refine Wp.throw ⟨hP, fun _ => ?_⟩
      exact hwhy.resolve_left fun h => hos h.2

theorem wp_require {R : Unit → Session → Prop} {c : Prop} [Decidable c] {e : PyException}
    (hP : P s) (hpos : c → R () s) (hneg : ¬c → Excused allowed r before) :
    Wp allowed (require c e) (ends allowed r before P R) s :=
  Wp.require hpos fun h => ⟨hP, hneg h⟩

theorem wp_writeManifest {R : Unit → Session → Prop} (hP : P s) (hwritten : P s.written)
    (hR : R () s.written) : Wp allowed writeManifest (ends allowed r before P R) s := by
  refine Wp.bind_eq (wp_sync hP rfl) fun _ => ?_
  refine Wp.bind (R := fun _ s' => s.written = s') ?_ ?_
  · exact wp_step hP (by rintro _ _ ⟨⟩; rfl) (by rintro _ ⟨⟩)
  · rintro _ _ rfl
    exact wp_sync hwritten hR

theorem wp_unlink {R : Unit → Session → Prop} {id : FileId} (hP : P s)
    (hid : s.disk.directory[name]? = some id) (hR : R () (s.update (s.disk.removeName name id))) :
    Wp allowed (r.unlink name) (ends allowed r before P R) s := by
  refine wp_step hP (fun _ s' h => ?_) fun e h => ?_
  · rw [hid] at h
    cases h
    exact hR
  · rw [hid] at h
    exact absurd h (by simp)

end Steps

/-! ## Moving a volume -/

/-- The segments are pinned on disk, in the manifest `doc`, and in the document. -/
structure Moving (r : Recorder) (before : FileSystem) (doc : Manifest) (s : Session) : Prop where
  keeps : Keeps r before s.disk.toFileSystem
  manifest : s.disk.manifest = some doc
  recording : s.document.toRecording = doc.toRecording
  segments : s.document.archiveSegments = some (r.segments before)

section Moving

variable {allowed : Fate PyException → Prop} {r : Recorder} {before : FileSystem}
  {doc : Manifest} {s : Session} {seg : Segment}

theorem Moving.update (h : Moving r before doc s) {fs : FileSystem} (hkeeps : Keeps r before fs) :
    Moving r before doc (s.update fs) :=
  ⟨hkeeps, h.manifest, h.recording, h.segments⟩

/-- A name that was not there is linked; one that was there must be this very file. -/
theorem wp_link {R : Unit → Session → Prop} (h : Moving r before doc s)
    (hseg : seg ∈ r.segments before) (hsource : s.disk.directory[seg.sourceName]? = some seg.file)
    (hregular : (s.disk.files seg.file).isRegular = true)
    (hR : ∀ fs : FileSystem, Keeps r before fs → fs.directory[seg.name]? = some seg.file →
      (∀ name, name ≠ seg.name → fs.directory[name]? = s.disk.directory[name]?) →
        R () (s.update fs)) :
    Wp allowed (tryCatch (r.link seg.sourceName seg.name)
      (r.resumeLink (s.disk.info seg.file) seg.name))
      (ends allowed r before (Moving r before doc) R) s := by
  refine Wp.tryCatch (F := fun e s' => s = s' ∧
    ((∃ id, s.disk.directory[seg.name]? = some id) ∧ e.isFileExistsError = true ∨
      ∃ e, allowed (.error e))) ?_ ?_
  · refine Wp.atomic (fun _ s' hok => ?_) (fun e herror => ⟨rfl, .inl ?_⟩)
      (fun e he => ⟨rfl, .inr ⟨e, he⟩⟩) fun hcrash => ⟨h, hcrash⟩
    · rw [hsource] at hok
      simp only at hok
      split at hok
      · exact absurd hok (by simp)
      · rename_i hfree
        have hnone : s.disk.directory[seg.name]? = none := by
          rw [Std.ExtTreeMap.mem_iff_isSome_getElem?, Bool.not_eq_true,
            Option.isSome_eq_false_iff] at hfree
          exact Option.isNone_iff_eq_none.mp hfree
        cases hok
        exact hR _ (h.keeps.link hseg hnone) FileSystem.addName_same
          fun name hne => FileSystem.addName_of_ne hne.symm
    · rw [hsource] at herror
      simp only at herror
      split at herror
      · rename_i htaken
        cases herror
        exact ⟨Option.isSome_iff_exists.mp (Std.ExtTreeMap.mem_iff_isSome_getElem?.mp htaken), rfl⟩
      · exact absurd herror (by simp)
  · rintro e _ ⟨rfl, hwhy⟩
    unfold Recorder.resumeLink
    split
    · refine Wp.bind (R := fun info s' => s = s' ∧
        ∃ id, s.disk.directory[seg.name]? = some id ∧ info = s.disk.info id)
        (wp_lstat h (fun id hid => ⟨rfl, id, hid, rfl⟩) fun hnone _ => ?_) ?_
      · refine hwhy.resolve_left fun htaken => ?_
        obtain ⟨⟨id, hid⟩, -⟩ := htaken
        exact absurd (hnone.symm.trans hid) (by simp)
      · rintro _ _ ⟨rfl, id, hid, rfl⟩
        refine wp_require h (fun hsame => ?_) fun hother hclosed => ?_
        · refine hR s.disk.toFileSystem h.keeps ?_ fun _ _ => rfl
          rw [hid, show id = seg.file from hsame.2.symm]
        · obtain rfl := hclosed.name_eq h.keeps hseg hid
          exact absurd ⟨hregular, rfl⟩ hother
    · rename_i hexists
      exact Wp.throw ⟨h, fun _ => hwhy.resolve_left fun htaken => hexists htaken.2⟩

/-- **Moving a volume** ends with it under its issued name only.  Wherever it stops, the
volume has one of its two names. -/
theorem wp_moveClosedWithoutReplacement {R : Unit → Session → Prop} (h : Moving r before doc s)
    (hseg : seg ∈ r.segments before) (hsource : s.disk.directory[seg.sourceName]? = some seg.file)
    (hregular : (s.disk.files seg.file).isRegular = true)
    (hR : ∀ fs : FileSystem, Keeps r before fs → Moved fs seg →
      (∀ name, name ≠ seg.sourceName → name ≠ seg.name →
        fs.directory[name]? = s.disk.directory[name]?) → R () (s.update fs)) :
    Wp allowed (r.moveClosedWithoutReplacement seg.sourceName seg.name)
      (ends allowed r before (Moving r before doc) R) s := by
  have hne : seg.sourceName ≠ seg.name := (Recorder.name_ne_sourceName hseg hseg).symm
  have hstat : Wp allowed (r.lstat seg.sourceName) (ends allowed r before (Moving r before doc)
      fun info s' => s = s' ∧ info = s.disk.info seg.file) s := by
    refine wp_lstat h (fun id hid => ⟨rfl, ?_⟩) fun hnone => ?_
    · rw [h.keeps.sourceName_eq hseg hid]
    · exact absurd (hnone.symm.trans hsource) (by simp)
  unfold Recorder.moveClosedWithoutReplacement
  refine Wp.bind hstat ?_
  rintro _ _ ⟨rfl, rfl⟩
  refine Wp.bind_eq (wp_require h (fun _ => rfl) fun hnot => absurd hregular hnot) fun _ => ?_
  refine Wp.bind hstat ?_
  rintro _ _ ⟨rfl, rfl⟩
  refine Wp.bind_eq (wp_require h (fun _ => rfl) fun hnot => absurd rfl hnot) fun _ => ?_
  refine Wp.bind_eq (wp_sync h rfl) fun _ => ?_
  refine Wp.bind (wp_link (R := fun _ s' => ∃ fs, s.update fs = s' ∧ Keeps r before fs ∧
    fs.directory[seg.name]? = some seg.file ∧
      ∀ name, name ≠ seg.name → fs.directory[name]? = s.disk.directory[name]?) h hseg hsource
    hregular fun fs hkeeps hname hframe => ⟨fs, rfl, hkeeps, hname, hframe⟩) ?_
  rintro _ _ ⟨fs, rfl, hkeeps, hname, hframe⟩
  refine Wp.bind_eq (wp_sync (h.update hkeeps) rfl) fun _ => ?_
  have hlinked : fs.directory[seg.sourceName]? = some seg.file := (hframe _ hne).trans hsource
  refine Wp.bind_eq (wp_unlink (h.update hkeeps) hlinked rfl) fun _ => ?_
  refine wp_sync (h.update (hkeeps.unlink hseg hname)) (hR _ (hkeeps.unlink hseg hname) ?_ ?_)
  · exact ⟨FileSystem.removeName_same, (FileSystem.removeName_of_ne hne).trans hname⟩
  · intro name hsourceName hissued
    exact (FileSystem.removeName_of_ne hsourceName.symm).trans (hframe name hissued)

end Moving

end Ros1Tools.Archive
