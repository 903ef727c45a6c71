import Ros1Tools.Archive.Settle

/-!
# What a recorder leaves on disk

A disk is `Sound`, relative to the directory before the finalization, if the volumes are
between their two names and the manifest fits the directory: as long as no segments are
pinned the directory is untouched, the pinned segments are those of the directory
before, and a finalized manifest means that the directory is settled.  A finalization
that starts from a sound disk leaves a sound disk wherever it stops, and so does a
restart.
-/

namespace Ros1Tools.Archive

open Lib Lib.Faulty

/-- A manifest can stand beside a directory. -/
structure Fits (r : Recorder) (before fs : FileSystem) (manifest : Manifest) : Prop where
  segments : manifest.archiveSegments = none ∧ Untouched before fs ∨
    manifest.archiveSegments = some (r.segments before)
  finalized : manifest.archiveFinalizationState = some .finalized → Settled r before fs manifest

structure Sound (r : Recorder) (before : FileSystem) (disk : Disk) : Prop where
  keeps : Keeps r before disk.toFileSystem
  fits : ∃ manifest, disk.manifest = some manifest ∧ Fits r before disk.toFileSystem manifest

/-- The manifest on disk is of this recording, and its finalization has begun. -/
def Held (recording : Recording) (disk : Disk) : Prop :=
  ∃ manifest, disk.manifest = some manifest ∧ manifest.toRecording = recording ∧
    manifest.archiveFinalizationState ≠ none

/-- The manifest on disk is of this recording, and its finalization is complete. -/
def Finished (recording : Recording) (disk : Disk) : Prop :=
  ∃ manifest, disk.manifest = some manifest ∧ manifest.toRecording = recording ∧
    manifest.archiveFinalizationState = some .finalized

/-- What one run leaves: a sound disk, with the manifest from before the run or one that
the run has written. -/
structure Left (r : Recorder) (before : FileSystem) (start : Option Manifest)
    (recording : Recording) (disk : Disk) : Prop extends Sound r before disk where
  stage : disk.manifest = start ∨ Held recording disk

section Runs

variable {allowed : Fate PyException → Prop} {r : Recorder} {before : FileSystem}
  {doc : Manifest} {s : Session} {start : Option Manifest} {recording : Recording}

theorem Sound.manifest {disk : Disk} (h : Sound r before disk) {manifest : Manifest}
    (hmanifest : disk.manifest = some manifest) : Fits r before disk.toFileSystem manifest := by
  obtain ⟨manifest', hmanifest', hfits⟩ := h.fits
  obtain rfl := Option.some.inj (hmanifest'.symm.trans hmanifest)
  exact hfits

/-- Writing a document that fits. -/
theorem left_written (hkeeps : Keeps r before s.disk.toFileSystem)
    (hfits : Fits r before s.disk.toFileSystem s.document)
    (hrecording : s.document.toRecording = recording)
    (hstate : s.document.archiveFinalizationState ≠ none) :
    Left r before start recording s.written.disk where
  keeps := hkeeps
  fits := ⟨_, rfl, hfits⟩
  stage := .inr ⟨_, rfl, hrecording, hstate⟩

/-- While volumes are moved, the manifest on disk is pending. -/
theorem Moving.left (h : Moving r before doc s) (hrecording : doc.toRecording = recording)
    (hsegments : doc.archiveSegments = some (r.segments before))
    (hstate : doc.archiveFinalizationState = some .pending) :
    Left r before start recording s.disk where
  keeps := h.keeps
  fits := ⟨doc, h.manifest, .inr hsegments,
    fun hfinal => absurd (hstate.symm.trans hfinal) (by simp)⟩
  stage := .inr ⟨doc, h.manifest, hrecording, by rw [hstate]; simp⟩

/-! ## Pinning -/

/-- A name that is skipped is not a volume's. -/
theorem closedVolume_eq_none {fs : FileSystem} {name : String}
    (h : isActive name = true ∨ r.nativeIndex name = none) : r.closedVolume fs name = none := by
  cases hvolume : r.closedVolume fs name with
  | none => rfl
  | some seg =>
      obtain ⟨index, id, rfl, -, -⟩ := Recorder.closedVolume_eq_some.mp hvolume
      rcases h with h | h
      · exact absurd h (by simp)
      · exact absurd (h.symm.trans (r.nativeIndex_eq_some.mpr rfl)) (by simp)

theorem wp_pinSegment {P : Session → Prop} (hP : P s)
    (huntouched : Untouched before s.disk.toFileSystem) {name : String}
    (hname : name ∈ r.recordedNames before.directory) (segments : List Segment) :
    Wp allowed (r.pinSegment segments name) (ends allowed r before P fun segments' s' =>
      s = s' ∧ segments' = segments ++ (r.closedVolume before name).toList) s := by
  obtain ⟨⟨id, hid⟩, hrecorded⟩ := mem_recordedNames.mp hname
  have hskip : r.closedVolume before name = none →
      Wp allowed (pure segments) (ends allowed r before P fun segments' s' =>
        s = s' ∧ segments' = segments ++ (r.closedVolume before name).toList) s := fun hnone =>
    Wp.pure ⟨rfl, by rw [hnone]; simp⟩
  unfold Recorder.pinSegment
  split
  · rename_i hactive
    exact hskip (closedVolume_eq_none (.inl hactive))
  · split
    · rename_i hindex
      exact hskip (closedVolume_eq_none (.inr hindex))
    · rename_i index hindex
      have hinfo : s.disk.info id = before.info id := by
        rw [FileSystem.info, huntouched.2]
        rfl
      refine Wp.bind (R := fun info s' => s = s' ∧ info = before.info id)
        (wp_lstat hP (fun id' hid' => ⟨rfl, ?_⟩) fun hnone => ?_) ?_
      · rw [huntouched.1, hid] at hid'
        rw [← Option.some.inj hid', hinfo]
      · rw [huntouched.1, hid] at hnone
        exact absurd hnone (by simp)
      rintro _ _ ⟨rfl, rfl⟩
      refine Wp.bind_eq (wp_require hP (fun _ => rfl) fun hspecial hclosed =>
        absurd (hclosed.isRegular hid hrecorded) hspecial) fun _ => ?_
      have hvolume := Recorder.closedVolume_eq_some.mpr
        ⟨index, id, r.nativeIndex_eq_some.mp hindex, hid, rfl⟩
      exact Wp.pure ⟨rfl, by rw [hvolume]; rfl⟩

/-- **Pinning** ends with the segments of the directory before, read off it or from the
document. -/
theorem wp_pinSegments {P : Session → Prop} {R : List Segment → Session → Prop} (hP : P s)
    (hsegments : s.document.archiveSegments = none ∧ Untouched before s.disk.toFileSystem ∨
      s.document.archiveSegments = some (r.segments before))
    (hR : R (r.segments before) { s with document :=
      { s.document with archiveSegments := some (r.segments before) } }) :
    Wp allowed r.pinSegments (ends allowed r before P R) s := by
  unfold Recorder.pinSegments
  refine Wp.bind (R := fun segments s' => s = s' ∧ segments = s.document.archiveSegments)
    (Wp.gets ⟨rfl, rfl⟩) ?_
  rintro _ _ ⟨rfl, rfl⟩
  rcases hsegments with ⟨hnone, huntouched⟩ | hsome
  · rw [hnone]
    refine Wp.bind (R := fun names s' => s = s' ∧ names = r.recordedNames before.directory)
      (wp_recordedPaths hP ⟨rfl, by rw [huntouched.1]⟩) ?_
    rintro _ _ ⟨rfl, rfl⟩
    refine Wp.bind (Wp.foldlM (I := fun treated segments s' => s = s' ∧
      segments = treated.filterMap (r.closedVolume before)) ?_ ⟨rfl, rfl⟩) ?_
    · rintro treated name todo _ _ hsplit ⟨rfl, rfl⟩
      have hname : name ∈ r.recordedNames before.directory := by rw [← hsplit]; simp
      refine (wp_pinSegment hP huntouched hname _).ret_mono ?_
      rintro _ _ ⟨rfl, rfl⟩
      refine ⟨rfl, ?_⟩
      rw [List.filterMap_append]
      cases hvolume : r.closedVolume before name <;> simp [hvolume]
    rintro _ _ ⟨rfl, rfl⟩
    exact Wp.bind (R := fun _ s' => R (r.segments before) s') (Wp.modify hR)
      fun _ _ h => Wp.pure h
  · rw [hsome]
    refine Wp.pure ?_
    rw [← hsome] at hR
    exact hR

/-! ## Finalizing -/

/-- The body and its exception handler, from a pending document with the segments on
disk: everything is settled, or a failed manifest is written. -/
theorem wp_settleOrFail (h : Moving r before doc s) (hdocument : s.document = doc)
    (hbagFiles : doc.bagFiles = []) (hrecording : doc.toRecording = recording)
    (hsegments : doc.archiveSegments = some (r.segments before))
    (hstate : doc.archiveFinalizationState = some .pending) :
    Wp allowed (tryCatch (r.settle (r.segments before)) fun e => do
      modify fun s => { s with document := s.document.failed e }
      writeManifest
      throw e) (ends allowed r before (fun s' => Left r before start recording s'.disk)
        fun _ s' => Moving r before doc s' ∧
          s'.document.archiveFinalizationState = some .finalized ∧
            Settled r before s'.disk.toFileSystem s'.document) s := by
  have hleft : ∀ {s'}, Moving r before doc s' → Left r before start recording s'.disk :=
    fun h => h.left hrecording hsegments hstate
  have hsettle : Wp allowed (r.settle (r.segments before)) (ends allowed r before
      (Moving r before doc) fun _ s' => Moving r before doc s' ∧
        s'.document.archiveFinalizationState = some .finalized ∧
          Settled r before s'.disk.toFileSystem s'.document) s :=
    wp_settle h hdocument hbagFiles fun _ hmoving hstate hsettled => ⟨hmoving, hstate, hsettled⟩
  refine Wp.tryCatch (hsettle.mono (fun _ _ h => h) (fun _ _ h => h)
    fun _ h => ⟨hleft h.1, h.2⟩) ?_
  rintro e s' ⟨hmoving, hexcused⟩
  have hs' : Left r before start recording s'.disk := hleft hmoving
  have hfailed : Left r before start recording
      (Session.written ⟨s'.disk, s'.document.failed e⟩).disk := by
    refine left_written hmoving.keeps ⟨.inr hmoving.segments, fun hfinal => ?_⟩
      (hmoving.recording.trans hrecording) (by simp [Manifest.failed])
    exact absurd hfinal (by simp [Manifest.failed])
  refine Wp.bind (R := fun _ s'' => ⟨s'.disk, s'.document.failed e⟩ = s'') (Wp.modify rfl) ?_
  rintro _ _ rfl
  refine Wp.bind (wp_writeManifest (R := fun _ s' => Left r before start recording s'.disk)
    hs' hfailed hfailed) fun _ s'' hs'' => ?_
  exact Wp.throw ⟨hs'', hexcused⟩

/-- The document that pins the segments of the directory before. -/
def pinnedDocument (r : Recorder) (before : FileSystem) (document : Manifest) : Manifest :=
  ({ document.pending with archiveSegments := some (r.segments before) }).pending

/-- **The finalization** leaves a sound disk wherever it stops, and a finished one where
it returns. -/
theorem wp_finalizeArchiveFiles (hsound : Sound r before s.disk)
    (hsegments : s.document.archiveSegments = none ∧ Untouched before s.disk.toFileSystem ∨
      s.document.archiveSegments = some (r.segments before)) :
    Wp allowed r.finalizeArchiveFiles (ends allowed r before
      (fun s' => Left r before s.disk.manifest s.document.toRecording s'.disk)
      fun _ s' => Left r before s.disk.manifest s.document.toRecording s'.disk ∧
        Finished s.document.toRecording s'.disk) s := by
  have hstart : Left r before s.disk.manifest s.document.toRecording s.disk := ⟨hsound, .inl rfl⟩
  -- Up to the second manifest the directory is not touched.
  have hpending : Left r before s.disk.manifest s.document.toRecording
      (Session.written ⟨s.disk, s.document.pending⟩).disk :=
    left_written hsound.keeps ⟨hsegments, by simp [Manifest.pending]⟩ rfl
      (by simp [Manifest.pending])
  have hpinned : Left r before s.disk.manifest s.document.toRecording
      (Session.written ⟨(Session.written ⟨s.disk, s.document.pending⟩).disk,
        pinnedDocument r before s.document⟩).disk :=
    left_written hsound.keeps ⟨.inr rfl, by simp [pinnedDocument, Manifest.pending]⟩ rfl
      (by simp [pinnedDocument, Manifest.pending])
  unfold Recorder.finalizeArchiveFiles
  refine Wp.bind_eq (Wp.modify rfl) fun _ => ?_
  refine Wp.bind_eq (wp_writeManifest hstart hpending rfl) fun _ => ?_
  refine Wp.bind (R := fun segments s' => segments = r.segments before ∧
    Session.mk (Session.written ⟨s.disk, s.document.pending⟩).disk
      { s.document.pending with archiveSegments := some (r.segments before) } = s')
    (wp_pinSegments hpending hsegments ⟨rfl, rfl⟩) ?_
  rintro _ _ ⟨rfl, rfl⟩
  refine Wp.bind (R := fun _ s' => Session.mk (Session.written ⟨s.disk, s.document.pending⟩).disk
    (pinnedDocument r before s.document) = s') (Wp.modify rfl) ?_
  rintro _ _ rfl
  refine Wp.bind (R := fun _ s' => Session.written
    ⟨(Session.written ⟨s.disk, s.document.pending⟩).disk, pinnedDocument r before s.document⟩ = s')
    (wp_writeManifest hpending hpinned rfl) ?_
  rintro _ _ rfl
  -- From here on the pending manifest with the segments is on disk, until another is written.
  have hmoving : Moving r before (pinnedDocument r before s.document) (Session.written
      ⟨(Session.written ⟨s.disk, s.document.pending⟩).disk, pinnedDocument r before s.document⟩) :=
    ⟨hsound.keeps, rfl, rfl, rfl⟩
  refine Wp.bind (wp_settleOrFail hmoving rfl rfl rfl rfl rfl) ?_
  rintro _ s' ⟨hmoving, hstate, hsettled⟩
  have hwritten : Left r before s.disk.manifest s.document.toRecording s'.written.disk :=
    left_written hmoving.keeps ⟨.inr hmoving.segments, fun _ => hsettled⟩ hmoving.recording
      (by rw [hstate]; simp)
  exact wp_writeManifest (hmoving.left rfl rfl rfl) hwritten
    ⟨hwritten, _, rfl, hmoving.recording, hstate⟩

/-! ## Restarting -/

/-- A recording of this recorder that has come to its end. -/
def Recorder.Ended (r : Recorder) (recording : Recording) : Prop :=
  recording.recordingId = some r.recordingId ∧ recording.recordNamingVersion = some 1 ∧
    recording.hasEnded = true

/-- What a restart makes of a disk. -/
structure Restarted (r : Recorder) (before : FileSystem) (disk disk' : Disk) : Prop where
  sound : Sound r before disk'
  held : ∀ recording, Held recording disk → Held recording disk'

theorem Held.toRecording {disk : Disk} {manifest : Manifest} (h : Held recording disk)
    (hmanifest : disk.manifest = some manifest) :
    manifest.toRecording = recording ∧ manifest.archiveFinalizationState ≠ none := by
  obtain ⟨manifest', hmanifest', h⟩ := h
  obtain rfl := Option.some.inj (hmanifest.symm.trans hmanifest')
  exact h

/-- A run on behalf of the manifest on disk holds on to its recording. -/
theorem Left.restarted {disk disk' : Disk} {existing : Manifest}
    (h : Left r before disk.manifest existing.toRecording disk')
    (hexisting : disk.manifest = some existing) : Restarted r before disk disk' where
  sound := h.toSound
  held := by
    intro recording hheld
    rcases h.stage with hsame | hwritten
    · obtain ⟨manifest, hmanifest, hrest⟩ := hheld
      exact ⟨manifest, hsame.trans hmanifest, hrest⟩
    · rw [(hheld.toRecording hexisting).1] at hwritten
      exact hwritten

/-- **A restart** leaves a sound disk wherever it stops.  Where it returns, a recording
that has ended is finished. -/
theorem wp_resume (hsound : Sound r before s.disk) :
    Wp allowed r.resume (ends allowed r before
      (fun s' => Restarted r before s.disk s'.disk)
      fun _ s' => Restarted r before s.disk s'.disk ∧
        ∀ recording, r.Ended recording → Held recording s.disk →
          Finished recording s'.disk) s := by
  have hsame : Restarted r before s.disk s.disk := ⟨hsound, fun _ h => h⟩
  unfold Recorder.resume
  refine Wp.bind (R := fun manifest s' => s = s' ∧ manifest = s.disk.manifest)
    (wp_step hsame (by rintro _ _ ⟨⟩; exact ⟨rfl, rfl⟩) (by rintro _ ⟨⟩)) ?_
  rintro _ _ ⟨rfl, rfl⟩
  split
  · rename_i hnone
    obtain ⟨manifest, hmanifest, -⟩ := hsound.fits
    exact absurd (hnone.symm.trans hmanifest) (by simp)
  · rename_i existing hexisting
    split
    · rename_i hforeign
      refine Wp.pure ⟨hsame, fun recording hended hheld => ?_⟩
      obtain rfl := (hheld.toRecording hexisting).1
      exact absurd hforeign (by simp [hended.1, hended.2.1])
    · split
      · refine Wp.bind_eq (Wp.modify rfl) fun _ => ?_
        have hfits := hsound.manifest hexisting
        refine Wp.bind ((wp_finalizeArchiveFiles (s := ⟨s.disk, existing⟩) hsound
          hfits.segments).mono (fun _ _ h => h) (fun _ _ h => ⟨h.1.restarted hexisting, h.2⟩)
          fun _ h => ⟨h.1.restarted hexisting, h.2⟩) ?_
        rintro _ s' ⟨hleft, hfinished⟩
        refine Wp.pure ⟨hleft.restarted hexisting, fun recording _ hheld => ?_⟩
        rw [(hheld.toRecording hexisting).1] at hfinished
        exact hfinished
      · -- A recording that has ended and cannot be resumed is finished already.
        rename_i hresumable
        refine Wp.pure ⟨hsame, fun recording hended hheld => ?_⟩
        obtain ⟨rfl, hstate⟩ := hheld.toRecording hexisting
        refine ⟨existing, hexisting, rfl, ?_⟩
        rw [isResumable, hended.2.2, Bool.true_and] at hresumable
        cases hcase : existing.archiveFinalizationState with
        | none => exact absurd hcase hstate
        | some state =>
            cases state with
            | pending => exact absurd (by rw [hcase]; rfl) hresumable
            | failed => exact absurd (by rw [hcase]; rfl) hresumable
            | finalized => rfl

/-- **A finished disk is determined** by the directory before the finalization. -/
theorem Finished.disk_eq {disk disk' : Disk} (hsound : Sound r before disk)
    (hsound' : Sound r before disk') (h : Finished recording disk)
    (h' : Finished recording disk') : disk = disk' := by
  obtain ⟨manifest, hmanifest, rfl, hstate⟩ := h
  obtain ⟨manifest', hmanifest', hrecording, hstate'⟩ := h'
  have hsettled := (hsound.manifest hmanifest).finalized hstate
  have hsettled' := (hsound'.manifest hmanifest').finalized hstate'
  have hfs : disk.toFileSystem = disk'.toFileSystem :=
    hsound.keeps.directory_eq hsound'.keeps hsettled.moved hsettled'.moved
  have hsame : manifest = manifest' := by
    obtain ⟨fields, state, error, segments, bagFiles⟩ := manifest
    obtain ⟨fields', state', error', segments', bagFiles'⟩ := manifest'
    obtain rfl : fields' = fields := hrecording
    obtain rfl : state = state' := hstate.trans hstate'.symm
    obtain rfl : error = error' := hsettled.error.trans hsettled'.error.symm
    obtain rfl : segments = segments' := hsettled.segments.trans hsettled'.segments.symm
    obtain rfl : bagFiles = bagFiles' :=
      hsettled.bagFiles.trans (by rw [hfs]; exact hsettled'.bagFiles.symm)
    rfl
  obtain ⟨fs, onDisk⟩ := disk
  obtain ⟨fs', onDisk'⟩ := disk'
  obtain rfl : fs = fs' := hfs
  obtain rfl : onDisk = onDisk' := hmanifest.trans (by rw [hsame]; exact hmanifest'.symm)
  rfl

end Runs

end Ros1Tools.Archive
