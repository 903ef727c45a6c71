import Ros1Tools.Lib.Run
import Ros1Tools.Archive.Sound

/-!
# Crashes and restarts

The life of an archive after its recording has ended: the finalization by the recorder
itself, and any number of recorders that are started again for the same record.  Each of
them may meet any faults, so a schedule is a list of fates for the first run and one for
every restart, and the disk at any moment is the disk that some schedule leaves.

* `archive_preserved`: at every moment, nothing that was recorded and nothing that was
  found in the directory is lost or replaced.
* `finalization_resumes`: however the runs before it were cut off, a run that returns
  leaves the disk of an uninterrupted run, and a run that is not cut off returns.
-/

namespace Ros1Tools.Archive

open Lib Lib.Faulty

/-- The document of a process that has not read one yet. -/
def Manifest.blank : Manifest := ⟨⟨none, none, none, none, none, none⟩, none, none, none, []⟩

namespace Recorder

variable (r : Recorder)

/-- The disk that the first finalization leaves. -/
def conclude (disk : Disk) (document : Manifest) (fates : Fates PyException) : Disk :=
  (r.finalizeArchiveFiles ⟨disk, document⟩ fates).state.disk

/-- The disk that a restarted recorder leaves. -/
def restart (disk : Disk) (fates : Fates PyException) : Disk :=
  (r.resume ⟨disk, .blank⟩ fates).state.disk

end Recorder

/-- The manifest on disk is from before the finalization. -/
def Disk.Unfinalized (disk : Disk) : Prop :=
  ∃ manifest, disk.manifest = some manifest ∧
    manifest.archiveFinalizationState = none ∧ manifest.archiveSegments = none

/-! A record of two volumes and an open one, next to a file of another record. -/

def flightRecorder : Recorder := ⟨"/archive", "flight", "flight-7"⟩

def flightDisk : Disk where
  directory := (((Std.ExtTreeMap.empty.insert "flight_0.bag" ⟨1, 10⟩).insert "flight_2.bag"
    ⟨1, 11⟩).insert "flight_3.bag.active" ⟨1, 12⟩).insert "hover.bag" ⟨1, 13⟩
  files id := ⟨true, List.replicate id.inode 0⟩
  manifest := some { Manifest.blank with
    recordingId := some "flight-7", recordNamingVersion := some 1, status := some .recording }

def flightDocument : Manifest := { Manifest.blank with
  recordingId := some "flight-7", recordNamingVersion := some 1,
  recordingEndedAt := some "2026-01-01T00:00:00Z", status := some .completed,
  recorderExitCode := some 0 }

variable {r : Recorder} {before : Disk} {document : Manifest}

/-! ## Runs -/

theorem Disk.Unfinalized.sound (h : before.Unfinalized) :
    Sound r before.toFileSystem before where
  keeps := Untouched.keeps ⟨rfl, rfl⟩
  fits := by
    obtain ⟨manifest, hmanifest, hstate, hsegments⟩ := h
    exact ⟨manifest, hmanifest, .inl ⟨hsegments, rfl, rfl⟩,
      fun hfinal => absurd (hstate.symm.trans hfinal) (by simp)⟩

/-- **The first finalization.** -/
theorem wp_conclude {allowed : Fate PyException → Prop} (hbefore : before.Unfinalized)
    (hdocument : document.archiveSegments = none) :
    Wp allowed r.finalizeArchiveFiles (ends allowed r before.toFileSystem
      (fun s => Left r before.toFileSystem before.manifest document.toRecording s.disk)
      fun _ s => Left r before.toFileSystem before.manifest document.toRecording s.disk ∧
        Finished document.toRecording s.disk) ⟨before, document⟩ :=
  wp_finalizeArchiveFiles hbefore.sound (.inl ⟨hdocument, rfl, rfl⟩)

theorem sound_conclude (hbefore : before.Unfinalized) (hdocument : document.archiveSegments = none)
    (fates : Fates PyException) :
    Sound r before.toFileSystem (r.conclude before document fates) := by
  refine Wp.state (P := fun s => Sound r before.toFileSystem s.disk)
    ((wp_conclude hbefore hdocument).mono ?_ ?_ ?_)
  · exact fun _ _ h => h.1.toSound
  · exact fun _ _ h => h.1.toSound
  · exact fun _ h => h.1.toSound

/-- **One restart.** -/
theorem restarted_restart {fs : FileSystem} {disk : Disk} (hsound : Sound r fs disk)
    (fates : Fates PyException) : Restarted r fs disk (r.restart disk fates) := by
  refine Wp.state (P := fun s => Restarted r fs disk s.disk)
    ((wp_resume (s := ⟨disk, .blank⟩) hsound).mono ?_ ?_ ?_)
  · exact fun _ _ h => h.1
  · exact fun _ _ h => h.1
  · exact fun _ h => h.1

/-- **Any number of restarts.** -/
theorem restarted_run {fs : FileSystem} {disk : Disk} (hsound : Sound r fs disk)
    (restarts : List (Fates PyException)) :
    Restarted r fs disk (run r.restart disk restarts) :=
  run_invariant
    (fun _ fates h =>
      have hstep := restarted_restart h.sound fates
      ⟨hstep.sound, fun recording hheld => hstep.held recording (h.held recording hheld)⟩)
    ⟨hsound, fun _ h => h⟩ restarts

/-! ## Nothing is lost -/

/-- The segments pinned on a sound disk are those of the directory before, or there are
none and the directory is as it was. -/
theorem Sound.archiveSegments {fs : FileSystem} {disk : Disk} (h : Sound r fs disk) :
    disk.archiveSegments = r.segments fs ∨
      disk.archiveSegments = [] ∧ Untouched fs disk.toFileSystem := by
  obtain ⟨manifest, hmanifest, hfits⟩ := h.fits
  rw [Disk.archiveSegments, hmanifest]
  rcases hfits.segments with ⟨hnone, huntouched⟩ | hsome
  · exact .inr ⟨by simp [hnone], huntouched⟩
  · exact .inl (by simp [hsome])

/-- **Archive finalization never loses or replaces bytes.**  At every moment of the first
finalization and of any number of restarts, under any schedule of exceptions and crashes
and whatever else is in the directory: every pinned file has its native or its issued
name, and every name that stood for another file before still stands for it; the bytes
of both are those before. -/
theorem archive_preserved (r : Recorder) (before : Disk) (document : Manifest)
    (hbefore : before.Unfinalized) (hdocument : document.archiveSegments = none)
    (fates : Fates PyException) (restarts : List (Fates PyException)) :
    let disk := run r.restart (r.conclude before document fates) restarts
    (∀ seg ∈ disk.archiveSegments,
      (disk.directory[seg.sourceName]? = some seg.file ∨
        disk.directory[seg.name]? = some seg.file) ∧
        disk.files seg.file = before.files seg.file) ∧
    ∀ (name : String) (id : FileId), before.directory[name]? = some id →
      (∀ seg ∈ disk.archiveSegments, seg.file ≠ id) →
        disk.directory[name]? = some id ∧ disk.files id = before.files id := by
  intro disk
  have hsound : Sound r before.toFileSystem disk :=
    (restarted_run (sound_conclude hbefore hdocument fates) restarts).sound
  have hfiles : ∀ id, disk.files id = before.files id := fun id => by rw [hsound.keeps.files]
  rcases hsound.archiveSegments with hpinned | ⟨hnone, huntouched⟩
  · rw [hpinned]
    refine ⟨fun seg hseg => ⟨hsound.keeps.named seg hseg, hfiles _⟩, fun name id hid hother => ?_⟩
    refine ⟨hsound.keeps.others name id hid fun seg hseg hname => hother seg hseg ?_, hfiles id⟩
    -- A name that was a volume's stood for the file of that volume.
    subst hname
    exact Option.some.inj ((Recorder.directory_of_mem hseg).symm.trans hid)
  · rw [hnone]
    refine ⟨by simp, fun name id hid _ => ⟨?_, hfiles id⟩⟩
    rw [huntouched.1]
    exact hid

/-- The first run stops between linking and unlinking the first volume, the first restart
before it has read anything. -/
theorem archive_preserved_flight :
    let disk := run flightRecorder.restart (flightRecorder.conclude flightDisk flightDocument
      (List.replicate 16 .proceed ++ [.crash])) [[.crash], []]
    (∀ seg ∈ disk.archiveSegments,
      (disk.directory[seg.sourceName]? = some seg.file ∨
        disk.directory[seg.name]? = some seg.file) ∧
        disk.files seg.file = flightDisk.files seg.file) ∧
    ∀ (name : String) (id : FileId), flightDisk.directory[name]? = some id →
      (∀ seg ∈ disk.archiveSegments, seg.file ≠ id) →
        disk.directory[name]? = some id ∧ disk.files id = flightDisk.files id :=
  archive_preserved flightRecorder flightDisk flightDocument ⟨_, rfl, rfl, rfl⟩ rfl _ _

/-! ## The same result -/

/-- Nothing stops the uninterrupted run on a closed archive. -/
theorem not_excused {fs : FileSystem} (hclosed : r.Closed fs) :
    ¬Excused (fun _ => False) r fs := by
  intro h
  obtain ⟨_, hnever⟩ := h hclosed
  exact hnever

/-- **Finalization is crash-resumable with the same result.**  Take a directory whose
recorded names are native volumes, with any indices, and open volumes.  Let the first
run stop anywhere after it has written the ended manifest, and let any number of
restarts stop anywhere.  Then the uninterrupted run from the start returns and finalizes
the archive; the first run and any further restart leave exactly its disk if they
return; and a further restart that is not interrupted does return. -/
theorem finalization_resumes (r : Recorder) (before : Disk) (document : Manifest)
    (hclosed : r.Closed before.toFileSystem) (hbefore : before.Unfinalized)
    (hdocument : document.archiveSegments = none) (hended : r.Ended document.toRecording)
    (fates : Fates PyException) (restarts : List (Fates PyException))
    (hpersisted : Held document.toRecording (r.conclude before document fates)) :
    let left := run r.restart (r.conclude before document fates) restarts
    ∃ whole : Session, r.finalizeArchiveFiles ⟨before, document⟩ [] = .done () whole [] ∧
      (∃ manifest, whole.disk.manifest = some manifest ∧
        manifest.archiveFinalizationState = some .finalized) ∧
      (∀ s rest, r.finalizeArchiveFiles ⟨before, document⟩ fates = .done () s rest →
        s.disk = whole.disk) ∧
      (∀ fates' exit s rest, r.resume ⟨left, .blank⟩ fates' = .done exit s rest →
        s.disk = whole.disk) ∧
      ∃ exit s, r.resume ⟨left, .blank⟩ [] = .done exit s [] := by
  intro left
  have hsound := sound_conclude (r := r) hbefore hdocument fates
  have hrun := restarted_run hsound restarts
  have hheld : Held document.toRecording left := hrun.held _ hpersisted
  obtain ⟨_, whole, hwhole, hleft, hfinished⟩ := (wp_conclude hbefore hdocument).returns
    (fun _ _ h => not_excused hclosed h.2) fun _ h => h.2
  refine ⟨whole, hwhole, ?_, fun s rest hdone => ?_, fun fates' exit s rest hdone => ?_, ?_⟩
  · obtain ⟨manifest, hmanifest, -, hstate⟩ := hfinished
    exact ⟨manifest, hmanifest, hstate⟩
  · obtain ⟨hs, hsfinished⟩ := (wp_conclude hbefore hdocument).of_done hdone
    exact hsfinished.disk_eq hs.toSound hleft.toSound hfinished
  · obtain ⟨hs, hsfinished⟩ := (wp_resume hrun.sound).of_done hdone
    exact (hsfinished _ hended hheld).disk_eq hs.sound hleft.toSound hfinished
  · obtain ⟨exit, s, hdone, -⟩ := (wp_resume (s := ⟨left, .blank⟩) hrun.sound).returns
      (fun _ _ h => not_excused hclosed h.2) fun _ h => h.2
    exact ⟨exit, s, hdone⟩

/-- The first run stops right behind its first manifest. -/
theorem finalization_resumes_flight :
    let fates := [.proceed, .proceed, .crash]
    let left := run flightRecorder.restart
      (flightRecorder.conclude flightDisk flightDocument fates) [[.crash]]
    ∃ whole : Session,
      flightRecorder.finalizeArchiveFiles ⟨flightDisk, flightDocument⟩ [] = .done () whole [] ∧
      (∃ manifest, whole.disk.manifest = some manifest ∧
        manifest.archiveFinalizationState = some .finalized) ∧
      (∀ s rest, flightRecorder.finalizeArchiveFiles ⟨flightDisk, flightDocument⟩ fates =
        .done () s rest → s.disk = whole.disk) ∧
      (∀ fates' exit s rest, flightRecorder.resume ⟨left, .blank⟩ fates' = .done exit s rest →
        s.disk = whole.disk) ∧
      ∃ exit s, flightRecorder.resume ⟨left, .blank⟩ [] = .done exit s [] :=
  finalization_resumes flightRecorder flightDisk flightDocument (by decide +kernel)
    ⟨_, rfl, rfl, rfl⟩ rfl ⟨rfl, rfl, by decide⟩ [.proceed, .proceed, .crash] [[.crash]]
    ⟨flightDocument.pending, rfl, rfl, by decide⟩

end Ros1Tools.Archive
