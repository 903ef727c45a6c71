import Mathlib.Algebra.Order.BigOperators.Group.List
import Mathlib.Algebra.Order.Ring.Nat
import Ros1Tools.Archive.Refine

/-!
# Power cuts

The life of an archive after its recording has ended, with power cuts: the finalization
by the recorder itself, recorders that are started again for the same record, and between
and during them any number of moments at which the power goes.  Every directory that
comes back is one that stops of the process alone could have left
(`Reachable.modelled`), so what is known of those holds of power cuts too.  The medium
adds what the syncs are for: a bag that has lost a name is on it, and the manifest is
there as a whole.
-/

namespace Ros1Tools.Archive.Durable

open Lib Lib.Faulty

/-! ## Histories -/

variable (host : Host) (r : Recorder)

/-- The volume that the first finalization leaves. -/
def conclude (volume : Volume) (document : Manifest) (pid : Nat)
    (fates : Fates PyException) : Volume :=
  (finalizeArchiveFiles host r pid ⟨volume, document⟩ fates).state.volume

/-- The volume that a restarted recorder leaves. -/
def restart (volume : Volume) (pid : Nat) (fates : Fates PyException) : Volume :=
  (resume host r pid ⟨volume, .blank⟩ fates).state.volume

/-- What becomes of a volume: the first finalization, any number of restarts, and power
cuts between and during them, as long as they tear no bag. -/
inductive Reachable (start : Volume) (document : Manifest) : Volume → Prop
  | concluded (pid : Nat) (fates : Fates PyException) :
      Reachable start document (conclude host r start document pid fates)
  | restarted {v : Volume} (h : Reachable start document v) (pid : Nat)
      (fates : Fates PyException) : Reachable start document (restart host r v pid fates)
  | cut {v v' : Volume} (h : Reachable start document v) (hcut : v.Survives v')
      (hbags : ∀ (name : String) id, isOwn name = false → v'.directory.now[name]? = some id →
        v'.files id = v.files id) : Reachable start document v'

/-- The volume at the end of a recording: the directory and a manifest from before the
finalization are on the medium, while the bags need not be, and none is pinned. -/
structure Begins (start : Volume) (document : Manifest) : Prop where
  earlier : start.directory.earlier = []
  apart : Apart start.directory.now start.directory.now
  synced : ∀ id, start.directory.now[manifestName]? = some id → start.synced id = true
  unfinalized : (host.diskOf start).Unfinalized
  unpinned : document.archiveSegments = none

variable {host r} {start v v' : Volume} {document : Manifest} {d : Directory}

theorem Begins.stable (h : Begins host start document) :
    Stable host start.directory.now start := by
  have hviews : start.directory.views = [start.directory.now] := by
    rw [Cached.views, h.earlier]
  refine ⟨?_, ?_, ?_, ?_⟩ <;> rw [hviews] <;> refine List.forall_mem_singleton.mpr ?_
  · exact h.apart
  · exact h.apart
  · intro id hid
    refine ⟨h.synced id hid, ?_⟩
    obtain ⟨manifest, hmanifest, -⟩ := h.unfinalized
    simp only [Host.diskOf, Host.disk, hid, Option.bind_some] at hmanifest
    cases hdecode : host.decode (start.files id).bytes with
    | ok found => exact ⟨found, rfl⟩
    | error e => rw [hdecode] at hmanifest; exact absurd hmanifest (by simp [Except.toOption])
  · exact fun name id _ hid => .inl hid

/-- The manifest that comes back is read as it was. -/
theorem Stable.survives {before : Directory} (h : Stable host before v) (hcut : v.Survives v') :
    (host.diskOf v').manifest =
      (host.disk v'.directory.now v.files).manifest := by
  simp only [Host.diskOf, Host.disk]
  cases hid : v'.directory.now[manifestName]? with
  | none => rfl
  | some id =>
      have hsynced := (h.readable _ hcut.directory id hid).1
      rw [Option.bind_some, Option.bind_some, hcut.files id hsynced]

theorem Stable.cut {before : Directory} (h : Stable host before v) (hcut : v.Survives v') :
    Stable host before v' := by
  refine ⟨?_, ?_, ?_, ?_⟩ <;> rw [hcut.views] <;> refine List.forall_mem_singleton.mpr ?_
  · exact h.apart _ hcut.directory
  · exact h.apart _ hcut.directory
  · intro id hid
    obtain ⟨hsynced, document, hdocument⟩ := h.readable _ hcut.directory id hid
    exact ⟨hcut.synced id, document, by rw [hcut.files id hsynced]; exact hdocument⟩
  · intro name id hname hbefore
    refine (h.guarded _ hcut.directory name id hname hbefore).imp_right ?_
    rintro ⟨-, other⟩
    exact ⟨hcut.synced id, other⟩

/-- A disk that stops of the process alone can leave. -/
def Stopped (host : Host) (r : Recorder) (start : Volume) (document : Manifest) (disk : Disk) :
    Prop :=
  ∃ fates restarts, disk = run r.restart
    (r.conclude (host.diskOf start) document fates) restarts

/-- Every disk that may come back is one that stops of the process can leave. -/
structure Modelled (host : Host) (r : Recorder) (start : Volume) (document : Manifest)
    (v : Volume) : Prop where
  stable : Stable host start.directory.now v
  stopped : ∀ disk ∈ host.views v, Stopped host r start document disk

/-- Any fault. -/
def anyFault : Fate PyException → Prop := fun _ => True

/-- What a simulated run leaves: a stable volume, and, as what may come back, what could
before and what runs above can leave. -/
theorem leaves_of_sim {α : Type} {m : Writer α} {m' : Finalizer α} {before : Directory}
    {s : Machine} (h : Sim host.abstraction anyFault (keeping host before) m m' s)
    (fates : Fates PyException) :
    Stable host before (m s fates).state.volume ∧
      ∀ disk ∈ host.views (m s fates).state.volume, disk ∈ host.past s.volume ∨
        ∃ fates', (m' (host.session s) fates').state.disk = disk := by
  have hmeets := h.wp fates fun _ _ => trivial
  have hfollows := h.follows fates fun _ _ => trivial
  generalize m s fates = o at hmeets hfollows
  refine ⟨?_, List.forall_mem_cons.mpr ⟨.inr ?_, fun disk hdisk => ?_⟩⟩
  · cases o with
    | done a s' rest => exact hmeets.1
    | raised e s' rest => exact hmeets.1
    | crashed s' => exact hmeets
  · obtain ⟨fates', -, hfates'⟩ := hfollows.runs []
    have hstate := (congrArg Outcome.state hfates').trans (state_above [] o)
    exact ⟨fates', congrArg Session.disk hstate⟩
  · refine (hfollows.recent disk hdisk).imp_right ?_
    rintro ⟨fates', s', hcrash, hkept⟩
    exact ⟨fates', (congrArg (·.state.disk) hcrash).trans hkept⟩

theorem modelled_conclude (hstart : Begins host start document) (pid : Nat)
    (fates : Fates PyException) :
    Modelled host r start document (conclude host r start document pid fates) := by
  have hsim : Sim host.abstraction anyFault _ (finalizeArchiveFiles host r pid)
      r.finalizeArchiveFiles ⟨start, document⟩ := sim_finalizeArchiveFiles hstart.stable
  obtain ⟨hstable, hviews⟩ := leaves_of_sim hsim fates
  refine ⟨hstable, fun disk hdisk => ?_⟩
  rcases hviews disk hdisk with hearlier | ⟨fates', rfl⟩
  · rw [Host.past, hstart.earlier] at hearlier
    exact absurd hearlier (by simp)
  · exact ⟨fates', [], rfl⟩

theorem modelled_restart (h : Modelled host r start document v) (pid : Nat)
    (fates : Fates PyException) :
    Modelled host r start document (restart host r v pid fates) := by
  have hsim : Sim host.abstraction anyFault _ (resume host r pid) r.resume ⟨v, .blank⟩ :=
    sim_resume h.stable
  obtain ⟨hstable, hviews⟩ := leaves_of_sim hsim fates
  refine ⟨hstable, fun disk hdisk => ?_⟩
  rcases hviews disk hdisk with hearlier | ⟨fates', rfl⟩
  · exact h.stopped disk (List.mem_cons_of_mem _ hearlier)
  · -- A restart above goes on from what the volume looked like.
    obtain ⟨first, restarts, hdisk⟩ := h.stopped _ List.mem_cons_self
    refine ⟨first, restarts ++ [fates'], ?_⟩
    rw [run_append, ← hdisk]
    rfl

/-- A cut that tears no bag brings back a disk as it was. -/
theorem disk_cut {before : Directory} (h : Stable host before v) (hcut : v.Survives v')
    (hbags : ∀ (name : String) id, isOwn name = false → v'.directory.now[name]? = some id →
      v'.files id = v.files id) :
    host.diskOf v' = host.disk v'.directory.now v.files := by
  refine disk_congr rfl rfl fun name id hid hpart => ?_
  cases hown : isOwn name with
  | false => exact hbags name id hown hid
  | true =>
      rw [isOwn, hpart, Bool.or_false] at hown
      rw [beq_iff_eq.mp hown] at hid
      exact hcut.files id (h.readable _ hcut.directory id hid).1

/-- **Power cuts are stops.** -/
theorem Reachable.modelled (hstart : Begins host start document)
    (h : Reachable host r start document v) : Modelled host r start document v := by
  induction h with
  | concluded pid fates => exact modelled_conclude hstart pid fates
  | restarted h pid fates ih => exact modelled_restart ih pid fates
  | cut h hcut hbags ih =>
      refine ⟨ih.stable.cut hcut, ?_⟩
      rw [Host.views, Host.past, hcut.earlier]
      refine List.forall_mem_singleton.mpr ?_
      rw [disk_cut ih.stable hcut hbags]
      exact ih.stopped _ (mem_views hcut.directory)

/-! ## What stops leave -/

theorem Stopped.sound (hstart : Begins host start document)
    {disk : Disk} (h : Stopped host r start document disk) :
    Sound r (host.diskOf start).toFileSystem disk := by
  obtain ⟨fates, restarts, rfl⟩ := h
  exact (restarted_run (sound_conclude hstart.unfinalized hstart.unpinned fates) restarts).sound

theorem visible_of_some {name : String} {id : FileId} {files : FileId → File}
    (h : d[name]? = some id) : visible d files id = files id :=
  if_pos (isNamed_iff.mpr ⟨name, h⟩)

/-- A bag that still has a name has its bytes, as far as the process sees. -/
theorem Modelled.files (h : Modelled host r start document v) (hstart : Begins host start document)
    (hd : d ∈ v.directory.views)
    {name other : String} {id : FileId} (hname : isOwn name = false)
    (hid : start.directory.now[name]? = some id) (hother : isOwn other = false)
    (hid' : d[other]? = some id) : v.files id = start.files id := by
  have hfiles := congrFun ((h.stopped _ (mem_views hd)).sound hstart).keeps.files id
  have hnow : (bags d)[other]? = some id := (getElem?_bags_of_bag hother).trans hid'
  have hbefore : (bags start.directory.now)[name]? = some id :=
    (getElem?_bags_of_bag hname).trans hid
  exact ((visible_of_some hnow).symm.trans hfiles).trans (visible_of_some hbefore)

/-- **A bag that has lost a name is safe.** -/
theorem Modelled.survives_files (h : Modelled host r start document v)
    (hstart : Begins host start document)
    (hcut : v.Survives v') {name : String} {id : FileId} (hname : isOwn name = false)
    (hid : start.directory.now[name]? = some id) (hlost : v'.directory.now[name]? ≠ some id) :
    v'.files id = start.files id := by
  obtain ⟨hsynced, other, hother, hid'⟩ :=
    (h.stable.guarded _ hcut.directory name id hname hid).resolve_left hlost
  exact (hcut.files id hsynced).trans
    (h.files hstart hcut.directory hname hid hother hid')

/-! ## The manifest -/

section Manifest

variable {before : Directory} {s s' : Machine}

/-- Wherever writing it has stopped, the manifest that comes back could before, or is the
document. -/
theorem survives_of_stopped (h : Quiet host before s s' ∨ Written host before s s')
    (hcut : s'.volume.Survives v') :
    (∃ disk ∈ host.views s.volume, (host.diskOf v').manifest = disk.manifest) ∨
      (host.diskOf v').manifest = some s.document := by
  have hstable : Stable host before s'.volume := h.elim (·.stable) (·.stable)
  rw [hstable.survives hcut]
  rcases views_of_stopped h (mem_views hcut.directory) with hold | hnew
  · exact .inl ⟨_, hold, rfl⟩
  · exact .inr (by rw [hnew]; rfl)

/-- Behind the last sync, nothing else does. -/
theorem Written.survives_sync (h : Written host before s s')
    (hsynced : s'.volume.directory.earlier = []) (hcut : s'.volume.Survives v') :
    (host.diskOf v').manifest = some s.document := by
  have honly : v'.directory.now = s'.volume.directory.now := by
    have hview := hcut.directory
    rw [Cached.views, hsynced] at hview
    exact List.mem_singleton.mp hview
  rw [h.stable.survives hcut, honly]
  exact congrArg Disk.manifest h.disk

end Manifest

/-! ## The uninterrupted finalization -/

/-- Nothing stops a run without faults on a closed archive. -/
theorem not_excused_proceed {fs : FileSystem} (hclosed : r.Closed fs) :
    ¬Excused (fun fate => fate = .proceed) r fs := by
  intro hexcused
  obtain ⟨_, hraise⟩ := hexcused hclosed
  exact absurd hraise (by simp)

/-- **The finalization returns** where it meets no fault, and the archive is finalized. -/
theorem finalizeArchiveFiles_returns (hstart : Begins host start document)
    (hclosed : r.Closed (host.diskOf start).toFileSystem) (pid : Nat) :
    ∃ a s rest, finalizeArchiveFiles host r pid ⟨start, document⟩ [] = .done a s rest ∧
      Finished document.toRecording (host.diskOf s.volume) := by
  have hsim : Sim host.abstraction (fun fate => fate = .proceed) _
      (finalizeArchiveFiles host r pid) r.finalizeArchiveFiles ⟨start, document⟩ :=
    sim_finalizeArchiveFiles hstart.stable
  refine hsim.returns (P := fun _ s => Finished document.toRecording s.disk) fun fates hfates => ?_
  obtain ⟨a, s, rest, hdone, -, hfinished⟩ :=
    (wp_conclude (r := r) hstart.unfinalized hstart.unpinned).done
      (fun _ _ h => not_excused_proceed hclosed h.2) (fun _ h => by simp at h) hfates
  exact ⟨a, s, rest, hdone, hfinished⟩

/-- The power goes behind the rename of a part that was not there before. -/
theorem manifest_renamed {pid : Nat} {s : Machine}
    (hpart : s.volume.directory.now[partName pid]? = none) :
    ∃ s', writeManifest host r pid s (List.replicate 5 .proceed ++ [.crash]) = .crashed s' ∧
      (host.diskOf s'.volume).manifest = some s.document := by
  let id := host.allocate s.volume.directory
  let opened := (s.volume.setDirectory (s.volume.directory.now.insert (partName pid) id)).write id
    ⟨true, []⟩
  let filled := (opened.write id ⟨true, host.encode s.document⟩).syncFile id
  let renamed := filled.setDirectory ((opened.directory.now.erase (partName pid)).insert
    manifestName id)
  have hopen : openPart host pid s (List.replicate 5 .proceed ++ [.crash]) =
      .done id (s.on opened) (List.replicate 4 .proceed ++ [.crash]) := by
    simp [openPart, atomic, perform, hpart, List.replicate, id, opened]
  have hfill : fillPart host pid (host.encode s.document) s
      (List.replicate 5 .proceed ++ [.crash]) = .done () (s.on filled) [.proceed, .crash] := by
    rw [fillPart, bind_apply, hopen]
    rfl
  have hfound : filled.directory.now[partName pid]? = some id := Std.ExtTreeMap.getElem?_insert_self
  have hreplace : replacePart r pid (s.on filled) [.proceed, .crash] =
      .done () (s.on renamed) [.crash] := by
    simp [replacePart, atomic, perform, Machine.on, hfound, renamed]
    rfl
  refine ⟨s.on renamed, ?_, ?_⟩
  · rw [writeManifest, bind_apply, gets_apply]
    dsimp only
    rw [bind_apply, ensuring, bind_apply, tryCatch_apply, bind_apply, hfill]
    dsimp only
    rw [hreplace]
    rfl
  · have hnow : renamed.directory.now[manifestName]? = some id :=
      Std.ExtTreeMap.getElem?_insert_self
    have hfile : renamed.files id = ⟨true, host.encode s.document⟩ := Storage.files_write_self _
    simp [Host.diskOf, Host.disk, Machine.on, hnow, hfile, host.decode_encode, Except.toOption]

/-! ## A host, and a record on its storage

Nothing is known of the text of a document but that it is read back, so any numbering of
the documents will do for one. -/

theorem exists_encoding : ∃ encode : Manifest → List UInt8, Function.Injective encode := by
  obtain ⟨number, hnumber⟩ := exists_injective_nat Manifest
  refine ⟨fun document => List.replicate (number document) 0, fun a b h => hnumber ?_⟩
  simpa using congrArg List.length h

/-- A file that no directory has: its inode is greater than all of theirs. -/
def freshFile (directory : Cached Directory) : FileId :=
  ⟨0, (directory.views.flatMap fun d => d.toList.map fun entry => entry.2.inode).sum + 1⟩

theorem freshFile_fresh (directory : Cached Directory) (d : Directory)
    (hd : d ∈ directory.views) (name : String) : d[name]? ≠ some (freshFile directory) := by
  intro h
  have hinode : (freshFile directory).inode ∈
      directory.views.flatMap fun d => d.toList.map fun entry => entry.2.inode :=
    List.mem_flatMap.mpr ⟨d, hd, List.mem_map.mpr
      ⟨_, Std.ExtTreeMap.mem_toList_iff_getElem?_eq_some.mpr h, rfl⟩⟩
  exact absurd (List.le_sum_of_mem hinode) (by simp [freshFile])

theorem nonempty_host : Nonempty Host := by
  classical
  obtain ⟨encode, hencode⟩ := exists_encoding
  refine ⟨⟨encode, fun bytes => if h : ∃ document, encode document = bytes then .ok h.choose
    else .error (.runtimeError "Expecting value: line 1 column 1 (char 0)"), fun document => ?_,
    freshFile, freshFile_fresh⟩⟩
  have h : ∃ document', encode document' = encode document := ⟨document, rfl⟩
  rw [dif_pos h, hencode h.choose_spec]

/-- The manifest while the record is written. -/
def flightManifest : Manifest := { Manifest.blank with
  recordingId := some "flight-7", recordNamingVersion := some 1, status := some .recording }

/-- The record of two volumes and an open one, on storage.  Only the manifest is known to
be on the medium. -/
def flightVolume (host : Host) : Volume where
  directory := ⟨flightDisk.directory.insert manifestName ⟨1, 20⟩, []⟩
  files := Function.update flightDisk.files ⟨1, 20⟩
    ⟨true, host.encode flightManifest⟩
  synced id := id == ⟨1, 20⟩

theorem isPart_flightVolume (name : String) (id : FileId)
    (h : (flightVolume host).directory.now[name]? = some id) : isPart name = false := by
  have hall : ∀ entry ∈ (flightDisk.directory.insert manifestName ⟨1, 20⟩).toList,
      isPart entry.1 = false := by
    decide +kernel
  exact hall _ (Std.ExtTreeMap.mem_toList_iff_getElem?_eq_some.mpr h)

theorem begins_flightVolume : Begins host (flightVolume host) flightDocument where
  earlier := rfl
  unpinned := rfl
  apart part _ id hpart hid := absurd (isPart_flightVolume part id hid) (by rw [hpart]; simp)
  synced id hid := by
    rcases getElem?_insert_eq_some hid with ⟨-, rfl⟩ | ⟨hne, -⟩
    · exact beq_self_eq_true _
    · exact absurd rfl hne
  unfinalized := by
    refine ⟨flightManifest, ?_, rfl, rfl⟩
    simp only [Host.diskOf, Host.disk, flightVolume, Std.ExtTreeMap.getElem?_insert_self,
      Option.bind_some, Function.update_self, host.decode_encode]
    rfl

theorem closed_flightVolume :
    flightRecorder.Closed (host.diskOf (flightVolume host)).toFileSystem := by
  let names := bags (flightDisk.directory.insert manifestName ⟨1, 20⟩)
  have hfiles : visible names (flightVolume host).files = visible names flightDisk.files := by
    funext id
    unfold visible
    split
    next hnamed =>
      refine Function.update_of_ne (fun hid => ?_) _ _
      rw [hid] at hnamed
      exact absurd hnamed (by decide +kernel)
    next => rfl
  change flightRecorder.Closed ⟨names, visible names (flightVolume host).files⟩
  rw [hfiles]
  decide +kernel

/-- The record after its first finalization. -/
def flightEnd (host : Host) (fates : Fates PyException) : Volume :=
  conclude host flightRecorder (flightVolume host) flightDocument 41 fates

theorem reachable_flightEnd (fates : Fates PyException) :
    Reachable host flightRecorder (flightVolume host) flightDocument (flightEnd host fates) :=
  .concluded 41 fates

theorem diskOf_settled : host.diskOf v.settled = host.diskOf v := rfl

/-- The uninterrupted finalization of the record. -/
theorem finished_flightEnd :
    Finished flightDocument.toRecording (host.diskOf (flightEnd host []).settled) := by
  obtain ⟨_, s, rest, hdone, hfinished⟩ :=
    finalizeArchiveFiles_returns (@begins_flightVolume host) closed_flightVolume 41
  rw [diskOf_settled, flightEnd, conclude, hdone]
  exact hfinished

/-- The power goes behind the first manifest of the finalization. -/
theorem renamed_flightEnd :
    (host.diskOf (flightEnd host (List.replicate 5 .proceed ++ [.crash])).settled).manifest =
      some flightDocument.pending := by
  obtain ⟨s, hcrashed, hmanifest⟩ := @manifest_renamed host flightRecorder 41
    ⟨flightVolume host, flightDocument.pending⟩ (by
      refine Option.eq_none_iff_forall_ne_some.mpr fun id hid => ?_
      exact absurd (isPart_flightVolume _ id hid) (by rw [isPart_partName]; simp))
  rw [diskOf_settled, flightEnd, conclude, finalizeArchiveFiles, bind_apply, modify_apply]
  dsimp only
  rw [bind_apply, hcrashed]
  exact hmanifest

/-! ## The results -/

/-- **The manifest is replaced as a whole.**  Wherever writing it stops, a power cut brings
back a manifest that could come back before, or the document.  Once the write has
returned, it brings back the document. -/
theorem manifest_replaced_whole (host : Host) (r : Recorder) (pid : Nat) (before : Directory)
    (s : Machine) (hstable : Stable host before s.volume) (fates : Fates PyException)
    (v' : Volume) (hcut : (writeManifest host r pid s fates).state.volume.Survives v') :
    ((∃ disk ∈ host.views s.volume, (host.diskOf v').manifest = disk.manifest) ∨
      (host.diskOf v').manifest = some s.document) ∧
    ((∃ s' rest, writeManifest host r pid s fates = .done () s' rest) →
      (host.diskOf v').manifest = some s.document) := by
  have hdurable : Wp anyFault (writeManifest host r pid) _ s := wp_writeManifest_durable hstable
  have hwp := hdurable fates fun _ _ => trivial
  cases hout : writeManifest host r pid s fates with
  | done a s' rest =>
      rw [hout] at hwp hcut
      have hnow := hwp.1.1.survives_sync hwp.1.2 hcut
      exact ⟨.inr hnow, fun _ => hnow⟩
  | raised e s' rest =>
      rw [hout] at hwp hcut
      exact ⟨survives_of_stopped hwp.1.2 hcut, fun ⟨_, _, hdone⟩ => absurd hdone (by simp)⟩
  | crashed s' =>
      rw [hout] at hwp hcut
      exact ⟨survives_of_stopped hwp.2 hcut, fun ⟨_, _, hdone⟩ => absurd hdone (by simp)⟩

/-- The manifest of the record is written where the power goes behind the rename. -/
theorem manifest_replaced_whole_flight : Nonempty Host ∧ ∀ host : Host,
    let start := flightVolume host
    let v' := (writeManifest host flightRecorder 41 ⟨start, flightDocument⟩
      (List.replicate 5 .proceed ++ [.crash])).state.volume.settled
    (∃ disk ∈ host.views start, (host.diskOf v').manifest = disk.manifest) ∨
      (host.diskOf v').manifest = some flightDocument :=
  ⟨nonempty_host, fun host => (manifest_replaced_whole host flightRecorder 41 _
    ⟨flightVolume host, flightDocument⟩ begins_flightVolume.stable _ _
    (Storage.survives_settled _)).1⟩

/-- **A power cut loses nothing.**  Let the power go at any moment of the first
finalization or of any later run, however the runs before were cut off.  What comes back
has a manifest that can be read; every volume pinned there has its native or its issued
name; every other name stands for its file; and a bag that has lost the name it had holds
exactly its bytes. -/
theorem power_cut_preserved (host : Host) (r : Recorder) (start : Volume) (document : Manifest)
    (hstart : Begins host start document) (v v' : Volume)
    (hreachable : Reachable host r start document v) (hcut : v.Survives v') :
    let disk := host.diskOf v'
    (∃ manifest, disk.manifest = some manifest) ∧
    (∀ seg ∈ disk.archiveSegments, v'.directory.now[seg.sourceName]? = some seg.file ∨
      v'.directory.now[seg.name]? = some seg.file) ∧
    ∀ (name : String) (id : FileId), isOwn name = false → start.directory.now[name]? = some id →
      ((∀ seg ∈ disk.archiveSegments, seg.file ≠ id) → v'.directory.now[name]? = some id) ∧
      (v'.directory.now[name]? ≠ some id → v'.files id = start.files id) := by
  intro disk
  have hmodelled := hreachable.modelled hstart
  have hsound := (hmodelled.stopped _ (mem_views hcut.directory)).sound hstart
  have hmanifest : disk.manifest = _ := hmodelled.stable.survives hcut
  have hsegments : disk.archiveSegments =
      (host.disk v'.directory.now v.files).archiveSegments := by
    rw [Disk.archiveSegments, Disk.archiveSegments, hmanifest]
  refine ⟨?_, fun seg hseg => ?_, fun name id hname hid => ⟨fun hother => ?_, fun hlost => ?_⟩⟩
  · obtain ⟨manifest, hsome, -⟩ := hsound.fits
    exact ⟨manifest, hmanifest.trans hsome⟩
  · rw [hsegments] at hseg
    rcases hsound.archiveSegments with hpinned | ⟨hnone, -⟩
    · rw [hpinned] at hseg
      exact (hsound.keeps.named seg hseg).imp (fun h => (getElem?_of_bags h).2)
        fun h => (getElem?_of_bags h).2
    · rw [hnone] at hseg
      exact absurd hseg (by simp)
  · rw [hsegments] at hother
    have hbefore : (bags start.directory.now)[name]? = some id :=
      (getElem?_bags_of_bag hname).trans hid
    rcases hsound.archiveSegments with hpinned | ⟨-, huntouched⟩
    · rw [hpinned] at hother
      refine (getElem?_of_bags (hsound.keeps.others name id hbefore ?_)).2
      intro seg hseg heq
      refine hother seg hseg (Option.some.inj ?_)
      exact (Recorder.directory_of_mem hseg).symm.trans (by rw [heq]; exact hbefore)
    · have hsame : bags v'.directory.now = bags start.directory.now := huntouched.1
      rw [← hsame] at hbefore
      exact (getElem?_of_bags hbefore).2
  · exact hmodelled.survives_files hstart hcut hname hid hlost

/-- The power goes at the thirtieth system call of the first finalization. -/
theorem power_cut_preserved_flight : Nonempty Host ∧ ∀ host : Host,
    let v' := (flightEnd host (List.replicate 29 .proceed ++ [.crash])).settled
    (∃ manifest, (host.diskOf v').manifest = some manifest) ∧
    ∀ seg ∈ (host.diskOf v').archiveSegments,
      v'.directory.now[seg.sourceName]? = some seg.file ∨
        v'.directory.now[seg.name]? = some seg.file := by
  refine ⟨nonempty_host, fun host => ?_⟩
  obtain ⟨hmanifest, hsegments, -⟩ := power_cut_preserved host flightRecorder (flightVolume host)
    flightDocument begins_flightVolume _ _ (reachable_flightEnd _) (Storage.survives_settled _)
  exact ⟨hmanifest, hsegments⟩

/-- **A finalized manifest comes back only with the archive.** -/
theorem power_cut_finalized (host : Host) (r : Recorder) (start : Volume) (document : Manifest)
    (hstart : Begins host start document) (v v' : Volume)
    (hreachable : Reachable host r start document v) (hcut : v.Survives v') (manifest : Manifest)
    (hmanifest : (host.diskOf v').manifest = some manifest)
    (hfinalized : manifest.archiveFinalizationState = some .finalized) :
    manifest.archiveSegments =
      some (r.segments (host.diskOf start).toFileSystem) ∧
    ∀ seg ∈ r.segments (host.diskOf start).toFileSystem,
      v'.directory.now[seg.sourceName]? = none ∧
      v'.directory.now[seg.name]? = some seg.file ∧
      v'.files seg.file = start.files seg.file := by
  have hmodelled := hreachable.modelled hstart
  have hsound := (hmodelled.stopped _ (mem_views hcut.directory)).sound hstart
  have hfound := (hmodelled.stable.survives hcut).symm.trans hmanifest
  have hsettled := (hsound.manifest hfound).finalized hfinalized
  refine ⟨hsettled.segments, fun seg hseg => ?_⟩
  obtain ⟨hsource, hname⟩ := hsettled.moved seg hseg
  obtain ⟨hbag, hbefore⟩ := getElem?_of_bags (Recorder.directory_of_mem hseg)
  have hlost : v'.directory.now[seg.sourceName]? = none :=
    (getElem?_bags_of_bag hbag).symm.trans hsource
  refine ⟨hlost, (getElem?_of_bags hname).2, ?_⟩
  exact hmodelled.survives_files hstart hcut hbag hbefore (by rw [hlost]; simp)

/-- The power goes behind the first finalization. -/
theorem power_cut_finalized_flight : Nonempty Host ∧ ∀ host : Host, ∃ manifest,
    (host.diskOf (flightEnd host []).settled).manifest = some manifest ∧
      manifest.archiveSegments =
        some (flightRecorder.segments (host.diskOf (flightVolume host)).toFileSystem) := by
  refine ⟨nonempty_host, fun host => ?_⟩
  obtain ⟨manifest, hmanifest, -, hfinalized⟩ := @finished_flightEnd host
  have hcut := power_cut_finalized host flightRecorder (flightVolume host) flightDocument
    begins_flightVolume _ _ (reachable_flightEnd []) (Storage.survives_settled _) manifest
    hmanifest hfinalized
  exact ⟨manifest, hmanifest, hcut.1⟩

/-- **The finalization has one result.**  Take a directory whose recorded names are volumes,
and let the runs before be cut off by faults, stops and power cuts in any way behind the
first manifest of the finalization.  Then a restart that is not interrupted returns, and
any restart that returns leaves what the uninterrupted finalization leaves where there is
no cache. -/
theorem power_cut_resumes (host : Host) (r : Recorder) (start : Volume) (document : Manifest)
    (hstart : Begins host start document)
    (hclosed : r.Closed (host.diskOf start).toFileSystem)
    (hended : r.Ended document.toRecording) (v : Volume)
    (hreachable : Reachable host r start document v)
    (hheld : Held document.toRecording (host.diskOf v)) (pid : Nat) :
    ∃ whole : Session, r.finalizeArchiveFiles
        ⟨host.diskOf start, document⟩ [] = .done () whole [] ∧
      (∃ manifest, whole.disk.manifest = some manifest ∧
        manifest.archiveFinalizationState = some .finalized) ∧
      (∀ fates exit s rest, resume host r pid ⟨v, .blank⟩ fates = .done exit s rest →
        host.diskOf s.volume = whole.disk) ∧
      ∃ exit s rest, resume host r pid ⟨v, .blank⟩ [] = .done exit s rest := by
  have hmodelled := hreachable.modelled hstart
  have hsound := (hmodelled.stopped _ List.mem_cons_self).sound hstart
  obtain ⟨_, whole, hwhole, hleft, hfinished⟩ :=
    (wp_conclude (r := r) hstart.unfinalized hstart.unpinned).returns
      (fun _ _ h => not_excused hclosed h.2) fun _ h => h.2
  refine ⟨whole, hwhole, ?_, fun fates exit s rest hdone => ?_, ?_⟩
  · obtain ⟨manifest, hmanifest, -, hstate⟩ := hfinished
    exact ⟨manifest, hmanifest, hstate⟩
  · -- A restart that returns is one of the level above that does.
    have hsim : Sim host.abstraction anyFault _ (resume host r pid) r.resume ⟨v, .blank⟩ :=
      sim_resume hmodelled.stable
    obtain ⟨fates', -, hfates'⟩ := (hsim.follows fates fun _ _ => trivial).runs []
    rw [hdone] at hfates'
    obtain ⟨hs, hsfinished⟩ := (wp_resume hsound).of_done hfates'
    exact (hsfinished _ hended hheld).disk_eq hs.sound hleft.toSound hfinished
  · have hsim : Sim host.abstraction (fun fate => fate = .proceed) _ (resume host r pid)
        r.resume ⟨v, .blank⟩ := sim_resume hmodelled.stable
    have habove : ∀ fates, (∀ fate ∈ fates, fate = .proceed) → ∃ exit s rest,
        r.resume (host.session ⟨v, .blank⟩) fates = .done exit s rest ∧ True := by
      intro fates hfates
      obtain ⟨exit, s, rest, hdone, -⟩ := (wp_resume (s := host.session ⟨v, .blank⟩) hsound).done
        (fun _ _ h => not_excused_proceed hclosed h.2) (fun _ h => by simp at h) hfates
      exact ⟨exit, s, rest, hdone, trivial⟩
    obtain ⟨exit, s, rest, hdone, -⟩ := hsim.returns habove
    exact ⟨exit, s, rest, hdone⟩

/-- The power goes in the first finalization behind the rename of its first manifest, which
is on the medium, and a recorder is started again. -/
theorem power_cut_resumes_flight : Nonempty Host ∧ ∀ host : Host,
    let v := (flightEnd host (List.replicate 5 .proceed ++ [.crash])).settled
    (host.diskOf v).manifest = some flightDocument.pending ∧
      ∃ exit s rest, resume host flightRecorder 42 ⟨v, .blank⟩ [] = .done exit s rest := by
  refine ⟨nonempty_host, fun host => ⟨renamed_flightEnd, ?_⟩⟩
  obtain ⟨whole, -, -, -, hreturns⟩ := power_cut_resumes host flightRecorder (flightVolume host)
    flightDocument begins_flightVolume closed_flightVolume ⟨rfl, rfl, by decide⟩ _
    (.cut (reachable_flightEnd _) (Storage.survives_settled _) fun _ _ _ _ => rfl)
    ⟨_, renamed_flightEnd, rfl, by simp [Manifest.pending]⟩ 42
  exact hreturns

end Ros1Tools.Archive.Durable
