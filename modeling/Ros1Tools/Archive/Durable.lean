import Ros1Tools.Lib.Storage
import Ros1Tools.Lib.Simulation
import Ros1Tools.Archive.Resume

/-!
# Finalizing an archive on storage behind a cache

The finalization again, one level further down.  The manifest is a file like any other
here, written under the name of a part of its own process and moved over the last one;
the directory and the contents of the files are cached; and `os.fsync`, which is no more
than a chance to fail one level up, is what brings them to the medium.

The level above does not see the manifest's names.  What it does see of a directory is
its `disk`: the other names, the files behind them, and the document that is read back
from the manifest.  A program that only asks for names of bags is taken over from there
(`look`): hiding names that are never those of bags changes none of its answers
(`isOwn_of_isRecorded`, `getElem?_bags`).
-/

namespace Ros1Tools.Archive.Durable

open Lib Lib.Faulty

/-! ## Names -/

/-- The name of `manifest_path`. -/
def manifestName : String := "session-manifest.json"

def partPrefix : String := manifestName ++ ".part."

/-- The name of `manifest_path + ".part." + str(os.getpid())`. -/
def partName (pid : Nat) : String := partPrefix ++ toString pid

/-- Whether a name is one of a part, of whatever process. -/
def isPart (name : String) : Bool :=
  (name.toList.dropPrefix? partPrefix.toList).any fun digits => digits.all Char.isDigit

/-- Whether a name is the manifest's or one of its parts'. -/
def isOwn (name : String) : Bool := name == manifestName || isPart name

/-- The names that are neither the manifest nor a part of it. -/
def bags (directory : Directory) : Directory := directory.filter fun name _ => !isOwn name

/-! ## Storage -/

abbrev Volume := Storage Directory FileId File

/-- What the recorder leaves to the interpreter and to the kernel: the text of a document,
reading it back, and the file a new name is given. -/
structure Host where
  /-- `json.dumps(document, …) + "\n"` in UTF-8. -/
  encode : Manifest → List UInt8
  /-- `json.load`. -/
  decode : List UInt8 → Except PyException Manifest
  decode_encode : ∀ document, decode (encode document) = .ok document
  allocate : Cached Directory → FileId
  /-- A file that may still get its name back is not given away. -/
  allocate_fresh : ∀ directory : Cached Directory, ∀ d ∈ directory.views, ∀ name : String,
    d[name]? ≠ some (allocate directory)

/-- The process and the storage it works on. -/
structure Machine where
  volume : Volume
  document : Manifest

/-- The storage changes, the process does not. -/
def Machine.on (s : Machine) (volume : Volume) : Machine := { s with volume := volume }

abbrev Writer := Faulty PyException Machine

/-- The files that have a name in a directory. -/
def visible (directory : Directory) (files : FileId → File) (id : FileId) : File :=
  if FileSystem.isNamed directory id then files id else .freed

namespace Host

variable (host : Host)

/-- What the level above sees of a directory. -/
def disk (directory : Directory) (files : FileId → File) : Disk where
  directory := bags directory
  files := visible (bags directory) files
  manifest := directory[manifestName]?.bind fun id => (host.decode (files id).bytes).toOption

/-- What it sees of a volume now. -/
def diskOf (v : Volume) : Disk := host.disk v.directory.now v.files

/-- What it sees of a process and its storage. -/
def session (s : Machine) : Session := ⟨host.diskOf s.volume, s.document⟩

end Host

/-! ## System calls -/

/-- A system call that changes the storage. -/
def change (f : Volume → Volume) : Writer Unit :=
  atomic fun s => .ok ((), s.on (f s.volume))

/-- A system call that changes nothing: opening a directory, closing a file. -/
def idle : Writer Unit := change id

section Calls

variable (host : Host) (r : Recorder)

/-- A program that only looks at the names of bags, and may change the document. -/
def look {α : Type} (m : Finalizer α) : Writer α :=
  zoom host.session (fun s t => { t with document := s.document }) m

/-- `open(temporary, "wb")`, which empties a file that is there. -/
def openPart (pid : Nat) : Writer FileId := atomic fun s =>
  match s.volume.directory.now[partName pid]? with
  | some id => .ok (id, s.on (s.volume.write id ⟨true, []⟩))
  | none =>
      let id := host.allocate s.volume.directory
      .ok (id, s.on ((s.volume.setDirectory
        (s.volume.directory.now.insert (partName pid) id)).write id ⟨true, []⟩))

/-- `os.replace(temporary, manifest_path)`. -/
def replacePart (pid : Nat) : Writer Unit := atomic fun s =>
  match s.volume.directory.now[partName pid]? with
  | none => .error (.osError ("[Errno 2] No such file or directory: '" ++
      r.path (partName pid) ++ "' -> '" ++ r.path manifestName ++ "'"))
  | some id => .ok ((), s.on (s.volume.setDirectory
      ((s.volume.directory.now.erase (partName pid)).insert manifestName id)))

def link (source destination : String) : Writer Unit := atomic fun s =>
  match s.volume.directory.now[source]? with
  | none => .error (r.noSuchFile source)
  | some id =>
      if destination ∈ s.volume.directory.now then
        .error (.fileExistsError
          ("[Errno 17] File exists: '" ++ r.path source ++ "' -> '" ++ r.path destination ++ "'"))
      else .ok ((), s.on (s.volume.setDirectory
        (s.volume.directory.now.insert destination id)))

def unlink (name : String) : Writer Unit := atomic fun s =>
  match s.volume.directory.now[name]? with
  | none => .error (r.noSuchFile name)
  | some _ => .ok ((), s.on (s.volume.setDirectory (s.volume.directory.now.erase name)))

/-- The `finally` of `write_manifest`: a part that is still there is removed. -/
def discardPart (pid : Nat) : Writer Unit :=
  tryCatch (unlink r (partName pid)) fun e =>
    if e = r.noSuchFile (partName pid) then pure () else throw e

/-- Writes the part of this process, and has it on the medium. -/
def fillPart (pid : Nat) (encoded : List UInt8) : Writer Unit := do
  let part ← openPart host pid
  ensuring idle do
    change (·.write part ⟨true, encoded⟩)
    change (·.syncFile part)

/-- `write_manifest(document)`. -/
def writeManifest (pid : Nat) : Writer Unit := do
  let document ← gets (·.document)
  ensuring (discardPart r pid) do
    fillPart host pid (host.encode document)
    replacePart r pid
  idle
  ensuring idle (change (·.syncDirectory))

/-! ## The finalization -/

def moveClosedWithoutReplacement (source destination : String) : Writer Unit := do
  let sourceInfo ← look host (r.lstat source)
  require (sourceInfo.isRegular = true) (.runtimeError "finalized bag is not a regular file")
  let opened ← look host (r.lstat source)
  require (opened.identity = sourceInfo.identity)
    (.runtimeError "closed bag changed before preservation")
  change (·.syncFile opened.id)
  tryCatch (link r source destination) fun e => look host (r.resumeLink sourceInfo destination e)
  change (·.syncDirectory)
  unlink r source
  change (·.syncDirectory)

def moveFound (segment : Segment) (source destination : String) : Writer Unit := do
  let found ← look host (r.lexists source)
  if found = true then do
    let info ← look host (r.lstat source)
    require (info.isRegular = true ∧ info.identity = segment.expected)
      (.runtimeError "closed bag changed before finalization")
    moveClosedWithoutReplacement host r source destination
  else pure ()

def finalizeSegment (closedCount : Nat) (byIndex : ByIndex) (segment : Segment) :
    Writer ByIndex := do
  let sourceName := r.nativeName segment.index
  let finalName := r.issuedBagName segment.index closedCount
  require (segment.sourceName = sourceName ∧ segment.name = finalName ∧ segment.index ∉ byIndex)
    (.runtimeError "bag finalization identity is invalid")
  moveFound host r segment sourceName finalName
  let info ← look host (r.lstat finalName)
  require (info.isRegular = true ∧ info.identity = segment.expected)
    (.runtimeError "finalized bag identity changed")
  pure (byIndex.insert segment.index (r.finalizedBag segment.index finalName info.sizeBytes))

/-- The inventory of the names that are left, and the document it is entered in. -/
def inspectAll (byIndex : ByIndex) : Finalizer Unit := do
  let names ← r.recordedPaths
  names.foldlM (fun _ name => r.inspect (byIndex.entries.map BagFile.name) name) ()
  modify fun s => { s with document := s.document.finalized byIndex.entries }

def settle (segments : List Segment) : Writer Unit := do
  let byIndex ← segments.foldlM (finalizeSegment host r segments.length) ∅
  look host (inspectAll r byIndex)

def finalizeArchiveFiles (pid : Nat) : Writer Unit := do
  modify fun s => { s with document := s.document.pending }
  writeManifest host r pid
  let segments ← look host r.pinSegments
  modify fun s => { s with document := s.document.pending }
  writeManifest host r pid
  tryCatch (settle host r segments) fun e => do
    modify fun s => { s with document := s.document.failed e }
    writeManifest host r pid
    throw e
  writeManifest host r pid

/-- Reads the manifest, if there is one. -/
def readManifest : Writer (Option Manifest) := atomic fun s =>
  match s.volume.directory.now[manifestName]? with
  | none => .ok (none, s)
  | some id =>
      match host.decode (s.volume.files id).bytes with
      | .ok existing => .ok (some existing, s)
      | .error e => .error e

/-- The start of a recorder with naming version 1. -/
def resume (pid : Nat) : Writer Exit := do
  match ← readManifest host with
  | none =>
      let names ← look host r.recordedPaths
      if names ≠ [] then
        pure (.message "ROS bag record already contains files; existing bytes are retained")
      else pure .record
  | some existing =>
      if existing.recordingId ≠ some r.recordingId ∨ existing.recordNamingVersion ≠ some 1 then
        pure (.message "existing ROS bag manifest belongs to another record")
      else if isResumable existing then do
        modify fun s => { s with document := existing }
        finalizeArchiveFiles host r pid
        pure (.code (exitCode existing))
      else pure (.message "ROS bag record has already started; existing bytes are retained")

end Calls

/-! ## Names that are no bags -/

theorem isPart_partName (pid : Nat) : isPart (partName pid) = true := by
  have htext : (partName pid).toList = partPrefix.toList ++ Nat.toDigits 10 pid := by
    rw [partName, String.toList_append, toList_toString_nat]
  have hdrop := List.dropPrefix?_eq_some_iff.mpr ⟨_, htext, beq_self_eq_true partPrefix.toList⟩
  rw [isPart, hdrop]
  exact List.all_eq_true.mpr (isNumeral_toDigits pid).digits

theorem isOwn_of_isPart {name : String} (h : isPart name = true) : isOwn name = true := by
  rw [isOwn, h, Bool.or_true]

@[simp] theorem isOwn_partName (pid : Nat) : isOwn (partName pid) = true :=
  isOwn_of_isPart (isPart_partName pid)

@[simp] theorem isOwn_manifestName : isOwn manifestName = true := by
  rw [isOwn, beq_self_eq_true, Bool.true_or]

theorem isPart_manifestName : isPart manifestName = false := by decide +kernel

theorem ne_of_isPart {name part : String} (hname : isPart name = false)
    (hpart : isPart part = true) : name ≠ part := fun h =>
  absurd (hname.symm.trans (h ▸ hpart)) Bool.false_ne_true

theorem manifestName_ne_partName (pid : Nat) : manifestName ≠ partName pid :=
  ne_of_isPart isPart_manifestName (isPart_partName pid)

theorem ne_of_isOwn {name own : String} (hname : isOwn name = false) (hown : isOwn own = true) :
    name ≠ own := fun h => absurd (hname.symm.trans (h ▸ hown)) Bool.false_ne_true

/-- The last character of a recorded name. -/
theorem getLast?_of_isRecorded {r : Recorder} {name : String} (h : r.isRecorded name = true) :
    name.toList.getLast? = some 'g' ∨ name.toList.getLast? = some 'e' := by
  unfold Recorder.isRecorded at h
  split at h
  · cases h
  · rename_i suffix hsuffix
    obtain ⟨front, hname, -⟩ := List.dropPrefix?_eq_some_iff.mp hsuffix
    rw [hname]
    rcases Bool.or_eq_true_iff.mp (Bool.and_eq_true_iff.mp h).2 with hbag | hactive
    · obtain ⟨body, rfl⟩ := List.isSuffixOf_iff_suffix.mp hbag
      exact .inl (by simp)
    · obtain ⟨body, rfl⟩ := List.isSuffixOf_iff_suffix.mp hactive
      exact .inr (by simp)

/-- **No bag has a name of the manifest's.** -/
theorem isOwn_of_isRecorded {r : Recorder} {name : String} (h : r.isRecorded name = true) :
    isOwn name = false := by
  have hlast := getLast?_of_isRecorded h
  rw [isOwn, Bool.or_eq_false_iff]
  constructor
  · refine Bool.eq_false_iff.mpr fun hname => ?_
    rw [beq_iff_eq.mp hname] at hlast
    exact absurd hlast (by decide +kernel)
  · refine Bool.eq_false_iff.mpr fun hpart => ?_
    obtain ⟨digits, hdrop, hdigits⟩ := (Option.any_eq_true _ _).mp hpart
    obtain ⟨front, hname, hfront⟩ := List.dropPrefix?_eq_some_iff.mp hdrop
    rw [hname, List.getLast?_append, beq_iff_eq.mp hfront] at hlast
    cases hd : digits.getLast? with
    | none => rw [hd] at hlast; exact absurd hlast (by decide +kernel)
    | some c =>
        -- The last character of a part's name is a digit.
        have hc : c.isDigit = true :=
          List.all_eq_true.mp hdigits c (List.mem_of_getLast? hd)
        rw [hd] at hlast
        rcases hlast with hlast | hlast <;> cases hlast <;> exact absurd hc (by decide)

@[simp] theorem isOwn_nativeName (r : Recorder) (index : Nat) :
    isOwn (r.nativeName index) = false :=
  isOwn_of_isRecorded (r.isRecorded_nativeName index)

@[simp] theorem isOwn_issuedBagName (r : Recorder) (index count : Nat) :
    isOwn (r.issuedBagName index count) = false :=
  isOwn_of_isRecorded (r.isRecorded_issuedBagName index count)

section Bags

variable {d d' : Directory} {name other : String} {id : FileId}

/-- A name that is changed, and one that is not. -/
theorem getElem?_insert_of_ne (h : other ≠ name) : (d.insert name id)[other]? = d[other]? := by
  rw [Std.ExtTreeMap.getElem?_insert, if_neg]
  exact fun heq => h (Std.compare_eq_iff_eq.mp heq).symm

theorem getElem?_erase_of_ne (h : other ≠ name) : (d.erase name)[other]? = d[other]? := by
  rw [Std.ExtTreeMap.getElem?_erase, if_neg]
  exact fun heq => h (Std.compare_eq_iff_eq.mp heq).symm

theorem getElem?_bags : (bags d)[name]? = if isOwn name then none else d[name]? := by
  rw [bags, Std.ExtTreeMap.getElem?_filter']
  generalize d[name]? = found
  cases found <;> cases isOwn name <;> rfl

@[simp] theorem getElem?_bags_of_bag (h : isOwn name = false) : (bags d)[name]? = d[name]? := by
  rw [getElem?_bags, if_neg (by rw [h]; simp)]

theorem getElem?_of_bags (h : (bags d)[name]? = some id) :
    isOwn name = false ∧ d[name]? = some id := by
  rw [getElem?_bags] at h
  split at h
  · cases h
  · rename_i hown
    exact ⟨Bool.eq_false_iff.mpr hown, h⟩

theorem bags_congr (h : ∀ name : String, isOwn name = false → d[name]? = d'[name]?) :
    bags d = bags d' := by
  refine Std.ExtTreeMap.ext_getElem? fun name => ?_
  rw [getElem?_bags, getElem?_bags]
  split
  · rfl
  · rename_i hname
    exact h name (Bool.eq_false_iff.mpr hname)

theorem bags_insert_own (h : isOwn name = true) : bags (d.insert name id) = bags d :=
  bags_congr fun _ hother => getElem?_insert_of_ne (ne_of_isOwn hother h)

theorem bags_erase_own (h : isOwn name = true) : bags (d.erase name) = bags d :=
  bags_congr fun _ hother => getElem?_erase_of_ne (ne_of_isOwn hother h)

theorem bags_insert (h : isOwn name = false) :
    bags (d.insert name id) = (bags d).insert name id := by
  refine Std.ExtTreeMap.ext_getElem? fun other => ?_
  rw [getElem?_bags, Std.ExtTreeMap.getElem?_insert, Std.ExtTreeMap.getElem?_insert, getElem?_bags]
  by_cases hname : compare name other = .eq
  · rw [← Std.compare_eq_iff_eq.mp hname, h, if_neg (by simp), if_pos Std.ReflCmp.compare_self,
      if_pos Std.ReflCmp.compare_self]
  · rw [if_neg hname, if_neg hname]

theorem bags_erase : bags (d.erase name) = (bags d).erase name := by
  refine Std.ExtTreeMap.ext_getElem? fun other => ?_
  rw [getElem?_bags, Std.ExtTreeMap.getElem?_erase, Std.ExtTreeMap.getElem?_erase, getElem?_bags]
  by_cases hname : compare name other = .eq
  · rw [if_pos hname, if_pos hname, ite_self]
  · rw [if_neg hname, if_neg hname]

end Bags

end Ros1Tools.Archive.Durable
