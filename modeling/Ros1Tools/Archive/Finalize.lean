import Ros1Tools.Lib.Faulty
import Ros1Tools.Archive.Disk

/-!
# Finalizing an archive

`finalize_archive_files`, the functions it calls, and the branch of a restarted
recorder that leads to it again.  Every system call is one atomic step, which may be
taken, may raise, or may never be reached.  The document is in the memory of the
process: an exception leaves it as it is, a crash loses it.

A call that changes neither a name nor the manifest (opening, writing the temporary
file, syncing, closing) is a step `sync`, which can do nothing but fail.
-/

namespace Ros1Tools.Archive

open Lib Lib.Faulty

/-- The exceptions of the recorder, with what `str` makes of them. -/
inductive PyException where
  | runtimeError (text : String)
  | fileExistsError (text : String)
  | osError (text : String)
deriving DecidableEq, Repr

namespace PyException

def str : PyException → String
  | runtimeError text => text
  | fileExistsError text => text
  | osError text => text

def isOSError : PyException → Bool
  | runtimeError _ => false
  | fileExistsError _ => true
  | osError _ => true

def isFileExistsError : PyException → Bool
  | fileExistsError _ => true
  | _ => false

end PyException

/-- The process and what it works on. -/
structure Session where
  disk : Disk
  document : Manifest

namespace Session

variable (s : Session)

/-- The names of the directory change, the manifest does not. -/
def update (fs : FileSystem) : Session := { s with disk := { s.disk with toFileSystem := fs } }

/-- The document replaces the manifest on disk. -/
def written : Session := { s with disk := s.disk.replaceManifest s.document }

end Session

abbrev Finalizer := Faulty PyException Session

/-! ## System calls -/

/-- A system call that changes nothing of interest. -/
def sync : Finalizer Unit := atomic fun s => .ok ((), s)

namespace Recorder

variable (r : Recorder)

/-- `os.path.join(output_directory, name)`. -/
def path (name : String) : String := r.outputDirectory ++ "/" ++ name

def noSuchFile (name : String) : PyException :=
  .osError ("[Errno 2] No such file or directory: '" ++ r.path name ++ "'")

def recordedPaths : Finalizer (List String) :=
  atomic fun s => .ok (r.recordedNames s.disk.directory, s)

def lstat (name : String) : Finalizer FileInfo := atomic fun s =>
  match s.disk.lstat name with
  | some info => .ok (info, s)
  | none => .error (r.noSuchFile name)

/-- `os.path.lexists`, which takes every failure of `lstat` for a missing file. -/
def lexists (name : String) : Finalizer Bool :=
  tryCatch (do let _ ← r.lstat name; pure true)
    fun e => if e.isOSError then pure false else throw e

/-- `os.link`, which never replaces a name. -/
def link (source destination : String) : Finalizer Unit := atomic fun s =>
  match s.disk.directory[source]? with
  | none => .error (r.noSuchFile source)
  | some id =>
      if destination ∈ s.disk.directory then
        .error (.fileExistsError
          ("[Errno 17] File exists: '" ++ r.path source ++ "' -> '" ++ r.path destination ++ "'"))
      else .ok ((), s.update (s.disk.addName destination id))

def unlink (name : String) : Finalizer Unit := atomic fun s =>
  match s.disk.directory[name]? with
  | none => .error (r.noSuchFile name)
  | some id => .ok ((), s.update (s.disk.removeName name id))

end Recorder

/-- `write_manifest(document)`. -/
def writeManifest : Finalizer Unit := do
  sync
  atomic fun s => .ok ((), s.written)
  sync

/-! ## Moving a volume -/

/-- What identifies a closed volume: `(st_dev, st_ino, st_size)`. -/
def FileInfo.identity (info : FileInfo) : FileId × Nat := (info.id, info.sizeBytes)

/-- The identity a segment is expected to have. -/
def Segment.expected (segment : Segment) : FileId × Nat := (segment.file, segment.sizeBytes)

namespace Recorder

variable (r : Recorder)

/-- The handler of `FileExistsError` around `os.link`. -/
def resumeLink (sourceInfo : FileInfo) (destination : String) (e : PyException) :
    Finalizer Unit :=
  if e.isFileExistsError then do
    let destinationInfo ← r.lstat destination
    -- Interrupted link and unlink resume only when both names are this exact inode.
    require (destinationInfo.isRegular = true ∧ sourceInfo.id = destinationInfo.id)
      (.runtimeError "readable bag destination already exists")
  else throw e

def moveClosedWithoutReplacement (source destination : String) : Finalizer Unit := do
  let sourceInfo ← r.lstat source
  require (sourceInfo.isRegular = true) (.runtimeError "finalized bag is not a regular file")
  let opened ← r.lstat source
  require (opened.identity = sourceInfo.identity)
    (.runtimeError "closed bag changed before preservation")
  sync
  tryCatch (r.link source destination) (r.resumeLink sourceInfo destination)
  sync
  r.unlink source
  sync

/-! ## The steps of the finalization -/

/-- Pins a closed volume under its native name; its issued name is not known yet. -/
def pinSegment (segments : List Segment) (name : String) : Finalizer (List Segment) :=
  if isActive name then pure segments
  else match r.nativeIndex name with
  | none => pure segments
  | some index => do
      let info ← r.lstat name
      require (info.isRegular = true)
        (.runtimeError "bag inventory contains an unexpected closed file")
      pure (segments ++ [⟨name, "", index, info.id.device, info.id.inode, info.sizeBytes⟩])

/-- Issues the names, which depend on the number of volumes. -/
def issueNames (segments : List Segment) : List Segment :=
  segments.map fun segment =>
    { segment with name := r.issuedBagName segment.index segments.length }

/-- The segments of the document, or those found in the directory. -/
def pinSegments : Finalizer (List Segment) := do
  match ← gets (·.document.archiveSegments) with
  | some segments => pure segments
  | none =>
      let names ← r.recordedPaths
      let segments ← names.foldlM r.pinSegment []
      modify fun s =>
        { s with document := { s.document with archiveSegments := some (r.issueNames segments) } }
      pure (r.issueNames segments)

end Recorder

/-- `by_index`. -/
abbrev ByIndex := Std.ExtTreeMap Nat BagFile compare

/-- The entries of `by_index` in the order of their indices. -/
def ByIndex.entries (byIndex : ByIndex) : List BagFile := byIndex.toList.map Prod.snd

namespace Recorder

variable (r : Recorder)

/-- The entry a finalized volume gets in `bagFiles`. -/
def finalizedBag (index : Nat) (name : String) (sizeBytes : Nat) : BagFile :=
  .finalized ("bag." ++ r.recordingId ++ "." ++ toString index) name sizeBytes

/-- Moves a volume that is still found under its native name. -/
def moveFound (segment : Segment) (source destination : String) : Finalizer Unit := do
  let found ← r.lexists source
  if found = true then do
    let info ← r.lstat source
    require (info.isRegular = true ∧ info.identity = segment.expected)
      (.runtimeError "closed bag changed before finalization")
    r.moveClosedWithoutReplacement source destination
  else pure ()

/-- One round of the loop over the segments. -/
def finalizeSegment (closedCount : Nat) (byIndex : ByIndex) (segment : Segment) :
    Finalizer ByIndex := do
  let sourceName := r.nativeName segment.index
  let finalName := r.issuedBagName segment.index closedCount
  require (segment.sourceName = sourceName ∧ segment.name = finalName ∧ segment.index ∉ byIndex)
    (.runtimeError "bag finalization identity is invalid")
  r.moveFound segment sourceName finalName
  let info ← r.lstat finalName
  require (info.isRegular = true ∧ info.identity = segment.expected)
    (.runtimeError "finalized bag identity changed")
  pure (byIndex.insert segment.index (r.finalizedBag segment.index finalName info.sizeBytes))

/-- One round of the loop over the inventory. -/
def inspect (expectedNames : List String) (name : String) : Finalizer Unit := do
  let info ← r.lstat name
  require (info.isRegular = true) (.runtimeError "bag inventory contains a non-regular file")
  if isActive name then
    modify fun s => { s with document :=
      { s.document with bagFiles := s.document.bagFiles ++ [.partialBag name info.sizeBytes] } }
  else
    require (name ∈ expectedNames)
      (.runtimeError "bag inventory contains an unowned closed file")

end Recorder

/-- A document whose finalization is under way. -/
def Manifest.pending (document : Manifest) : Manifest :=
  { document with archiveFinalizationState := some .pending, bagFiles := [] }

/-- A document whose finalization went wrong. -/
def Manifest.failed (document : Manifest) (e : PyException) : Manifest :=
  { document with
    archiveFinalizationState := some .failed
    archiveFinalizationError := some e.str }

/-- A document whose finalization is complete. -/
def Manifest.finalized (document : Manifest) (issued : List BagFile) : Manifest :=
  { document with
    bagFiles := document.bagFiles ++ issued
    archiveFinalizationState := some .finalized
    archiveFinalizationError := none }

namespace Recorder

variable (r : Recorder)

/-- The body that is tried once the segments are on disk. -/
def settle (segments : List Segment) : Finalizer Unit := do
  let byIndex ← segments.foldlM (r.finalizeSegment segments.length) ∅
  let names ← r.recordedPaths
  names.foldlM (fun _ name => r.inspect (byIndex.entries.map BagFile.name) name) ()
  modify fun s => { s with document := s.document.finalized byIndex.entries }

def finalizeArchiveFiles : Finalizer Unit := do
  modify fun s => { s with document := s.document.pending }
  writeManifest
  let segments ← r.pinSegments
  modify fun s => { s with document := s.document.pending }
  writeManifest
  tryCatch (r.settle segments) fun e => do
    modify fun s => { s with document := s.document.failed e }
    writeManifest
    throw e
  writeManifest

end Recorder

/-! ## Restarting -/

/-- How a started recorder ends, or goes on to record. -/
inductive Exit where
  | code (status : Int)
  | message (text : String)
  | record
deriving DecidableEq, Repr

/-- Whether a recording has come to its end. -/
def Recording.hasEnded (recording : Recording) : Bool :=
  recording.recordingEndedAt.any (· ≠ "") &&
    [some .stopped, some .completed, some .failed].contains recording.status

/-- Whether a recording has ended and is not yet finalized. -/
def isResumable (existing : Manifest) : Bool :=
  existing.hasEnded && [some .pending, some .failed].contains existing.archiveFinalizationState

/-- `SystemExit` after a finalization that was resumed. -/
def exitCode (existing : Manifest) : Int :=
  if existing.terminationSignal.isSome then 0 else existing.recorderExitCode.getD 1

/-- The start of a recorder with naming version 1. -/
def Recorder.resume (r : Recorder) : Finalizer Exit := do
  match ← atomic fun s => .ok (s.disk.manifest, s) with
  | none =>
      let names ← r.recordedPaths
      if names ≠ [] then
        pure (.message "ROS bag record already contains files; existing bytes are retained")
      else pure .record
  | some existing =>
      if existing.recordingId ≠ some r.recordingId ∨ existing.recordNamingVersion ≠ some 1 then
        pure (.message "existing ROS bag manifest belongs to another record")
      else if isResumable existing then do
        modify fun s => { s with document := existing }
        r.finalizeArchiveFiles
        pure (.code (exitCode existing))
      else pure (.message "ROS bag record has already started; existing bytes are retained")

end Ros1Tools.Archive
