import Mathlib.Data.Countable.Basic
import Mathlib.Data.List.Basic
import Mathlib.Logic.Equiv.List
import Mathlib.Logic.Function.Basic
import Mathlib.Tactic.DeriveCountable
import Ros1Tools.Archive.Name

/-!
# The output directory and the session manifest

What survives the recorder process: a directory from names to inodes, the inodes'
files, and the session manifest.  A file is identified by its device and inode, and
several names may share one.  The bytes of a file are gone with its last name, so
that losing a name and losing a recording are different things here as they are on
disk.

`session-manifest.json` is kept apart from the other names: it is replaced as a whole,
and its name is none that the recorder takes for a bag file.
-/

namespace Ros1Tools.Archive

/-! ## Manifests

That there are only countably many documents is what it takes for a text to each. -/

instance countableString : Countable String :=
  have : Countable Char := Function.Injective.countable fun _ _ => Char.toNat_inj.mp
  Function.Injective.countable fun _ _ => String.toList_inj.mp

/-- A status of a recording. -/
inductive Status where
  | recording
  | stopped
  | completed
  | failed
deriving DecidableEq, Repr, Countable

/-- The stages of `archiveFinalizationState`. -/
inductive FinalizationState where
  | pending
  | failed
  | finalized
deriving DecidableEq, Repr, Countable

/-- A closed volume that belongs to the record: the name it was recorded under, the
name it is issued, and the file it is, pinned by device, inode and size. -/
structure Segment where
  sourceName : String
  name : String
  index : Nat
  device : Nat
  inode : Nat
  sizeBytes : Nat
deriving DecidableEq, Repr, Countable

/-- An entry of `bagFiles`.  Only a finalized file has an identity. -/
inductive BagFile where
  | partialBag (name : String) (sizeBytes : Nat)
  | finalized (id name : String) (sizeBytes : Nat)
deriving DecidableEq, Repr, Countable

def BagFile.name : BagFile → String
  | .partialBag name _ => name
  | .finalized _ name _ => name

/-- The part of the session manifest that says which recording it is of and how that
ended.  Finalizing the archive does not change it. -/
structure Recording where
  recordingId : Option String
  recordNamingVersion : Option Nat
  recordingEndedAt : Option String
  status : Option Status
  terminationSignal : Option Int
  recorderExitCode : Option Int
deriving DecidableEq, Repr, Countable

/-- The session manifest. -/
structure Manifest extends Recording where
  archiveFinalizationState : Option FinalizationState
  archiveFinalizationError : Option String
  archiveSegments : Option (List Segment)
  bagFiles : List BagFile
deriving DecidableEq, Repr, Countable

/-! ## Files -/

/-- `(st_dev, st_ino)`: the identity of a file, whatever its names are. -/
structure FileId where
  device : Nat
  inode : Nat
deriving DecidableEq, Repr

/-- The file a segment is pinned to. -/
def Segment.file (segment : Segment) : FileId := ⟨segment.device, segment.inode⟩

/-- A file, as far as the recorder looks at it. -/
structure File where
  isRegular : Bool
  bytes : List UInt8
deriving DecidableEq, Repr

/-- What is left of a file without a name. -/
def File.freed : File := ⟨false, []⟩

/-- What `lstat` tells about a name. -/
structure FileInfo where
  isRegular : Bool
  id : FileId
  sizeBytes : Nat
deriving DecidableEq, Repr

/-- The names of a directory and the files they stand for. -/
abbrev Directory := Std.ExtTreeMap String FileId compare

/-- `recorded_paths`: the names that look like bag files of this record, sorted. -/
def Recorder.recordedNames (r : Recorder) (directory : Directory) : List String :=
  directory.keys.filter r.isRecorded

/-- The names of the output directory and the files behind them. -/
@[ext]
structure FileSystem where
  directory : Directory
  files : FileId → File

namespace FileSystem

variable (fs : FileSystem)

/-- What `fstat` tells about an open file. -/
def info (id : FileId) : FileInfo :=
  ⟨(fs.files id).isRegular, id, (fs.files id).bytes.length⟩

def lstat (name : String) : Option FileInfo := fs.directory[name]?.map fs.info

/-- A file gets one more name. -/
def addName (name : String) (id : FileId) : FileSystem :=
  { fs with directory := fs.directory.insert name id }

/-- Whether some name stands for a file. -/
def isNamed (directory : Directory) (id : FileId) : Bool :=
  directory.keys.any fun name => directory[name]? == some id

/-- A file loses a name, and its bytes with the last one. -/
def removeName (name : String) (id : FileId) : FileSystem where
  directory := fs.directory.erase name
  files := if isNamed (fs.directory.erase name) id then fs.files
    else Function.update fs.files id .freed

end FileSystem

/-- What is on disk. -/
@[ext]
structure Disk extends FileSystem where
  manifest : Option Manifest

namespace Disk

variable (disk : Disk)

/-- The segments pinned in the manifest on disk. -/
def archiveSegments : List Segment :=
  ((disk.manifest.bind (·.archiveSegments)).getD [])

/-- `os.replace` of the manifest by one written beforehand. -/
def replaceManifest (manifest : Manifest) : Disk := { disk with manifest := some manifest }

end Disk

/-! ## Names of a directory -/

theorem isNamed_iff {directory : Directory} {id : FileId} :
    FileSystem.isNamed directory id = true ↔ ∃ name : String, directory[name]? = some id := by
  rw [FileSystem.isNamed, List.any_eq_true]
  constructor
  · rintro ⟨name, -, h⟩
    exact ⟨name, beq_iff_eq.mp h⟩
  · rintro ⟨name, h⟩
    refine ⟨name, Std.ExtTreeMap.mem_keys.mpr ?_, beq_iff_eq.mpr h⟩
    exact Std.ExtTreeMap.mem_iff_isSome_getElem?.mpr (by rw [h]; rfl)

theorem mem_recordedNames {r : Recorder} {directory : Directory} {name : String} :
    name ∈ r.recordedNames directory ↔
      (∃ id, directory[name]? = some id) ∧ r.isRecorded name = true := by
  rw [Recorder.recordedNames, List.mem_filter, Std.ExtTreeMap.mem_keys,
    Std.ExtTreeMap.mem_iff_isSome_getElem?, Option.isSome_iff_exists]

theorem nodup_recordedNames (r : Recorder) (directory : Directory) :
    (r.recordedNames directory).Nodup := by
  refine List.Pairwise.filter _ ?_
  refine Std.ExtTreeMap.distinct_keys.imp fun hne heq => hne ?_
  exact Std.compare_eq_iff_eq.mpr heq

namespace FileSystem

variable {fs : FileSystem} {name other : String} {id : FileId}

theorem lstat_of_some (h : fs.directory[name]? = some id) : fs.lstat name = some (fs.info id) := by
  rw [lstat, h]
  rfl

theorem lstat_of_none (h : fs.directory[name]? = none) : fs.lstat name = none := by
  rw [lstat, h]
  rfl

@[simp] theorem addName_same : (fs.addName name id).directory[name]? = some id :=
  Std.ExtTreeMap.getElem?_insert_self

theorem addName_of_ne (h : name ≠ other) :
    (fs.addName name id).directory[other]? = fs.directory[other]? := by
  have hcompare : ¬compare name other = .eq := fun heq => h (Std.compare_eq_iff_eq.mp heq)
  rw [addName, Std.ExtTreeMap.getElem?_insert, if_neg hcompare]

@[simp] theorem removeName_same : (fs.removeName name id).directory[name]? = none :=
  Std.ExtTreeMap.getElem?_erase_self

theorem removeName_of_ne (h : name ≠ other) :
    (fs.removeName name id).directory[other]? = fs.directory[other]? := by
  have hcompare : ¬compare name other = .eq := fun heq => h (Std.compare_eq_iff_eq.mp heq)
  rw [removeName, Std.ExtTreeMap.getElem?_erase, if_neg hcompare]

/-- **A file with another name keeps its bytes.** -/
theorem files_removeName (h : name ≠ other) (hother : fs.directory[other]? = some id) :
    (fs.removeName name id).files = fs.files := by
  have hkept : (fs.removeName name id).directory[other]? = some id :=
    (removeName_of_ne h).trans hother
  have hnamed : isNamed (fs.directory.erase name) id = true := isNamed_iff.mpr ⟨other, hkept⟩
  rw [removeName, if_pos hnamed]

end FileSystem

end Ros1Tools.Archive
