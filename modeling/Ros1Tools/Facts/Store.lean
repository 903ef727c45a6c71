import Mathlib.Algebra.BigOperators.Group.Finset.Basic
import Mathlib.Data.Finset.Card
import Mathlib.Logic.Function.Basic
import Ros1Tools.Lib.Bytes
import Ros1Tools.Lib.Faulty
import Ros1Tools.Archive.Name
import Ros1Tools.Facts.Event

/-!
# The blob store

`RecordFacts` with the files below `record-facts`, and `RecordFacts.store`.  Every
system call is an atomic step, which may raise or may never be reached; what the
process keeps in memory changes without a step.

A blob is written to a name that did not exist, and a name that does exist is accepted
only for the very bytes that are to be stored.
-/

namespace Ros1Tools.Facts

open Lib Lib.Faulty Lib.Python

/-- What the recorder finds in its Python installation and around it.  `clock n` is the
`n`-th reading of the clocks. -/
structure Host where
  directory : String
  sha256 : Bytes → String
  loads : String → Except Exception Parsed
  dumps : Value → Except Exception Bytes
  clock : Nat → Clock

/-! ## Files -/

/-- What a name below `record-facts` is.  Opening a link or a directory raises. -/
inductive Node where
  | regular (bytes : Bytes)
  | special
  | unopenable (e : Exception)

/-- What `record-facts` itself is. -/
inductive Root where
  | absent
  | directory
  | link
  | file
deriving DecidableEq, Repr

/-- The part of the record's directory that facts are written to. -/
structure Folder where
  root : Root
  files : String → Option Node

/-- A message of the queue. -/
structure Message where
  kind : String
  source : String
  payload : Value
  observed : Clock

/-- The keys of `self.previous`: `(kind, source)` and `("unavailable", kind, source)`. -/
inductive PreviousKey where
  | sample (kind source : String)
  | unavailable (kind source : String)
deriving DecidableEq, Repr

/-- The recorder of facts.  An event that `producers` refers to is told by its place in the
log, and `readings` counts the readings of the clocks. -/
structure RecordFacts where
  folder : Folder
  closed : Bool
  messages : List Message
  previous : PreviousKey → Option String
  producers : Identity → Option Nat
  revision : Nat
  persisted : Option Nat
  dropped : Nat
  storedBytes : Nat
  storedHashes : Finset String
  storedPaths : String → Option String
  sealed : Bool
  state : State
  readings : Nat

abbrev Recording := Faulty Exception RecordFacts

def maxBytes : Nat := 1048576

def maxEvents : Nat := 4096

def maxTotalBytes : Nat := 67108864

namespace RecordFacts

/-- `RecordFacts(manifest, directory)`, in a directory that may hold anything. -/
def fresh (host : Host) (folder : Folder) : RecordFacts where
  folder := folder
  closed := false
  messages := []
  previous _ := none
  producers _ := none
  revision := 0
  persisted := none
  dropped := 0
  storedBytes := 0
  storedHashes := ∅
  storedPaths _ := none
  sealed := false
  state :=
    { observationStartedAt := host.clock 0
      observationEndedAt := none
      status := .observing
      events := []
      coverage := ⟨0, none, none⟩ }
  readings := 1

variable (s : RecordFacts)

def putFile (relative : String) (node : Option Node) : RecordFacts :=
  { s with folder := { s.folder with files := Function.update s.folder.files relative node } }

def setRoot (root : Root) : RecordFacts := { s with folder := { s.folder with root := root } }

end RecordFacts

/-! ## Names of blobs -/

/-- The characters `[a-zA-Z0-9_]`. -/
def isWord (c : Char) : Bool := c.isAlphanum || c == '_'

/-- `re.sub(r"[^a-zA-Z0-9_]+", "-", label)`; the flag says that the last character was
replaced. -/
def substitute : Bool → List Char → List Char
  | _, [] => []
  | inRun, c :: cs =>
      if isWord c then c :: substitute false cs
      else if inRun then substitute true cs
      else '-' :: substitute true cs

/-- `text.strip("-")`. -/
def stripDashes (cs : List Char) : List Char :=
  ((cs.dropWhile (· == '-')).reverse.dropWhile (· == '-')).reverse

/-- The label as it stands in a name. -/
def sanitizeLabel (label : String) : List Char :=
  match (stripDashes (substitute false label.toList)).take 64 with
  | [] => "fact".toList
  | cs => cs

/-- The suffix if it matches `\.[a-zA-Z0-9]{1,8}`. -/
def sanitizeSuffix (suffix : String) : List Char :=
  match suffix.toList with
  | '.' :: cs =>
      if 1 ≤ cs.length ∧ cs.length ≤ 8 ∧ cs.all Char.isAlphanum = true then '.' :: cs
      else ".data".toList
  | _ => ".data".toList

/-- `"record-facts/%s-revision-%06d%s"`. -/
def blobName (label : String) (number : Nat) (suffix : String) : String :=
  String.ofList ("record-facts/".toList ++ sanitizeLabel label ++ "-revision-".toList ++
    (Archive.zfill (toString number) 6).toList ++ sanitizeSuffix suffix)

/-! ## System calls -/

/-- A system call that changes nothing of interest. -/
def sync : Recording Unit := atomic fun s => .ok ((), s)

def errno (name text path : String) : Exception :=
  ⟨.osError, name, text ++ ": '" ++ path ++ "'"⟩

def fileExists (path : String) : Exception :=
  errno "FileExistsError" "[Errno 17] File exists" path

def noSuchFile (path : String) : Exception :=
  errno "FileNotFoundError" "[Errno 2] No such file or directory" path

/-- `os.open(path, O_WRONLY | O_CREAT | O_EXCL | O_NOFOLLOW)`: whether the file was made,
and not found to exist. -/
def openExclusive (relative : String) : Recording Bool := atomic fun s =>
  match s.folder.files relative with
  | none => .ok (true, s.putFile relative (some (.regular [])))
  | some _ => .ok (false, s)

/-- One more byte arrives in the file. -/
def writeByte (relative : String) (b : UInt8) : Recording Unit := atomic fun s =>
  match s.folder.files relative with
  | some (.regular bytes) => .ok ((), s.putFile relative (some (.regular (bytes ++ [b]))))
  | _ => .ok ((), s)

namespace Host

variable (host : Host)

/-- `os.path.join(self.directory, relative)`. -/
def path (relative : String) : String := host.directory ++ "/" ++ relative

/-- `os.makedirs(root, exist_ok=True)`, for which a link to a directory is one. -/
def makedirs : Recording Unit := atomic fun s =>
  match s.folder.root with
  | .absent => .ok ((), s.setRoot .directory)
  | .file => .error (fileExists (host.path "record-facts"))
  | _ => .ok ((), s)

/-- `stat.S_ISDIR(os.lstat(root).st_mode)`. -/
def lstatRoot : Recording Bool := atomic fun s =>
  match s.folder.root with
  | .absent => .error (noSuchFile (host.path "record-facts"))
  | root => .ok (root == .directory, s)

/-- `os.open(path, O_RDONLY | O_NOFOLLOW | O_NONBLOCK)` and `os.fstat`: the bytes of a
regular file. -/
def openExisting (relative : String) : Recording (Option Bytes) := atomic fun s =>
  match s.folder.files relative with
  | none => .error (noSuchFile (host.path relative))
  | some (.regular bytes) => .ok (some bytes, s)
  | some .special => .ok (none, s)
  | some (.unopenable e) => .error e

def unlink (relative : String) : Recording Unit := atomic fun s =>
  match s.folder.files relative with
  | none => .error (noSuchFile (host.path relative))
  | some _ => .ok ((), s.putFile relative none)

/-- The branch for a file that was made: a blob that could not be written is removed. -/
def writeBlob (relative : String) (data : Bytes) : Recording Unit :=
  tryCatch
    (do data.foldlM (fun _ b => writeByte relative b) ()
        sync
        sync)
    fun e => do
      host.unlink relative
      throw e

/-- The branch for a file that existed. -/
def compareBlob (relative : String) (data : Bytes) : Recording Unit := do
  let existing ← host.openExisting relative
  match existing with
  | none => throw (valueError "fact-blob-not-regular")
  | some bytes => do
      sync
      require (bytes.take (maxBytes + 1) = data) (valueError "fact-blob-conflict")

def putBlob (relative : String) (data : Bytes) : Recording Unit := do
  let made ← openExclusive relative
  if made = true then host.writeBlob relative data else host.compareBlob relative data

end Host

/-! ## Storing -/

namespace RecordFacts

variable (s : RecordFacts)

/-- The budget is not asked for what is stored already. -/
def affords (digest : String) (size : Nat) : Bool :=
  digest ∈ s.storedHashes || s.storedBytes + size ≤ maxTotalBytes

/-- Where a blob is, or is to be. -/
def relativePath (digest label suffix : String) : String :=
  (s.storedPaths digest).getD (blobName label (s.storedHashes.card + 1) suffix)

/-- Adds a blob to the tables. -/
def enroll (digest relative : String) (size : Nat) : RecordFacts :=
  { s with
    storedHashes := insert digest s.storedHashes
    storedPaths := Function.update s.storedPaths digest (some relative)
    storedBytes := s.storedBytes + size }

/-- Remembers a blob that is new. -/
def register (digest relative : String) (size : Nat) : RecordFacts :=
  if digest ∈ s.storedHashes then s else s.enroll digest relative size

end RecordFacts

variable (host : Host)

def Host.store (data : Bytes) (label suffix : String) : Recording Content := do
  require (data.length ≤ maxBytes) (valueError "fact-payload-too-large")
  let digest := host.sha256 data
  let affordable ← gets (·.affords digest data.length)
  require (affordable = true) (valueError "fact-byte-budget-exhausted")
  let relative ← gets (·.relativePath digest label suffix)
  host.makedirs
  let isDirectory ← host.lstatRoot
  require (isDirectory = true) (valueError "fact-directory-not-regular")
  host.putBlob relative data
  modify (·.register digest relative data.length)
  pure ⟨relative, digest, data.length⟩

end Ros1Tools.Facts
