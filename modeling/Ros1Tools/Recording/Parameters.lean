import Mathlib.Data.List.Dedup
import Mathlib.Data.List.Sort
import Mathlib.Data.String.Basic
import Ros1Tools.Recording.Runtime

/-!
# The parameters of a recording

`normalizeParameters` reads the parameters of a request, in the order of the source.
What the checks establish about a parameter is part of its type: a bounded number, a
list of graph names, an excluded topic with a reason.  Only the check of the planned
capacity relates several parameters.
-/

namespace Ros1Tools.Recording

open Lib Lib.Python

abbrev Members := List (String × Value)

/-- The library functions that the preparation calls besides those of the recording
process. -/
structure Host extends Runtime where
  /-- Whether `copy.deepcopy(value)` ends within the recursion limit.  All its calls are made at
  one depth. -/
  copies : Value → Bool
  /-- `len(json_bytes(value))`. -/
  jsonSize : Value → Except Exception Nat
  /-- `hashlib.sha256(json_bytes(value)).hexdigest()`. -/
  jsonDigest : Value → Except Exception String
  /-- `a == b`. -/
  equal : Value → Value → Bool
  repr : Value → String
  str : Value → String
  /-- `dict(value)`. -/
  mapping : Value → Except Exception Members
  normpath : String → String
  dirname : String → String
  joinPath : String → String → String
  /-- `os.path.splitext(path)[1]`. -/
  extension : String → String
  /-- Whether `urllib.parse.urlsplit` finds an `http` or `https` URL with a host name and
  without user, password, query or fragment. -/
  isMasterUrl : String → Except Exception Bool

def ensure (condition : Bool) (message : String) : Except Exception Unit :=
  if condition then .ok () else .error (valueError message)

/-- `copy.deepcopy(value)`. -/
def Host.deepcopy (host : Host) (value : Value) : Except Exception Value :=
  if host.copies value then .ok value else .error recursionError

theorem ensure_eq_ok {condition : Bool} {message : String} {u : Unit} :
    ensure condition message = .ok u ↔ condition = true := ite_ok_eq_ok

/-! ## Graph names -/

def isWord (c : Char) : Bool := c.isAlphanum || c == '_'

def isNameStart (c : Char) : Bool := c.isAlpha || c == '_'

mutual

/-- Segments with slashes between them, from the start of one on. -/
def segments (start : Char → Bool) : List Char → Bool
  | [] => false
  | c :: cs => start c && restOfSegment start cs

def restOfSegment (start : Char → Bool) : List Char → Bool
  | [] => true
  | c :: cs => if c = '/' then segments start cs else isWord c && restOfSegment start cs

end

/-- `relative.fullmatch(text)`. -/
def isRelative (text : String) : Bool := segments isNameStart text.toList

/-- `absolute.fullmatch(text)`. -/
def isAbsolute (text : String) : Bool :=
  match text.toList with
  | '/' :: cs => segments isNameStart cs
  | _ => false

/-- `re.fullmatch(r"[a-z][a-z0-9-]{0,63}", text)`. -/
def isSlotId (text : String) : Bool :=
  match text.toList with
  | [] => false
  | c :: cs =>
      c.isLower && cs.all (fun d => d.isLower || d.isDigit || d == '-') && decide (cs.length ≤ 63)

/-- A name of the pattern that is not too long. -/
def IsName (pattern : String → Bool) (text : String) : Prop :=
  text.utf8ByteSize ≤ 1024 ∧ pattern text = true

instance (pattern : String → Bool) (text : String) : Decidable (IsName pattern text) := by
  unfold IsName
  infer_instance

abbrev Names (pattern : String → Bool) := { names : List String // ∀ n ∈ names, IsName pattern n }

/-- `sorted(set(texts))`. -/
def sortedSet (texts : List String) : List String := texts.dedup.insertionSort (· ≤ ·)

/-- `sorted(items, key=key)`. -/
def sortedBy {α : Type} (key : α → String) (items : List α) : List α :=
  items.insertionSort fun a b => key a ≤ key b

/-- Names that are sorted already are left as they are. -/
theorem sortedSet_of_sorted {texts : List String} (h : texts.Pairwise (· < ·)) :
    sortedSet texts = texts := by
  have hnodup : texts.Nodup := h.imp fun hlt => ne_of_lt hlt
  have hsorted : texts.Pairwise (· ≤ ·) := h.imp fun hlt => le_of_lt hlt
  rw [sortedSet, hnodup.dedup, hsorted.insertionSort_eq]

theorem sortedSet_singleton (text : String) : sortedSet [text] = [text] :=
  sortedSet_of_sorted (List.pairwise_singleton _ _)

/-- `topics(name, values, pattern, maximum)`. -/
def graphNames (name : String) (values : Value) (pattern : String → Bool) (maximum : Nat) :
    Except Exception (Names pattern) :=
  match values.asStrings with
  | none => .error (valueError (name ++ " exceeds its declared list bound"))
  | some texts =>
      if texts.length > maximum then
        .error (valueError (name ++ " exceeds its declared list bound"))
      else if h : ∀ n ∈ sortedSet (texts.map strip), IsName pattern n then
        .ok ⟨sortedSet (texts.map strip), h⟩
      else .error (valueError (name ++ " contains an invalid ROS graph name"))

/-- `topics(name, [value], pattern, 1)[0]`. -/
def graphName (name : String) (value : Value) (pattern : String → Bool) :
    Except Exception { text : String // IsName pattern text } := do
  let names ← graphNames name (.list [value]) pattern 1
  match names with
  | ⟨text :: _, h⟩ => .ok ⟨text, h text List.mem_cons_self⟩
  | ⟨[], _⟩ => .error ⟨.other, "IndexError", "list index out of range"⟩

theorem graphNames_eq_ok {name : String} {values : Value} {pattern : String → Bool}
    {maximum : Nat} {names : Names pattern}
    (h : graphNames name values pattern maximum = .ok names) :
    ∃ texts, values.asStrings = some texts ∧ names.1 = sortedSet (texts.map strip) := by
  unfold graphNames at h
  split at h
  · cases h
  · rename_i texts htexts
    obtain ⟨-, h⟩ := ite_error_eq_ok.mp h
    split at h
    · cases h
      exact ⟨texts, htexts, rfl⟩
    · cases h

theorem asStrings_singleton {value : Value} {texts : List String}
    (h : (Value.list [value]).asStrings = some texts) :
    ∃ text, value = .str text ∧ texts = [text] := by
  cases value with
  | str text => exact ⟨text, rfl, (Option.some.inj h).symm⟩
  | _ => cases h

/-- The name is the stripped text, and there is one: `[0]` finds it. -/
theorem graphName_eq_ok {name : String} {value : Value} {pattern : String → Bool}
    {found : { text : String // IsName pattern text }}
    (h : graphName name value pattern = .ok found) :
    ∃ text, value = .str text ∧ found.1 = strip text := by
  rw [graphName, bind_eq_ok] at h
  obtain ⟨⟨names, hnames⟩, hgraph, h⟩ := h
  obtain ⟨texts, htexts, hsorted⟩ := graphNames_eq_ok hgraph
  obtain ⟨text, hvalue, rfl⟩ := asStrings_singleton htexts
  rw [List.map_singleton, sortedSet_singleton] at hsorted
  refine ⟨text, hvalue, ?_⟩
  generalize strip text = stripped at hsorted
  obtain rfl : names = [stripped] := hsorted
  cases h
  rfl

/-! ## Bounded numbers -/

abbrev Bounded (low high : Int) := { n : Int // low ≤ n ∧ n ≤ high }

abbrev Factor (low high : Int) :=
  { x : Number // x.isFinite = true ∧ x.between low high = true }

def storageBound (low high : Int) (p : Members) (name : String) :
    Except Exception (Bounded low high) :=
  match Value.get p name with
  | .int n =>
      if h : low ≤ n ∧ n ≤ high then .ok ⟨n, h⟩
      else .error (valueError (name ++ " is outside its storage bound"))
  | _ => .error (valueError (name ++ " is outside its storage bound"))

def finiteBound (low high : Int) (p : Members) (name : String) :
    Except Exception (Factor low high) :=
  match (Value.get p name).asNumber with
  | some x => do
      -- `math.isfinite` converts its argument first.
      let _ ← x.convert
      if h : x.isFinite = true ∧ x.between low high = true then .ok ⟨x, h⟩
      else .error (valueError (name ++ " is outside its finite bound"))
  | none => .error (valueError (name ++ " is outside its finite bound"))

/-- A small integer within the bounds is accepted. -/
theorem finiteBound_int {low high : Int} {p : Members} {name : String} {n : Int}
    (hget : Value.get p name = .int n) (hn : n.natAbs < 2 ^ 53)
    (h : (Number.int n).isFinite = true ∧ (Number.int n).between low high = true) :
    finiteBound low high p name = .ok ⟨.int n, h⟩ := by
  have hconvert : (Number.int n).convert = .ok (.ofInt .binary64 n) :=
    if_pos (Binary.isFinite_ofInt hn (by decide))
  rw [finiteBound, hget]
  show ((Number.int n).convert >>= fun _ => _) = _
  rw [hconvert, ok_bind, dif_pos h]

def boolean (p : Members) (name : String) : Except Exception Bool :=
  match Value.get p name with
  | .bool b => .ok b
  | _ => .error (valueError (name ++ " must be boolean"))

/-- A parameter that is a text by now. -/
def text (p : Members) (name : String) : String := ((Value.get p name).asStr).getD ""

/-! ## Fields, context and defaults -/

def fields : List String :=
  ["worldBoundary", "recordAllTopics", "slotIds", "robotTopics", "globalTopics",
    "recordingProfile", "cameras", "expectedDurationMinutes", "estimatedVideoBitrateMbps",
    "capacitySafetyFactor", "includeMotionCapture", "excludedTopics", "sessionId",
    "experimentResourceId", "experimentCommitId", "localizationOffset", "calibrationFiles",
    "factParameters", "algorithmSidecarFiles", "splitSizeMiB", "maxSplits", "minFreeSpaceGiB",
    "compression", "repeatLatched", "rosInstallPath", "rosMasterUri", "rosIp", "rosHostname"]

def rejectUnknown (p : Members) : Except Exception Unit :=
  let unknown := (p.map Prod.fst).filter fun name => !fields.contains name
  ensure unknown.isEmpty ("unknown recorder parameters: " ++ ", ".intercalate (sortedSet unknown))

/-- The parameters that the frozen context fixes. -/
def contextNames : List String :=
  ["sessionId", "experimentResourceId", "experimentCommitId", "localizationOffset",
    "worldBoundary"]

def Host.overlay (host : Host) (context p : Members) (name : String) :
    Except Exception Members :=
  match context.lookup name, p.lookup name with
  | none, _ => .ok p
  | some frozen, own => do
      ensure (own.all fun own => host.equal own frozen)
        (name ++ " disagrees with the frozen Session context")
      let copied ← host.deepcopy frozen
      return Value.setItem name copied p

def textNames : List String :=
  ["rosInstallPath", "rosMasterUri", "rosIp", "rosHostname", "compression", "recordingProfile",
    "sessionId", "experimentResourceId", "experimentCommitId"]

def stripText (p : Members) (name : String) : Except Exception Members :=
  match p.lookup name with
  | none => .ok p
  | some (.str text) => .ok (Value.setItem name (.str (strip text)) p)
  | some _ => .error (valueError (name ++ " must be a string"))

/-- Every parameter that has a default. -/
def defaults (profile : Profile) : List (String × Value) :=
  let scientific := profile == .cameraScientific
  [("splitSizeMiB", .int (if scientific then 5120 else 1024)),
    ("maxSplits", .int (if scientific then 2 else 10)),
    ("minFreeSpaceGiB", .int 2),
    ("expectedDurationMinutes", .int 60),
    ("estimatedVideoBitrateMbps", .int (if scientific then 24 else 0)),
    ("capacitySafetyFactor", .float (.ofRatio .binary64 false (5 * 2 ^ Format.binary64.unit) 4)),
    ("compression", .str (if scientific then "none" else "lz4")),
    ("repeatLatched", .bool true),
    ("recordAllTopics", .bool false),
    ("includeMotionCapture", .bool false),
    ("rosInstallPath", .str "/opt/ros/noetic"),
    ("rosMasterUri", .str "http://127.0.0.1:11311"),
    ("rosIp", .str ""),
    ("rosHostname", .str "")]

/-- The parameters for which zero and the empty text mean the default. -/
def blankNames : List String :=
  ["splitSizeMiB", "maxSplits", "minFreeSpaceGiB", "expectedDurationMinutes",
    "estimatedVideoBitrateMbps", "capacitySafetyFactor", "compression", "rosInstallPath",
    "rosMasterUri"]

/-- `value in (0, "")`. -/
def isBlank (value : Value) : Bool := value.equalsInt 0 || value.asStr == some ""

def applyDefault (p : Members) (entry : String × Value) : Members :=
  match p.lookup entry.1 with
  | none => Value.setItem entry.1 entry.2 p
  | some value =>
      if blankNames.contains entry.1 && isBlank value then Value.setItem entry.1 entry.2 p else p

/-- `(p.get("recordingProfile") or "general").lower()`. -/
def readProfile (p : Members) : Except Exception Profile :=
  let text := (((Value.get p "recordingProfile").orElse (.str "general")).asStr).getD ""
  match Profile.read (.str (lower text)) with
  | some profile => .ok profile
  | none => .error (valueError "recordingProfile must be general or camera_scientific")

/-! ## Structured parameters -/

/-- `set(members) == set(names)`. -/
def keysAre (members : Members) (names : List String) : Bool :=
  members.all (fun member => names.contains member.1) && names.all (Value.hasKey members)

structure Camera where
  root : String
  topics : List String

/-- An excluded topic, and why it is excluded. -/
structure ExcludedTopic where
  topic : String
  reason : String
  isName : IsName isAbsolute topic
  explained : reason ≠ ""

structure SidecarFile where
  role : String
  path : String

def asBoundedList (value : Value) (maximum : Nat) (message : String) :
    Except Exception (List Value) :=
  match value with
  | .list items => if items.length > maximum then .error (valueError message) else .ok items
  | _ => .error (valueError message)

def readCamera (seen : List String) (value : Value) : Except Exception Camera := do
  let members := (value.asDict).getD []
  ensure (keysAre members ["root", "topics"]) "camera requires root and topics"
  let root ← graphName "camera root" (Value.get members "root") isAbsolute
  ensure (!seen.contains root.1) "duplicate camera root"
  let topics ← graphNames "camera topics" (Value.get members "topics") isRelative 32
  ensure (!topics.1.isEmpty) "camera must explicitly name topics"
  return ⟨root.1, topics.1⟩

def readCameras : List String → List Value → Except Exception (List Camera)
  | _, [] => .ok []
  | seen, value :: values => do
      let camera ← readCamera seen value
      let cameras ← readCameras (camera.root :: seen) values
      return camera :: cameras

def Host.isCleanPath (host : Host) (path : String) : Bool :=
  startsWith path "/" && host.normpath path == path && !path.toList.contains '\x00'

def Host.readFile (host : Host) (name : String) (extensions seen : List String)
    (value : Value) : Except Exception SidecarFile := do
  let members := (value.asDict).getD []
  ensure (keysAre members ["role", "path"]) (name ++ " requires role and path")
  let role ← Value.strFor "strip" (Value.get members "role")
  let path ← Value.strFor "strip" (Value.get members "path")
  ensure (isSlotId (strip role) && !seen.contains (strip role) && host.isCleanPath (strip path) &&
    extensions.contains (lower (host.extension (strip path))))
    "invalid or duplicate sidecar declaration"
  return ⟨strip role, strip path⟩

def Host.readFiles (host : Host) (name : String) (extensions : List String) :
    List String → List Value → Except Exception (List SidecarFile)
  | _, [] => .ok []
  | seen, value :: values => do
      let file ← host.readFile name extensions seen value
      let files ← host.readFiles name extensions (file.role :: seen) values
      return file :: files

def Host.sidecarFiles (host : Host) (p : Members) (name : String) (extensions : List String) :
    Except Exception (List SidecarFile) := do
  let values ← asBoundedList (Value.getOr p name (.list [])) 32
    (name ++ " exceeds its declared bound")
  host.readFiles name extensions [] values

def readExcludedTopic (seen : List String) (value : Value) : Except Exception ExcludedTopic := do
  let members := (value.asDict).getD []
  ensure (keysAre members ["topic", "reason"]) "excluded topic requires topic and reason"
  let topic ← graphName "excluded topic" (Value.get members "topic") isAbsolute
  let reason ← Value.strFor "strip" (Value.get members "reason")
  if h : topic.1 ∉ seen ∧ strip reason ≠ "" ∧ (strip reason).utf8ByteSize ≤ 512 then
    .ok ⟨topic.1, strip reason, topic.2, h.2.1⟩
  else .error (valueError "duplicate excluded topic or invalid reason")

def readExcludedTopics : List String → List Value → Except Exception (List ExcludedTopic)
  | _, [] => .ok []
  | seen, value :: values => do
      let excluded ← readExcludedTopic seen value
      let rest ← readExcludedTopics (excluded.topic :: seen) values
      return excluded :: rest

/-- The size of the requested value, if the fact has one. -/
def Host.requestedSize (host : Host) (members : Members) : Except Exception Nat :=
  match members.lookup "requestedValue" with
  | some value => host.jsonSize value
  | none => .ok 0

def Host.checkFact (host : Host) (seen : List String) (value : Value) :
    Except Exception String := do
  let members := (value.asDict).getD []
  ensure (members.all (fun member => ["name", "purpose", "requestedValue"].contains member.1) &&
    Value.hasKey members "name" && Value.hasKey members "purpose")
    "invalid fact parameter declaration"
  let name ← graphName "fact parameter" (Value.get members "name") isAbsolute
  let purpose ← Value.strFor "strip" (Value.get members "purpose")
  ensure (!seen.contains name.1 && strip purpose != "" && (strip purpose).utf8ByteSize ≤ 512)
    "invalid or duplicate fact parameter"
  let size ← host.requestedSize members
  ensure (size ≤ 65536) "invalid or duplicate fact parameter"
  return name.1

def Host.checkFacts (host : Host) : List String → List Value → Except Exception Unit
  | _, [] => .ok ()
  | seen, value :: values => do
      let name ← host.checkFact seen value
      host.checkFacts (name :: seen) values

/-- Whether all coordinates are finite and at most a million metres.  The first one that is
not ends the scan, and `math.isfinite` converts its argument first. -/
def areCoordinates : List Value → Except Exception Bool
  | [] => .ok true
  | value :: values =>
      match value.asNumber with
      | none => .ok false
      | some x => do
          let _ ← x.convert
          if x.isFinite && x.between (-1000000) 1000000 then areCoordinates values else .ok false

/-- An offset in metres. -/
def isOffset (value : Value) : Except Exception Bool :=
  match value with
  | .dict members =>
      if keysAre members ["x", "y", "z"] then areCoordinates (members.map Prod.snd) else .ok false
  | _ => .ok false

def checkOffset (p : Members) : Except Exception Unit :=
  match p.lookup "localizationOffset" with
  | none => .ok ()
  | some value => do
      let valid ← isOffset value
      ensure valid "localizationOffset must contain finite XYZ meters within 1e6"

def Host.checkBoundary (host : Host) (boundary : Value) : Except Exception Unit := do
  let isObject := match boundary with | .null => true | .dict _ => true | _ => false
  ensure isObject "worldBoundary must preserve the bounded frozen object or null"
  let size ← host.jsonSize boundary
  ensure (size ≤ 65536) "worldBoundary must preserve the bounded frozen object or null"

def checkIdentity (p : Members) (entry : String × Nat) : Except Exception Unit :=
  ensure ((text p entry.1).utf8ByteSize ≤ entry.2) (entry.1 ++ " exceeds its identity bound")

/-! ## The parameters -/

structure Parameters where
  recordingProfile : Profile
  recordAllTopics : Bool
  includeMotionCapture : Bool
  repeatLatched : Bool
  splitSizeMiB : Bounded 64 102400
  maxSplits : Bounded 1 1000
  minFreeSpaceGiB : Bounded 1 1024
  expectedDurationMinutes : Bounded 1 10080
  estimatedVideoBitrateMbps : Factor 0 10000
  capacitySafetyFactor : Factor 1 4
  compression : Compression
  rosInstallPath : String
  rosMasterUri : String
  rosIp : String
  rosHostname : String
  robotTopics : Names isRelative
  globalTopics : Names isAbsolute
  slotIds : Names isSlotId
  cameras : List Camera
  sessionId : Option String
  experimentResourceId : Option String
  experimentCommitId : Option String
  localizationOffset : Option Value
  worldBoundary : Option Value
  calibrationFiles : List SidecarFile
  algorithmSidecarFiles : List SidecarFile
  excludedTopics : List ExcludedTopic
  factParameters : List Value

def readCompression (profile : Profile) (p : Members) : Except Exception Compression :=
  match Compression.read (lower (text p "compression")) with
  | some compression =>
      if profile = .cameraScientific ∧ compression ≠ .none then
        .error (valueError "invalid compression for the recording profile")
      else .ok compression
  | none => .error (valueError "invalid compression for the recording profile")

/-- The parameters of `p`, to which context and defaults have been applied. -/
def Host.readParameters (host : Host) (profile : Profile) (preview : Bool) (p : Members) :
    Except Exception Parameters := do
  let scientific := profile == .cameraScientific
  let recordAllTopics ← boolean p "recordAllTopics"
  let includeMotionCapture ← boolean p "includeMotionCapture"
  let repeatLatched ← boolean p "repeatLatched"
  let splitSizeMiB ← storageBound 64 102400 p "splitSizeMiB"
  let maxSplits ← storageBound 1 1000 p "maxSplits"
  let minFreeSpaceGiB ← storageBound 1 1024 p "minFreeSpaceGiB"
  let expectedDurationMinutes ← storageBound 1 10080 p "expectedDurationMinutes"
  let estimatedVideoBitrateMbps ← finiteBound 0 10000 p "estimatedVideoBitrateMbps"
  let capacitySafetyFactor ← finiteBound 1 4 p "capacitySafetyFactor"
  let compression ← readCompression profile p
  ensure (host.isCleanPath (text p "rosInstallPath")) "rosInstallPath must be a clean absolute path"
  let isMasterUrl ← host.isMasterUrl (text p "rosMasterUri")
  ensure isMasterUrl "rosMasterUri must be an explicit ROS master URL"
  ensure (text p "rosIp" == "" || text p "rosHostname" == "")
    "ROS_IP and ROS_HOSTNAME are mutually exclusive"
  let robotTopics ← graphNames "robotTopics" (Value.getOr p "robotTopics" (.list [])) isRelative 256
  let globalTopics ← graphNames "globalTopics"
    (Value.getOr p "globalTopics" (.list [.str "/tf", .str "/tf_static", .str "/clock"]))
    isAbsolute 256
  let slotIds ← graphNames "slotIds" (Value.getOr p "slotIds" (.list [])) isSlotId 256
  let cameraValues ← asBoundedList (Value.getOr p "cameras" (.list [])) 32
    "cameras exceeds its declared list bound"
  let cameras ← readCameras [] cameraValues
  ensure (scientific == !cameras.isEmpty)
    "camera_scientific requires authored cameras; general uses globalTopics"
  ensure (!robotTopics.1.isEmpty || !globalTopics.1.isEmpty || includeMotionCapture || scientific)
    "recorder requires explicit topic selection"
  ensure (!scientific || preview ||
      (text p "sessionId" != "" && Value.hasKey p "localizationOffset"))
    "scientific recording requires frozen sessionId and localizationOffset"
  [("sessionId", 64), ("experimentResourceId", 128), ("experimentCommitId", 128)].forM
    (checkIdentity p)
  checkOffset p
  host.checkBoundary (Value.get p "worldBoundary")
  let calibrationFiles ← host.sidecarFiles p "calibrationFiles" [".yaml", ".yml"]
  let algorithmSidecarFiles ←
    host.sidecarFiles p "algorithmSidecarFiles" [".mat", ".yaml", ".yml"]
  let excludedValues ← asBoundedList (Value.getOr p "excludedTopics" (.list [])) 64
    "excludedTopics exceeds its declared bound"
  let excludedTopics ← readExcludedTopics [] excludedValues
  let factParameters ← asBoundedList (Value.getOr p "factParameters" (.list [])) 64
    "factParameters exceeds its declared bound"
  host.checkFacts [] factParameters
  return { recordingProfile := profile, recordAllTopics, includeMotionCapture, repeatLatched,
           splitSizeMiB, maxSplits, minFreeSpaceGiB, expectedDurationMinutes,
           estimatedVideoBitrateMbps, capacitySafetyFactor, compression,
           rosInstallPath := text p "rosInstallPath", rosMasterUri := text p "rosMasterUri",
           rosIp := text p "rosIp", rosHostname := text p "rosHostname", robotTopics, globalTopics,
           slotIds, cameras := sortedBy Camera.root cameras,
           sessionId := (p.lookup "sessionId").bind Value.asStr,
           experimentResourceId := (p.lookup "experimentResourceId").bind Value.asStr,
           experimentCommitId := (p.lookup "experimentCommitId").bind Value.asStr,
           localizationOffset := p.lookup "localizationOffset",
           worldBoundary := p.lookup "worldBoundary", calibrationFiles, algorithmSidecarFiles,
           excludedTopics := sortedBy ExcludedTopic.topic excludedTopics, factParameters }

namespace Parameters

variable (p : Parameters)

def plannedBytes : Int := p.splitSizeMiB.1 * 1048576 * p.maxSplits.1

/-- The names that are excluded, in order. -/
def excludedNames : List String := p.excludedTopics.map ExcludedTopic.topic

end Parameters

/-- The parameters of a request and the estimated size of the recording. -/
def Host.normalizeParameters (host : Host) (value context : Members) (preview : Bool) :
    Except Exception (Parameters × Int) := do
  let _ ← host.deepcopy (.dict value)
  rejectUnknown value
  let p ← contextNames.foldlM (host.overlay context) value
  let p ← textNames.foldlM stripText p
  let profile ← readProfile p
  let p := (defaults profile).foldl applyDefault p
  let parameters ← host.readParameters profile preview p
  let estimated ← host.estimate parameters.expectedDurationMinutes.1
    parameters.estimatedVideoBitrateMbps.1.toDouble parameters.capacitySafetyFactor.1.toDouble
  ensure (parameters.recordingProfile == .cameraScientific || estimated ≤ parameters.plannedBytes)
    "planned split capacity is smaller than the estimated session"
  return (parameters, estimated)

/-- What the checks of several parameters together establish. -/
theorem capacity_of_normalizeParameters {host : Host} {value context : Members} {preview : Bool}
    {p : Parameters} {estimated : Int}
    (h : host.normalizeParameters value context preview = .ok (p, estimated)) :
    host.estimate p.expectedDurationMinutes.1 p.estimatedVideoBitrateMbps.1.toDouble
        p.capacitySafetyFactor.1.toDouble = .ok estimated ∧
      (p.recordingProfile == .cameraScientific || estimated ≤ p.plannedBytes) = true := by
  simp only [Host.normalizeParameters, bind_eq_ok, ensure_eq_ok] at h
  obtain ⟨_, _, _, _, _, _, _, _, _, _, _, _, _, hestimate, _, hcapacity, ⟨⟩⟩ := h
  exact ⟨hestimate, hcapacity⟩

end Ros1Tools.Recording
