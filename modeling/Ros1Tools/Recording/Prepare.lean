import Ros1Tools.Recording.Topics

/-!
# Preparation

`prepare` turns a request into the manifest of the session, for a preview as well as for
a recording, and `recordArguments` puts together the arguments of the recording process
and the environment it finds the ROS master with.
-/

namespace Ros1Tools.Recording

open Lib Lib.Python

/-- A request, of which `read_request` has checked that it has these three objects. -/
structure Document where
  parameters : Members
  robots : Members
  context : Members

/-! ## The manifest -/

def Camera.value (camera : Camera) : Value :=
  .dict [("root", .str camera.root), ("topics", .list (camera.topics.map .str))]

def ExcludedTopic.value (excluded : ExcludedTopic) : Value :=
  .dict [("topic", .str excluded.topic), ("reason", .str excluded.reason)]

def SidecarFile.value (file : SidecarFile) : Value :=
  .dict [("role", .str file.role), ("path", .str file.path)]

/-- The fields of a robot that its sidecar repeats. -/
def sidecarFields : List String :=
  ["id", "kind", "namespace", "hybridSource", "robotAssetId", "robotAssetCommitId",
    "robotAssetDigest", "profileId", "initialPose", "visualization"]

/-- The name of the robot's body, stripped; empty if it has none. -/
def sidecarBody (robot : Members) : Except Exception String :=
  match bodyKind robot with
  | none => .ok ""
  | some kind => do
      let members ← (Value.get robot kind).dictFor "get"
      let body ← (Value.getOr members "mocapRigidBodyName" (.str "")).strFor "strip"
      return strip body

/-- `copy.deepcopy(robot.get(field))`, with its name. -/
def Host.copyMember (host : Host) (robot : Members) (field : String) :
    Except Exception (String × Value) := do
  let value ← host.deepcopy (Value.get robot field)
  return (field, value)

def Host.sidecar (host : Host) (robot : Value) : Except Exception Value := do
  let members ← robot.dictFor "get"
  let item ← sidecarFields.mapM (host.copyMember members)
  let digest ← host.jsonDigest (Value.get members "visualization")
  let item := Value.setItem "visualizationDigest" (.str digest) item
  let body ← sidecarBody members
  return .dict (if body = "" then item else Value.setItem "mocapRigidBodyName" (.str body) item)

/-- `manifest[name] = value`, for a parameter that may be missing. -/
def setOptional (name : String) (value : Option Value) (manifest : Members) : Members :=
  match value with
  | some value => Value.setItem name value manifest
  | none => manifest

/-- The fields of the frozen request that the manifest repeats. -/
structure Frozen where
  experimentName : Value
  runMode : Value
  experimentResourceId : Value
  experimentCommitId : Value
  experimentDigest : Value
  robotSelectionDigest : Value

def readFrozen (robots context : Members) : Except Exception Frozen := do
  let experimentName ← Value.item context "experimentName"
  let runMode ← Value.item context "runMode"
  let experimentResourceId ← Value.item robots "experimentResourceId"
  let experimentCommitId ← Value.item robots "experimentCommitId"
  let experimentDigest ← Value.item robots "experimentDigest"
  let robotSelectionDigest ← Value.item robots "robotSelectionDigest"
  return { experimentName, runMode, experimentResourceId, experimentCommitId, experimentDigest,
           robotSelectionDigest }

def timestampContract : Value :=
  .dict
    [("imageTime", .str "xgc_camera_msgs/FrameTiming.source_time"),
      ("sceneTime", .str "ROS message header stamp or /clock"),
      ("alignment", .str "immutable sidecar; source bags are never rewritten")]

def factSources (p : Parameters) : Value :=
  .dict
    [("calibrationFiles", .list (p.calibrationFiles.map SidecarFile.value)),
      ("algorithmSidecarFiles", .list (p.algorithmSidecarFiles.map SidecarFile.value)),
      ("parameters", .list p.factParameters)]

/-- The fields that every manifest has. -/
def baseManifest (requested : Members) (p : Parameters) (estimated : Int)
    (resolved : Resolved p.excludedNames) (frozen : Frozen) (sidecar : List Value) : Members :=
  [("schemaVersion", .int 1),
    ("recordNamingVersion", .int 1),
    ("experimentName", frozen.experimentName),
    ("runMode", frozen.runMode),
    ("recordingProfile", .str p.recordingProfile.text),
    ("recordAllTopics", .bool p.recordAllTopics),
    ("includeMotionCapture", .bool p.includeMotionCapture),
    ("experimentResourceId", frozen.experimentResourceId),
    ("experimentCommitId", frozen.experimentCommitId),
    ("experimentDigest", frozen.experimentDigest),
    ("robotSelectionDigest", frozen.robotSelectionDigest),
    ("slotIds", .list resolved.slotIds),
    ("cameras", .list (p.cameras.map Camera.value)),
    ("cameraTopicRoots", .list (p.cameras.map fun camera => .str camera.root)),
    ("excludedTopics", .list (p.excludedTopics.map ExcludedTopic.value)),
    ("topics", .list (resolved.topics.map .str)),
    ("expectedDurationMinutes", .int p.expectedDurationMinutes.1),
    ("estimatedVideoBitrateMbps", p.estimatedVideoBitrateMbps.1.value),
    ("capacitySafetyFactor", p.capacitySafetyFactor.1.value),
    ("estimatedBytes", .int estimated),
    ("robots", .list sidecar),
    ("requestEvidence", .str "workflow-bound-request-not-producer-applied"),
    ("requestedParameters", .dict requested),
    ("factSources", factSources p),
    ("timestampContract", timestampContract)]

/-- `manifest["scientificTotalLimitBytes"]`. -/
def scientificLimit : Profile → Option Value
  | .general => none
  | .cameraScientific => some (.int (10 * 1024 ^ 3))

/-- A prepared recording. -/
structure Prepared where
  parameters : Parameters
  estimated : Int
  resolved : Resolved parameters.excludedNames
  frozen : Frozen
  manifest : Members

/-- `p.get(key) and p[key] != robots.get(key)` is an error. -/
def Host.checkFrozen (host : Host) (robots : Members) (key : String) (own : Option String) :
    Except Exception Unit :=
  match own with
  | none => .ok ()
  | some text =>
      ensure (text == "" || host.equal (.str text) (Value.get robots key))
        (key ++ " does not match the frozen robot selection")

def simulatorOf (context : Members) : Except Exception Value := do
  let scene ← ((Value.get context "scene").orElse (.dict [])).dictFor "get"
  return Value.getOr scene "simulator" (.str "")

def Host.prepare (host : Host) (document : Document) (preview : Bool) :
    Except Exception Prepared := do
  let normalized ← host.normalizeParameters document.parameters document.context preview
  let p := normalized.1
  host.checkFrozen document.robots "experimentResourceId" p.experimentResourceId
  host.checkFrozen document.robots "experimentCommitId" p.experimentCommitId
  let mode ← Value.item document.context "runMode"
  let simulator ← simulatorOf document.context
  let resolved ← host.resolveRecordingTopics p document.robots mode simulator
  let robots ← (Value.get document.robots "robots").iterate
  let sidecar ← robots.mapM host.sidecar
  let frozen ← readFrozen document.robots document.context
  let manifest := baseManifest document.parameters p normalized.2 resolved frozen sidecar
  let manifest := setOptional "sessionId" (p.sessionId.map .str) manifest
  let manifest := setOptional "localizationOffset" p.localizationOffset manifest
  let manifest := setOptional "worldBoundary" p.worldBoundary manifest
  return { parameters := p, estimated := normalized.2, resolved, frozen,
           manifest := setOptional "scientificTotalLimitBytes"
             (scientificLimit p.recordingProfile) manifest }

/-! ## The arguments of the recording process -/

/-- Whether the archive belongs to the run that the context describes. -/
def Host.belongs (host : Host) (archive context : Members) : Bool :=
  (Value.get archive "schemaVersion").equalsInt 1 &&
    (Value.get archive "category").asStr == some "Data" &&
    (Value.get archive "extension").asStr == some "bag" &&
    host.equal (Value.get context "runId") (Value.get archive "workflowRunId") &&
    host.equal (Value.get context "rootRunId") (Value.get archive "rootRunId") &&
    host.equal (Value.get context "targetId") (Value.get archive "targetId")

/-- Whether the archive is one of the frozen experiment. -/
def Host.agrees (host : Host) (archive : Members) (frozen : Frozen) : Bool :=
  host.equal (Value.get archive "experimentId") frozen.experimentResourceId &&
    host.equal (Value.get archive "experimentCommitId") frozen.experimentCommitId &&
    host.equal (Value.get archive "experimentDigest") frozen.experimentDigest &&
    host.equal (Value.get archive "runMode") frozen.runMode

/-- The part of a path that `os.path.join` is given. -/
def pathText : Value → Except Exception String
  | .str text => .ok text
  | other => .error (typeError
      ("expected str, bytes or os.PathLike object, not " ++ other.typeName))

/-- The output path, which lies in the data directory of the record. -/
def Host.outputPath (host : Host) (archive : Members) : Except Exception String := do
  let value ← Value.item archive "outputPath"
  let output ← value.strFor "endswith"
  ensure (endsWith output ".bag") "recorder archive paths disagree"
  let directory ← Value.item archive "outputDirectory"
  ensure (directory.asStr == some (host.dirname output)) "recorder archive paths disagree"
  let record ← Value.item archive "recordDirectory"
  let record ← pathText record
  ensure (directory.asStr == some (host.joinPath record "Data")) "recorder archive paths disagree"
  return output

/-- The fields of the archive that the manifest repeats, each with its name there. -/
def archiveFields : List (String × String) :=
  [("recordingId", "recordId"), ("recordPlannedAt", "plannedAt"), ("runId", "workflowRunId"),
    ("rootRunId", "rootRunId"), ("invocationId", "invocationId")]

/-- The fields that follow `parentRunId`. -/
def definitionFields : List (String × String) :=
  [("definitionId", "definitionId"), ("definitionDigest", "definitionDigest"), ("nodeId", "nodeId")]

/-- `manifest[entry.1] = archive[entry.2]`. -/
def copyField (archive manifest : Members) (entry : String × String) :
    Except Exception Members := do
  let value ← Value.item archive entry.2
  return Value.setItem entry.1 value manifest

def updateManifest (archive manifest : Members) : Except Exception Members := do
  let manifest ← archiveFields.foldlM (copyField archive) manifest
  let manifest := Value.setItem "parentRunId" (Value.getOr archive "parentRunId" (.str "")) manifest
  definitionFields.foldlM (copyField archive) manifest

/-- `text[:-4]`. -/
def dropExtension (text : String) : String :=
  String.ofList (text.toList.take (text.toList.length - 4))

/-- A variable is removed if its value is empty. -/
def setOrRemove (text : String) : Option String := if text = "" then none else some text

def Prepared.arguments (prepared : Prepared) (output : String) (manifest : Members) :
    Arguments where
  root := prepared.parameters.rosInstallPath
  outputPrefix := dropExtension output
  topicsJson := .dumps (.list (prepared.resolved.topics.map .str))
  splitSizeText := .str (.int prepared.parameters.splitSizeMiB.1)
  maxSplitsText := .str (.int prepared.parameters.maxSplits.1)
  minSpaceText := .str (.int prepared.parameters.minFreeSpaceGiB.1)
  compression := prepared.parameters.compression.text
  repeatLatched := if prepared.parameters.repeatLatched then "true" else "false"
  durationText := .str (.int prepared.parameters.expectedDurationMinutes.1)
  bitrateText := .str prepared.parameters.estimatedVideoBitrateMbps.1
  safetyText := .str prepared.parameters.capacitySafetyFactor.1
  manifestJson := .dumps (.dict manifest)

/-- The changes to the environment of the recording process. -/
def Parameters.environment (p : Parameters) : List (String × Option String) :=
  [("ROS_MASTER_URI", some p.rosMasterUri), ("ROS_IP", setOrRemove p.rosIp),
    ("ROS_HOSTNAME", setOrRemove p.rosHostname)]

/-- What the recording process is started with. -/
structure Launch where
  arguments : Arguments
  environment : List (String × Option String)

def Host.recordArguments (host : Host) (document : Document) (archiveValue : Value) :
    Except Exception Launch := do
  let prepared ← host.prepare document false
  let archive ← archiveValue.dictFor "get"
  ensure (host.belongs archive document.context)
    "recorder archive does not belong to the executing frozen Run"
  ensure (host.agrees archive prepared.frozen)
    "recorder archive disagrees with the frozen Experiment"
  let output ← host.outputPath archive
  let manifest ← updateManifest archive prepared.manifest
  let _ ← host.jsonSize (.dict manifest)
  return ⟨prepared.arguments output manifest, prepared.parameters.environment⟩

end Ros1Tools.Recording
