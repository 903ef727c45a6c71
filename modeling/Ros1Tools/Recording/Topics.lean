import Ros1Tools.Recording.Parameters

/-!
# The topics of a recording

`resolveRecordingTopics` collects the topics that a request names: the global ones, those
of its cameras and robots, and the measurements of its rigid bodies.  The topics are a
set, which is kept as a list here and sorted at the end, as the source does.

What the last checks establish about the topics is part of `Resolved`.
-/

namespace Ros1Tools.Recording

open Lib Lib.Python

/-! ## Robots -/

/-- `value in names`, for a set of texts. -/
def inSet (names : List String) : Value → Except Exception Bool
  | .str text => .ok (names.contains text)
  | .list _ => .error (typeError "unhashable type: 'list'")
  | .dict _ => .error (typeError "unhashable type: 'dict'")
  | _ => .ok false

/-- `names.discard(value)`. -/
def discard (names : List String) (value : Value) : Except Exception (List String) := do
  let present ← inSet names value
  return if present then names.filter fun name => value.asStr != some name else names

/-- Whether a robot is chosen.  Without requested slots all of them are. -/
def chooses (allSlots : Bool) (requested : List String) (robot : Value) :
    Except Exception Bool :=
  if allSlots then .ok true
  else do
    let id ← robot.subscript "id"
    inSet requested id

/-- The chosen robots, and the slots that no robot fills. -/
def selectRobots (allSlots : Bool) :
    List String → List Value → Except Exception (List Value × List String)
  | requested, [] => .ok ([], requested)
  | requested, robot :: robots => do
      let chosen ← chooses allSlots requested robot
      if chosen then do
        let id ← robot.subscript "id"
        let left ← discard requested id
        let rest ← selectRobots allSlots left robots
        return (robot :: rest.1, rest.2)
      else selectRobots allSlots requested robots

def stripSlashes (text : String) : String := rstripBy (· == '/') text

/-- `robot["namespace"].rstrip("/")`. -/
def namespaceOf (robot : Value) : Except Exception String := do
  let value ← robot.subscript "namespace"
  let text ← value.strFor "rstrip"
  return stripSlashes text

def Host.robotNames (host : Host) (topics : List String) (robot : Value) :
    Except Exception (List String) := do
  let name ← namespaceOf robot
  let id ← robot.subscript "id"
  ensure (isAbsolute name) ("frozen robot " ++ host.repr id ++ " has invalid ROS namespace")
  return topics.map fun topic => name ++ "/" ++ topic

/-! ## Measurements of rigid bodies -/

/-- `measurement_topic.fullmatch(text)`. -/
def isMeasurement (text : String) : Bool :=
  match text.toList with
  | '/' :: cs => segments Char.isAlpha cs
  | _ => false

def bodyKinds : List String := ["px4", "scout", "mecanum"]

def vehicles : List String := ["px4-multirotor", "scout-mini", "mecanum-ugv"]

/-- The profile is the vehicle's for one of these suffixes. -/
def isProfile (profile : Value) (vehicle : String) (suffixes : List String) : Bool :=
  suffixes.any fun suffix => profile.asStr == some (vehicle ++ suffix)

inductive RunMode where
  | physical
  | simulation
  | hybrid
deriving DecidableEq, Repr

def RunMode.read : Value → Option RunMode
  | .str text =>
      if text = "physical" then some physical
      else if text = "simulation" then some simulation
      else if text = "hybrid" then some hybrid
      else none
  | _ => none

/-- The profile that the run mode puts in the place of the frozen one. -/
def projectProfile (mode : RunMode) (source simulator profile : Value) : Value :=
  match vehicles.find? fun vehicle =>
      isProfile profile vehicle [".physical.vrpn", ".gazebo.vrpn", ".xsim.ros"] with
  | none => profile
  | some vehicle =>
      if mode = .physical ∨ mode = .hybrid ∧ source.asStr = some "physical" then
        .str (vehicle ++ ".physical.vrpn")
      else if simulator.asStr = some "xsim" then .str (vehicle ++ ".xsim.ros")
      else .str (vehicle ++ ".gazebo.vrpn")

/-- A simulation topic of the robot takes precedence over its runtime parameter. -/
def overrideTopic (robot : Members) (field name : String) (runtime : Members) : Members :=
  if (Value.get robot field).truthy then Value.setItem name (Value.get robot field) runtime
  else runtime

/-- The first kind of body that a robot has. -/
def bodyKind (robot : Members) : Option String :=
  bodyKinds.find? fun kind => match Value.get robot kind with | .null => false | _ => true

/-- The name of the rigid body of a physical robot. -/
def bodyOf (robot runtime : Members) : Except Exception Value :=
  match runtime.lookup "mocap_rigid_body" with
  | some body => .ok body
  | none =>
      match bodyKind robot with
      | none => .ok (.str "")
      | some kind => do
          let members ← (Value.get robot kind).dictFor "get"
          return Value.getOr members "mocapRigidBodyName" (.str "")

/-- The body as a part of a topic. -/
def bodySegment (body : Value) (message : String) : Except Exception String :=
  match body with
  | .str text =>
      if text = "" ∨ text.toList.contains '/' then .error (valueError message) else .ok text
  | .list items =>
      if items.isEmpty ∨ items.any (fun item => item.asStr == some "/") then
        .error (valueError message)
      else .error (typeError "can only concatenate str (not \"list\") to str")
  | .dict members =>
      if members.isEmpty ∨ Value.hasKey members "/" then .error (valueError message)
      else .error (typeError "can only concatenate str (not \"dict\") to str")
  | other =>
      if other.truthy then
        .error (typeError ("argument of type '" ++ other.typeName ++ "' is not iterable"))
      else .error (valueError message)

/-- The rigid body that the projected profile names. -/
def Host.projectBody (host : Host) (profile : Value) (robot runtime : Members) :
    Except Exception Value :=
  if vehicles.any fun vehicle => isProfile profile vehicle [".gazebo.vrpn"] then do
    let value ← Value.item robot "namespace"
    let text ← value.strFor "lstrip"
    return .str (lstripBy (· == '/') text)
  else if (vehicles.any fun vehicle => isProfile profile vehicle [".physical.vrpn"]) ∨
      profile.asStr = some "px4.mocap-rotor.ros1.v1" then
    bodyOf robot runtime
  else .error (valueError
    ("Profile " ++ host.repr profile ++ " has no robot measurement projection"))

def vrpnRoot (mode : RunMode) (source : Value) : String :=
  if mode = .hybrid then "/vrpn_client_node_" ++ source.asStr.getD "" else "/vrpn_client_node"

/-- The topics of pose and twist. -/
def Host.poseTopics (host : Host) (mode : RunMode) (source profile : Value)
    (robot runtime : Members) : Except Exception (Value × Value) :=
  if vehicles.any fun vehicle => isProfile profile vehicle [".xsim.ros"] then do
    let name ← namespaceOf (.dict robot)
    return ((Value.get runtime "localization_pose_topic").orElse (.str (name ++ "/pose")),
      (Value.get runtime "localization_twist_topic").orElse (.str (name ++ "/twist")))
  else do
    let body ← host.projectBody profile robot runtime
    let id ← Value.item robot "id"
    let segment ← bodySegment body
      ("robot " ++ host.str id ++ " has no valid measurement rigid body")
    let root := vrpnRoot mode source
    return (.str (root ++ "/" ++ segment ++ "/pose"), .str (root ++ "/" ++ segment ++ "/twist"))

/-- A topic that a pattern is matched against. -/
def patternText : Value → Except Exception String
  | .str text => .ok text
  | _ => .error (typeError "expected string or bytes-like object")

/-- A robot that an extension describes and that has no body is not measured. -/
def isUnmeasured (robot : Members) : Bool :=
  match Value.get robot "extension" with
  | .null => false
  | _ => !bodyKinds.any fun kind => (Value.get robot kind).truthy

def Host.readMode (host : Host) (mode : Value) : Except Exception RunMode :=
  match RunMode.read mode with
  | some mode => .ok mode
  | none => .error (valueError
      ("runMode " ++ host.repr mode ++ " is unsupported by Adapter localization"))

/-- The measurement topics of one robot. -/
def Host.measurements (host : Host) (modeValue simulator : Value) (robot : Members) :
    Except Exception (List String) := do
  let mode ← host.readMode modeValue
  let source := Value.getOr robot "hybridSource" (.str "")
  ensure (mode != .hybrid || source.asStr == some "physical" || source.asStr == some "simulation")
    ("hybridSource " ++ host.repr source ++ " is unsupported")
  let frozen ← Value.item robot "profileId"
  let profile := projectProfile mode source simulator frozen
  let parameters ← host.mapping ((Value.get robot "runtimeParameters").orElse (.dict []))
  let runtime := overrideTopic robot "simulationTwistTopic" "localization_twist_topic"
    (overrideTopic robot "simulationPoseTopic" "localization_pose_topic" parameters)
  let topics ← host.poseTopics mode source profile robot runtime
  let id ← Value.item robot "id"
  let message := "robot " ++ host.str id ++ " has invalid localization topics"
  let pose ← patternText topics.1
  ensure (isMeasurement pose) message
  let twist ← patternText topics.2
  ensure (isMeasurement twist) message
  return [pose, twist]

/-- The measurement topics of the robots that are measured. -/
def Host.motionCapture (host : Host) (mode simulator : Value) :
    List Value → Except Exception (List (List String))
  | [] => .ok []
  | robot :: robots => do
      let members ← robot.dictFor "get"
      if isUnmeasured members then host.motionCapture mode simulator robots
      else do
        let topics ← host.measurements mode simulator members
        let rest ← host.motionCapture mode simulator robots
        return topics :: rest

/-! ## The result -/

def totalBytes (topics : List String) : Nat := (topics.map String.utf8ByteSize).sum

/-- Topics that have passed the last checks. -/
structure Resolved (excluded : List String) where
  slotIds : List Value
  topics : List String
  disjoint : ∀ name ∈ excluded, name ∉ topics
  count : 1 ≤ topics.length ∧ topics.length ≤ 512
  names : ∀ topic ∈ topics, IsName isAbsolute topic
  bytes : totalBytes topics ≤ 32768

/-- The last checks, on the sorted topics. -/
def Host.finish (host : Host) (excluded : List String) (slotIds : List Value)
    (topics : List String) : Except Exception (Resolved excluded) :=
  if hdisjoint : ∀ name ∈ excluded, name ∉ topics then
    if hcount : 1 ≤ topics.length ∧ topics.length ≤ 512 then
      if hnames : ∀ topic ∈ topics, IsName isAbsolute topic then
        if hbytes : totalBytes topics ≤ 32768 then
          .ok ⟨slotIds, topics, hdisjoint, hcount, hnames, hbytes⟩
        else .error (valueError "ROS bag resolved topics exceed 32768 bytes")
      else
        let invalid := (topics.find? fun topic => decide ¬IsName isAbsolute topic).getD ""
        .error (valueError ("resolved ROS bag topic " ++ host.repr (.str invalid) ++ " is invalid"))
    else .error (valueError "ROS bag resolved topic count must be between 1 and 512")
  else
    let shared := (excluded.find? fun name => decide (name ∈ topics)).getD ""
    .error (valueError
      ("ROS bag topic " ++ host.repr (.str shared) ++ " is both recorded and excluded"))

/-- The measurement topics, if they are asked for. -/
def Host.measuredTopics (host : Host) (p : Parameters) (mode simulator : Value)
    (selected : List Value) : Except Exception (List String) :=
  if p.includeMotionCapture then do
    let added ← host.motionCapture mode simulator selected
    ensure (!added.isEmpty)
      "robot measurement was requested but the selected asset scope declares no rigid bodies"
    return added.flatten
  else .ok []

/-- The identity of a chosen robot. -/
def slotOf (robot : Value) : Except Exception Value := robot.subscript "id"

/-- The topics of the robots that are selected, with the others. -/
def Host.resolveSelected (host : Host) (p : Parameters) (mode simulator : Value)
    (selection : List Value × List String) : Except Exception (Resolved p.excludedNames) := do
  let selected := selection.1
  ensure selection.2.isEmpty
    ("ROS bag Experiment slots are outside the frozen Robot selection: " ++
      ", ".intercalate (sortedSet selection.2))
  ensure (p.robotTopics.1.isEmpty || !selected.isEmpty)
    "ROS bag robot topics require at least one robot in the frozen asset component"
  let cameraTopics := p.cameras.flatMap fun camera =>
    camera.topics.map fun topic => camera.root ++ "/" ++ topic
  let robotTopics ← selected.mapM (host.robotNames p.robotTopics.1)
  let measured ← host.measuredTopics p mode simulator selected
  let slotIds ← selected.mapM slotOf
  host.finish p.excludedNames slotIds
    (sortedSet (p.globalTopics.1 ++ cameraTopics ++ robotTopics.flatten ++ measured))

def Host.resolveRecordingTopics (host : Host) (p : Parameters) (robots : Members)
    (mode simulator : Value) : Except Exception (Resolved p.excludedNames) := do
  let frozen ← Value.item robots "robots"
  let robots ← frozen.iterate
  let requested := p.slotIds.1
  let selection ← selectRobots requested.isEmpty requested robots
  host.resolveSelected p mode simulator selection

end Ros1Tools.Recording
