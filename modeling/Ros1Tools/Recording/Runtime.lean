import Ros1Tools.Recording.Exclusion
import Ros1Tools.Lib.Except

/-!
# What the bag recorder checks before it records

The recording process is started with the arguments that the preparation built, and
checks them again.  `validate` makes these checks in the order of the source, up to the
ones that need the file system, and `Session.arguments` is the command line of the
`rosbag record` process.

Texts whose contents the checks read are kept as what they were made from: `JsonText` and
`NumberText` hold either a text or the object that `json.dumps` or `str` was called on,
and reading the latter gives the object back.
-/

namespace Ros1Tools.Recording

open Lib Lib.Python

/-! ## Arguments -/

/-- A text for `json.loads`. -/
inductive JsonText where
  | raw (text : String)
  | dumps (value : Value)

/-- A text for `int` or `float`. -/
inductive NumberText where
  | raw (text : String)
  | str (number : Number)

/-- The library functions that the checks call.  `estimate` is the arithmetic of the
capacity estimate; `math.ceil` refuses what is not finite. -/
structure Runtime where
  loads : String → Except Exception Value
  int : String → Option Int
  float : String → Option Double
  estimate : Int → Double → Double → Except Exception Int

namespace Runtime

variable (runtime : Runtime)

def readJson : JsonText → Except Exception Value
  | .raw text => runtime.loads text
  | .dumps value => .ok value

/-- `int(text)`, which never reads what `str` gives for a `float`. -/
def readInt : NumberText → Option Int
  | .raw text => runtime.int text
  | .str (.int n) => some n
  | .str (.float _) => none

def readFloat : NumberText → Option Double
  | .raw text => runtime.float text
  | .str number => some number.toDouble

end Runtime

/-- `sys.argv[1:]`. -/
structure Arguments where
  root : String
  outputPrefix : String
  topicsJson : JsonText
  splitSizeText : NumberText
  maxSplitsText : NumberText
  minSpaceText : NumberText
  compression : String
  repeatLatched : String
  durationText : NumberText
  bitrateText : NumberText
  safetyText : NumberText
  manifestJson : JsonText

/-- How the process ends when a check fails. -/
inductive Refusal where
  | exit (message : String)
  | raised (exc : Exception)
deriving DecidableEq, Repr

def require (condition : Bool) (message : String) : Except Refusal Unit :=
  if condition then .ok () else .error (.exit message)

/-- The object, or the exit with `message`. -/
def requireSome {α : Type} (value : Option α) (message : String) : Except Refusal α :=
  match value with
  | some a => .ok a
  | none => .error (.exit message)

/-- An exception that nothing handles. -/
def uncaught {α : Type} : Except Exception α → Except Refusal α
  | .ok a => .ok a
  | .error exc => .error (.raised exc)

/-! ## The checks -/

/-- `re.fullmatch(r"[A-Za-z0-9][A-Za-z0-9._-]{0,254}", text)`. -/
def isRecordId (text : String) : Bool :=
  match text.toList with
  | [] => false
  | c :: cs =>
      c.isAlphanum && cs.all (fun d => d.isAlphanum || d == '.' || d == '_' || d == '-') &&
        decide (cs.length ≤ 254)

/-- The topic of an excluded topic that names one and says why. -/
def excludedName (item : Value) : Option String :=
  match item with
  | .dict members =>
      match Value.get members "topic", Value.get members "reason" with
      | .str topic, .str reason =>
          if startsWith topic "/" ∧ reason ≠ "" then some topic else none
      | _, _ => none
  | _ => none

/-- A list of texts that all begin with a slash. -/
def readTopics (value : Value) : Option (List String) :=
  match value.asStrings with
  | some topics =>
      if !topics.isEmpty ∧ topics.all (startsWith · "/") then some topics else none
  | none => none

/-- The members, if the manifest is one for these topics. -/
def readManifest (topics : List String) (value : Value) : Option (List (String × Value)) :=
  match value with
  | .dict members =>
      if (Value.get members "schemaVersion").equalsInt 1 ∧
          (Value.get members "topics").asStrings = some topics then some members
      else none
  | _ => none

/-- `manifest.get("excludedTopics") or []`. -/
def readExcluded (manifest : List (String × Value)) : Option (List String) :=
  ((Value.get manifest "excludedTopics").orElse (.list [])).asList.bind (·.mapM excludedName)

inductive Profile where
  | general
  | cameraScientific
deriving DecidableEq, Repr

def Profile.text : Profile → String
  | general => "general"
  | cameraScientific => "camera_scientific"

def Profile.read : Value → Option Profile
  | .str text =>
      if text = "general" then some general
      else if text = "camera_scientific" then some cameraScientific
      else none
  | _ => none

inductive Compression where
  | none
  | lz4
  | bz2
deriving DecidableEq, Repr

def Compression.text : Compression → String
  | none => "none"
  | lz4 => "lz4"
  | bz2 => "bz2"

def Compression.read (text : String) : Option Compression :=
  if text = "none" then some none
  else if text = "lz4" then some lz4
  else if text = "bz2" then some bz2
  else Option.none

def readFlag (text : String) : Option Bool :=
  if text = "true" then some true else if text = "false" then some false else none

/-- The capacity parameters as the process reads them. -/
structure Capacity where
  splitSize : Int
  maxSplits : Int
  minSpaceGib : Int
  durationMinutes : Int
  bitrateMbps : Double
  safetyFactor : Double

def Runtime.readCapacity (runtime : Runtime) (argv : Arguments) : Option Capacity := do
  let splitSize ← runtime.readInt argv.splitSizeText
  let maxSplits ← runtime.readInt argv.maxSplitsText
  let minSpaceGib ← runtime.readInt argv.minSpaceText
  let durationMinutes ← runtime.readInt argv.durationText
  let bitrateMbps ← runtime.readFloat argv.bitrateText
  let safetyFactor ← runtime.readFloat argv.safetyText
  return ⟨splitSize, maxSplits, minSpaceGib, durationMinutes, bitrateMbps, safetyFactor⟩

namespace Capacity

variable (c : Capacity)

/-- No parameter is below its bound. -/
def inRange : Bool :=
  !(decide (c.splitSize < 64) || decide (c.maxSplits < 1) || decide (c.minSpaceGib < 1) ||
    decide (c.durationMinutes < 1) || c.bitrateMbps.lt (.ofInt .binary64 0) ||
    c.safetyFactor.lt (.ofInt .binary64 1))

def plannedBytes : Int := c.splitSize * 1024 * 1024 * c.maxSplits

end Capacity

/-- `stop_limit_bytes`: a camera recording carries its own limit. -/
def stopLimit (profile : Profile) (planned : Int) (manifest : List (String × Value)) :
    Option Int :=
  match profile with
  | .general => some planned
  | .cameraScientific =>
      match Value.get manifest "scientificTotalLimitBytes" with
      | .int limit => if limit < 64 * 1024 * 1024 then none else some limit
      | _ => none

/-- What the checks hand on to the recording. -/
structure Session where
  root : String
  outputPrefix : String
  topics : List String
  excludedNames : List String
  recordAllTopics : Bool
  exclusionPattern : String
  namesOutput : Bool
  profile : Profile
  compression : Compression
  repeatLatched : Bool
  capacity : Capacity
  expectedBytes : Int
  stopLimitBytes : Int

/-- The pattern of a recording of all topics, which has to fit in an argument. -/
def buildPattern (recordAllTopics : Bool) (topics excluded : List String) :
    Except Refusal String :=
  if recordAllTopics then
    if (exclusionPattern topics excluded).utf8ByteSize > 96 * 1024 then
      .error (.exit "ROS bag exclusion pattern exceeds 96KiB")
    else .ok (exclusionPattern topics excluded)
  else .ok ""

/-- Whether the recording has a name of its own, and that name is well formed. -/
def checkNaming (manifest : List (String × Value)) : Except Refusal Bool := do
  let version := Value.getOr manifest "recordNamingVersion" (.int 0)
  let isBool := match version with | .bool _ => true | _ => false
  require ((version.equalsInt 0 || version.equalsInt 1) && !isBool)
    "trusted ROS bag record naming version is invalid"
  let named := match Value.get manifest "recordingId" with
    | .str text => isRecordId text
    | _ => false
  require (!version.equalsInt 1 || named) "trusted ROS bag record identity is invalid"
  return version.equalsInt 1

/-- The checks of the recording process, in the order of the source. -/
def Runtime.validate (runtime : Runtime) (argv : Arguments) : Except Refusal Session := do
  let topicsValue ← uncaught (runtime.readJson argv.topicsJson)
  let manifestValue ← uncaught (runtime.readJson argv.manifestJson)
  let topics ← requireSome (readTopics topicsValue) "trusted ROS bag topic list is invalid"
  let manifest ← requireSome (readManifest topics manifestValue)
    "trusted ROS bag session manifest is invalid"
  let excluded ← requireSome (readExcluded manifest) "trusted ROS bag excludedTopics are invalid"
  require (!excluded.any topics.contains)
    "trusted ROS bag topic list contains an excluded topic"
  let recordAllTopics := (Value.getOr manifest "recordAllTopics" (.bool false)).truthy
  let pattern ← buildPattern recordAllTopics topics excluded
  let namesOutput ← checkNaming manifest
  let profile ← requireSome (Profile.read (Value.get manifest "recordingProfile"))
    "trusted ROS bag recording profile is invalid"
  let compression ← requireSome (Compression.read argv.compression)
    "trusted ROS bag compression is invalid"
  let repeatLatched ← requireSome (readFlag argv.repeatLatched)
    "trusted ROS bag repeat-latched value is invalid"
  let capacity ← requireSome (runtime.readCapacity argv)
    "trusted ROS bag capacity parameters are invalid"
  require capacity.inRange "trusted ROS bag capacity parameters are out of range"
  let expectedBytes ← uncaught
    (runtime.estimate capacity.durationMinutes capacity.bitrateMbps capacity.safetyFactor)
  let stopLimitBytes ← requireSome (stopLimit profile capacity.plannedBytes manifest)
    "trusted ROS bag scientificTotalLimitBytes is invalid"
  require ((Value.get manifest "estimatedBytes").equalsInt expectedBytes)
    "trusted ROS bag capacity estimate does not match the session manifest"
  require (profile == .cameraScientific || expectedBytes ≤ capacity.plannedBytes)
    ("ROS bag capacity preflight failed: " ++
      "planned split capacity is smaller than the estimated session")
  return { root := argv.root, outputPrefix := argv.outputPrefix, topics,
           excludedNames := excluded, recordAllTopics, exclusionPattern := pattern, namesOutput,
           profile, compression, repeatLatched, capacity, expectedBytes, stopLimitBytes }

/-! ## What is accepted -/

section Rules

variable {α : Type}

theorem require_eq_ok {condition : Bool} {message : String} {u : Unit} :
    require condition message = .ok u ↔ condition = true := ite_ok_eq_ok

theorem requireSome_eq_ok {value : Option α} {message : String} {a : α} :
    requireSome value message = .ok a ↔ value = some a := by
  cases value with
  | none => exact ⟨nofun, nofun⟩
  | some b =>
      rw [requireSome, Except.ok.injEq, Option.some.injEq]

theorem uncaught_eq_ok {x : Except Exception α} {a : α} : uncaught x = .ok a ↔ x = .ok a := by
  cases x with
  | error exc => exact ⟨nofun, nofun⟩
  | ok b => rw [uncaught, Except.ok.injEq, Except.ok.injEq]

end Rules

/-- The arguments pass every check: `session` is what they say and `manifest` is the
manifest among them. -/
structure Runtime.Accepts (runtime : Runtime) (argv : Arguments)
    (manifest : List (String × Value)) (session : Session) : Prop where
  topics : ∃ value, runtime.readJson argv.topicsJson = .ok value ∧
    readTopics value = some session.topics
  document : ∃ value, runtime.readJson argv.manifestJson = .ok value ∧
    readManifest session.topics value = some manifest
  excluded : readExcluded manifest = some session.excludedNames
  disjoint : session.excludedNames.any session.topics.contains = false
  recordAll : session.recordAllTopics =
    (Value.getOr manifest "recordAllTopics" (.bool false)).truthy
  pattern : buildPattern session.recordAllTopics session.topics session.excludedNames =
    .ok session.exclusionPattern
  naming : checkNaming manifest = .ok session.namesOutput
  profile : Profile.read (Value.get manifest "recordingProfile") = some session.profile
  compression : Compression.read argv.compression = some session.compression
  repeatLatched : readFlag argv.repeatLatched = some session.repeatLatched
  capacity : runtime.readCapacity argv = some session.capacity
  inRange : session.capacity.inRange = true
  estimate : runtime.estimate session.capacity.durationMinutes session.capacity.bitrateMbps
    session.capacity.safetyFactor = .ok session.expectedBytes
  limit : stopLimit session.profile session.capacity.plannedBytes manifest =
    some session.stopLimitBytes
  estimated : (Value.get manifest "estimatedBytes").equalsInt session.expectedBytes = true
  planned : (session.profile == .cameraScientific ||
    session.expectedBytes ≤ session.capacity.plannedBytes) = true
  root : session.root = argv.root
  outputPrefix : session.outputPrefix = argv.outputPrefix

/-- **The checks succeed exactly on the arguments that are accepted.** -/
theorem Runtime.validate_eq_ok {runtime : Runtime} {argv : Arguments} {session : Session} :
    runtime.validate argv = .ok session ↔
      ∃ manifest, runtime.Accepts argv manifest session := by
  simp only [Runtime.validate, bind_eq_ok, require_eq_ok, requireSome_eq_ok, uncaught_eq_ok,
    Bool.not_eq_true']
  constructor
  · rintro ⟨topicsValue, htopicsJson, manifestValue, hmanifestJson, topics, htopics, manifest,
      hmanifest, excluded, hexcluded, _, hdisjoint, pattern, hpattern, namesOutput, hnaming,
      profile, hprofile, compression, hcompression, repeatLatched, hrepeat, capacity, hcapacity,
      _, hrange, expectedBytes, hestimate, limit, hlimit, _, hestimated, _, hplanned, ⟨⟩⟩
    exact ⟨manifest, ⟨topicsValue, htopicsJson, htopics⟩, ⟨manifestValue, hmanifestJson, hmanifest⟩,
      hexcluded, hdisjoint, rfl, hpattern, hnaming, hprofile, hcompression, hrepeat, hcapacity,
      hrange, hestimate, hlimit, hestimated, hplanned, rfl, rfl⟩
  · rintro ⟨manifest, ⟨topicsValue, htopicsJson, htopics⟩,
      ⟨manifestValue, hmanifestJson, hmanifest⟩, hexcluded, hdisjoint, hall, hpattern, hnaming,
      hprofile, hcompression, hrepeat, hcapacity, hrange, hestimate, hlimit, hestimated, hplanned,
      hroot, hprefix⟩
    refine ⟨topicsValue, htopicsJson, manifestValue, hmanifestJson, _, htopics, manifest, hmanifest,
      _, hexcluded, (), hdisjoint, _, hall ▸ hpattern, _, hnaming, _, hprofile, _, hcompression,
      _, hrepeat, _, hcapacity, (), hrange, _, hestimate, _, hlimit, (), hestimated, (), hplanned,
      ?_⟩
    rw [← hall, ← hroot, ← hprefix]
    rfl

/-! ## The command line -/

namespace Session

variable (session : Session)

/-- `os.path.join(root, "lib", "rosbag", "record")`. -/
def executable : String :=
  if endsWith session.root "/" then session.root ++ "lib/rosbag/record"
  else session.root ++ "/lib/rosbag/record"

/-- The arguments that select what is recorded. -/
def selection : List String :=
  if session.recordAllTopics then ["--all", "--exclude", session.exclusionPattern]
  else session.topics

def arguments : List String :=
  [session.executable, "--split", "--size=" ++ toString session.capacity.splitSize,
    "--min-space=" ++ toString session.capacity.minSpaceGib ++ "G"] ++
  (if session.compression = .none then [] else ["--" ++ session.compression.text]) ++
  (if session.repeatLatched then ["--repeat-latched"] else []) ++
  [if session.namesOutput then "--output-name" else "--output-prefix", session.outputPrefix] ++
  session.selection

end Session

/-- What `rosbag record` subscribes to: every topic but those that `--exclude` matches,
or the topics that are listed. -/
def Subscribes (selection : List String) (topic : String) : Prop :=
  match selection with
  | ["--all", "--exclude", pattern] => ¬Excludes pattern topic
  | topics => topic ∈ topics

theorem pattern_of_validate {runtime : Runtime} {argv : Arguments} {session : Session}
    (h : runtime.validate argv = .ok session) (hall : session.recordAllTopics = true) :
    session.exclusionPattern = exclusionPattern session.topics session.excludedNames := by
  obtain ⟨manifest, haccepts⟩ := Runtime.validate_eq_ok.mp h
  have hpattern := haccepts.pattern
  rw [hall, buildPattern, if_pos rfl, ite_error_eq_ok] at hpattern
  exact (Except.ok.inj hpattern.2).symm

theorem disjoint_of_validate {runtime : Runtime} {argv : Arguments} {session : Session}
    (h : runtime.validate argv = .ok session) {topic : String} (htopic : topic ∈ session.topics) :
    topic ∉ session.excludedNames := by
  obtain ⟨manifest, haccepts⟩ := Runtime.validate_eq_ok.mp h
  intro hexcluded
  have hdisjoint := List.any_eq_false.mp haccepts.disjoint topic hexcluded
  exact hdisjoint (List.contains_iff_mem.mpr htopic)

theorem mem_explicitCopies_iff {topics : List String} {topic : String}
    (hnot : "/xgc/display" ∉ topics) (hdisplay : InDisplay topic) :
    topic ∈ explicitCopies topics ↔ topic ∈ topics := by
  rw [explicitCopies, List.mem_filter]
  refine ⟨And.left, fun htopic => ⟨htopic, ?_⟩⟩
  rcases hdisplay with rfl | hunder
  · exact absurd htopic hnot
  · exact hunder

/-- **A recording of all topics leaves out exactly the excluded topics and the derived
copies**, and subscribes to every recorded topic, exactly if the root of the display namespace
is not itself to be recorded.  It subscribes to no excluded one. -/
theorem record_all_selects {runtime : Runtime} {argv : Arguments} {session : Session}
    (h : runtime.validate argv = .ok session) (hall : session.recordAllTopics = true) :
    ("/xgc/display" ∉ session.topics ↔ ∀ topic : String, '\n' ∉ topic.toList →
      (Excludes session.exclusionPattern topic ↔
        topic ∈ session.excludedNames ∨ InDisplay topic ∧ topic ∉ session.topics)) ∧
    ("/xgc/display" ∉ session.topics ↔
      ∀ topic ∈ session.topics, Subscribes session.selection topic) ∧
    ∀ topic ∈ session.excludedNames, ¬Subscribes session.selection topic := by
  have hpattern := pattern_of_validate h hall
  have hsubscribes : ∀ topic, Subscribes session.selection topic ↔
      ¬Excludes session.exclusionPattern topic := by
    rw [Session.selection, if_pos hall]
    exact fun _ => Iff.rfl
  have hroot : Excludes session.exclusionPattern "/xgc/display" := hpattern ▸ excludes_root _ _
  refine ⟨⟨fun hnot topic hnewline => ?_, fun hexact htopic => ?_⟩,
    ⟨fun hnot topic htopic => ?_, fun hrecorded htopic => ?_⟩, fun topic htopic => ?_⟩
  · rw [hpattern, excludes_iff]
    refine or_congr_right ⟨?_, ?_⟩
    · rintro ⟨⟨hdisplay, -⟩, hother⟩
      exact ⟨hdisplay, mt (mem_explicitCopies_iff hnot hdisplay).mpr hother⟩
    · rintro ⟨hdisplay, hother⟩
      exact ⟨⟨hdisplay, hnewline⟩, mt (mem_explicitCopies_iff hnot hdisplay).mp hother⟩
  · rcases (hexact _ (by decide)).mp hroot with hexcluded | ⟨-, hnot⟩
    · exact disjoint_of_validate h htopic hexcluded
    · exact hnot htopic
  · rw [hsubscribes, hpattern, excludes_iff]
    rintro (hexcluded | ⟨⟨hdisplay, -⟩, hother⟩)
    · exact disjoint_of_validate h htopic hexcluded
    · exact hother ((mem_explicitCopies_iff hnot hdisplay).mpr htopic)
  · exact (hsubscribes _).mp (hrecorded _ htopic) hroot
  · rw [hsubscribes, not_not, hpattern, excludes_iff]
    exact Or.inl htopic

/-! A recording of all topics with a capacity estimate of zero bytes. -/

def sampleManifest (topics excluded : List String) : List (String × Value) :=
  [("schemaVersion", .int 1), ("recordNamingVersion", .int 1), ("recordingId", .str "run-1"),
    ("recordingProfile", .str "general"), ("recordAllTopics", .bool true),
    ("topics", .list (topics.map .str)), ("estimatedBytes", .int 0),
    ("excludedTopics", .list (excluded.map fun topic =>
      .dict [("topic", .str topic), ("reason", .str "large")]))]

def sampleArguments (topics excluded : List String) : Arguments where
  root := "/opt/ros/noetic"
  outputPrefix := "/archive/Experiments/run-1/Data/run-1"
  topicsJson := .dumps (.list (topics.map .str))
  splitSizeText := .str (.int 1024)
  maxSplitsText := .str (.int 10)
  minSpaceText := .str (.int 2)
  compression := "lz4"
  repeatLatched := "true"
  durationText := .str (.int 60)
  bitrateText := .str (.int 0)
  safetyText := .str (.int 1)
  manifestJson := .dumps (.dict (sampleManifest topics excluded))

def sampleCapacity : Capacity := ⟨1024, 10, 2, 60, .ofInt .binary64 0, .ofInt .binary64 1⟩

def sampleSession (topics excluded : List String) : Session where
  root := "/opt/ros/noetic"
  outputPrefix := "/archive/Experiments/run-1/Data/run-1"
  topics := topics
  excludedNames := excluded
  recordAllTopics := true
  exclusionPattern := exclusionPattern topics excluded
  namesOutput := true
  profile := .general
  compression := .lz4
  repeatLatched := true
  capacity := sampleCapacity
  expectedBytes := 0
  stopLimitBytes := sampleCapacity.plannedBytes

def sampleRuntime : Runtime where
  loads := fun _ => .error (valueError "Expecting value")
  int := fun _ => none
  float := fun _ => none
  estimate := fun _ _ _ => .ok 0

theorem validate_sampleArguments {topics excluded : List String}
    (htopics : readTopics (.list (topics.map .str)) = some topics)
    (hexcluded : readExcluded (sampleManifest topics excluded) = some excluded)
    (hdisjoint : excluded.any topics.contains = false)
    (hpattern : buildPattern true topics excluded = .ok (exclusionPattern topics excluded)) :
    sampleRuntime.validate (sampleArguments topics excluded) =
      .ok (sampleSession topics excluded) := by
  have hmanifest : readManifest topics (.dict (sampleManifest topics excluded)) =
      some (sampleManifest topics excluded) :=
    if_pos ⟨rfl, Value.asStrings_list_map_str topics⟩
  have hrange : sampleCapacity.inRange = true := by decide +kernel
  refine Runtime.validate_eq_ok.mpr ⟨sampleManifest topics excluded, ?_⟩
  exact
    { topics := ⟨_, rfl, htopics⟩
      document := ⟨_, rfl, hmanifest⟩
      excluded := hexcluded
      disjoint := hdisjoint
      recordAll := rfl
      pattern := hpattern
      naming := rfl
      profile := rfl
      compression := rfl
      repeatLatched := rfl
      capacity := rfl
      inRange := hrange
      estimate := rfl
      limit := rfl
      estimated := rfl
      planned := rfl
      root := rfl
      outputPrefix := rfl }

/-- One copy is recorded, another topic is excluded. -/
theorem record_all_selects_sample :
    Subscribes (sampleSession ["/tf", "/xgc/display/map"] ["/camera/raw"]).selection
        "/xgc/display/map" ∧
      ¬Subscribes (sampleSession ["/tf", "/xgc/display/map"] ["/camera/raw"]).selection
        "/camera/raw" := by
  have h : sampleRuntime.validate (sampleArguments ["/tf", "/xgc/display/map"] ["/camera/raw"]) =
      .ok (sampleSession ["/tf", "/xgc/display/map"] ["/camera/raw"]) :=
    validate_sampleArguments rfl rfl rfl rfl
  obtain ⟨-, hrecorded, hexcluded⟩ := record_all_selects h rfl
  exact ⟨hrecorded.mp (by decide) _ (by decide), hexcluded _ (by decide)⟩

/-- The root of the display namespace is excluded although it is to be recorded. -/
theorem display_root_not_recorded :
    ∃ session, sampleRuntime.validate (sampleArguments ["/xgc/display"] []) = .ok session ∧
      session.recordAllTopics = true ∧ "/xgc/display" ∈ session.topics ∧
      Excludes session.exclusionPattern "/xgc/display" ∧
      ¬Subscribes session.selection "/xgc/display" := by
  have hexcludes := excludes_root ["/xgc/display"] []
  exact ⟨_, validate_sampleArguments rfl rfl rfl rfl, rfl, by decide, hexcludes,
    not_not.mpr hexcludes⟩

end Ros1Tools.Recording
