import Ros1Tools.Recording.Canonical

/-!
# How the preparation fails

The entry point of the recorder turns a `ValueError`, a `TypeError` and a `KeyError` into a
message and the exit status 2.  The preparation also calls methods of texts and dictionaries on
fields whose type it does not check, converts integers to `float` that may be too large, and
copies and serializes values that may be nested too deeply: an `AttributeError`, an
`OverflowError` or a `RecursionError` then leaves it.

Each such place is a trap.  A trap is only met by a request that has passed the checks before
it, so the traps are stated in the order of the source, behind those checks, and
`Host.Trapped` is the trap of the whole preparation.
-/

namespace Ros1Tools.Recording

open Lib Lib.Python

/-- What `except (ValueError, TypeError, KeyError)` catches. -/
def Caught (exc : Exception) : Prop :=
  exc.kind = .valueError ∨ exc.kind = .typeError ∨ exc.kind = .keyError

instance (exc : Exception) : Decidable (Caught exc) := by
  unfold Caught
  infer_instance

/-- The library functions raise nothing else: the estimate of numbers within their bounds, the
conversion to a dictionary, and the parts of a URL. -/
structure Host.Documented (host : Host) : Prop where
  estimate : ∀ (minutes : Bounded 1 10080) (bitrate : Factor 0 10000) (safety : Factor 1 4),
    ¬Escapes Caught (host.estimate minutes.1 bitrate.1.toDouble safety.1.toDouble)
  mapping : ∀ value, ¬Escapes Caught (host.mapping value)
  isMasterUrl : ∀ url, ¬Escapes Caught (host.isMasterUrl url)

/-! ## Traps in the parameters -/

/-- An integer beyond the range of `float`. -/
def tooLarge : Value → Bool
  | .int n => !(Binary.ofInt .binary64 n).isFinite
  | _ => false

/-- A value that `strip` cannot be called on. -/
def isNoText (value : Value) : Bool := value.asStr.isNone

/-- A value that `get` cannot be called on. -/
def isNoDict (value : Value) : Bool := value.asDict.isNone

/-- A loop that remembers keys comes to a trap. -/
def EachTrap {α : Type} (key : α → String) (read : List String → Value → Except Exception α)
    (trap : List String → Value → Prop) : List String → List Value → Prop :=
  Traps (fun seen value => read seen value >>= fun item => .ok (key item :: seen)) trap

/-- A file whose role or path is no text. -/
def FileTrap (value : Value) : Prop :=
  keysAre (value.asDict.getD []) ["role", "path"] = true ∧
    (isNoText (Value.get (value.asDict.getD []) "role") = true ∨
      isNoText (Value.get (value.asDict.getD []) "path") = true)

def Host.FilesTrap (host : Host) (p : Members) (name : String) (extensions : List String) : Prop :=
  Passes (asBoundedList (Value.getOr p name (.list [])) 32 (name ++ " exceeds its declared bound"))
    (EachTrap SidecarFile.role (host.readFile name extensions) (fun _ => FileTrap) [])

/-- An excluded topic whose reason is no text. -/
def ExcludedTrap (value : Value) : Prop :=
  keysAre (value.asDict.getD []) ["topic", "reason"] = true ∧
    Passes (graphName "excluded topic" (Value.get (value.asDict.getD []) "topic") isAbsolute)
      fun _ => isNoText (Value.get (value.asDict.getD []) "reason") = true

/-- A fact parameter whose purpose is no text, or whose requested value is not serialized. -/
def Host.FactTrap (host : Host) (seen : List String) (value : Value) : Prop :=
  let members := value.asDict.getD []
  (members.all (fun member => ["name", "purpose", "requestedValue"].contains member.1) &&
      Value.hasKey members "name" && Value.hasKey members "purpose") = true ∧
    Passes (graphName "fact parameter" (Value.get members "name") isAbsolute) fun name =>
      isNoText (Value.get members "purpose") = true ∨
        Passes (Value.strFor "strip" (Value.get members "purpose")) fun purpose =>
          (!seen.contains name.1 && strip purpose != "" &&
              decide ((strip purpose).utf8ByteSize ≤ 512)) = true ∧
            Escapes Caught (host.requestedSize members)

/-- A coordinate behind proper ones is too large. -/
def CoordinatesTrap : List Value → Prop
  | [] => False
  | value :: values =>
      tooLarge value = true ∨ areCoordinates [value] = .ok true ∧ CoordinatesTrap values

def OffsetTrap (p : Members) : Prop :=
  ∃ members, p.lookup "localizationOffset" = some (.dict members) ∧
    keysAre members ["x", "y", "z"] = true ∧ CoordinatesTrap (members.map Prod.snd)

/-- A boundary that is not serialized. -/
def Host.BoundaryTrap (host : Host) (boundary : Value) : Prop :=
  (boundary = .null ∨ isNoDict boundary = false) ∧ Escapes Caught (host.jsonSize boundary)

/-- The traps of `readParameters`, each behind the checks that come first. -/
def Host.ParametersTrap (host : Host) (profile : Profile) (preview : Bool) (p : Members) : Prop :=
  let scientific := profile == .cameraScientific
  Passes (boolean p "recordAllTopics") fun _ =>
  Passes (boolean p "includeMotionCapture") fun includeMotionCapture =>
  Passes (boolean p "repeatLatched") fun _ =>
  Passes (storageBound 64 102400 p "splitSizeMiB") fun _ =>
  Passes (storageBound 1 1000 p "maxSplits") fun _ =>
  Passes (storageBound 1 1024 p "minFreeSpaceGiB") fun _ =>
  Passes (storageBound 1 10080 p "expectedDurationMinutes") fun _ =>
  tooLarge (Value.get p "estimatedVideoBitrateMbps") = true ∨
  Passes (finiteBound 0 10000 p "estimatedVideoBitrateMbps") fun _ =>
  tooLarge (Value.get p "capacitySafetyFactor") = true ∨
  Passes (finiteBound 1 4 p "capacitySafetyFactor") fun _ =>
  Passes (readCompression profile p) fun _ =>
  host.isCleanPath (text p "rosInstallPath") = true ∧
  Passes (host.isMasterUrl (text p "rosMasterUri")) fun isMasterUrl =>
  isMasterUrl = true ∧ (text p "rosIp" == "" || text p "rosHostname" == "") = true ∧
  Passes (graphNames "robotTopics" (Value.getOr p "robotTopics" (.list [])) isRelative 256)
    fun robotTopics =>
  Passes (graphNames "globalTopics"
    (Value.getOr p "globalTopics" (.list [.str "/tf", .str "/tf_static", .str "/clock"]))
    isAbsolute 256) fun globalTopics =>
  Passes (graphNames "slotIds" (Value.getOr p "slotIds" (.list [])) isSlotId 256) fun _ =>
  Passes (asBoundedList (Value.getOr p "cameras" (.list [])) 32
    "cameras exceeds its declared list bound") fun cameraValues =>
  Passes (readCameras [] cameraValues) fun cameras =>
  (scientific == !cameras.isEmpty) = true ∧
  (!robotTopics.1.isEmpty || !globalTopics.1.isEmpty || includeMotionCapture || scientific) =
    true ∧
  (!scientific || preview ||
    (text p "sessionId" != "" && Value.hasKey p "localizationOffset")) = true ∧
  Passes ([("sessionId", 64), ("experimentResourceId", 128), ("experimentCommitId", 128)].forM
    (checkIdentity p)) fun _ =>
  OffsetTrap p ∨ Passes (checkOffset p) fun _ =>
  host.BoundaryTrap (Value.get p "worldBoundary") ∨
  Passes (host.checkBoundary (Value.get p "worldBoundary")) fun _ =>
  host.FilesTrap p "calibrationFiles" [".yaml", ".yml"] ∨
  Passes (host.sidecarFiles p "calibrationFiles" [".yaml", ".yml"]) fun _ =>
  host.FilesTrap p "algorithmSidecarFiles" [".mat", ".yaml", ".yml"] ∨
  Passes (host.sidecarFiles p "algorithmSidecarFiles" [".mat", ".yaml", ".yml"]) fun _ =>
  Passes (asBoundedList (Value.getOr p "excludedTopics" (.list [])) 64
    "excludedTopics exceeds its declared bound") fun excludedValues =>
  EachTrap ExcludedTopic.topic readExcludedTopic (fun _ => ExcludedTrap) [] excludedValues ∨
  Passes (readExcludedTopics [] excludedValues) fun _ =>
  Passes (asBoundedList (Value.getOr p "factParameters" (.list [])) 64
    "factParameters exceeds its declared bound") fun factParameters =>
  EachTrap id host.checkFact host.FactTrap [] factParameters

/-- A parameter of the context that is not copied. -/
def Host.OverlayTrap (host : Host) (context p : Members) (name : String) : Prop :=
  ∃ frozen, context.lookup name = some frozen ∧
    ((p.lookup name).all fun own => host.equal own frozen) = true ∧ host.copies frozen = false

def Host.NormalizeTrap (host : Host) (value context : Members) (preview : Bool) : Prop :=
  host.copies (.dict value) = false ∨
  Passes (host.deepcopy (.dict value)) fun _ =>
  Passes (rejectUnknown value) fun _ =>
  Traps (host.overlay context) (host.OverlayTrap context) value contextNames ∨
  Passes (contextNames.foldlM (host.overlay context) value) fun p =>
  Passes (textNames.foldlM stripText p) fun p =>
  Passes (readProfile p) fun profile =>
  host.ParametersTrap profile preview ((defaults profile).foldl applyDefault p)

/-! ## Traps in the robots and in the context -/

/-- A robot whose namespace is no text. -/
def NamespaceTrap (robot : Value) : Prop :=
  Passes (robot.subscript "namespace") fun value => isNoText value = true

/-- A body that is no dictionary, where its name is asked for. -/
def BodyTrap (robot : Members) : Prop :=
  ∃ kind, bodyKind robot = some kind ∧ isNoDict (Value.get robot kind) = true

/-- The traps of `poseTopics`.  The namespaces are texts by then. -/
def PoseTrap (profile : Value) (robot runtime : Members) : Prop :=
  if vehicles.any fun vehicle => isProfile profile vehicle [".xsim.ros"] then
    NamespaceTrap (.dict robot)
  else if vehicles.any fun vehicle => isProfile profile vehicle [".gazebo.vrpn"] then
    NamespaceTrap (.dict robot)
  else if (vehicles.any fun vehicle => isProfile profile vehicle [".physical.vrpn"]) ∨
      profile.asStr = some "px4.mocap-rotor.ros1.v1" then
    runtime.lookup "mocap_rigid_body" = none ∧ BodyTrap robot
  else False

def Host.MeasurementsTrap (host : Host) (modeValue simulator : Value) (robot : Members) : Prop :=
  Passes (host.readMode modeValue) fun mode =>
  let source := Value.getOr robot "hybridSource" (.str "")
  (mode != .hybrid || source.asStr == some "physical" || source.asStr == some "simulation") =
    true ∧
  Passes (Value.item robot "profileId") fun frozen =>
  Passes (host.mapping ((Value.get robot "runtimeParameters").orElse (.dict []))) fun parameters =>
  PoseTrap (projectProfile mode source simulator frozen) robot
    (overrideTopic robot "simulationTwistTopic" "localization_twist_topic"
      (overrideTopic robot "simulationPoseTopic" "localization_pose_topic" parameters))

/-- The loop over the robots that are measured.  They are dictionaries by then. -/
def Host.MotionCaptureTrap (host : Host) (mode simulator : Value) : List Value → Prop
  | [] => False
  | robot :: robots =>
      isNoDict robot = true ∨ Passes (robot.dictFor "get") fun members =>
      if isUnmeasured members then host.MotionCaptureTrap mode simulator robots
      else host.MeasurementsTrap mode simulator members ∨
        Passes (host.measurements mode simulator members) fun _ =>
        host.MotionCaptureTrap mode simulator robots

def Host.TopicsTrap (host : Host) (p : Parameters) (robots : Members) (mode simulator : Value) :
    Prop :=
  Passes (Value.item robots "robots") fun frozen =>
  Passes frozen.iterate fun robots =>
  Passes (selectRobots p.slotIds.1.isEmpty p.slotIds.1 robots) fun selection =>
  selection.2.isEmpty = true ∧ (p.robotTopics.1.isEmpty || !selection.1.isEmpty) = true ∧
  (Traps (fun _ robot => host.robotNames p.robotTopics.1 robot >>= fun _ => .ok ())
      (fun _ => NamespaceTrap) () selection.1 ∨
    Passes (selection.1.mapM (host.robotNames p.robotTopics.1)) fun _ =>
    p.includeMotionCapture = true ∧ host.MotionCaptureTrap mode simulator selection.1)

/-- The traps of `sidecar`. -/
def Host.SidecarTrap (host : Host) (robot : Value) : Prop :=
  isNoDict robot = true ∨ Passes (robot.dictFor "get") fun members =>
  (∃ field ∈ sidecarFields, host.copies (Value.get members field) = false) ∨
  Passes (sidecarFields.mapM (host.copyMember members)) fun _ =>
  Escapes Caught (host.jsonDigest (Value.get members "visualization")) ∨
  Passes (host.jsonDigest (Value.get members "visualization")) fun _ =>
  BodyTrap members ∨ ∃ kind body, bodyKind members = some kind ∧
    Value.get members kind = .dict body ∧
    isNoText (Value.getOr body "mocapRigidBodyName" (.str "")) = true

/-- A scene that is no dictionary. -/
def SceneTrap (context : Members) : Prop :=
  isNoDict ((Value.get context "scene").orElse (.dict [])) = true

/-- **The traps of the preparation.** -/
def Host.Trapped (host : Host) (document : Document) (preview : Bool) : Prop :=
  host.NormalizeTrap document.parameters document.context preview ∨
  Passes (host.normalizeParameters document.parameters document.context preview) fun normalized =>
  Passes (host.checkFrozen document.robots "experimentResourceId"
    normalized.1.experimentResourceId) fun _ =>
  Passes (host.checkFrozen document.robots "experimentCommitId"
    normalized.1.experimentCommitId) fun _ =>
  Passes (Value.item document.context "runMode") fun mode =>
  SceneTrap document.context ∨
  Passes (simulatorOf document.context) fun simulator =>
  host.TopicsTrap normalized.1 document.robots mode simulator ∨
  Passes (host.resolveRecordingTopics normalized.1 document.robots mode simulator) fun _ =>
  Passes (Value.get document.robots "robots").iterate
    (Traps (fun _ robot => host.sidecar robot >>= fun _ => .ok ()) (fun _ => host.SidecarTrap) ())

/-! ## Single checks -/

section Checks

@[simp]
theorem caught_valueError (text : String) : Caught (valueError text) := .inl rfl

@[simp]
theorem caught_typeError (text : String) : Caught (typeError text) := .inr (.inl rfl)

@[simp]
theorem caught_keyError (key : String) : Caught (keyError key) := .inr (.inr rfl)

theorem not_caught_recursionError : ¬Caught recursionError := by decide

variable {host : Host} {p members : Members} {name method message : String} {value : Value}
  {pattern : String → Bool} {maximum : Nat} {low high : Int}

@[simp]
theorem not_escapes_ensure {condition : Bool} : ¬Escapes Caught (ensure condition message) := by
  unfold ensure
  split <;> simp

@[simp]
theorem passes_ensure {condition : Bool} {P : Unit → Prop} :
    Passes (ensure condition message) P ↔ condition = true ∧ P () := by
  unfold ensure
  split <;> simp [*]

@[simp]
theorem not_escapes_item : ¬Escapes Caught (Value.item members name) := by
  unfold Value.item
  split <;> simp

@[simp]
theorem not_escapes_subscript : ¬Escapes Caught (value.subscript name) := by
  unfold Value.subscript
  split <;> simp

@[simp]
theorem not_escapes_iterate : ¬Escapes Caught value.iterate := by
  unfold Value.iterate
  repeat' split
  all_goals simp

@[simp]
theorem not_escapes_graphNames : ¬Escapes Caught (graphNames name value pattern maximum) := by
  unfold graphNames
  repeat' split
  all_goals simp

/-- One text gives one name: `[0]` finds it. -/
@[simp]
theorem not_escapes_graphName : ¬Escapes Caught (graphName name value pattern) := by
  rw [graphName, escapes_bind]
  rintro (h | ⟨⟨names, hnames⟩, hgraph, h⟩)
  · exact not_escapes_graphNames h
  · obtain ⟨texts, htexts, hsorted⟩ := graphNames_eq_ok hgraph
    obtain ⟨text, rfl, rfl⟩ := asStrings_singleton htexts
    rw [List.map_singleton, sortedSet_singleton] at hsorted
    subst hsorted
    exact not_escapes_ok _ h

@[simp]
theorem not_escapes_asBoundedList : ¬Escapes Caught (asBoundedList value maximum message) := by
  unfold asBoundedList
  repeat' split
  all_goals simp

@[simp]
theorem not_escapes_storageBound : ¬Escapes Caught (storageBound low high p name) := by
  unfold storageBound
  repeat' split
  all_goals simp

@[simp]
theorem not_escapes_boolean : ¬Escapes Caught (boolean p name) := by
  unfold boolean
  split <;> simp

@[simp]
theorem not_escapes_readCompression {profile : Profile} :
    ¬Escapes Caught (readCompression profile p) := by
  unfold readCompression
  repeat' split
  all_goals simp

@[simp]
theorem not_escapes_checkIdentity {entry : String × Nat} :
    ¬Escapes Caught (checkIdentity p entry) := not_escapes_ensure

@[simp]
theorem escapes_strFor : Escapes Caught (value.strFor method) ↔ isNoText value = true := by
  cases value <;> simp [Value.strFor, isNoText, Value.asStr, Caught, attributeError]

@[simp]
theorem escapes_dictFor : Escapes Caught (value.dictFor method) ↔ isNoDict value = true := by
  cases value <;> simp [Value.dictFor, isNoDict, Value.asDict, Caught, attributeError]

@[simp]
theorem escapes_deepcopy : Escapes Caught (host.deepcopy value) ↔ host.copies value = false := by
  unfold Host.deepcopy
  split <;> simp [*, not_caught_recursionError]

theorem escapes_convert {x : Number} (h : value.asNumber = some x) :
    Escapes Caught x.convert ↔ tooLarge value = true := by
  cases value with
  | int n =>
      cases h
      by_cases hfinite : (Binary.ofInt .binary64 n).isFinite = true <;>
        simp [Number.convert, tooLarge, hfinite, Caught, overflowError]
  | float y =>
      cases h
      simp [Number.convert, tooLarge]
  | _ => cases h

theorem escapes_finiteBound :
    Escapes Caught (finiteBound low high p name) ↔ tooLarge (Value.get p name) = true := by
  unfold finiteBound
  split
  next x hx =>
    rw [escapes_bind, escapes_convert hx]
    refine or_iff_left fun ⟨_, _, h⟩ => ?_
    split at h <;> simp at h
  next hx => cases hvalue : Value.get p name <;> simp_all [Value.asNumber, tooLarge]

end Checks

/-! ## Structured parameters -/

section Structured

variable {host : Host} {p members : Members} {name : String} {value : Value}

/-- A loop that remembers keys escapes where the reading of an item does. -/
theorem escapes_readEach {α : Type} {key : α → String}
    {read : List String → Value → Except Exception α} {trap : List String → Value → Prop}
    (h : ∀ seen value, Escapes Caught (read seen value) ↔ trap seen value) {seen : List String}
    {values : List Value} :
    Escapes Caught (readEach key read seen values) ↔ EachTrap key read trap seen values := by
  unfold EachTrap
  induction values generalizing seen with
  | nil => simp [readEach, Traps]
  | cons value values ih =>
      simp only [readEach, escapes_bind, passes_bind, h, ih, Traps, passes_ok, not_escapes_pure,
        not_passes_false, or_false]

theorem not_escapes_readCameras {seen : List String} {values : List Value} :
    ¬Escapes Caught (readCameras seen values) := by
  have hcamera : ∀ seen value, ¬Escapes Caught (readCamera seen value) := by
    intro seen value
    simp [readCamera, escapes_bind, -bind_pure_comp]
  induction values generalizing seen with
  | nil => simp [readCameras]
  | cons value values ih => simp [readCameras, escapes_bind, hcamera, ih, -bind_pure_comp]

/-- Behind a text that is stripped, it does not matter that it is one. -/
theorem or_passes_strFor {method : String} {P : Prop} :
    (isNoText value = true ∨ Passes (value.strFor method) fun _ => P) ↔
      isNoText value = true ∨ P := by
  cases value <;> simp [Value.strFor, isNoText, Value.asStr]

theorem escapes_readFile {extensions seen : List String} :
    Escapes Caught (host.readFile name extensions seen value) ↔ FileTrap value := by
  simp only [Host.readFile, FileTrap, escapes_bind, escapes_strFor, not_escapes_ensure,
    passes_ensure, not_escapes_pure, not_passes_false, false_or, or_false,
    or_passes_strFor]

theorem escapes_sidecarFiles {extensions : List String} :
    Escapes Caught (host.sidecarFiles p name extensions) ↔ host.FilesTrap p name extensions := by
  simp only [Host.sidecarFiles, Host.FilesTrap, escapes_bind, not_escapes_asBoundedList, false_or,
    readFiles_eq, escapes_readEach fun _ _ => escapes_readFile]

theorem escapes_readExcludedTopic {seen : List String} :
    Escapes Caught (readExcludedTopic seen value) ↔ ExcludedTrap value := by
  have hlast : ∀ topic : { text : String // IsName isAbsolute text }, ∀ reason,
      ¬Escapes Caught (if h : topic.1 ∉ seen ∧ strip reason ≠ "" ∧
          (strip reason).utf8ByteSize ≤ 512 then
        .ok (⟨topic.1, strip reason, topic.2, h.2.1⟩ : ExcludedTopic)
      else .error (valueError "duplicate excluded topic or invalid reason")) := by
    intro topic reason
    split <;> simp
  simp [readExcludedTopic, ExcludedTrap, escapes_bind, hlast]

theorem escapes_readExcludedTopics {values : List Value} :
    Escapes Caught (readExcludedTopics [] values) ↔
      EachTrap ExcludedTopic.topic readExcludedTopic (fun _ => ExcludedTrap) [] values := by
  rw [readExcludedTopics_eq_readEach, escapes_readEach fun _ _ => escapes_readExcludedTopic]

theorem escapes_checkFact {seen : List String} :
    Escapes Caught (host.checkFact seen value) ↔ host.FactTrap seen value := by
  simp [Host.checkFact, Host.FactTrap, escapes_bind, -bind_pure_comp]

theorem escapes_checkFacts {values : List Value} :
    Escapes Caught (host.checkFacts [] values) ↔
      EachTrap id host.checkFact host.FactTrap [] values := by
  rw [checkFacts_eq, escapes_map, escapes_readEach fun _ _ => escapes_checkFact]

theorem escapes_areCoordinates {values : List Value} :
    Escapes Caught (areCoordinates values) ↔ CoordinatesTrap values := by
  induction values with
  | nil => simp [areCoordinates, CoordinatesTrap]
  | cons value values ih =>
      cases hx : value.asNumber with
      | none =>
          have hsmall : tooLarge value = false := by
            cases value <;> first | rfl | cases hx
          simp [areCoordinates, CoordinatesTrap, hx, hsmall]
      | some x =>
          simp only [areCoordinates, CoordinatesTrap, hx, escapes_bind, escapes_convert hx]
          refine or_congr_right ?_
          cases x.convert with
          | error exc => simp [bind, Except.bind]
          | ok double =>
              rw [passes_ok, ok_bind]
              split <;> simp [ih]

theorem escapes_checkOffset : Escapes Caught (checkOffset p) ↔ OffsetTrap p := by
  unfold checkOffset OffsetTrap
  split
  next hnone => simp [hnone]
  next value hvalue =>
    simp only [hvalue, escapes_bind, not_escapes_ensure, not_passes_false, or_false]
    cases value with
    | dict members =>
        by_cases hkeys : keysAre members ["x", "y", "z"] = true <;>
          simp [isOffset, hkeys, escapes_areCoordinates]
    | _ => simp [isOffset]

theorem escapes_checkBoundary :
    Escapes Caught (host.checkBoundary value) ↔ host.BoundaryTrap value := by
  cases value <;> simp [Host.checkBoundary, Host.BoundaryTrap, escapes_bind, isNoDict, Value.asDict]

end Structured

/-! ## The parameters -/

section Parameters

variable {host : Host} {p context : Members} {profile : Profile} {preview : Bool}

/-- **The checks on the parameters**, to which context and defaults have been applied. -/
theorem escapes_readParameters (hhost : host.Documented) :
    Escapes Caught (host.readParameters profile preview p) ↔
      host.ParametersTrap profile preview p := by
  simp only [Host.readParameters, Host.ParametersTrap, escapes_bind, hhost.isMasterUrl,
    not_escapes_boolean, not_escapes_storageBound, escapes_finiteBound, not_escapes_readCompression,
    not_escapes_ensure, passes_ensure, not_escapes_graphNames, not_escapes_asBoundedList,
    not_escapes_readCameras, not_escapes_forM fun _ => not_escapes_checkIdentity,
    escapes_checkOffset, escapes_checkBoundary, escapes_sidecarFiles, escapes_readExcludedTopics,
    escapes_checkFacts, not_escapes_pure, not_passes_false, false_or, or_false]

theorem escapes_overlay {name : String} :
    Escapes Caught (host.overlay context p name) ↔ host.OverlayTrap context p name := by
  unfold Host.overlay Host.OverlayTrap
  split
  next hnone => simp [hnone]
  next _ _ frozen hfrozen =>
    simp only [hfrozen, escapes_bind, escapes_deepcopy, not_escapes_ensure, passes_ensure,
      not_escapes_pure, not_passes_false, false_or, or_false, Option.some.injEq, exists_eq_left']

theorem not_escapes_stripText {name : String} : ¬Escapes Caught (stripText p name) := by
  unfold stripText
  split <;> simp

theorem not_escapes_readProfile : ¬Escapes Caught (readProfile p) := by
  unfold readProfile
  dsimp only
  split <;> simp

theorem escapes_normalizeParameters (hhost : host.Documented) :
    Escapes Caught (host.normalizeParameters p context preview) ↔
      host.NormalizeTrap p context preview := by
  simp only [Host.normalizeParameters, Host.NormalizeTrap, escapes_bind, escapes_deepcopy,
    escapes_foldlM fun _ _ => escapes_overlay,
    not_escapes_foldlM fun _ _ => not_escapes_stripText, not_escapes_readProfile,
    escapes_readParameters hhost, rejectUnknown, not_escapes_ensure, hhost.estimate,
    not_escapes_pure, not_passes_false, false_or, or_false]

end Parameters

/-! ## Robots -/

section Robots

variable {host : Host} {robot members : Members} {mode simulator : Value}

@[simp]
theorem not_escapes_inSet {names : List String} {value : Value} :
    ¬Escapes Caught (inSet names value) := by
  unfold inSet
  split <;> simp

theorem not_escapes_selectRobots {allSlots : Bool} {requested : List String}
    {robots : List Value} : ¬Escapes Caught (selectRobots allSlots requested robots) := by
  have hchooses : ∀ requested robot, ¬Escapes Caught (chooses allSlots requested robot) := by
    intro requested robot
    unfold chooses
    split <;> simp [escapes_bind]
  induction robots generalizing requested with
  | nil => simp [selectRobots]
  | cons robot robots ih =>
      rw [selectRobots, escapes_bind]
      rintro (h | ⟨chosen, -, h⟩)
      · exact hchooses _ _ h
      · split at h
        · simp [escapes_bind, discard, ih, -bind_pure_comp] at h
        · exact ih h

theorem escapes_namespaceOf {value : Value} :
    Escapes Caught (namespaceOf value) ↔ NamespaceTrap value := by
  simp [namespaceOf, NamespaceTrap, escapes_bind, -bind_pure_comp]

theorem escapes_robotNames {topics : List String} {value : Value} :
    Escapes Caught (host.robotNames topics value) ↔ NamespaceTrap value := by
  simp [Host.robotNames, escapes_bind, escapes_namespaceOf, -bind_pure_comp]

theorem escapes_bodyOf {runtime : Members} :
    Escapes Caught (bodyOf robot runtime) ↔
      runtime.lookup "mocap_rigid_body" = none ∧ BodyTrap robot := by
  unfold bodyOf BodyTrap
  split
  next body hbody => simp [hbody]
  next hnone =>
    split
    next hkind => simp [hkind]
    next kind hkind => simp [hnone, hkind, escapes_bind, -bind_pure_comp]

theorem escapes_poseTopics {runMode : RunMode} {source profile : Value} {runtime : Members} :
    Escapes Caught (host.poseTopics runMode source profile robot runtime) ↔
      PoseTrap profile robot runtime := by
  have hsegment : ∀ body message, ¬Escapes Caught (bodySegment body message) := by
    intro body message
    unfold bodySegment
    repeat' split
    all_goals simp
  unfold Host.poseTopics PoseTrap
  split
  · simp [escapes_bind, escapes_namespaceOf, -bind_pure_comp]
  · simp only [escapes_bind, not_escapes_item, hsegment, not_escapes_pure, not_passes_false,
      or_false]
    unfold Host.projectBody
    repeat' split
    · simp [escapes_bind, NamespaceTrap, Value.subscript, -bind_pure_comp]
    · exact escapes_bodyOf
    · simp

theorem not_escapes_readMode {value : Value} : ¬Escapes Caught (host.readMode value) := by
  unfold Host.readMode
  split <;> simp

theorem not_escapes_patternText {value : Value} : ¬Escapes Caught (patternText value) := by
  unfold patternText
  split <;> simp

theorem escapes_measurements (hhost : host.Documented) :
    Escapes Caught (host.measurements mode simulator robot) ↔
      host.MeasurementsTrap mode simulator robot := by
  simp only [Host.measurements, Host.MeasurementsTrap, escapes_bind, not_escapes_readMode,
    not_escapes_ensure, passes_ensure, not_escapes_item, hhost.mapping, escapes_poseTopics,
    not_escapes_patternText, not_escapes_pure, not_passes_false, false_or, or_false]

theorem escapes_motionCapture (hhost : host.Documented) {robots : List Value} :
    Escapes Caught (host.motionCapture mode simulator robots) ↔
      host.MotionCaptureTrap mode simulator robots := by
  induction robots with
  | nil => simp [Host.motionCapture, Host.MotionCaptureTrap]
  | cons robot robots ih =>
      rw [Host.motionCapture, Host.MotionCaptureTrap, escapes_bind, escapes_dictFor]
      refine or_congr_right (exists_congr fun members => and_congr_right fun _ => ?_)
      dsimp only
      split
      · exact ih
      · simp only [escapes_bind, escapes_measurements hhost, ih, not_escapes_pure,
          not_passes_false, or_false]

theorem not_escapes_finish {excluded topics : List String} {slotIds : List Value} :
    ¬Escapes Caught (host.finish excluded slotIds topics) := by
  unfold Host.finish
  repeat' split
  all_goals simp

theorem escapes_resolveRecordingTopics (hhost : host.Documented) {p : Parameters} :
    Escapes Caught (host.resolveRecordingTopics p robot mode simulator) ↔
      host.TopicsTrap p robot mode simulator := by
  have hmeasured : ∀ selected, Escapes Caught (host.measuredTopics p mode simulator selected) ↔
      p.includeMotionCapture = true ∧ host.MotionCaptureTrap mode simulator selected := by
    intro selected
    unfold Host.measuredTopics
    split
    next h => simp [h, escapes_bind, escapes_motionCapture hhost, -bind_pure_comp]
    next h => simp [h]
  have hslots : ∀ selected : List Value, ¬Escapes Caught (selected.mapM slotOf) :=
    fun _ => not_escapes_mapM fun _ => not_escapes_subscript
  simp only [Host.resolveRecordingTopics, Host.resolveSelected, Host.TopicsTrap, escapes_bind,
    not_escapes_item,
    not_escapes_iterate, not_escapes_selectRobots, not_escapes_ensure, passes_ensure,
    escapes_mapM fun _ => escapes_robotNames, hmeasured, hslots, not_escapes_finish,
    not_passes_false, false_or, or_false]

theorem escapes_sidecarBody :
    Escapes Caught (sidecarBody robot) ↔
      BodyTrap robot ∨ ∃ kind body, bodyKind robot = some kind ∧ Value.get robot kind = .dict body ∧
        isNoText (Value.getOr body "mocapRigidBodyName" (.str "")) = true := by
  unfold sidecarBody BodyTrap
  split
  next hkind => simp [hkind]
  next kind hkind =>
    simp only [hkind, Option.some.injEq, exists_eq_left', escapes_bind, escapes_dictFor,
      escapes_strFor, not_escapes_pure, not_passes_false, or_false]
    cases hbody : Value.get robot kind <;> simp_all [Value.dictFor, isNoDict, Value.asDict]

theorem escapes_sidecar {value : Value} :
    Escapes Caught (host.sidecar value) ↔ host.SidecarTrap value := by
  have hcopy : ∀ members, Escapes Caught (sidecarFields.mapM (host.copyMember members)) ↔
      ∃ field ∈ sidecarFields, host.copies (Value.get members field) = false := by
    intro members
    induction sidecarFields with
    | nil => simp
    | cons field fields ih =>
        cases hcopies : host.copies (Value.get members field) <;>
          simp [Host.copyMember, Host.deepcopy, List.mapM_cons, escapes_bind, hcopies, ih,
            not_caught_recursionError, -bind_pure_comp]
  simp only [Host.sidecar, Host.SidecarTrap, escapes_bind, escapes_dictFor, hcopy,
    escapes_sidecarBody, not_escapes_pure, not_passes_false, or_false]

end Robots

/-! ## The preparation -/

theorem not_escapes_checkFrozen {host : Host} {robots : Members} {key : String}
    {own : Option String} : ¬Escapes Caught (host.checkFrozen robots key own) := by
  unfold Host.checkFrozen
  split <;> simp

theorem escapes_simulatorOf {context : Members} :
    Escapes Caught (simulatorOf context) ↔ SceneTrap context := by
  simp [simulatorOf, SceneTrap, escapes_bind, -bind_pure_comp]

theorem not_escapes_readFrozen {robots context : Members} :
    ¬Escapes Caught (readFrozen robots context) := by
  simp [readFrozen, escapes_bind, -bind_pure_comp]

/-- **A malformed request fails with a message and the exit status 2**: the preparation returns
or raises a `ValueError`, a `TypeError` or a `KeyError`, in both modes, exactly if the request
does not run into a trap. -/
theorem malformed_request_fails_closed {host : Host} (hhost : host.Documented)
    (document : Document) (preview : Bool) :
    ((∃ prepared, host.prepare document preview = .ok prepared) ∨
        ∃ exc, host.prepare document preview = .error exc ∧ Caught exc) ↔
      ¬host.Trapped document preview := by
  rw [← not_escapes_iff, not_iff_not]
  simp only [Host.prepare, Host.Trapped, escapes_bind, escapes_normalizeParameters hhost,
    not_escapes_checkFrozen, not_escapes_item, escapes_simulatorOf,
    escapes_resolveRecordingTopics hhost, not_escapes_iterate,
    escapes_mapM fun _ => escapes_sidecar, not_escapes_readFrozen, not_escapes_pure,
    not_passes_false, false_or, or_false]

theorem sampleHost_documented : sampleHost.Documented where
  estimate _ _ _ := not_escapes_ok _
  mapping _ := not_escapes_ok _
  isMasterUrl _ := not_escapes_ok _

/-- The exception that ends a computation. -/
def raised {α : Type} : Except Exception α → Option Exception
  | .ok _ => none
  | .error exc => some exc

theorem eq_error_of_raised {α : Type} {x : Except Exception α} {exc : Exception}
    (h : raised x = some exc) : x = .error exc := by
  cases x with
  | ok a => cases h
  | error other => exact congrArg _ (Option.some.inj h)

/-- A request with more parameters. -/
def requestWith (parameters : Members) : Document :=
  { sampleDocument ["/tf"] [] with
    parameters := (sampleDocument ["/tf"] []).parameters ++ parameters }

/-- Files of which one has a role that is no text. -/
def untypedFiles : String × Value :=
  ("calibrationFiles", .list [.dict [("role", .int 5), ("path", .str "/a.yaml")]])

/-- The role is a trap, but not behind a parameter that is refused first. -/
theorem malformed_request_fails_closed_sample :
    sampleHost.Documented ∧ sampleHost.Trapped (requestWith [untypedFiles]) false ∧
      ¬sampleHost.Trapped (requestWith [("bogus", .int 1), untypedFiles]) false := by
  have hrole : sampleHost.prepare (requestWith [untypedFiles]) false =
      .error (attributeError "'int' object has no attribute 'strip'") :=
    eq_error_of_raised (by decide +kernel)
  have hbogus : sampleHost.prepare (requestWith [("bogus", .int 1), untypedFiles]) false =
      .error (valueError "unknown recorder parameters: bogus") :=
    eq_error_of_raised (by decide +kernel)
  refine ⟨sampleHost_documented, by_contra fun h => ?_,
    (malformed_request_fails_closed sampleHost_documented _ false).mp
      (.inr ⟨_, hbogus, caught_valueError _⟩)⟩
  rcases (malformed_request_fails_closed sampleHost_documented _ false).mpr h with
    ⟨_, hok⟩ | ⟨exc, herror, hcaught⟩
  · cases hrole.symm.trans hok
  · cases hrole.symm.trans herror
    exact absurd hcaught (by decide)

/-- A role that is not a text, a text for a scene and an integer beyond the range of `float`:
each leaves the preparation with an exception that the entry point does not catch. -/
theorem unchecked_types_escape :
    raised (sampleHost.prepare (requestWith [untypedFiles]) false) =
      some (attributeError "'int' object has no attribute 'strip'") ∧
    raised (sampleHost.prepare { requestWith [] with
        context := (requestWith []).context ++ [("scene", .str "xsim")] } true) =
      some (attributeError "'str' object has no attribute 'get'") ∧
    raised (sampleHost.prepare (requestWith
        [("estimatedVideoBitrateMbps", .int (10 ^ 400))]) true) =
      some (overflowError "int too large to convert to float") ∧
    ¬Caught (attributeError "'int' object has no attribute 'strip'") ∧
    ¬Caught (overflowError "int too large to convert to float") := by
  refine ⟨by decide +kernel, by decide +kernel, by decide +kernel, by decide, by decide⟩

end Ros1Tools.Recording
