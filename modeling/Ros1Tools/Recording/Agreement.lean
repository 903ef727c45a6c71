import Ros1Tools.Lib.PosixPath
import Ros1Tools.Recording.PatternSize
import Ros1Tools.Recording.Prepare

/-!
# The recording process accepts what was prepared

The recording process checks its arguments again, with bounds of its own.  For all but
one of them the preparation has already made sure of more.  The exception is the size of
the exclusion pattern, which the preparation does not look at: its bounds allow 64
excluded topics of 1024 bytes next to recorded copies of 32768 bytes in all, which is
more than the 96 KiB that the pattern may have.
-/

namespace Ros1Tools.Recording

open Lib Lib.Python

/-! ## The manifest -/

theorem lookup_setOptional_ne {name key : String} (h : key ≠ name) (value : Option Value)
    (manifest : Members) : (setOptional name value manifest).lookup key = manifest.lookup key := by
  cases value with
  | none => rfl
  | some value => rw [setOptional, Value.lookup_setItem, if_neg h]

/-- The manifest says what was prepared, in each of the fields that the recording process
reads. -/
structure Describes (prepared : Prepared) (manifest : Members) : Prop where
  schemaVersion : manifest.lookup "schemaVersion" = some (.int 1)
  naming : manifest.lookup "recordNamingVersion" = some (.int 1)
  profile : manifest.lookup "recordingProfile" =
    some (.str prepared.parameters.recordingProfile.text)
  recordAll : manifest.lookup "recordAllTopics" =
    some (.bool prepared.parameters.recordAllTopics)
  excluded : manifest.lookup "excludedTopics" =
    some (.list (prepared.parameters.excludedTopics.map ExcludedTopic.value))
  topics : manifest.lookup "topics" = some (.list (prepared.resolved.topics.map .str))
  estimatedBytes : manifest.lookup "estimatedBytes" = some (.int prepared.estimated)
  limit : manifest.lookup "scientificTotalLimitBytes" =
    scientificLimit prepared.parameters.recordingProfile

section Prepare

variable {host : Host} {document : Document} {preview : Bool} {prepared : Prepared}

theorem capacity_of_prepare (h : host.prepare document preview = .ok prepared) :
    host.estimate prepared.parameters.expectedDurationMinutes.1
        prepared.parameters.estimatedVideoBitrateMbps.1.toDouble
        prepared.parameters.capacitySafetyFactor.1.toDouble = .ok prepared.estimated ∧
      (prepared.parameters.recordingProfile == .cameraScientific ||
        prepared.estimated ≤ prepared.parameters.plannedBytes) = true := by
  simp only [Host.prepare, bind_eq_ok] at h
  obtain ⟨_, hnormalize, _, _, _, _, _, _, _, _, _, _, _, _, _, _, _, _, ⟨⟩⟩ := h
  exact capacity_of_normalizeParameters hnormalize

theorem describes_of_prepare (h : host.prepare document preview = .ok prepared) :
    Describes prepared prepared.manifest := by
  simp only [Host.prepare, bind_eq_ok] at h
  obtain ⟨⟨p, estimated⟩, _, _, _, _, _, _, _, _, _, resolved, _, _, _, sidecar, _, frozen, _,
    ⟨⟩⟩ := h
  -- the fields that are only set for some requests are none of the others
  have hbase : ∀ key, key ≠ "sessionId" → key ≠ "localizationOffset" → key ≠ "worldBoundary" →
      ∀ manifest : Members,
      (setOptional "worldBoundary" p.worldBoundary
        (setOptional "localizationOffset" p.localizationOffset
          (setOptional "sessionId" (p.sessionId.map .str) manifest))).lookup key =
        manifest.lookup key := by
    intro key hsession hoffset hboundary manifest
    rw [lookup_setOptional_ne hboundary, lookup_setOptional_ne hoffset,
      lookup_setOptional_ne hsession]
  refine ⟨?_, ?_, ?_, ?_, ?_, ?_, ?_, ?_⟩
  case refine_8 =>
    cases p.recordingProfile with
    | cameraScientific => exact (Value.lookup_setItem _ _ _ _).trans (if_pos rfl)
    | general => exact (hbase _ (by decide) (by decide) (by decide) _).trans rfl
  all_goals
    exact (lookup_setOptional_ne (by decide) _ _).trans
      ((hbase _ (by decide) (by decide) (by decide) _).trans rfl)

end Prepare

/-- Copying fields of the archive keeps every other field. -/
theorem lookup_copyFields {archive manifest manifest' : Members}
    {entries : List (String × String)}
    (h : entries.foldlM (copyField archive) manifest = .ok manifest') {key : String}
    (hkey : key ∉ entries.map Prod.fst) : manifest'.lookup key = manifest.lookup key := by
  induction entries generalizing manifest with
  | nil =>
      obtain rfl : manifest = manifest' := Except.ok.inj h
      rfl
  | cons entry entries ih =>
      rw [List.map_cons, List.mem_cons, not_or] at hkey
      rw [List.foldlM_cons] at h
      obtain ⟨next, hcopy, hrest⟩ := bind_eq_ok.mp h
      obtain ⟨value, -, hset⟩ := bind_eq_ok.mp hcopy
      obtain rfl : Value.setItem entry.1 value manifest = next := Except.ok.inj hset
      rw [ih hrest hkey.2, Value.lookup_setItem, if_neg hkey.1]

theorem lookup_updateManifest {archive manifest manifest' : Members}
    (h : updateManifest archive manifest = .ok manifest') {key : String}
    (hkey : key ∉ "parentRunId" :: (archiveFields ++ definitionFields).map Prod.fst) :
    manifest'.lookup key = manifest.lookup key := by
  rw [List.mem_cons, not_or, List.map_append, List.mem_append, not_or] at hkey
  obtain ⟨next, harchive, hdefinition⟩ := bind_eq_ok.mp h
  rw [lookup_copyFields hdefinition hkey.2.2, Value.lookup_setItem, if_neg hkey.1,
    lookup_copyFields harchive hkey.2.1]

theorem lookup_recordingId {archive manifest manifest' : Members}
    (h : updateManifest archive manifest = .ok manifest') :
    manifest'.lookup "recordingId" = archive.lookup "recordId" := by
  obtain ⟨next, harchive, hdefinition⟩ := bind_eq_ok.mp h
  rw [archiveFields, List.foldlM_cons] at harchive
  obtain ⟨first, hcopy, hrest⟩ := bind_eq_ok.mp harchive
  obtain ⟨value, hitem, hset⟩ := bind_eq_ok.mp hcopy
  obtain rfl : Value.setItem "recordingId" value manifest = first := Except.ok.inj hset
  have hvalue : archive.lookup "recordId" = some value := by
    unfold Value.item at hitem
    split at hitem
    · next found hfound => rw [hfound, Except.ok.inj hitem]
    · exact absurd hitem nofun
  rw [lookup_copyFields hdefinition (by decide), Value.lookup_setItem, if_neg (by decide),
    lookup_copyFields hrest (by decide), Value.lookup_setItem, if_pos rfl, hvalue]

/-! ## The checks of the recording process -/

theorem readTopics_resolved {excluded : List String} (resolved : Resolved excluded) :
    readTopics (.list (resolved.topics.map .str)) = some resolved.topics := by
  have hne : (!resolved.topics.isEmpty) = true := by
    rw [Bool.not_eq_true', List.isEmpty_eq_false_iff, ← List.length_pos_iff]
    exact resolved.count.1
  have hall : (resolved.topics.all (startsWith · "/")) = true :=
    List.all_eq_true.mpr fun topic htopic =>
      startsWith_of_isAbsolute (resolved.names topic htopic).2
  rw [readTopics, Value.asStrings_list_map_str]
  exact if_pos ⟨hne, hall⟩

theorem excludedName_value (excluded : ExcludedTopic) :
    excludedName excluded.value = some excluded.topic :=
  if_pos ⟨startsWith_of_isAbsolute excluded.isName.2, excluded.explained⟩

theorem mapM_excludedName (excluded : List ExcludedTopic) :
    (excluded.map ExcludedTopic.value).mapM excludedName =
      some (excluded.map ExcludedTopic.topic) := by
  induction excluded with
  | nil => rfl
  | cons first rest ih =>
      rw [List.map_cons, List.mapM_cons, excludedName_value, ih]
      rfl

theorem profile_read_text (profile : Profile) :
    Profile.read (.str profile.text) = some profile := by
  cases profile with
  | general => rfl
  | cameraScientific => rfl

theorem compression_read_text (compression : Compression) :
    Compression.read compression.text = some compression := by
  cases compression with
  | none => rfl
  | lz4 => rfl
  | bz2 => rfl

namespace Prepared

variable (prepared : Prepared)

def capacity : Capacity where
  splitSize := prepared.parameters.splitSizeMiB.1
  maxSplits := prepared.parameters.maxSplits.1
  minSpaceGib := prepared.parameters.minFreeSpaceGiB.1
  durationMinutes := prepared.parameters.expectedDurationMinutes.1
  bitrateMbps := prepared.parameters.estimatedVideoBitrateMbps.1.toDouble
  safetyFactor := prepared.parameters.capacitySafetyFactor.1.toDouble

theorem inRange_capacity : prepared.capacity.inRange = true := by
  have hbitrate := Number.lt_ofInt_eq_false prepared.parameters.estimatedVideoBitrateMbps.2.2
    (by decide) (by decide)
  have hsafety := Number.lt_ofInt_eq_false prepared.parameters.capacitySafetyFactor.2.2
    (by decide) (by decide)
  have hsplit := prepared.parameters.splitSizeMiB.2
  have hsplits := prepared.parameters.maxSplits.2
  have hspace := prepared.parameters.minFreeSpaceGiB.2
  have hduration := prepared.parameters.expectedDurationMinutes.2
  simp only [Capacity.inRange, capacity, hbitrate, hsafety, Bool.or_false, Bool.not_eq_true',
    Bool.or_eq_false_iff]
  exact ⟨⟨⟨decide_eq_false (Int.not_lt.mpr hsplit.1), decide_eq_false (Int.not_lt.mpr hsplits.1)⟩,
    decide_eq_false (Int.not_lt.mpr hspace.1)⟩, decide_eq_false (Int.not_lt.mpr hduration.1)⟩

theorem plannedBytes_capacity :
    prepared.capacity.plannedBytes = prepared.parameters.plannedBytes := by
  rw [Capacity.plannedBytes, Parameters.plannedBytes, Int.mul_assoc _ 1024 1024]
  rfl

/-- The session that the recording process reads from the arguments. -/
def session (output : String) : Session where
  root := prepared.parameters.rosInstallPath
  outputPrefix := dropExtension output
  topics := prepared.resolved.topics
  excludedNames := prepared.parameters.excludedNames
  recordAllTopics := prepared.parameters.recordAllTopics
  exclusionPattern :=
    if prepared.parameters.recordAllTopics then
      exclusionPattern prepared.resolved.topics prepared.parameters.excludedNames
    else ""
  namesOutput := true
  profile := prepared.parameters.recordingProfile
  compression := prepared.parameters.compression
  repeatLatched := prepared.parameters.repeatLatched
  capacity := prepared.capacity
  expectedBytes := prepared.estimated
  stopLimitBytes :=
    match prepared.parameters.recordingProfile with
    | .general => prepared.capacity.plannedBytes
    | .cameraScientific => 10 * 1024 ^ 3

theorem disjoint_session (output : String) :
    (prepared.session output).excludedNames.any (prepared.session output).topics.contains =
      false := by
  rw [List.any_eq_false]
  intro name hname hcontains
  exact prepared.resolved.disjoint name hname (List.contains_iff_mem.mp hcontains)

theorem utf8ByteSize_pattern :
    (exclusionPattern prepared.resolved.topics prepared.parameters.excludedNames).utf8ByteSize =
      patternBytes prepared.resolved.topics prepared.parameters.excludedNames := by
  refine utf8ByteSize_exclusionPattern ?_ ?_
  · intro topic htopic
    exact (prepared.resolved.names topic htopic).2
  · intro name hname
    obtain ⟨excluded, -, rfl⟩ := List.mem_map.mp hname
    exact excluded.isName.2

end Prepared

namespace Describes

variable {prepared : Prepared} {manifest : Members} (h : Describes prepared manifest)
include h

/-- The fields of the archive are none that the preparation has set. -/
theorem update {archive manifest' : Members}
    (hupdate : updateManifest archive manifest = .ok manifest') :
    Describes prepared manifest' where
  schemaVersion := (lookup_updateManifest hupdate (by decide)).trans h.schemaVersion
  naming := (lookup_updateManifest hupdate (by decide)).trans h.naming
  profile := (lookup_updateManifest hupdate (by decide)).trans h.profile
  recordAll := (lookup_updateManifest hupdate (by decide)).trans h.recordAll
  excluded := (lookup_updateManifest hupdate (by decide)).trans h.excluded
  topics := (lookup_updateManifest hupdate (by decide)).trans h.topics
  estimatedBytes := (lookup_updateManifest hupdate (by decide)).trans h.estimatedBytes
  limit := (lookup_updateManifest hupdate (by decide)).trans h.limit

theorem readManifest_eq :
    readManifest prepared.resolved.topics (.dict manifest) = some manifest := by
  refine if_pos ⟨?_, ?_⟩
  · rw [Value.get, h.schemaVersion]
    rfl
  · rw [Value.get, h.topics]
    exact Value.asStrings_list_map_str _

theorem readExcluded_eq : readExcluded manifest = some prepared.parameters.excludedNames := by
  rw [readExcluded, Value.get, h.excluded, Option.getD_some]
  cases hexcluded : prepared.parameters.excludedTopics with
  | nil =>
      rw [Parameters.excludedNames, hexcluded]
      rfl
  | cons first rest =>
      rw [Parameters.excludedNames, hexcluded]
      exact mapM_excludedName (first :: rest)

theorem checkNaming_eq {id : String} (hid : manifest.lookup "recordingId" = some (.str id))
    (hrecord : isRecordId id = true) : checkNaming manifest = .ok true := by
  rw [checkNaming, Value.getOr, h.naming, Value.get, hid]
  simp only [Option.getD_some, hrecord, Bool.or_true]
  rfl

theorem stopLimit_eq (output : String) :
    stopLimit prepared.parameters.recordingProfile prepared.capacity.plannedBytes manifest =
      some (prepared.session output).stopLimitBytes := by
  have hlimit := h.limit
  rw [Prepared.session]
  cases hprofile : prepared.parameters.recordingProfile with
  | general => rfl
  | cameraScientific =>
      rw [hprofile] at hlimit
      rw [stopLimit, Value.get, hlimit]
      rfl

end Describes

theorem exists_of_recordArguments {host : Host} {document : Document} {archiveValue : Value}
    {launch : Launch} (h : host.recordArguments document archiveValue = .ok launch) :
    ∃ prepared archive output manifest, host.prepare document false = .ok prepared ∧
      archiveValue = .dict archive ∧ updateManifest archive prepared.manifest = .ok manifest ∧
      launch.arguments = prepared.arguments output manifest := by
  simp only [Host.recordArguments, bind_eq_ok] at h
  obtain ⟨prepared, hprepare, archive, harchive, _, _, _, _, output, _, manifest, hupdate, _, _,
    ⟨⟩⟩ := h
  refine ⟨prepared, archive, output, manifest, hprepare, ?_, hupdate, rfl⟩
  cases archiveValue with
  | dict members => rw [Except.ok.inj harchive]
  | _ => exact absurd harchive nofun

/-- A recording whose exclusion pattern is too large is refused. -/
theorem refused_of_oversized {host : Host} {document : Document} {archive : Value}
    {launch : Launch} (h : host.recordArguments document archive = .ok launch) {prepared : Prepared}
    (hprepare : host.prepare document false = .ok prepared)
    (hall : prepared.parameters.recordAllTopics = true)
    (hsize : 96 * 1024 <
      patternBytes prepared.resolved.topics prepared.parameters.excludedNames) :
    host.toRuntime.validate launch.arguments =
      .error (.exit "ROS bag exclusion pattern exceeds 96KiB") := by
  obtain ⟨prepared', archive, output, manifest, hprepare', -, hupdate, hlaunch⟩ :=
    exists_of_recordArguments h
  obtain rfl : prepared = prepared' := Except.ok.inj (hprepare.symm.trans hprepare')
  have hdescribes := (describes_of_prepare hprepare).update hupdate
  have htruthy : (Value.getOr manifest "recordAllTopics" (.bool false)).truthy = true := by
    rw [Value.getOr, hdescribes.recordAll, hall]
    rfl
  have hpattern : buildPattern true prepared.resolved.topics prepared.parameters.excludedNames =
      .error (.exit "ROS bag exclusion pattern exceeds 96KiB") := by
    rw [buildPattern, if_pos rfl, prepared.utf8ByteSize_pattern, if_pos hsize]
  have hdisjoint := prepared.disjoint_session output
  rw [Prepared.session] at hdisjoint
  simp only [hlaunch, Runtime.validate, Prepared.arguments, Runtime.readJson, uncaught, ok_bind,
    readTopics_resolved, requireSome, hdescribes.readManifest_eq, hdescribes.readExcluded_eq,
    require, hdisjoint, htruthy, hpattern, Bool.not_false, if_pos]
  rfl

/-- **A prepared recording is not refused.**  The arguments that are built from an accepted
request pass every check of the recording process, exactly if the exclusion pattern of a
recording of all topics does not exceed the bound on its size. -/
theorem prepared_recording_accepted {host : Host} {document : Document} {archive : Members}
    {launch : Launch} (h : host.recordArguments document (.dict archive) = .ok launch) {id : String}
    (hid : archive.lookup "recordId" = some (.str id)) (hrecord : isRecordId id = true) :
    (∃ session, host.toRuntime.validate launch.arguments = .ok session) ↔
      ∀ prepared, host.prepare document false = .ok prepared →
        prepared.parameters.recordAllTopics = true →
        patternBytes prepared.resolved.topics prepared.parameters.excludedNames ≤ 96 * 1024 := by
  constructor
  · rintro ⟨session, hsession⟩ prepared hprepare hall
    refine Nat.not_lt.mp fun hsize => ?_
    cases hsession.symm.trans (refused_of_oversized h hprepare hall hsize)
  intro hpattern
  obtain ⟨prepared, _, output, manifest, hprepare, ⟨⟩, hupdate, hlaunch⟩ :=
    exists_of_recordArguments h
  obtain ⟨hestimate, hcapacity⟩ := capacity_of_prepare hprepare
  have hdescribes := (describes_of_prepare hprepare).update hupdate
  have hrecordingId := (lookup_recordingId hupdate).trans hid
  have hbuilt : buildPattern prepared.parameters.recordAllTopics prepared.resolved.topics
      prepared.parameters.excludedNames = .ok (prepared.session output).exclusionPattern := by
    unfold buildPattern Prepared.session
    by_cases hall : prepared.parameters.recordAllTopics = true
    · rw [if_pos hall, if_pos hall, prepared.utf8ByteSize_pattern, if_neg]
      exact Nat.not_lt.mpr (hpattern prepared hprepare hall)
    · rw [if_neg hall, if_neg hall]
  refine ⟨prepared.session output, Runtime.validate_eq_ok.mpr ⟨manifest, ?_⟩⟩
  rw [hlaunch]
  exact
    { topics := ⟨_, rfl, readTopics_resolved prepared.resolved⟩
      document := ⟨_, rfl, hdescribes.readManifest_eq⟩
      excluded := hdescribes.readExcluded_eq
      disjoint := prepared.disjoint_session output
      recordAll := by
        rw [Value.getOr, hdescribes.recordAll]
        rfl
      pattern := hbuilt
      naming := hdescribes.checkNaming_eq hrecordingId hrecord
      profile := by
        rw [Value.get, hdescribes.profile]
        exact profile_read_text _
      compression := compression_read_text _
      repeatLatched := by
        cases hrepeat : prepared.parameters.repeatLatched with
        | false => simp [Prepared.arguments, Prepared.session, hrepeat, readFlag]
        | true => simp [Prepared.arguments, Prepared.session, hrepeat, readFlag]
      capacity := rfl
      inRange := prepared.inRange_capacity
      estimate := hestimate
      limit := hdescribes.stopLimit_eq output
      estimated := by
        rw [Value.get, hdescribes.estimatedBytes]
        exact beq_self_eq_true _
      planned := by
        rw [← prepared.plannedBytes_capacity] at hcapacity
        exact hcapacity
      root := rfl
      outputPrefix := rfl }

/-! ## A request at the bounds -/

/-- Names that are read as they stand: sorted, and without spaces around them. -/
structure Selected (names : List String) : Prop where
  sorted : names.Pairwise (· < ·)
  isName : ∀ name ∈ names, IsName isAbsolute name
  stripped : ∀ name ∈ names, strip name = name

namespace Selected

variable {names : List String}

theorem sortedSet_strip (h : Selected names) : sortedSet (names.map strip) = names := by
  have hmap : names.map strip = names :=
    (List.map_congr_left h.stripped).trans (List.map_id names)
  rw [hmap, sortedSet_of_sorted h.sorted]

theorem graphNames_eq (h : Selected names) (name : String) {maximum : Nat}
    (hlength : names.length ≤ maximum) :
    graphNames name (.list (names.map .str)) isAbsolute maximum = .ok ⟨names, h.isName⟩ := by
  have hnames : ∀ n ∈ sortedSet (names.map strip), IsName isAbsolute n := by
    rw [h.sortedSet_strip]
    exact h.isName
  rw [graphNames, Value.asStrings_list_map_str]
  simp only [gt_iff_lt, Nat.not_lt.mpr hlength, if_false, dif_pos hnames]
  exact congrArg Except.ok (Subtype.ext h.sortedSet_strip)

theorem tail {first : String} (h : Selected (first :: names)) : Selected names where
  sorted := (List.pairwise_cons.mp h.sorted).2
  isName := fun name hname => h.isName name (List.mem_cons_of_mem _ hname)
  stripped := fun name hname => h.stripped name (List.mem_cons_of_mem _ hname)

end Selected

/-- An excluded topic as a request names it. -/
def excludedValue (topic : String) : Value :=
  .dict [("topic", .str topic), ("reason", .str "large")]

theorem readExcludedTopic_eq {topic : String} {seen : List String} (hname : IsName isAbsolute topic)
    (hstrip : strip topic = topic) (hseen : topic ∉ seen) :
    readExcludedTopic seen (excludedValue topic) = .ok ⟨topic, "large", hname, by decide⟩ := by
  have hselected : Selected [topic] :=
    ⟨List.pairwise_singleton _ _, fun _ h => List.mem_singleton.mp h ▸ hname,
      fun _ h => List.mem_singleton.mp h ▸ hstrip⟩
  have hgraph : graphName "excluded topic" (.str topic) isAbsolute = .ok ⟨topic, hname⟩ :=
    bind_eq_ok.mpr ⟨_, hselected.graphNames_eq "excluded topic" (Nat.le_refl 1), rfl⟩
  refine bind_eq_ok.mpr ⟨(), rfl, bind_eq_ok.mpr ⟨_, hgraph, bind_eq_ok.mpr ⟨"large", rfl, ?_⟩⟩⟩
  exact dif_pos ⟨hseen, by decide, by decide⟩

theorem readExcludedTopics_eq {names : List String} (h : Selected names) {seen : List String}
    (hseen : ∀ name ∈ names, name ∉ seen) :
    ∃ excluded, readExcludedTopics seen (names.map excludedValue) = .ok excluded ∧
      excluded.map ExcludedTopic.topic = names := by
  induction names generalizing seen with
  | nil => exact ⟨[], rfl, rfl⟩
  | cons first names ih =>
      obtain ⟨hfirst, -⟩ := List.pairwise_cons.mp h.sorted
      have hrest : ∀ name ∈ names, name ∉ first :: seen := by
        intro name hname hmem
        rcases List.mem_cons.mp hmem with rfl | hmem
        · exact lt_irrefl _ (hfirst name hname)
        · exact hseen name (List.mem_cons_of_mem _ hname) hmem
      obtain ⟨rest, hread, htopics⟩ := ih h.tail hrest
      have hread' := readExcludedTopic_eq (h.isName first List.mem_cons_self)
        (h.stripped first List.mem_cons_self) (hseen first List.mem_cons_self)
      refine ⟨_, bind_eq_ok.mpr ⟨_, hread', bind_eq_ok.mpr ⟨rest, hread, rfl⟩⟩, ?_⟩
      rw [List.map_cons, htopics]

mutual

/-- The bytes of the JSON text of a value without floats and escapes. -/
def jsonBytes : Value → Nat
  | .null => 4
  | .bool b => if b then 4 else 5
  | .int n => (toString n).length
  | .float _ => 3
  | .str text => text.utf8ByteSize + 2
  | .list items => max 2 (jsonItemBytes items + 1)
  | .dict members => max 2 (jsonMemberBytes members + 1)
  | .object _ => 0

/-- Each item with a comma behind it. -/
def jsonItemBytes : List Value → Nat
  | [] => 0
  | item :: items => jsonBytes item + 1 + jsonItemBytes items

def jsonMemberBytes : List (String × Value) → Nat
  | [] => 0
  | (name, value) :: members =>
      name.utf8ByteSize + 4 + jsonBytes value + jsonMemberBytes members

end

/-- An installation as far as the requests below are concerned: only `null` is hashed, only
texts are compared and printed. -/
def sampleHost : Host where
  toRuntime := sampleRuntime
  copies := fun _ => true
  jsonSize := fun value => .ok (jsonBytes value)
  jsonDigest := fun
    | .null => .ok "74234e98afe7498fb5daf1f36ac2d78acc339464f950703b8c019892f982b90b"
    | _ => .ok ""
  equal := fun a b => a.asStr.isSome && a.asStr == b.asStr
  repr := fun value => "'" ++ value.asStr.getD "" ++ "'"
  str := fun value => value.asStr.getD ""
  mapping := fun value => .ok (value.asDict.getD [])
  normpath := fun path => String.ofList (PosixPath.normpath path.toList)
  dirname := fun path => String.ofList (PosixPath.dirname path.toList)
  joinPath := fun path name => String.ofList (PosixPath.join path.toList name.toList)
  extension := fun path =>
    let reversed := (PosixPath.basename path.toList).reverse
    if ((reversed.dropWhile (· != '.')).drop 1).all (· == '.') then ""
    else "." ++ String.ofList (reversed.takeWhile (· != '.')).reverse
  isMasterUrl := fun uri => .ok (startsWith uri "http://")

/-- A request to record all topics, for an experiment without robots. -/
def sampleDocument (topics excluded : List String) : Document where
  parameters :=
    [("recordAllTopics", .bool true), ("capacitySafetyFactor", .int 1),
      ("globalTopics", .list (topics.map .str)),
      ("excludedTopics", .list (excluded.map excludedValue))]
  robots :=
    [("robots", .list []), ("experimentResourceId", .str "experiment"),
      ("experimentCommitId", .str "commit"), ("experimentDigest", .str "digest"),
      ("robotSelectionDigest", .str "selection")]
  context :=
    [("runMode", .str "physical"), ("experimentName", .str "trial"), ("runId", .str "run"),
      ("rootRunId", .str "root"), ("targetId", .str "target")]

def sampleArchive : Members :=
  [("schemaVersion", .int 1), ("category", .str "Data"), ("extension", .str "bag"),
    ("workflowRunId", .str "run"), ("rootRunId", .str "root"), ("targetId", .str "target"),
    ("experimentId", .str "experiment"), ("experimentCommitId", .str "commit"),
    ("experimentDigest", .str "digest"), ("runMode", .str "physical"),
    ("outputPath", .str "/archive/Experiments/run-1/Data/run-1.bag"),
    ("outputDirectory", .str "/archive/Experiments/run-1/Data"),
    ("recordDirectory", .str "/archive/Experiments/run-1"), ("recordId", .str "run-1"),
    ("plannedAt", .str "2026-01-01T00:00:00Z"), ("invocationId", .str "invocation"),
    ("definitionId", .str "definition"), ("definitionDigest", .str "digest"),
    ("nodeId", .str "node")]

/-- The parameters of the request, with the defaults. -/
def sampleParameters (topics : Names isAbsolute) (excluded : List ExcludedTopic) : Parameters where
  recordingProfile := .general
  recordAllTopics := true
  includeMotionCapture := false
  repeatLatched := true
  splitSizeMiB := ⟨1024, by decide⟩
  maxSplits := ⟨10, by decide⟩
  minFreeSpaceGiB := ⟨2, by decide⟩
  expectedDurationMinutes := ⟨60, by decide⟩
  estimatedVideoBitrateMbps := ⟨.int 0, by decide⟩
  capacitySafetyFactor := ⟨.int 1, by decide⟩
  compression := .lz4
  rosInstallPath := "/opt/ros/noetic"
  rosMasterUri := "http://127.0.0.1:11311"
  rosIp := ""
  rosHostname := ""
  robotTopics := ⟨[], fun _ h => absurd h List.not_mem_nil⟩
  globalTopics := topics
  slotIds := ⟨[], fun _ h => absurd h List.not_mem_nil⟩
  cameras := []
  sessionId := none
  experimentResourceId := none
  experimentCommitId := none
  localizationOffset := none
  worldBoundary := none
  calibrationFiles := []
  algorithmSidecarFiles := []
  excludedTopics := excluded
  factParameters := []

/-- The parameters of the request as they are read, with the defaults applied. -/
def sampleMembers (topics names : List String) : Members :=
  (sampleDocument topics names).parameters ++
    [("splitSizeMiB", .int 1024), ("maxSplits", .int 10), ("minFreeSpaceGiB", .int 2),
      ("expectedDurationMinutes", .int 60), ("estimatedVideoBitrateMbps", .int 0),
      ("compression", .str "lz4"), ("repeatLatched", .bool true),
      ("includeMotionCapture", .bool false), ("rosInstallPath", .str "/opt/ros/noetic"),
      ("rosMasterUri", .str "http://127.0.0.1:11311"), ("rosIp", .str ""),
      ("rosHostname", .str "")]

theorem applyDefaults_sample (topics names : List String) :
    (defaults .general).foldl applyDefault (sampleDocument topics names).parameters =
      sampleMembers topics names := by
  simp [defaults, applyDefault, sampleDocument, sampleMembers, List.lookup_cons, Value.setItem,
    blankNames, isBlank, Value.equalsInt, Value.asStr]

theorem readParameters_sample {topics names : List String} {excluded : List ExcludedTopic}
    (htopics : Selected topics) (hlength : topics.length ≤ 256) (hne : topics ≠ [])
    (hnames : names.length ≤ 64)
    (hexcluded : readExcludedTopics [] (names.map excludedValue) = .ok excluded)
    (hsorted : sortedBy ExcludedTopic.topic excluded = excluded) :
    sampleHost.readParameters .general false (sampleMembers topics names) =
      .ok (sampleParameters ⟨topics, htopics.isName⟩ excluded) := by
  have hglobal := htopics.graphNames_eq "globalTopics" hlength
  have hcompression : readCompression .general (sampleMembers topics names) = .ok .lz4 := by
    have hread : Compression.read (lower "lz4") = some .lz4 := by decide
    have htext : text (sampleMembers topics names) "compression" = "lz4" := rfl
    rw [readCompression, htext, hread]
    rfl
  have hpath : ensure (sampleHost.isCleanPath "/opt/ros/noetic")
      "rosInstallPath must be a clean absolute path" = .ok () :=
    ensure_eq_ok.mpr (by decide)
  have hurl : sampleHost.isMasterUrl "http://127.0.0.1:11311" = .ok true :=
    congrArg Except.ok (by decide)
  have hbound : asBoundedList (.list (names.map excludedValue)) 64
      "excludedTopics exceeds its declared bound" = .ok (names.map excludedValue) := by
    rw [asBoundedList, List.length_map, if_neg (Nat.not_lt.mpr hnames)]
  have hselection : ensure (!([] : List String).isEmpty || !topics.isEmpty || false || false)
      "recorder requires explicit topic selection" = .ok () := by
    rw [ensure_eq_ok]
    simpa using hne
  have hbitrate : finiteBound 0 10000 (sampleMembers topics names) "estimatedVideoBitrateMbps" =
      .ok ⟨.int 0, by decide⟩ := finiteBound_int rfl (by decide) _
  have hsafety : finiteBound 1 4 (sampleMembers topics names) "capacitySafetyFactor" =
      .ok ⟨.int 1, by decide⟩ := finiteBound_int rfl (by decide) _
  simp only [Host.readParameters, bind_eq_ok]
  refine ⟨true, rfl, false, rfl, true, rfl, ⟨1024, by decide⟩, rfl, ⟨10, by decide⟩, rfl,
    ⟨2, by decide⟩, rfl, ⟨60, by decide⟩, rfl, ⟨.int 0, by decide⟩, hbitrate,
    ⟨.int 1, by decide⟩, hsafety,
    .lz4, hcompression, (), hpath, true, hurl, (), rfl, (), rfl,
    ⟨[], fun _ h => absurd h List.not_mem_nil⟩, rfl, ⟨topics, htopics.isName⟩, hglobal,
    ⟨[], fun _ h => absurd h List.not_mem_nil⟩, rfl, [], rfl, [], rfl, (), rfl, (), hselection,
    (), rfl, (), rfl, (), rfl, (), rfl, [], rfl, [], rfl, _, hbound, excluded, hexcluded, [], rfl,
    (), rfl, ?_⟩
  rw [hsorted]
  rfl

theorem normalizeParameters_sample {topics names : List String} {excluded : List ExcludedTopic}
    (htopics : Selected topics) (hlength : topics.length ≤ 256) (hne : topics ≠ [])
    (hnames : names.length ≤ 64)
    (hexcluded : readExcludedTopics [] (names.map excludedValue) = .ok excluded)
    (hsorted : sortedBy ExcludedTopic.topic excluded = excluded) :
    sampleHost.normalizeParameters (sampleDocument topics names).parameters
        (sampleDocument topics names).context false =
      .ok (sampleParameters ⟨topics, htopics.isName⟩ excluded, 0) := by
  have hprofile : readProfile (sampleDocument topics names).parameters = .ok .general := by
    have hread : Profile.read (.str (lower "general")) = some .general := by decide
    have htext : (((Value.get (sampleDocument topics names).parameters "recordingProfile").orElse
        (.str "general")).asStr).getD "" = "general" := rfl
    rw [readProfile, htext, hread]
  have hread := readParameters_sample htopics hlength hne hnames hexcluded hsorted
  simp only [Host.normalizeParameters, bind_eq_ok]
  refine ⟨_, rfl, (), rfl, (sampleDocument topics names).parameters, rfl,
    (sampleDocument topics names).parameters, rfl, .general, hprofile, _, ?_, 0, rfl, (), rfl, rfl⟩
  rw [applyDefaults_sample]
  exact hread

/-- Topics and excluded topics within the bounds of the preparation. -/
structure WithinBounds (topics names : List String) : Prop where
  recorded : Selected topics
  excluded : Selected names
  disjoint : ∀ name ∈ names, name ∉ topics
  nonempty : topics ≠ []
  topicCount : topics.length ≤ 256
  nameCount : names.length ≤ 64
  bytes : totalBytes topics ≤ 32768

/-- The request is accepted and its recording is launched. -/
theorem recordArguments_sample {topics names : List String} (h : WithinBounds topics names) :
    ∃ prepared launch, sampleHost.prepare (sampleDocument topics names) false = .ok prepared ∧
      sampleHost.recordArguments (sampleDocument topics names) (.dict sampleArchive) = .ok launch ∧
      prepared.parameters.recordAllTopics = true ∧ prepared.resolved.topics = topics ∧
      prepared.parameters.excludedNames = names := by
  obtain ⟨excluded, hexcluded, htopics⟩ :=
    readExcludedTopics_eq h.excluded (fun _ _ => List.not_mem_nil)
  have hsorted : sortedBy ExcludedTopic.topic excluded = excluded := by
    refine List.Pairwise.insertionSort_eq (List.pairwise_map.mp ?_)
    rw [htopics]
    exact h.excluded.sorted.imp le_of_lt
  have hnormalize := normalizeParameters_sample h.recorded h.topicCount h.nonempty h.nameCount
    hexcluded hsorted
  have hdisjoint : ∀ name ∈ (sampleParameters ⟨topics, h.recorded.isName⟩ excluded).excludedNames,
      name ∉ topics := by
    show ∀ name ∈ excluded.map ExcludedTopic.topic, name ∉ topics
    rw [htopics]
    exact h.disjoint
  have hcount : 1 ≤ topics.length ∧ topics.length ≤ 512 :=
    ⟨List.length_pos_iff.mpr h.nonempty, h.topicCount.trans (by decide)⟩
  have hresolve : sampleHost.resolveRecordingTopics
      (sampleParameters ⟨topics, h.recorded.isName⟩ excluded) (sampleDocument topics names).robots
      (.str "physical") (.str "") =
      .ok ⟨[], topics, hdisjoint, hcount, h.recorded.isName, h.bytes⟩ := by
    have hall : topics ++ [] ++ [] ++ [] = topics := by simp
    simp only [Host.resolveRecordingTopics, Host.resolveSelected, bind_eq_ok]
    refine ⟨.list [], rfl, [], rfl, ([], []), rfl, (), rfl, (), rfl, [], rfl, [], rfl, [], rfl, ?_⟩
    show sampleHost.finish _ [] (sortedSet (topics ++ [] ++ [] ++ [])) = _
    rw [hall, sortedSet_of_sorted h.recorded.sorted, Host.finish, dif_pos hdisjoint,
      dif_pos hcount, dif_pos h.recorded.isName, dif_pos h.bytes]
  have hprepare : ∃ prepared, sampleHost.prepare (sampleDocument topics names) false =
        .ok prepared ∧
      prepared.parameters = sampleParameters ⟨topics, h.recorded.isName⟩ excluded ∧
      prepared.resolved.topics = topics ∧
      sampleHost.agrees sampleArchive prepared.frozen = true := by
    simp only [Host.prepare, bind_eq_ok]
    refine ⟨_, ⟨_, hnormalize, (), rfl, (), rfl, .str "physical", rfl, .str "", rfl, _, hresolve,
      [], rfl, [], rfl, _, rfl, rfl⟩, rfl, rfl, ?_⟩
    rfl
  obtain ⟨prepared, hprepare, hparameters, hresolved, hagrees⟩ := hprepare
  have hlaunch : ∃ launch, sampleHost.recordArguments (sampleDocument topics names)
      (.dict sampleArchive) = .ok launch := by
    simp only [Host.recordArguments, bind_eq_ok, ensure_eq_ok]
    exact ⟨_, prepared, hprepare, sampleArchive, rfl, (), rfl, (), hagrees, _, rfl, _, rfl, _, rfl,
      rfl⟩
  obtain ⟨launch, hlaunch⟩ := hlaunch
  refine ⟨prepared, launch, hprepare, hlaunch, ?_, hresolved, ?_⟩
  · rw [hparameters]
    rfl
  · rw [Parameters.excludedNames, hparameters]
    exact htopics

/-- A request within all bounds, which is recorded. -/
theorem prepared_recording_accepted_sample :
    ∃ launch, sampleHost.recordArguments (sampleDocument ["/tf"] ["/camera/raw"])
        (.dict sampleArchive) = .ok launch ∧
      ∃ session, sampleHost.toRuntime.validate launch.arguments = .ok session := by
  have hbounds : WithinBounds ["/tf"] ["/camera/raw"] :=
    { recorded := ⟨by decide, by decide +kernel, by decide⟩
      excluded := ⟨by decide, by decide +kernel, by decide⟩
      disjoint := by decide
      nonempty := by decide
      topicCount := by decide
      nameCount := by decide
      bytes := by decide }
  obtain ⟨prepared, launch, hprepare, hlaunch, -, htopics, hnames⟩ := recordArguments_sample hbounds
  refine ⟨launch, hlaunch, (prepared_recording_accepted hlaunch rfl (by decide)).mpr ?_⟩
  intro prepared' hprepare' _
  obtain rfl : prepared = prepared' := Except.ok.inj (hprepare.symm.trans hprepare')
  rw [htopics, hnames]
  decide

/-! Names of the greatest length: a front of one segment or more that ends in a run of one
letter, and two letters that tell the names apart. -/

def letters : List Char := ['a', 'b', 'c', 'd', 'e', 'f', 'g', 'h']

def suffixes : List (List Char) := letters.flatMap fun c => letters.map fun d => [c, d]

def front (lead : List Char) (n : Nat) : List Char := '/' :: (lead ++ List.replicate (n + 1) 'a')

def longNames (lead : List Char) (n : Nat) (endings : List (List Char)) : List String :=
  endings.map fun ending => String.ofList (front lead n ++ ending)

theorem exists_of_mem_suffixes {ending : List Char} (h : ending ∈ suffixes) :
    ∃ c ∈ letters, ∃ d ∈ letters, ending = [c, d] := by
  obtain ⟨c, hc, hmem⟩ := List.mem_flatMap.mp h
  obtain ⟨d, hd, rfl⟩ := List.mem_map.mp hmem
  exact ⟨c, hc, d, hd, rfl⟩

theorem mem_suffixes {c d : Char} (hc : c ∈ letters) (hd : d ∈ letters) : [c, d] ∈ suffixes :=
  List.mem_flatMap.mpr ⟨c, hc, List.mem_map.mpr ⟨d, hd, rfl⟩⟩

theorem restOfSegment_replicate (n : Nat) (rest : List Char) :
    restOfSegment isNameStart (List.replicate n 'a' ++ rest) =
      restOfSegment isNameStart rest := by
  induction n with
  | zero => rfl
  | succ n ih =>
      rw [List.replicate_succ, List.cons_append, restOfSegment, ih]
      rfl

theorem utf8Len_replicate (n : Nat) : String.utf8Len (List.replicate n 'a') = n := by
  induction n with
  | zero => rfl
  | succ n ih =>
      rw [List.replicate_succ, String.utf8Len_cons, ih]
      rfl

section LongNames

variable {lead : List Char} {n : Nat} {endings : List (List Char)}

theorem utf8ByteSize_longName {c d : Char} (hc : c ∈ letters) (hd : d ∈ letters) :
    (String.ofList (front lead n ++ [c, d])).utf8ByteSize = String.utf8Len lead + n + 4 := by
  have hletter : ∀ e ∈ letters, e.utf8Size = 1 := by
    have hall : (letters.all fun e => e.utf8Size == 1) = true := by decide
    exact fun e he => beq_iff_eq.mp (List.all_eq_true.mp hall e he)
  have hslash : '/'.utf8Size = 1 := rfl
  rw [String.utf8ByteSize_ofList, front, String.utf8Len_append, String.utf8Len_cons,
    String.utf8Len_append, utf8Len_replicate, hslash]
  simp only [String.utf8Len_cons, String.utf8Len_nil, hletter c hc, hletter d hd]
  omega

theorem isAbsolute_longName
    (hlead : ∀ rest, segments isNameStart (lead ++ 'a' :: rest) = restOfSegment isNameStart rest)
    {c d : Char} (hc : c ∈ letters) (hd : d ∈ letters) :
    isAbsolute (String.ofList (front lead n ++ [c, d])) = true := by
  have hends : (suffixes.all fun ending => restOfSegment isNameStart ending) = true := by
    decide +kernel
  rw [isAbsolute, String.toList_ofList]
  show segments isNameStart (lead ++ List.replicate (n + 1) 'a' ++ [c, d]) = true
  rw [List.append_assoc, List.replicate_succ, List.cons_append, hlead, restOfSegment_replicate]
  exact List.all_eq_true.mp hends [c, d] (mem_suffixes hc hd)

theorem strip_longName {c d : Char} (hd : d ∈ letters) :
    strip (String.ofList (front lead n ++ [c, d])) = String.ofList (front lead n ++ [c, d]) := by
  have hall : (letters.all fun e => !isSpace e) = true := by decide
  have hspace : isSpace d = false := by simpa using List.all_eq_true.mp hall d hd
  have happend : front lead n ++ [c, d] =
      '/' :: ((lead ++ List.replicate (n + 1) 'a' ++ [c]) ++ [d]) := by
    simp [front]
  rw [happend]
  exact strip_of_not_isSpace (by decide) hspace

theorem selected_longNames
    (hlead : ∀ rest, segments isNameStart (lead ++ 'a' :: rest) = restOfSegment isNameStart rest)
    (hsize : String.utf8Len lead + n + 4 ≤ 1024) (hendings : endings.Sublist suffixes) :
    Selected (longNames lead n endings) where
  sorted := by
    have hsuffixes : suffixes.Pairwise (· < ·) := by decide +kernel
    refine List.pairwise_map.mpr ((hsuffixes.sublist hendings).imp fun hlt => ?_)
    rw [String.lt_iff_toList_lt, String.toList_ofList, String.toList_ofList]
    exact List.append_left_lt hlt
  isName := by
    intro name hname
    obtain ⟨ending, hending, rfl⟩ := List.mem_map.mp hname
    obtain ⟨c, hc, d, hd, rfl⟩ := exists_of_mem_suffixes (hendings.mem hending)
    exact ⟨(utf8ByteSize_longName hc hd).trans_le hsize, isAbsolute_longName hlead hc hd⟩
  stripped := by
    intro name hname
    obtain ⟨ending, hending, rfl⟩ := List.mem_map.mp hname
    obtain ⟨c, -, d, hd, rfl⟩ := exists_of_mem_suffixes (hendings.mem hending)
    exact strip_longName hd

theorem map_utf8ByteSize_longNames (hendings : endings.Sublist suffixes) :
    (longNames lead n endings).map String.utf8ByteSize =
      List.replicate endings.length (String.utf8Len lead + n + 4) := by
  rw [longNames, List.map_map, List.eq_replicate_iff, List.length_map]
  refine ⟨rfl, ?_⟩
  intro size hsize
  obtain ⟨ending, hending, rfl⟩ := List.mem_map.mp hsize
  obtain ⟨c, hc, d, hd, rfl⟩ := exists_of_mem_suffixes (hendings.mem hending)
  exact utf8ByteSize_longName hc hd

theorem totalBytes_longNames (hendings : endings.Sublist suffixes) :
    totalBytes (longNames lead n endings) = endings.length * (String.utf8Len lead + n + 4) := by
  rw [totalBytes, map_utf8ByteSize_longNames hendings, List.sum_replicate_nat]

theorem joinedBytes_longNames (hendings : endings.Sublist suffixes) :
    joinedBytes (longNames lead n endings) = endings.length * (String.utf8Len lead + n + 5) := by
  have hmap : (longNames lead n endings).map (fun name => name.utf8ByteSize + 1) =
      ((longNames lead n endings).map String.utf8ByteSize).map (· + 1) := by
    rw [List.map_map]
    rfl
  rw [joinedBytes, hmap, map_utf8ByteSize_longNames hendings, List.map_replicate,
    List.sum_replicate_nat]

end LongNames

/-- Copies of 32768 bytes in all. -/
def longTopics : List String := longNames "xgc/display/".toList 1008 (suffixes.take 32)

/-- As many excluded topics of the greatest length as are allowed. -/
def longExcluded : List String := longNames [] 1020 suffixes

theorem segments_display (rest : List Char) :
    segments isNameStart ("xgc/display/".toList ++ 'a' :: rest) =
      restOfSegment isNameStart rest := by
  simp [segments, restOfSegment, isNameStart, isWord]

theorem segments_letter (rest : List Char) :
    segments isNameStart ([] ++ 'a' :: rest) = restOfSegment isNameStart rest := by
  simp [segments, isNameStart]

/-- The first letters differ. -/
theorem front_append_ne (m n : Nat) (a b : List Char) :
    front [] m ++ a ≠ front "xgc/display/".toList n ++ b := by
  intro h
  simp [front, List.replicate_succ] at h

theorem withinBounds_long : WithinBounds longTopics longExcluded where
  recorded := selected_longNames segments_display (by decide) (List.take_sublist _ _)
  excluded := selected_longNames segments_letter (by decide) (List.Sublist.refl _)
  disjoint := by
    intro name hexcluded htopic
    obtain ⟨_, -, rfl⟩ := List.mem_map.mp hexcluded
    obtain ⟨_, -, heq⟩ := List.mem_map.mp htopic
    exact front_append_ne _ _ _ _ (String.ofList_injective heq).symm
  nonempty := by
    intro h
    exact absurd (List.map_eq_nil_iff.mp h) (by decide)
  topicCount := by
    rw [longTopics, longNames, List.length_map]
    decide
  nameCount := by
    rw [longExcluded, longNames, List.length_map]
    decide
  bytes := by
    rw [longTopics, totalBytes_longNames (List.take_sublist _ _)]
    decide

theorem explicitCopies_longTopics : explicitCopies longTopics = longTopics := by
  refine List.filter_eq_self.mpr fun topic htopic => ?_
  obtain ⟨ending, -, rfl⟩ := List.mem_map.mp htopic
  have hlead : "/xgc/display/".toList = '/' :: "xgc/display/".toList := by decide
  refine startsWith_iff.mpr ⟨List.replicate (1008 + 1) 'a' ++ ending, ?_⟩
  rw [String.toList_ofList, front, hlead, List.cons_append, List.append_assoc, List.cons_append]

theorem patternBytes_long : patternBytes longTopics longExcluded = 98434 := by
  have hne : longTopics.isEmpty = false := by
    rw [List.isEmpty_eq_false_iff]
    exact withinBounds_long.nonempty
  rw [patternBytes, explicitCopies_longTopics, hne, longTopics, longExcluded,
    joinedBytes_longNames (List.Sublist.refl _), joinedBytes_longNames (List.take_sublist _ _)]
  decide

/-- A request that the preparation accepts, and whose recording is refused. -/
theorem prepared_recording_refused :
    ∃ document launch,
      sampleHost.recordArguments document (.dict sampleArchive) = .ok launch ∧
      sampleArchive.lookup "recordId" = some (.str "run-1") ∧ isRecordId "run-1" = true ∧
      sampleHost.toRuntime.validate launch.arguments =
        .error (.exit "ROS bag exclusion pattern exceeds 96KiB") := by
  obtain ⟨prepared, launch, hprepare, hlaunch, hall, htopics, hnames⟩ :=
    recordArguments_sample withinBounds_long
  refine ⟨_, launch, hlaunch, rfl, by decide, refused_of_oversized hlaunch hprepare hall ?_⟩
  rw [htopics, hnames, patternBytes_long]
  decide

end Ros1Tools.Recording
