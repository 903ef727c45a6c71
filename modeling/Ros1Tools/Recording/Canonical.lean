import Ros1Tools.Lib.Objects
import Ros1Tools.Recording.Agreement

/-!
# Canonical parameters

The names in normalized parameters are stripped, match the grammar that they were checked
against and are distinct, and most lists of them are sorted.  The loops that establish this are
written separately in the source; they have in common that a name is compared with those seen
before it, which `readEach` says once.

`normalizeInPlace` is the same normalization with the assignments that it makes.  All of them
are made to a copy, so nothing that existed before is changed.
-/

namespace Ros1Tools.Recording

open Lib Lib.Python

/-! ## Names -/

/-- Names without surrounding spaces that match a pattern, each once. -/
structure CleanNames (pattern : String → Bool) (names : List String) : Prop where
  stripped : ∀ name ∈ names, strip name = name
  isName : ∀ name ∈ names, IsName pattern name
  distinct : names.Nodup

structure SortedNames (pattern : String → Bool) (names : List String) : Prop
    extends CleanNames pattern names where
  sorted : names.Pairwise (· ≤ ·)

theorem mem_sortedSet {texts : List String} {text : String} :
    text ∈ sortedSet texts ↔ text ∈ texts := by
  rw [sortedSet, (List.perm_insertionSort _ _).mem_iff, List.mem_dedup]

theorem nodup_sortedSet (texts : List String) : (sortedSet texts).Nodup :=
  (List.perm_insertionSort _ _).nodup_iff.mpr (List.nodup_dedup texts)

theorem pairwise_sortedSet (texts : List String) : (sortedSet texts).Pairwise (· ≤ ·) :=
  List.pairwise_insertionSort _ _

theorem sortedNames_of_graphNames {name : String} {values : Value} {pattern : String → Bool}
    {maximum : Nat} {names : Names pattern}
    (h : graphNames name values pattern maximum = .ok names) : SortedNames pattern names.1 := by
  obtain ⟨texts, -, hnames⟩ := graphNames_eq_ok h
  refine ⟨⟨fun name hname => ?_, names.2, ?_⟩, ?_⟩
  · rw [hnames, mem_sortedSet] at hname
    obtain ⟨text, -, rfl⟩ := List.mem_map.mp hname
    exact strip_strip text
  · exact hnames ▸ nodup_sortedSet _
  · exact hnames ▸ pairwise_sortedSet _

theorem strip_of_graphName {name : String} {value : Value} {pattern : String → Bool}
    {found : { text : String // IsName pattern text }}
    (h : graphName name value pattern = .ok found) : strip found.1 = found.1 := by
  obtain ⟨text, -, hfound⟩ := graphName_eq_ok h
  rw [hfound, strip_strip]

/-- Sorting by the name keeps the names and puts them in order. -/
theorem sortedNames_sortedBy {α : Type} {key : α → String} {pattern : String → Bool}
    {items : List α} (h : CleanNames pattern (items.map key)) :
    SortedNames pattern ((sortedBy key items).map key) := by
  have hperm : ((sortedBy key items).map key).Perm (items.map key) :=
    (List.perm_insertionSort _ items).map key
  refine ⟨⟨fun name hname => h.stripped name (hperm.mem_iff.mp hname),
    fun name hname => h.isName name (hperm.mem_iff.mp hname), hperm.nodup_iff.mpr h.distinct⟩, ?_⟩
  rw [List.pairwise_map]
  exact List.pairwise_insertionSort (fun a b => key a ≤ key b) items

/-! ## Loops that remember names -/

section ReadEach

variable {α : Type} (key : α → String) (read : List String → Value → Except Exception α)

/-- Reads the values one by one, each with the keys of those before it. -/
def readEach : List String → List Value → Except Exception (List α)
  | _, [] => .ok []
  | seen, value :: values => do
      let item ← read seen value
      let items ← readEach (key item :: seen) values
      return item :: items

variable {key read}

theorem readEach_eq_ok (hnew : ∀ seen value item, read seen value = .ok item → key item ∉ seen)
    {seen : List String} {values : List Value} {items : List α}
    (h : readEach key read seen values = .ok items) :
    List.Forall₂ (fun value item => ∃ seen, read seen value = .ok item) values items ∧
      (items.map key).Nodup ∧ ∀ item ∈ items, key item ∉ seen := by
  induction values generalizing seen items with
  | nil =>
      cases h
      exact ⟨.nil, List.nodup_nil, nofun⟩
  | cons value values ih =>
      obtain ⟨item, hitem, h⟩ := bind_eq_ok.mp h
      obtain ⟨rest, hrest, h⟩ := bind_eq_ok.mp h
      cases h
      obtain ⟨hread, hnodup, hseen⟩ := ih hrest
      refine ⟨.cons ⟨seen, hitem⟩ hread, List.nodup_cons.mpr ⟨fun hmem => ?_, hnodup⟩, ?_⟩
      · obtain ⟨other, hother, hkey⟩ := List.mem_map.mp hmem
        exact hseen other hother (hkey ▸ List.mem_cons_self)
      · refine List.forall_mem_cons.mpr ⟨hnew seen value item hitem, fun other hother hmem => ?_⟩
        exact hseen other hother (List.mem_cons_of_mem _ hmem)

/-- What holds of every item that is read. -/
theorem forall_of_readEach {P : α → Prop}
    (hread : ∀ seen value item, read seen value = .ok item → P item)
    {values : List Value} {items : List α}
    (h : List.Forall₂ (fun value item => ∃ seen, read seen value = .ok item) values items) :
    ∀ item ∈ items, P item := by
  induction h with
  | nil => exact nofun
  | cons hitem _ ih =>
      obtain ⟨seen, hitem⟩ := hitem
      exact List.forall_mem_cons.mpr ⟨hread seen _ _ hitem, ih⟩

end ReadEach

theorem not_mem_of_contains {seen : List String} {text : String}
    (h : (!seen.contains text) = true) : text ∉ seen := by
  simpa using h

/-! ### Cameras -/

theorem readCameras_eq (seen : List String) (values : List Value) :
    readCameras seen values = readEach Camera.root readCamera seen values := by
  induction values generalizing seen with
  | nil => rfl
  | cons value values ih => simp only [readCameras, readEach, ih]

theorem readCamera_eq_ok {seen : List String} {value : Value} {camera : Camera}
    (h : readCamera seen value = .ok camera) :
    camera.root ∉ seen ∧ (strip camera.root = camera.root ∧ IsName isAbsolute camera.root) ∧
      SortedNames isRelative camera.topics := by
  simp only [readCamera, bind_eq_ok, ensure_eq_ok] at h
  obtain ⟨_, -, root, hroot, _, hseen, topics, htopics, _, -, ⟨⟩⟩ := h
  exact ⟨not_mem_of_contains hseen, ⟨strip_of_graphName hroot, root.2⟩,
    sortedNames_of_graphNames htopics⟩

theorem canonical_of_readCameras {values : List Value} {cameras : List Camera}
    (h : readCameras [] values = .ok cameras) :
    CleanNames isAbsolute (cameras.map Camera.root) ∧
      ∀ camera ∈ cameras, SortedNames isRelative camera.topics := by
  rw [readCameras_eq] at h
  obtain ⟨hread, hnodup, -⟩ := readEach_eq_ok (fun _ _ _ h => (readCamera_eq_ok h).1) h
  have hroots := forall_of_readEach (fun _ _ _ h => (readCamera_eq_ok h).2) hread
  refine ⟨⟨?_, ?_, hnodup⟩, fun camera hcamera => (hroots camera hcamera).2⟩
  · exact List.forall_mem_map.mpr fun camera hcamera => (hroots camera hcamera).1.1
  · exact List.forall_mem_map.mpr fun camera hcamera => (hroots camera hcamera).1.2

/-! ### Files -/

theorem readFiles_eq (host : Host) (name : String) (extensions seen : List String)
    (values : List Value) :
    host.readFiles name extensions seen values =
      readEach SidecarFile.role (host.readFile name extensions) seen values := by
  induction values generalizing seen with
  | nil => rfl
  | cons value values ih => simp only [Host.readFiles, readEach, ih]

theorem not_mem_of_readFile {host : Host} {name : String} {extensions seen : List String}
    {value : Value} {file : SidecarFile} (h : host.readFile name extensions seen value = .ok file) :
    file.role ∉ seen := by
  simp only [Host.readFile, bind_eq_ok, ensure_eq_ok, Bool.and_eq_true] at h
  obtain ⟨_, -, role, -, path, -, _, ⟨⟨⟨-, hseen⟩, -⟩, -⟩, h⟩ := h
  generalize strip role = stripped at hseen h
  generalize strip path = clean at h
  cases h
  exact not_mem_of_contains hseen

theorem nodup_of_sidecarFiles {host : Host} {p : Members} {name : String}
    {extensions : List String} {files : List SidecarFile}
    (h : host.sidecarFiles p name extensions = .ok files) :
    (files.map SidecarFile.role).Nodup := by
  obtain ⟨values, -, h⟩ := bind_eq_ok.mp h
  rw [readFiles_eq] at h
  exact (readEach_eq_ok (fun _ _ _ h => not_mem_of_readFile h) h).2.1

/-! ### Excluded topics -/

theorem readExcludedTopics_eq_readEach (seen : List String) (values : List Value) :
    readExcludedTopics seen values =
      readEach ExcludedTopic.topic readExcludedTopic seen values := by
  induction values generalizing seen with
  | nil => rfl
  | cons value values ih => simp only [readExcludedTopics, readEach, ih]

theorem readExcludedTopic_eq_ok {seen : List String} {value : Value} {excluded : ExcludedTopic}
    (h : readExcludedTopic seen value = .ok excluded) :
    excluded.topic ∉ seen ∧ strip excluded.topic = excluded.topic := by
  simp only [readExcludedTopic, bind_eq_ok] at h
  obtain ⟨_, -, topic, htopic, reason, -, h⟩ := h
  split at h
  · rename_i hnew
    cases h
    exact ⟨hnew.1, strip_of_graphName htopic⟩
  · cases h

theorem canonical_of_readExcludedTopics {values : List Value} {excluded : List ExcludedTopic}
    (h : readExcludedTopics [] values = .ok excluded) :
    CleanNames isAbsolute (excluded.map ExcludedTopic.topic) := by
  rw [readExcludedTopics_eq_readEach] at h
  obtain ⟨hread, hnodup, -⟩ := readEach_eq_ok (fun _ _ _ h => (readExcludedTopic_eq_ok h).1) h
  have hstripped := forall_of_readEach (fun _ _ _ h => (readExcludedTopic_eq_ok h).2) hread
  exact ⟨List.forall_mem_map.mpr hstripped, List.forall_mem_map.mpr fun topic _ => topic.isName,
    hnodup⟩

/-! ### Fact parameters -/

/-- The name under which the recording asks for a fact: `fact["name"]`. -/
def factName (fact : Value) : String := text (fact.asDict.getD []) "name"

/-- The names of the fact parameters. -/
def Parameters.factNames (p : Parameters) : List String := p.factParameters.map factName

theorem checkFacts_eq (host : Host) (seen : List String) (values : List Value) :
    host.checkFacts seen values = (readEach id host.checkFact seen values).map fun _ => () := by
  induction values generalizing seen with
  | nil => rfl
  | cons value values ih =>
      rw [Host.checkFacts, readEach, map_bind]
      congr 1
      funext name
      rw [ih, map_bind]
      show _ = readEach id host.checkFact (name :: seen) values >>= fun names => .ok ()
      cases readEach id host.checkFact (name :: seen) values with
      | error exc => rfl
      | ok names => rfl

/-- The name that is checked is not the one that is kept, but the stripped one. -/
theorem checkFact_eq_ok {host : Host} {seen : List String} {value : Value} {name : String}
    (h : host.checkFact seen value = .ok name) :
    name ∉ seen ∧ name = strip (factName value) ∧ IsName isAbsolute name := by
  simp only [Host.checkFact, bind_eq_ok, ensure_eq_ok, Bool.and_eq_true] at h
  obtain ⟨_, -, found, hfound, _, -, _, ⟨⟨hseen, -⟩, -⟩, _, -, _, -, ⟨⟩⟩ := h
  obtain ⟨text, hget, hname⟩ := graphName_eq_ok hfound
  refine ⟨not_mem_of_contains hseen, ?_, found.2⟩
  rw [hname, factName, Recording.text, hget]
  rfl

theorem eq_list_of_asBoundedList {value : Value} {maximum : Nat} {message : String}
    {items : List Value} (h : asBoundedList value maximum message = .ok items) :
    value = .list items := by
  unfold asBoundedList at h
  split at h
  · exact congrArg _ (Except.ok.inj (ite_error_eq_ok.mp h).2)
  · cases h

theorem canonical_of_checkFacts {host : Host} {values : List Value} {u : Unit}
    (h : host.checkFacts [] values = .ok u)
    (hstripped : ∀ name ∈ values.map factName, strip name = name) :
    CleanNames isAbsolute (values.map factName) := by
  rw [checkFacts_eq] at h
  cases hread : readEach id host.checkFact [] values with
  | error exc =>
      rw [hread] at h
      cases h
  | ok names =>
      obtain ⟨hfacts, hnodup, -⟩ := readEach_eq_ok (fun _ _ _ h => (checkFact_eq_ok h).1) hread
      have hnames := forall_of_readEach (fun _ _ _ h => (checkFact_eq_ok h).2.2) hfacts
      have heq : values.map factName = names := by
        clear h hread hnodup hnames
        induction hfacts with
        | nil => rfl
        | cons hfact _ ih =>
            obtain ⟨hfirst, hrest⟩ := List.forall_mem_cons.mp hstripped
            obtain ⟨seen, hfact⟩ := hfact
            rw [List.map_cons, ih hrest, ← hfirst, ← (checkFact_eq_ok hfact).2.1]
      rw [List.map_id'] at hnodup
      rw [heq] at hstripped ⊢
      exact ⟨hstripped, hnames, hnodup⟩

/-! ## The parameters -/

/-- What the recording relies on. -/
structure Parameters.Canonical (p : Parameters) : Prop where
  robotTopics : SortedNames isRelative p.robotTopics.1
  globalTopics : SortedNames isAbsolute p.globalTopics.1
  slotIds : SortedNames isSlotId p.slotIds.1
  cameras : SortedNames isAbsolute (p.cameras.map Camera.root)
  cameraTopics : ∀ camera ∈ p.cameras, SortedNames isRelative camera.topics
  excludedTopics : SortedNames isAbsolute p.excludedNames
  factParameters : CleanNames isAbsolute p.factNames
  calibrationFiles : (p.calibrationFiles.map SidecarFile.role).Nodup
  algorithmSidecarFiles : (p.algorithmSidecarFiles.map SidecarFile.role).Nodup

theorem canonical_of_readParameters {host : Host} {profile : Profile} {preview : Bool}
    {members : Members} {p : Parameters}
    (h : host.readParameters profile preview members = .ok p) :
    Value.getOr members "factParameters" (.list []) = .list p.factParameters ∧
      ((∀ name ∈ p.factNames, strip name = name) → p.Canonical) := by
  simp only [Host.readParameters, bind_eq_ok] at h
  obtain ⟨_, -, _, -, _, -, _, -, _, -, _, -, _, -, h⟩ := h
  obtain ⟨_, -, _, -, _, -, _, -, _, -, _, -, _, -, h⟩ := h
  obtain ⟨robotTopics, hrobot, globalTopics, hglobal, slotIds, hslots, _, -, h⟩ := h
  obtain ⟨cameras, hcameras, _, -, _, -, _, -, _, -, _, -, _, -, h⟩ := h
  obtain ⟨calibration, hcalibration, sidecar, hsidecar, _, -, excluded, hexcluded, h⟩ := h
  obtain ⟨facts, hfacts, _, hcheck, ⟨⟩⟩ := h
  obtain ⟨hroots, htopics⟩ := canonical_of_readCameras hcameras
  exact ⟨eq_list_of_asBoundedList hfacts, fun hstripped =>
    { robotTopics := sortedNames_of_graphNames hrobot
      globalTopics := sortedNames_of_graphNames hglobal
      slotIds := sortedNames_of_graphNames hslots
      cameras := sortedNames_sortedBy hroots
      cameraTopics := fun camera hcamera =>
        htopics camera ((List.perm_insertionSort _ cameras).mem_iff.mp hcamera)
      excludedTopics := sortedNames_sortedBy (canonical_of_readExcludedTopics hexcluded)
      factParameters := canonical_of_checkFacts hcheck hstripped
      calibrationFiles := nodup_of_sidecarFiles hcalibration
      algorithmSidecarFiles := nodup_of_sidecarFiles hsidecar }⟩

/-! ### The fact parameters of the request -/

/-- A loop over names other than the key leaves its member alone. -/
theorem lookup_foldlM {step : Members → String → Except Exception Members} {key : String}
    (hstep : ∀ p name p', key ≠ name → step p name = .ok p' → p'.lookup key = p.lookup key)
    {names : List String} (hkey : key ∉ names) {p p' : Members}
    (h : names.foldlM step p = .ok p') : p'.lookup key = p.lookup key := by
  induction names generalizing p with
  | nil =>
      cases h
      rfl
  | cons name names ih =>
      rw [List.mem_cons, not_or] at hkey
      obtain ⟨q, hq, h⟩ := bind_eq_ok.mp h
      rw [ih hkey.2 h, hstep p name q hkey.1 hq]

theorem lookup_overlay {host : Host} {context p p' : Members} {name key : String}
    (hkey : key ≠ name) (h : host.overlay context p name = .ok p') :
    p'.lookup key = p.lookup key := by
  unfold Host.overlay at h
  split at h
  · cases h
    rfl
  · obtain ⟨_, -, h⟩ := bind_eq_ok.mp h
    obtain ⟨_, -, ⟨⟩⟩ := bind_eq_ok.mp h
    rw [Value.lookup_setItem, if_neg hkey]

theorem lookup_stripText {p p' : Members} {name key : String} (hkey : key ≠ name)
    (h : stripText p name = .ok p') : p'.lookup key = p.lookup key := by
  unfold stripText at h
  split at h
  · cases h
    rfl
  · cases h
    rw [Value.lookup_setItem, if_neg hkey]
  · cases h

theorem lookup_applyDefault {p : Members} {entry : String × Value} {key : String}
    (hkey : key ≠ entry.1) : (applyDefault p entry).lookup key = p.lookup key := by
  unfold applyDefault
  repeat' split
  all_goals first | rfl | rw [Value.lookup_setItem, if_neg hkey]

theorem lookup_applyDefaults {entries : List (String × Value)} {p : Members} {key : String}
    (hkey : key ∉ entries.map Prod.fst) :
    (entries.foldl applyDefault p).lookup key = p.lookup key := by
  induction entries generalizing p with
  | nil => rfl
  | cons entry entries ih =>
      rw [List.map_cons, List.mem_cons, not_or] at hkey
      rw [List.foldl_cons, ih hkey.2, lookup_applyDefault hkey.1]

/-- The fact parameters that a request names. -/
def requestedFacts (members : Members) : List Value :=
  (Value.getOr members "factParameters" (.list [])).asList.getD []

/-- The fact parameters of the request are returned as they are. -/
theorem canonical_of_normalizeParameters {host : Host} {value context : Members} {preview : Bool}
    {p : Parameters} {estimated : Int}
    (h : host.normalizeParameters value context preview = .ok (p, estimated)) :
    p.factParameters = requestedFacts value ∧
      ((∀ name ∈ p.factNames, strip name = name) → p.Canonical) := by
  simp only [Host.normalizeParameters, bind_eq_ok] at h
  obtain ⟨_, -, _, -, _, hoverlay, _, hstrip, profile, -, _, hread, _, -, _, -, ⟨⟩⟩ := h
  obtain ⟨hfacts, hcanonical⟩ := canonical_of_readParameters hread
  have hdefaults : "factParameters" ∉ (defaults profile).map Prod.fst := by
    cases profile <;> decide
  rw [Value.getOr, lookup_applyDefaults hdefaults,
    lookup_foldlM (fun _ _ _ => lookup_stripText) (by decide) hstrip,
    lookup_foldlM (fun _ _ _ => lookup_overlay) (by decide) hoverlay, ← Value.getOr] at hfacts
  refine ⟨?_, hcanonical⟩
  rw [requestedFacts, hfacts]
  rfl

/-! ## The assignments -/

namespace InPlace

variable (limit : Nat)

/-- `p[name] = copy.deepcopy(context[name])`, if the context has it. -/
def copyContext (context : Ref) (frozen : Members) (p : Ref) (name : String) : Act PUnit :=
  if Value.hasKey frozen name then do
    let original ← Act.getItem context name
    let copy ← Act.deepcopy limit original
    Act.setItem p name copy
  else pure ()

/-- `p[name] = p[name].strip()`, if the parameter is given. -/
def assignStripped (p : Ref) (name : String) : Act PUnit := do
  let members ← Act.members p
  match members.lookup name with
  | none => pure ()
  | some item => do
      let data ← Act.value limit item
      let text ← Act.lift (Value.strFor "strip" data)
      Act.assign p name (.str (strip text))

def assignDefault (p : Ref) (entry : String × Value) : Act PUnit := do
  let members ← Act.members p
  match members.lookup entry.1 with
  | none => Act.assign p entry.1 entry.2
  | some item => do
      let data ← Act.value limit item
      if blankNames.contains entry.1 && isBlank data then Act.assign p entry.1 entry.2 else pure ()

/-- `p[name] = texts`. -/
def assignTexts (p : Ref) (name : String) (texts : List String) : Act PUnit :=
  Act.assign p name (.list (texts.map .str))

/-- An entry of a list is read, and two of its values are assigned to it. -/
def assignRead {α : Type} (read : Value → Except Exception α) (first second : String × (α → Value))
    (entry : Ref) : Act PUnit := do
  let data ← Act.value limit entry
  let item ← Act.lift (read data)
  Act.assign entry first.1 (first.2 item)
  Act.assign entry second.1 (second.2 item)

def assignCamera : Ref → Act PUnit :=
  assignRead limit (readCamera [])
    ("root", fun camera => .str camera.root)
    ("topics", fun camera => .list (camera.topics.map .str))

/-- `file.update(role=role, path=path)`. -/
def assignFile (host : Host) (name : String) (extensions : List String) : Ref → Act PUnit :=
  assignRead limit (host.readFile name extensions [])
    ("role", fun file => .str file.role)
    ("path", fun file => .str file.path)

/-- `excluded_topic.update(topic=topic, reason=reason)`. -/
def assignExcludedTopic : Ref → Act PUnit :=
  assignRead limit (readExcludedTopic [])
    ("topic", fun excluded => .str excluded.topic)
    ("reason", fun excluded => .str excluded.reason)

/-- The objects with the text that each of them has under the name. -/
def keyed (name : String) : List Ref → Act (List (String × Ref))
  | [] => pure []
  | ref :: refs => do
      let item ← Act.getItem ref name
      let data ← Act.value limit item
      let rest ← keyed name refs
      return ((data.asStr).getD "", ref) :: rest

/-- The loop over the objects of a list, which is an empty one if it is not given. -/
def assignEach (p : Ref) (name : String) (update : Ref → Act PUnit) : Act (List Ref) := do
  let list ← Act.setDefault p name
  let refs ← Act.items list
  refs.forM update
  return refs

/-- The loop, and then `p[name] = sorted(list, key=lambda item: item[key])`. -/
def assignSorted (p : Ref) (name key : String) (update : Ref → Act PUnit) : Act PUnit := do
  let refs ← assignEach p name update
  let pairs ← keyed limit key refs
  let list ← Act.create (.list ((sortedBy Prod.fst pairs).map Prod.snd))
  Act.setItem p name list

/-- The assignments of `normalize_parameters` to its copy, in their order. -/
def assignParameters (host : Host) (context : Ref) (frozen : Members) (p : Ref)
    (parameters : Parameters) : Act PUnit := do
  contextNames.forM (copyContext limit context frozen p)
  textNames.forM (assignStripped limit p)
  Act.assign p "recordingProfile" (.str parameters.recordingProfile.text)
  (defaults parameters.recordingProfile).forM (assignDefault limit p)
  Act.assign p "compression" (.str parameters.compression.text)
  assignTexts p "robotTopics" parameters.robotTopics.1
  assignTexts p "globalTopics" parameters.globalTopics.1
  assignTexts p "slotIds" parameters.slotIds.1
  assignSorted limit p "cameras" "root" (assignCamera limit)
  let _ ← assignEach p "calibrationFiles"
    (assignFile limit host "calibrationFiles" [".yaml", ".yml"])
  let _ ← assignEach p "algorithmSidecarFiles"
    (assignFile limit host "algorithmSidecarFiles" [".mat", ".yaml", ".yml"])
  assignSorted limit p "excludedTopics" "topic" (assignExcludedTopic limit)
  let _ ← Act.setDefault p "factParameters"

end InPlace

/-- `normalize_parameters(value, context, preview)` on objects.  The checks look at data only
and are those of `normalizeParameters`.  A request that they refuse is left at its copy; the
source has then made a part of the assignments to it, and drops it with the exception. -/
def Host.normalizeInPlace (host : Host) (limit : Nat) (value context : Ref) (preview : Bool) :
    Act (Ref × Parameters × Int) := do
  let p ← Act.deepcopy limit value
  let data ← Act.value limit value
  let members ← Act.lift (data.dictFor "items")
  let data ← Act.value limit context
  let frozen ← Act.lift (data.dictFor "items")
  let result ← Act.lift (host.normalizeParameters members frozen preview)
  InPlace.assignParameters limit host context frozen p result.1
  return (p, result)

namespace InPlace

variable {n limit : Nat} {p : Ref}

theorem keeps_copyContext (context : Ref) (frozen : Members) (hp : n ≤ p) (name : String) :
    Keeps n (copyContext limit context frozen p name) fun _ => True := by
  unfold copyContext
  split
  · exact .bind (.getItem _ _) fun _ _ => .bind (.deepcopy _ _) fun _ hcopy => .setItem hp _ hcopy
  · exact .pure trivial

theorem keeps_assignStripped (hp : n ≤ p) (name : String) :
    Keeps n (assignStripped limit p name) fun _ => True := by
  refine .bind (.members _) fun members _ => ?_
  split
  · exact .pure trivial
  · exact .bind (.value _ _) fun _ _ => .bind (.lift _) fun _ _ => .assign hp _ _

theorem keeps_assignDefault (hp : n ≤ p) (entry : String × Value) :
    Keeps n (assignDefault limit p entry) fun _ => True := by
  refine .bind (.members _) fun members _ => ?_
  split
  · exact .assign hp _ _
  · refine .bind (.value _ _) fun _ _ => ?_
    split
    · exact .assign hp _ _
    · exact .pure trivial

theorem keeps_assignRead {α : Type} (read : Value → Except Exception α)
    (first second : String × (α → Value)) (hp : n ≤ p) :
    Keeps n (assignRead limit read first second p) fun _ => True :=
  .bind (.value _ _) fun _ _ => .bind (.lift _) fun _ _ => .bind (.assign hp _ _) fun _ _ =>
    .assign hp _ _

theorem keeps_keyed (name : String) {refs : List Ref} (hrefs : ∀ ref ∈ refs, n ≤ ref) :
    Keeps n (keyed limit name refs) fun pairs => ∀ pair ∈ pairs, n ≤ pair.2 := by
  induction refs with
  | nil => exact .pure (List.forall_mem_nil _)
  | cons ref refs ih =>
      obtain ⟨href, hrefs⟩ := List.forall_mem_cons.mp hrefs
      exact .bind (.getItem _ _) fun _ _ => .bind (.value _ _) fun _ _ => .bind (ih hrefs)
        fun _ hrest => .pure (List.forall_mem_cons.mpr ⟨href, hrest⟩)

section Loops

variable {update : Ref → Act PUnit} (hupdate : ∀ ref, n ≤ ref → Keeps n (update ref) fun _ => True)
include hupdate

theorem keeps_assignEach (hp : n ≤ p) (name : String) :
    Keeps n (assignEach p name update) fun refs => ∀ ref ∈ refs, n ≤ ref := by
  refine .bind (.setDefault hp _) fun list hlist => .bind (.items list) fun refs hrefs => ?_
  exact .bind (.forM fun ref href => hupdate ref (hrefs hlist ref href)) fun _ _ =>
    .pure (hrefs hlist)

theorem keeps_assignSorted (hp : n ≤ p) (name key : String) :
    Keeps n (assignSorted limit p name key update) fun _ => True := by
  refine .bind (keeps_assignEach hupdate hp name) fun refs hrefs => ?_
  refine .bind (keeps_keyed key hrefs) fun pairs hpairs => ?_
  refine .bind (.create fun child hchild => ?_) fun list hlist => .setItem hp _ hlist
  obtain ⟨pair, hpair, rfl⟩ := List.mem_map.mp hchild
  exact hpairs pair ((List.perm_insertionSort _ pairs).mem_iff.mp hpair)

end Loops

/-- The assignments are made to the copy and to what belongs to it. -/
theorem keeps_assignParameters (host : Host) (context : Ref) (frozen : Members) (hp : n ≤ p)
    (parameters : Parameters) :
    Keeps n (assignParameters limit host context frozen p parameters) fun _ => True := by
  unfold assignParameters
  refine .bind (.forM fun name _ => keeps_copyContext context frozen hp name) fun _ _ => ?_
  refine .bind (.forM fun name _ => keeps_assignStripped hp name) fun _ _ => ?_
  refine .bind (.assign hp _ _) fun _ _ => ?_
  refine .bind (.forM fun entry _ => keeps_assignDefault hp entry) fun _ _ => ?_
  refine .bind (.assign hp _ _) fun _ _ => .bind (.assign hp _ _) fun _ _ => ?_
  refine .bind (.assign hp _ _) fun _ _ => .bind (.assign hp _ _) fun _ _ => ?_
  refine .bind (keeps_assignSorted (fun _ => keeps_assignRead _ _ _) hp _ _) fun _ _ => ?_
  refine .bind (keeps_assignEach (fun _ => keeps_assignRead _ _ _) hp _) fun _ _ => ?_
  refine .bind (keeps_assignEach (fun _ => keeps_assignRead _ _ _) hp _) fun _ _ => ?_
  refine .bind (keeps_assignSorted (fun _ => keeps_assignRead _ _ _) hp _ _) fun _ _ => ?_
  exact .bind (.setDefault hp _) fun _ _ => .pure trivial

end InPlace

theorem keeps_normalizeInPlace (host : Host) (limit n : Nat) (value context : Ref)
    (preview : Bool) :
    Keeps n (host.normalizeInPlace limit value context preview) fun result => n ≤ result.1 := by
  refine .bind (.deepcopy _ _) fun p hp => .bind (.value _ _) fun _ _ => ?_
  refine .bind (.lift _) fun _ _ => .bind (.value _ _) fun _ _ => .bind (.lift _) fun _ _ => ?_
  refine .bind (.lift _) fun result _ => ?_
  exact .bind (InPlace.keeps_assignParameters host context _ hp _) fun _ _ => .pure hp

/-- The checks are made of the data of the arguments. -/
theorem normalizeParameters_of_normalizeInPlace {host : Host} {limit : Nat} {value context : Ref}
    {preview : Bool} {members frozen : Members} {heap heap' : Heap} {p : Ref}
    {result : Parameters × Int} (hvalue : load heap limit value = some (.dict members))
    (hcontext : load heap limit context = some (.dict frozen))
    (h : host.normalizeInPlace limit value context preview heap = (.ok (p, result), heap')) :
    host.normalizeParameters members frozen preview = .ok result := by
  obtain ⟨copy, heap₁, hcopy, h₁⟩ := Act.bind_eq_ok h
  have hframe : Frame heap.length heap heap₁ := by
    have hkeeps := (Keeps.deepcopy limit value heap (owned_length heap)).2.1
    rwa [hcopy] at hkeeps
  obtain ⟨_, _, hdata, h₂⟩ := Act.bind_eq_ok h₁
  obtain ⟨hload, rfl⟩ := Act.value_eq_ok hdata
  obtain rfl := Option.some.inj (hload.symm.trans (load_of_frame hframe limit hvalue))
  obtain ⟨_, _, hmembers, h₃⟩ := Act.bind_eq_ok h₂
  obtain ⟨⟨⟩, rfl⟩ := Act.lift_eq_ok hmembers
  obtain ⟨_, _, hdata', h₄⟩ := Act.bind_eq_ok h₃
  obtain ⟨hload', rfl⟩ := Act.value_eq_ok hdata'
  obtain rfl := Option.some.inj (hload'.symm.trans (load_of_frame hframe limit hcontext))
  obtain ⟨_, _, hfrozen, h₅⟩ := Act.bind_eq_ok h₄
  obtain ⟨⟨⟩, rfl⟩ := Act.lift_eq_ok hfrozen
  obtain ⟨_, _, hchecked, h₆⟩ := Act.bind_eq_ok h₅
  obtain ⟨_, _, -, ⟨⟩⟩ := Act.bind_eq_ok h₆
  exact (Act.lift_eq_ok hchecked).1

/-- **Normalized parameters are canonical**, exactly if no fact parameter of the request has
spaces around its name, and the objects of the caller stay as they are: the parameters that are
returned are new. -/
theorem normalized_parameters_canonical {host : Host} {members frozen : Members} {preview : Bool}
    {parameters : Parameters} {estimated : Int}
    (haccepted : host.normalizeParameters members frozen preview = .ok (parameters, estimated)) :
    (parameters.Canonical ↔
        ∀ fact ∈ requestedFacts members, strip (factName fact) = factName fact) ∧
      ∀ limit value context heap, load heap limit value = some (.dict members) →
        load heap limit context = some (.dict frozen) →
        ∀ result heap', host.normalizeInPlace limit value context preview heap = (result, heap') →
          Frame heap.length heap heap' ∧
            load heap' limit value = some (.dict members) ∧
            load heap' limit context = some (.dict frozen) ∧
            ∀ p returned, result = .ok (p, returned) →
              heap.length ≤ p ∧ returned = (parameters, estimated) := by
  obtain ⟨hrequested, hcanonical⟩ := canonical_of_normalizeParameters haccepted
  rw [Parameters.factNames, List.forall_mem_map, hrequested] at hcanonical
  refine ⟨⟨fun h => ?_, hcanonical⟩, ?_⟩
  · rw [← hrequested, ← List.forall_mem_map (P := fun name => strip name = name)]
    exact h.factParameters.stripped
  intro limit value context heap hvalue hcontext result heap' hrun
  obtain ⟨-, hframe, hnew⟩ := keeps_normalizeInPlace host limit heap.length value context preview
    heap (owned_length heap)
  rw [hrun] at hframe hnew
  refine ⟨hframe, load_of_frame hframe limit hvalue, load_of_frame hframe limit hcontext, ?_⟩
  rintro p returned rfl
  have hchecked := normalizeParameters_of_normalizeInPlace hvalue hcontext hrun
  exact ⟨hnew _ rfl, Except.ok.inj (hchecked.symm.trans haccepted)⟩

/-! ### A scientific request -/

/-- A request that reaches every loop. -/
def scientificRequest (fact : String) : Members :=
  [("recordingProfile", .str "camera_scientific"), ("capacitySafetyFactor", .int 1),
    ("estimatedVideoBitrateMbps", .int 1), ("robotTopics", .list [.str "pose", .str " odom "]),
    ("cameras", .list
      [.dict [("root", .str "/right"), ("topics", .list [.str "image"])],
        .dict [("root", .str " /left"), ("topics", .list [.str "timing", .str "image"])]]),
    ("calibrationFiles", .list [.dict [("role", .str "lens "), ("path", .str "/lens.yaml")]]),
    ("excludedTopics", .list [.dict [("topic", .str "/debug"), ("reason", .str "large")]]),
    ("factParameters", .list [.dict [("name", .str fact), ("purpose", .str "gain")]])]

def scientificContext : Members := [("sessionId", .str "session")]

/-- The objects of the request. -/
def scientificHeap (fact : String) : Heap :=
  (Act.build (.dict scientificContext) (Act.build (.dict (scientificRequest fact)) []).2).2

/-- The fact names of an accepted request. -/
theorem exists_of_factNames {x : Except Exception (Parameters × Int)} {names : List String}
    (h : x.toOption.map (fun result => result.1.factNames) = some names) :
    ∃ parameters estimated, x = .ok (parameters, estimated) ∧ parameters.factNames = names := by
  cases x with
  | error exc => cases h
  | ok result => exact ⟨result.1, result.2, rfl, Option.some.inj h⟩

theorem normalized_parameters_canonical_sample :
    ∃ parameters estimated,
      sampleHost.normalizeParameters (scientificRequest "/gain") scientificContext true =
          .ok (parameters, estimated) ∧
        parameters.Canonical ∧
        ∃ p heap', sampleHost.normalizeInPlace 5 28 30 true (scientificHeap "/gain") =
            (.ok (p, parameters, estimated), heap') ∧
          Frame (scientificHeap "/gain").length (scientificHeap "/gain") heap' := by
  obtain ⟨parameters, estimated, haccepted, -⟩ :=
    exists_of_factNames
      (x := sampleHost.normalizeParameters (scientificRequest "/gain") scientificContext true)
      (show _ = some ["/gain"] by decide +kernel)
  obtain ⟨hcanonical, hruns⟩ := normalized_parameters_canonical haccepted
  have hcanonical := hcanonical.mpr (List.forall_mem_singleton.mpr (by decide))
  cases hrun : sampleHost.normalizeInPlace 5 28 30 true (scientificHeap "/gain") with
  | mk result heap' =>
    obtain ⟨hframe, -, -, hreturned⟩ :=
      hruns 5 28 30 (scientificHeap "/gain") rfl rfl result heap' hrun
    have hok : result.isOk = true := by
      have hrun' : (sampleHost.normalizeInPlace 5 28 30 true (scientificHeap "/gain")).1.isOk =
          true := by decide +kernel
      rwa [hrun] at hrun'
    obtain ⟨⟨p, returned⟩, rfl⟩ := exists_eq_ok hok
    obtain ⟨-, rfl⟩ := hreturned p returned rfl
    exact ⟨parameters, estimated, haccepted, hcanonical, p, heap', rfl, hframe⟩

/-- A fact parameter with a space before its name is accepted, and the name is kept with it. -/
theorem padded_fact_name_kept :
    ∃ parameters estimated,
      sampleHost.normalizeParameters (scientificRequest " /gain") scientificContext true =
          .ok (parameters, estimated) ∧
        parameters.factNames = [" /gain"] ∧ isAbsolute " /gain" = false ∧
        ¬parameters.Canonical := by
  obtain ⟨parameters, estimated, haccepted, hnames⟩ :=
    exists_of_factNames
      (x := sampleHost.normalizeParameters (scientificRequest " /gain") scientificContext true)
      (show _ = some [" /gain"] by decide +kernel)
  refine ⟨parameters, estimated, haccepted, hnames, by decide, fun hcanonical => ?_⟩
  have hstripped := hcanonical.factParameters.stripped " /gain" (hnames ▸ List.mem_singleton_self _)
  exact absurd hstripped (by decide)

end Ros1Tools.Recording
