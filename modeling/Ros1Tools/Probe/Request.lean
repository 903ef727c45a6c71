import Mathlib.Data.Finset.Sort
import Mathlib.Data.String.Basic
import Ros1Tools.Json
import Ros1Tools.Lib.Bytes
import Ros1Tools.Lib.Except

/-!
# The request of a pose snapshot

A snapshot is asked for a list of sources.  A source names topics, and roots that stand for the
published poses at or below them; what it selects is a set of topics.

The loop over the published topics inserts into that set (`selectPublished`), and
`mem_selectPublished` says which topics it ends up with.
-/

namespace Ros1Tools.Probe

open Lib

/-- The functions of other libraries that the probe calls. -/
structure Library where
  /-- `Json::CharReader::parse`, with the settings of the probe. -/
  parse : Bytes → Option Json
  /-- `ros::names::validate`. -/
  namesValidate : String → Bool

/-- An entry that `getPublishedTopics` returned: a topic and its type, if it has that form. -/
abbrev Entry := Option (String × String)

def poseType : String := "geometry_msgs/PoseStamped"

/-- An exception is told by its text. -/
abbrev Result := Except String

variable (library : Library)

def absoluteName (value : String) : Result String :=
  let name := "/" ++ String.ofList (value.toList.dropWhile (· == '/'))
  if name = "/" ∨ !library.namesValidate name then .error "invalid ROS graph name" else .ok name

def graphName : Json → Result String
  | .string text => do
      let name ← absoluteName library text
      if text = name then .ok text else .error "pose roots/topics require absolute ROS names"
  | _ => .error "pose roots/topics require absolute ROS names"

def graphNames : Json → Result (List String)
  | .array items =>
      if 256 < items.length then
        .error "pose roots/topics must be arrays of at most 256 names"
      else items.mapM (graphName library)
  | _ => .error "pose roots/topics must be arrays of at most 256 names"

/-- A text that is not empty. -/
def isIdentity : Option Json → Bool
  | some (.string text) => text != ""
  | _ => false

/-- The items of an array. -/
def itemsOf : Option Json → List Json
  | some (.array items) => items
  | _ => []

/-- The sources of a request. -/
def sourcesOf (request : Json.Members) : List Json := itemsOf (Json.find "sources" request)

def requestFields : List String := ["sessionId", "experimentCommitId", "sources"]

def sourceFields : List String := ["instanceId", "revision", "roots", "topics"]

/-- `readSnapshotRequest`: the members of the request. -/
def readSnapshotRequest (input : Bytes) : Result Json.Members :=
  if 1024 * 1024 < input.length then .error "pose snapshot input exceeds 1 MiB"
  else
    match library.parse input with
    | some (.object members) =>
        if isIdentity (Json.find "sessionId" members) &&
            isIdentity (Json.find "experimentCommitId" members) &&
            !(sourcesOf members).isEmpty && decide ((sourcesOf members).length ≤ 258) then
          match members.find? fun member => !requestFields.contains member.1 with
          | some member => .error ("unknown pose snapshot field: " ++ member.1)
          | none => .ok members
        else .error "pose snapshot requires exact Session, commit and 1..258 sources"
    | _ => .error "pose snapshot requires exact Session, commit and 1..258 sources"

/-! ## Selection -/

/-- Whether a topic is a root or below it. -/
def covers (root topic : String) : Bool :=
  topic == root || (root ++ "/").toList.isPrefixOf topic.toList

/-- The loop over the published topics. -/
def selectPublished (roots : List String) : List Entry → Finset String → Result (Finset String)
  | [], selected => .ok selected
  | none :: _, _ => .error "invalid published topic entry"
  | some (topic, type) :: rest, selected =>
      if type ≠ poseType then selectPublished roots rest selected
      else selectPublished roots rest
        (if roots.any (covers · topic) then insert topic selected else selected)

/-- The topics that a source selects. -/
def readSource (published : List Entry) : Json → Result (Finset String)
  | .object members =>
      if !isIdentity (Json.find "instanceId" members) then
        .error "pose source identity is required"
      else
        match members.find? fun member => !sourceFields.contains member.1 with
        | some member => .error ("unknown pose source field: " ++ member.1)
        | none =>
            if (Json.find "revision" members).any (!·.isUInt64) then
              .error "pose source revision must be an unsigned integer"
            else do
              let roots ← graphNames library ((Json.find "roots" members).getD .null)
              let exact ← graphNames library ((Json.find "topics" members).getD .null)
              if roots = [] ∧ exact = [] then
                .error "pose source requires roots or exact topics"
              else selectPublished roots published exact.toFinset
  | _ => .error "pose source identity is required"

/-- The loop over the sources, with the topics of those before. -/
def readSources (published : List Entry) :
    List Json → Finset String → Result (List (Finset String) × Finset String)
  | [], topics => .ok ([], topics)
  | source :: rest, topics => do
      let selected ← readSource library published source
      if 256 < (topics ∪ selected).card then
        .error "pose snapshot exceeds 256 distinct topics"
      else do
        let later ← readSources published rest (topics ∪ selected)
        return (selected :: later.1, later.2)

/-! ## What is selected -/

/-- The texts among the items of a member. -/
def namesOf (key : String) (source : Json) : List String :=
  (itemsOf (source.member key)).filterMap fun
    | .string text => some text
    | _ => none

/-- A topic that is named, or published as a pose at a root or below it. -/
def Selects (published : List Entry) (source : Json) (topic : String) : Prop :=
  topic ∈ namesOf "topics" source ∨
    some (topic, poseType) ∈ published ∧
      ∃ root ∈ namesOf "roots" source, topic = root ∨ (root ++ "/").toList <+: topic.toList

variable {library}

theorem covers_iff {root topic : String} :
    covers root topic = true ↔ topic = root ∨ (root ++ "/").toList <+: topic.toList := by
  rw [covers, Bool.or_eq_true, beq_iff_eq, List.isPrefixOf_iff_prefix]

theorem mem_selectPublished {roots : List String} {published : List Entry}
    {selected result : Finset String} (h : selectPublished roots published selected = .ok result)
    (topic : String) :
    topic ∈ result ↔ topic ∈ selected ∨
      some (topic, poseType) ∈ published ∧ ∃ root ∈ roots, covers root topic = true := by
  induction published generalizing selected with
  | nil =>
      cases h
      simp
  | cons entry rest ih =>
      cases entry with
      | none => cases h
      | some entry =>
          obtain ⟨name, type⟩ := entry
          rw [selectPublished] at h
          split at h
          next htype =>
            have hother : some (topic, poseType) ≠ some (name, type) := by
              rintro ⟨⟩
              exact htype rfl
            rw [ih h, List.mem_cons, or_iff_right hother]
          next htype =>
            obtain rfl : type = poseType := not_not.mp htype
            rw [ih h, List.mem_cons, Option.some.injEq, Prod.mk.injEq]
            split
            next hcovered =>
              rw [List.any_eq_true] at hcovered
              rw [Finset.mem_insert]
              constructor
              · rintro ((rfl | hselected) | hlater)
                · exact .inr ⟨.inl ⟨rfl, rfl⟩, hcovered⟩
                · exact .inl hselected
                · exact .inr ⟨.inr hlater.1, hlater.2⟩
              · rintro (hselected | ⟨⟨rfl, -⟩ | hlater, hroot⟩)
                · exact .inl (.inr hselected)
                · exact .inl (.inl rfl)
                · exact .inr ⟨hlater, hroot⟩
            next hcovered =>
              rw [List.any_eq_true] at hcovered
              constructor
              · rintro (hselected | hlater)
                · exact .inl hselected
                · exact .inr ⟨.inr hlater.1, hlater.2⟩
              · rintro (hselected | ⟨⟨rfl, -⟩ | hlater, hroot⟩)
                · exact .inl hselected
                · exact absurd hroot hcovered
                · exact .inr ⟨hlater, hroot⟩

theorem graphName_eq_ok {value : Json} {name : String} (h : graphName library value = .ok name) :
    value = .string name := by
  cases value with
  | string text =>
      rw [graphName, bind_eq_ok] at h
      obtain ⟨absolute, -, h⟩ := h
      split at h
      next =>
        cases h
        rfl
      next => cases h
  | _ => cases h

/-- Names that are read are the texts of the member. -/
theorem graphNames_eq_ok {value : Option Json} {names : List String}
    (h : graphNames library (value.getD .null) = .ok names) :
    itemsOf value = names.map .string := by
  cases value with
  | none => cases h
  | some value =>
      cases value with
      | array items =>
          rw [Option.getD_some, graphNames, ite_error_eq_ok, mapM_eq_ok] at h
          have hitems : List.Forall₂ (fun item name => item = Json.string name) items names :=
            h.2.imp fun _ _ => graphName_eq_ok
          show items = names.map Json.string
          rwa [← List.forall₂_eq_eq_eq, List.forall₂_map_right_iff]
      | _ => cases h

theorem namesOf_eq {key : String} {members : Json.Members} {names : List String}
    (h : graphNames library ((Json.find key members).getD .null) = .ok names) :
    namesOf key (.object members) = names := by
  have hitems : itemsOf (Json.member key (.object members)) = names.map .string :=
    graphNames_eq_ok h
  rw [namesOf, hitems, List.filterMap_map]
  exact List.filterMap_some

/-- **What a source selects.** -/
theorem readSource_eq_ok {published : List Entry} {source : Json} {selected : Finset String}
    (h : readSource library published source = .ok selected) :
    (∃ members, source = .object members) ∧
      ∀ topic, topic ∈ selected ↔ Selects published source topic := by
  cases source with
  | object members =>
      refine ⟨⟨members, rfl⟩, fun topic => ?_⟩
      rw [readSource, ite_error_eq_ok] at h
      obtain ⟨-, h⟩ := h
      split at h
      next => cases h
      next =>
        rw [ite_error_eq_ok, bind_eq_ok] at h
        obtain ⟨-, roots, hroots, h⟩ := h
        obtain ⟨exact, hexact, h⟩ := bind_eq_ok.mp h
        rw [ite_error_eq_ok] at h
        rw [mem_selectPublished h.2, List.mem_toFinset, Selects, namesOf_eq hroots,
          namesOf_eq hexact]
        simp only [covers_iff]
  | _ => cases h

/-- What the sources select, one by one, and all the topics together. -/
theorem readSources_eq_ok {published : List Entry} {sources : List Json} {before : Finset String}
    {selections : List (Finset String)} {topics : Finset String}
    (h : readSources library published sources before = .ok (selections, topics)) :
    before ⊆ topics ∧
      List.Forall₂ (fun source selected =>
        readSource library published source = .ok selected ∧ selected ⊆ topics)
        sources selections := by
  induction sources generalizing before selections with
  | nil =>
      cases h
      exact ⟨subset_rfl, .nil⟩
  | cons source rest ih =>
      rw [readSources, bind_eq_ok] at h
      obtain ⟨selected, hselected, h⟩ := h
      rw [ite_error_eq_ok, bind_eq_ok] at h
      obtain ⟨-, ⟨later, all⟩, hlater, h⟩ := h
      cases h
      obtain ⟨hsubset, hread⟩ := ih hlater
      obtain ⟨hbefore, htopics⟩ := Finset.union_subset_iff.mp hsubset
      exact ⟨hbefore, .cons ⟨hselected, htopics⟩ hread⟩

end Ros1Tools.Probe
