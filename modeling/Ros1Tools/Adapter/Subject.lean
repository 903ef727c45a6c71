import Ros1Tools.Lib.Run
import Ros1Tools.Adapter.Context

/-!
# One native context an adapter

The lifecycle calls of `ToolsAdapter` and the checks in front of an operation.  The scope
of an instance and the subject of an invocation are compared with the native context by
looking up three names and counting; both comparisons come down to equality with the one
map that the context describes, so that the adapter serves one subject for as long as it
lives.
-/

namespace Ros1Tools.Adapter

open Lib

/-! ## The adapter -/

/-- What a capability was compiled with: `contract::Endpoint`. -/
structure Endpoint where
  capabilityId : String
  endpointId : String
  contractVersion : String
  contractDigest : String
  inputSchema : SchemaReference
  maximumRequestBytes : Nat

/-- `contract::kPublish` and `contract::kService`. -/
structure Contract where
  publish : Endpoint
  service : Endpoint

/-- `xgc::adapter::v1::EnabledCapability`. -/
structure EnabledCapability where
  capabilityId : String
  contractVersion : String
  contractDigest : String
  enabledEndpointIds : List String
  hasConfiguration : Bool

/-- `xgc::adapter::v1::WorkContext`. -/
structure WorkContext where
  capabilityId : String
  endpointId : String
  contractVersion : String
  contractDigest : String
  deadlineUnixNanos : Option Int
  subject : Option Scope

structure ToolsAdapter where
  nativeContext : NativeContext
  instanceSpecApplied : Bool
  publishEnabled : Bool
  serviceEnabled : Bool
deriving DecidableEq

/-- `exception.what()`; only what is derived from `std::exception` has one. -/
def what : Exn → String
  | .tools error => error.message
  | .foreign (.std text) => text
  | .foreign .other => ""

def Endpoint.validateCapabilityGrant (expected : Endpoint) (grant : EnabledCapability) :
    Except String Unit :=
  if grant.capabilityId = expected.capabilityId ∧
      grant.contractVersion = expected.contractVersion ∧
      grant.contractDigest = expected.contractDigest ∧
      grant.enabledEndpointIds = [expected.endpointId] ∧ grant.hasConfiguration = false then .ok ()
  else .error ("enabled capability grant does not match the compiled " ++ expected.capabilityId ++
    " contract")

def Endpoint.validateInvocationContext (expected : Endpoint) (context : WorkContext) :
    Except Exn Unit := do
  check (context.capabilityId == expected.capabilityId &&
      context.endpointId == expected.endpointId &&
      context.contractVersion == expected.contractVersion &&
      context.contractDigest == expected.contractDigest) "invalid_endpoint"
    "operation context does not match its compiled capability"
  check (context.deadlineUnixNanos.any (0 < ·)) "invalid_deadline"
    "operation deadline is required"

namespace ToolsAdapter

variable (platform : Platform) (contract : Contract) (adapter : ToolsAdapter)

/-- The adapter as constructed. -/
def init (nativeContext : NativeContext) : ToolsAdapter := ⟨nativeContext, false, false, false⟩

/-! ## Lifecycle calls

A call that returns `false` leaves the adapter as it was, and the text is the one it left in
`error`. -/

/-- The comparison of a spec with the native context, and the text for a mismatch. -/
def matchSpec (spec : InstanceSpec) (mismatch : String) : Except String Unit :=
  match platform.fromInstanceSpec spec with
  | .ok context => if context = adapter.nativeContext then .ok () else .error mismatch
  | .error exception => .error (what exception)

def applyInstanceSpec (spec : InstanceSpec) : Except String ToolsAdapter := do
  adapter.matchSpec platform spec "a running ROS1 process cannot change its native context"
  return { adapter with instanceSpecApplied := true }

/-- What the two capabilities check when they start. -/
def checkStart (name : String) (expected : Endpoint) (enabled : Bool) (spec : InstanceSpec)
    (grant : EnabledCapability) : Except String Unit :=
  if ¬adapter.instanceSpecApplied then
    .error ("instance spec must be applied before " ++ name ++ " capability start")
  else do
    adapter.matchSpec platform spec
      (name ++ " capability instance spec does not match this native context")
    expected.validateCapabilityGrant grant
    if enabled then .error (name ++ " capability is already active") else .ok ()

def startPublishCapability (spec : InstanceSpec) (grant : EnabledCapability) :
    Except String ToolsAdapter := do
  adapter.checkStart platform "publish" contract.publish adapter.publishEnabled spec grant
  return { adapter with publishEnabled := true }

def startServiceCapability (spec : InstanceSpec) (grant : EnabledCapability) :
    Except String ToolsAdapter := do
  adapter.checkStart platform "service" contract.service adapter.serviceEnabled spec grant
  return { adapter with serviceEnabled := true }

def stopPublishCapability : ToolsAdapter := { adapter with publishEnabled := false }

def stopServiceCapability : ToolsAdapter := { adapter with serviceEnabled := false }

def clearInstanceSpec : ToolsAdapter :=
  { adapter.stopPublishCapability.stopServiceCapability with instanceSpecApplied := false }

/-! ## Operations -/

def validateSubject (context : WorkContext) : Except Exn Unit :=
  match context.subject with
  | none => .error (permanentError "invalid_subject"
      "invocation subject must be ros1-native-context")
  | some subject =>
      if subject.kind ≠ "ros1-native-context" then
        .error (permanentError "invalid_subject" "invocation subject must be ros1-native-context")
      else
        check (subject.key == adapter.nativeContext.scopeKey &&
            subject.attributes["master-uri"]? == some adapter.nativeContext.rosMasterUri &&
            subject.attributes["ip"]?.getD "" == adapter.nativeContext.rosIp &&
            subject.attributes["hostname"]?.getD "" == adapter.nativeContext.rosHostname &&
            subject.attributes.size == adapter.nativeContext.attributeCount) "invalid_subject"
          "invocation subject does not match this native context"

/-- Raises unless a capability is enabled. -/
def requireEnabled (enabled : Bool) (disabled : Exn) : Except Exn Unit :=
  if enabled then .ok () else .error disabled

/-- What an operation checks before it looks at its input. -/
def admitOperation (enabled : Bool) (disabled : Exn) (expected : Endpoint)
    (context : WorkContext) : Except Exn Unit := do
  requireEnabled enabled disabled
  expected.validateInvocationContext context
  adapter.validateSubject context

/-- The beginning of `Publish`. -/
def admitPublish (context : WorkContext) : Except Exn Unit :=
  adapter.admitOperation adapter.publishEnabled
    (rejectedError "publish_capability_disabled" "ROS1 topic publish capability is not active")
    contract.publish context

/-- The beginning of `CallService`. -/
def admitService (context : WorkContext) : Except Exn Unit :=
  adapter.admitOperation adapter.serviceEnabled
    (rejectedError "service_capability_disabled" "ROS1 service-call capability is not active")
    contract.service context

end ToolsAdapter

/-! ## Runs -/

inductive LifecycleCall where
  | applyInstanceSpec (spec : InstanceSpec)
  | clearInstanceSpec
  | startPublishCapability (spec : InstanceSpec) (grant : EnabledCapability)
  | stopPublishCapability
  | startServiceCapability (spec : InstanceSpec) (grant : EnabledCapability)
  | stopServiceCapability

namespace ToolsAdapter

variable (platform : Platform) (contract : Contract)

/-- What a lifecycle call returns. -/
def attempt (adapter : ToolsAdapter) : LifecycleCall → Except String ToolsAdapter
  | .applyInstanceSpec spec => adapter.applyInstanceSpec platform spec
  | .clearInstanceSpec => .ok adapter.clearInstanceSpec
  | .startPublishCapability spec grant =>
      adapter.startPublishCapability platform contract spec grant
  | .stopPublishCapability => .ok adapter.stopPublishCapability
  | .startServiceCapability spec grant =>
      adapter.startServiceCapability platform contract spec grant
  | .stopServiceCapability => .ok adapter.stopServiceCapability

/-- The adapter after a lifecycle call. -/
def step (adapter : ToolsAdapter) (call : LifecycleCall) : ToolsAdapter :=
  match adapter.attempt platform contract call with
  | .ok next => next
  | .error _ => adapter

end ToolsAdapter

/-- The spec a lifecycle call brings. -/
def LifecycleCall.spec : LifecycleCall → Option InstanceSpec
  | .applyInstanceSpec spec => some spec
  | .startPublishCapability spec _ => some spec
  | .startServiceCapability spec _ => some spec
  | _ => none

/-! ## The map of a context -/

namespace NativeContext

variable (context : NativeContext)

/-- The attributes a native context has as a scope: its master and the addresses it has. -/
def attributes : Attributes :=
  let master : Attributes := (∅ : Attributes).insert "master-uri" context.rosMasterUri
  let addressed := if context.rosIp = "" then master else master.insert "ip" context.rosIp
  if context.rosHostname = "" then addressed
  else addressed.insert "hostname" context.rosHostname

/-- A native context as a scope. -/
def scope : Scope := ⟨"ros1-native-context", context.scopeKey, context.attributes⟩

theorem getElem?_attributes (name : String) :
    context.attributes[name]? =
      if "hostname" = name ∧ context.rosHostname ≠ "" then some context.rosHostname
      else if "ip" = name ∧ context.rosIp ≠ "" then some context.rosIp
      else if "master-uri" = name then some context.rosMasterUri else none := by
  by_cases hip : context.rosIp = "" <;> by_cases hhost : context.rosHostname = "" <;>
    simp [attributes, hip, hhost, Std.ExtTreeMap.getElem?_insert]

theorem size_attributes : context.attributes.size = context.attributeCount := by
  by_cases hip : context.rosIp = "" <;> by_cases hhost : context.rosHostname = "" <;>
    simp [attributes, attributeCount, hip, hhost, Std.ExtTreeMap.size_insert]

variable {context}

/-- A name that must not read as empty is there if it reads as what it must be. -/
theorem eq_some_of_getD {value : Option String} {text : String} (h : value.getD "" = text)
    (hne : text ≠ "") : value = some text := by
  cases value with
  | none => exact absurd h.symm hne
  | some read => exact congrArg some h

/-- **Three lookups and a count** tell the map of a context from every other one: a name that
is there but empty takes the place of one that the count needs. -/
theorem eq_attributes_iff {attributes : Attributes} :
    attributes = context.attributes ↔
      attributes["master-uri"]? = some context.rosMasterUri ∧
      attributes["ip"]?.getD "" = context.rosIp ∧
      attributes["hostname"]?.getD "" = context.rosHostname ∧
      attributes.size = context.attributeCount := by
  constructor
  · rintro rfl
    refine ⟨?_, ?_, ?_, context.size_attributes⟩
    · simp [getElem?_attributes]
    · by_cases hip : context.rosIp = "" <;> simp [getElem?_attributes, hip]
    · by_cases hhost : context.rosHostname = "" <;> simp [getElem?_attributes, hhost]
  · rintro ⟨hmaster, hip, hhost, hsize⟩
    refine eq_of_getElem?_of_size_le (fun name text hname => ?_)
      (hsize.trans context.size_attributes.symm).le
    rw [getElem?_attributes] at hname
    split at hname
    · rename_i h
      obtain ⟨rfl, hne⟩ := h
      exact (eq_some_of_getD hhost hne).trans hname
    · split at hname
      · rename_i h
        obtain ⟨rfl, hne⟩ := h
        exact (eq_some_of_getD hip hne).trans hname
      · split at hname
        · rename_i h
          subst h
          exact hmaster.trans hname
        · cases hname

end NativeContext

/-! ## Both comparisons -/

theorem requireScope_eq_ok {spec : InstanceSpec} {scope : Scope}
    (h : requireScope spec = .ok scope) :
    spec.scope = some scope ∧ scope.kind = "ros1-native-context" := by
  unfold requireScope at h
  split at h
  · rename_i scope' hscope
    split at h
    · rename_i hkind
      cases h
      exact ⟨hscope, hkind⟩
    · cases h
  · cases h

theorem Platform.configurationPayload_eq_ok {platform : Platform} {spec : InstanceSpec}
    {payload : Payload} (h : platform.configurationPayload spec = .ok payload) :
    spec.configuration = some payload := by
  unfold configurationPayload at h
  split at h
  · rename_i payload' hpayload
    split at h
    · cases h
      exact hpayload
    · cases h
  · cases h

/-- An accepted spec has the scope of its native context, and the context has what the
configuration says. -/
theorem Platform.fromInstanceSpec_eq_ok {platform : Platform} {spec : InstanceSpec}
    {context : NativeContext} (h : platform.fromInstanceSpec spec = .ok context) :
    spec.scope = some context.scope ∧ ∃ payload, spec.configuration = some payload ∧
      platform.readConfiguration payload.value =
        .ok (context.rosMasterUri, context.rosIp, context.rosHostname) := by
  unfold fromInstanceSpec at h
  simp only [bind_eq_ok, check_eq_ok] at h
  obtain ⟨payload, hpayload, -, -, -, -, ⟨rosMasterUri, rosIp, rosHostname⟩, hread, scope, hscope,
    -, -, -, hmaster, -, hidentity, hcontext⟩ := h
  cases hcontext
  obtain ⟨hscope, hkind⟩ := requireScope_eq_ok hscope
  refine ⟨hscope.trans (congrArg some ?_), payload, configurationPayload_eq_ok hpayload, hread⟩
  rw [beq_iff_eq] at hmaster
  simp only [NativeContext.matchesNetworkIdentity, Bool.and_eq_true, beq_iff_eq] at hidentity
  obtain ⟨⟨hip, hhost⟩, hsize⟩ := hidentity
  have hattributes := NativeContext.eq_attributes_iff.mpr ⟨hmaster, hip, hhost, hsize⟩
  rw [NativeContext.scope, ← hattributes, ← hkind]

namespace ToolsAdapter

variable {platform : Platform} {contract : Contract} {adapter : ToolsAdapter}

/-- The subject an adapter accepts is the scope of its native context. -/
theorem validateSubject_eq_ok_iff {context : WorkContext} :
    adapter.validateSubject context = .ok () ↔
      context.subject = some adapter.nativeContext.scope := by
  unfold validateSubject
  cases hsubject : context.subject with
  | none =>
      constructor
      · intro h
        cases h
      · intro h
        cases h
  | some subject =>
      obtain ⟨kind, key, attributes⟩ := subject
      simp only [ite_error_eq_ok, not_not, check_eq_ok, Bool.and_eq_true, beq_iff_eq,
        Option.some.injEq, NativeContext.scope, Scope.mk.injEq, NativeContext.eq_attributes_iff,
        and_assoc]

/-- A lifecycle call leaves the native context as it is. -/
theorem nativeContext_step (call : LifecycleCall) :
    (adapter.step platform contract call).nativeContext = adapter.nativeContext := by
  unfold step
  split
  · rename_i next h
    cases call with
    | applyInstanceSpec spec =>
        obtain ⟨-, -, hnext⟩ := bind_eq_ok.mp h
        cases hnext
        rfl
    | startPublishCapability spec grant =>
        obtain ⟨-, -, hnext⟩ := bind_eq_ok.mp h
        cases hnext
        rfl
    | startServiceCapability spec grant =>
        obtain ⟨-, -, hnext⟩ := bind_eq_ok.mp h
        cases hnext
        rfl
    | clearInstanceSpec =>
        cases h
        rfl
    | stopPublishCapability =>
        cases h
        rfl
    | stopServiceCapability =>
        cases h
        rfl
  · rfl

/-- Nor does a run of them. -/
theorem nativeContext_run (calls : List LifecycleCall) :
    (run (step platform contract) adapter calls).nativeContext = adapter.nativeContext := by
  induction calls generalizing adapter with
  | nil => rfl
  | cons call calls ih => exact ih.trans (nativeContext_step call)

theorem matchSpec_eq_ok {spec : InstanceSpec} {mismatch : String} {u : Unit}
    (h : adapter.matchSpec platform spec mismatch = .ok u) :
    platform.fromInstanceSpec spec = .ok adapter.nativeContext := by
  unfold matchSpec at h
  split at h
  · rename_i context hcontext
    split at h
    · rename_i heq
      exact hcontext.trans (congrArg _ heq)
    · cases h
  · cases h

theorem checkStart_eq_ok {name : String} {expected : Endpoint} {enabled : Bool}
    {spec : InstanceSpec} {grant : EnabledCapability} {u : Unit}
    (h : adapter.checkStart platform name expected enabled spec grant = .ok u) :
    platform.fromInstanceSpec spec = .ok adapter.nativeContext := by
  obtain ⟨-, h⟩ := ite_error_eq_ok.mp h
  obtain ⟨_, hmatch, -⟩ := bind_eq_ok.mp h
  exact matchSpec_eq_ok hmatch

/-- A lifecycle call that returns `true` was given a spec of the native context. -/
theorem attempt_eq_ok {call : LifecycleCall} {spec : InstanceSpec} {next : ToolsAdapter}
    (hspec : call.spec = some spec) (h : adapter.attempt platform contract call = .ok next) :
    platform.fromInstanceSpec spec = .ok adapter.nativeContext := by
  cases call with
  | applyInstanceSpec spec' =>
      cases hspec
      obtain ⟨_, hmatch, -⟩ := bind_eq_ok.mp h
      exact matchSpec_eq_ok hmatch
  | startPublishCapability spec' grant =>
      cases hspec
      obtain ⟨_, hstart, -⟩ := bind_eq_ok.mp h
      exact checkStart_eq_ok hstart
  | startServiceCapability spec' grant =>
      cases hspec
      obtain ⟨_, hstart, -⟩ := bind_eq_ok.mp h
      exact checkStart_eq_ok hstart
  | clearInstanceSpec => cases hspec
  | stopPublishCapability => cases hspec
  | stopServiceCapability => cases hspec

theorem admitOperation_eq_ok {enabled : Bool} {disabled : Exn} {expected : Endpoint}
    {context : WorkContext}
    (h : adapter.admitOperation enabled disabled expected context = .ok ()) :
    context.subject = some adapter.nativeContext.scope := by
  obtain ⟨-, -, h⟩ := bind_eq_ok.mp h
  obtain ⟨-, -, h⟩ := bind_eq_ok.mp h
  exact validateSubject_eq_ok_iff.mp h

/-! ## One subject for the whole life -/

/-- **An adapter serves one scope.**  The scope of an accepted spec has exactly the attributes
its configuration gives it.  An adapter made for that context accepts, after any lifecycle
calls, a subject if and only if it is that scope; every spec that a lifecycle call accepts has
that scope again; and no operation is admitted for another subject. -/
theorem one_scope_served (platform : Platform) (contract : Contract) {spec : InstanceSpec}
    {context : NativeContext} (h : platform.fromInstanceSpec spec = .ok context) :
    ∃ scope payload, spec.scope = some scope ∧ spec.configuration = some payload ∧
      platform.readConfiguration payload.value =
        .ok (context.rosMasterUri, context.rosIp, context.rosHostname) ∧
      scope.attributes = context.attributes ∧
      ∀ calls : List LifecycleCall,
        let adapter := run (step platform contract) (init context) calls
        (∀ work : WorkContext,
          adapter.validateSubject work = .ok () ↔
            ∃ subject, work.subject = some subject ∧ subject.kind = scope.kind ∧
              subject.key = scope.key ∧ subject.attributes = scope.attributes) ∧
        (∀ (call : LifecycleCall) (later : InstanceSpec) (next : ToolsAdapter),
          call.spec = some later → adapter.attempt platform contract call = .ok next →
            later.scope = some scope) ∧
        ∀ work : WorkContext,
          adapter.admitPublish contract work = .ok () ∨
            adapter.admitService contract work = .ok () → work.subject = some scope := by
  obtain ⟨hscope, payload, hpayload, hread⟩ := Platform.fromInstanceSpec_eq_ok h
  refine ⟨context.scope, payload, hscope, hpayload, hread, rfl, fun calls => ?_⟩
  intro adapter
  have hcontext : adapter.nativeContext = context := nativeContext_run calls
  refine ⟨fun work => ?_, fun call later next hlater hnext => ?_, fun work hwork => ?_⟩
  · rw [validateSubject_eq_ok_iff, hcontext]
    constructor
    · intro hsubject
      exact ⟨context.scope, hsubject, rfl, rfl, rfl⟩
    · rintro ⟨⟨kind, key, attributes⟩, hsubject, rfl, rfl, rfl⟩
      exact hsubject
  · have hlater := attempt_eq_ok hlater hnext
    rw [hcontext] at hlater
    exact (Platform.fromInstanceSpec_eq_ok hlater).1
  · rw [← hcontext]
    rcases hwork with hwork | hwork
    · exact admitOperation_eq_ok hwork
    · exact admitOperation_eq_ok hwork

def labText : String :=
  "\x7b\"rosHostname\":\"\",\"rosIp\":\"10.0.0.7\",\"rosMasterUri\":\"http://10.0.0.1:11311\"\x7d"

/-- A JSON reader that knows one text. -/
def labParse (text : String) (value : Json) (input : String) : Except String Json :=
  if input = text then .ok value else .error "Syntax error: value, object or array expected."

def labPlatform : Platform where
  parse := labParse labText (.object [("rosHostname", .string ""), ("rosIp", .string "10.0.0.7"),
    ("rosMasterUri", .string "http://10.0.0.1:11311")])
  inetPton4 := fun text => text == "10.0.0.7"
  inetPton6 := fun _ => false
  namesValidate := fun _ => .ok ()
  configuration := ⟨"native-context", "NativeContext", 1, "f"⟩

def labContext : NativeContext :=
  ⟨"http://10.0.0.1:11311", "10.0.0.7", "", "sha256:" ++ String.ofList (List.replicate 64 'a')⟩

def labSpec : InstanceSpec where
  configuration := some ⟨.json, some labPlatform.configuration, labText⟩
  secretsSize := 0
  scope := some labContext.scope

theorem one_scope_served_lab :
    labPlatform.fromInstanceSpec labSpec = .ok labContext ∧
      ∃ scope, labSpec.scope = some scope ∧ scope.attributes = labContext.attributes := by
  have h : labPlatform.fromInstanceSpec labSpec = .ok labContext := by decide +kernel
  obtain ⟨scope, payload, hscope, -, -, hattributes, -⟩ :=
    one_scope_served labPlatform ⟨⟨"p", "p", "1", "d", labPlatform.configuration, 0⟩,
      ⟨"s", "s", "1", "d", labPlatform.configuration, 0⟩⟩ h
  exact ⟨h, scope, hscope, hattributes⟩

end ToolsAdapter

end Ros1Tools.Adapter
