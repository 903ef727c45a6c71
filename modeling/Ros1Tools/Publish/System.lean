import Ros1Tools.Lib.Run
import Ros1Tools.Publish.Move

/-!
# Publish operations, probes and the capability's lifecycle

Any number of publish operations and of `ProbeMasterBinding` calls run beside each
other and beside one lifecycle call at a time, over one registry and one
`publish_enabled_` flag.  An action names who moves and what it is answered, so a
list of actions is an interleaving.
-/

namespace Ros1Tools.Publish

open Lib Registry

/-- A `probeMasterBinding` call.  What the provider returned is kept; `none` if it
threw. -/
inductive Probe where
  /-- The provider is asked. -/
  | ask
  /-- The lock is taken. -/
  | lock (current : Option Int)
  | done (current : Option Int) (state : MasterBindingState)

/-- The lifecycle call in progress.  `ClearInstanceSpec` stops the capability
first, and is told from `StopPublishCapability` by the flag. -/
inductive Lifecycle where
  | idle
  /-- `StartPublishCapability` has made its checks and exchanges the flag. -/
  | activate
  /-- `publish_enabled_.store(false)`. -/
  | store (clearsSpec : Bool)
  /-- `publishers_.clear()`. -/
  | clear (clearsSpec : Bool)
  /-- `instance_spec_applied_.store(false)`. -/
  | unapply
deriving DecidableEq

/-- A lifecycle call has stored the flag and not yet cleared the registry. -/
def Lifecycle.clearing : Lifecycle → Bool
  | .clear _ => true
  | _ => false

structure System where
  registry : Registry
  /-- `publish_enabled_`. -/
  enabled : Bool
  /-- `instance_spec_applied_`. -/
  specApplied : Bool
  lifecycle : Lifecycle
  /-- Every publish operation so far. -/
  calls : List Call
  /-- Every probe so far. -/
  probes : List Probe

inductive Action where
  /-- A publish operation begins. -/
  | submit (admission : Except Exn PublishRequest)
  /-- Publish operation number `i` takes a step. -/
  | publish (i : Nat) (env : CallEnv)
  /-- A probe begins. -/
  | probe
  /-- Probe number `i` takes a step. -/
  | stepProbe (i : Nat) (provider : Option Int)
  /-- `ApplyInstanceSpec` accepts a spec. -/
  | applySpec
  /-- `StartPublishCapability` begins, and its spec and grant are valid or not. -/
  | startCapability (valid : Bool)
  /-- `StopPublishCapability` begins. -/
  | stopCapability
  /-- `ClearInstanceSpec` begins. -/
  | clearSpec
  /-- The lifecycle call in progress takes a step. -/
  | stepLifecycle

namespace System

/-- The adapter as constructed. -/
def init : System := ⟨.init, false, false, .idle, [], []⟩

/-- A step of a probe. -/
def stepProbe (s : System) (i : Nat) (provider : Option Int) : System :=
  match s.probes[i]? with
  | some .ask => { s with probes := s.probes.set i (.lock provider) }
  | some (.lock current) =>
      let next := s.registry.probeMasterBinding current
      { s with registry := next.2, probes := s.probes.set i (.done current next.1) }
  | _ => s

/-- A step of the lifecycle call in progress. -/
def stepLifecycle (s : System) : System :=
  match s.lifecycle with
  | .idle => s
  -- The exchange either finds the flag clear and sets it, or fails.
  | .activate => { s with enabled := true, lifecycle := .idle }
  | .store clearsSpec => { s with enabled := false, lifecycle := .clear clearsSpec }
  | .clear clearsSpec =>
      { s with registry := s.registry.clear, lifecycle := if clearsSpec then .unapply else .idle }
  | .unapply => { s with specApplied := false, lifecycle := .idle }

/-- One step of the system.  Lifecycle calls are serialized: one that would begin
while another is in progress does not. -/
def step (maximumPublishers : Nat) (s : System) : Action → System
  | .submit admission => { s with calls := s.calls ++ [.init admission] }
  | .publish i env =>
      match s.calls[i]? with
      | none => s
      | some c =>
          let next := c.step maximumPublishers env s.enabled s.registry
          { s with registry := next.2, calls := s.calls.set i next.1 }
  | .probe => { s with probes := s.probes ++ [.ask] }
  | .stepProbe i provider => s.stepProbe i provider
  | .applySpec => if s.lifecycle = .idle then { s with specApplied := true } else s
  | .startCapability valid =>
      if s.lifecycle = .idle ∧ s.specApplied = true ∧ valid = true then
        { s with lifecycle := .activate }
      else s
  | .stopCapability =>
      if s.lifecycle = .idle then { s with lifecycle := .store false } else s
  | .clearSpec => if s.lifecycle = .idle then { s with lifecycle := .store true } else s
  | .stepLifecycle => s.stepLifecycle

/-- No publish operation is in progress. -/
def Quiet (s : System) : Prop := ∀ c ∈ s.calls, c.pc.finished = true

instance (s : System) : Decidable s.Quiet :=
  inferInstanceAs (Decidable (∀ c ∈ s.calls, c.pc.finished = true))

/-! ## What a step can do -/

/-- What an action makes of a state.  A lifecycle call that has disabled the
capability does nothing but empty the map. -/
inductive Change (maximumPublishers : Nat) (s : System) : Action → System → Prop
  | stay (a : Action) : Change maximumPublishers s a s
  | submit (admission : Except Exn PublishRequest) :
      Change maximumPublishers s (.submit admission)
        { s with calls := s.calls ++ [.init admission] }
  | publish {i : Nat} {c : Call} (hc : s.calls[i]? = some c) (env : CallEnv) :
      Change maximumPublishers s (.publish i env)
        { s with
          registry := (c.step maximumPublishers env s.enabled s.registry).2
          calls := s.calls.set i (c.step maximumPublishers env s.enabled s.registry).1 }
  | probe : Change maximumPublishers s .probe { s with probes := s.probes ++ [.ask] }
  | asked {i : Nat} (hp : s.probes[i]? = some .ask) (provider : Option Int) :
      Change maximumPublishers s (.stepProbe i provider)
        { s with probes := s.probes.set i (.lock provider) }
  | probed {i : Nat} {current : Option Int} (hp : s.probes[i]? = some (.lock current))
      (provider : Option Int) :
      Change maximumPublishers s (.stepProbe i provider)
        { s with
          registry := (s.registry.probeMasterBinding current).2
          probes := s.probes.set i (.done current (s.registry.probeMasterBinding current).1) }
  | order (a : Action) (hclear : s.lifecycle.clearing = false) (specApplied : Bool)
      (lifecycle : Lifecycle) :
      Change maximumPublishers s a { s with specApplied := specApplied, lifecycle := lifecycle }
  | activated (a : Action) :
      Change maximumPublishers s a { s with enabled := true, lifecycle := .idle }
  | stored (a : Action) (clearsSpec : Bool) :
      Change maximumPublishers s a { s with enabled := false, lifecycle := .clear clearsSpec }
  | cleared (a : Action) (lifecycle : Lifecycle) :
      Change maximumPublishers s a
        { s with registry := s.registry.clear, lifecycle := lifecycle }

theorem step_change (maximumPublishers : Nat) (s : System) (a : Action) :
    Change maximumPublishers s a (s.step maximumPublishers a) := by
  have hidle (h : s.lifecycle = .idle) : s.lifecycle.clearing = false := by
    rw [h]
    rfl
  cases a with
  | submit admission => exact .submit admission
  | publish i env =>
      rw [step]
      split
      · exact .stay _
      · rename_i hc
        exact .publish hc env
  | probe => exact .probe
  | stepProbe i provider =>
      rw [step, stepProbe]
      split
      · rename_i hp
        exact .asked hp provider
      · rename_i hp
        exact .probed hp provider
      · exact .stay _
  | applySpec =>
      rw [step]
      split
      · rename_i h
        exact .order _ (hidle h) true s.lifecycle
      · exact .stay _
  | startCapability valid =>
      rw [step]
      split
      · rename_i h
        exact .order _ (hidle h.1) s.specApplied .activate
      · exact .stay _
  | stopCapability =>
      rw [step]
      split
      · rename_i h
        exact .order _ (hidle h) s.specApplied (.store false)
      · exact .stay _
  | clearSpec =>
      rw [step]
      split
      · rename_i h
        exact .order _ (hidle h) s.specApplied (.store true)
      · exact .stay _
  | stepLifecycle =>
      rw [step, stepLifecycle]
      split
      · exact .stay _
      · exact .activated _
      · exact .stored _ _
      · exact .cleared _ _
      · rename_i h
        refine .order _ ?_ false .idle
        rw [h]
        rfl

end System

end Ros1Tools.Publish
