import Ros1Tools.Publish.Lease

/-!
# Publishers and the capability

`Publish` reads `publish_enabled_` once, at its start; `StopPublishCapability`
stores the flag and clears the registry in two steps, and waits for nobody.  An
operation that has passed the flag can therefore make its entry behind the clear,
and once it commits it, nothing removes it.  That is the only way in which a
publisher outlives the capability: uncommitted entries go with their last holder,
so the registry drains unless an operation commits an entry of the map while the
capability is disabled and no clear is still to come.
-/

namespace Ros1Tools.Publish

open Lib Registry

/-- An operation is about to commit an entry of the map although the capability is
disabled and no clear is pending. -/
def System.commitsDisabled (s : System) : Action → Bool
  | .publish i _ =>
      match s.calls[i]? with
      | none => false
      | some c =>
          match c.admission, c.pc with
          | .ok request, .commit lease _ =>
              decide (s.registry.entries.lookup request.topic = some lease.entry) &&
                !s.enabled && !s.lifecycle.clearing
          | _, _ => false
  | _ => false

/-- No entry of the map is committed. -/
def Registry.Uncommitted (r : Registry) : Prop :=
  ∀ t id, r.entries.lookup t = some id → (r.heap id).nativeDispatchCommitted = false

/-- While the capability is disabled, nothing in the map is committed, or it is about
to be cleared. -/
def System.Drains (s : System) : Prop :=
  s.enabled = false → s.lifecycle.clearing = false → s.registry.Uncommitted

namespace Registry

variable {maximumPublishers : Nat} {r r' : Registry}

theorem uncommitted_of_empty (h : r.entries = ∅) : r.Uncommitted := by
  intro t id hl
  rw [h, AList.lookup_empty] at hl
  cases hl

theorem Uncommitted.refresh (h : r.Uncommitted) (v : Int) :
    (r.refreshMasterGeneration v).2.Uncommitted := by
  unfold refreshMasterGeneration
  simp only
  split
  · exact h
  · split
    · exact uncommitted_of_empty rfl
    · exact h

theorem Uncommitted.probe (h : r.Uncommitted) (current : Option Int) :
    (r.probeMasterBinding current).2.Uncommitted := by
  unfold probeMasterBinding
  split
  · exact h
  · split
    · exact h
    · simp only
      split
      · exact h
      · split <;> exact h

theorem Uncommitted.acquire (h : r.Uncommitted) {holders : EntryId → Nat}
    (hr : r.Consistent maximumPublishers holders) {request : PublishRequest}
    {advertise : Except Exn Bool} {lease : Lease}
    (hacq : r.acquire maximumPublishers request advertise = (.ok lease, r')) :
    r'.Uncommitted := by
  intro t id hl
  rcases acquire_ok hacq with ⟨-, -, -, -, rfl⟩ | ⟨-, -, -, -, -, rfl⟩
  · rcases hr.lookup_emplace hl with ⟨-, rfl⟩ | ⟨-, hne, hl⟩
    · rw [heap_emplace_self]
    · rw [heap_emplace_of_ne hne]
      exact h t id hl
  · rw [heap_retain]
    exact h t id hl

/-- A release commits nothing that is in the map unless it is told to and the entry
is the topic's current one. -/
theorem Uncommitted.release (h : r.Uncommitted) {topic : String} {id : EntryId}
    {committed : Bool}
    (hcommitted : ∀ t, r.entries.lookup t = some id → committed = false) :
    (r.release topic id committed).Uncommitted := by
  intro t other hl
  have hbefore := (lookup_release.mp hl).1
  by_cases hid : other = id
  · subst hid
    rw [heap_release_self, released, h t other hbefore, hcommitted t hbefore, Bool.or_false]
  · rw [heap_release_of_ne hid]
    exact h t other hbefore

end Registry

section Step

variable {maximumPublishers : Nat} {s : System}

/-- A move of an operation that does not commit in the wrong moment. -/
theorem Move.uncommitted {c : Call} {next : Call × Registry}
    (hmove : Move maximumPublishers s.registry c next) (hinv : s.Inv maximumPublishers)
    (hc : c ∈ s.calls)
    (hok : ∀ request lease result, c.admission = .ok request → c.pc = .commit lease result →
      s.registry.entries.lookup request.topic ≠ some lease.entry)
    (h : s.registry.Uncommitted) : next.2.Uncommitted := by
  cases hmove with
  | quiet _ => exact h
  | refresh _ _ _ => exact h.refresh _
  | acquire _ _ hacq => exact h.acquire hinv.registry hacq
  | @release request lease committed pc hadm hlease _ _ _ hcommitted =>
      refine h.release fun t hl => Bool.eq_false_of_not_eq_true fun htrue => ?_
      obtain ⟨result, hpc⟩ := hcommitted htrue
      obtain ⟨_, hadm', hfor⟩ := (hinv.matched c hc).publisher _ (Pc.publisher_of_lease hlease)
      cases hadm.symm.trans hadm'
      have htopic : request.topic = t := by
        rw [← (hinv.registry.advertised _ _ hl).topic, (hinv.leased c hc _ hlease).2, hfor.1]
      exact hok _ _ _ hadm hpc (htopic ▸ hl)

theorem System.not_commit_of_ok {i : Nat} {env : CallEnv} {c : Call}
    (hok : s.commitsDisabled (.publish i env) = false) (hc : s.calls[i]? = some c)
    (henabled : s.enabled = false) (hclearing : s.lifecycle.clearing = false)
    {request : PublishRequest} {lease : Lease} {result : PublishResult}
    (hadm : c.admission = .ok request) (hpc : c.pc = .commit lease result) :
    s.registry.entries.lookup request.topic ≠ some lease.entry := by
  intro hl
  simp [commitsDisabled, hc, hadm, hpc, hl, henabled, hclearing] at hok

/-- A step keeps the invariant unless it commits in the wrong moment. -/
theorem System.Change.drains {a : Action} {s' : System}
    (hchange : Change maximumPublishers s a s') (hok : s.commitsDisabled a = false)
    (hinv : s.Inv maximumPublishers) (h : s.Drains) : s'.Drains := by
  cases hchange with
  | stay _ => exact h
  | submit _ => exact h
  | publish hc env =>
      intro henabled hclearing
      exact (Call.step_move env s.enabled).uncommitted hinv (List.mem_of_getElem? hc)
        (fun _ _ _ => not_commit_of_ok hok hc henabled hclearing) (h henabled hclearing)
  | probe => exact h
  | asked _ _ => exact h
  | probed _ _ => exact fun henabled hclearing => (h henabled hclearing).probe _
  | order _ hclear _ _ => exact fun henabled _ => h henabled hclear
  | activated _ => exact fun henabled => absurd henabled nofun
  | stored _ _ => exact fun _ hclearing => absurd hclearing nofun
  | cleared _ _ => exact fun _ _ => uncommitted_of_empty rfl

theorem System.drains_step (s : System) (a : Action) (hok : s.commitsDisabled a = false)
    (h : s.Inv maximumPublishers ∧ s.Drains) :
    (s.step maximumPublishers a).Inv maximumPublishers ∧ (s.step maximumPublishers a).Drains :=
  have hchange := s.step_change maximumPublishers a
  ⟨hchange.inv h.1, hchange.drains hok h.1 h.2⟩

end Step

/-- **Publishers exist only while the capability is enabled**, in every run in which
no operation commits an entry of the map while the capability is disabled and no
clear is pending: whenever the capability is disabled and neither an operation nor a
lifecycle call is in progress, the registry holds no entry. -/
theorem publishers_only_while_enabled (maximumPublishers : Nat) (is : List Action)
    (hok : Along (System.step maximumPublishers) (fun s a => s.commitsDisabled a = false)
      .init is) :
    let s := run (System.step maximumPublishers) .init is
    s.enabled = false → s.lifecycle = .idle → s.Quiet → s.registry.size = 0 := by
  intro s henabled hidle hquiet
  have h : s.Inv maximumPublishers ∧ s.Drains :=
    hok.invariant System.drains_step ⟨System.inv_init, fun _ _ => uncommitted_of_empty rfl⟩
  have hnone (t : String) : s.registry.entries.lookup t = none := by
    by_contra hsome
    obtain ⟨id, hl⟩ := Option.ne_none_iff_exists'.mp hsome
    have hclearing : s.lifecycle.clearing = false := by
      rw [hidle]
      rfl
    have huncommitted := h.2 henabled hclearing t id hl
    rcases h.1.registry.kept t id hl with hactive | hcommitted
    · rw [h.1.registry.counted, h.1.holders_of_quiet hquiet] at hactive
      exact Nat.lt_irrefl 0 hactive
    · exact Bool.false_ne_true (huncommitted.symm.trans hcommitted)
  refine List.length_eq_zero_iff.mpr (List.eq_nil_iff_forall_not_mem.mpr fun t ht => ?_)
  exact AList.lookup_eq_none.mp (hnone t) (AList.mem_keys.mpr ht)

/-! ## Two runs -/

/-- Nothing fails and nothing is cancelled. -/
def CallEnv.calm : CallEnv where
  cancellationRequested := false
  deadlineExpired := false
  generation := .ok 4242
  serialized := .ok (some 1)
  advertise := .ok true
  getNumSubscribers := .ok 1
  rosOk := true
  waitElapsed := false
  paced := true
  publish := .ok ()
  maximumResponseBytes := 65536
  writeJson _ := .ok 256

/-- One latched message. -/
def latchedRequest : PublishRequest := ⟨"/armed", "std_msgs/Bool", 1, true, 1, 0⟩

/-- The capability is started and one operation begins and takes `n` steps. -/
def started (n : Nat) : List Action :=
  [.applySpec, .startCapability true, .stepLifecycle, .submit (.ok latchedRequest)] ++
    List.replicate n (.publish 0 .calm)

/-- `StopPublishCapability` from beginning to end. -/
def stopped : List Action := [.stopCapability, .stepLifecycle, .stepLifecycle]

/-- If the operation is over when the capability is stopped, its publisher is
removed. -/
theorem publishers_only_while_enabled_stopped :
    let is := started 20 ++ stopped
    let s := run (System.step 8) .init is
    Along (System.step 8) (fun s a => s.commitsDisabled a = false) .init is ∧
      (run (System.step 8) .init (started 20)).registry.size = 1 ∧
      s.enabled = false ∧ s.lifecycle = .idle ∧ s.Quiet ∧ s.registry.size = 0 := by
  intro is s
  have hok : Along (System.step 8) (fun s a => s.commitsDisabled a = false) .init is := by
    decide +kernel
  have hstate : s.enabled = false ∧ s.lifecycle = .idle ∧ s.Quiet := by decide +kernel
  exact ⟨hok, by decide +kernel, hstate.1, hstate.2.1, hstate.2.2,
    publishers_only_while_enabled 8 is hok hstate.1 hstate.2.1 hstate.2.2⟩

/-- If the operation has read the flag and no more when the capability is stopped, its
latched publisher stays behind when everything is over. -/
theorem publisher_outlives_capability :
    let is := started 2 ++ stopped ++ List.replicate 18 (.publish 0 .calm)
    let s := run (System.step 8) .init is
    s.enabled = false ∧ s.lifecycle = .idle ∧ s.Quiet ∧ s.registry.size = 1 ∧
      s.registry.entries.lookup "/armed" = some 0 ∧
      (s.registry.heap 0).publisher = ⟨"/armed", "std_msgs/Bool", 1, true, true⟩ := by
  decide +kernel

end Ros1Tools.Publish
