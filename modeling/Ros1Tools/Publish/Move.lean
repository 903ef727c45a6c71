import Ros1Tools.Publish.Call

/-!
# What an operation does to the registry

Nothing, a refresh of the generation, an acquisition, or a release: `Move` says
which, together with everything about the operation itself that the invariants of
the registry need, and `Call.step_move` proves it of every step, once.  Nothing
after this file looks at the steps again.
-/

namespace Ros1Tools.Publish

/-! ## What an operation holds -/

namespace Pc

/-- The lease held here. -/
def lease? : Pc → Option Lease
  | .held _ lease _ | .abort lease _ | .commit lease _ => some lease
  | _ => none

/-- The publisher that is or will be dispatched on. -/
def publisher? : Pc → Option Publisher
  | .held _ lease _ | .abort lease _ | .commit lease _ => some lease.publisher
  | .dispatch publisher _ _ _ | .complete publisher _ => some publisher
  | _ => none

/-- The provider has not answered yet. -/
def early : Pc → Bool
  | .enter | .invocation | .check | .provider => true
  | _ => false

/-- The generation was found to be the bound one. -/
def cleared : Pc → Bool
  | .message | .acquire _ | .held .. | .abort .. | .commit .. | .dispatch .. | .complete ..
  | .encode _ => true
  | _ => false

def finished : Pc → Bool
  | .reported _ | .escaped => true
  | _ => false

/-- A generation that is about to be compared. -/
def refreshing? : Pc → Option Int
  | .refresh current => some current
  | _ => none

theorem cleared_of_publisher {pc : Pc} {p : Publisher} (h : pc.publisher? = some p) :
    pc.cleared = true := by
  cases pc <;> first | rfl | cases h

theorem publisher_of_lease {pc : Pc} {l : Lease} (h : pc.lease? = some l) :
    pc.publisher? = some l.publisher := by
  cases pc <;> cases h <;> rfl

/-- Where an operation holds nothing and waits for nothing. -/
structure Idle (pc : Pc) : Prop where
  lease : pc.lease? = none
  publisher : pc.publisher? = none
  early : pc.early = false
  refreshing : pc.refreshing? = none

theorem idle_fail (e : Exn) : (Pc.fail e).Idle := by
  unfold Pc.fail
  split <;> exact ⟨rfl, rfl, rfl, rfl⟩

theorem cleared_fail (e : Exn) : (Pc.fail e).cleared = false := by
  unfold Pc.fail
  split <;> rfl

end Pc

/-! ## Moves -/

/-- The call after a step to `pc` with the given events. -/
def Call.goto (c : Call) (pc : Pc) (events : List Event) : Call :=
  { c with pc := pc, log := c.log ++ events }

/-- A step that leaves the registry alone: no lease changes hands, the publisher is
kept or dropped, native calls are made on it only, and a generation is obtained
from the provider only. -/
structure Local (pc : Pc) (next : Pc × List Event) : Prop where
  lease : next.1.lease? = pc.lease?
  publisher : next.1.publisher? = pc.publisher? ∨ next.1.publisher? = none
  native : ∀ p, .native p ∈ next.2 → pc.publisher? = some p
  acquired : acquisitions next.2 = []
  released : releases next.2 = []
  obtained : generations next.2 = [] ∨ pc.early = true ∧ next.1.early = false ∧
    ∃ v, generations next.2 = [v]
  early : next.1.early = true → pc.early = true ∧ generations next.2 = []
  refreshing : ∀ v, next.1.refreshing? = some v →
    (pc.refreshing? = some v ∧ generations next.2 = []) ∨
      (pc.early = true ∧ 0 < v ∧ generations next.2 = [v])
  cleared : next.1.cleared = true → pc.cleared = true

/-- What a step of the operation `c` can do in the registry `r`. -/
inductive Move (maximumPublishers : Nat) (r : Registry) (c : Call) : Call × Registry → Prop
  | quiet {next : Pc × List Event} (h : Local c.pc next) :
      Move maximumPublishers r c (c.goto next.1 next.2, r)
  | refresh {v : Int} {pc : Pc} (hpc : c.pc = .refresh v) (hidle : pc.Idle)
      (hcleared : pc.cleared = true → (r.refreshMasterGeneration v).1 = .ok ()) :
      Move maximumPublishers r c (c.goto pc [], (r.refreshMasterGeneration v).2)
  | acquire {request : PublishRequest} {advertise : Except Exn Bool} {lease : Lease}
      {r' : Registry} {n : Nat} (hadm : c.admission = .ok request) (hpc : c.pc = .acquire n)
      (hr : r.acquire maximumPublishers request advertise = (.ok lease, r')) :
      Move maximumPublishers r c
        (c.goto (.held n lease .handle) [.acquired lease.entry], r')
  | release {request : PublishRequest} {lease : Lease} {committed : Bool} {pc : Pc}
      (hadm : c.admission = .ok request) (hlease : c.pc.lease? = some lease)
      (hnone : pc.lease? = none)
      (hpublisher : pc.publisher? = some lease.publisher ∨ pc.publisher? = none)
      (hlate : pc.early = false ∧ pc.refreshing? = none)
      (hcommitted : committed = true → ∃ result, c.pc = .commit lease result) :
      Move maximumPublishers r c
        (c.goto pc [.released lease.entry committed],
          r.release request.topic lease.entry committed)

section Local

variable {pc pc' : Pc} {found : Check}

/-- A step that makes no native call, obtains nothing and stays behind the
comparison of generations. -/
theorem Local.of_cleared {events : List Event} (hpc : pc.cleared = true)
    (hlease : pc'.lease? = pc.lease?)
    (hpublisher : pc'.publisher? = pc.publisher? ∨ pc'.publisher? = none)
    (hearly : pc'.early = false) (hrefreshing : pc'.refreshing? = none)
    (hnative : ∀ p, .native p ∈ events → pc.publisher? = some p)
    (hacquired : acquisitions events = []) (hreleased : releases events = [])
    (hobtained : generations events = []) : Local pc (pc', events) where
  lease := hlease
  publisher := hpublisher
  native := hnative
  acquired := hacquired
  released := hreleased
  obtained := .inl hobtained
  early h := absurd (hearly.symm.trans h) Bool.false_ne_true
  refreshing _ h := absurd (hrefreshing.symm.trans h) nofun
  cleared _ := hpc

/-- A step on which the operation ends without having held anything. -/
theorem Local.fail {e : Exn} {events : List Event} (hlease : pc.lease? = none)
    (hnative : ∀ p, .native p ∈ events → pc.publisher? = some p)
    (hacquired : acquisitions events = []) (hreleased : releases events = [])
    (hobtained : generations events = [] ∨ pc.early = true ∧ ∃ v, generations events = [v]) :
    Local pc (.fail e, events) where
  lease := (Pc.idle_fail e).lease.trans hlease.symm
  publisher := .inr (Pc.idle_fail e).publisher
  native := hnative
  acquired := hacquired
  released := hreleased
  obtained := hobtained.imp_right fun h => ⟨h.1, (Pc.idle_fail e).early, h.2⟩
  early h := absurd ((Pc.idle_fail e).early.symm.trans h) Bool.false_ne_true
  refreshing _ h := absurd ((Pc.idle_fail e).refreshing.symm.trans h) nofun
  cleared h := absurd ((Pc.cleared_fail e).symm.trans h) Bool.false_ne_true

/-- Up to the release every step keeps the lease. -/
theorem Pc.local_stepHeld (request : PublishRequest) (env : CallEnv) (n : Nat) (lease : Lease)
    (stage : Held) :
    Local (.held n lease stage) (Pc.stepHeld request env n lease stage) := by
  have hsilent {pc' : Pc} (h₁ : pc'.lease? = some lease)
      (h₂ : pc'.early = false ∧ pc'.refreshing? = none) :
      Local (.held n lease stage) (pc', []) :=
    .of_cleared rfl h₁ (.inl (Pc.publisher_of_lease h₁)) h₂.1 h₂.2 nofun rfl rfl rfl
  have hchecked {pc' : Pc} (h₁ : pc'.lease? = some lease)
      (h₂ : pc'.early = false ∧ pc'.refreshing? = none) :
      Local (.held n lease stage) (pc', [.check env.check]) :=
    .of_cleared rfl h₁ (.inl (Pc.publisher_of_lease h₁)) h₂.1 h₂.2
      (fun p h => by simp at h) rfl rfl rfl
  cases stage with
  | handle =>
      rw [Pc.stepHeld]
      split
      · exact hsilent rfl ⟨rfl, rfl⟩
      · split <;> exact hsilent rfl ⟨rfl, rfl⟩
  | waiting =>
      rw [Pc.stepHeld]
      split
      · exact hsilent rfl ⟨rfl, rfl⟩
      · split
        · split <;> exact hchecked rfl ⟨rfl, rfl⟩
        · exact hsilent rfl ⟨rfl, rfl⟩
  | waited =>
      rw [Pc.stepHeld]
      split
      · exact hchecked rfl ⟨rfl, rfl⟩
      · split
        · exact hchecked rfl ⟨rfl, rfl⟩
        · split <;> exact hchecked rfl ⟨rfl, rfl⟩
  | alive =>
      rw [Pc.stepHeld]
      split
      · exact hsilent rfl ⟨rfl, rfl⟩
      · split <;> exact hsilent rfl ⟨rfl, rfl⟩
  | last result =>
      rw [Pc.stepHeld]
      split <;> exact hchecked rfl ⟨rfl, rfl⟩

/-- The dispatch loop stays on its publisher until it ends. -/
theorem Pc.local_stepDispatch (request : PublishRequest) (env : CallEnv) (publisher : Publisher)
    (result : PublishResult) (index : Nat) (round : Round) :
    Local (.dispatch publisher result index round)
      (Pc.stepDispatch request env publisher result index round) := by
  have hgo {result' : PublishResult} {i : Nat} {next : Round} {events : List Event}
      (hnative : ∀ p, .native p ∈ events → some publisher = some p)
      (h : acquisitions events = [] ∧ releases events = [] ∧ generations events = []) :
      Local (.dispatch publisher result index round)
        (.dispatch publisher result' i next, events) :=
    .of_cleared rfl rfl (.inl rfl) rfl rfl hnative h.1 h.2.1 h.2.2
  have hfail {e : Exn} {events : List Event}
      (hnative : ∀ p, .native p ∈ events → some publisher = some p)
      (h : acquisitions events = [] ∧ releases events = [] ∧ generations events = []) :
      Local (.dispatch publisher result index round) (.fail e, events) :=
    .fail rfl hnative h.1 h.2.1 (.inl h.2.2)
  have hnone (p : Publisher) (h : Event.native p ∈ ([] : List Event)) :
      some publisher = some p := absurd h List.not_mem_nil
  have hcheck (p : Publisher) (h : Event.native p ∈ [Event.check env.check]) :
      some publisher = some p := by
    simp at h
  have hnative (p : Publisher) (h : Event.native p ∈ [Event.native publisher]) :
      some publisher = some p := by
    simp only [List.mem_singleton, Event.native.injEq] at h
    rw [h]
  cases round with
  | head =>
      rw [Pc.stepDispatch]
      split
      · exact hgo hnone ⟨rfl, rfl, rfl⟩
      · exact .of_cleared rfl rfl (.inl rfl) rfl rfl nofun rfl rfl rfl
  | pace =>
      rw [Pc.stepDispatch]
      split
      · exact hgo hnone ⟨rfl, rfl, rfl⟩
      · split
        · exact hfail hcheck ⟨rfl, rfl, rfl⟩
        · exact hgo hcheck ⟨rfl, rfl, rfl⟩
  | alive =>
      rw [Pc.stepDispatch]
      split
      · exact hfail hnone ⟨rfl, rfl, rfl⟩
      · exact hgo hnone ⟨rfl, rfl, rfl⟩
  | check =>
      rw [Pc.stepDispatch]
      split
      · exact hfail hcheck ⟨rfl, rfl, rfl⟩
      · exact hgo hcheck ⟨rfl, rfl, rfl⟩
  | native =>
      rw [Pc.stepDispatch]
      split
      · exact hfail hnative ⟨rfl, rfl, rfl⟩
      · exact hgo hnative ⟨rfl, rfl, rfl⟩
  | after =>
      rw [Pc.stepDispatch]
      split
      · exact hfail hcheck ⟨rfl, rfl, rfl⟩
      · exact hgo hcheck ⟨rfl, rfl, rfl⟩

end Local

/-- A refused acquisition leaves the registry as it is. -/
theorem Registry.acquire_error {maximumPublishers : Nat} {request : PublishRequest}
    {advertise : Except Exn Bool} {r r' : Registry} {e : Exn}
    (h : r.acquire maximumPublishers request advertise = (.error e, r')) : r' = r := by
  unfold Registry.acquire at h
  split at h
  · split at h
    · cases h
      rfl
    · split at h
      · cases h
        rfl
      · cases h
  · simp only at h
    split at h
    · cases h
      rfl
    · cases h

/-- Doing nothing is a move. -/
theorem Local.refl (pc : Pc) : Local pc (pc, []) where
  lease := rfl
  publisher := .inl rfl
  native := nofun
  acquired := rfl
  released := rfl
  obtained := .inl rfl
  early h := ⟨h, rfl⟩
  refreshing _ h := .inl ⟨h, rfl⟩
  cleared h := h

/-- A step that only moves on towards the provider. -/
theorem Local.of_early {pc pc' : Pc} {events : List Event} (h : pc.early = true)
    (hlease : pc'.lease? = pc.lease?) (hpublisher : pc'.publisher? = none)
    (hcleared : pc'.cleared = false) (hrefreshing : pc'.refreshing? = none)
    (hnative : ∀ p, .native p ∈ events → pc.publisher? = some p)
    (hevents : acquisitions events = [] ∧ releases events = [] ∧ generations events = []) :
    Local pc (pc', events) where
  lease := hlease
  publisher := .inr hpublisher
  native := hnative
  acquired := hevents.1
  released := hevents.2.1
  obtained := .inl hevents.2.2
  early _ := ⟨h, hevents.2.2⟩
  refreshing _ hr := absurd (hrefreshing.symm.trans hr) nofun
  cleared hc := absurd (hcleared.symm.trans hc) Bool.false_ne_true

section Move

variable {maximumPublishers : Nat} {request : PublishRequest} {r : Registry} {c : Call}

/-- The move an outcome amounts to. -/
def Outcome.IsMove (maximumPublishers : Nat) (r : Registry) (c : Call) (o : Outcome) : Prop :=
  Move maximumPublishers r c (c.goto o.pc o.events, o.registry)

theorem Outcome.isMove_quiet {pc : Pc} {events : List Event} (h : Local c.pc (pc, events)) :
    Outcome.IsMove maximumPublishers r c ⟨pc, events, r⟩ := Move.quiet h

/-- What a step behind the admission can do. -/
theorem Pc.step_isMove (env : CallEnv) (hadm : c.admission = .ok request) :
    (c.pc.step maximumPublishers request env r).IsMove maximumPublishers r c := by
  have hfail {e : Exn} (h : c.pc.lease? = none) : Local c.pc (.fail e, []) :=
    .fail h nofun rfl rfl (.inl rfl)
  cases hpc : c.pc with
  | enter => exact Outcome.isMove_quiet (hpc ▸ Local.refl _)
  | invocation => exact Outcome.isMove_quiet (hpc ▸ Local.refl _)
  | check =>
      rw [Pc.step]
      split
      · refine Outcome.isMove_quiet ?_
        rw [hpc]
        exact .fail rfl (fun p h => by simp at h) rfl rfl (.inl rfl)
      · refine Outcome.isMove_quiet ?_
        rw [hpc]
        exact .of_early rfl rfl rfl rfl rfl (fun p h => by simp at h) ⟨rfl, rfl, rfl⟩
  | provider =>
      rw [Pc.step]
      split
      · refine Outcome.isMove_quiet (hfail ?_)
        rw [hpc]
        rfl
      · split
        · refine Outcome.isMove_quiet ?_
          rw [hpc]
          exact .fail rfl (fun p h => by simp at h) rfl rfl (.inr ⟨rfl, _, rfl⟩)
        · rename_i current _ hpos
          refine Outcome.isMove_quiet ?_
          rw [hpc]
          refine ⟨rfl, .inl rfl, fun p h => by simp at h, rfl, rfl, .inr ⟨rfl, rfl, _, rfl⟩, nofun,
            fun v hv => .inr ?_, nofun⟩
          cases hv
          exact ⟨rfl, Int.lt_of_not_ge hpos, rfl⟩
  | refresh current =>
      rw [Pc.step]
      cases hr : r.refreshMasterGeneration current with
      | mk res r' =>
          have hr' : r' = (r.refreshMasterGeneration current).2 := by rw [hr]
          subst hr'
          cases res with
          | error e =>
              exact Move.refresh hpc (Pc.idle_fail e) fun h =>
                absurd ((Pc.cleared_fail e).symm.trans h) Bool.false_ne_true
          | ok u => exact Move.refresh hpc ⟨rfl, rfl, rfl, rfl⟩ fun _ => by rw [hr]
  | message =>
      have hnone : c.pc.lease? = none := by rw [hpc]; rfl
      rw [Pc.step]
      split
      · exact Outcome.isMove_quiet (hfail hnone)
      · exact Outcome.isMove_quiet (hfail hnone)
      · refine Outcome.isMove_quiet ?_
        rw [hpc]
        exact .of_cleared rfl rfl (.inl rfl) rfl rfl nofun rfl rfl rfl
  | acquire n =>
      have hnone : c.pc.lease? = none := by rw [hpc]; rfl
      rw [Pc.step]
      split
      · rename_i hr
        rw [Registry.acquire_error hr]
        exact Outcome.isMove_quiet (hfail hnone)
      · rename_i hr
        exact Move.acquire hadm hpc hr
  | held n lease stage =>
      have hlocal := Pc.local_stepHeld request env n lease stage
      rw [← hpc] at hlocal
      exact Move.quiet hlocal
  | abort lease e =>
      exact Move.release hadm (by rw [hpc]; rfl) (Pc.idle_fail e).lease
        (.inr (Pc.idle_fail e).publisher) ⟨(Pc.idle_fail e).early, (Pc.idle_fail e).refreshing⟩
        nofun
  | commit lease result =>
      exact Move.release hadm (by rw [hpc]; rfl) rfl (.inl rfl) ⟨rfl, rfl⟩ fun _ => ⟨result, hpc⟩
  | dispatch publisher result index round =>
      have hlocal := Pc.local_stepDispatch request env publisher result index round
      rw [← hpc] at hlocal
      exact Move.quiet hlocal
  | complete publisher result =>
      have hnone : c.pc.lease? = none := by rw [hpc]; rfl
      rw [Pc.step]
      split
      · exact Outcome.isMove_quiet (hfail hnone)
      · refine Outcome.isMove_quiet ?_
        rw [hpc]
        exact .of_cleared rfl rfl (.inr rfl) rfl rfl nofun rfl rfl rfl
  | encode result =>
      have hnone : c.pc.lease? = none := by rw [hpc]; rfl
      rw [Pc.step]
      split
      · exact Outcome.isMove_quiet (hfail hnone)
      · refine Outcome.isMove_quiet ?_
        rw [hpc]
        exact .of_cleared rfl rfl (.inl rfl) rfl rfl nofun rfl rfl rfl
  | reported result => exact Outcome.isMove_quiet (hpc ▸ Local.refl _)
  | escaped => exact Outcome.isMove_quiet (hpc ▸ Local.refl _)

/-- **What a step of an operation can do.** -/
theorem Call.step_move (env : CallEnv) (enabled : Bool) :
    Move maximumPublishers r c (c.step maximumPublishers env enabled r) := by
  have hquiet {pc : Pc} (h : Local c.pc (pc, [])) :
      Move maximumPublishers r c ({ c with pc := pc }, r) := by
    have hmove : Move maximumPublishers r c (_, r) := .quiet h
    rwa [Call.goto, List.append_nil] at hmove
  have hfail {e : Exn} (h : c.pc.lease? = none) : Local c.pc (.fail e, []) :=
    .fail h nofun rfl rfl (.inl rfl)
  rw [Call.step]
  split
  · rename_i hpc
    split
    · exact hquiet (hfail (by rw [hpc]; rfl))
    · refine hquiet ?_
      rw [hpc]
      exact .of_early rfl rfl rfl rfl rfl nofun ⟨rfl, rfl, rfl⟩
  · rename_i hpc
    split
    · exact hquiet (hfail (by rw [hpc]; rfl))
    · refine hquiet ?_
      rw [hpc]
      exact .of_early rfl rfl rfl rfl rfl nofun ⟨rfl, rfl, rfl⟩
  · split
    · exact hquiet (Local.refl _)
    · rename_i hadm
      exact Pc.step_isMove env hadm

end Move

end Ros1Tools.Publish
