import Ros1Tools.Publish.Consistent
import Ros1Tools.Publish.System

/-!
# One master generation per process

The provider is asked outside the lock, so operations and probes can race with
values read before and after a restart of the master, and whoever comes first binds
the process.  Everything rests on the registry's generation being written only
while it is zero: what an operation has established against the bound value stays
established.
-/

namespace Ros1Tools.Publish

open Lib Registry

/-! ## The registry -/

namespace Registry

variable {maximumPublishers : Nat} {r r' : Registry}

/-- The generation is the first that reached the lock, and those were positive. -/
structure FirstArrival (r : Registry) : Prop where
  first : r.masterGeneration = r.arrivals.head?.getD 0
  positive : ∀ v ∈ r.arrivals, 0 < v

/-- A generation, once bound, stays. -/
def StaysBound (r r' : Registry) : Prop :=
  r.masterGeneration ≠ 0 → r'.masterGeneration = r.masterGeneration

/-- Both at once, for a function that leaves the generation alone. -/
theorem FirstArrival.of_eq (h : r.FirstArrival) (hgen : r'.masterGeneration = r.masterGeneration)
    (harr : r'.arrivals = r.arrivals) : r'.FirstArrival ∧ r.StaysBound r' :=
  ⟨⟨by rw [hgen, harr, h.first], harr ▸ h.positive⟩, fun _ => hgen⟩

/-- Both at once, for a positive value that reaches the lock. -/
theorem FirstArrival.arrive (h : r.FirstArrival) {v : Int} (hv : 0 < v)
    (hgen : r'.masterGeneration = if r.masterGeneration = 0 then v else r.masterGeneration)
    (harr : r'.arrivals = r.arrivals ++ [v]) : r'.FirstArrival ∧ r.StaysBound r' := by
  refine ⟨⟨?_, ?_⟩, fun hne => by rw [hgen, if_neg hne]⟩
  · rw [hgen, harr, h.first]
    cases hlist : r.arrivals with
    | nil => simp
    | cons w ws =>
        have hw : 0 < w := h.positive w (by rw [hlist]; exact List.mem_cons_self)
        simp [Int.ne_of_gt hw]
  · rw [harr]
    intro w hw
    rcases List.mem_append.mp hw with hw | hw
    · exact h.positive w hw
    · rwa [List.mem_singleton.mp hw]

theorem refresh_eq (r : Registry) (v : Int) :
    (r.refreshMasterGeneration v).2.masterGeneration =
        (if r.masterGeneration = 0 then v else r.masterGeneration) ∧
      (r.refreshMasterGeneration v).2.arrivals = r.arrivals ++ [v] := by
  unfold refreshMasterGeneration
  simp only
  split
  · exact ⟨rfl, rfl⟩
  · split <;> exact ⟨rfl, rfl⟩

/-- The comparison succeeds for the bound generation, which it may just have bound. -/
theorem eq_of_refresh_ok {v : Int} (h : (r.refreshMasterGeneration v).1 = .ok ()) :
    (r.refreshMasterGeneration v).2.masterGeneration = v := by
  rw [(refresh_eq r v).1]
  unfold refreshMasterGeneration at h
  simp only at h
  split
  · rfl
  · rename_i hbound
    rw [if_neg hbound] at h
    split at h
    · cases h
    · rename_i heq
      exact not_not.mp heq

/-- A different generation empties the map. -/
theorem size_refresh_of_ne {v : Int} (hbound : r.masterGeneration ≠ 0)
    (hne : v ≠ r.masterGeneration) : (r.refreshMasterGeneration v).2.size = 0 := by
  unfold refreshMasterGeneration
  simp only
  rw [if_neg hbound, if_pos hne.symm]
  rfl

theorem acquire_eq {request : PublishRequest} {advertise : Except Exn Bool} {lease : Lease}
    (h : r.acquire maximumPublishers request advertise = (.ok lease, r')) :
    r'.masterGeneration = r.masterGeneration ∧ r'.arrivals = r.arrivals := by
  rcases acquire_ok h with ⟨-, -, -, -, rfl⟩ | ⟨-, -, -, -, -, rfl⟩ <;> exact ⟨rfl, rfl⟩

theorem probe_eq (r : Registry) (current : Option Int) :
    ((r.probeMasterBinding current).2 = r ∧ (r.probeMasterBinding current).1 ≠ .changed ∧
      ∀ v, current = some v → v ≤ 0) ∨
    ∃ v, current = some v ∧ 0 < v ∧
      (r.probeMasterBinding current).2.masterGeneration =
        (if r.masterGeneration = 0 then v else r.masterGeneration) ∧
      (r.probeMasterBinding current).2.arrivals = r.arrivals ++ [v] ∧
      ((r.probeMasterBinding current).1 = .changed ↔
        v ≠ (r.probeMasterBinding current).2.masterGeneration) := by
  cases current with
  | none =>
      refine .inl ⟨rfl, ?_, nofun⟩
      simp only [probeMasterBinding]
      split <;> nofun
  | some v =>
      by_cases hv : v ≤ 0
      · refine .inl ?_
        simp only [probeMasterBinding, if_pos hv]
        refine ⟨trivial, ?_, ?_⟩
        · split <;> nofun
        · rintro _ ⟨⟩
          exact hv
      · refine .inr ⟨v, rfl, Int.lt_of_not_ge hv, ?_⟩
        simp only [probeMasterBinding, if_neg hv]
        split
        · exact ⟨rfl, rfl, nofun, fun h => absurd rfl h⟩
        · split
          · rename_i hne
            exact ⟨rfl, rfl, fun _ => Ne.symm hne, fun _ => rfl⟩
          · rename_i heq
            exact ⟨rfl, rfl, nofun, fun h => absurd (not_not.mp heq).symm h⟩

end Registry

/-! ## Operations -/

/-- What an operation has obtained from the provider, given the bound generation. -/
structure Call.Generated (bound : Int) (c : Call) : Prop where
  early : c.pc.early = true → generations c.log = []
  refreshing : ∀ v, c.pc.refreshing? = some v → 0 < v ∧ generations c.log = [v]
  cleared : c.pc.cleared = true → bound ≠ 0 ∧ generations c.log = [bound]
  native : natives c.log ≠ 0 → bound ≠ 0 ∧ generations c.log = [bound]

section Call

variable {maximumPublishers : Nat} {r r' : Registry} {c : Call} {next : Call × Registry}

theorem Call.Generated.mono (h : c.Generated r.masterGeneration) (hr : r.StaysBound r') :
    c.Generated r'.masterGeneration where
  early := h.early
  refreshing := h.refreshing
  cleared hc := by
    obtain ⟨hne, hgen⟩ := h.cleared hc
    rw [hr hne]
    exact ⟨hne, hgen⟩
  native hn := by
    obtain ⟨hne, hgen⟩ := h.native hn
    rw [hr hne]
    exact ⟨hne, hgen⟩

theorem mem_of_natives {log : List Event} (h : natives log ≠ 0) : ∃ p, .native p ∈ log := by
  obtain ⟨e, he, hnative⟩ := List.countP_pos_iff.mp (Nat.pos_of_ne_zero h)
  cases e with
  | native p => exact ⟨p, he⟩
  | _ => cases hnative

/-- A step that leaves the registry alone asks the provider at most once, before
anything is dispatched. -/
theorem Call.Generated.goto {bound : Int} (h : c.Generated bound) {pc : Pc} {events : List Event}
    (hlocal : Local c.pc (pc, events)) : (c.goto pc events).Generated bound := by
  -- Behind the provider nothing more is obtained.
  have hlate (hgen : generations c.log = [bound]) :
      generations (c.log ++ events) = [bound] := by
    rcases hlocal.obtained with hnone | ⟨hearly, -⟩
    · rw [generations_append, hgen, hnone, List.append_nil]
    · rw [h.early hearly] at hgen
      cases hgen
  constructor
  case early =>
    intro hearly
    obtain ⟨hbefore, hnone⟩ := hlocal.early hearly
    rw [Call.goto, generations_append, h.early hbefore, hnone, List.append_nil]
  case refreshing =>
    intro v hv
    rw [Call.goto, generations_append]
    rcases hlocal.refreshing v hv with ⟨hsame, hnone⟩ | ⟨hearly, hpos, hobtained⟩
    · rw [(h.refreshing v hsame).2, hnone]
      exact ⟨(h.refreshing v hsame).1, rfl⟩
    · rw [h.early hearly, hobtained]
      exact ⟨hpos, rfl⟩
  case cleared =>
    intro hcleared
    obtain ⟨hne, hgen⟩ := h.cleared (hlocal.cleared hcleared)
    exact ⟨hne, hlate hgen⟩
  case native =>
    intro hn
    obtain ⟨p, hp⟩ := mem_of_natives hn
    rcases List.mem_append.mp hp with hp | hp
    · have hsome : natives c.log ≠ 0 :=
        Nat.ne_of_gt (List.countP_pos_iff.mpr ⟨_, hp, rfl⟩)
      obtain ⟨hne, hgen⟩ := h.native hsome
      exact ⟨hne, hlate hgen⟩
    · obtain ⟨hne, hgen⟩ := h.cleared (Pc.cleared_of_publisher (hlocal.native p hp))
      exact ⟨hne, hlate hgen⟩

/-- A step of an operation behind the comparison that obtains nothing. -/
theorem Call.Generated.of_cleared {bound : Int} (h : c.Generated bound)
    (hcleared : c.pc.cleared = true) {pc : Pc} {event : Event}
    (hevent : event.obtained? = none ∧ event.isNative = false)
    (hlate : pc.early = false ∧ pc.refreshing? = none) : (c.goto pc [event]).Generated bound := by
  have hgen : generations (c.log ++ [event]) = generations c.log := by
    simp [generations, hevent.1]
  refine ⟨fun he => absurd (hlate.1.symm.trans he) Bool.false_ne_true,
    fun v hv => absurd (hlate.2.symm.trans hv) nofun, fun _ => ?_, fun _ => ?_⟩
  · exact ⟨(h.cleared hcleared).1, hgen.trans (h.cleared hcleared).2⟩
  · exact ⟨(h.cleared hcleared).1, hgen.trans (h.cleared hcleared).2⟩

/-- An operation that takes the lock with a generation runs the comparison. -/
theorem Call.step_refresh (env : CallEnv) (enabled : Bool) {request : PublishRequest} {v : Int}
    (hadm : c.admission = .ok request) (hpc : c.pc = .refresh v) :
    (c.step maximumPublishers env enabled r).2 = (r.refreshMasterGeneration v).2 := by
  simp only [Call.step, hpc, hadm, Pc.step]
  split
  · rename_i hr
    rw [hr]
  · rename_i hr
    rw [hr]

/-- What a move does to the generation, and what the mover knows of it. -/
theorem Move.generated (hmove : Move maximumPublishers r c next) (hr : r.FirstArrival)
    (h : c.Generated r.masterGeneration) :
    (next.2.FirstArrival ∧ r.StaysBound next.2) ∧ next.1.Generated next.2.masterGeneration := by
  cases hmove with
  | quiet hlocal => exact ⟨hr.of_eq rfl rfl, h.goto hlocal⟩
  | @refresh v pc hpc hidle hcleared =>
      obtain ⟨hpos, hgen⟩ := h.refreshing v (by rw [hpc]; rfl)
      have harrive := hr.arrive hpos (refresh_eq r v).1 (refresh_eq r v).2
      refine ⟨harrive, ?_⟩
      constructor
      case early => exact fun he => absurd (hidle.early.symm.trans he) Bool.false_ne_true
      case refreshing => exact fun w hw => absurd (hidle.refreshing.symm.trans hw) nofun
      case cleared =>
        intro hc
        rw [eq_of_refresh_ok (hcleared hc), Call.goto, List.append_nil]
        exact ⟨Int.ne_of_gt hpos, hgen⟩
      case native =>
        rw [Call.goto, List.append_nil]
        exact (h.mono harrive.2).native
  | @acquire request advertise lease r' n hadm hpc hacq =>
      obtain ⟨hgen, harr⟩ := acquire_eq hacq
      refine ⟨hr.of_eq hgen harr, ?_⟩
      rw [hgen]
      exact h.of_cleared (by rw [hpc]; rfl) ⟨rfl, rfl⟩ ⟨rfl, rfl⟩
  | @release request lease committed pc hadm hlease hnone hpublisher hlate hcommitted =>
      refine ⟨hr.of_eq rfl rfl, ?_⟩
      exact h.of_cleared (Pc.cleared_of_publisher (Pc.publisher_of_lease hlease)) ⟨rfl, rfl⟩ hlate

end Call

/-! ## The system -/

/-- What a finished probe has answered, given the bound generation. -/
def Probe.Answered (bound : Int) : Probe → Prop
  | .done (some v) state =>
      (0 < v → bound ≠ 0 ∧ (state = .changed ↔ v ≠ bound)) ∧ (v ≤ 0 → state ≠ .changed)
  | .done none state => state ≠ .changed
  | _ => True

structure System.Bound (s : System) : Prop where
  registry : s.registry.FirstArrival
  calls : ∀ c ∈ s.calls, c.Generated s.registry.masterGeneration
  probes : ∀ p ∈ s.probes, p.Answered s.registry.masterGeneration

section System

variable {maximumPublishers : Nat} {s s' : System}

theorem Probe.Answered.mono {r r' : Registry} {p : Probe} (h : p.Answered r.masterGeneration)
    (hr : r.StaysBound r') : p.Answered r'.masterGeneration := by
  cases p with
  | done current state =>
      cases current with
      | none => exact h
      | some v =>
          refine ⟨fun hv => ?_, h.2⟩
          obtain ⟨hne, hiff⟩ := h.1 hv
          rw [hr hne]
          exact ⟨hne, hiff⟩
  | _ => trivial

theorem Call.generated_init (bound : Int) (admission : Except Exn PublishRequest) :
    (Call.init admission).Generated bound :=
  ⟨fun _ => rfl, nofun, nofun, fun h => absurd rfl h⟩

/-- A step that leaves operations and probes alone. -/
theorem System.Bound.of_registry (h : s.Bound) (hcalls : s'.calls = s.calls)
    (hprobes : s'.probes = s.probes)
    (hgen : s'.registry.masterGeneration = s.registry.masterGeneration)
    (harr : s'.registry.arrivals = s.registry.arrivals) :
    s'.Bound ∧ s.registry.StaysBound s'.registry := by
  obtain ⟨hfirst, hstays⟩ := h.registry.of_eq hgen harr
  exact ⟨⟨hfirst, hcalls ▸ fun c hc => (h.calls c hc).mono hstays,
    hprobes ▸ fun p hp => (h.probes p hp).mono hstays⟩, hstays⟩

/-- A probe that takes the lock learns how its value compares to the bound one, which
it may just have bound. -/
theorem System.Bound.probed (h : s.Bound) (i : Nat) (current : Option Int) :
    System.Bound
        { s with
          registry := (s.registry.probeMasterBinding current).2
          probes := s.probes.set i (.done current (s.registry.probeMasterBinding current).1) } ∧
      s.registry.StaysBound (s.registry.probeMasterBinding current).2 := by
  rcases probe_eq s.registry current with ⟨hr, hstate, hneg⟩ | ⟨v, hv, hpos, hgen, harr, hiff⟩
  · refine ⟨⟨?_, ?_, fun p hp => ?_⟩, fun _ => by rw [hr]⟩
    · rw [hr]
      exact h.registry
    · rw [hr]
      exact h.calls
    · rw [hr]
      rcases List.mem_or_eq_of_mem_set hp with hp | rfl
      · exact h.probes p hp
      · cases current with
        | none => exact hstate
        | some v => exact ⟨fun hv => absurd (hneg v rfl) (Int.not_le.mpr hv), fun _ => hstate⟩
  · obtain ⟨hfirst, hstays⟩ := h.registry.arrive hpos hgen harr
    refine ⟨⟨hfirst, fun c hc => (h.calls c hc).mono hstays, fun p hp => ?_⟩, hstays⟩
    rcases List.mem_or_eq_of_mem_set hp with hp | rfl
    · exact (h.probes p hp).mono hstays
    · subst hv
      refine ⟨fun _ => ⟨?_, hiff⟩, fun hneg => absurd hneg (Int.not_le.mpr hpos)⟩
      rw [hgen]
      split
      · exact Int.ne_of_gt hpos
      · rename_i hne
        exact hne

/-- Every step keeps the invariant, and a bound generation. -/
theorem System.Change.bound {a : Action} (hchange : Change maximumPublishers s a s')
    (h : s.Bound) : s'.Bound ∧ s.registry.StaysBound s'.registry := by
  cases hchange with
  | stay _ => exact ⟨h, fun _ => rfl⟩
  | submit admission =>
      refine ⟨⟨h.registry, fun c hc => ?_, h.probes⟩, fun _ => rfl⟩
      rcases List.mem_append.mp hc with hc | hc
      · exact h.calls c hc
      · cases List.mem_singleton.mp hc
        exact Call.generated_init _ admission
  | @publish i c hc env =>
      obtain ⟨⟨hfirst, hstays⟩, hgen⟩ := (Call.step_move env s.enabled).generated h.registry
        (h.calls c (List.mem_of_getElem? hc))
      refine ⟨⟨hfirst, fun c hc => ?_, fun p hp => (h.probes p hp).mono hstays⟩, hstays⟩
      rcases List.mem_or_eq_of_mem_set hc with hc | rfl
      · exact (h.calls c hc).mono hstays
      · exact hgen
  | probe =>
      refine ⟨⟨h.registry, h.calls, fun p hp => ?_⟩, fun _ => rfl⟩
      rcases List.mem_append.mp hp with hp | hp
      · exact h.probes p hp
      · cases List.mem_singleton.mp hp
        trivial
  | asked _ provider =>
      refine ⟨⟨h.registry, h.calls, fun p hp => ?_⟩, fun _ => rfl⟩
      rcases List.mem_or_eq_of_mem_set hp with hp | rfl
      · exact h.probes p hp
      · trivial
  | probed _ _ => exact h.probed _ _
  | order _ _ _ _ => exact h.of_registry rfl rfl rfl rfl
  | activated _ => exact h.of_registry rfl rfl rfl rfl
  | stored _ _ => exact h.of_registry rfl rfl rfl rfl
  | cleared _ _ => exact h.of_registry rfl rfl rfl rfl

theorem System.bound_init : System.init.Bound where
  registry := ⟨rfl, fun _ h => absurd h List.not_mem_nil⟩
  calls _ h := absurd h List.not_mem_nil
  probes _ h := absurd h List.not_mem_nil

theorem System.bound_run (maximumPublishers : Nat) (is : List Action) :
    (run (System.step maximumPublishers) .init is).Bound :=
  run_invariant (fun s a h => ((s.step_change maximumPublishers a).bound h).1) bound_init is

/-- A generation bound at some point of a run is bound to its end. -/
theorem System.staysBound_run (h : s.Bound) (is : List Action) :
    s.registry.StaysBound (run (System.step maximumPublishers) s is).registry := by
  refine run_relation (R := fun s t => s.registry.StaysBound t.registry)
    (fun s a h => ((s.step_change maximumPublishers a).bound h).1) (fun _ _ => rfl)
    (fun s t a ht hst hne => ?_) h is
  rw [← hst hne]
  exact ((t.step_change maximumPublishers a).bound ht).2 (hst hne ▸ hne)

end System

/-- **One master generation per process.**  Whatever the interleaving of publish
operations, probes and lifecycle calls and whatever the provider returns, in every
state that is reached:

* the generation is the first positive value that reached the lock, or zero if none
  has, and once it is not zero it is the same in all that follows;
* an operation that has entered native dispatch obtained exactly one value from the
  provider, and that is the bound one; so all of them obtained the same;
* an operation that takes the lock with another value empties the registry in that
  step, and one that has obtained another value dispatches nothing;
* a probe has answered that the generation changed if and only if it obtained a
  positive value other than the bound one. -/
theorem single_master_generation (maximumPublishers : Nat) (is : List Action) :
    let s := run (System.step maximumPublishers) .init is
    s.registry.masterGeneration = s.registry.arrivals.head?.getD 0 ∧
    (∀ v ∈ s.registry.arrivals, 0 < v) ∧
    (∀ js, s.registry.masterGeneration ≠ 0 →
      (run (System.step maximumPublishers) s js).registry.masterGeneration =
        s.registry.masterGeneration) ∧
    (∀ c ∈ s.calls, natives c.log ≠ 0 →
      s.registry.masterGeneration ≠ 0 ∧ generations c.log = [s.registry.masterGeneration]) ∧
    (∀ c ∈ s.calls, ∀ c' ∈ s.calls, natives c.log ≠ 0 → natives c'.log ≠ 0 →
      generations c.log = generations c'.log) ∧
    (∀ i env c request v, s.calls[i]? = some c → c.admission = .ok request →
      c.pc = .refresh v → s.registry.masterGeneration ≠ 0 → v ≠ s.registry.masterGeneration →
        (s.step maximumPublishers (.publish i env)).registry.size = 0) ∧
    (∀ c ∈ s.calls, ∀ v ∈ generations c.log, v ≠ s.registry.masterGeneration →
      natives c.log = 0) ∧
    (∀ current state, .done current state ∈ s.probes →
      (state = .changed ↔
        ∃ v, current = some v ∧ 0 < v ∧ v ≠ s.registry.masterGeneration)) := by
  intro s
  have h : s.Bound := System.bound_run maximumPublishers is
  refine ⟨h.registry.first, h.registry.positive, System.staysBound_run h,
    fun c hc => (h.calls c hc).native, fun c hc c' hc' hn hn' => ?_,
    fun i env c request v hc hadm hpc hbound hne => ?_, fun c hc v hv hne => ?_,
    fun current state hp => ?_⟩
  · rw [((h.calls c hc).native hn).2, ((h.calls c' hc').native hn').2]
  · simp only [System.step, hc]
    rw [Call.step_refresh env s.enabled hadm hpc]
    exact size_refresh_of_ne hbound hne
  · by_contra hn
    rw [((h.calls c hc).native hn).2, List.mem_singleton] at hv
    exact hne hv
  · have hans := h.probes _ hp
    cases current with
    | none =>
        refine ⟨fun hch => absurd hch hans, ?_⟩
        rintro ⟨_, ⟨⟩, -⟩
    | some v =>
        constructor
        · intro hch
          have hpos : 0 < v := Int.not_le.mp fun hneg => hans.2 hneg hch
          exact ⟨v, rfl, hpos, ((hans.1 hpos).2).mp hch⟩
        · rintro ⟨_, ⟨⟩, hpos, hne⟩
          exact ((hans.1 hpos).2).mpr hne

end Ros1Tools.Publish
