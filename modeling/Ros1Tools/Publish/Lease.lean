import Ros1Tools.Publish.Consistent
import Ros1Tools.Publish.SideEffect
import Ros1Tools.Publish.System

/-!
# The lease invariant

The holders of an entry are the publish operations whose logs show an acquisition
of it and no release.  `Move` says what an operation does to the registry, the
lemmas on `Registry.Consistent` say what becomes of the invariant, and the two
together give an invariant of every run.
-/

namespace Ros1Tools.Publish

open Lib Registry

/-! ## Holders -/

/-- The operation has acquired the entry and has not released it. -/
def Call.holds (id : EntryId) (c : Call) : Bool :=
  decide (id ∈ acquisitions c.log ∧ id ∉ (releases c.log).map Prod.fst)

/-- How many of the operations hold an entry. -/
def holders (calls : List Call) (id : EntryId) : Nat := calls.countP (Call.holds id)

/-- The operation's log agrees with the lease that it has. -/
def Call.Balanced (c : Call) : Prop :=
  ∀ id, c.holds id = true ↔ ∃ l, c.pc.lease? = some l ∧ l.entry = id

/-- Every publisher that the operation has to do with is for its request. -/
structure Call.Matched (c : Call) : Prop where
  publisher : ∀ p, c.pc.publisher? = some p → ∃ request, c.admission = .ok request ∧ p.For request
  native : ∀ p, .native p ∈ c.log → ∃ request, c.admission = .ok request ∧ p.For request

/-- The lease of the operation is on an entry that was made, and has the entry's
publisher. -/
def Call.Leased (r : Registry) (c : Call) : Prop :=
  ∀ l, c.pc.lease? = some l → l.entry < r.made ∧ (r.heap l.entry).publisher = l.publisher

section Call

variable {maximumPublishers : Nat} {r : Registry} {c : Call} {next : Call × Registry}

theorem Call.Leased.mono {r' : Registry} (h : c.Leased r) (hr : r.Extends r') : c.Leased r' := by
  intro l hl
  obtain ⟨hmade, hpub⟩ := h l hl
  exact ⟨Nat.lt_of_lt_of_le hmade hr.made, (hr.publisher _ hmade).trans hpub⟩

theorem Call.Balanced.not_holds (h : c.Balanced) (hnone : c.pc.lease? = none) (id : EntryId) :
    c.holds id = false := by
  rw [← Bool.not_eq_true, h id]
  rintro ⟨l, hl, -⟩
  rw [hnone] at hl
  cases hl

theorem Call.Balanced.holds (h : c.Balanced) {l : Lease} (hl : c.pc.lease? = some l)
    (id : EntryId) : c.holds id = decide (id = l.entry) := by
  rw [Bool.eq_iff_iff, h id, hl, decide_eq_true_iff]
  constructor
  · rintro ⟨_, ⟨⟩, rfl⟩
    rfl
  · rintro rfl
    exact ⟨l, rfl, rfl⟩

theorem Call.holds_goto {pc : Pc} {events : List Event} (ha : acquisitions events = [])
    (hr : releases events = []) (id : EntryId) : (c.goto pc events).holds id = c.holds id := by
  simp [Call.holds, Call.goto, ha, hr]

theorem Pc.Inv.leased {request : PublishRequest} {log : List Event} {pc : Pc} {l : Lease}
    (h : pc.Inv request log) (hl : pc.lease? = some l) : Before log [l.entry] [] := by
  cases pc with
  | held n lease stage =>
      cases hl
      cases stage with
      | last result => exact h.1
      | _ => exact h.1
  | abort lease e =>
      cases hl
      exact h
  | commit lease result =>
      cases hl
      exact h.1
  | _ => cases hl

theorem Move.admission (hmove : Move maximumPublishers r c next) :
    next.1.admission = c.admission := by
  cases hmove <;> rfl

/-- A move keeps the log in step with the lease. -/
theorem Move.balanced (hmove : Move maximumPublishers r c next)
    (hinv : ∀ request, c.admission = .ok request → c.Inv request) (h : c.Balanced) :
    next.1.Balanced := by
  cases hmove with
  | quiet hlocal =>
      intro id
      rw [Call.holds_goto hlocal.acquired hlocal.released, h id]
      simp only [Call.goto, hlocal.lease]
  | refresh hpc hidle _ =>
      have hnone : c.pc.lease? = none := by
        rw [hpc]
        rfl
      intro id
      rw [Call.holds_goto rfl rfl, h id]
      simp only [Call.goto, hidle.lease, hnone]
  | @acquire request _ lease _ n hadm hpc hr =>
      have hbefore : Before c.log [] [] := by
        have hpcInv := (hinv _ hadm).pc
        rw [hpc] at hpcInv
        exact hpcInv.1
      have hafter : acquisitions (c.log ++ [.acquired lease.entry]) = [lease.entry] ∧
          releases (c.log ++ [.acquired lease.entry]) = [] := by
        rw [acquisitions_append, releases_append, hbefore.acquired, hbefore.released]
        exact ⟨rfl, rfl⟩
      intro id
      simp [Call.holds, Call.goto, Pc.lease?, hafter, eq_comm]
  | @release request lease committed pc hadm hlease hnone hpublisher hlate _ =>
      have hbefore := (hinv _ hadm).pc.leased hlease
      have hafter : acquisitions (c.log ++ [.released lease.entry committed]) = [lease.entry] ∧
          releases (c.log ++ [.released lease.entry committed]) = [(lease.entry, committed)] := by
        rw [acquisitions_append, releases_append, hbefore.acquired, hbefore.released]
        exact ⟨rfl, rfl⟩
      intro id
      simp [Call.holds, Call.goto, hnone, hafter]

/-- A move stays with the publisher of the request. -/
theorem Move.matched {holders : EntryId → Nat} (hmove : Move maximumPublishers r c next)
    (hr : r.Consistent maximumPublishers holders) (h : c.Matched) : next.1.Matched := by
  cases hmove with
  | quiet hlocal =>
      refine ⟨fun p hp => ?_, fun p hp => ?_⟩
      · rcases hlocal.publisher with heq | hnone
        · exact h.publisher p (heq.symm.trans hp)
        · exact absurd (hnone.symm.trans hp) nofun
      · rcases List.mem_append.mp hp with hp | hp
        · exact h.native p hp
        · exact h.publisher p (hlocal.native p hp)
  | refresh hpc hidle _ =>
      refine ⟨fun p hp => absurd (hidle.publisher.symm.trans hp) nofun, fun p hp => ?_⟩
      exact h.native p (List.append_nil c.log ▸ hp)
  | @acquire request _ lease _ n hadm hpc hacq =>
      refine ⟨fun p hp => ?_, fun p hp => ?_⟩
      · cases hp
        exact ⟨request, hadm, (hr.lease_acquire hacq).1⟩
      · exact h.native p (by simpa [Call.goto] using hp)
  | @release request lease committed pc hadm hlease hnone hpublisher hlate _ =>
      refine ⟨fun p hp => ?_, fun p hp => ?_⟩
      · rcases hpublisher with heq | hnone
        · exact h.publisher p ((Pc.publisher_of_lease hlease).trans (heq.symm.trans hp))
        · exact absurd (hnone.symm.trans hp) nofun
      · exact h.native p (by simpa [Call.goto] using hp)

/-- A move forgets no entry. -/
theorem Move.extends (hmove : Move maximumPublishers r c next) : r.Extends next.2 := by
  cases hmove with
  | quiet _ => exact .refl r
  | refresh _ _ _ => exact extends_refresh _
  | acquire _ _ hacq => exact extends_acquire hacq
  | release _ _ _ _ _ _ => exact extends_release _ _ _

theorem Move.leased {holders : EntryId → Nat} (hmove : Move maximumPublishers r c next)
    (hr : r.Consistent maximumPublishers holders) (h : c.Leased r) : next.1.Leased next.2 := by
  cases hmove with
  | quiet hlocal => exact fun l hl => h l (hlocal.lease.symm.trans hl)
  | refresh _ hidle _ => exact fun l hl => absurd (hidle.lease.symm.trans hl) nofun
  | acquire _ _ hacq =>
      intro l hl
      cases hl
      exact (hr.lease_acquire hacq).2
  | release _ _ hnone _ _ _ => exact fun l hl => absurd (hnone.symm.trans hl) nofun

/-- What a move makes of the number of holders. -/
def adjusted (holders : EntryId → Nat) (c c' : Call) (id : EntryId) : Nat :=
  holders id - (if c.holds id then 1 else 0) + if c'.holds id then 1 else 0

/-- A move keeps the registry consistent, with the mover's own leases accounted
for. -/
theorem Move.consistent {holders : EntryId → Nat} (hmove : Move maximumPublishers r c next)
    (hr : r.Consistent maximumPublishers holders)
    (hinv : ∀ request, c.admission = .ok request → c.Inv request) (hbal : c.Balanced)
    (hmatched : c.Matched) (hleased : c.Leased r)
    (hpos : ∀ id, c.holds id = true → 0 < holders id) :
    next.2.Consistent maximumPublishers (adjusted holders c next.1) := by
  have hbal' := hmove.balanced hinv hbal
  -- If the mover holds the same as before, so do all.
  have hsame (h : ∀ id, next.1.holds id = c.holds id) : adjusted holders c next.1 = holders := by
    funext id
    rw [adjusted, h id]
    split
    · rename_i hholds
      exact Nat.sub_add_cancel (hpos id hholds)
    · rfl
  cases hmove with
  | quiet hlocal =>
      rw [hsame (Call.holds_goto hlocal.acquired hlocal.released)]
      exact hr
  | refresh _ _ _ =>
      rw [hsame (Call.holds_goto rfl rfl)]
      exact hr.refresh _
  | @acquire request _ lease _ n hadm hpc hacq =>
      have hnone : c.pc.lease? = none := by
        rw [hpc]
        rfl
      have hone : adjusted holders c (c.goto (.held n lease .handle) [.acquired lease.entry]) =
          Function.update holders lease.entry (holders lease.entry + 1) := by
        funext id
        rw [adjusted, hbal.not_holds hnone, hbal'.holds rfl]
        by_cases hid : id = lease.entry
        · simp [hid]
        · simp [hid]
      rw [hone]
      exact hr.acquire hacq
  | @release request lease committed pc hadm hlease hnone hpublisher hlate _ =>
      have hless : adjusted holders c (c.goto pc [.released lease.entry committed]) =
          Function.update holders lease.entry (holders lease.entry - 1) := by
        funext id
        rw [adjusted, hbal.holds hlease, hbal'.not_holds hnone]
        by_cases hid : id = lease.entry
        · simp [hid]
        · simp [hid]
      rw [hless]
      refine hr.release (hpos _ ?_) ?_ committed
      · rw [hbal.holds hlease, decide_eq_true rfl]
      · obtain ⟨request', hadm', hfor⟩ := hmatched.publisher _ (Pc.publisher_of_lease hlease)
        cases hadm.symm.trans hadm'
        rw [(hleased _ hlease).2]
        exact hfor.1

end Call

/-! ## The system -/

/-- The invariant of every run. -/
structure System.Inv (maximumPublishers : Nat) (s : System) : Prop where
  registry : s.registry.Consistent maximumPublishers (holders s.calls)
  observed : ∀ c ∈ s.calls, ∀ request, c.admission = .ok request → c.Inv request
  balanced : ∀ c ∈ s.calls, c.Balanced
  matched : ∀ c ∈ s.calls, c.Matched
  leased : ∀ c ∈ s.calls, c.Leased s.registry

/-- Replacing one operation accounts for its own leases only. -/
theorem holders_set {calls : List Call} {i : Nat} {c c' : Call} (hc : calls[i]? = some c) :
    holders (calls.set i c') = adjusted (holders calls) c c' := by
  obtain ⟨hi, rfl⟩ := List.getElem?_eq_some_iff.mp hc
  funext id
  exact List.countP_set hi

theorem holders_concat_init (calls : List Call) (admission : Except Exn PublishRequest) :
    holders (calls ++ [.init admission]) = holders calls := by
  funext id
  simp [holders, Call.holds, Call.init, acquisitions]

/-- Whoever holds an entry is counted. -/
theorem holders_pos {calls : List Call} {c : Call} {id : EntryId} (hc : c ∈ calls)
    (h : c.holds id = true) : 0 < holders calls id :=
  List.countP_pos_iff.mpr ⟨c, hc, h⟩

/-- A property that an operation has at the start and keeps when it moves, in a
list in which one operation moves. -/
theorem forall_mem_set {calls : List Call} {i : Nat} {c' : Call} {p q : Call → Prop}
    (h : ∀ c ∈ calls, p c) (hpq : ∀ c, p c → q c) (hc' : q c') : ∀ c ∈ calls.set i c', q c := by
  intro c hc
  rcases List.mem_or_eq_of_mem_set hc with hc | rfl
  · exact hpq c (h c hc)
  · exact hc'

theorem forall_mem_concat {calls : List Call} {c' : Call} {p : Call → Prop}
    (h : ∀ c ∈ calls, p c) (hc' : p c') : ∀ c ∈ calls ++ [c'], p c := by
  intro c hc
  rcases List.mem_append.mp hc with hc | hc
  · exact h c hc
  · cases List.mem_singleton.mp hc
    exact hc'

namespace System

variable {maximumPublishers : Nat} {s : System}

theorem inv_init : System.init.Inv maximumPublishers where
  registry := consistent_init
  observed _ hc := absurd hc List.not_mem_nil
  balanced _ hc := absurd hc List.not_mem_nil
  matched _ hc := absurd hc List.not_mem_nil
  leased _ hc := absurd hc List.not_mem_nil

/-- A change of the registry alone. -/
theorem Inv.of_registry (h : s.Inv maximumPublishers) {s' : System} (hcalls : s'.calls = s.calls)
    (hr : s'.registry.Consistent maximumPublishers (holders s.calls))
    (hext : s.registry.Extends s'.registry) : s'.Inv maximumPublishers where
  registry := hcalls ▸ hr
  observed := hcalls ▸ h.observed
  balanced := hcalls ▸ h.balanced
  matched := hcalls ▸ h.matched
  leased := hcalls ▸ fun c hc => (h.leased c hc).mono hext

theorem Inv.submit (h : s.Inv maximumPublishers) (admission : Except Exn PublishRequest) :
    System.Inv maximumPublishers { s with calls := s.calls ++ [.init admission] } where
  registry := (holders_concat_init s.calls admission).symm ▸ h.registry
  observed := forall_mem_concat h.observed fun request hadm => by
    cases hadm
    exact Call.inv_init request
  balanced := forall_mem_concat h.balanced fun id => by
    simp [Call.holds, Call.init, acquisitions, Pc.lease?]
  matched := forall_mem_concat h.matched ⟨nofun, nofun⟩
  leased := forall_mem_concat h.leased nofun

/-- A step of one operation keeps the invariant for all. -/
theorem Inv.publish (h : s.Inv maximumPublishers) {i : Nat} {c : Call}
    (hc : s.calls[i]? = some c) (env : CallEnv) :
    System.Inv maximumPublishers
      { s with
        registry := (c.step maximumPublishers env s.enabled s.registry).2
        calls := s.calls.set i (c.step maximumPublishers env s.enabled s.registry).1 } := by
  have hmem : c ∈ s.calls := List.mem_of_getElem? hc
  have hmove : Move maximumPublishers s.registry c _ := Call.step_move env s.enabled
  have hinv := h.observed c hmem
  constructor
  case registry =>
    rw [holders_set hc]
    exact hmove.consistent h.registry hinv (h.balanced c hmem) (h.matched c hmem)
      (h.leased c hmem) fun id => holders_pos hmem
  case observed =>
    refine forall_mem_set h.observed (fun _ => id) fun request hreq => ?_
    exact Call.inv_observe maximumPublishers c ⟨env, s.enabled, s.registry⟩
      (hinv request (hmove.admission.symm.trans hreq))
  case balanced =>
    exact forall_mem_set h.balanced (fun _ => id) (hmove.balanced hinv (h.balanced c hmem))
  case matched =>
    exact forall_mem_set h.matched (fun _ => id) (hmove.matched h.registry (h.matched c hmem))
  case leased =>
    exact forall_mem_set h.leased (fun _ hl => hl.mono hmove.extends)
      (hmove.leased h.registry (h.leased c hmem))

/-- Whatever a step does, it keeps the invariant. -/
theorem Change.inv {a : Action} {s' : System} (hchange : Change maximumPublishers s a s')
    (h : s.Inv maximumPublishers) : s'.Inv maximumPublishers := by
  cases hchange with
  | stay _ => exact h
  | submit admission => exact h.submit admission
  | publish hc env => exact h.publish hc env
  | probe => exact h.of_registry rfl h.registry (.refl _)
  | asked _ _ => exact h.of_registry rfl h.registry (.refl _)
  | probed _ _ => exact h.of_registry rfl (h.registry.probe _) (extends_probe _)
  | order _ _ _ _ => exact h.of_registry rfl h.registry (.refl _)
  | activated _ => exact h.of_registry rfl h.registry (.refl _)
  | stored _ _ => exact h.of_registry rfl h.registry (.refl _)
  | cleared _ _ => exact h.of_registry rfl h.registry.clear (extends_of_heap rfl rfl)

theorem inv_run (maximumPublishers : Nat) (is : List Action) :
    (run (System.step maximumPublishers) .init is).Inv maximumPublishers :=
  run_invariant (fun s a => (step_change maximumPublishers s a).inv) inv_init is

/-! ## What the invariant says -/

/-- The entries and everything in them are left alone. -/
def Untouched (r r' : Registry) : Prop :=
  r'.entries = r.entries ∧
    ∀ t id, r.entries.lookup t = some id → r'.heap id = r.heap id

/-- An operation whose entry is no longer the topic's current one touches nothing
that is in the map. -/
theorem Inv.untouched_of_stale (h : s.Inv maximumPublishers) {c : Call} (hc : c ∈ s.calls)
    {next : Call × Registry} (hmove : Move maximumPublishers s.registry c next)
    {request : PublishRequest} {id : EntryId} (hadm : c.admission = .ok request)
    (hholds : c.holds id = true) (hstale : s.registry.entries.lookup request.topic ≠ some id) :
    Untouched s.registry next.2 := by
  obtain ⟨l, hl, rfl⟩ := (h.balanced c hc id).mp hholds
  cases hmove with
  | quiet _ => exact ⟨rfl, fun _ _ _ => rfl⟩
  | refresh hpc _ _ =>
      rw [hpc] at hl
      cases hl
  | acquire _ hpc _ =>
      rw [hpc] at hl
      cases hl
  | @release request' lease committed pc hadm' hlease _ _ _ _ =>
      cases hadm.symm.trans hadm'
      cases hl.symm.trans hlease
      obtain ⟨_, hadm', hfor⟩ := (h.matched c hc).publisher _ (Pc.publisher_of_lease hl)
      cases hadm.symm.trans hadm'
      refine ⟨if_neg fun hdrop => hstale hdrop.1, fun t id hid => ?_⟩
      refine heap_release_of_ne ?_ _ _
      -- The entry can be in the map under its own topic only, and there it is not.
      rintro rfl
      have htopic : request.topic = t := by
        rw [← (h.registry.advertised _ _ hid).topic, (h.leased c hc _ hl).2, hfor.1]
      exact hstale (htopic ▸ hid)

/-- A release takes exactly one from the count of the entry. -/
theorem Inv.activeCalls_of_released (h : s.Inv maximumPublishers) {c : Call} (hc : c ∈ s.calls)
    {next : Call × Registry} (hmove : Move maximumPublishers s.registry c next)
    {id : EntryId} {committed : Bool} (hlog : next.1.log = c.log ++ [.released id committed]) :
    (next.2.heap id).activeCalls + 1 = (s.registry.heap id).activeCalls := by
  cases hmove with
  | quiet hlocal =>
      have hevents := List.append_cancel_left hlog
      have hnone := hlocal.released
      rw [hevents] at hnone
      cases hnone
  | refresh _ _ _ => cases List.append_cancel_left hlog
  | acquire _ _ _ => cases List.append_cancel_left hlog
  | @release request lease committed' pc _ hlease _ _ _ _ =>
      cases List.append_cancel_left hlog
      have hpos : 0 < (s.registry.heap lease.entry).activeCalls := by
        rw [h.registry.counted]
        exact holders_pos hc ((h.balanced c hc _).mpr ⟨lease, hlease, rfl⟩)
      rw [heap_release_self, released, if_pos hpos]
      exact Nat.sub_add_cancel hpos

/-- When nothing is in progress, nothing is held. -/
theorem Inv.holders_of_quiet (h : s.Inv maximumPublishers) (hquiet : s.Quiet) (id : EntryId) :
    holders s.calls id = 0 := by
  refine List.countP_eq_zero.mpr fun c hc => ?_
  have hnone : c.pc.lease? = none := by
    have hfin := hquiet c hc
    cases hpc : c.pc <;> rw [hpc] at hfin <;> first | rfl | cases hfin
  rw [(h.balanced c hc).not_holds hnone]
  exact Bool.false_ne_true

end System

/-- **The lease invariant of the publisher registry.**  Whatever the interleaving of
publish operations, probes and lifecycle calls and whatever the requests, in every
state that is reached:

* the map is within its bound;
* the count of every entry, in the map or not, is the number of operations that have
  acquired it and not released it, and a release takes exactly one from it;
* every entry in the map is in use or committed;
* an operation dispatches only on a publisher advertised as its request says;
* an operation whose entry is not the topic's current one leaves the map and what it
  refers to alone;
* if no operation is in progress, the topics in the map are those on whose current
  entry a dispatch was committed. -/
theorem publisher_lease_invariant (maximumPublishers : Nat) (is : List Action) :
    let s := run (System.step maximumPublishers) .init is
    s.registry.size ≤ maximumPublishers ∧
    (∀ id, (s.registry.heap id).activeCalls = holders s.calls id) ∧
    (∀ i env c c', s.calls[i]? = some c →
      (s.step maximumPublishers (.publish i env)).calls[i]? = some c' →
      ∀ id committed, c'.log = c.log ++ [.released id committed] →
        ((s.step maximumPublishers (.publish i env)).registry.heap id).activeCalls + 1 =
          (s.registry.heap id).activeCalls) ∧
    (∀ t id, s.registry.entries.lookup t = some id →
      0 < (s.registry.heap id).activeCalls ∨
        (s.registry.heap id).nativeDispatchCommitted = true) ∧
    (∀ c ∈ s.calls, ∀ publisher, .native publisher ∈ c.log →
      ∃ request, c.admission = .ok request ∧ publisher.For request) ∧
    (∀ i env c request id, s.calls[i]? = some c → c.admission = .ok request →
      c.holds id = true → s.registry.entries.lookup request.topic ≠ some id →
        System.Untouched s.registry (s.step maximumPublishers (.publish i env)).registry) ∧
    (s.Quiet → ∀ t, t ∈ s.registry.entries ↔ t ∈ s.registry.dispatched) := by
  intro s
  have h : s.Inv maximumPublishers := System.inv_run maximumPublishers is
  refine ⟨h.registry.bounded, h.registry.counted, fun i env c c' hc hc' id committed hlog => ?_,
    h.registry.kept, fun c hc => (h.matched c hc).native,
    fun i env c request id hc hadm hholds hstale => ?_, fun hquiet t => ?_⟩
  · have hi := (List.getElem?_eq_some_iff.mp hc).1
    simp only [System.step, hc, List.getElem?_set_self hi, Option.some.injEq] at hc' ⊢
    exact h.activeCalls_of_released (List.mem_of_getElem? hc) (Call.step_move env s.enabled)
      (hc' ▸ hlog)
  · simp only [System.step, hc]
    exact h.untouched_of_stale (List.mem_of_getElem? hc) (Call.step_move env s.enabled) hadm
      hholds hstale
  · rw [h.registry.recorded, ← AList.lookup_isSome, Option.isSome_iff_exists]
    constructor
    · rintro ⟨id, hl⟩
      refine ⟨id, hl, (h.registry.kept t id hl).resolve_left ?_⟩
      rw [h.registry.counted, h.holders_of_quiet hquiet]
      exact Nat.lt_irrefl 0
    · rintro ⟨id, hl, -⟩
      exact ⟨id, hl⟩

end Ros1Tools.Publish
