import Ros1Tools.Lib.Run
import Ros1Tools.Publish.Call

/-!
# How a publish operation classifies its side effect

One operation is followed through every answer of its environment, with the
registry in an arbitrary state at every single step: nothing here depends on what
other operations do to it in between.

The invariant ties the program counter to the log.  Up to the commit there is no
native call in the log and at most one lease, still held; behind it the lease is
released and the native calls are counted by the loop.  The checks enter it
through `Guarded`, which says of a whole log that every native call in it stands
right behind a check that passed and behind none that did not.
-/

namespace Ros1Tools.Publish

open Lib

/-! ## Guarded logs -/

/-- No check has found a cancellation or an elapsed deadline. -/
def AllPassed (log : List Event) : Prop := ∀ found, Event.check found ∈ log → found = .passed

/-- Every native call follows immediately on a check that passed, and no check
before it did otherwise. -/
def Guarded (log : List Event) : Prop :=
  ∀ pre publisher post, log = pre ++ .native publisher :: post →
    (∃ earlier, pre = earlier ++ [.check .passed]) ∧ AllPassed pre

theorem AllPassed.append {a b : List Event} (ha : AllPassed a) (hb : AllPassed b) :
    AllPassed (a ++ b) := by
  intro found h
  rcases List.mem_append.mp h with h | h
  · exact ha found h
  · exact hb found h

theorem allPassed_nil : AllPassed [] := fun _ h => absurd h List.not_mem_nil

theorem guarded_nil : Guarded [] := fun pre _ _ h =>
  absurd h.symm (List.append_ne_nil_of_right_ne_nil pre (List.cons_ne_nil _ _))

/-- Appending an event that is not a native call. -/
theorem Guarded.concat {log : List Event} (h : Guarded log) {e : Event}
    (he : e.isNative = false) : Guarded (log ++ [e]) := by
  intro pre publisher post heq
  rcases List.eq_nil_or_concat' post with rfl | ⟨init, last, rfl⟩
  · obtain ⟨-, hlast⟩ := List.append_inj' heq rfl
    cases hlast
    cases he
  · rw [← List.cons_append, ← List.append_assoc] at heq
    exact h pre publisher init (List.append_inj' heq rfl).1

/-- Appending a native call right behind a check, when all checks have passed. -/
theorem Guarded.native {log : List Event} (h : Guarded log) (hall : AllPassed log)
    {earlier : List Event} (hlast : log = earlier ++ [.check .passed]) (publisher : Publisher) :
    Guarded (log ++ [.native publisher]) := by
  intro pre publisher' post heq
  rcases List.eq_nil_or_concat' post with rfl | ⟨init, last, rfl⟩
  · obtain ⟨hpre, -⟩ := List.append_inj' heq rfl
    subst hpre
    exact ⟨⟨earlier, hlast⟩, hall⟩
  · rw [← List.cons_append, ← List.append_assoc] at heq
    exact h pre publisher' init (List.append_inj' heq rfl).1

/-- Appending what one step without a native call adds. -/
theorem Guarded.append {log events : List Event} (h : Guarded log) (hn : natives events = 0) :
    Guarded (log ++ events) := by
  induction events generalizing log with
  | nil => rwa [List.append_nil]
  | cons e events ih =>
      have he : e.isNative = false := by
        cases hb : e.isNative
        · rfl
        · simp [natives, hb] at hn
      have hrest : natives events = 0 := by
        simpa [natives, he] using hn
      rw [← List.singleton_append, ← List.append_assoc]
      exact ih (h.concat he) hrest

/-! ## The invariant -/

/-- Nothing native has happened yet, and these leases were taken and released. -/
structure Before (log : List Event) (taken : List EntryId) (back : List (EntryId × Bool)) :
    Prop where
  noNative : natives log = 0
  acquired : acquisitions log = taken
  released : releases log = back

/-- There was no native call, and a lease, if one was taken, was released once and
as not committed. -/
def Harmless (log : List Event) : Prop :=
  Before log [] [] ∨ ∃ id, Before log [id] [(id, false)]

/-- How far the dispatch loop is. -/
def Round.Inv (count : Nat) (log : List Event) (index : Nat) : Round → Prop
  | .head => natives log = index ∧ index ≤ count
  | .pace | .alive | .check => natives log = index ∧ index < count
  | .native => natives log = index ∧ index < count ∧ ∃ earlier, log = earlier ++ [.check .passed]
  | .after => natives log = index + 1 ∧ index < count

/-- What the log holds at each point of the program. -/
def Pc.Inv (request : PublishRequest) (log : List Event) : Pc → Prop
  | .enter | .invocation | .check | .provider | .refresh _ | .message | .acquire _ =>
      Before log [] [] ∧ AllPassed log
  | .held _ lease (.last result) | .commit lease result =>
      Before log [lease.entry] [] ∧ AllPassed log ∧ result.publishedCount = 0
  | .held _ lease _ => Before log [lease.entry] [] ∧ AllPassed log
  | .abort lease _ => Before log [lease.entry] []
  | .dispatch _ result index round =>
      AllPassed log ∧ result.publishedCount.toNat = natives log ∧
        round.Inv request.publishCount.toNat log index
  | .complete _ result | .encode result =>
      natives log = request.publishCount.toNat ∧ result.publishedCount = request.publishCount
  | .reported (.success payload) => natives log = request.publishCount.toNat ∧
      payload.member "publishedCount" = some (.uint request.publishCount.toUInt64)
  | .reported (.failure c _ _) => c ≠ .uncertain → Harmless log
  | .escaped => Harmless log

section Step

variable {request : PublishRequest} {log : List Event} {taken : List EntryId}
  {back : List (EntryId × Bool)} {env : CallEnv}

/-- What a step without a native call adds. -/
theorem Before.append (h : Before log taken back) (events : List Event)
    (hn : natives events = 0) :
    Before (log ++ events) (taken ++ acquisitions events) (back ++ releases events) :=
  ⟨by rw [natives_append, h.noNative, hn], by rw [acquisitions_append, h.acquired],
    by rw [releases_append, h.released]⟩

theorem Before.check (h : Before log taken back) (found : Check) :
    Before (log ++ [.check found]) taken back := by
  have hnext := h.append [.check found] rfl
  rwa [show acquisitions [.check found] = [] from rfl,
    show releases [.check found] = [] from rfl, List.append_nil, List.append_nil] at hnext

theorem AllPassed.check (h : AllPassed log) : AllPassed (log ++ [.check .passed]) :=
  h.append fun found hf => by
    simpa using hf

/-- A failure outside the uncertain class has to be harmless. -/
theorem Pc.inv_fail {e : Exn} (h : e.uncertain = false → Harmless log) :
    (Pc.fail e).Inv request log := by
  unfold Pc.fail
  cases hf : failure e with
  | none =>
      cases e with
      | tools e => cases hf
      | foreign f => exact h rfl
  | some result =>
      cases result with
      | success payload =>
          cases e with
          | tools e => cases hf
          | foreign f => cases f <;> cases hf
      | failure c code message =>
          intro hc
          exact h (Bool.eq_false_iff.mpr fun hu => hc ((failure_uncertain_iff hf).mpr hu))

/-- An uncertain failure says nothing about the log. -/
theorem Pc.inv_fail_of_uncertain {e : Exn} (h : e.uncertain = true) :
    (Pc.fail e).Inv request log :=
  Pc.inv_fail fun hf => absurd (h.symm.trans hf) (by decide)

theorem check_of_dispatchAllowed {c : Check} (h : requireDispatchAllowed c = .ok ()) :
    c = .passed := by
  cases c
  · rfl
  · cases h
  · cases h

theorem check_of_continuationAllowed {c : Check} (h : requireContinuationAllowed c = .ok ()) :
    c = .passed := by
  cases c
  · rfl
  · cases h
  · cases h

theorem uncertain_of_continuation {c : Check} {e : Exn}
    (h : requireContinuationAllowed c = .error e) : (completionCatch e).uncertain = true := by
  cases c <;> cases h <;> rfl

theorem uncertain_completionCatch_foreign (e : Foreign) :
    (completionCatch (.foreign e)).uncertain = true := by
  cases e <;> rfl

theorem uncertain_dispatchCatch (e : Foreign) :
    (completionCatch (dispatchCatch e)).uncertain = true := by
  cases e <;> rfl

/-- What a step has to establish. -/
def Next (request : PublishRequest) (log : List Event) (next : Pc × List Event) : Prop :=
  next.1.Inv request (log ++ next.2) ∧ Guarded (log ++ next.2)

/-- A step without an event. -/
theorem Next.silent (hg : Guarded log) {pc : Pc} (h : pc.Inv request log) :
    Next request log (pc, []) := by
  rw [Next, List.append_nil]
  exact ⟨h, hg⟩

/-- A step with events that are not native calls. -/
theorem Next.quiet (hg : Guarded log) {pc : Pc} {events : List Event}
    (hn : natives events = 0) (h : pc.Inv request (log ++ events)) :
    Next request log (pc, events) := ⟨h, hg.append hn⟩

/-- The steps between the lease and its release. -/
theorem Pc.next_stepHeld (hg : Guarded log) {serializedBytes : Nat} {lease : Lease}
    {stage : Held} (h : (Pc.held serializedBytes lease stage).Inv request log) :
    Next request log (Pc.stepHeld request env serializedBytes lease stage) := by
  have hbefore : Before log [lease.entry] [] ∧ AllPassed log := by
    cases stage with
    | last result => exact ⟨h.1, h.2.1⟩
    | _ => exact h
  have habort (e : Exn) : Next request log (.abort lease e, []) := .silent hg hbefore.1
  have hchecked {e : Exn} : Next request log (.abort lease e, [.check env.check]) :=
    .quiet hg rfl (hbefore.1.check _)
  cases stage with
  | handle =>
      rw [Pc.stepHeld]
      split
      · exact habort _
      · split <;> exact .silent hg hbefore
  | waiting =>
      rw [Pc.stepHeld]
      split
      · exact habort _
      · split
        · split
          · exact hchecked
          · rename_i hok
            rw [check_of_dispatchAllowed hok]
            exact .quiet hg rfl ⟨hbefore.1.check _, hbefore.2.check⟩
        · exact .silent hg hbefore
  | waited =>
      rw [Pc.stepHeld]
      split
      · exact hchecked
      · rename_i hok
        split
        · exact hchecked
        · split
          · exact hchecked
          · rw [check_of_dispatchAllowed hok]
            exact .quiet hg rfl ⟨hbefore.1.check _, hbefore.2.check⟩
  | alive =>
      rw [Pc.stepHeld]
      split
      · exact habort _
      · split
        · exact habort _
        · exact .silent hg ⟨hbefore.1, hbefore.2, rfl⟩
  | last result =>
      rw [Pc.stepHeld]
      split
      · exact hchecked
      · rename_i hok
        rw [check_of_dispatchAllowed hok]
        exact .quiet hg rfl ⟨hbefore.1.check _, hbefore.2.check, h.2.2⟩

/-- The steps of the dispatch loop. -/
theorem Pc.next_stepDispatch (hg : Guarded log) {publisher : Publisher} {result : PublishResult}
    {index : Nat} {round : Round} (h : (Pc.dispatch publisher result index round).Inv request log) :
    Next request log (Pc.stepDispatch request env publisher result index round) := by
  obtain ⟨hall, hcount, hround⟩ := h
  have hfail {e : Exn} (he : e.uncertain = true) {events : List Event}
      (hn : natives events = 0) : Next request log (.fail e, events) :=
    .quiet hg hn (Pc.inv_fail_of_uncertain he)
  -- A passed check changes neither the count nor the position.
  have hnext {next : Round} {i : Nat} (hc : env.check = .passed)
      (hr : next.Inv request.publishCount.toNat (log ++ [.check .passed]) i) :
      Next request log (.dispatch publisher result i next, [.check env.check]) := by
    rw [hc]
    exact .quiet hg rfl ⟨hall.check, by rw [natives_append, hcount]; rfl, hr⟩
  cases round with
  | head =>
      obtain ⟨hn, hle⟩ := hround
      rw [Pc.stepDispatch]
      split
      · rename_i hlt
        split <;> exact .silent hg ⟨hall, hcount, hn, hlt⟩
      · rename_i hge
        have heq : index = request.publishCount.toNat := by omega
        exact .silent hg ⟨by rw [hn, heq], UInt32.toNat_inj.mp (by rw [hcount, hn, heq])⟩
  | pace =>
      obtain ⟨hn, hlt⟩ := hround
      rw [Pc.stepDispatch]
      split
      · exact .silent hg ⟨hall, hcount, hn, hlt⟩
      · split
        · rename_i herr
          exact hfail (uncertain_of_continuation herr) rfl
        · rename_i hok
          exact hnext (check_of_continuationAllowed hok) ⟨by rw [natives_append, hn]; rfl, hlt⟩
  | alive =>
      rw [Pc.stepDispatch]
      split
      · exact hfail rfl rfl
      · exact .silent hg ⟨hall, hcount, hround⟩
  | check =>
      obtain ⟨hn, hlt⟩ := hround
      rw [Pc.stepDispatch]
      split
      · rename_i herr
        exact hfail (uncertain_of_continuation herr) rfl
      · rename_i hok
        exact hnext (check_of_continuationAllowed hok)
          ⟨by rw [natives_append, hn]; rfl, hlt, log, rfl⟩
  | native =>
      obtain ⟨hn, hlt, earlier, hlast⟩ := hround
      have hguard := hg.native hall hlast publisher
      rw [Pc.stepDispatch]
      split
      · exact ⟨Pc.inv_fail_of_uncertain (uncertain_dispatchCatch _), hguard⟩
      · refine ⟨⟨hall.append ?_, ?_, ?_, hlt⟩, hguard⟩
        · intro found hf
          simp at hf
        · have hmax := UInt32.toNat_lt request.publishCount
          rw [natives_append, UInt32.toNat_add, hcount, hn]
          exact Nat.mod_eq_of_lt (show index + 1 < 2 ^ 32 by omega)
        · rw [natives_append, hn]
          rfl
  | after =>
      obtain ⟨hn, hlt⟩ := hround
      rw [Pc.stepDispatch]
      split
      · rename_i herr
        exact hfail (uncertain_of_continuation herr) rfl
      · rename_i hok
        exact hnext (check_of_continuationAllowed hok) ⟨by rw [natives_append, hn]; rfl, hlt⟩

/-- The member of the result object the count is reported in. -/
theorem PublishResult.member_publishedCount (result : PublishResult) :
    result.toJson.member "publishedCount" = some (.uint result.publishedCount.toUInt64) := by
  simp only [PublishResult.toJson, Json.ofMembers, Json.member, List.foldl]
  rw [Json.find_set_of_ne (by decide), Json.find_set_self]

/-- What a step has to establish, over its whole outcome. -/
def Outcome.Next (request : PublishRequest) (log : List Event) (o : Outcome) : Prop :=
  Publish.Next request log (o.pc, o.events)

theorem Outcome.Next.silent (hg : Guarded log) {pc : Pc} (h : pc.Inv request log) {r : Registry} :
    Outcome.Next request log ⟨pc, [], r⟩ := Publish.Next.silent hg h

theorem Outcome.Next.quiet (hg : Guarded log) {pc : Pc} {events : List Event}
    (hn : natives events = 0) (h : pc.Inv request (log ++ events)) {r : Registry} :
    Outcome.Next request log ⟨pc, events, r⟩ := Publish.Next.quiet hg hn h

/-- **A step keeps the invariant of an admitted operation**, whatever the registry
is. -/
theorem Pc.next_step (env : CallEnv) (r : Registry) (maximumPublishers : Nat) (hg : Guarded log)
    (pc : Pc) (h : pc.Inv request log) :
    Outcome.Next request log (pc.step maximumPublishers request env r) := by
  cases pc with
  | enter => exact .silent hg h
  | invocation => exact .silent hg h
  | check =>
      rw [Pc.step]
      split
      · exact .quiet hg rfl (Pc.inv_fail fun _ => .inl (h.1.check _))
      · rename_i hok
        rw [check_of_dispatchAllowed hok]
        refine .quiet hg rfl ?_
        exact ⟨h.1.check _, h.2.check⟩
  | provider =>
      have hobtained (current : Int) : Before (log ++ [.obtained current]) [] [] :=
        h.1.append [.obtained current] rfl
      rw [Pc.step]
      split
      · exact .silent hg (Pc.inv_fail fun _ => .inl h.1)
      · split
        · exact .quiet hg rfl (Pc.inv_fail fun _ => .inl (hobtained _))
        · refine .quiet hg rfl ?_
          exact ⟨hobtained _, h.2.append fun found hf => by simp at hf⟩
  | refresh current =>
      rw [Pc.step]
      split
      · exact .silent hg (Pc.inv_fail fun _ => .inl h.1)
      · refine .silent hg ?_
        exact h
  | message =>
      rw [Pc.step]
      split
      · exact .silent hg (Pc.inv_fail fun _ => .inl h.1)
      · exact .silent hg (Pc.inv_fail fun _ => .inl h.1)
      · refine .silent hg ?_
        exact h
  | acquire serializedBytes =>
      rw [Pc.step]
      split
      · exact .silent hg (Pc.inv_fail fun _ => .inl h.1)
      · refine .quiet hg rfl ?_
        exact ⟨h.1.append [.acquired _] rfl, h.2.append fun found hf => by simp at hf⟩
  | held serializedBytes lease stage => exact Pc.next_stepHeld hg h
  | abort lease e =>
      exact .quiet hg rfl (Pc.inv_fail fun _ =>
        .inr ⟨lease.entry, Before.append h [.released lease.entry false] rfl⟩)
  | commit lease result =>
      obtain ⟨hbefore, hall, hcount⟩ := h
      have hafter := (hbefore.append [.released lease.entry true] rfl).noNative
      rw [Pc.step]
      refine .quiet hg rfl ?_
      refine ⟨hall.append fun found hf => by simp at hf, ?_, hafter, Nat.zero_le _⟩
      rw [hcount, hafter]
      rfl
  | dispatch publisher result index round => exact Pc.next_stepDispatch hg h
  | complete publisher result =>
      rw [Pc.step]
      split
      · exact .silent hg (Pc.inv_fail_of_uncertain (uncertain_completionCatch_foreign _))
      · refine .silent hg ?_
        exact h
  | encode result =>
      rw [Pc.step]
      split
      · rename_i herr
        exact .silent hg (Pc.inv_fail_of_uncertain (uncertain_of_encodeResult herr))
      · rename_i hok
        refine .silent hg ?_
        refine ⟨h.1, ?_⟩
        rw [eq_of_encodeResult hok, PublishResult.member_publishedCount, h.2]
  | reported result => exact .silent hg h
  | escaped => exact .silent hg h

end Step

/-! ## Runs -/

/-- Everything one step is taken in. -/
structure Input where
  env : CallEnv
  enabled : Bool
  registry : Registry

/-- One step of an operation, seen from the operation. -/
def Call.observe (maximumPublishers : Nat) (c : Call) (i : Input) : Call :=
  (c.step maximumPublishers i.env i.enabled i.registry).1

/-- The invariant of an operation whose request is admitted. -/
structure Call.Inv (request : PublishRequest) (c : Call) : Prop where
  admission : c.admission = .ok request
  pc : c.pc.Inv request c.log
  guarded : Guarded c.log

theorem Call.inv_init (request : PublishRequest) : (Call.init (.ok request)).Inv request :=
  ⟨rfl, ⟨⟨rfl, rfl, rfl⟩, allPassed_nil⟩, guarded_nil⟩

theorem Call.inv_observe {request : PublishRequest} (maximumPublishers : Nat) (c : Call) (i : Input)
    (h : c.Inv request) : (c.observe maximumPublishers i).Inv request := by
  obtain ⟨hadm, hpc, hg⟩ := h
  obtain ⟨admission, pc, log⟩ := c
  cases hadm
  cases pc with
  | enter =>
      have hfail (e : Exn) : Call.Inv request ⟨.ok request, .fail e, log⟩ :=
        ⟨rfl, Pc.inv_fail fun _ => .inl hpc.1, hg⟩
      simp only [Call.observe, Call.step]
      split
      · exact hfail _
      · exact ⟨rfl, hpc, hg⟩
  | invocation => exact ⟨rfl, hpc, hg⟩
  | _ =>
      have hnext := Pc.next_step i.env i.registry maximumPublishers hg _ hpc
      exact ⟨rfl, hnext.1, hnext.2⟩

/-- **Publish side-effect classification.**  Whatever an admitted operation is
answered, and whatever state the registry is in at each of its steps:

* if it reports success, `publisher.publish` was entered exactly `publishCount`
  times, and that is the reported `publishedCount`;
* if it reports a failure of any class but uncertain, `publisher.publish` was never
  entered, and a lease it took was released exactly once;
* every entry into `publisher.publish` comes immediately behind a check of the
  cancellation flag and the deadline that passed, and behind no check that did
  not. -/
theorem publish_side_effect_classification (maximumPublishers : Nat) (request : PublishRequest)
    (is : List Input) :
    let c := run (Call.observe maximumPublishers) (Call.init (.ok request)) is
    (∀ payload, c.pc = .reported (.success payload) →
      natives c.log = request.publishCount.toNat ∧
        payload.member "publishedCount" = some (.uint request.publishCount.toUInt64)) ∧
    (∀ cls code message, c.pc = .reported (.failure cls code message) → cls ≠ .uncertain →
      natives c.log = 0 ∧
        (acquisitions c.log = [] ∧ releases c.log = [] ∨
          ∃ id, acquisitions c.log = [id] ∧ releases c.log = [(id, false)])) ∧
    (∀ pre publisher post, c.log = pre ++ .native publisher :: post →
      (∃ earlier, pre = earlier ++ [.check .passed]) ∧
        ∀ found, .check found ∈ pre → found = .passed) := by
  intro c
  obtain ⟨-, hpc, hguarded⟩ : c.Inv request :=
    run_invariant (Call.inv_observe maximumPublishers) (Call.inv_init request) is
  refine ⟨fun payload hrep => ?_, fun cls code message hrep hcls => ?_, hguarded⟩
  · rw [hrep] at hpc
    exact hpc
  · rw [hrep] at hpc
    rcases hpc hcls with h | ⟨id, h⟩
    · exact ⟨h.noNative, .inl ⟨h.acquired, h.released⟩⟩
    · exact ⟨h.noNative, .inr ⟨id, h.acquired, h.released⟩⟩

end Ros1Tools.Publish
