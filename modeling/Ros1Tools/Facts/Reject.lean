import Ros1Tools.Facts.History

/-!
# What a rejected report leaves behind

`producer` checks the report that a message carries, stores its bytes, and only then
compares its sequence number with that of the latest report of the same producer.  A message
that fails one of the checks, or that cannot be stored, changes neither the log nor the tables
of the recorder, and neither does one that repeats the latest report, whose bytes are stored
already.

What the order of the two last steps costs is a report with new bytes and an old sequence
number: it is rejected after its bytes were charged to the budget.
-/

namespace Ros1Tools.Facts

open Lib Lib.Faulty Lib.Python

/-- The log, the producers, and the blobs with the budget they take are as before. -/
structure Unaffected (s s' : RecordFacts) : Prop where
  events : s'.state.events = s.state.events
  producers : s'.producers = s.producers
  storedHashes : s'.storedHashes = s.storedHashes
  storedPaths : s'.storedPaths = s.storedPaths
  storedBytes : s'.storedBytes = s.storedBytes

namespace Unaffected

variable {s s' s'' : RecordFacts}

theorem refl (s : RecordFacts) : Unaffected s s := ⟨rfl, rfl, rfl, rfl, rfl⟩

theorem trans (h : Unaffected s s') (h' : Unaffected s' s'') : Unaffected s s'' where
  events := h'.events.trans h.events
  producers := h'.producers.trans h.producers
  storedHashes := h'.storedHashes.trans h.storedHashes
  storedPaths := h'.storedPaths.trans h.storedPaths
  storedBytes := h'.storedBytes.trans h.storedBytes

end Unaffected

theorem Touches.unaffected {relative : String} {s s' : RecordFacts} (h : Touches relative s s') :
    Unaffected s s' := by
  rw [h.eq]
  exact ⟨rfl, rfl, rfl, rfl, rfl⟩

/-! ## One report -/

section Report

variable {host : Host} {allowed : Fate Exception → Prop} {s : RecordFacts}

/-- The bytes of the latest report of a producer are stored. -/
theorem LogSound.latest_stored (h : LogSound host s) {identity : Identity}
    {latest : Nat × ProducerEvent} (hlatest : s.latest identity = some latest) :
    latest.2.content.sha256 ∈ s.storedHashes := by
  obtain ⟨ordinal, -, hlatest⟩ := Option.bind_eq_some_iff.mp hlatest
  obtain ⟨event, hevent, hlatest⟩ := Option.bind_eq_some_iff.mp hlatest
  obtain ⟨producer, hproducer, hlatest⟩ := Option.bind_eq_some_iff.mp hlatest
  cases hlatest
  have hcontent : event.fact.content? = some producer.content := by
    cases hfact : event.fact with
    | snapshot kind source observedAt content validity =>
        rw [hfact] at hproducer
        cases hproducer
    | unavailable kind source observedAt reason =>
        rw [hfact] at hproducer
        cases hproducer
    | producer report =>
        rw [hfact] at hproducer
        cases hproducer
        rfl
  have hholds := h.evidence event (List.mem_of_getElem? hevent) _ hcontent
  rw [h.store.keys, hholds.stored]
  rfl

/-- What is left of a report whose bytes were stored: they are charged if they are new. -/
theorem unaffected_store_iff {data : Bytes} {label suffix : String} {content : Content}
    {s' : RecordFacts} {fates rest : Fates Exception}
    (h : host.store data label suffix s fates = .done content s' rest) :
    content.sha256 = host.sha256 data ∧ (∀ identity, s'.latest identity = s.latest identity) ∧
      (Unaffected s s' ↔ host.sha256 data ∈ s.storedHashes) := by
  obtain ⟨relative, s₁, htouches, -, -, -, rfl, rfl⟩ := wp_store_register.of_done h
  have hlatest : ∀ identity, s₁.latest identity = s.latest identity := by
    intro identity
    rw [htouches.eq]
    rfl
  unfold RecordFacts.register
  split
  next hknown =>
    rw [htouches.unaffected.storedHashes] at hknown
    exact ⟨rfl, hlatest, iff_of_true htouches.unaffected hknown⟩
  next hnew =>
    rw [htouches.unaffected.storedHashes] at hnew
    refine ⟨rfl, hlatest, iff_of_false (fun h => hnew ?_) hnew⟩
    rw [← h.storedHashes]
    exact Finset.mem_insert_self _ _

theorem RecordFacts.commitProducer_ne_suppressed (s : RecordFacts) (previous : Option Nat)
    (event : ProducerEvent) : (s.commitProducer previous event).1 ≠ .suppressed := by
  unfold commitProducer admitEvent
  split
  · nofun
  · nofun

end Report

/-! ## Streams of reports -/

/-- A text that arrives: what it is, when it was observed, and the fates of the system calls
it leads to. -/
structure Arrival where
  payload : Value
  observed : Clock
  fates : Fates Exception

namespace Arrival

variable (host : Host) (s : RecordFacts) (arrival : Arrival)

/-- `producer(text, observed)`. -/
def outcome : Outcome Exception RecordFacts Effect :=
  host.producer arrival.payload arrival.observed s arrival.fates

/-- It raises. -/
def Raises : Prop := ∃ e s' rest, arrival.outcome host s = .raised e s' rest

/-- It returns because the text repeats the latest report of its producer. -/
def Repeats : Prop := ∃ s' rest, arrival.outcome host s = .done .suppressed s' rest

instance : Decidable (arrival.Raises host s) := Outcome.decidableRaised _

instance : Decidable (arrival.Repeats host s) := Outcome.decidableDone _ _

/-- A report whose sequence number its producer has used or passed, with new bytes that are
stored. -/
def Charged : Prop :=
  ∃ report data latest content s' rest, host.readReport arrival.payload = .ok (report, data) ∧
    s.latest report.source.identity = some latest ∧ report.sequence ≤ latest.2.sequence ∧
    host.sha256 data ∉ s.storedHashes ∧
    host.store data ("application-" ++ report.source.identity.kind) ".json" s arrival.fates =
      .done content s' rest

/-- It is rejected. -/
def Rejected : Prop := arrival.Repeats host s ∨ arrival.Raises host s

/-- The recorder after it. -/
def receive : RecordFacts := (arrival.outcome host s).state

variable {host s arrival}

/-- How a report is rejected: it is not read, or its bytes cannot be stored, or they are and
its sequence number is that of an earlier report. -/
theorem Rejected.cases (h : arrival.Rejected host s) :
    ((∃ e, host.readReport arrival.payload = .error e) ∧ arrival.receive host s = s) ∨
      ∃ report data, host.readReport arrival.payload = .ok (report, data) ∧
        ((∃ e rest, host.store data ("application-" ++ report.source.identity.kind) ".json" s
            arrival.fates = .raised e (arrival.receive host s) rest) ∨
          ∃ content rest latest,
            host.store data ("application-" ++ report.source.identity.kind) ".json" s
              arrival.fates = .done content (arrival.receive host s) rest ∧
            (arrival.receive host s).latest report.source.identity = some latest ∧
            report.sequence ≤ latest.2.sequence ∧
            (arrival.Repeats host s → content.sha256 = latest.2.content.sha256)) := by
  unfold Rejected Repeats Raises receive outcome Host.producer at *
  simp only [bind_apply] at *
  cases hread : host.readReport arrival.payload with
  | error e => exact .inl ⟨⟨e, rfl⟩, by simp [lift, Faulty.throw, Outcome.state]⟩
  | ok read =>
      obtain ⟨report, data⟩ := read
      refine .inr ⟨report, data, rfl, ?_⟩
      simp only [hread, lift, Faulty.pure] at *
      cases hstore : host.store data ("application-" ++ report.source.identity.kind) ".json" s
        arrival.fates with
      | raised e s₁ rest => exact .inl ⟨e, rest, by simp [Outcome.state]⟩
      | crashed s₁ => simp [hstore] at h
      | done content s₁ rest =>
          simp only [hstore, gets_apply] at *
          refine .inr ⟨content, rest, ?_⟩
          cases hnext : succession ((s₁.latest report.source.identity).map Prod.snd) report
            content.sha256 with
          | repeated =>
              obtain ⟨latest, hlatest, hle, hsha⟩ := succession_repeated hnext
              obtain ⟨pointed, hpointed, rfl⟩ := Option.map_eq_some_iff.mp hlatest
              exact ⟨pointed, rfl, hpointed, hle.le, fun _ => hsha⟩
          | conflict =>
              obtain ⟨latest, hlatest, hle⟩ := succession_conflict hnext
              obtain ⟨pointed, hpointed, rfl⟩ := Option.map_eq_some_iff.mp hlatest
              refine ⟨pointed, rfl, hpointed, hle, ?_⟩
              rintro ⟨_, _, ⟨⟩⟩
          | follows continuity =>
              simp only [hnext, modifyGet_apply] at h
              rcases h with ⟨_, _, h⟩ | ⟨_, _, _, h⟩
              · exact absurd (Outcome.done.inj h).1 (s₁.commitProducer_ne_suppressed _ _)
              · cases h

/-- The bytes of a rejected report that are stored are new exactly if it is charged. -/
theorem unaffected_iff (h : arrival.Rejected host s) :
    Unaffected s (arrival.receive host s) ↔ ¬arrival.Charged host s := by
  rcases h.cases with ⟨⟨e, hread⟩, hs⟩ | ⟨report, data, hread, hstored⟩
  · rw [hs]
    refine iff_of_true (.refl s) ?_
    rintro ⟨_, _, _, _, _, _, hread', -⟩
    cases hread.symm.trans hread'
  · rcases hstored with ⟨e, rest, hstore⟩ | ⟨content, rest, latest, hstore, hlatest, hle, -⟩
    · obtain ⟨relative, htouches⟩ := wp_store_register.of_raised hstore
      refine iff_of_true htouches.unaffected ?_
      rintro ⟨_, _, _, _, _, _, hread', -, -, -, hstore'⟩
      cases hread.symm.trans hread'
      cases hstore.symm.trans hstore'
    · obtain ⟨-, hkept, hunaffected⟩ := unaffected_store_iff hstore
      rw [hunaffected, iff_not_comm]
      constructor
      · rintro ⟨_, _, _, _, _, _, hread', -, -, hnew, -⟩
        cases hread.symm.trans hread'
        exact hnew
      · intro hnew
        exact ⟨report, data, latest, content, _, rest, hread, (hkept _).symm.trans hlatest, hle,
          hnew, hstore⟩

/-- A text that repeats the latest report has the bytes that are stored of that report. -/
theorem Repeats.not_charged (hs : LogSound host s) (h : arrival.Repeats host s) :
    ¬arrival.Charged host s := by
  rintro ⟨report, data, latest, content, s₁, rest, hread, hlatest, -, hnew, hstore⟩
  rcases Rejected.cases (.inl h) with ⟨⟨e, hread'⟩, -⟩ | ⟨_, _, hread', hstored⟩
  · cases hread.symm.trans hread'
  · cases hread.symm.trans hread'
    rcases hstored with ⟨e, _, hstore'⟩ | ⟨content, _, latest', hstore', hlatest', -, hsame⟩
    · cases hstore.symm.trans hstore'
    · obtain ⟨hsha, hkept, -⟩ := unaffected_store_iff hstore'
      rw [hkept, hlatest] at hlatest'
      cases hlatest'
      rw [← hsha, hsame h] at hnew
      exact hnew (hs.latest_stored hlatest)

end Arrival

/-- **Rejected reports leave no trace.**  From every state that the recorder can reach, a
text that raises, or that repeats the latest report of its producer, leaves the log, the
producers, the blobs and the budget as they were, exactly if it is not an outdated report whose
new bytes are stored; and so does every stream of such texts. -/
theorem rejected_reports_leave_no_trace (host : Host) (folder : Folder)
    (calls : List (Operation × Fates Exception)) :
    let s := run (perform host) (RecordFacts.fresh host folder) calls
    (∀ arrival : Arrival, arrival.Rejected host s →
        (Unaffected s (arrival.receive host s) ↔ ¬arrival.Charged host s)) ∧
      (∀ arrival : Arrival, arrival.Repeats host s → Unaffected s (arrival.receive host s)) ∧
      ∀ stream : List Arrival,
        Along (fun s arrival => arrival.receive host s)
          (fun s arrival => arrival.Rejected host s ∧ ¬arrival.Charged host s) s stream →
        Unaffected s (run (fun s arrival => Arrival.receive host s arrival) s stream) := by
  intro s
  have hs : LogSound host s := (kept_logSound host).run (logSound_fresh host folder) calls
  refine ⟨fun arrival => Arrival.unaffected_iff, fun arrival h =>
    (Arrival.unaffected_iff (.inl h)).mpr (Arrival.Repeats.not_charged hs h),
    fun stream hstream => hstream.invariant ?_ (.refl s)⟩
  rintro s₁ arrival ⟨hrejected, hcharged⟩ h
  exact h.trans ((Arrival.unaffected_iff hrejected).mpr hcharged)

/-- A text that arrives when no system call fails. -/
def sampleArrival (text : String) : Arrival := ⟨.str text, ⟨"0", "0", none⟩, []⟩

/-- The recorder after its first report. -/
def sampleReported : RecordFacts :=
  run (perform sampleHost) (RecordFacts.fresh sampleHost sampleFolder)
    [(.producer (.str sampleText) ⟨"0", "0", none⟩, [])]

theorem rejected_reports_leave_no_trace_sample :
    sampleReported.storedBytes = 237 ∧
      Unaffected sampleReported
        ((sampleArrival sampleText).receive sampleHost sampleReported) ∧
      Unaffected sampleReported ((sampleArrival "").receive sampleHost sampleReported) ∧
      (sampleArrival (sampleText ++ " ")).Charged sampleHost sampleReported := by
  have h := rejected_reports_leave_no_trace sampleHost sampleFolder
    [(.producer (.str sampleText) ⟨"0", "0", none⟩, [])]
  dsimp only at h
  rw [← sampleReported] at h
  refine ⟨by decide +kernel, h.2.1 (sampleArrival sampleText) (by decide +kernel),
    (h.1 (sampleArrival "") (.inr (by decide +kernel))).mpr ?_, ?_⟩
  · rintro ⟨report, data, latest, content, s', rest, hread, -⟩
    cases hread
  · refine not_not.mp fun hcharged => ?_
    have hunaffected := (h.1 (sampleArrival (sampleText ++ " ")) (.inr (by decide +kernel))).mpr
      hcharged
    exact absurd hunaffected.storedBytes (by decide +kernel)

/-- The same report with a blank behind it is rejected, and stays in the store. -/
theorem outdated_report_is_stored :
    let arrival := sampleArrival (sampleText ++ " ")
    arrival.Raises sampleHost sampleReported ∧ sampleReported.storedBytes = 237 ∧
      (arrival.receive sampleHost sampleReported).storedBytes = 475 := by
  decide +kernel

end Ros1Tools.Facts
