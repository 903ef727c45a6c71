import Ros1Tools.Lib.Run
import Ros1Tools.Facts.Recorder

/-!
# Snapshots are never stale

The critical sections of the recorder, in any order, together with the document that
snapshots are copied to.  A snapshot that copies nothing relies on a counter: every
section that changes what a snapshot would copy has to count, in that same section.
-/

namespace Ros1Tools.Facts

open Lib

/-- The critical sections under the lock of the recorder.  What comes before a section can
be anything, so its arguments are arbitrary; putting messages into the queue takes no lock. -/
inductive Section where
  | append (fact : Fact)
  | producer (previous : Option Nat) (event : ProducerEvent)
  | overflow
  | queue (messages : List Message)
  | finish (endedAt : Clock) (observerStillStopping : Bool)
  | snapshot

/-- The recorder and what the document holds under `recordFacts`. -/
structure Published where
  facts : RecordFacts
  document : Option State

namespace Published

variable (p : Published)

def step : Section → Published
  | .append fact => { p with facts := (p.facts.append fact).2 }
  | .producer previous event => { p with facts := (p.facts.commitProducer previous event).2 }
  | .overflow => { p with facts := p.facts.overflow }
  | .queue messages => { p with facts := { p.facts with messages := messages } }
  | .finish endedAt observerStillStopping =>
      { p with facts := p.facts.sealLog endedAt observerStillStopping }
  | .snapshot =>
      { facts := (p.facts.snapshot p.document).2.1
        document := (p.facts.snapshot p.document).2.2 }

end Published

/-! ## What a section counts -/

/-- What a section other than a snapshot does: it counts, or it changes nothing that a
snapshot would copy. -/
structure Counts (s s' : RecordFacts) : Prop where
  persisted : s'.persisted = s.persisted
  counted : s'.revision = s.revision + 1 ∨
    s'.revision = s.revision ∧ s'.state = s.state ∧ s'.dropped = s.dropped

namespace Counts

variable {s : RecordFacts}

theorem admitEvent (fact : Fact) {recorded : Nat → RecordFacts → RecordFacts}
    (hrevision : ∀ ordinal s, (recorded ordinal s).revision = s.revision)
    (hpersisted : ∀ ordinal s, (recorded ordinal s).persisted = s.persisted) :
    Counts s (s.admitEvent fact recorded).2 := by
  unfold RecordFacts.admitEvent RecordFacts.append
  cases hsealed : s.sealed with
  | true => exact ⟨rfl, .inr ⟨rfl, rfl, rfl⟩⟩
  | false =>
      by_cases hfull : maxEvents ≤ s.state.events.length
      · simp only [Bool.false_eq_true, if_false, if_pos hfull]
        exact ⟨rfl, .inl rfl⟩
      · simp only [Bool.false_eq_true, if_false, if_neg hfull]
        exact ⟨hpersisted _ _, .inl (hrevision _ _)⟩

theorem append (fact : Fact) : Counts s (s.append fact).2 := by
  have hadmitted : (s.admitEvent fact fun _ s => s).2 = (s.append fact).2 := by
    unfold RecordFacts.admitEvent
    split
    · rename_i happend
      rw [happend]
    · rename_i happend
      rw [happend]
  rw [← hadmitted]
  exact admitEvent fact (fun _ _ => rfl) fun _ _ => rfl

theorem commitProducer (previous : Option Nat) (event : ProducerEvent) :
    Counts s (s.commitProducer previous event).2 := by
  refine admitEvent _ (fun ordinal s => ?_) fun ordinal s => ?_
  · cases previous with
    | none => rfl
    | some latest => rfl
  · cases previous with
    | none => rfl
    | some latest => rfl

end Counts

theorem counts_step (p : Published) {i : Section} (hi : i ≠ .snapshot) :
    Counts p.facts (p.step i).facts ∧ (p.step i).document = p.document := by
  cases i with
  | append fact => exact ⟨.append fact, rfl⟩
  | producer previous event => exact ⟨.commitProducer previous event, rfl⟩
  | overflow => exact ⟨⟨rfl, .inl rfl⟩, rfl⟩
  | queue messages => exact ⟨⟨rfl, .inr ⟨rfl, rfl, rfl⟩⟩, rfl⟩
  | finish endedAt observerStillStopping => exact ⟨⟨rfl, .inl rfl⟩, rfl⟩
  | snapshot => exact absurd rfl hi

/-! ## The document -/

/-- What was copied last is what would be copied now, unless something was counted since. -/
structure UpToDate (p : Published) : Prop where
  le : ∀ revision, p.facts.persisted = some revision → revision ≤ p.facts.revision
  document : p.facts.persisted = some p.facts.revision →
    p.document = some p.facts.state ∧ p.facts.state.coverage.droppedEvents = p.facts.dropped

theorem UpToDate.step {p : Published} (h : UpToDate p) (i : Section) : UpToDate (p.step i) := by
  by_cases hi : i = .snapshot
  · subst hi
    unfold Published.step RecordFacts.snapshot
    dsimp only
    split
    · exact h
    · exact ⟨fun revision hrevision => (Option.some.inj hrevision).symm.le,
        fun _ => ⟨rfl, rfl⟩⟩
  · obtain ⟨⟨hpersisted, hcounted⟩, hdocument⟩ := counts_step p hi
    rcases hcounted with hcounted | ⟨hrevision, hstate, hdropped⟩
    · constructor
      · intro revision hrevision
        rw [hpersisted] at hrevision
        rw [hcounted]
        exact Nat.le_succ_of_le (h.le revision hrevision)
      · -- What was copied is older than what has just been counted.
        intro hrevision
        rw [hpersisted, hcounted] at hrevision
        exact absurd (h.le _ hrevision) (Nat.not_succ_le_self _)
    · constructor
      · intro revision hrevision'
        rw [hpersisted] at hrevision'
        rw [hrevision]
        exact h.le revision hrevision'
      · rw [hpersisted, hrevision, hstate, hdropped, hdocument]
        exact h.document

/-! ## After the log was sealed -/

/-- The log is sealed, and says so. -/
structure SealedAs (events : List Event) (p : Published) : Prop where
  isSealed : p.facts.sealed = true
  status : p.facts.state.status = .closed
  events : p.facts.state.events = events

theorem SealedAs.step {events : List Event} {p : Published} (h : SealedAs events p)
    (i : Section) : SealedAs events (p.step i) := by
  have hadmitted : ∀ fact recorded, (p.facts.admitEvent fact recorded).2 = p.facts := by
    intro fact recorded
    simp only [RecordFacts.admitEvent, RecordFacts.append, h.isSealed, if_true]
  cases i with
  | append fact =>
      have happend : (p.facts.append fact).2 = p.facts := by
        simp only [RecordFacts.append, h.isSealed, if_true]
      unfold Published.step
      dsimp only
      rw [happend]
      exact h
  | producer previous event =>
      unfold Published.step RecordFacts.commitProducer
      dsimp only
      rw [hadmitted]
      exact h
  | overflow => exact ⟨h.isSealed, h.status, h.events⟩
  | queue messages => exact ⟨h.isSealed, h.status, h.events⟩
  | finish endedAt observerStillStopping => exact ⟨rfl, rfl, h.events⟩
  | snapshot =>
      unfold Published.step RecordFacts.snapshot
      dsimp only
      split
      · exact h
      · exact ⟨h.isSealed, h.status, h.events⟩

/-- **Snapshots are never stale.**  In every order of the critical sections: a snapshot that
copies nothing leaves a document that is the current state, with the current number of lost
events; a section that changes the events, the number of lost events or the status counts as
a revision itself; and once `finish` has sealed the log neither events nor status change. -/
theorem snapshots_not_stale (host : Host) (folder : Folder) (sections : List Section) :
    let p := run Published.step ⟨RecordFacts.fresh host folder, none⟩ sections
    ((p.facts.snapshot p.document).1 = false →
        p.document = some p.facts.state ∧
          p.facts.state.coverage.droppedEvents = p.facts.dropped) ∧
      (∀ i, (p.step i).facts.state.events ≠ p.facts.state.events ∨
          (p.step i).facts.dropped ≠ p.facts.dropped ∨
          (p.step i).facts.state.status ≠ p.facts.state.status →
        (p.step i).facts.revision = p.facts.revision + 1) ∧
      ∀ endedAt observerStillStopping later,
        let q := run Published.step (p.step (.finish endedAt observerStillStopping)) later
        q.facts.state.events = p.facts.state.events ∧ q.facts.state.status = .closed := by
  intro p
  refine ⟨?_, ?_, ?_⟩
  · intro hfalse
    have hstep : ∀ p i, UpToDate p → UpToDate (p.step i) := fun _ i h => h.step i
    have hfresh : UpToDate ⟨RecordFacts.fresh host folder, none⟩ := by
      constructor
      · intro revision hrevision
        cases hrevision
      · intro hrevision
        cases hrevision
    have hp : UpToDate p := run_invariant hstep hfresh sections
    refine hp.document ?_
    by_contra hne
    rw [RecordFacts.snapshot, if_neg hne] at hfalse
    cases hfalse
  · intro i hchanged
    by_cases hi : i = .snapshot
    · subst hi
      unfold Published.step RecordFacts.snapshot at hchanged
      dsimp only at hchanged
      split at hchanged
      · simp at hchanged
      · simp [RecordFacts.persist, RecordFacts.covered] at hchanged
    · rcases (counts_step p hi).1.counted with hcounted | ⟨-, hstate, hdropped⟩
      · exact hcounted
      · rw [hstate, hdropped] at hchanged
        simp at hchanged
  · intro endedAt observerStillStopping later q
    have hstep : ∀ q i, SealedAs p.facts.state.events q →
        SealedAs p.facts.state.events (q.step i) := fun _ i h => h.step i
    have hsealed : SealedAs p.facts.state.events
        (p.step (.finish endedAt observerStillStopping)) := ⟨rfl, rfl, rfl⟩
    have hq : SealedAs p.facts.state.events q := run_invariant hstep hsealed later
    exact ⟨hq.events, hq.status⟩

end Ros1Tools.Facts
