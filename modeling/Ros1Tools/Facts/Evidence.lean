import Ros1Tools.Facts.Operation

/-!
# Every event has its evidence

The invariant of the log and of the store together: events are numbered in order and
are not too many, the tables of the store agree with each other and with the files, and
every event that refers to a blob refers to one whose file has the size and the digest
the event says.  The edits that later reports make to earlier ones change neither
numbers nor references, so what was referred to once is there at every later moment.
-/

namespace Ros1Tools.Facts

open Lib Lib.Faulty Lib.Python

/-! ## What edits do not change -/

/-- The number of an event and the blob it refers to. -/
def Event.reference (event : Event) : Nat × Option Content :=
  (event.ordinal, event.fact.content?)

theorem ProducerEvent.close_content (next event : ProducerEvent) :
    (next.close event).content = event.content := by
  unfold ProducerEvent.close
  split
  · rfl
  · rfl

theorem ProducerEvent.withdraw_content (event : ProducerEvent) :
    event.withdraw.content = event.content := by
  unfold ProducerEvent.withdraw
  split
  · rfl
  · rfl

/-- An edit of a report that keeps its blob. -/
theorem Event.reference_mapProducer {f : ProducerEvent → ProducerEvent}
    (hf : ∀ event, (f event).content = event.content) (event : Event) :
    Event.reference { event with fact := event.fact.mapProducer f } = event.reference := by
  obtain ⟨number, fact⟩ := event
  cases fact with
  | producer event => simp only [Event.reference, Fact.mapProducer, Fact.content?, hf]
  | snapshot kind source observedAt content validity => rfl
  | unavailable kind source observedAt reason => rfl

namespace RecordFacts

variable (s : RecordFacts)

theorem references_succeed (previous : Option Nat) (event : ProducerEvent) (ordinal : Nat) :
    (s.succeed previous event ordinal).state.events.map Event.reference =
      s.state.events.map Event.reference :=
  s.map_succeed previous event ordinal (Event.reference_mapProducer event.close_content)
    (Event.reference_mapProducer ProducerEvent.withdraw_content)

theorem sameStore_overflow : SameStore s s.overflow := ⟨rfl, rfl, rfl, rfl⟩

theorem sameStore_push (fact : Fact) : SameStore s (s.push fact) := ⟨rfl, rfl, rfl, rfl⟩

theorem sameStore_setMessages (messages : List Message) : SameStore s (s.setMessages messages) :=
  ⟨rfl, rfl, rfl, rfl⟩

theorem sameStore_close : SameStore s s.close := ⟨rfl, rfl, rfl, rfl⟩

theorem sameStore_sealLog (endedAt : Clock) (observerStillStopping : Bool) :
    SameStore s (s.sealLog endedAt observerStillStopping) := ⟨rfl, rfl, rfl, rfl⟩

theorem sameStore_snapshot (document : Option State) :
    SameStore s (s.snapshot document).2.1 := by
  unfold snapshot
  split
  · exact ⟨rfl, rfl, rfl, rfl⟩
  · exact ⟨rfl, rfl, rfl, rfl⟩

theorem events_snapshot (document : Option State) :
    (s.snapshot document).2.1.state.events = s.state.events := by
  unfold snapshot
  split
  · rfl
  · rfl

theorem sameStore_succeed (previous : Option Nat) (event : ProducerEvent) (ordinal : Nat) :
    SameStore s (s.succeed previous event ordinal) := by
  cases previous with
  | none => exact ⟨rfl, rfl, rfl, rfl⟩
  | some latest => exact ⟨rfl, rfl, rfl, rfl⟩

end RecordFacts

/-! ## The invariant -/

structure LogSound (host : Host) (s : RecordFacts) : Prop where
  ordinals : ∀ i (event : Event), s.state.events[i]? = some event → event.ordinal = i
  bounded : s.state.events.length ≤ maxEvents
  store : StoreSound host s
  evidence : ∀ event ∈ s.state.events, ∀ content, event.fact.content? = some content →
    Holds host s content

namespace LogSound

variable {host : Host} {s s' : RecordFacts}

/-- The log is only looked at for its references, and the store as a whole. -/
theorem congr (href : s'.state.events.map Event.reference = s.state.events.map Event.reference)
    (hstore : StoreSound host s') (hholds : ∀ content, Holds host s content →
      Holds host s' content) (h : LogSound host s) : LogSound host s' where
  ordinals i event hevent := by
    have hi := congrArg (·[i]?) href
    simp only [List.getElem?_map, hevent, Option.map_some] at hi
    obtain ⟨event', hevent', heq⟩ := Option.map_eq_some_iff.mp hi.symm
    rw [← h.ordinals i event' hevent']
    exact (congrArg Prod.fst heq).symm
  bounded := by
    have hlength := congrArg List.length href
    rw [List.length_map, List.length_map] at hlength
    rw [hlength]
    exact h.bounded
  store := hstore
  evidence event hevent content hcontent := by
    have hmem : event.reference ∈ s.state.events.map Event.reference := by
      rw [← href]
      exact List.mem_map_of_mem hevent
    obtain ⟨event', hevent', heq⟩ := List.mem_map.mp hmem
    refine hholds content (h.evidence event' hevent' content ?_)
    exact (congrArg Prod.snd heq).trans hcontent

theorem advance (hadvance : Advance host s s') (h : LogSound host s) : LogSound host s' :=
  h.congr (by rw [hadvance.state]) (hadvance.sound h.store) (hadvance.holds h.store)

/-- A change that touches neither the references of the log nor the store. -/
theorem same (hstore : SameStore s s')
    (href : s'.state.events.map Event.reference = s.state.events.map Event.reference)
    (h : LogSound host s) : LogSound host s' :=
  h.congr href (hstore.sound h.store) fun _ => hstore.holds

theorem noted (hnoted : Noted s s') (h : LogSound host s) : LogSound host s' :=
  h.same hnoted.sameStore (by rw [hnoted])

/-- A new event is numbered next, and refers to what the store holds. -/
theorem push {fact : Fact} (h : LogSound host s)
    (hroom : s.state.events.length < maxEvents)
    (hholds : ∀ content, fact.content? = some content → Holds host s content) :
    LogSound host (s.push fact) where
  ordinals i event hevent := by
    change (s.state.events ++ [_])[i]? = some event at hevent
    rw [List.getElem?_append] at hevent
    split at hevent
    · exact h.ordinals i event hevent
    · rename_i hi
      rw [List.getElem?_singleton] at hevent
      split at hevent
      · cases hevent
        change s.state.events.length = i
        omega
      · cases hevent
  bounded := by
    change (s.state.events ++ [_]).length ≤ maxEvents
    rw [List.length_append]
    exact hroom
  store := (s.sameStore_push fact).sound h.store
  evidence event hevent content hcontent := by
    refine (s.sameStore_push fact).holds ?_
    rcases List.mem_append.mp hevent with hevent | hevent
    · exact h.evidence event hevent content hcontent
    · obtain rfl := List.mem_singleton.mp hevent
      exact hholds content hcontent

theorem work {about : Fact → Prop} {effect : Effect} (hwork : Work host about s effect s')
    (h : LogSound host s) : LogSound host s' := by
  cases hwork with
  | suppressed before concerns known after => exact (h.advance before).noted after
  | refused before isSealed after => exact (h.advance before).noted after
  | full before unsealed isFull after =>
      exact ((h.advance before).same (RecordFacts.sameStore_overflow _) rfl).noted after
  | sample before unsealed room concerns isSample holds after =>
      exact ((h.advance before).push room (holds h.store)).noted after
  | report before unsealed room concerns holds follows isOpen after =>
      rename_i s₁ event
      have hpush : LogSound host (s₁.push (.producer event)) :=
        (h.advance before).push room fun content hcontent => by
          cases hcontent
          exact holds h.store
      exact (hpush.same (RecordFacts.sameStore_succeed _ _ _ _)
        (RecordFacts.references_succeed _ _ _ _)).noted after

end LogSound

theorem kept_logSound (host : Host) : Kept host (LogSound host) where
  advance _ _ hadvance h := h.advance hadvance
  work _ _ _ hwork h := h.work hwork
  messages s messages h := h.same (s.sameStore_setMessages messages) rfl
  overflow s h := h.same s.sameStore_overflow rfl
  close s h := h.same s.sameStore_close rfl
  sealLog s endedAt alive h := h.same (s.sameStore_sealLog endedAt alive) rfl
  snapshot s h := h.same (s.sameStore_snapshot none) (by rw [s.events_snapshot])

theorem logSound_fresh (host : Host) (folder : Folder) :
    LogSound host (RecordFacts.fresh host folder) where
  ordinals i event hevent := by cases hevent
  bounded := Nat.zero_le _
  store :=
    { keys := fun _ => by simp [RecordFacts.fresh]
      injective := fun _ _ _ h => by cases h
      numbered := fun _ _ h => by cases h
      blobs := fun _ _ h => by cases h
      sum := rfl
      budget := Nat.zero_le _ }
  evidence event hevent := by cases hevent

/-- What the store holds, it holds along every run. -/
theorem kept_holds (host : Host) (content : Content) :
    Kept host fun s => StoreSound host s ∧ Holds host s content := by
  have hsame : ∀ s s', SameStore s s' → StoreSound host s ∧ Holds host s content →
      StoreSound host s' ∧ Holds host s' content :=
    fun _ _ hstore h => ⟨hstore.sound h.1, hstore.holds h.2⟩
  have hadvance : ∀ s s', Advance host s s' → StoreSound host s ∧ Holds host s content →
      StoreSound host s' ∧ Holds host s' content :=
    fun _ _ hadvance h => ⟨hadvance.sound h.1, hadvance.holds h.1 content h.2⟩
  refine ⟨hadvance, ?_, fun s messages => hsame _ _ (s.sameStore_setMessages messages),
    fun s => hsame _ _ s.sameStore_overflow, fun s => hsame _ _ s.sameStore_close,
    fun s endedAt alive => hsame _ _ (s.sameStore_sealLog endedAt alive),
    fun s => hsame _ _ (s.sameStore_snapshot none)⟩
  intro s effect s' hwork h
  cases hwork with
  | suppressed before concerns known after =>
      exact hsame _ _ after.sameStore (hadvance _ _ before h)
  | refused before isSealed after => exact hsame _ _ after.sameStore (hadvance _ _ before h)
  | full before unsealed isFull after =>
      have h₁ := hadvance _ _ before h
      exact hsame _ _ after.sameStore (hsame _ _ (RecordFacts.sameStore_overflow _) h₁)
  | sample before unsealed room concerns isSample holds after =>
      have h₁ := hadvance _ _ before h
      exact hsame _ _ after.sameStore (hsame _ _ (RecordFacts.sameStore_push _ _) h₁)
  | report before unsealed room concerns holds follows isOpen after =>
      rename_i s₁ event
      have h₁ := hadvance _ _ before h
      have h₂ := hsame _ _ (s₁.sameStore_push (.producer event)) h₁
      exact hsame _ _ after.sameStore (hsame _ _ (RecordFacts.sameStore_succeed _ _ _ _) h₂)

/-- **The log and the store.**  After every run of the recorder, whatever fails in it:
events are numbered in order and are at most `maxEvents`; the tables of the store have the
same keys, give distinct digests distinct names, and account for the bytes, which stay
within the budget; and what an event refers to is there, now and after every later run. -/
theorem evidence_kept (host : Host) (folder : Folder)
    (calls : List (Operation × Fates Exception)) :
    let s := run (perform host) (RecordFacts.fresh host folder) calls
    (∀ i (event : Event), s.state.events[i]? = some event → event.ordinal = i) ∧
      s.state.events.length ≤ maxEvents ∧
      (∀ digest, digest ∈ s.storedHashes ↔ (s.storedPaths digest).isSome) ∧
      (∀ digest digest' relative, s.storedPaths digest = some relative →
        s.storedPaths digest' = some relative → digest = digest') ∧
      s.storedBytes = ∑ digest ∈ s.storedHashes, s.blobSize digest ∧
      s.storedBytes ≤ maxTotalBytes ∧
      ∀ event ∈ s.state.events, ∀ content, event.fact.content? = some content →
        ∀ later, ∃ bytes,
          (run (perform host) s later).folder.files content.relativePath =
              some (.regular bytes) ∧
            bytes.length = content.sizeBytes ∧ host.sha256 bytes = content.sha256 := by
  intro s
  have hs : LogSound host s := (kept_logSound host).run (logSound_fresh host folder) calls
  refine ⟨hs.ordinals, hs.bounded, hs.store.keys, hs.store.injective, hs.store.sum,
    hs.store.budget, ?_⟩
  intro event hevent content hcontent later
  have hlater := (kept_holds host content).run
    ⟨hs.store, hs.evidence event hevent content hcontent⟩ later
  obtain ⟨bytes, hat, hsize, hsha⟩ := hlater.2.file
  refine ⟨bytes, ?_, hsize, hsha⟩
  unfold RecordFacts.bytesAt at hat
  split at hat
  · rename_i bytes' hfile
    cases hat
    exact hfile
  · cases hat

end Ros1Tools.Facts
