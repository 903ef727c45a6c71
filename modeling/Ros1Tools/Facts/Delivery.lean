import Ros1Tools.Facts.Evidence
import Ros1Tools.Facts.Interval
import Ros1Tools.Facts.Threads

/-!
# No message is lost in silence

What becomes of the messages that the reader puts into the queue, over all schedules of
the three threads.  If the last snapshot says that no thread was still running when the
log was sealed, then nothing can have happened after that, and the counts of the manifest
are those of the messages.
-/

namespace Ros1Tools.Facts

open Lib Lib.Faulty Lib.Python

/-! ## What processing does to the counters -/

/-- What an operation of the worker leaves alone, and how many events it lost. -/
structure Accounts (s s' : RecordFacts) (lost : Nat) : Prop where
  messages : s'.messages = s.messages
  sealed : s'.sealed = s.sealed
  persisted : s'.persisted = s.persisted
  revision : s.revision ≤ s'.revision
  coverage : s'.state.coverage = s.state.coverage
  dropped : s'.dropped = s.dropped + lost

section Accounts

variable {host : Host} {about : Fact → Prop} {s s' : RecordFacts} {effect : Effect}

theorem Advance.accounts (h : Advance host s s') : Accounts s s' 0 :=
  ⟨h.messages, h.sealed, h.persisted, h.revision.ge, by rw [h.state], h.dropped⟩

theorem Accounts.noted {lost : Nat} {s'' : RecordFacts} (h : Accounts s s' lost)
    (hnoted : Noted s' s'') : Accounts s s'' lost := by
  rw [hnoted]
  exact ⟨h.messages, h.sealed, h.persisted, h.revision, h.coverage, h.dropped⟩

theorem Work.accounts (h : Work host about s effect s') : Accounts s s' effect.refusals := by
  cases h with
  | suppressed before concerns known after => exact before.accounts.noted after
  | refused before isSealed after => exact before.accounts.noted after
  | full before unsealed isFull after =>
      rename_i s₁
      have h₁ := before.accounts
      have hoverflow : Accounts s s₁.overflow 1 :=
        ⟨h₁.messages, h₁.sealed, h₁.persisted, Nat.le_succ_of_le h₁.revision, h₁.coverage,
          congrArg (· + 1) h₁.dropped⟩
      exact hoverflow.noted after
  | sample before unsealed room concerns isSample holds after =>
      rename_i s₁ fact
      have h₁ := before.accounts
      have hpush : Accounts s (s₁.push fact) 0 :=
        ⟨h₁.messages, h₁.sealed, h₁.persisted, Nat.le_succ_of_le h₁.revision, h₁.coverage,
          h₁.dropped⟩
      exact hpush.noted after
  | report before unsealed room concerns holds follows isOpen after =>
      rename_i s₁ event
      have h₁ := before.accounts
      have hsucceed : ∀ previous, Accounts s
          ((s₁.push (.producer event)).succeed previous event s₁.state.events.length) 0 := by
        intro previous
        cases previous with
        | none =>
            exact ⟨h₁.messages, h₁.sealed, h₁.persisted, Nat.le_succ_of_le h₁.revision,
              h₁.coverage, h₁.dropped⟩
        | some latest =>
            exact ⟨h₁.messages, h₁.sealed, h₁.persisted, Nat.le_succ_of_le h₁.revision,
              h₁.coverage, h₁.dropped⟩
      exact (hsucceed _).noted after

theorem wp_poll {allowed : Fate Exception → Prop} (poll : Poll) :
    Wp allowed (host.poll poll)
      ⟨Work host (fun _ => True) s, fun _ => Advance host s, Advance host s⟩ s := by
  have hperform : Wp allowed (poll.perform host)
      ⟨Work host (fun _ => True) s, fun _ => Advance host s, Advance host s⟩ s := by
    cases poll with
    | file declaration kind opened =>
        exact (wp_file declaration kind opened).ret_mono fun _ _ h => h.mono fun _ _ => trivial
    | parameter name answer =>
        exact (wp_parameter name answer).ret_mono fun _ _ h => h.mono fun _ _ => trivial
  exact (wp_catching hperform fun e => .inl ⟨e.name, rfl⟩).ret_mono fun _ _ h =>
    h.mono fun _ _ => trivial

end Accounts

/-! ## What processing can raise -/

section Raises

variable {host : Host} {allowed : Fate Exception → Prop} {s : RecordFacts}

/-- `unavailable` touches no file, so that nothing can go wrong in it. -/
theorem wp_unavailable_returns (kind source reason : String) :
    Wp allowed (host.unavailable kind source reason)
      ⟨fun _ _ => True, fun _ _ => False, fun _ => False⟩ s := by
  refine Wp.bind (R := fun _ _ => True) (Wp.gets trivial) fun previous s₁ _ => ?_
  split
  · exact Wp.pure trivial
  · exact Wp.bind (R := fun _ _ => True) (Wp.modifyGet trivial) fun _ _ _ =>
      Wp.modifyGet trivial

/-- What is listed does not leave the processing of a message. -/
theorem wp_processMessage_raises (message : Message) :
    Wp allowed (host.processMessage message)
      ⟨fun _ _ => True, fun e _ => isListed e = false, fun _ => True⟩ s := by
  refine Wp.tryCatch (F := fun _ _ => True)
    ((wp_dispatch message).mono (fun _ _ _ => trivial) (fun _ _ _ => trivial)
      fun _ _ => trivial) fun e s₁ _ => ?_
  cases hlisted : isListed e with
  | true =>
      exact (wp_unavailable_returns _ _ _).mono (fun _ _ h => h) (fun _ _ h => h.elim)
        fun _ h => h.elim
  | false => exact Wp.throw hlisted

theorem wp_processMessages_raises (budget : Nat) :
    Wp allowed (host.processMessages budget)
      ⟨fun _ _ => True, fun e _ => isListed e = false, fun _ => True⟩ s := by
  induction budget generalizing s with
  | zero => exact Wp.pure trivial
  | succ budget ih =>
      refine Wp.bind (R := fun _ _ => True) (Wp.gets trivial) fun messages s₁ _ => ?_
      cases messages with
      | nil => exact Wp.pure trivial
      | cons message rest =>
          refine Wp.bind (R := fun _ _ => True) (Wp.modify trivial) fun _ s₂ _ => ?_
          exact Wp.bind (wp_processMessage_raises message) fun _ s₃ _ => ih

end Raises

/-! ## What a step can do -/

/-- The steps of the three threads, as far as the counts can tell them apart. -/
inductive Move (host : Host) (s : System) : System → Prop where
  | stay : Move host s s
  | reader (reader : Reader) (alive : s.reader.isAlive = true) :
      Move host s { s with reader := reader }
  | put (message : Message) (reader : Reader) (alive : s.reader.isAlive = true) :
      Move host s
        { s with
          facts := s.facts.setMessages (s.facts.messages ++ [message])
          reader := reader
          accepted := s.accepted + 1 }
  | overflow (reader : Reader) (alive : s.reader.isAlive = true) :
      Move host s
        { s with
          facts := s.facts.overflow
          reader := reader
          rejections := s.rejections + 1 }
  | worker (worker : Worker) (alive : s.worker.isAlive = true)
      (inHand : worker.inHand = s.worker.inHand) : Move host s { s with worker := worker }
  | take {message : Message} {rest : List Message} (worker : Worker)
      (alive : s.worker.isAlive = true) (before : s.worker.inHand = 0)
      (after : worker.inHand = 1) (messages : s.facts.messages = message :: rest) :
      Move host s
        { s with
          facts := s.facts.setMessages rest
          worker := worker }
  | process {message : Message} {effect : Effect} {facts : RecordFacts} (worker : Worker)
      (alive : s.worker.isAlive = true) (before : s.worker.inHand = 1)
      (after : worker.inHand = 0)
      (work : Work host (host.About message) s.facts effect facts) :
      Move host s
        { s with
          facts := facts
          worker := worker
          refusals := s.refusals + effect.refusals
          consumed := s.consumed ++ [⟨message, s.facts, facts, .ok effect⟩] }
  | fail {message : Message} {e : Exception} {facts : RecordFacts} (worker : Worker)
      (alive : s.worker.isAlive = true) (before : s.worker.inHand = 1)
      (after : worker.inHand = 0) (advance : Advance host s.facts facts)
      (unlisted : isListed e = false) :
      Move host s
        { s with
          facts := facts
          worker := worker
          consumed := s.consumed ++ [⟨message, s.facts, facts, .error e⟩] }
  | poll {effect : Effect} {facts : RecordFacts} (alive : s.worker.isAlive = true)
      (work : Work host (fun _ => True) s.facts effect facts) :
      Move host s
        { s with
          facts := facts
          refusals := s.refusals + effect.refusals }
  | failPoll {facts : RecordFacts} (worker : Worker) (alive : s.worker.isAlive = true)
      (inHand : worker.inHand = s.worker.inHand) (advance : Advance host s.facts facts) :
      Move host s { s with facts := facts, worker := worker }
  | close (recording : s.finisher = .recording) :
      Move host s { s with facts := s.facts.close, finisher := .closing }
  | sealLog (endedAt : Clock) (alive : Bool) (closing : s.finisher = .closing)
      (isAlive : alive = false → s.reader.isAlive = false ∧ s.worker.isAlive = false) :
      Move host s { s with facts := s.facts.sealLog endedAt alive, finisher := .sealed }
  | snapshot (finisher : Finisher)
      (next : s.finisher = .recording ∧ finisher = .recording ∨
        s.finisher = .sealed ∧ finisher = .finished) :
      Move host s
        { s with
          facts := (s.facts.snapshot s.document).2.1
          document := (s.facts.snapshot s.document).2.2
          finisher := finisher }

namespace System

variable {host : Host} {s : System}

theorem move_put : Move host s s.put := by
  unfold put
  split
  · rename_i message hreader
    split
    · exact .put message .idle (by rw [hreader]; rfl)
    · exact .reader .full (by rw [hreader]; rfl)
  · exact .stay

theorem move_take : Move host s s.take := by
  have hpassed : ∀ final, (passed final).inHand = 0 := by
    intro final
    cases final with
    | true => rfl
    | false => rfl
  unfold take
  split
  · rename_i final hworker
    exact .worker _ (by rw [hworker]; rfl) (by rw [hworker]; exact hpassed final)
  · rename_i budget final hworker
    split
    · exact .worker _ (by rw [hworker]; rfl) (by rw [hworker]; exact hpassed final)
    · rename_i message rest hmessages
      exact .take _ (by rw [hworker]; rfl) (by rw [hworker]; rfl) rfl hmessages
  · exact .stay

theorem move_process (fates : Fates Exception) :
    Move host s (s.process host fates) := by
  unfold process
  split
  · rename_i message budget final hworker
    split
    · rename_i effect facts rest hdone
      exact .process _ (by rw [hworker]; rfl) (by rw [hworker]; rfl) rfl
        ((wp_processMessage message).of_done hdone)
    · rename_i e facts rest hraised
      exact .fail _ (by rw [hworker]; rfl) (by rw [hworker]; rfl) rfl
        ((wp_processMessage message).of_raised hraised)
        ((wp_processMessage_raises message).of_raised hraised)
    · exact .stay
  · exact .stay

theorem move_poll (poll : Poll) (fates : Fates Exception) :
    Move host s (s.poll host poll fates) := by
  unfold System.poll
  split
  · rename_i hworker
    split
    · rename_i effect facts rest hdone
      exact .poll (by rw [hworker]; rfl) ((wp_poll poll).of_done hdone)
    · rename_i e facts rest hraised
      exact .failPoll _ (by rw [hworker]; rfl) (by rw [hworker]; rfl)
        ((wp_poll poll).of_raised hraised)
    · exact .stay
  · exact .stay

theorem move_sealLog (endedAt : Clock) (stillAlive : Bool) :
    Move host s (s.sealLog endedAt stillAlive) := by
  unfold sealLog
  split
  · rename_i hfinisher
    refine .sealLog endedAt _ hfinisher fun halive => ?_
    simp only [Bool.or_eq_false_iff] at halive
    exact halive.1
  · exact .stay

/-- Every step is one of the moves. -/
theorem move_step (s : System) (action : Action) : Move host s (s.step host action) := by
  cases action with
  | receive message =>
      change Move host s (s.receive message)
      unfold receive
      split
      · rename_i hreader
        split
        · exact .stay
        · exact .reader _ (by rw [hreader]; rfl)
      · exact .stay
  | put => exact move_put
  | overflow =>
      change Move host s s.overflow
      unfold overflow
      split
      · rename_i hreader
        exact .overflow _ (by rw [hreader]; rfl)
      · exact .stay
  | endOfStream =>
      change Move host s s.endOfStream
      unfold endOfStream
      split
      · rename_i hreader
        exact .reader _ (by rw [hreader]; rfl)
      · exact .stay
  | enterPass =>
      change Move host s s.enterPass
      unfold enterPass
      split
      · rename_i hworker
        exact .worker _ (by rw [hworker]; rfl) (by rw [hworker]; rfl)
      · exact .stay
  | take => exact move_take
  | process fates => exact move_process fates
  | poll poll fates => exact move_poll poll fates
  | endPoll =>
      change Move host s s.endPoll
      unfold endPoll
      split
      · rename_i hworker
        exact .worker _ (by rw [hworker]; rfl) (by rw [hworker]; rfl)
      · exact .stay
  | close =>
      change Move host s s.close
      unfold close
      split
      · rename_i hfinisher
        exact .close hfinisher
      · exact .stay
  | sealLog endedAt stillAlive => exact move_sealLog endedAt stillAlive
  | snapshot =>
      change Move host s s.snapshot
      unfold snapshot
      split
      · rename_i hfinisher
        exact .snapshot s.finisher (.inl ⟨hfinisher, hfinisher⟩)
      · rename_i hfinisher
        exact .snapshot .finished (.inr ⟨hfinisher, rfl⟩)
      · exact .stay

end System

/-! ## Counting -/

/-- Every message that was accepted is in the queue, in hand or consumed, and every event that
was lost was turned away by the queue or by the log. -/
structure Counted (s : System) : Prop where
  queue : s.accepted = s.consumed.length + s.worker.inHand + s.facts.messages.length
  dropped : s.facts.dropped = s.rejections + s.refusals

theorem Counted.move {host : Host} {s s' : System} (hmove : Move host s s') (h : Counted s) :
    Counted s' := by
  obtain ⟨hqueue, hdropped⟩ := h
  cases hmove with
  | stay => exact ⟨hqueue, hdropped⟩
  | reader reader alive => exact ⟨hqueue, hdropped⟩
  | put message reader alive =>
      refine ⟨?_, hdropped⟩
      change s.accepted + 1 = s.consumed.length + s.worker.inHand +
        (s.facts.messages ++ [message]).length
      rw [List.length_append, List.length_singleton, hqueue]
      rfl
  | overflow reader alive =>
      refine ⟨hqueue, ?_⟩
      change s.facts.dropped + 1 = s.rejections + 1 + s.refusals
      omega
  | worker worker alive inHand => exact ⟨by rw [hqueue, ← inHand], hdropped⟩
  | take worker alive before after messages =>
      rename_i message rest
      refine ⟨?_, hdropped⟩
      change s.accepted = s.consumed.length + worker.inHand + rest.length
      rw [hqueue, before, after, messages, List.length_cons]
      omega
  | process worker alive before after work =>
      rename_i message effect facts
      constructor
      · change s.accepted = (s.consumed ++ [_]).length + worker.inHand + facts.messages.length
        rw [hqueue, before, after, List.length_append, work.accounts.messages]
        rfl
      · change facts.dropped = s.rejections + (s.refusals + effect.refusals)
        rw [work.accounts.dropped, hdropped, Nat.add_assoc]
  | fail worker alive before after advance unlisted =>
      rename_i message e facts
      constructor
      · change s.accepted = (s.consumed ++ [_]).length + worker.inHand + facts.messages.length
        rw [hqueue, before, after, List.length_append, advance.messages]
        rfl
      · exact advance.dropped.trans hdropped
  | poll alive work =>
      rename_i effect facts
      constructor
      · change s.accepted = s.consumed.length + s.worker.inHand + facts.messages.length
        rw [hqueue, work.accounts.messages]
      · change facts.dropped = s.rejections + (s.refusals + effect.refusals)
        rw [work.accounts.dropped, hdropped, Nat.add_assoc]
  | failPoll worker alive inHand advance =>
      rename_i facts
      constructor
      · change s.accepted = s.consumed.length + worker.inHand + facts.messages.length
        rw [hqueue, inHand, advance.messages]
      · exact advance.dropped.trans hdropped
  | close recording => exact ⟨hqueue, hdropped⟩
  | sealLog endedAt alive closing isAlive => exact ⟨hqueue, hdropped⟩
  | snapshot finisher next =>
      unfold RecordFacts.snapshot
      constructor
      · dsimp only
        split
        · exact hqueue
        · exact hqueue
      · dsimp only
        split
        · exact hdropped
        · exact hdropped

/-! ## The end of a recording -/

/-- Both threads are gone, and processed nothing after the log was sealed. -/
structure Quiet (s : System) : Prop where
  reader : s.reader.isAlive = false
  worker : s.worker.isAlive = false
  unsealed : ∀ c ∈ s.consumed, c.before.sealed = false

/-- What the manifest can say in each phase of the main thread. -/
structure Phases (s : System) : Prop where
  persisted : ∀ revision, s.facts.persisted = some revision → revision ≤ s.facts.revision
  early : s.finisher = .recording ∨ s.finisher = .closing →
    s.facts.sealed = false ∧ s.facts.state.coverage.observerStillStopping = none ∧
      ∀ c ∈ s.consumed, c.before.sealed = false
  document : s.finisher ≠ .finished → ∀ state, s.document = some state →
    state.coverage.observerStillStopping = none
  pending : s.finisher = .sealed →
    (∀ revision, s.facts.persisted = some revision → revision < s.facts.revision) ∧
      (s.facts.state.coverage.observerStillStopping = some false →
        Quiet s ∧ s.facts.state.coverage.pendingAtClose = some s.facts.messages.length)
  final : s.finisher = .finished → ∀ state, s.document = some state →
    state.coverage.observerStillStopping = some false →
      Quiet s ∧ state.coverage.pendingAtClose = some s.facts.messages.length ∧
        state.coverage.droppedEvents = s.facts.dropped

/-- What the steps of the reader and the worker have in common. -/
structure ThreadStep (s s' : System) : Prop where
  alive : s.reader.isAlive = true ∨ s.worker.isAlive = true
  finisher : s'.finisher = s.finisher
  document : s'.document = s.document
  sealed : s'.facts.sealed = s.facts.sealed
  persisted : s'.facts.persisted = s.facts.persisted
  revision : s.facts.revision ≤ s'.facts.revision
  coverage : s'.facts.state.coverage = s.facts.state.coverage
  consumed : ∀ c ∈ s'.consumed, c ∈ s.consumed ∨ c.before = s.facts

/-- A move of the main thread, or one of the other threads. -/
theorem Move.cases_main {host : Host} {s s' : System} (hmove : Move host s s') :
    s' = s ∨ ThreadStep s s' ∨
      (s.finisher = .recording ∧ s' = { s with facts := s.facts.close, finisher := .closing }) ∨
      (∃ endedAt alive, s.finisher = .closing ∧
        (alive = false → s.reader.isAlive = false ∧ s.worker.isAlive = false) ∧
        s' = { s with facts := s.facts.sealLog endedAt alive, finisher := .sealed }) ∨
      ∃ finisher, (s.finisher = .recording ∧ finisher = .recording ∨
          s.finisher = .sealed ∧ finisher = .finished) ∧
        s' = { s with
          facts := (s.facts.snapshot s.document).2.1
          document := (s.facts.snapshot s.document).2.2
          finisher := finisher } := by
  have hold : ∀ c ∈ s.consumed, c ∈ s.consumed ∨ c.before = s.facts := fun _ => .inl
  have hnew : ∀ message facts outcome,
      ∀ c ∈ s.consumed ++ [⟨message, s.facts, facts, outcome⟩],
        c ∈ s.consumed ∨ c.before = s.facts := by
    intro message facts outcome c hc
    rcases List.mem_append.mp hc with hc | hc
    · exact .inl hc
    · rw [List.mem_singleton.mp hc]
      exact .inr rfl
  have hstep : ∀ {facts : RecordFacts} {lost : Nat}, Accounts s.facts facts lost →
      facts.sealed = s.facts.sealed ∧ facts.persisted = s.facts.persisted ∧
        s.facts.revision ≤ facts.revision ∧ facts.state.coverage = s.facts.state.coverage :=
    fun h => ⟨h.sealed, h.persisted, h.revision, h.coverage⟩
  cases hmove with
  | stay => exact .inl rfl
  | reader reader alive =>
      exact .inr (.inl ⟨.inl alive, rfl, rfl, rfl, rfl, Nat.le_refl _, rfl, hold⟩)
  | put message reader alive =>
      exact .inr (.inl ⟨.inl alive, rfl, rfl, rfl, rfl, Nat.le_refl _, rfl, hold⟩)
  | overflow reader alive =>
      exact .inr (.inl ⟨.inl alive, rfl, rfl, rfl, rfl, Nat.le_succ _, rfl, hold⟩)
  | worker worker alive inHand =>
      exact .inr (.inl ⟨.inr alive, rfl, rfl, rfl, rfl, Nat.le_refl _, rfl, hold⟩)
  | take worker alive before after messages =>
      exact .inr (.inl ⟨.inr alive, rfl, rfl, rfl, rfl, Nat.le_refl _, rfl, hold⟩)
  | process worker alive before after work =>
      obtain ⟨hsealed, hpersisted, hrevision, hcoverage⟩ := hstep work.accounts
      exact .inr (.inl ⟨.inr alive, rfl, rfl, hsealed, hpersisted, hrevision, hcoverage,
        hnew _ _ _⟩)
  | fail worker alive before after advance unlisted =>
      obtain ⟨hsealed, hpersisted, hrevision, hcoverage⟩ := hstep advance.accounts
      exact .inr (.inl ⟨.inr alive, rfl, rfl, hsealed, hpersisted, hrevision, hcoverage,
        hnew _ _ _⟩)
  | poll alive work =>
      obtain ⟨hsealed, hpersisted, hrevision, hcoverage⟩ := hstep work.accounts
      exact .inr (.inl ⟨.inr alive, rfl, rfl, hsealed, hpersisted, hrevision, hcoverage, hold⟩)
  | failPoll worker alive inHand advance =>
      obtain ⟨hsealed, hpersisted, hrevision, hcoverage⟩ := hstep advance.accounts
      exact .inr (.inl ⟨.inr alive, rfl, rfl, hsealed, hpersisted, hrevision, hcoverage, hold⟩)
  | close recording => exact .inr (.inr (.inl ⟨recording, rfl⟩))
  | sealLog endedAt alive closing isAlive =>
      exact .inr (.inr (.inr (.inl ⟨endedAt, alive, closing, isAlive, rfl⟩)))
  | snapshot finisher next => exact .inr (.inr (.inr (.inr ⟨finisher, next, rfl⟩)))

namespace Phases

variable {host : Host} {s s' : System}

/-- Once both threads are gone, neither of them moves. -/
theorem thread (h : Phases s) (hthread : ThreadStep s s') : Phases s' := by
  have hnot : ¬Quiet s := by
    intro hquiet
    rcases hthread.alive with halive | halive
    · rw [hquiet.reader] at halive
      cases halive
    · rw [hquiet.worker] at halive
      cases halive
  constructor
  · intro revision hrevision
    rw [hthread.persisted] at hrevision
    exact (h.persisted revision hrevision).trans hthread.revision
  · intro hfinisher
    rw [hthread.finisher] at hfinisher
    obtain ⟨hsealed, hcoverage, hconsumed⟩ := h.early hfinisher
    refine ⟨by rw [hthread.sealed]; exact hsealed, by rw [hthread.coverage]; exact hcoverage,
      fun c hc => ?_⟩
    rcases hthread.consumed c hc with hc | hc
    · exact hconsumed c hc
    · rw [hc]
      exact hsealed
  · rw [hthread.finisher, hthread.document]
    exact h.document
  · intro hfinisher
    rw [hthread.finisher] at hfinisher
    obtain ⟨hpersisted, hquiet⟩ := h.pending hfinisher
    constructor
    · intro revision hrevision
      rw [hthread.persisted] at hrevision
      exact (hpersisted revision hrevision).trans_le hthread.revision
    · intro hcoverage
      rw [hthread.coverage] at hcoverage
      exact absurd (hquiet hcoverage).1 hnot
  · intro hfinisher state hstate hcoverage
    rw [hthread.finisher] at hfinisher
    rw [hthread.document] at hstate
    exact absurd (h.final hfinisher state hstate hcoverage).1 hnot

theorem close (h : Phases s) (hrecording : s.finisher = .recording) :
    Phases { s with facts := s.facts.close, finisher := .closing } where
  persisted := h.persisted
  early _ := h.early (.inl hrecording)
  document _ := h.document (by rw [hrecording]; decide)
  pending hfinisher := by cases hfinisher
  final hfinisher := by cases hfinisher

theorem sealLog (h : Phases s) (hclosing : s.finisher = .closing) (endedAt : Clock) {alive : Bool}
    (halive : alive = false → s.reader.isAlive = false ∧ s.worker.isAlive = false) :
    Phases { s with facts := s.facts.sealLog endedAt alive, finisher := .sealed } where
  persisted revision hrevision := Nat.le_succ_of_le (h.persisted revision hrevision)
  early hfinisher := by
    rcases hfinisher with hfinisher | hfinisher
    · cases hfinisher
    · cases hfinisher
  document _ := h.document (by rw [hclosing]; decide)
  pending _ := by
    constructor
    · intro revision hrevision
      exact Nat.lt_succ_of_le (h.persisted revision hrevision)
    · intro hcoverage
      obtain ⟨hreader, hworker⟩ := halive (Option.some.inj hcoverage)
      exact ⟨⟨hreader, hworker, (h.early (.inr hclosing)).2.2⟩, rfl⟩
  final hfinisher := by cases hfinisher

theorem snapshot (h : Phases s) {finisher : Finisher}
    (hnext : s.finisher = .recording ∧ finisher = .recording ∨
      s.finisher = .sealed ∧ finisher = .finished) :
    Phases { s with
      facts := (s.facts.snapshot s.document).2.1
      document := (s.facts.snapshot s.document).2.2
      finisher := finisher } := by
  rcases hnext with ⟨hrecording, rfl⟩ | ⟨hsealed, rfl⟩
  · -- While recording, nothing has been said about the end.
    obtain ⟨hopen, hcoverage, hconsumed⟩ := h.early (.inl hrecording)
    unfold RecordFacts.snapshot
    split
    · exact
        { persisted := h.persisted
          early := fun _ => ⟨hopen, hcoverage, hconsumed⟩
          document := fun _ => h.document (by rw [hrecording]; decide)
          pending := fun hf => by cases hf
          final := fun hf => by cases hf }
    · exact
        { persisted := fun revision hrevision => (Option.some.inj hrevision).ge
          early := fun _ => ⟨hopen, hcoverage, hconsumed⟩
          document := fun _ state hstate => by
            cases hstate
            exact hcoverage
          pending := fun hf => by cases hf
          final := fun hf => by cases hf }
  · -- The last snapshot: sealing the log has counted, so the state is copied.
    obtain ⟨hpersisted, hquiet⟩ := h.pending hsealed
    have hne : s.facts.persisted ≠ some s.facts.revision := fun heq =>
      Nat.lt_irrefl _ (hpersisted _ heq)
    rw [RecordFacts.snapshot, if_neg hne]
    exact
      { persisted := fun revision hrevision => (Option.some.inj hrevision).ge
        early := fun hf => by
          rcases hf with hf | hf
          · cases hf
          · cases hf
        document := fun hf => absurd rfl hf
        pending := fun hf => by cases hf
        final := fun _ state hstate hcoverage => by
          cases hstate
          obtain ⟨hq, hpending⟩ := hquiet hcoverage
          exact ⟨⟨hq.reader, hq.worker, hq.unsealed⟩, hpending, rfl⟩ }

theorem move (hmove : Move host s s') (h : Phases s) : Phases s' := by
  rcases hmove.cases_main with rfl | hthread | ⟨hrecording, rfl⟩ |
    ⟨endedAt, alive, hclosing, halive, rfl⟩ | ⟨finisher, hnext, rfl⟩
  · exact h
  · exact h.thread hthread
  · exact h.close hrecording
  · exact h.sealLog hclosing endedAt halive
  · exact h.snapshot hnext

end Phases

/-! ## What becomes of a message -/

theorem modify_append_of_lt {α : Type} (f : α → α) {n : Nat} {front : List α}
    (hn : n < front.length) (back : List α) :
    (front ++ back).modify n f = front.modify n f ++ back := by
  induction front generalizing n with
  | nil => exact absurd hn (Nat.not_lt_zero n)
  | cons a front ih =>
      cases n with
      | zero => rfl
      | succ n => exact congrArg (a :: ·) (ih (Nat.lt_of_succ_lt_succ hn))

/-- The event that a report became is the last one. -/
theorem getLast?_succeed {s : RecordFacts} {next : ProducerEvent} {previous : Option Nat}
    (hprevious : ∀ n, previous = some n → n < s.state.events.length) :
    ((s.push (.producer next)).succeed previous next
        s.state.events.length).state.events.getLast? =
      some ⟨s.state.events.length, .producer next.withdraw⟩ := by
  cases previous with
  | none =>
      rw [RecordFacts.events_succeed_none]
      exact List.getLast?_concat
  | some n =>
      change List.getLast? (List.modify (List.modify (s.state.events ++ [_]) n _)
        s.state.events.length _) = _
      rw [modify_append_of_lt _ (hprevious n rfl)]
      have hlength := List.length_modify
        (fun event : Event => { event with fact := event.fact.mapProducer next.close })
        s.state.events n
      rw [← hlength, modify_append_cons]
      refine List.getLast?_concat.trans ?_
      rw [hlength]
      rfl

/-- A message was recorded, or repeats what is known, or was counted as lost. -/
def Consumed.Accounted (host : Host) (c : Consumed) : Prop :=
  (∃ event, c.after.state.events.map Event.reference =
        c.before.state.events.map Event.reference ++ [event.reference] ∧
      c.after.state.events.getLast? = some event ∧ host.About c.message event.fact ∧
      c.after.dropped = c.before.dropped) ∨
    (∃ fact, host.About c.message fact ∧ Known c.before fact ∧
      c.after.state.events = c.before.state.events ∧ c.after.dropped = c.before.dropped) ∨
    maxEvents ≤ c.before.state.events.length ∧
      c.after.state.events = c.before.state.events ∧ c.after.dropped = c.before.dropped + 1

section Accounted

variable {host : Host} {s s₁ s' : RecordFacts} {message : Message} {effect : Effect}

theorem Known.of_advance {fact : Fact} (hadvance : Advance host s s₁) (h : Known s₁ fact) :
    Known s fact := by
  have hlatest : s₁.latest = s.latest := by
    funext identity
    simp only [RecordFacts.latest, hadvance.producers, hadvance.state]
  cases fact with
  | snapshot kind source observedAt content validity =>
      unfold Known at h ⊢
      rw [← hadvance.previous]
      exact h
  | unavailable kind source observedAt reason =>
      unfold Known at h ⊢
      rw [← hadvance.previous]
      exact h
  | producer event =>
      unfold Known at h ⊢
      rw [← hlatest]
      exact h

/-- Withdrawing the interval of a report does not change what it is about. -/
theorem Host.About.withdraw {event : ProducerEvent} (h : host.About message (.producer event)) :
    host.About message (.producer event.withdraw) := by
  rcases h with (⟨⟨hobserved, data, hread, hsha⟩, hkind⟩ | h) | h
  · refine .inl (.inl ⟨⟨?_, data, ?_, ?_⟩, hkind⟩)
    · unfold ProducerEvent.withdraw
      split
      · exact hobserved
      · exact hobserved
    · rw [event.withdraw_toReport]
      exact hread
    · rw [event.withdraw_content]
      exact hsha
  · exact h.elim
  · exact h.elim

theorem Work.accounted (hwork : Work host (host.About message) s effect s')
    (hsealed : s.sealed = false) :
    Consumed.Accounted host ⟨message, s, s', .ok effect⟩ := by
  have hdropped := hwork.accounts.dropped
  cases hwork with
  | suppressed before concerns known after =>
      refine .inr (.inl ⟨_, concerns, known.of_advance before, ?_, hdropped⟩)
      change s'.state.events = s.state.events
      rw [after, before.state]
  | refused before isSealed after =>
      rw [before.sealed, hsealed] at isSealed
      cases isSealed
  | full before unsealed isFull after =>
      refine .inr (.inr ⟨?_, ?_, hdropped⟩)
      · rw [before.state] at isFull
        exact isFull
      · change s'.state.events = s.state.events
        rw [after, ← before.state]
        rfl
  | sample before unsealed room concerns isSample holds after =>
      rename_i s₁ fact
      refine .inl ⟨⟨s₁.state.events.length, fact⟩, ?_, ?_, concerns, hdropped⟩
      · change s'.state.events.map _ = s.state.events.map _ ++ _
        rw [after, ← before.state]
        exact List.map_append
      · change s'.state.events.getLast? = _
        rw [after]
        exact List.getLast?_concat
  | report before unsealed room concerns holds follows isOpen after =>
      rename_i s₁ event
      refine .inl ⟨⟨s₁.state.events.length, .producer event.withdraw⟩, ?_, ?_,
        concerns.withdraw, hdropped⟩
      · change s'.state.events.map _ = s.state.events.map _ ++ _
        have hcontent : Event.reference ⟨s₁.state.events.length, .producer event.withdraw⟩ =
            Event.reference ⟨s₁.state.events.length, .producer event⟩ := by
          simp only [Event.reference, Fact.content?, event.withdraw_content]
        rw [after, ← before.state, hcontent]
        exact (RecordFacts.references_succeed _ _ _ _).trans List.map_append
      · change s'.state.events.getLast? = _
        rw [after]
        refine getLast?_succeed fun n hn => ?_
        obtain ⟨latest, hlatest, rfl⟩ := Option.map_eq_some_iff.mp hn
        simp only [RecordFacts.latest, Option.bind_eq_bind, Option.bind_eq_some_iff,
          Option.pure_def] at hlatest
        obtain ⟨ordinal, -, e, hat, producer, -, heq⟩ := hlatest
        cases heq
        exact (List.getElem?_eq_some_iff.mp hat).1

end Accounted

/-- What processing a message came to is what it did to the recorder. -/
def Explained (host : Host) (s : System) : Prop :=
  ∀ c ∈ s.consumed, match c.outcome with
    | .ok effect => Work host (host.About c.message) c.before effect c.after
    | .error e => isListed e = false

theorem Explained.move {host : Host} {s s' : System} (hmove : Move host s s')
    (h : Explained host s) : Explained host s' := by
  cases hmove with
  | process worker alive before after work =>
      intro c hc
      rcases List.mem_append.mp hc with hc | hc
      · exact h c hc
      · rw [List.mem_singleton.mp hc]
        exact work
  | fail worker alive before after advance unlisted =>
      intro c hc
      rcases List.mem_append.mp hc with hc | hc
      · exact h c hc
      · rw [List.mem_singleton.mp hc]
        exact unlisted
  | stay => exact h
  | reader reader alive => exact h
  | put message reader alive => exact h
  | overflow reader alive => exact h
  | worker worker alive inHand => exact h
  | take worker alive before after messages => exact h
  | poll alive work => exact h
  | failPoll worker alive inHand advance => exact h
  | close recording => exact h
  | sealLog endedAt alive closing isAlive => exact h
  | snapshot finisher next => exact h

/-- **No message is lost in silence.**  In every schedule of the threads, if the manifest says
that no thread was still stopping when the log was sealed: the messages that were accepted are
those that were processed and those that it says are pending; every message that was processed
became one event, or repeats what is known, or was counted as lost, unless processing it raised
an exception that is not listed; and the number of events it says were lost is the number of
messages the queue turned away and of events the log turned away.  No pass over the queue
raises an exception that is listed. -/
theorem messages_not_lost (host : Host) (folder : Folder) (actions : List Action) :
    let s := run (System.step host) (System.start (RecordFacts.fresh host folder)) actions
    (∀ state, s.document = some state →
      state.coverage.observerStillStopping = some false →
        (∃ pending, state.coverage.pendingAtClose = some pending ∧
          s.accepted = s.consumed.length + pending) ∧
        (∀ c ∈ s.consumed, c.Accounted host ∨
          ∃ e, c.outcome = .error e ∧ isListed e = false) ∧
        state.coverage.droppedEvents = s.rejections + s.refusals) ∧
      ∀ budget facts fates e facts' rest,
        host.processMessages budget facts fates = .raised e facts' rest →
          isListed e = false := by
  intro s
  refine ⟨?_, ?_⟩
  · intro state hstate hstopping
    have hcounted : Counted s := by
      have hstep : ∀ s action, Counted s → Counted (System.step host s action) :=
        fun s action h => h.move (s.move_step action)
      exact run_invariant hstep ⟨rfl, rfl⟩ actions
    have hphases : Phases s := by
      have hstep : ∀ s action, Phases s → Phases (System.step host s action) :=
        fun s action h => h.move (s.move_step action)
      refine run_invariant hstep ?_ actions
      exact
        { persisted := fun _ h => by cases h
          early := fun _ => ⟨rfl, rfl, fun _ h => by cases h⟩
          document := fun _ _ h => by cases h
          pending := fun h => by cases h
          final := fun h => by cases h }
    have hexplained : Explained host s := by
      have hstep : ∀ s action, Explained host s → Explained host (System.step host s action) :=
        fun s action h => h.move (s.move_step action)
      exact run_invariant hstep (fun _ h => by cases h) actions
    have hfinished : s.finisher = .finished := by
      by_contra hne
      rw [hphases.document hne state hstate] at hstopping
      cases hstopping
    obtain ⟨hquiet, hpending, hlost⟩ := hphases.final hfinished state hstate hstopping
    refine ⟨⟨_, hpending, ?_⟩, ?_, ?_⟩
    · have hhand : s.worker.inHand = 0 := by
        have hworker := hquiet.worker
        cases hw : s.worker with
        | holding message budget final =>
            rw [hw] at hworker
            cases hworker
        | top => rfl
        | draining budget final => rfl
        | polling => rfl
        | exited => rfl
      rw [hcounted.queue, hhand, Nat.add_zero]
    · intro c hc
      have hc' := hexplained c hc
      obtain ⟨message, before, after, outcome⟩ := c
      cases outcome with
      | ok effect => exact .inl (Work.accounted hc' (hquiet.unsealed _ hc))
      | error e => exact .inr ⟨e, rfl, hc'⟩
    · rw [hlost, hcounted.dropped]
  · intro budget facts fates e facts' rest hraised
    exact (wp_processMessages_raises budget).of_raised hraised

end Ros1Tools.Facts
