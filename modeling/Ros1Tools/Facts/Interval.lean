import Mathlib.Data.List.Chain
import Ros1Tools.Facts.Operation

/-!
# Intervals of validity

What the log says about one producer is the list of its reports, in the order they were
recorded.  The intervals of these reports are a function of the list: an application is
in force until the next report if that report continues it without a gap and without a
clock that goes back, and otherwise its end is left open, with the reason for that.

The table `producers` is what a new report is compared with and what it edits.  It
points to the last report of each producer, so that only the interval that was still
open is ever touched.
-/

namespace Ros1Tools.Facts

open Lib Lib.Faulty Lib.Python

/-! ## Histories -/

/-- A report continues another one: its number is the next one and neither clock went back. -/
def Consecutive (event next : Report) : Prop :=
  next.sequence = event.sequence + 1 ∧
    event.effectiveAt.monotonic ≤ next.effectiveAt.monotonic ∧
    event.effectiveAt.ros ≤ next.effectiveAt.ros

instance (event next : Report) : Decidable (Consecutive event next) :=
  inferInstanceAs (Decidable (_ ∧ _ ∧ _))

/-- The interval of a report without a successor. -/
def openInterval (event : Report) : Option Validity :=
  match event.event with
  | .applied => some event.openValidity
  | .stopped => none

/-- The interval of a report with a successor. -/
def endedInterval (event : Report) (next : ProducerEvent) : Option Validity :=
  match event.event with
  | .applied =>
      if Consecutive event next.toReport then
        some ⟨event.effectiveAt, some next.effectiveAt, .transition next.event⟩
      else some ⟨event.effectiveAt, none, .continuity next.continuity⟩
  | .stopped => none

/-- What a report and its successor have to do with each other. -/
structure Ends (event next : ProducerEvent) : Prop where
  sequence : event.sequence < next.sequence
  continuity : next.continuity = .consecutiveProducerReports ↔
    Consecutive event.toReport next.toReport
  validity : event.validity = endedInterval event.toReport next

/-- **What the log says about one producer.** -/
structure History (events : List ProducerEvent) : Prop where
  chain : events.IsChain Ends
  isOpen : ∀ event ∈ events.getLast?, event.validity = openInterval event.toReport

namespace ProducerEvent

variable (next event : ProducerEvent)

theorem close_toReport : (next.close event).toReport = event.toReport := by
  unfold close
  split
  · rfl
  · rfl

theorem close_continuity : (next.close event).continuity = event.continuity := by
  unfold close
  split
  · rfl
  · rfl

theorem withdraw_toReport : event.withdraw.toReport = event.toReport := by
  unfold withdraw
  split
  · rfl
  · rfl

theorem withdraw_continuity : event.withdraw.continuity = event.continuity := by
  unfold withdraw
  split
  · rfl
  · rfl

/-- A report that was just recorded has an open interval, if it has one. -/
theorem withdraw_validity (h : event.validity = some event.openValidity) :
    event.withdraw.validity = openInterval event.withdraw.toReport := by
  rw [withdraw_toReport]
  unfold withdraw openInterval
  cases hevent : event.event with
  | applied => exact h
  | stopped => rfl

/-- The edit of the latest report ends its interval. -/
theorem close_validity (h : event.validity = openInterval event.toReport)
    (hcontinuity : next.continuity = .consecutiveProducerReports ↔
      Consecutive event.toReport next.toReport) :
    (next.close event).validity = endedInterval event.toReport next := by
  unfold close endedInterval
  unfold openInterval at h
  cases hevent : event.event with
  | stopped =>
      rw [hevent] at h
      exact h
  | applied =>
      rw [hevent] at h
      by_cases hnext : Consecutive event.toReport next.toReport
      · simp [h, hnext, hcontinuity.mpr hnext, Report.openValidity]
      · have hne : next.continuity ≠ .consecutiveProducerReports := fun hc =>
          hnext (hcontinuity.mp hc)
        simp [h, hnext, hne, Report.openValidity]

end ProducerEvent

/-- What a report is to the one it follows. -/
theorem succession_follows {event : ProducerEvent} {report : Report} {sha256 : String}
    {continuity : Continuity} (h : succession (some event) report sha256 = .follows continuity) :
    event.sequence < report.sequence ∧
      (continuity = .consecutiveProducerReports ↔ Consecutive event.toReport report) := by
  unfold succession at h
  dsimp only at h
  split at h
  · cases h
  · split at h
    · cases h
    · rename_i hlt
      refine ⟨Nat.lt_of_not_le hlt, ?_⟩
      split at h
      · rename_i hnext
        cases h
        unfold consecutive
        split
        · rename_i hclock
          exact iff_of_false (by decide) fun h => Nat.not_le_of_lt hclock h.2.1
        · rename_i hmonotonic
          split
          · rename_i hclock
            exact iff_of_false (by decide) fun h => Nat.not_le_of_lt hclock h.2.2
          · rename_i hros
            exact iff_of_true rfl
              ⟨hnext, Nat.le_of_not_lt hmonotonic, Nat.le_of_not_lt hros⟩
      · rename_i hgap
        cases h
        exact iff_of_false (by decide) fun h => hgap h.1

section Extend

variable {events : List ProducerEvent} {event next : ProducerEvent}

/-- Being the successor does not depend on the interval. -/
theorem Ends.congr_right {event' : ProducerEvent} (h : Ends next event)
    (hreport : event'.toReport = event.toReport)
    (hcontinuity : event'.continuity = event.continuity) : Ends next event' := by
  obtain ⟨report', observedAt', content', continuity', validity'⟩ := event'
  obtain ⟨report, observedAt, content, continuity, validity⟩ := event
  cases hreport
  cases hcontinuity
  exact ⟨h.sequence, h.continuity, h.validity⟩

/-- The first report of a producer. -/
theorem History.first (hopen : next.validity = some next.openValidity) :
    History [next.withdraw] where
  chain := List.isChain_singleton _
  isOpen event hevent := by
    cases hevent
    exact next.withdraw_validity hopen

/-- **A new report ends the interval of the last one.** -/
theorem History.extend {sha256 : String} (h : History (events ++ [event]))
    (hfollows : succession (some event) next.toReport sha256 = .follows next.continuity)
    (hopen : next.validity = some next.openValidity) :
    History (events ++ [next.close event, next.withdraw]) := by
  obtain ⟨hsequence, hcontinuity⟩ := succession_follows hfollows
  have hvalidity : event.validity = openInterval event.toReport := h.isOpen event (by simp)
  have hends : Ends (next.close event) next := by
    refine ⟨?_, ?_, ?_⟩
    · rw [next.close_toReport event]
      exact hsequence
    · rw [next.close_toReport event]
      exact hcontinuity
    · rw [next.close_toReport event]
      exact next.close_validity event hvalidity hcontinuity
  obtain ⟨hfront, -, hlast⟩ := List.isChain_append.mp h.chain
  constructor
  · refine List.isChain_append.mpr ⟨hfront, List.isChain_pair.mpr ?_, ?_⟩
    · exact hends.congr_right next.withdraw_toReport next.withdraw_continuity
    · intro x hx y hy
      cases hy
      exact (hlast x hx event rfl).congr_right (next.close_toReport event)
        (next.close_continuity event)
  · intro e he
    rw [List.getLast?_append] at he
    cases he
    exact next.withdraw_validity hopen

end Extend

/-! ## The log -/

/-- Whose report an event is. -/
def Event.identity? (event : Event) : Option Identity :=
  event.fact.producer?.map (·.source.identity)

/-- The report an event is, if it is one of the given producer. -/
def Event.reportOf (identity : Identity) (event : Event) : Option ProducerEvent :=
  event.fact.producer?.filter (·.source.identity = identity)

/-- The reports of a producer, in the order they were recorded. -/
def reportsOf (identity : Identity) (events : List Event) : List ProducerEvent :=
  events.filterMap (Event.reportOf identity)

/-- `producers` points to the last report of a producer. -/
def Pointed (owners : List (Option Identity)) (identity : Identity) : Option Nat → Prop
  | none => some identity ∉ owners
  | some ordinal => owners[ordinal]? = some (some identity) ∧
      some identity ∉ owners.drop (ordinal + 1)

section Log

variable {identity : Identity} {events : List Event} {event next : ProducerEvent}

theorem reportsOf_append (front back : List Event) :
    reportsOf identity (front ++ back) = reportsOf identity front ++ reportsOf identity back :=
  List.filterMap_append

theorem reportsOf_cons_producer (ordinal : Nat) (back : List Event) :
    reportsOf identity (⟨ordinal, .producer event⟩ :: back) =
      (if event.source.identity = identity then [event] else []) ++
        reportsOf identity back := by
  by_cases h : event.source.identity = identity
  · have hof : Event.reportOf identity ⟨ordinal, .producer event⟩ = some event := by
      simp [Event.reportOf, Fact.producer?, h]
    rw [reportsOf, List.filterMap_cons_some hof, if_pos h]
    rfl
  · have hof : Event.reportOf identity ⟨ordinal, .producer event⟩ = none := by
      simp [Event.reportOf, Fact.producer?, h]
    rw [reportsOf, List.filterMap_cons_none hof, if_neg h]
    rfl

theorem reportsOf_sample {ordinal : Nat} {fact : Fact} (h : fact.producer? = none) :
    reportsOf identity (events ++ [⟨ordinal, fact⟩]) = reportsOf identity events := by
  have hof : Event.reportOf identity ⟨ordinal, fact⟩ = none := by simp [Event.reportOf, h]
  rw [reportsOf_append, reportsOf, reportsOf, List.filterMap_cons_none hof]
  exact List.append_nil _

theorem reportsOf_eq_nil (h : some identity ∉ events.map Event.identity?) :
    reportsOf identity events = [] := by
  refine List.filterMap_eq_nil_iff.mpr fun e he => ?_
  refine Option.filter_eq_none_iff.mpr fun producer hproducer hidentity => h ?_
  refine List.mem_map.mpr ⟨e, he, ?_⟩
  rw [Event.identity?, hproducer, Option.map_some, of_decide_eq_true hidentity]

/-- Where `producers` points, the log can be cut. -/
theorem Pointed.split {ordinal : Nat}
    (h : Pointed (events.map Event.identity?) identity (some ordinal)) :
    ∃ front number event back, events = front ++ ⟨number, .producer event⟩ :: back ∧
      front.length = ordinal ∧ event.source.identity = identity ∧
      reportsOf identity back = [] := by
  obtain ⟨howner, hback⟩ := h
  rw [List.getElem?_map] at howner
  obtain ⟨e, he, hidentity⟩ := Option.map_eq_some_iff.mp howner
  obtain ⟨hlt, rfl⟩ := List.getElem?_eq_some_iff.mp he
  obtain ⟨event, hevent, rfl⟩ := Option.map_eq_some_iff.mp hidentity
  have hfact : events[ordinal].fact = .producer event := by
    cases hfact : events[ordinal].fact with
    | producer event' =>
        rw [hfact] at hevent
        cases hevent
        rfl
    | snapshot kind source observedAt content validity => rw [hfact] at hevent; cases hevent
    | unavailable kind source observedAt reason => rw [hfact] at hevent; cases hevent
  refine ⟨events.take ordinal, events[ordinal].ordinal, event, events.drop (ordinal + 1), ?_,
    List.length_take_of_le hlt.le, rfl, reportsOf_eq_nil ?_⟩
  · rw [← hfact]
    exact (List.take_append_drop ordinal events).symm.trans
      (congrArg (events.take ordinal ++ ·) (List.drop_eq_getElem_cons hlt))
  · rw [List.map_drop]
    exact hback

theorem Pointed.push_other {owners : List (Option Identity)} {owner : Option Identity}
    {pointer : Option Nat} (h : Pointed owners identity pointer) (hne : owner ≠ some identity) :
    Pointed (owners ++ [owner]) identity pointer := by
  have hsingle : some identity ∉ [owner] := fun hmem =>
    hne (List.mem_singleton.mp hmem).symm
  cases pointer with
  | none => exact fun hmem => (List.mem_append.mp hmem).elim h hsingle
  | some ordinal =>
      obtain ⟨howner, hback⟩ := h
      have hlt : ordinal < owners.length := (List.getElem?_eq_some_iff.mp howner).1
      refine ⟨?_, ?_⟩
      · rw [List.getElem?_append_left hlt]
        exact howner
      · rw [List.drop_append_of_le_length hlt]
        exact fun hmem => (List.mem_append.mp hmem).elim hback hsingle

theorem Pointed.push_self (owners : List (Option Identity)) :
    Pointed (owners ++ [some identity]) identity (some owners.length) := by
  refine ⟨List.getElem?_concat_length, ?_⟩
  rw [List.drop_eq_nil_of_le (by rw [List.length_append]; exact Nat.le_refl _)]
  exact List.not_mem_nil

end Log

theorem modify_append_cons {α : Type} (f : α → α) (front : List α) (a : α) (back : List α) :
    (front ++ a :: back).modify front.length f = front ++ f a :: back := by
  induction front with
  | nil => rfl
  | cons b front ih => exact congrArg (b :: ·) ih

namespace RecordFacts

variable {s : RecordFacts} {next event : ProducerEvent} {front back : List Event} {number : Nat}

/-- Recording the first report of a producer. -/
theorem events_succeed_none :
    ((s.push (.producer next)).succeed none next s.state.events.length).state.events =
      s.state.events ++ [⟨s.state.events.length, .producer next.withdraw⟩] :=
  modify_append_cons _ s.state.events _ []

/-- Recording a report of a producer whose last report is known. -/
theorem events_succeed_some (hs : s.state.events = front ++ ⟨number, .producer event⟩ :: back) :
    ((s.push (.producer next)).succeed (some front.length) next
        s.state.events.length).state.events =
      (front ++ ⟨number, .producer (next.close event)⟩ :: back) ++
        [⟨s.state.events.length, .producer next.withdraw⟩] := by
  have hlength : s.state.events.length =
      (front ++ (⟨number, .producer (next.close event)⟩ : Event) :: back).length := by
    rw [hs, List.length_append, List.length_append, List.length_cons, List.length_cons]
  have hfirst : ((s.push (.producer next)).editProducer front.length next.close).state.events =
      (front ++ ⟨number, .producer (next.close event)⟩ :: back) ++
        [⟨s.state.events.length, .producer next⟩] := by
    change (s.state.events ++ [_]).modify front.length _ = _
    rw [hs, List.append_assoc, List.append_assoc]
    exact modify_append_cons _ front _ _
  change List.modify (((s.push (.producer next)).editProducer front.length
    next.close).state.events) _ _ = _
  rw [hfirst]
  exact (congrArg (fun n => List.modify _ n _) hlength).trans (modify_append_cons _ _ _ [])

theorem latest_eq_some (hs : s.state.events = front ++ ⟨number, .producer event⟩ :: back)
    {identity : Identity} (hpointer : s.producers identity = some front.length) :
    s.latest identity = some (front.length, event) := by
  have hat : s.state.events[front.length]? = some ⟨number, .producer event⟩ := by
    rw [hs, List.getElem?_append_right (Nat.le_refl _), Nat.sub_self]
    rfl
  simp [latest, hpointer, hat, Fact.producer?]

theorem latest_eq_none {identity : Identity} (hpointer : s.producers identity = none) :
    s.latest identity = none := by
  simp [latest, hpointer]

end RecordFacts

/-! ## The invariant -/

/-- The table `producers` is right, and so is what the log says about every producer. -/
structure Recorded (s : RecordFacts) : Prop where
  pointed : ∀ identity,
    Pointed (s.state.events.map Event.identity?) identity (s.producers identity)
  history : ∀ identity, History (reportsOf identity s.state.events)

namespace Recorded

variable {s s' : RecordFacts} {next : ProducerEvent}

/-- What recording a report does to the reports of each producer. -/
theorem reportsOf_report (h : Recorded s) (next : ProducerEvent) :
    ∃ reports last, reportsOf next.source.identity s.state.events = reports ++ last.toList ∧
      (last = none → reports = []) ∧
      (s.latest next.source.identity).map Prod.snd = last ∧
      ∀ identity, reportsOf identity ((s.push (.producer next)).succeed
          ((s.latest next.source.identity).map Prod.fst) next s.state.events.length).state.events =
        if next.source.identity = identity then
          reports ++ ((last.map next.close).toList ++ [next.withdraw])
        else reportsOf identity s.state.events := by
  have hwithdraw : next.withdraw.source.identity = next.source.identity := by
    rw [next.withdraw_toReport]
  have hpointed := h.pointed next.source.identity
  cases hpointer : s.producers next.source.identity with
  | none =>
      rw [hpointer] at hpointed
      have hnil := reportsOf_eq_nil hpointed
      rw [RecordFacts.latest_eq_none hpointer]
      refine ⟨[], none, hnil, fun _ => rfl, rfl, fun identity => ?_⟩
      change reportsOf identity ((s.push (.producer next)).succeed none next _).state.events = _
      rw [RecordFacts.events_succeed_none, reportsOf_append, reportsOf_cons_producer, hwithdraw]
      split
      · rename_i hidentity
        rw [← hidentity, hnil]
        rfl
      · exact List.append_nil _
  | some ordinal =>
      rw [hpointer] at hpointed
      obtain ⟨front, number, event, back, hs, rfl, hidentity, hback⟩ := hpointed.split
      have hclose : (next.close event).source.identity = next.source.identity := by
        rw [next.close_toReport event]
        exact hidentity
      rw [RecordFacts.latest_eq_some hs hpointer]
      refine ⟨reportsOf next.source.identity front, some event, ?_, (fun h => by cases h), rfl,
        fun identity => ?_⟩
      · rw [hs, reportsOf_append, reportsOf_cons_producer, if_pos hidentity, hback]
        rfl
      · change reportsOf identity ((s.push (.producer next)).succeed (some front.length) next
          _).state.events = _
        rw [RecordFacts.events_succeed_some hs, reportsOf_append, reportsOf_append,
          reportsOf_cons_producer, reportsOf_cons_producer, hclose, hwithdraw]
        split
        · rename_i heq
          rw [← heq, hback, List.append_assoc]
          rfl
        · rename_i hne
          rw [hs, reportsOf_append, reportsOf_cons_producer, hidentity, if_neg hne]
          exact List.append_nil _

/-- The owners of the events do not change when a report edits the one before it. -/
theorem owners_report (next : ProducerEvent) (previous : Option Nat) :
    ((s.push (.producer next)).succeed previous next
        s.state.events.length).state.events.map Event.identity? =
      s.state.events.map Event.identity? ++ [some next.source.identity] := by
  have hedit : ∀ {f : ProducerEvent → ProducerEvent}, (∀ e, (f e).toReport = e.toReport) →
      ∀ event : Event, Event.identity? { event with fact := event.fact.mapProducer f } =
        event.identity? := by
    rintro f hf ⟨number, fact⟩
    cases fact with
    | producer event => simp only [Event.identity?, Fact.mapProducer, Fact.producer?,
        Option.map_some, hf]
    | snapshot kind source observedAt content validity => rfl
    | unavailable kind source observedAt reason => rfl
  rw [RecordFacts.map_succeed _ _ _ _ (hedit next.close_toReport)
    (hedit ProducerEvent.withdraw_toReport)]
  exact List.map_append

theorem same (h : Recorded s) (hevents : s'.state.events = s.state.events)
    (hproducers : s'.producers = s.producers) : Recorded s' := by
  constructor
  · rw [hevents, hproducers]
    exact h.pointed
  · rw [hevents]
    exact h.history

theorem advance {host : Host} (h : Recorded s) (hadvance : Advance host s s') : Recorded s' :=
  h.same (by rw [hadvance.state]) hadvance.producers

theorem noted (h : Recorded s) (hnoted : Noted s s') : Recorded s' :=
  h.same (by rw [hnoted]) (by rw [hnoted])

/-- An event that is not a report. -/
theorem push {fact : Fact} (h : Recorded s) (hsample : fact.producer? = none) :
    Recorded (s.push fact) := by
  constructor
  · intro identity
    have howners : (s.push fact).state.events.map Event.identity? =
        s.state.events.map Event.identity? ++ [none] := by
      change (s.state.events ++ [_]).map _ = _
      rw [List.map_append, List.map_singleton, Event.identity?, hsample]
      rfl
    rw [howners]
    exact (h.pointed identity).push_other (by simp)
  · intro identity
    change History (reportsOf identity (s.state.events ++ [_]))
    rw [reportsOf_sample hsample]
    exact h.history identity

/-- A report. -/
theorem report {sha256 : String} (h : Recorded s)
    (hfollows : succession ((s.latest next.source.identity).map Prod.snd) next.toReport sha256 =
      .follows next.continuity)
    (hopen : next.validity = some next.openValidity) :
    Recorded ((s.push (.producer next)).succeed
      ((s.latest next.source.identity).map Prod.fst) next s.state.events.length) := by
  obtain ⟨reports, last, hreports, hnil, hlatest, hafter⟩ := h.reportsOf_report next
  constructor
  · intro identity
    rw [owners_report]
    have hproducers : ((s.push (.producer next)).succeed
        ((s.latest next.source.identity).map Prod.fst) next s.state.events.length).producers =
        Function.update s.producers next.source.identity (some s.state.events.length) := by
      cases s.latest next.source.identity with
      | none => rfl
      | some latest => rfl
    rw [hproducers]
    by_cases hidentity : identity = next.source.identity
    · subst hidentity
      rw [Function.update_self]
      have hself : Pointed (s.state.events.map Event.identity? ++ [some next.source.identity])
          next.source.identity (some (s.state.events.map Event.identity?).length) :=
        Pointed.push_self _
      rw [List.length_map] at hself
      exact hself
    · rw [Function.update_of_ne hidentity]
      exact (h.pointed identity).push_other fun heq => hidentity (Option.some.inj heq).symm
  · intro identity
    rw [hafter]
    split
    · have hhistory := h.history next.source.identity
      rw [hreports] at hhistory
      rw [hlatest] at hfollows
      cases last with
      | none =>
          rw [hnil rfl]
          exact .first hopen
      | some event => exact hhistory.extend hfollows hopen
    · exact h.history identity

theorem work {host : Host} {about : Fact → Prop} {effect : Effect}
    (hwork : Work host about s effect s') (h : Recorded s) : Recorded s' := by
  cases hwork with
  | suppressed before concerns known after => exact (h.advance before).noted after
  | refused before isSealed after => exact (h.advance before).noted after
  | full before unsealed isFull after =>
      rename_i s₁
      have h₁ : Recorded s₁.overflow := (h.advance before).same rfl rfl
      exact h₁.noted after
  | sample before unsealed room concerns isSample holds after =>
      exact ((h.advance before).push isSample).noted after
  | report before unsealed room concerns holds follows isOpen after =>
      exact ((h.advance before).report follows isOpen).noted after

end Recorded

theorem kept_recorded (host : Host) : Kept host Recorded where
  advance _ _ hadvance h := h.advance hadvance
  work _ _ _ hwork h := h.work hwork
  messages _ _ h := h.same rfl rfl
  overflow _ h := h.same rfl rfl
  close _ h := h.same rfl rfl
  sealLog _ _ _ h := h.same rfl rfl
  snapshot s h := by
    unfold RecordFacts.snapshot
    split
    · exact h
    · exact h.same rfl rfl

theorem recorded_fresh (host : Host) (folder : Folder) :
    Recorded (RecordFacts.fresh host folder) where
  pointed _ := List.not_mem_nil
  history _ := ⟨List.isChain_nil, fun _ h => by cases h⟩

/-! ## What the intervals say -/

section Reading

variable {events : List ProducerEvent} {event next : ProducerEvent} {i : Nat}

theorem History.increasing (h : History events) :
    events.Pairwise fun event next => event.sequence < next.sequence := by
  have htrans : Trans (fun event next : ProducerEvent => event.sequence < next.sequence)
      (fun event next : ProducerEvent => event.sequence < next.sequence)
      (fun event next : ProducerEvent => event.sequence < next.sequence) := ⟨Nat.lt_trans⟩
  exact (h.chain.imp fun _ _ hends => hends.sequence).pairwise

theorem History.ends (h : History events) (hevent : events[i]? = some event)
    (hnext : events[i + 1]? = some next) : Ends event next := by
  obtain ⟨hi, rfl⟩ := List.getElem?_eq_some_iff.mp hevent
  obtain ⟨hi', rfl⟩ := List.getElem?_eq_some_iff.mp hnext
  exact List.isChain_iff_getElem.mp h.chain i hi'

theorem History.last (h : History events) (hevent : events[i]? = some event)
    (hnone : events[i + 1]? = none) : event.validity = openInterval event.toReport := by
  obtain ⟨hi, -⟩ := List.getElem?_eq_some_iff.mp hevent
  have hlength := List.getElem?_eq_none_iff.mp hnone
  refine h.isOpen event ?_
  rw [List.getLast?_eq_getElem?, show events.length - 1 = i by omega]
  exact hevent

/-- The interval of a report says no more than the report and its successor do. -/
theorem History.interval (h : History events) (hevent : events[i]? = some event) :
    event.validity =
      (events[i + 1]?).elim (openInterval event.toReport) (endedInterval event.toReport) := by
  cases hnext : events[i + 1]? with
  | none => exact h.last hevent hnext
  | some next => exact (h.ends hevent hnext).validity

end Reading

/-- A report of another producer does not change what the log says about this one. -/
theorem Work.reportsOf_other {host : Host} {about : Fact → Prop} {s s' : RecordFacts}
    {effect : Effect} {identity : Identity} (hwork : Work host about s effect s')
    (h : Recorded s)
    (hother : ∀ event, about (.producer event) → event.source.identity ≠ identity) :
    reportsOf identity s'.state.events = reportsOf identity s.state.events := by
  have hbefore : ∀ {s₁ : RecordFacts}, Advance host s s₁ →
      reportsOf identity s₁.state.events = reportsOf identity s.state.events :=
    fun hadvance => by rw [hadvance.state]
  have hafter : ∀ {s₁ : RecordFacts}, Noted s₁ s' →
      reportsOf identity s'.state.events = reportsOf identity s₁.state.events :=
    fun hnoted => by rw [hnoted]
  cases hwork with
  | suppressed before concerns known after => rw [hafter after, hbefore before]
  | refused before isSealed after => rw [hafter after, hbefore before]
  | full before unsealed isFull after =>
      have h₁ := hbefore before
      exact (hafter after).trans h₁
  | sample before unsealed room concerns isSample holds after =>
      exact (hafter after).trans ((reportsOf_sample isSample).trans (hbefore before))
  | report before unsealed room concerns holds follows isOpen after =>
      rename_i s₁ event
      obtain ⟨reports, last, -, -, -, hreports⟩ := (h.advance before).reportsOf_report event
      rw [hafter after, hreports, if_neg (hother event concerns), hbefore before]

/-- **Intervals are never invented.**  After every run of the recorder, what the log says
about a producer is in the order of its sequence numbers.  An application is in force until
the next report of the same producer exactly if that report continues it, and its end is left
open for a stated reason otherwise; nothing is in force after a stop.  A report of another
producer changes nothing of this. -/
theorem intervals_not_invented (host : Host) (folder : Folder)
    (calls : List (Operation × Fates Exception)) (identity : Identity) :
    let s := run (perform host) (RecordFacts.fresh host folder) calls
    let events := reportsOf identity s.state.events
    (events.Pairwise fun event next => event.sequence < next.sequence) ∧
      (∀ event ∈ events, event.event = .stopped → event.validity = none) ∧
      (∀ (i : Nat) (event : ProducerEvent), events[i]? = some event → event.event = .applied →
        ∃ validity : Validity, event.validity = some validity ∧ validity.since = event.effectiveAt ∧
          (validity.until? ≠ none ↔ ∃ next : ProducerEvent, events[i + 1]? = some next ∧
            Consecutive event.toReport next.toReport) ∧
          (∀ next : ProducerEvent, events[i + 1]? = some next →
            Consecutive event.toReport next.toReport →
            validity.until? = some next.effectiveAt ∧
              validity.endReason = .transition next.event ∧
              validity.since.monotonic ≤ next.effectiveAt.monotonic ∧
              validity.since.ros ≤ next.effectiveAt.ros) ∧
          (∀ next : ProducerEvent, events[i + 1]? = some next →
            ¬Consecutive event.toReport next.toReport →
            validity.until? = none ∧ validity.endReason = .continuity next.continuity) ∧
          (events[i + 1]? = none →
            validity.until? = none ∧ validity.endReason = .endNotObserved)) ∧
      ∀ payload observed fates,
        (∀ report data, host.readReport payload = .ok (report, data) →
          report.source.identity ≠ identity) →
        reportsOf identity (perform host s (.producer payload observed, fates)).state.events =
          events := by
  intro s events
  have hs : Recorded s := (kept_recorded host).run (recorded_fresh host folder) calls
  have hhistory : History events := hs.history identity
  refine ⟨hhistory.increasing, ?_, ?_, ?_⟩
  · intro event hevent hstopped
    obtain ⟨i, hi⟩ := List.getElem?_of_mem hevent
    rw [hhistory.interval hi]
    cases events[i + 1]? with
    | none => simp [openInterval, hstopped]
    | some next => simp [endedInterval, hstopped]
  · intro i event hevent happlied
    have hinterval := hhistory.interval hevent
    cases hnext : events[i + 1]? with
    | none =>
        rw [hnext] at hinterval
        refine ⟨event.openValidity, ?_, rfl, ?_, ?_, ?_, fun _ => ⟨rfl, rfl⟩⟩
        · simpa [openInterval, happlied] using hinterval
        · simp [Report.openValidity]
        · intro next hnext'
          cases hnext'
        · intro next hnext'
          cases hnext'
    | some next =>
        rw [hnext] at hinterval
        by_cases hconsecutive : Consecutive event.toReport next.toReport
        · refine ⟨⟨event.effectiveAt, some next.effectiveAt, .transition next.event⟩, ?_, rfl,
            ?_, ?_, ?_, ?_⟩
          · simpa [endedInterval, happlied, hconsecutive] using hinterval
          · simp [hconsecutive]
          · intro next' hnext'
            cases hnext'
            exact fun _ => ⟨rfl, rfl, hconsecutive.2⟩
          · intro next' hnext' hnot
            cases hnext'
            exact absurd hconsecutive hnot
          · intro hnone
            cases hnone
        · refine ⟨⟨event.effectiveAt, none, .continuity next.continuity⟩, ?_, rfl,
            ?_, ?_, ?_, ?_⟩
          · simpa [endedInterval, happlied, hconsecutive] using hinterval
          · simp [hconsecutive]
          · intro next' hnext' hc
            cases hnext'
            exact absurd hc hconsecutive
          · intro next' hnext'
            cases hnext'
            exact fun _ => ⟨rfl, rfl⟩
          · intro hnone
            cases hnone
  · intro payload observed fates hother
    have hwp : Wp (fun _ => True) (Operation.perform host (.producer payload observed))
        (Everywhere fun s' => reportsOf identity s'.state.events = events) s := by
      refine Wp.bind ((wp_producer payload observed).mono (fun _ _ hwork => ?_) ?_ ?_)
        fun _ _ h => Wp.pure h
      · refine hwork.reportsOf_other hs fun event habout => ?_
        obtain ⟨-, data, hread, -⟩ := habout
        exact hother _ _ hread
      · intro _ _ hadvance
        rw [hadvance.state]
      · intro _ hadvance
        rw [hadvance.state]
    exact Wp.state hwp

end Ros1Tools.Facts
