import Ros1Tools.Facts.Blob
import Ros1Tools.Facts.Recorder

/-!
# What an operation of the worker does

Every operation of the worker ends in one of the ways that `Work` lists: it finds that
it has nothing new to say, or the log is sealed or full, or it records one event.  A
report that is recorded ends the interval of the report before it.  What comes before that,
and what an operation that raises has done, is an `Advance`: the store may have grown, the log
has not changed.

The results about runs of the recorder are case analyses of `Work`.
-/

namespace Ros1Tools.Facts

open Lib Lib.Faulty Lib.Python

/-- What an event says is what the tables of the recorder say was recorded last. -/
def Known (s : RecordFacts) : Fact → Prop
  | .snapshot kind source _ content _ => s.previous (.sample kind source) = some content.sha256
  | .unavailable kind source _ reason => s.previous (.unavailable kind source) = some reason
  | .producer event => ∃ latest, s.latest event.source.identity = some latest ∧
      event.sequence = latest.2.sequence ∧ event.content.sha256 = latest.2.content.sha256

/-- What only changes what was recorded last. -/
def Noted (s s' : RecordFacts) : Prop := s' = { s with previous := s'.previous }

namespace Noted

theorem refl (s : RecordFacts) : Noted s s := rfl

theorem trans {s s' s'' : RecordFacts} (h : Noted s s') (h' : Noted s' s'') : Noted s s'' := by
  unfold Noted at *
  rw [h', h]

theorem setPrevious (s : RecordFacts) (key : PreviousKey) (value : Option String) :
    Noted s (s.setPrevious key value) := rfl

theorem sameStore {s s' : RecordFacts} (h : Noted s s') : SameStore s s' := by
  unfold Noted at h
  rw [h]
  exact ⟨rfl, rfl, rfl, rfl⟩

end Noted

/-- **The ways an operation ends**, for operations whose events all meet `about`. -/
inductive Work (host : Host) (about : Fact → Prop) (s : RecordFacts) :
    Effect → RecordFacts → Prop where
  | suppressed {s₁ s' : RecordFacts} {fact : Fact} (before : Advance host s s₁)
      (concerns : about fact) (known : Known s₁ fact) (after : Noted s₁ s') :
      Work host about s .suppressed s'
  | refused {s₁ s' : RecordFacts} (before : Advance host s s₁) (isSealed : s₁.sealed = true)
      (after : Noted s₁ s') : Work host about s (.attempted .sealed) s'
  | full {s₁ s' : RecordFacts} (before : Advance host s s₁) (unsealed : s₁.sealed = false)
      (isFull : maxEvents ≤ s₁.state.events.length) (after : Noted s₁.overflow s') :
      Work host about s (.attempted .full) s'
  | sample {s₁ s' : RecordFacts} {fact : Fact} (before : Advance host s s₁)
      (unsealed : s₁.sealed = false) (room : s₁.state.events.length < maxEvents)
      (concerns : about fact) (isSample : fact.producer? = none)
      (holds : StoreSound host s → ∀ content, fact.content? = some content →
        Holds host s₁ content)
      (after : Noted (s₁.push fact) s') :
      Work host about s (.attempted (.recorded s₁.state.events.length)) s'
  | report {s₁ s' : RecordFacts} {event : ProducerEvent} (before : Advance host s s₁)
      (unsealed : s₁.sealed = false) (room : s₁.state.events.length < maxEvents)
      (concerns : about (.producer event))
      (holds : StoreSound host s → Holds host s₁ event.content)
      (follows : succession ((s₁.latest event.source.identity).map Prod.snd) event.toReport
        event.content.sha256 = .follows event.continuity)
      (isOpen : event.validity = some event.openValidity)
      (after : Noted ((s₁.push (.producer event)).succeed
        ((s₁.latest event.source.identity).map Prod.fst) event s₁.state.events.length) s') :
      Work host about s (.attempted (.recorded s₁.state.events.length)) s'

namespace Work

variable {host : Host} {about about' : Fact → Prop} {s s' s'' : RecordFacts} {effect : Effect}

theorem mono (h : Work host about s effect s') (himp : ∀ fact, about fact → about' fact) :
    Work host about' s effect s' := by
  cases h with
  | suppressed before concerns known after =>
      exact .suppressed before (himp _ concerns) known after
  | refused before isSealed after => exact .refused before isSealed after
  | full before unsealed isFull after => exact .full before unsealed isFull after
  | sample before unsealed room concerns isSample holds after =>
      exact .sample before unsealed room (himp _ concerns) isSample holds after
  | report before unsealed room concerns holds follows isOpen after =>
      exact .report before unsealed room (himp _ concerns) holds follows isOpen after

theorem of_advance (h : Advance host s s') (hwork : Work host about s' effect s'') :
    Work host about s effect s'' := by
  cases hwork with
  | suppressed before concerns known after =>
      exact .suppressed (h.trans before) concerns known after
  | refused before isSealed after => exact .refused (h.trans before) isSealed after
  | full before unsealed isFull after => exact .full (h.trans before) unsealed isFull after
  | sample before unsealed room concerns isSample holds after =>
      exact .sample (h.trans before) unsealed room concerns isSample
        (fun hs => holds (h.sound hs)) after
  | report before unsealed room concerns holds follows isOpen after =>
      exact .report (h.trans before) unsealed room concerns (fun hs => holds (h.sound hs))
        follows isOpen after

theorem noted (h : Work host about s effect s') (hafter : Noted s' s'') :
    Work host about s effect s'' := by
  cases h with
  | suppressed before concerns known after =>
      exact .suppressed before concerns known (after.trans hafter)
  | refused before isSealed after => exact .refused before isSealed (after.trans hafter)
  | full before unsealed isFull after => exact .full before unsealed isFull (after.trans hafter)
  | sample before unsealed room concerns isSample holds after =>
      exact .sample before unsealed room concerns isSample holds (after.trans hafter)
  | report before unsealed room concerns holds follows isOpen after =>
      exact .report before unsealed room concerns holds follows isOpen (after.trans hafter)

end Work

/-! ## Edits of the log -/

namespace RecordFacts

variable (s : RecordFacts) {α : Type} {view : Event → α}

/-- What an edit does not change in any event, it does not change in the log. -/
theorem map_editProducer (ordinal : Nat) {f : ProducerEvent → ProducerEvent}
    (hview : ∀ event : Event, view { event with fact := event.fact.mapProducer f } = view event) :
    (s.editProducer ordinal f).state.events.map view = s.state.events.map view := by
  refine List.ext_getElem? fun i => ?_
  simp only [editProducer, List.getElem?_map, List.getElem?_modify]
  cases s.state.events[i]? with
  | none => rfl
  | some event =>
      by_cases hi : ordinal = i
      · simpa only [Functor.map, Option.map_some, if_pos hi] using congrArg some (hview event)
      · simp only [Functor.map, Option.map_some, if_neg hi]

/-- What no edit of a report changes, recording a report does not change. -/
theorem map_succeed (previous : Option Nat) (event : ProducerEvent) (ordinal : Nat)
    (hclose : ∀ event' : Event,
      view { event' with fact := event'.fact.mapProducer event.close } = view event')
    (hwithdraw : ∀ event' : Event,
      view { event' with fact := event'.fact.mapProducer ProducerEvent.withdraw } = view event') :
    (s.succeed previous event ordinal).state.events.map view = s.state.events.map view := by
  cases previous with
  | none => exact s.map_editProducer ordinal hwithdraw
  | some latest =>
      exact ((s.editProducer latest event.close).map_editProducer ordinal hwithdraw).trans
        (s.map_editProducer latest hclose)

end RecordFacts

/-! ## The pieces of an operation -/

section Pieces

variable {host : Host} {allowed : Fate Exception → Prop} {s s₁ : RecordFacts}
  {about : Fact → Prop}

theorem wp_now :
    Wp allowed host.now
      ⟨fun _ => Advance host s, fun _ => Advance host s, Advance host s⟩ s :=
  have hsame : SameStore s { s with readings := s.readings + 1 } := ⟨rfl, rfl, rfl, rfl⟩
  Wp.modifyGet
    ⟨rfl, rfl, rfl, rfl, rfl, rfl, rfl, rfl, rfl, hsame.sound, fun _ _ => hsame.holds⟩

theorem wp_observedOrNow (observed : Option Clock) :
    Wp allowed (host.observedOrNow observed)
      ⟨fun _ => Advance host s, fun _ => Advance host s, Advance host s⟩ s := by
  cases observed with
  | some observed => exact Wp.pure (.refl s)
  | none => exact wp_now

/-- Trying to append an event: it is only left to say what recording it does. -/
theorem work_admitEvent {fact : Fact} {recorded : Nat → RecordFacts → RecordFacts}
    (before : Advance host s s₁)
    (hrecorded : s₁.sealed = false → s₁.state.events.length < maxEvents →
      Work host about s (.attempted (.recorded s₁.state.events.length))
        (recorded s₁.state.events.length (s₁.push fact))) :
    Work host about s (s₁.admitEvent fact recorded).1 (s₁.admitEvent fact recorded).2 := by
  unfold RecordFacts.admitEvent RecordFacts.append
  cases hsealed : s₁.sealed with
  | true => exact .refused before hsealed (.refl s₁)
  | false =>
      by_cases hfull : maxEvents ≤ s₁.state.events.length
      · simp only [Bool.false_eq_true, if_false, if_pos hfull]
        exact .full before hsealed hfull (.refl _)
      · simp only [Bool.false_eq_true, if_false, if_neg hfull]
        exact hrecorded hsealed (Nat.lt_of_not_le hfull)

/-- Ending an operation with an event that is not a report. -/
theorem wp_admitEvent {fact : Fact} {recorded : Nat → RecordFacts → RecordFacts}
    (before : Advance host s s₁) (concerns : about fact) (hsample : fact.producer? = none)
    (holds : StoreSound host s → ∀ content, fact.content? = some content →
      Holds host s₁ content)
    (hrecorded : ∀ ordinal s, Noted s (recorded ordinal s)) :
    Wp allowed (modifyGet (·.admitEvent fact recorded))
      ⟨Work host about s, fun _ => Advance host s, Advance host s⟩ s₁ :=
  Wp.modifyGet (work_admitEvent before fun unsealed room =>
    .sample before unsealed room concerns hsample holds (hrecorded _ _))

end Pieces

/-! ## Sequence numbers -/

section Succession

variable {previous : Option ProducerEvent} {report : Report} {sha256 : String}

theorem succession_repeated (h : succession previous report sha256 = .repeated) :
    ∃ latest, previous = some latest ∧ report.sequence = latest.sequence ∧
      sha256 = latest.content.sha256 := by
  cases previous with
  | none => cases h
  | some latest =>
      simp only [succession] at h
      split at h
      · rename_i hsame
        exact ⟨latest, rfl, hsame⟩
      · split at h
        · cases h
        · split at h
          · cases h
          · cases h

theorem succession_conflict (h : succession previous report sha256 = .conflict) :
    ∃ latest, previous = some latest ∧ report.sequence ≤ latest.sequence := by
  cases previous with
  | none => cases h
  | some latest =>
      simp only [succession] at h
      split at h
      · cases h
      · split at h
        · rename_i hle
          exact ⟨latest, rfl, hle⟩
        · split at h
          · cases h
          · cases h

end Succession

/-! ## The operations -/

/-- The events of `unavailable(kind, source, …)`. -/
def Misses (kind source : String) : Fact → Prop
  | .unavailable kind' source' _ _ => kind' = kind ∧ source' = source
  | _ => False

/-- The samples of a source. -/
def Samples (kind source : String) : Fact → Prop
  | .snapshot kind' source' _ _ _ => kind' = kind ∧ source' = source
  | _ => False

/-- The events of the report that a message carries. -/
def Host.Reports (host : Host) (payload : Value) (observed : Clock) : Fact → Prop
  | .producer event => event.observedAt = observed ∧
      ∃ data, host.readReport payload = .ok (event.toReport, data) ∧
        event.content.sha256 = host.sha256 data
  | _ => False

section Operations

variable {host : Host} {allowed : Fate Exception → Prop} {s : RecordFacts}

theorem wp_unavailable (kind source reason : String) :
    Wp allowed (host.unavailable kind source reason)
      ⟨Work host (Misses kind source) s, fun _ => Advance host s, Advance host s⟩ s := by
  refine Wp.bind (R := fun previous s' => s = s' ∧
    previous = s.previous (.unavailable kind source)) (Wp.gets ⟨rfl, rfl⟩) ?_
  rintro previous _ ⟨rfl, rfl⟩
  split
  · rename_i hprevious
    let fact : Fact := .unavailable kind source (host.clock 0) reason
    have habout : Misses kind source fact := ⟨rfl, rfl⟩
    exact Wp.pure (.suppressed (.refl s) habout hprevious (.refl s))
  · refine Wp.bind wp_now fun observedAt s₁ h₁ => ?_
    exact wp_admitEvent h₁ ⟨rfl, rfl⟩ rfl (fun _ _ h => by cases h) fun _ _ =>
      (Noted.setPrevious _ _ _).trans (.setPrevious _ _ _)

/-- What the operations have in common that store a sample. -/
theorem wp_sample {kind source validity label suffix : String} {data : Bytes}
    {clock : Recording Clock} {recorded : Nat → RecordFacts → RecordFacts}
    (hclock : ∀ s, Wp allowed clock
      ⟨fun _ => Advance host s, fun _ => Advance host s, Advance host s⟩ s)
    (hrecorded : ∀ ordinal s, Noted s (recorded ordinal s)) :
    Wp allowed
      (do
        let previous ← gets (·.previous (.sample kind source))
        if previous = some (host.sha256 data) then pure .suppressed
        else do
          let content ← host.store data label suffix
          let observedAt ← clock
          modifyGet (·.admitEvent (.snapshot kind source observedAt content validity) recorded))
      ⟨Work host (Samples kind source) s, fun _ => Advance host s, Advance host s⟩ s := by
  refine Wp.bind (R := fun previous s' => s = s' ∧
    previous = s.previous (.sample kind source)) (Wp.gets ⟨rfl, rfl⟩) ?_
  rintro previous _ ⟨rfl, rfl⟩
  split
  · rename_i hprevious
    let fact : Fact := .snapshot kind source (host.clock 0)
      ⟨"", host.sha256 data, data.length⟩ validity
    have habout : Samples kind source fact := ⟨rfl, rfl⟩
    exact Wp.pure (.suppressed (.refl s) habout hprevious (.refl s))
  · refine Wp.bind wp_store fun content s₁ h₁ => ?_
    obtain ⟨h₁, -, hholds⟩ := h₁
    refine Wp.bind ((hclock s₁).mono (fun _ _ h => h) (fun _ _ h => h₁.trans h)
      fun _ h => h₁.trans h) fun observedAt s₂ h₂ => ?_
    refine wp_admitEvent (h₁.trans h₂) ⟨rfl, rfl⟩ rfl (fun hs content' hcontent => ?_) hrecorded
    cases hcontent
    exact h₂.holds (h₁.sound hs) _ (hholds hs)

theorem wp_observation (kind source : String) (value : Value) (observed : Option Clock) :
    Wp allowed (host.observation kind source value observed)
      ⟨Work host (Samples kind source) s, fun _ => Advance host s, Advance host s⟩ s := by
  refine Wp.bind_eq (Wp.lift (fun _ _ => rfl) fun _ _ => .refl s) fun data => ?_
  exact wp_sample (fun s => wp_observedOrNow observed) fun _ _ => .setPrevious _ _ _

/-- An operation that turns exceptions into an `unavailable` event. -/
theorem wp_catching {about : Fact → Prop} {m : Recording Effect} {kind source : String}
    {handler : Exception → Recording Effect}
    (hm : Wp allowed m ⟨Work host about s, fun _ => Advance host s, Advance host s⟩ s)
    (hhandler : ∀ e, (∃ reason, handler e = host.unavailable kind source reason) ∨
      handler e = throw e) :
    Wp allowed (tryCatch m handler)
      ⟨Work host (fun fact => about fact ∨ Misses kind source fact) s,
        fun _ => Advance host s, Advance host s⟩ s := by
  refine Wp.tryCatch (hm.ret_mono fun _ _ h => h.mono fun _ => .inl) fun e s₁ h₁ => ?_
  rcases hhandler e with ⟨reason, heq⟩ | heq
  · rw [heq]
    exact (wp_unavailable kind source reason).mono
      (fun _ _ h => (h.mono fun _ => .inr).of_advance h₁) (fun _ _ h => h₁.trans h)
      fun _ h => h₁.trans h
  · rw [heq]
    exact Wp.throw h₁

theorem wp_file (declaration : Declaration) (kind : String)
    (opened : Except Exception OpenedFile) :
    Wp allowed (host.file declaration kind opened)
      ⟨Work host (fun fact => Samples kind declaration.role fact ∨
          Misses kind declaration.role fact) s, fun _ => Advance host s, Advance host s⟩ s := by
  refine wp_catching ?_ fun e => ?_
  · refine Wp.bind_eq (Wp.lift (fun _ _ => rfl) fun _ _ => .refl s) fun data => ?_
    exact wp_sample (fun s => wp_now) fun _ _ =>
      (Noted.setPrevious _ _ _).trans (.setPrevious _ _ _)
  · cases e.kind with
    | valueError => exact .inl ⟨_, rfl⟩
    | osError => exact .inl ⟨_, rfl⟩
    | typeError => exact .inr rfl
    | keyError => exact .inr rfl
    | recursionError => exact .inr rfl
    | other => exact .inr rfl

theorem wp_parameter (name : String) (answer : Except Exception (Int × Value)) :
    Wp allowed (host.parameter name answer)
      ⟨Work host (fun fact => (Samples "parameter" name fact ∨ Misses "parameter" name fact) ∨
          Misses "parameter" name fact) s, fun _ => Advance host s, Advance host s⟩ s := by
  refine wp_catching ?_ fun e => .inl ⟨_, rfl⟩
  refine Wp.bind (R := fun _ s' => s = s') (Wp.lift (fun _ _ => rfl) fun _ _ => .refl s) ?_
  rintro ⟨code, value⟩ _ rfl
  dsimp only
  split
  · exact (wp_unavailable _ _ _).ret_mono fun _ _ h => h.mono fun _ => .inr
  · refine Wp.bind (wp_observation _ _ _ _) fun effect s₁ h₁ => ?_
    refine Wp.bind (R := fun _ s' => Work host (Samples "parameter" name) s effect s')
      (Wp.modify (h₁.noted (.setPrevious _ _ _))) fun _ s₂ h₂ => ?_
    exact Wp.pure (h₂.mono fun _ => .inl)

theorem wp_producer (payload : Value) (observed : Clock) :
    Wp allowed (host.producer payload observed)
      ⟨Work host (host.Reports payload observed) s, fun _ => Advance host s, Advance host s⟩
      s := by
  refine Wp.bind (R := fun report s' => s = s' ∧ host.readReport payload = .ok report)
    (Wp.lift (fun _ h => ⟨rfl, h⟩) fun _ _ => .refl s) ?_
  rintro ⟨report, data⟩ _ ⟨rfl, hread⟩
  refine Wp.bind wp_store fun content s₁ h₁ => ?_
  obtain ⟨h₁, hsha, hholds⟩ := h₁
  refine Wp.bind (R := fun previous s' => s₁ = s' ∧
    previous = s₁.latest report.source.identity) (Wp.gets ⟨rfl, rfl⟩) ?_
  rintro previous _ ⟨rfl, rfl⟩
  have habout : ∀ continuity, host.Reports payload observed (.producer
      ⟨report, observed, content, continuity, some report.openValidity⟩) :=
    fun _ => ⟨rfl, data, hread, hsha⟩
  split
  · rename_i hrepeated
    refine Wp.pure (.suppressed h₁ (habout .firstObserved) ?_ (.refl s₁))
    obtain ⟨latest, hlatest, hsame⟩ := succession_repeated hrepeated
    obtain ⟨pointed, hpointed, rfl⟩ := Option.map_eq_some_iff.mp hlatest
    exact ⟨pointed, hpointed, hsame⟩
  · exact Wp.throw h₁
  · rename_i continuity hfollows
    exact Wp.modifyGet (work_admitEvent h₁ fun unsealed room =>
      .report h₁ unsealed room (habout continuity) hholds hfollows rfl (.refl _))

/-- The events that a message may lead to: its own, or that there is none. -/
def Host.About (host : Host) (message : Message) (fact : Fact) : Prop :=
  (host.Reports message.payload message.observed fact ∧ message.kind = "producer" ∨
    Samples message.kind message.source fact) ∨ Misses "observer" message.source fact

theorem wp_dispatch (message : Message) :
    Wp allowed (host.dispatch message)
      ⟨Work host (host.About message) s, fun _ => Advance host s, Advance host s⟩ s := by
  unfold Host.dispatch
  split
  · rename_i hkind
    exact (wp_producer _ _).ret_mono fun _ _ h => h.mono fun _ hfact => .inl (.inl ⟨hfact, hkind⟩)
  · split
    · exact (wp_unavailable _ _ _).ret_mono fun _ _ h => h.mono fun _ => .inr
    · exact (wp_observation _ _ _ _).ret_mono fun _ _ h =>
        h.mono fun _ hfact => .inl (.inr hfact)

theorem wp_processMessage (message : Message) :
    Wp allowed (host.processMessage message)
      ⟨Work host (host.About message) s, fun _ => Advance host s, Advance host s⟩ s := by
  have hhandler : ∀ e, (∃ reason,
      (if isListed e then host.unavailable "observer" message.source (failureReason e)
        else throw e) = host.unavailable "observer" message.source reason) ∨
      (if isListed e then host.unavailable "observer" message.source (failureReason e)
        else throw e : Recording Effect) = throw e := by
    intro e
    cases isListed e with
    | true => exact .inl ⟨_, rfl⟩
    | false => exact .inr rfl
  refine (wp_catching (wp_dispatch message) hhandler).ret_mono fun _ _ h =>
    h.mono fun _ hfact => ?_
  rcases hfact with hfact | hfact
  · exact hfact
  · exact .inr hfact

end Operations

end Ros1Tools.Facts
