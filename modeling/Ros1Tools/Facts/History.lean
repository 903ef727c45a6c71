import Ros1Tools.Lib.Collapse
import Ros1Tools.Facts.Delivery

/-!
# What the log says about a source

A look at a source comes to its bytes, or to a reason why there are none.  The first is
filed in the log under the kind and the name of the source, the second too, but not always
under the same kind; a `Watch` says under which.  The recorder remembers under two keys what
it filed last, and appends only what is not remembered.

`Spares` is what every operation does to the watches it is not about: nothing.
-/

namespace Ros1Tools.Facts

open Lib Lib.Faulty Lib.Python

/-- What a look at a source comes to. -/
inductive Sighting where
  | content (data : Bytes)
  | absent (reason : String)
deriving DecidableEq, Repr

/-- What the log says about it: bytes are told by their digest. -/
inductive Entry where
  | content (sha256 : String)
  | absent (reason : String)
deriving DecidableEq, Repr

def Host.entry (host : Host) : Sighting → Entry
  | .content data => .content (host.sha256 data)
  | .absent reason => .absent reason

/-- Digests that tell the outcomes apart do not matter for which of them are collapsed. -/
theorem Host.destutter_entry (host : Host) {seen : List Sighting}
    (hdistinct : ∀ a ∈ seen, ∀ b ∈ seen, host.entry a = host.entry b → a = b) :
    (seen.destutter (· ≠ ·)).map host.entry = (seen.map host.entry).destutter (· ≠ ·) :=
  List.map_destutter fun a ha b hb => not_congr ⟨congrArg host.entry, hdistinct a ha b hb⟩

/-- Where the two outcomes of a look at a source are filed. -/
structure Watch where
  kind : String
  missKind : String
  source : String
deriving DecidableEq, Repr

namespace Watch

variable (watch : Watch)

/-- What an event says about the source. -/
def entry? : Fact → Option Entry
  | .snapshot kind source _ content _ =>
      if kind = watch.kind ∧ source = watch.source then some (.content content.sha256) else none
  | .unavailable kind source _ reason =>
      if kind = watch.missKind ∧ source = watch.source then some (.absent reason) else none
  | .producer _ => none

/-- The key of the latest sample. -/
def sampleKey : PreviousKey := .sample watch.kind watch.source

/-- The key of the latest reason. -/
def missKey : PreviousKey := .unavailable watch.missKind watch.source

/-- What the log says about the source, in order. -/
def history (s : RecordFacts) : List Entry :=
  s.state.events.filterMap fun event => watch.entry? event.fact

/-- What is remembered of the source. -/
def memory (s : RecordFacts) : Option String × Option String :=
  (s.previous watch.sampleKey, s.previous watch.missKey)

end Watch

/-! ## Nothing happens to a source -/

/-- Nothing is filed about a source, and nothing is forgotten. -/
structure Spares (watch : Watch) (s s' : RecordFacts) : Prop where
  history : watch.history s' = watch.history s
  memory : watch.memory s' = watch.memory s

section Spares

variable {watch : Watch} {s s' s'' : RecordFacts}

theorem Spares.refl (s : RecordFacts) : Spares watch s s := ⟨rfl, rfl⟩

theorem Spares.trans (h : Spares watch s s') (h' : Spares watch s' s'') : Spares watch s s'' :=
  ⟨h'.history.trans h.history, h'.memory.trans h.memory⟩

/-- What changes neither the events nor what is remembered. -/
theorem Spares.of_eq (hevents : s'.state.events = s.state.events)
    (hprevious : s'.previous = s.previous) : Spares watch s s' where
  history := by rw [Watch.history, Watch.history, hevents]
  memory := by rw [Watch.memory, Watch.memory, hprevious]

theorem Advance.spares {host : Host} (h : Advance host s s') : Spares watch s s' :=
  .of_eq (by rw [h.state]) h.previous

theorem Spares.push {fact : Fact} (h : watch.entry? fact = none) :
    Spares watch s (s.push fact) where
  history := by
    rw [Watch.history, RecordFacts.push, List.filterMap_append]
    simp [h, Watch.history]
  memory := rfl

theorem Spares.setPrevious {key : PreviousKey} {value : Option String}
    (hsample : key ≠ watch.sampleKey) (hmiss : key ≠ watch.missKey) :
    Spares watch s (s.setPrevious key value) where
  history := rfl
  memory := by
    simp only [Watch.memory, RecordFacts.setPrevious, Function.update_of_ne hsample.symm,
      Function.update_of_ne hmiss.symm]

/-- Reports are not about any source. -/
theorem Spares.succeed (previous : Option Nat) (event : ProducerEvent) (ordinal : Nat) :
    Spares watch s (s.succeed previous event ordinal) where
  history := by
    have hview : ∀ (f : ProducerEvent → ProducerEvent) (event : Event),
        watch.entry? (event.fact.mapProducer f) = watch.entry? event.fact := by
      intro f event
      cases event.fact with
      | snapshot kind source observedAt content validity => rfl
      | unavailable kind source observedAt reason => rfl
      | producer report => rfl
    have hmap : (s.succeed previous event ordinal).state.events.map
        (fun event => watch.entry? event.fact) =
          s.state.events.map fun event => watch.entry? event.fact :=
      s.map_succeed previous event ordinal (hview event.close) (hview ProducerEvent.withdraw)
    have hfilter := congrArg (List.filterMap id) hmap
    rw [List.filterMap_map, List.filterMap_map] at hfilter
    exact hfilter
  memory := by
    cases previous with
    | none => rfl
    | some latest => rfl

end Spares

/-! ## Operations about other sources -/

namespace Poll

/-- What is looked at. -/
def kind : Poll → String
  | file _ kind _ => kind
  | parameter _ _ => "parameter"

def source : Poll → String
  | file declaration _ _ => declaration.role
  | parameter name _ => name

end Poll

/-- What is filed under a kind and a name is not about the source. -/
def Watch.Ignores (watch : Watch) (kind source : String) : Prop :=
  source ≠ watch.source ∨ kind ≠ watch.kind ∧ kind ≠ watch.missKind

section Ignores

variable {watch : Watch} {host : Host} {allowed : Fate Exception → Prop}
  {s s₁ : RecordFacts} {kind source : String}

theorem Watch.Ignores.snapshot (h : watch.Ignores kind source) (observedAt : Clock)
    (content : Content) (validity : String) :
    watch.entry? (.snapshot kind source observedAt content validity) = none :=
  if_neg fun heq => h.elim (absurd heq.2) fun h => h.1 heq.1

theorem Watch.Ignores.unavailable (h : watch.Ignores kind source) (observedAt : Clock)
    (reason : String) : watch.entry? (.unavailable kind source observedAt reason) = none :=
  if_neg fun heq => h.elim (absurd heq.2) fun h => h.2 heq.1

theorem Watch.Ignores.setSample (h : watch.Ignores kind source) (value : Option String) :
    Spares watch s (s.setPrevious (.sample kind source) value) := by
  refine .setPrevious (fun heq => ?_) nofun
  injection heq with hkind hsource
  exact h.elim (absurd hsource) fun h => h.1 hkind

theorem Watch.Ignores.setMiss (h : watch.Ignores kind source) (value : Option String) :
    Spares watch s (s.setPrevious (.unavailable kind source) value) := by
  refine .setPrevious nofun fun heq => ?_
  injection heq with hkind hsource
  exact h.elim (absurd hsource) fun h => h.2 hkind

theorem wp_spares_of_advance {α : Type} {m : Recording α} (h : Spares watch s s₁)
    (hm : Wp allowed m ⟨fun _ => Advance host s₁, fun _ => Advance host s₁, Advance host s₁⟩ s₁) :
    Wp allowed m (Everywhere (Spares watch s)) s₁ :=
  hm.mono (fun _ _ h₁ => h.trans h₁.spares) (fun _ _ h₁ => h.trans h₁.spares)
    fun _ h₁ => h.trans h₁.spares

theorem wp_spares_admitEvent {fact : Fact} {recorded : Nat → RecordFacts → RecordFacts}
    (h : Spares watch s s₁) (hfact : watch.entry? fact = none)
    (hrecorded : ∀ ordinal s, Spares watch s (recorded ordinal s)) :
    Wp allowed (modifyGet (·.admitEvent fact recorded)) (Everywhere (Spares watch s)) s₁ := by
  refine Wp.modifyGet ?_
  unfold RecordFacts.admitEvent RecordFacts.append
  cases s₁.sealed with
  | true => exact h
  | false =>
      by_cases hfull : maxEvents ≤ s₁.state.events.length
      · simp only [Bool.false_eq_true, if_false, if_pos hfull]
        exact h.trans (.of_eq rfl rfl)
      · simp only [Bool.false_eq_true, if_false, if_neg hfull]
        exact (h.trans (.push hfact)).trans (hrecorded _ _)

theorem wp_spares_unavailable (h : Spares watch s s₁) (hignores : watch.Ignores kind source)
    (reason : String) :
    Wp allowed (host.unavailable kind source reason) (Everywhere (Spares watch s)) s₁ := by
  refine Wp.bind (R := fun _ => Spares watch s) (Wp.gets h) fun previous s₂ h₂ => ?_
  split
  · exact Wp.pure h₂
  · refine Wp.bind (wp_spares_of_advance h₂ wp_now) fun observedAt s₃ h₃ => ?_
    exact wp_spares_admitEvent h₃ (hignores.unavailable _ _) fun _ _ =>
      (hignores.setMiss _).trans (hignores.setSample _)

theorem wp_spares_store (h : Spares watch s s₁) (data : Bytes) (label suffix : String) :
    Wp allowed (host.store data label suffix) (Everywhere (Spares watch s)) s₁ :=
  wp_spares_of_advance h (wp_store.ret_mono fun _ _ h => h.1)

theorem wp_spares_observation (h : Spares watch s s₁) (hignores : watch.Ignores kind source)
    (value : Value) (observed : Option Clock) :
    Wp allowed (host.observation kind source value observed) (Everywhere (Spares watch s)) s₁ := by
  refine Wp.bind (R := fun _ => Spares watch s) (Wp.lift (fun _ _ => h) fun _ _ => h)
    fun data s₂ h₂ => ?_
  refine Wp.bind (R := fun _ => Spares watch s) (Wp.gets h₂) fun previous s₃ h₃ => ?_
  split
  · exact Wp.pure h₃
  · refine Wp.bind (wp_spares_store h₃ _ _ _) fun content s₄ h₄ => ?_
    refine Wp.bind (wp_spares_of_advance h₄ (wp_observedOrNow observed)) fun _ s₅ h₅ => ?_
    exact wp_spares_admitEvent h₅ (hignores.snapshot _ _ _) fun _ _ => hignores.setSample _

theorem wp_spares_file (h : Spares watch s s₁) {declaration : Declaration}
    (hignores : watch.Ignores kind declaration.role)
    (opened : Except Exception OpenedFile) :
    Wp allowed (host.file declaration kind opened) (Everywhere (Spares watch s)) s₁ := by
  refine Wp.tryCatch (F := fun _ => Spares watch s) ?_ fun e s₂ h₂ => ?_
  · refine Wp.bind (R := fun _ => Spares watch s) (Wp.lift (fun _ _ => h) fun _ _ => h)
      fun data s₂ h₂ => ?_
    refine Wp.bind (R := fun _ => Spares watch s) (Wp.gets h₂) fun previous s₃ h₃ => ?_
    split
    · exact Wp.pure h₃
    · refine Wp.bind (wp_spares_store h₃ _ _ _) fun content s₄ h₄ => ?_
      refine Wp.bind (wp_spares_of_advance h₄ wp_now) fun _ s₅ h₅ => ?_
      exact wp_spares_admitEvent h₅ (hignores.snapshot _ _ _) fun _ _ =>
        (hignores.setSample _).trans (hignores.setMiss _)
  · split
    · exact wp_spares_unavailable h₂ hignores _
    · exact wp_spares_unavailable h₂ hignores _
    · exact Wp.throw h₂

theorem wp_spares_parameter (h : Spares watch s s₁) {name : String}
    (hignores : watch.Ignores "parameter" name)
    (answer : Except Exception (Int × Value)) :
    Wp allowed (host.parameter name answer) (Everywhere (Spares watch s)) s₁ := by
  refine Wp.tryCatch (F := fun _ => Spares watch s) ?_ fun e s₂ h₂ =>
    wp_spares_unavailable h₂ hignores _
  refine Wp.bind (R := fun _ => Spares watch s) (Wp.lift (fun _ _ => h) fun _ _ => h)
    fun data s₂ h₂ => ?_
  dsimp only
  split
  · exact wp_spares_unavailable h₂ hignores _
  · refine Wp.bind (wp_spares_observation h₂ hignores _ _) fun effect s₃ h₃ => ?_
    exact Wp.bind (R := fun _ => Spares watch s) (Wp.modify (h₃.trans (hignores.setMiss _)))
      fun _ s₄ h₄ => Wp.pure h₄

theorem wp_spares_producer (h : Spares watch s s₁) (payload : Value) (observed : Clock) :
    Wp allowed (host.producer payload observed) (Everywhere (Spares watch s)) s₁ := by
  refine Wp.bind (R := fun _ => Spares watch s) (Wp.lift (fun _ _ => h) fun _ _ => h)
    fun report s₂ h₂ => ?_
  refine Wp.bind (wp_spares_store h₂ _ _ _) fun content s₃ h₃ => ?_
  refine Wp.bind (R := fun _ => Spares watch s) (Wp.gets h₃) fun previous s₄ h₄ => ?_
  split
  · exact Wp.pure h₄
  · exact Wp.throw h₄
  · exact wp_spares_admitEvent h₄ rfl fun _ _ => .succeed _ _ _

theorem wp_spares_poll (h : Spares watch s s₁) {poll : Poll}
    (hignores : watch.Ignores poll.kind poll.source)
    (hobserver : watch.Ignores "observer" "snapshot-poll") :
    Wp allowed (host.poll poll) (Everywhere (Spares watch s)) s₁ := by
  refine Wp.tryCatch (F := fun _ => Spares watch s) ?_ fun e s₂ h₂ =>
    wp_spares_unavailable h₂ hobserver _
  cases poll with
  | file declaration kind opened => exact wp_spares_file h hignores opened
  | parameter name answer => exact wp_spares_parameter h hignores answer

theorem wp_spares_processMessage (h : Spares watch s s₁) {message : Message}
    (hignores : watch.Ignores message.kind message.source)
    (hobserver : watch.Ignores "observer" message.source) :
    Wp allowed (host.processMessage message) (Everywhere (Spares watch s)) s₁ := by
  refine Wp.tryCatch (F := fun _ => Spares watch s) ?_ fun e s₂ h₂ => ?_
  · unfold Host.dispatch
    split
    · exact wp_spares_producer h _ _
    · split
      · exact wp_spares_unavailable h hobserver _
      · exact wp_spares_observation h hignores _ _
  · split
    · exact wp_spares_unavailable h₂ hobserver _
    · exact Wp.throw h₂

end Ignores

/-! ## A look at a source -/

/-- The log takes a further event. -/
def RecordFacts.Open (s : RecordFacts) : Prop :=
  s.sealed = false ∧ s.state.events.length < maxEvents

instance RecordFacts.Open.instDecidable (s : RecordFacts) : Decidable s.Open :=
  inferInstanceAs (Decidable (_ ∧ _))

/-- The part of a look that may fail: the source is read, and what is not its latest sample
already is stored. -/
def Host.acquire (host : Host) (kind source label suffix : String)
    (read : Except Exception Bytes) :
    Recording (Bytes × Option Content) := do
  let data ← lift read
  let previous ← gets (·.previous (.sample kind source))
  if previous = some (host.sha256 data) then pure (data, none)
  else do
    let content ← host.store data label suffix
    pure (data, some content)

/-- What becomes of it: nothing, or a snapshot in the log. -/
def enter (kind source validity : String) (clock : Recording Clock)
    (recorded : Bytes → RecordFacts → RecordFacts) : Bytes × Option Content → Recording Effect
  | (_, none) => pure .suppressed
  | (data, some content) => do
      let observedAt ← clock
      modifyGet (·.admitEvent (.snapshot kind source observedAt content validity)
        fun _ => recorded data)

section Look

variable {host : Host} {allowed : Fate Exception → Prop} {s s₁ : RecordFacts}
  {kind source label suffix : String} {fates rest : Fates Exception}
  {read : Except Exception Bytes}

theorem wp_acquire :
    Wp allowed (host.acquire kind source label suffix read)
      ⟨fun x s' => Advance host s s' ∧
          (s.previous (.sample kind source) = some (host.sha256 x.1) ∧ x.2 = none ∨
            s.previous (.sample kind source) ≠ some (host.sha256 x.1) ∧
              ∃ content, x.2 = some content ∧ content.sha256 = host.sha256 x.1),
        fun _ => Advance host s, Advance host s⟩ s := by
  refine Wp.bind_eq (Wp.lift (fun _ _ => rfl) fun _ _ => .refl s) fun data => ?_
  refine Wp.bind (R := fun previous s' => s = s' ∧
    previous = s.previous (.sample kind source)) (Wp.gets ⟨rfl, rfl⟩) ?_
  rintro previous _ ⟨rfl, rfl⟩
  split
  · rename_i hprevious
    exact Wp.pure ⟨.refl s, .inl ⟨hprevious, rfl⟩⟩
  · rename_i hprevious
    exact Wp.bind wp_store fun content s₁ h₁ =>
      Wp.pure ⟨h₁.1, .inr ⟨hprevious, content, rfl, h₁.2.1⟩⟩

/-- The samples of a source are taken in these two parts. -/
theorem acquire_bind_enter (host : Host) (kind source label suffix validity : String)
    (read : Except Exception Bytes) (clock : Recording Clock)
    (recorded : Bytes → RecordFacts → RecordFacts) :
    (do
      let data ← lift read
      let previous ← gets (·.previous (.sample kind source))
      if previous = some (host.sha256 data) then pure .suppressed
      else do
        let content ← host.store data label suffix
        let observedAt ← clock
        modifyGet (·.admitEvent (.snapshot kind source observedAt content validity)
          fun _ => recorded data)) =
      host.acquire kind source label suffix read >>=
        enter kind source validity clock recorded := by
  funext s fates
  cases read with
  | error e => rfl
  | ok data =>
      by_cases hprevious : s.previous (.sample kind source) = some (host.sha256 data)
      · simp [Host.acquire, bind_apply, lift, Faulty.pure, hprevious, enter]
      · simp only [Host.acquire, bind_apply, lift, Faulty.pure, gets_apply, hprevious, if_false]
        cases host.store data label suffix s fates with
        | done content s₁ rest => rfl
        | raised e s₁ rest => rfl
        | crashed s₁ => rfl

theorem RecordFacts.admitEvent_of_open (hopen : s.Open) (fact : Fact)
    (recorded : Nat → RecordFacts → RecordFacts) :
    s.admitEvent fact recorded =
      (.attempted (.recorded s.state.events.length),
        recorded s.state.events.length (s.push fact)) := by
  simp only [admitEvent, append, hopen.1, Bool.false_eq_true, if_false,
    if_neg (Nat.not_le.mpr hopen.2)]

theorem Advance.isOpen (h : Advance host s s₁) (hopen : s.Open) : s₁.Open := by
  unfold RecordFacts.Open
  rw [h.sealed, h.state]
  exact hopen

/-- A clock that is read without a step. -/
def Prompt (host : Host) (clock : Recording Clock) : Prop :=
  ∀ s fates, ∃ observedAt s', clock s fates = .done observedAt s' fates ∧ Advance host s s'

theorem prompt_now (host : Host) : Prompt host host.now :=
  fun s fates =>
    have hnow : Wp (fun _ => True) host.now
        ⟨fun _ => Advance host s, fun _ => Advance host s, Advance host s⟩ s := wp_now
    ⟨_, _, rfl, hnow.of_done (show host.now s fates = _ from rfl)⟩

theorem prompt_observedOrNow (host : Host) (observed : Option Clock) :
    Prompt host (host.observedOrNow observed) := by
  cases observed with
  | some observed => exact fun s _ => ⟨observed, s, rfl, .refl s⟩
  | none => exact prompt_now host

end Look

/-! ## What is filed -/

section Filed

variable {watch : Watch} {host : Host} {s s₁ : RecordFacts}
  {fates rest : Fates Exception}

theorem Watch.history_push (watch : Watch) (s : RecordFacts) (fact : Fact) :
    watch.history (s.push fact) = watch.history s ++ (watch.entry? fact).toList := by
  rw [history, RecordFacts.push, List.filterMap_append]
  cases hentry : watch.entry? fact with
  | none => simp [hentry, history]
  | some entry => simp [hentry, history]

/-- **A reason** is filed unless it is remembered. -/
theorem unavailable_files (watch : Watch) (host : Host) (hopen : s.Open) (reason : String)
    (fates : Fates Exception) :
    ∃ effect s', host.unavailable watch.missKind watch.source reason s fates =
        .done effect s' fates ∧
      (s.previous watch.missKey = some reason ∧ s' = s ∨
        s.previous watch.missKey ≠ some reason ∧
          watch.history s' = watch.history s ++ [.absent reason] ∧
          s'.previous = Function.update (Function.update s.previous watch.missKey (some reason))
            (.sample watch.missKind watch.source) none) := by
  by_cases hprevious : s.previous watch.missKey = some reason
  · refine ⟨.suppressed, s, ?_, .inl ⟨hprevious, rfl⟩⟩
    have hmiss : s.previous (.unavailable watch.missKind watch.source) = some reason := hprevious
    simp [Host.unavailable, bind_apply, hmiss]
  · obtain ⟨observedAt, s₁, hnow, hadvance⟩ := prompt_now host s fates
    have hmiss : s.previous (.unavailable watch.missKind watch.source) ≠ some reason := hprevious
    have hopen₁ : s₁.Open := hadvance.isOpen hopen
    have heq : host.unavailable watch.missKind watch.source reason s fates =
        .done (.attempted (.recorded s₁.state.events.length))
          (((s₁.push (.unavailable watch.missKind watch.source observedAt reason)).setPrevious
            watch.missKey (some reason)).setPrevious (.sample watch.missKind watch.source) none)
          fates := by
      simp only [Host.unavailable, bind_apply, gets_apply, hmiss, if_false, hnow,
        modifyGet_apply, s₁.admitEvent_of_open hopen₁]
      rfl
    refine ⟨_, _, heq, .inr ⟨hprevious, ?_, ?_⟩⟩
    · have hentry : watch.entry? (.unavailable watch.missKind watch.source observedAt reason) =
          some (.absent reason) := if_pos ⟨rfl, rfl⟩
      change watch.history (s₁.push _) = _
      rw [watch.history_push, hentry, hadvance.spares.history]
      rfl
    · rw [← hadvance.previous]
      rfl

/-- **A sample** is filed unless it is remembered. -/
theorem enter_files (watch : Watch) {label suffix : String} {read : Except Exception Bytes}
    {x : Bytes × Option Content}
    (hacquire : host.acquire watch.kind watch.source label suffix read s fates =
      .done x s₁ rest) (hopen : s.Open) {clock : Recording Clock} (hclock : Prompt host clock)
    (validity : String) (recorded : Bytes → RecordFacts → RecordFacts)
    (hrecorded : ∀ data s, watch.history (recorded data s) = watch.history s) :
    ∃ effect s', enter watch.kind watch.source validity clock recorded x s₁ rest =
        .done effect s' rest ∧
      (s.previous watch.sampleKey = some (host.sha256 x.1) ∧ Advance host s s' ∨
        s.previous watch.sampleKey ≠ some (host.sha256 x.1) ∧
          watch.history s' = watch.history s ++ [.content (host.sha256 x.1)] ∧
          ∃ s₂, s₂.previous = s.previous ∧ s' = recorded x.1 s₂) := by
  obtain ⟨data, content?⟩ := x
  obtain ⟨hadvance, ⟨hprevious, rfl⟩ | ⟨hprevious, content, rfl, hsha⟩⟩ :=
    wp_acquire.of_done hacquire
  · exact ⟨.suppressed, s₁, rfl, .inl ⟨hprevious, hadvance⟩⟩
  · obtain ⟨observedAt, s₂, hnow, hadvance₂⟩ := hclock s₁ rest
    have hadvance₂ := hadvance.trans hadvance₂
    have hopen₂ : s₂.Open := hadvance₂.isOpen hopen
    let fact : Fact := .snapshot watch.kind watch.source observedAt content validity
    have heq : enter watch.kind watch.source validity clock recorded (data, some content) s₁ rest =
        .done (.attempted (.recorded s₂.state.events.length)) (recorded data (s₂.push fact))
          rest := by
      simp only [enter, bind_apply, hnow, modifyGet_apply, s₂.admitEvent_of_open hopen₂, fact]
    refine ⟨_, _, heq, .inr ⟨hprevious, ?_, s₂.push fact, hadvance₂.previous, rfl⟩⟩
    have hentry : watch.entry? fact = some (.content content.sha256) := if_pos ⟨rfl, rfl⟩
    rw [hrecorded, watch.history_push, hentry, hadvance₂.spares.history, hsha]
    rfl

end Filed

/-! ## What the threads do to a source -/

/-- `RecordFacts.TOPIC`. -/
def factTopic : String := "/xgc/record_facts"

/-- The messages that `ros` sends. -/
def Message.isSent (message : Message) : Bool :=
  message.kind == "producer" && message.source == factTopic ||
    message.kind == "camera-info" && endsWith message.source "/camera_info" ||
    (message.kind == "observer" || message.kind == "unavailable") &&
      message.source == "ros-subscriptions"

/-- The kinds of what `poll` looks at. -/
def polledKinds : List String := ["calibration-file", "algorithm-file", "parameter"]

/-- What arrives is what `ros` sends, and what is looked at is what `poll` looks at. -/
def Action.isGenuine : Action → Bool
  | .receive message => message.isSent
  | .poll look _ => polledKinds.contains look.kind
  | _ => true

/-- The log takes a further event, and nothing strange happens. -/
def System.Undisturbed (s : System) (action : Action) : Prop :=
  s.facts.Open ∧ action.isGenuine = true

instance System.Undisturbed.instDecidable (s : System) (action : Action) :
    Decidable (s.Undisturbed action) :=
  inferInstanceAs (Decidable (_ ∧ _))

/-- Every message on its way was sent. -/
structure AllSent (s : System) : Prop where
  queue : ∀ message ∈ s.facts.messages, message.isSent = true
  reader : ∀ message, s.reader = .checked message → message.isSent = true
  worker : ∀ message budget final, s.worker = .holding message budget final →
    message.isSent = true

section Threads

variable {host : Host} {s : System}

theorem allSent_start (facts : RecordFacts) (h : facts.messages = []) :
    AllSent (System.start facts) where
  queue message hmessage := by
    rw [System.start, h] at hmessage
    cases hmessage
  reader _ := nofun
  worker _ _ _ := nofun

/-- A step of the worker, or of the main thread, that leaves the queue alone. -/
theorem AllSent.of_messages {s' : System} (h : AllSent s)
    (hmessages : s'.facts.messages = s.facts.messages) (hreader : s'.reader = s.reader)
    (hworker : s'.worker = s.worker ∨
      ∀ message budget final, s'.worker ≠ .holding message budget final) : AllSent s' where
  queue := by rw [hmessages]; exact h.queue
  reader := by rw [hreader]; exact h.reader
  worker message budget final heq := by
    rcases hworker with hworker | hworker
    · exact h.worker message budget final (hworker.symm.trans heq)
    · exact absurd heq (hworker message budget final)

theorem AllSent.receive (h : AllSent s) {message : Message} (hsent : message.isSent = true) :
    AllSent (s.receive message) := by
  unfold System.receive
  split
  · split
    · exact h
    · exact ⟨h.queue, fun _ heq => by cases heq; exact hsent, h.worker⟩
  · exact h

theorem AllSent.put (h : AllSent s) : AllSent s.put := by
  unfold System.put
  split
  · rename_i message hreader
    split
    · refine ⟨fun message' hmem => ?_, nofun, h.worker⟩
      rcases List.mem_append.mp hmem with hmem | hmem
      · exact h.queue message' hmem
      · rw [List.mem_singleton.mp hmem]
        exact h.reader message hreader
    · exact ⟨h.queue, nofun, h.worker⟩
  · exact h

theorem System.passed_ne_holding (final : Bool) (message : Message) (budget : Nat)
    (final' : Bool) : System.passed final ≠ .holding message budget final' := by
  cases final with
  | true => nofun
  | false => nofun

theorem AllSent.take (h : AllSent s) : AllSent s.take := by
  unfold System.take
  split
  · exact h.of_messages rfl rfl (.inr (System.passed_ne_holding _))
  · split
    · exact h.of_messages rfl rfl (.inr (System.passed_ne_holding _))
    · rename_i message rest hmessages
      have hqueue := h.queue
      rw [hmessages] at hqueue
      refine ⟨fun message' hmem => hqueue message' (.tail _ hmem), h.reader, ?_⟩
      rintro message' budget final heq
      cases heq
      exact hqueue message (.head _)
  · exact h

theorem AllSent.process (h : AllSent s) (fates : Fates Exception) :
    AllSent (s.process host fates) := by
  unfold System.process
  split
  · rename_i message budget final hworker
    split
    · rename_i effect facts rest hdone
      have hwork := (wp_processMessage message).of_done hdone
      exact h.of_messages hwork.accounts.messages rfl (.inr nofun)
    · rename_i e facts rest hraised
      have hadvance := (wp_processMessage message).of_raised hraised
      exact h.of_messages hadvance.messages rfl (.inr nofun)
    · exact h
  · exact h

theorem AllSent.poll (h : AllSent s) (poll : Poll) (fates : Fates Exception) :
    AllSent (s.poll host poll fates) := by
  unfold System.poll
  split
  · split
    · rename_i effect facts rest hdone
      have hwork := (wp_poll poll).of_done hdone
      exact h.of_messages hwork.accounts.messages rfl (.inl rfl)
    · rename_i e facts rest hraised
      have hadvance := (wp_poll poll).of_raised hraised
      exact h.of_messages hadvance.messages rfl (.inr nofun)
    · exact h
  · exact h

theorem RecordFacts.messages_snapshot (facts : RecordFacts) (document : Option State) :
    (facts.snapshot document).2.1.messages = facts.messages := by
  unfold snapshot
  split
  · rfl
  · rfl

theorem AllSent.step (h : AllSent s) {action : Action} (haction : action.isGenuine = true) :
    AllSent (s.step host action) := by
  cases action with
  | receive message => exact h.receive haction
  | put => exact h.put
  | overflow =>
      change AllSent s.overflow
      unfold System.overflow
      split
      · exact ⟨h.queue, nofun, h.worker⟩
      · exact h
  | endOfStream =>
      change AllSent s.endOfStream
      unfold System.endOfStream
      split
      · exact ⟨h.queue, nofun, h.worker⟩
      · exact h
  | enterPass =>
      change AllSent s.enterPass
      unfold System.enterPass
      split
      · exact h.of_messages rfl rfl (.inr nofun)
      · exact h
  | take => exact h.take
  | process fates => exact h.process fates
  | poll poll fates => exact h.poll poll fates
  | endPoll =>
      change AllSent s.endPoll
      unfold System.endPoll
      split
      · exact h.of_messages rfl rfl (.inr nofun)
      · exact h
  | close =>
      change AllSent s.close
      unfold System.close
      split
      · exact h.of_messages rfl rfl (.inl rfl)
      · exact h
  | sealLog endedAt stillAlive =>
      change AllSent (s.sealLog endedAt stillAlive)
      unfold System.sealLog
      split
      · exact h.of_messages rfl rfl (.inl rfl)
      · exact h
  | snapshot =>
      change AllSent s.snapshot
      unfold System.snapshot
      split
      · exact h.of_messages (s.facts.messages_snapshot _) rfl (.inl rfl)
      · exact h.of_messages (s.facts.messages_snapshot _) rfl (.inl rfl)
      · exact h

/-- A message that is not about the source. -/
theorem spares_process {watch : Watch} (fates : Fates Exception)
    (hignores : ∀ message budget final, s.worker = .holding message budget final →
      watch.Ignores message.kind message.source ∧ watch.Ignores "observer" message.source) :
    Spares watch s.facts (s.process host fates).facts := by
  unfold System.process
  split
  · rename_i message budget final hworker
    obtain ⟨hmessage, hobserver⟩ := hignores message budget final hworker
    have hwp : Wp (fun _ => True) (host.processMessage message)
        (Everywhere (Spares watch s.facts)) s.facts :=
      wp_spares_processMessage (.refl s.facts) hmessage hobserver
    split
    · rename_i effect facts rest hdone
      exact hwp.of_done hdone
    · rename_i e facts rest hraised
      exact hwp.of_raised hraised
    · exact .refl _
  · exact .refl _

/-- A look at something else. -/
theorem spares_poll {watch : Watch} {poll : Poll} (fates : Fates Exception)
    (hignores : watch.Ignores poll.kind poll.source)
    (hobserver : watch.Ignores "observer" "snapshot-poll") :
    Spares watch s.facts (s.poll host poll fates).facts := by
  have hwp : Wp (fun _ => True) (host.poll poll) (Everywhere (Spares watch s.facts)) s.facts :=
    wp_spares_poll (.refl s.facts) hignores hobserver
  unfold System.poll
  split
  · split
    · rename_i effect facts rest hdone
      exact hwp.of_done hdone
    · rename_i e facts rest hraised
      exact hwp.of_raised hraised
    · exact .refl _
  · exact .refl _

/-- The steps that are neither. -/
theorem spares_step {watch : Watch} {action : Action} (hprocess : ∀ fates, action ≠ .process fates)
    (hpoll : ∀ poll fates, action ≠ .poll poll fates) :
    Spares watch s.facts (s.step host action).facts := by
  have hquiet : (s.step host action).facts.state.events = s.facts.state.events ∧
      (s.step host action).facts.previous = s.facts.previous := by
    cases action with
    | process fates => exact absurd rfl (hprocess fates)
    | poll poll fates => exact absurd rfl (hpoll poll fates)
    | receive message =>
        simp only [System.step, System.receive]
        repeat' split
        all_goals exact ⟨rfl, rfl⟩
    | put =>
        simp only [System.step, System.put]
        repeat' split
        all_goals exact ⟨rfl, rfl⟩
    | overflow =>
        simp only [System.step, System.overflow]
        split
        all_goals exact ⟨rfl, rfl⟩
    | endOfStream =>
        simp only [System.step, System.endOfStream]
        split
        all_goals exact ⟨rfl, rfl⟩
    | enterPass =>
        simp only [System.step, System.enterPass]
        split
        all_goals exact ⟨rfl, rfl⟩
    | take =>
        simp only [System.step, System.take]
        repeat' split
        all_goals exact ⟨rfl, rfl⟩
    | endPoll =>
        simp only [System.step, System.endPoll]
        split
        all_goals exact ⟨rfl, rfl⟩
    | close =>
        simp only [System.step, System.close]
        split
        all_goals exact ⟨rfl, rfl⟩
    | sealLog endedAt stillAlive =>
        simp only [System.step, System.sealLog]
        split
        all_goals exact ⟨rfl, rfl⟩
    | snapshot =>
        have hprevious : ∀ document, (s.facts.snapshot document).2.1.previous =
            s.facts.previous := by
          intro document
          unfold RecordFacts.snapshot
          split
          · rfl
          · rfl
        simp only [System.step, System.snapshot]
        split
        · exact ⟨s.facts.events_snapshot _, hprevious _⟩
        · exact ⟨s.facts.events_snapshot _, hprevious _⟩
        · exact ⟨rfl, rfl⟩
  exact .of_eq hquiet.1 hquiet.2

end Threads

/-! ## A small installation -/

/-- The first report of an estimator. -/
def sampleText : String :=
  "\x7b\"effectiveAt\":\x7b\"monotonicTimeNs\":\"1\",\"rosTimeNs\":\"1\"," ++
    "\"unixTimeNs\":\"1\"\x7d,\"event\":\"applied\",\"evidence\":\"producer-applied\"," ++
    "\"provenance\":\x7b\x7d,\"schemaVersion\":1,\"sequence\":1,\"source\":\x7b\"id\":\"ekf\"," ++
    "\"instanceId\":\"1\",\"kind\":\"estimator\"\x7d,\"values\":\x7b\x7d\x7d"

/-- The same report, read. -/
def sampleReport : Parsed :=
  .object
    [("effectiveAt", .object
        [("monotonicTimeNs", .str "1"), ("rosTimeNs", .str "1"), ("unixTimeNs", .str "1")]),
      ("event", .str "applied"), ("evidence", .str "producer-applied"),
      ("provenance", .object []), ("schemaVersion", .int 1), ("sequence", .int 1),
      ("source", .object
        [("id", .str "ekf"), ("instanceId", .str "1"), ("kind", .str "estimator")]),
      ("values", .object [])]

/-- A camera without distortion. -/
def sampleCameraText : String := "\x7b\"D\":[0.0]\x7d"

/-- The texts of this installation with their digests. -/
def sampleDigests : List (Bytes × String) :=
  [(utf8 sampleText, "87cf9cded2ae1cda1cc5a8b6a980e459846ac350a50f0828dc07d6ed1ba4c910"),
    (utf8 (sampleText ++ " "), "41b0d7133819d5f5db84b85a29778054b5f04da2cef8a08bdcf9862b6964aa09"),
    (utf8 sampleCameraText, "8bb12011adf73b7449a17ad9fb9a1c52beab8fb258890a3b622fe136e5142347"),
    (utf8 "1", "6b86b273ff34fce19d6b804eff5a3f5747ada4eaa22f1d49c01e52ddb7875b4b")]

/-- The report is read with or without a blank behind it, and written without.  Of a camera, the
coefficient is `0.0` or is not finite. -/
def sampleHost : Host where
  directory := "/record"
  sha256 data := (sampleDigests.lookup data).getD ""
  loads text :=
    if text = sampleText ∨ text = sampleText ++ " " then .ok sampleReport
    else .error (valueError "Expecting value: line 1 column 1 (char 0)")
  dumps value :=
    match value with
    | .dict [("D", .list [.float x])] =>
        if x.isFinite = true then .ok (utf8 sampleCameraText)
        else .error (valueError "Out of range float values are not JSON compliant")
    | _ => .ok (utf8 sampleText)
  clock _ := ⟨"0", "0", none⟩

/-- Nothing was recorded in this directory yet. -/
def sampleFolder : Folder := ⟨.absent, fun _ => none⟩

end Ros1Tools.Facts
