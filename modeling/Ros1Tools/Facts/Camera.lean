import Ros1Tools.Facts.Polls

/-!
# Camera messages

A message of a camera is filed under `camera-info`, and a failure to encode or to store it
under `observer`.  Neither makes the recorder forget the other, so that what it remembers of
a topic is the latest sample *and* the latest failure, and an outcome is filed if it differs
from the latest one of its own sort.  That is the collapsed sequence of the outcomes as long as
no outcome comes back after outcomes of the other sort.
-/

namespace Ros1Tools.Facts

open Lib Lib.Faulty Lib.Python

/-- `root.rstrip("/") + "/camera_info"`. -/
def cameraTopic (root : String) : String := rstripBy (· == '/') root ++ "/camera_info"

/-- Where the two outcomes of a message of a camera are filed. -/
def camera (topic : String) : Watch := ⟨"camera-info", "observer", topic⟩

/-! ## Outcomes that come back -/

def Entry.isContent : Entry → Bool
  | content _ => true
  | absent _ => false

/-- The latest entry of the same sort. -/
def Entry.latest (entry : Entry) (seen : List Entry) : Option Entry :=
  (seen.filter fun other => other.isContent == entry.isContent).getLast?

/-- An outcome that equals the latest one of its own sort equals the latest one of all. -/
def Steady (outcomes : List Entry) : Prop :=
  ∀ seen entry rest, outcomes = seen ++ entry :: rest → entry.latest seen = some entry →
    seen.getLast? = some entry

theorem Entry.latest_concat (entry other : Entry) (seen : List Entry) :
    entry.latest (seen ++ [other]) =
      if other.isContent = entry.isContent then some other else entry.latest seen := by
  unfold latest
  rw [List.filter_append]
  by_cases h : other.isContent = entry.isContent
  · simp [h]
  · simp [h]

theorem Entry.latest_of_getLast {entry : Entry} {seen : List Entry}
    (h : seen.getLast? = some entry) : entry.latest seen = some entry := by
  obtain ⟨front, rfl⟩ := List.getLast?_eq_some_iff.mp h
  rw [latest_concat, if_pos rfl]

/-! ## The invariant -/

/-- The log is the collapsed sequence of the outcomes so far, and the keys hold the latest
outcome of each sort. -/
structure Tracks (topic : String) (seen : List Entry) (s : RecordFacts) : Prop where
  history : (camera topic).history s = seen.destutter (· ≠ ·)
  content : ∀ sha256, (Entry.content sha256).latest seen =
    (s.previous (.sample "camera-info" topic)).map .content
  absent : ∀ reason, (Entry.absent reason).latest seen =
    (s.previous (.unavailable "observer" topic)).map .absent

section Tracks

variable {host : Host} {topic : String} {seen : List Entry} {entry : Entry} {s s₁ : RecordFacts}

theorem Tracks.spares (h : Tracks topic seen s) (hs : Spares (camera topic) s s₁) :
    Tracks topic seen s₁ where
  history := hs.history.trans h.history
  content sha256 := by
    have hsample : s₁.previous (.sample "camera-info" topic) =
        s.previous (.sample "camera-info" topic) := congrArg Prod.fst hs.memory
    rw [hsample]
    exact h.content sha256
  absent reason := by
    have hmiss : s₁.previous (.unavailable "observer" topic) =
        s.previous (.unavailable "observer" topic) := congrArg Prod.snd hs.memory
    rw [hmiss]
    exact h.absent reason

theorem Tracks.content_iff (h : Tracks topic seen s) (sha256 : String) :
    s.previous (.sample "camera-info" topic) = some sha256 ↔
      (Entry.content sha256).latest seen = some (.content sha256) := by
  rw [h.content sha256]
  cases s.previous (.sample "camera-info" topic) with
  | none => simp
  | some sha256' => simp

theorem Tracks.absent_iff (h : Tracks topic seen s) (reason : String) :
    s.previous (.unavailable "observer" topic) = some reason ↔
      (Entry.absent reason).latest seen = some (.absent reason) := by
  rw [h.absent reason]
  cases s.previous (.unavailable "observer" topic) with
  | none => simp
  | some reason' => simp

/-- An outcome that is remembered. -/
theorem Tracks.repeated (h : Tracks topic seen s) (hlatest : entry.latest seen = some entry)
    (hlast : seen.getLast? = some entry) : Tracks topic (seen ++ [entry]) s := by
  have hsame : ∀ other : Entry, other.latest (seen ++ [entry]) = other.latest seen := by
    intro other
    rw [Entry.latest_concat]
    split
    · rename_i hsort
      rw [← hlatest, Entry.latest, Entry.latest, hsort]
    · rfl
  refine ⟨?_, fun sha256 => ?_, fun reason => ?_⟩
  · rw [destutter_concat, if_pos hlast, h.history]
  · rw [hsame, h.content]
  · rw [hsame, h.absent]

/-- The history of an outcome that is filed. -/
theorem Tracks.history_filed (h : Tracks topic seen s)
    (hlatest : entry.latest seen ≠ some entry)
    (hhistory : (camera topic).history s₁ = (camera topic).history s ++ [entry]) :
    (camera topic).history s₁ = (seen ++ [entry]).destutter (· ≠ ·) := by
  rw [hhistory, h.history, destutter_concat,
    if_neg fun hlast => hlatest (Entry.latest_of_getLast hlast)]

/-- A failure. -/
theorem Tracks.unavailable (h : Tracks topic seen s) (host : Host) (hopen : s.Open)
    {reason : String}
    (hsteady : (Entry.absent reason).latest seen = some (.absent reason) →
      seen.getLast? = some (.absent reason))
    (fates : Fates Exception) :
    ∃ effect s', host.unavailable "observer" topic reason s fates = .done effect s' fates ∧
      Tracks topic (seen ++ [.absent reason]) s' := by
  obtain ⟨effect, s', heq, ⟨hknown, rfl⟩ | ⟨hnew, hhistory, hprevious⟩⟩ :=
    unavailable_files (camera topic) host hopen reason fates
  · have hlatest := (h.absent_iff reason).mp hknown
    exact ⟨effect, s', heq, h.repeated hlatest (hsteady hlatest)⟩
  · have hlatest := fun hlatest => hnew ((h.absent_iff reason).mpr hlatest)
    refine ⟨effect, s', heq, h.history_filed hlatest hhistory, fun sha256 => ?_, fun reason' => ?_⟩
    · rw [Entry.latest_concat, if_neg nofun, h.content sha256, hprevious]
      simp [camera, Watch.missKey]
    · have hsort : (Entry.absent reason).isContent = (Entry.absent reason').isContent := rfl
      rw [Entry.latest_concat, if_pos hsort, hprevious]
      simp [camera, Watch.missKey]

/-- A sample. -/
theorem Tracks.sample (h : Tracks topic seen s) {label suffix : String}
    {read : Except Exception Bytes} {x : Bytes × Option Content}
    {fates rest : Fates Exception}
    (hacquire : host.acquire "camera-info" topic label suffix read s fates = .done x s₁ rest)
    (hopen : s.Open) {clock : Recording Clock} (hclock : Prompt host clock) (validity : String)
    (hsteady : (Entry.content (host.sha256 x.1)).latest seen =
      some (.content (host.sha256 x.1)) → seen.getLast? = some (.content (host.sha256 x.1))) :
    ∃ effect s', enter "camera-info" topic validity clock
        (fun data s => s.setPrevious (.sample "camera-info" topic) (some (host.sha256 data)))
        x s₁ rest = .done effect s' rest ∧
      Tracks topic (seen ++ [.content (host.sha256 x.1)]) s' := by
  obtain ⟨effect, s', heq, hcases⟩ :=
    enter_files (camera topic) hacquire hopen hclock validity
      (fun data s => s.setPrevious (.sample "camera-info" topic) (some (host.sha256 data)))
      fun _ _ => rfl
  refine ⟨effect, s', heq, ?_⟩
  rcases hcases with ⟨hknown, hadvance⟩ | ⟨hnew, hhistory, s₂, hprevious, rfl⟩
  · have hlatest := (h.content_iff _).mp hknown
    exact (h.spares hadvance.spares).repeated hlatest (hsteady hlatest)
  · have hlatest := fun hlatest => hnew ((h.content_iff _).mpr hlatest)
    refine ⟨h.history_filed hlatest hhistory, fun sha256 => ?_, fun reason => ?_⟩
    · have hsort : (Entry.content (host.sha256 x.1)).isContent =
        (Entry.content sha256).isContent := rfl
      rw [Entry.latest_concat, if_pos hsort]
      simp [RecordFacts.setPrevious]
    · rw [Entry.latest_concat, if_neg (by simp [Entry.isContent]), h.absent reason]
      simp [RecordFacts.setPrevious, hprevious]

end Tracks

/-! ## One message -/

/-- The reason that is filed when a message cannot be encoded or stored. -/
def messageReason (e : Exception) : Option String :=
  if isListed e = true then some (failureReason e) else none

namespace Message

variable (host : Host) (s : RecordFacts) (fates : Fates Exception)
  (message : Message)

/-- What a message of a camera comes to. -/
def sighting : Option Sighting :=
  sightingOf messageReason (host.acquire "camera-info" message.source
    ("camera-info" ++ "-" ++ message.source) ".json" (host.dumps message.payload) s fates)

/-- The recorder after a message. -/
def after : RecordFacts :=
  match host.processMessage message s fates with
  | .done _ facts _ => facts
  | .raised _ facts _ => facts
  | .crashed _ => s

end Message

section Messages

variable {host : Host} {topic : String} {seen : List Entry}

theorem processMessage_eq {message : Message} (hkind : message.kind = "camera-info") :
    host.processMessage message =
      tryCatch
        (host.acquire "camera-info" message.source ("camera-info" ++ "-" ++ message.source)
            ".json" (host.dumps message.payload) >>=
          enter "camera-info" message.source
            "observation-only; between-sample changes are unknown"
            (host.observedOrNow (some message.observed))
            fun data s => s.setPrevious (.sample "camera-info" message.source)
              (some (host.sha256 data)))
        fun e =>
          match messageReason e with
          | some reason => host.unavailable "observer" message.source reason
          | none => throw e := by
  have hdispatch : host.dispatch message =
      host.observation "camera-info" message.source message.payload (some message.observed) := by
    rw [Host.dispatch, hkind, if_neg (by decide), if_neg (by decide)]
  rw [Host.processMessage, hdispatch, observation_eq]
  congr 1
  funext e
  unfold messageReason
  cases isListed e with
  | true => rfl
  | false => rfl

/-- **One message.** -/
theorem Tracks.message {message : Message} {s : RecordFacts}
    (h : Tracks message.source seen s) (hkind : message.kind = "camera-info") (hopen : s.Open)
    (fates : Fates Exception)
    (hsteady : ∀ sighting, message.sighting host s fates = some sighting →
      (host.entry sighting).latest seen = some (host.entry sighting) →
      seen.getLast? = some (host.entry sighting)) :
    Tracks message.source (seen ++ ((message.sighting host s fates).map host.entry).toList)
      (message.after host s fates) := by
  unfold Message.sighting at hsteady ⊢
  cases hacquire : host.acquire "camera-info" message.source
      ("camera-info" ++ "-" ++ message.source) ".json" (host.dumps message.payload) s fates with
  | done x s₁ rest =>
      rw [hacquire] at hsteady
      obtain ⟨effect, s', henter, htracks⟩ := h.sample hacquire hopen
        (prompt_observedOrNow host (some message.observed))
        "observation-only; between-sample changes are unknown" (hsteady _ rfl)
      have hdone : host.processMessage message s fates = .done effect s' rest := by
        rw [processMessage_eq hkind, tryCatch_apply, bind_apply, hacquire]
        dsimp only
        rw [henter]
      rw [Message.after, hdone]
      exact htracks
  | raised e s₁ rest =>
      rw [hacquire] at hsteady
      have hadvance : Advance host s s₁ := wp_acquire.of_raised hacquire
      have hprocess : host.processMessage message s fates =
          (match messageReason e with
            | some reason => host.unavailable "observer" message.source reason
            | none => throw e) s₁ rest := by
        rw [processMessage_eq hkind, tryCatch_apply, bind_apply, hacquire]
      cases hreason : messageReason e with
      | some reason =>
          have hsighting : sightingOf messageReason (.raised e s₁ rest) =
              some (.absent reason) := by
            rw [sightingOf, hreason]
            rfl
          obtain ⟨effect, s', heq, htracks⟩ := (h.spares hadvance.spares).unavailable
            host (hadvance.isOpen hopen) (hsteady _ hsighting) rest
          rw [hreason] at hprocess
          rw [hsighting, Message.after, hprocess.trans heq]
          exact htracks
      | none =>
          have hsighting : sightingOf messageReason (.raised e s₁ rest) = none := by
            rw [sightingOf, hreason]
            rfl
          rw [hreason] at hprocess
          have hraised : host.processMessage message s fates = .raised e s₁ rest := hprocess
          rw [hsighting, Message.after, hraised]
          simpa using h.spares hadvance.spares
  | crashed s₁ =>
      have hcrashed : host.processMessage message s fates = .crashed s₁ := by
        rw [processMessage_eq hkind, tryCatch_apply, bind_apply, hacquire]
      rw [Message.after, hcrashed]
      simpa [sightingOf] using h

end Messages

/-! ## Runs -/

namespace System

variable (host : Host) (topic : String)

/-- What a step of the threads makes of a message about a topic. -/
def cameraSighting (s : System) : Action → Option Sighting
  | .process fates =>
      match s.worker with
      | .holding message _ _ =>
          if message.kind = "camera-info" ∧ message.source = topic then
            message.sighting host s.facts fates
          else none
      | _ => none
  | _ => none

/-- What a run makes of the messages about a topic, in order. -/
def cameraSightings : System → List Action → List Sighting
  | _, [] => []
  | s, action :: actions =>
      (s.cameraSighting host topic action).toList ++ cameraSightings (s.step host action) actions

end System

section Runs

variable {host : Host} {root : String} {seen : List Entry} {s : System}

/-- The name of a topic tells it from everything else that is filed. -/
theorem cameraTopic_ne {text : String} (htext : endsWith text "/camera_info" = false) :
    text ≠ cameraTopic root := by
  rintro rfl
  have hsuffix : endsWith (cameraTopic root) "/camera_info" = true := by
    rw [endsWith, List.isSuffixOf_iff_suffix, cameraTopic, String.toList_append]
    exact List.suffix_append _ _
  rw [hsuffix] at htext
  cases htext

/-- A message that was sent is one about the topic, or has another source. -/
theorem Message.ignored_of_isSent {message : Message} (h : message.isSent = true)
    (hother : ¬(message.kind = "camera-info" ∧ message.source = cameraTopic root)) :
    message.source ≠ cameraTopic root := by
  simp only [isSent, Bool.or_eq_true, Bool.and_eq_true, beq_iff_eq] at h
  rcases h with (⟨-, h⟩ | ⟨hkind, -⟩) | ⟨-, h⟩
  · rw [h]
    exact cameraTopic_ne (by decide)
  · exact fun hsource => hother ⟨hkind, hsource⟩
  · rw [h]
    exact cameraTopic_ne (by decide)

theorem System.facts_process {message : Message} {budget : Nat} {final : Bool}
    (hworker : s.worker = .holding message budget final) (fates : Fates Exception) :
    (s.process host fates).facts = message.after host s.facts fates := by
  unfold System.process Message.after
  rw [hworker]
  dsimp only
  cases host.processMessage message s.facts fates with
  | done effect facts rest => rfl
  | raised e facts rest => rfl
  | crashed facts => rfl

/-- **One step of the threads** adds what it makes of a message about a topic. -/
theorem Tracks.step (h : Tracks (cameraTopic root) seen s.facts) (hsent : AllSent s)
    {action : Action} (haction : s.Undisturbed action)
    (hsteady : ∀ sighting, s.cameraSighting host (cameraTopic root) action = some sighting →
      (host.entry sighting).latest seen = some (host.entry sighting) →
      seen.getLast? = some (host.entry sighting)) :
    Tracks (cameraTopic root)
      (seen ++ ((s.cameraSighting host (cameraTopic root) action).map host.entry).toList)
      (s.step host action).facts := by
  have hspared : s.cameraSighting host (cameraTopic root) action = none →
      Spares (camera (cameraTopic root)) s.facts (s.step host action).facts →
      Tracks (cameraTopic root)
        (seen ++ ((s.cameraSighting host (cameraTopic root) action).map host.entry).toList)
        (s.step host action).facts := by
    intro hnone hspares
    rw [hnone]
    simpa using h.spares hspares
  cases action with
  | process fates =>
      cases hworker : s.worker with
      | holding message budget final =>
          by_cases habout : message.kind = "camera-info" ∧ message.source = cameraTopic root
          · have hsighting : s.cameraSighting host (cameraTopic root) (.process fates) =
                message.sighting host s.facts fates := by
              simp only [System.cameraSighting, hworker, habout, and_self, if_true]
            rw [hsighting] at hsteady ⊢
            change Tracks _ _ (s.process host fates).facts
            rw [System.facts_process hworker]
            rw [← habout.2] at h ⊢
            exact h.message habout.1 haction.1 fates hsteady
          · refine hspared (by simp only [System.cameraSighting, hworker, habout, if_false])
              (spares_process fates fun message' budget' final' hworker' => ?_)
            rw [hworker] at hworker'
            cases hworker'
            have hsource := Message.ignored_of_isSent
              (hsent.worker message budget final hworker) habout
            exact ⟨.inl hsource, .inl hsource⟩
      | _ =>
          refine hspared (by simp only [System.cameraSighting, hworker]) ?_
          change Spares _ _ (s.process host fates).facts
          simp only [System.process, hworker]
          exact .refl _
  | poll poll fates =>
      have hkind : poll.kind ∈ polledKinds := List.contains_iff_mem.mp haction.2
      have hne : ∀ kind, kind ∉ polledKinds → poll.kind ≠ kind := by
        rintro _ hnot rfl
        exact hnot hkind
      exact hspared rfl (spares_poll fates
        (.inr ⟨hne "camera-info" (by decide), hne "observer" (by decide)⟩)
        (.inl (cameraTopic_ne (by decide))))
  | _ => exact hspared rfl (spares_step nofun nofun)

/-- **A whole run.** -/
theorem Tracks.run (h : Tracks (cameraTopic root) seen s.facts) (hsent : AllSent s)
    {actions : List Action}
    (hactions : Along (System.step host) System.Undisturbed s actions)
    (hsteady : Steady
      (seen ++ (s.cameraSightings host (cameraTopic root) actions).map host.entry)) :
    Tracks (cameraTopic root)
      (seen ++ (s.cameraSightings host (cameraTopic root) actions).map host.entry)
      (run (System.step host) s actions).facts := by
  induction actions generalizing s seen with
  | nil => simpa [System.cameraSightings] using h
  | cons action actions ih =>
      obtain ⟨haction, hactions⟩ := hactions
      have hentries : seen ++
            (s.cameraSightings host (cameraTopic root) (action :: actions)).map host.entry =
          (seen ++ ((s.cameraSighting host (cameraTopic root) action).map host.entry).toList) ++
            ((s.step host action).cameraSightings host (cameraTopic root) actions).map
              host.entry := by
        rw [System.cameraSightings, List.map_append, ← List.append_assoc]
        cases s.cameraSighting host (cameraTopic root) action with
        | none => rfl
        | some sighting => rfl
      rw [hentries] at hsteady ⊢
      rw [run_cons]
      refine ih (h.step hsent haction fun sighting hsighting => ?_) (hsent.step haction.2)
        hactions hsteady
      refine hsteady seen (host.entry sighting)
        (((s.step host action).cameraSightings host (cameraTopic root) actions).map host.entry) ?_
      rw [hsighting]
      simp

end Runs

theorem tracks_fresh (host : Host) (folder : Folder) (topic : String) :
    Tracks topic [] (RecordFacts.fresh host folder) :=
  ⟨rfl, fun _ => rfl, fun _ => rfl⟩

/-- **Camera messages are recorded without loss or repetition, unless an outcome comes back.**
In every schedule of the threads in which the log always takes a further event, and in which no
outcome of a message about a topic equals the latest earlier one of its own sort while the
latest one of all is of the other sort, what the log says about the topic is the sequence of
the outcomes with consecutive equal ones collapsed. -/
theorem camera_history_recorded (host : Host) (folder : Folder) (actions : List Action)
    (root : String)
    (hactions : Along (System.step host) System.Undisturbed
      (System.start (RecordFacts.fresh host folder)) actions)
    (hsteady : Steady (((System.start (RecordFacts.fresh host folder)).cameraSightings host
      (cameraTopic root) actions).map host.entry)) :
    let s := run (System.step host) (System.start (RecordFacts.fresh host folder)) actions
    let seen := (System.start (RecordFacts.fresh host folder)).cameraSightings host
      (cameraTopic root) actions
    (camera (cameraTopic root)).history s.facts = (seen.map host.entry).destutter (· ≠ ·) ∧
      ((∀ a ∈ seen, ∀ b ∈ seen, host.entry a = host.entry b → a = b) →
        (camera (cameraTopic root)).history s.facts =
          (seen.destutter (· ≠ ·)).map host.entry) := by
  intro s seen
  have htracks : Tracks (cameraTopic root) ([] ++ seen.map host.entry) s.facts :=
    (tracks_fresh host folder _).run (allSent_start _ rfl) hactions hsteady
  exact ⟨htracks.history, fun hdistinct =>
    htracks.history.trans (host.destutter_entry hdistinct).symm⟩

/-- A message of the front camera with one coefficient. -/
def sampleCamera (x : Double) : Message :=
  ⟨"camera-info", cameraTopic "/front", .dict [("D", .list [.float x])], ⟨"0", "0", none⟩⟩

/-- Messages that arrive, and are processed in one pass. -/
def sampleSchedule (messages : List Message) : List Action :=
  messages.flatMap (fun message => [.receive message, .put]) ++
    .enterPass :: messages.flatMap fun _ => [.take, .process []]

def sampleZero : Double := ⟨false, 0, by decide +kernel⟩

def sampleNaN : Double := ⟨false, 2 ^ 63 - 1, by decide +kernel⟩

/-- What is filed of a coefficient that is zero. -/
def sampleSight : Entry :=
  .content "8bb12011adf73b7449a17ad9fb9a1c52beab8fb258890a3b622fe136e5142347"

/-- What is filed when a coefficient is not finite. -/
def sampleFailure : Entry := .absent "ValueError:Out of range float values are not JSON compliant"

theorem camera_history_recorded_sample :
    let s := run (System.step sampleHost)
      (System.start (RecordFacts.fresh sampleHost sampleFolder))
      (sampleSchedule [sampleCamera sampleZero, sampleCamera sampleZero, sampleCamera sampleNaN])
    (camera (cameraTopic "/front")).history s.facts = [sampleSight, sampleFailure] := by
  have hseen : ((System.start (RecordFacts.fresh sampleHost sampleFolder)).cameraSightings
      sampleHost (cameraTopic "/front") (sampleSchedule
        [sampleCamera sampleZero, sampleCamera sampleZero, sampleCamera sampleNaN])).map
      sampleHost.entry = [sampleSight, sampleSight, sampleFailure] := by
    decide +kernel
  refine (camera_history_recorded sampleHost sampleFolder _ "/front" (by decide +kernel) ?_).1.trans
    ?_
  · rw [hseen]
    intro seen entry rest heq hlatest
    rcases seen with _ | ⟨a, _ | ⟨b, _ | ⟨c, seen⟩⟩⟩
    · cases hlatest
    · cases heq
      rfl
    · cases heq
      exact absurd hlatest (by decide)
    · exact absurd (congrArg List.length heq) (by simp)
  · rw [hseen]
    decide

/-- A sample, a failure, and the same sample again: the third message leaves no event. -/
theorem returning_sample_not_recorded :
    let start := System.start (RecordFacts.fresh sampleHost sampleFolder)
    let actions := sampleSchedule
      [sampleCamera sampleZero, sampleCamera sampleNaN, sampleCamera sampleZero]
    Along (System.step sampleHost) System.Undisturbed start actions ∧
      (start.cameraSightings sampleHost (cameraTopic "/front") actions).map sampleHost.entry =
        [sampleSight, sampleFailure, sampleSight] ∧
      (camera (cameraTopic "/front")).history (run (System.step sampleHost) start actions).facts =
        [sampleSight, sampleFailure] := by
  refine ⟨?_, ?_, ?_⟩
  · decide +kernel
  · decide +kernel
  · decide +kernel

end Ros1Tools.Facts
