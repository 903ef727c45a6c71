import Mathlib.Data.Finset.Card
import Ros1Tools.Clock.Wait
import Ros1Tools.Lib.Rounding
import Ros1Tools.Probe.Request

/-!
# The pose snapshot

The probe subscribes to every topic that a source selects and records the first valid message
of each, until it has them all or the deadline passes.  The samples go back to the sources that
selected their topics.

Everything about the samples comes from one law: `lookup_run` reads what a run of the callback
records for a topic off the valid messages on that topic alone.  `lookup_loop` says that the
loop loses nothing by leaving early, since by then every topic has its sample.
-/

namespace Ros1Tools.Probe

open Lib
open Clock (Stamp)

/-! ## Timestamps -/

/-- The digits of a number, filled with zeros from the left. -/
def filled (width n : Nat) : String := String.ofList (List.leftpad width '0' (Nat.toDigits 10 n))

/-- Year, month and day of a day that is counted from 1970-01-01. -/
def civil (days : Nat) : Nat × Nat × Nat :=
  -- Years begin in March here and eras of 400 years are equally long.
  let day := (days + 719468) % 146097
  let year := (day - day / 1460 + day / 36524 - day / 146096) / 365
  let ofYear := day - (365 * year + year / 4 - year / 100)
  let month := (5 * ofYear + 2) / 153
  let january := if month < 10 then 0 else 1
  ((days + 719468) / 146097 * 400 + year + january, month + 3 - 12 * january,
    ofYear - (153 * month + 2) / 5 + 1)

/-- What `put_time` and the nanoseconds after it spell. -/
def spellTime (stamp : Stamp) : String :=
  let sec := stamp.sec.toNat
  let (year, month, day) := civil (sec / 86400)
  filled 4 year ++ "-" ++ filled 2 month ++ "-" ++ filled 2 day ++ "T" ++
    filled 2 (sec % 86400 / 3600) ++ ":" ++ filled 2 (sec % 3600 / 60) ++ ":" ++
    filled 2 (sec % 60) ++ "." ++ filled 9 stamp.nsec.toNat ++ "Z"

def timestamp (stamp : Stamp) : Result String :=
  if 1000000000 ≤ stamp.nsec.toNat then .error "invalid pose timestamp" else .ok (spellTime stamp)

example : timestamp ⟨123, 456⟩ = .ok "1970-01-01T00:02:03.000000456Z" := by rfl

example : timestamp ⟨951827696, 0⟩ = .ok "2000-02-29T12:34:56.000000000Z" := by rfl

/-! ## Messages -/

/-- The fields of a `geometry_msgs/PoseStamped`. -/
structure PoseStamped where
  frameId : String
  stamp : Stamp
  position : Double × Double × Double
  orientation : Double × Double × Double × Double

/-- The numbers of a message, in the order of the two loops over them. -/
def PoseStamped.axes (message : PoseStamped) : List (String × String × Double) :=
  let (x, y, z) := message.position
  let (qx, qy, qz, qw) := message.orientation
  [("position", "x", x), ("position", "y", y), ("position", "z", z),
    ("orientation", "x", qx), ("orientation", "y", qy), ("orientation", "z", qz),
    ("orientation", "w", qw)]

/-- A message event on a topic that is subscribed to. -/
structure Event where
  topic : String
  dataType : String
  /-- The message that `translateMessage` and the field accesses find; `none` if one throws. -/
  translated : Option PoseStamped
  /-- `ros::WallTime::now()` in the callback. -/
  observed : Stamp

/-- `sample[part][axis] = number`. -/
def setAxis (sample : Json.Members) (entry : String × String × Double) :
    Json.Members :=
  let (part, axis, number) := entry
  let inner := match Json.find part sample with
    | some (.object members) => members
    | _ => []
  Json.set part (.object (Json.set axis (.real number) inner)) sample

/-- `quaternionNorm += number * number`, for an axis of the orientation. -/
def addSquare (quaternionNorm : Double) (entry : String × String × Double) : Double :=
  let (part, _, number) := entry
  if part = "orientation" then quaternionNorm.add (number.mul number) else quaternionNorm

/-- The loops over the axes. -/
def readAxes : List (String × String × Double) → Json.Members → Double →
    Option (Json.Members × Double)
  | [], sample, quaternionNorm => some (sample, quaternionNorm)
  | entry :: rest, sample, quaternionNorm =>
      if !entry.2.2.isFinite then none
      else readAxes rest (setAxis sample entry) (addSquare quaternionNorm entry)

/-- The literal `1e-12`. -/
def leastNorm : Double := .ofRatio _ false (2 ^ Format.binary64.unit) (10 ^ 12)

/-- The sample before the numbers are read. -/
def baseOf (event : Event) (frameId sourceStamp observedAt : String) : Json.Members :=
  Json.set "observedAt" (.string observedAt) <|
    Json.set "sourceStamp" (.string sourceStamp) <|
    Json.set "frameId" (.string frameId) <|
    Json.set "topic" (.string event.topic) []

/-- What the callback makes of a message. -/
def sampleOf (event : Event) : Option Json :=
  if event.dataType ≠ poseType then none
  else do
    let message ← event.translated
    let sourceStamp ← (timestamp message.stamp).toOption
    let observedAt ← (timestamp event.observed).toOption
    let base := baseOf event message.frameId sourceStamp observedAt
    let read ← readAxes message.axes base (.ofInt _ 0)
    let quaternionNorm := read.2
    if !quaternionNorm.isFinite || quaternionNorm.lt leastNorm then none
    else some (.object read.1)

/-! ## The collection of samples -/

/-- The map of samples, by topic. -/
abbrev Samples := Json.Members

/-- The callback of the subscription that an event belongs to. -/
def callback (topics : Finset String) (samples : Samples) (event : Event) : Samples :=
  if event.topic ∈ topics ∧ samples.lookup event.topic = none then
    (sampleOf event).elim samples fun sample => (event.topic, sample) :: samples
  else samples

/-- A round of the loop: what its head finds, and what is delivered in it. -/
structure Round where
  ok : Bool
  stopped : Bool
  events : List Event

namespace Round

def live (round : Round) : Bool := round.ok && !round.stopped

/-- The head of the loop, before the deadline. -/
def enters (round : Round) (topics : Finset String) (samples : Samples) : Bool :=
  decide (samples.length < topics.card) && round.live

end Round

/-- The loop, over the rounds that begin before the deadline. -/
def loop (topics : Finset String) : List Round → Samples → Samples
  | [], samples => samples
  | round :: rounds, samples =>
      if round.enters topics samples then
        loop topics rounds (run (callback topics) samples round.events)
      else samples

/-- What the outside does in one call of the probe. -/
structure Course where
  rounds : List Round
  /-- The flag of the signal handler, and `ros::ok()`, after the loop. -/
  stopped : Bool
  ok : Bool

/-- A source with the samples that are found for its topics. -/
def answer (find : String → Option Json) (selected : Finset String) : Json → Json
  | .object members =>
      .object (Json.set "samples" (.array ((selected.sort (· ≤ ·)).filterMap find)) members)
  | source => source

variable (library : Library)

/-- `poseSnapshot`, on the standard input and the answer to `getPublishedTopics`: an error, or
a value that may be no array. -/
def poseSnapshot (input : Bytes) (published : Result (Option (List Entry))) (course : Course) :
    Result Json := do
  let request ← readSnapshotRequest library input
  match ← published with
  | none => .error "getPublishedTopics did not return an array"
  | some published => do
      let (selections, topics) ← readSources library published (sourcesOf request) ∅
      let samples := loop topics course.rounds []
      if course.stopped then .error "probe cancelled"
      else if !course.ok then .error "ROS shut down before pose snapshot"
      else .ok (.object (Json.set "sources"
        (.array (List.zipWith (answer (samples.lookup ·)) selections (sourcesOf request))) request))

/-! ## Valid messages -/

namespace PoseStamped

/-- The square of the norm of the orientation, as it is accumulated in double precision. -/
def quaternionNorm (message : PoseStamped) : Double :=
  let (x, y, z, w) := message.orientation
  [x, y, z, w].foldl (fun norm number => norm.add (number.mul number)) (.ofInt _ 0)

end PoseStamped

namespace Event

/-- A pose with finite numbers, real times and an orientation. -/
def Valid (event : Event) : Prop :=
  event.dataType = poseType ∧ event.observed.Valid ∧
    ∃ message ∈ event.translated, message.stamp.Valid ∧
      (∀ entry ∈ message.axes, entry.2.2.isFinite = true) ∧
      message.quaternionNorm.isFinite = true ∧ message.quaternionNorm.lt leastNorm = false

instance instDecidableValid (event : Event) : Decidable event.Valid :=
  inferInstanceAs (Decidable (_ ∧ _ ∧ _))

/-- The sample of a valid message. -/
def record (event : Event) : Json :=
  event.translated.elim .null fun message =>
    let (x, y, z) := message.position
    let (qx, qy, qz, qw) := message.orientation
    .object [
      ("frameId", .string message.frameId),
      ("observedAt", .string (spellTime event.observed)),
      ("orientation", .object [("w", .real qw), ("x", .real qx), ("y", .real qy), ("z", .real qz)]),
      ("position", .object [("x", .real x), ("y", .real y), ("z", .real z)]),
      ("sourceStamp", .string (spellTime message.stamp)),
      ("topic", .string event.topic)]

end Event

theorem readAxes_eq (axes : List (String × String × Double)) (sample : Json.Members)
    (norm : Double) :
    readAxes axes sample norm =
      if axes.all (·.2.2.isFinite) then
        some (axes.foldl setAxis sample, axes.foldl addSquare norm)
      else none := by
  induction axes generalizing sample norm with
  | nil => rfl
  | cons entry axes ih =>
      rw [readAxes, ih, List.all_cons]
      cases entry.2.2.isFinite with
      | true => rfl
      | false => rfl

theorem timestamp_toOption (stamp : Stamp) :
    (timestamp stamp).toOption = if stamp.Valid then some (spellTime stamp) else none := by
  by_cases h : stamp.Valid
  · rw [timestamp, if_neg (not_le.mpr h), if_pos h]
    rfl
  · rw [timestamp, if_pos (not_lt.mp h), if_neg h]
    rfl

theorem foldl_addSquare (message : PoseStamped) :
    message.axes.foldl addSquare (.ofInt _ 0) = message.quaternionNorm := by
  simp [PoseStamped.axes, addSquare, PoseStamped.quaternionNorm]

theorem foldl_setAxis (event : Event) {message : PoseStamped}
    (h : event.translated = some message) :
    Json.object (message.axes.foldl setAxis (baseOf event message.frameId (spellTime message.stamp)
      (spellTime event.observed))) = event.record := by
  rw [Event.record, h]
  rfl

theorem sampleOf_of_valid {event : Event} (h : event.Valid) :
    sampleOf event = some event.record := by
  obtain ⟨htype, hobserved, message, hmessage, hstamp, hfinite, hnorm, hleast⟩ := h
  unfold sampleOf
  rw [if_neg (not_not.mpr htype), hmessage]
  simp only [Option.bind_eq_bind, Option.bind_some, timestamp_toOption, if_pos hstamp,
    if_pos hobserved, readAxes_eq, List.all_eq_true.mpr hfinite, if_true, foldl_addSquare, hnorm,
    hleast, Bool.not_true, Bool.or_false, Bool.false_eq_true, if_false,
    foldl_setAxis event hmessage]

theorem valid_of_sampleOf {event : Event} {sample : Json} (h : sampleOf event = some sample) :
    event.Valid := by
  unfold sampleOf at h
  split at h
  next => cases h
  next htype =>
    simp only [Option.bind_eq_bind, Option.bind_eq_some_iff, timestamp_toOption, readAxes_eq,
      Option.ite_none_right_eq_some, Option.ite_none_left_eq_some] at h
    obtain ⟨message, hmessage, _, ⟨hstamp, -⟩, _, ⟨hobserved, -⟩, read, hread, h, -⟩ := h
    obtain ⟨hfinite, ⟨⟩⟩ := hread
    dsimp only at h
    rw [foldl_addSquare, Bool.or_eq_true, not_or, Bool.not_eq_true, Bool.not_eq_false',
      Bool.not_eq_true] at h
    exact ⟨not_not.mp htype, hobserved, message, hmessage, hstamp, List.all_eq_true.mp hfinite,
      h.1, h.2⟩

/-- **The callback accepts the valid messages** and records them. -/
theorem sampleOf_eq (event : Event) :
    sampleOf event = if event.Valid then some event.record else none := by
  by_cases h : event.Valid
  · rw [if_pos h, sampleOf_of_valid h]
  · rw [if_neg h]
    exact Option.eq_none_iff_forall_ne_some.mpr fun _ hsample => h (valid_of_sampleOf hsample)

/-! ## What is recorded -/

/-- The valid messages on a topic, in their order. -/
def validOn (topic : String) (events : List Event) : List Event :=
  events.filter fun event => event.topic = topic ∧ event.Valid

/-- The sample of the first valid message on a topic. -/
def firstSample (events : List Event) (topic : String) : Option Json :=
  (validOn topic events).head?.map Event.record

theorem firstSample_nil (topic : String) : firstSample [] topic = none := rfl

theorem firstSample_append (events later : List Event) (topic : String) :
    firstSample (events ++ later) topic =
      (firstSample events topic).or (firstSample later topic) := by
  rw [firstSample, validOn, List.filter_append, List.head?_append, Option.map_or]
  rfl

theorem firstSample_singleton (event : Event) (topic : String) :
    firstSample [event] topic = if event.topic = topic then sampleOf event else none := by
  rw [firstSample, validOn, List.filter_singleton, sampleOf_eq]
  by_cases htopic : event.topic = topic
  · by_cases hvalid : event.Valid
    · simp [htopic, hvalid]
    · simp [htopic, hvalid]
  · simp [htopic]

section

variable {topics : Finset String} {samples : Samples} {topic : String}

/-- One message, and the sample of one topic. -/
theorem lookup_callback (htopic : topic ∈ topics) (event : Event) :
    (callback topics samples event).lookup topic =
      (samples.lookup topic).or (firstSample [event] topic) := by
  rw [callback, firstSample_singleton]
  by_cases hsame : event.topic = topic
  · subst hsame
    rw [if_pos rfl]
    cases hlookup : samples.lookup event.topic with
    | some sample =>
        rw [if_neg (by simp)]
        exact hlookup
    | none =>
        rw [if_pos ⟨htopic, rfl⟩]
        cases sampleOf event with
        | none => exact hlookup
        | some sample => exact List.lookup_cons_self
  · rw [if_neg hsame, Option.or_none]
    split
    next =>
      cases sampleOf event with
      | none => rfl
      | some sample =>
          show List.lookup topic ((event.topic, sample) :: samples) = _
          rw [List.lookup_cons, beq_eq_false_iff_ne.mpr (Ne.symm hsame)]
    next => rfl

/-- **A run of the callback records the first valid message.** -/
theorem lookup_run (htopic : topic ∈ topics) (events : List Event) :
    (run (callback topics) samples events).lookup topic =
      (samples.lookup topic).or (firstSample events topic) := by
  induction events generalizing samples with
  | nil => rw [run_nil, firstSample_nil, Option.or_none]
  | cons event events ih =>
      rw [run_cons, ih, lookup_callback htopic, Option.or_assoc, ← firstSample_append]
      rfl

/-- Samples of distinct topics that are subscribed to. -/
structure Recorded (topics : Finset String) (samples : Samples) : Prop where
  nodup : (samples.map Prod.fst).Nodup
  subscribed : ∀ topic ∈ samples.map Prod.fst, topic ∈ topics

theorem lookup_eq_none_iff_keys : samples.lookup topic = none ↔ topic ∉ samples.map Prod.fst := by
  simp only [List.lookup_eq_none_iff, List.mem_map, not_exists, not_and, bne_iff_ne]
  exact forall₂_congr fun _ _ => ne_comm

namespace Recorded

theorem nil : Recorded topics [] where
  nodup := List.nodup_nil
  subscribed := List.forall_mem_nil _

theorem callback (h : Recorded topics samples) (event : Event) :
    Recorded topics (callback topics samples event) := by
  unfold Probe.callback
  split
  next hfresh =>
    cases sampleOf event with
    | none => exact h
    | some sample =>
        exact {
          nodup := List.nodup_cons.mpr ⟨lookup_eq_none_iff_keys.mp hfresh.2, h.nodup⟩
          subscribed := List.forall_mem_cons.mpr ⟨hfresh.1, h.subscribed⟩ }
  next => exact h

/-- When there are as many samples as topics, every topic has one. -/
theorem lookup_isSome (h : Recorded topics samples) (hfull : topics.card ≤ samples.length)
    (htopic : topic ∈ topics) : (samples.lookup topic).isSome = true := by
  have hkeys : (samples.map Prod.fst).toFinset = topics := by
    apply Finset.eq_of_subset_of_card_le
    · intro key hkey
      exact h.subscribed key (List.mem_toFinset.mp hkey)
    · rwa [List.toFinset_card_of_nodup h.nodup, List.length_map]
  rw [Option.isSome_iff_ne_none, Ne, lookup_eq_none_iff_keys, not_not, ← List.mem_toFinset, hkeys]
  exact htopic

end Recorded

end

/-- The messages that are delivered before the loop ends. -/
def delivered (topics : Finset String) : List Round → Samples → List Event
  | [], _ => []
  | round :: rounds, samples =>
      if round.enters topics samples then
        round.events ++ delivered topics rounds (run (callback topics) samples round.events)
      else []

/-- The messages before the deadline or the end of the process, whether the loop waits for them
or not. -/
def heard (rounds : List Round) : List Event := (rounds.takeWhile Round.live).flatMap Round.events

theorem heard_cons (round : Round) (rounds : List Round) :
    heard (round :: rounds) = if round.live then round.events ++ heard rounds else [] := by
  rw [heard, List.takeWhile_cons]
  split
  next => rfl
  next => rfl

section

variable {topics : Finset String} {samples : Samples} {topic : String}

theorem loop_eq_run (rounds : List Round) :
    loop topics rounds samples =
      run (callback topics) samples (delivered topics rounds samples) := by
  induction rounds generalizing samples with
  | nil => rfl
  | cons round rounds ih =>
      rw [loop, delivered]
      split
      next => rw [ih, run_append]
      next => rfl

/-- **The loop loses nothing by leaving early**: then every topic has its sample. -/
theorem lookup_loop (h : Recorded topics samples) (htopic : topic ∈ topics) (rounds : List Round) :
    (loop topics rounds samples).lookup topic =
      (samples.lookup topic).or (firstSample (heard rounds) topic) := by
  induction rounds generalizing samples with
  | nil => exact (Option.or_none).symm
  | cons round rounds ih =>
      rw [loop, Round.enters, heard_cons]
      cases round.live with
      | false => rw [Bool.and_false, if_neg Bool.false_ne_true, if_neg Bool.false_ne_true,
          firstSample_nil, Option.or_none]
      | true =>
          rw [Bool.and_true, if_pos rfl, firstSample_append]
          by_cases hmissing : samples.length < topics.card
          · have hrecorded : Recorded topics (run (callback topics) samples round.events) :=
              run_invariant (fun _ event hs => hs.callback event) h _
            rw [if_pos (decide_eq_true hmissing), ih hrecorded, lookup_run htopic, Option.or_assoc]
          · have hsome := h.lookup_isSome (not_lt.mp hmissing) htopic
            rw [if_neg (by simpa using hmissing), Option.or_of_isSome hsome]

/-- The messages that the loop does not wait for make no difference. -/
theorem firstSample_delivered (htopic : topic ∈ topics) (rounds : List Round) :
    firstSample (delivered topics rounds []) topic = firstSample (heard rounds) topic := by
  have hrun := @lookup_run topics [] topic htopic (delivered topics rounds [])
  rw [← loop_eq_run, lookup_loop Recorded.nil htopic] at hrun
  exact hrun.symm

end

/-! ## Samples of a selection -/

/-- One sample for each topic that is selected and has a valid message, the first one, in the
order of the topics. -/
def FirstSamples (selects : String → Prop) (events : List Event) (samples : List Json) : Prop :=
  ∃ topics : List String, topics.SortedLT ∧
    (∀ topic, topic ∈ topics ↔ selects topic ∧ validOn topic events ≠ []) ∧
    samples.map some = topics.map (firstSample events)

theorem firstSample_isSome_iff {events : List Event} {topic : String} :
    (firstSample events topic).isSome = true ↔ validOn topic events ≠ [] := by
  rw [firstSample, Option.isSome_map, List.isSome_head?]

/-- What is appended for a set of topics. -/
theorem firstSamples_sort {selected : Finset String} {selects : String → Prop}
    {events : List Event} (h : ∀ topic, topic ∈ selected ↔ selects topic) :
    FirstSamples selects events
      ((selected.sort (· ≤ ·)).filterMap (firstSample events)) := by
  refine ⟨(selected.sort (· ≤ ·)).filter fun topic => (firstSample events topic).isSome, ?_, ?_, ?_⟩
  · exact ((Finset.sortedLT_sort selected).pairwise.filter _).sortedLT
  · intro topic
    rw [List.mem_filter, Finset.mem_sort, h, firstSample_isSome_iff]
  · rw [List.map_filterMap_some_eq_filter_map_isSome, List.filter_map]
    rfl

namespace FirstSamples

variable {selects selects' : String → Prop} {events events' : List Event}
  {samples samples' : List Json}

/-- **Samples are determined** by what is selected and by the first valid messages there. -/
theorem unique (h : FirstSamples selects events samples)
    (h' : FirstSamples selects' events' samples')
    (hselects : ∀ topic, selects topic ↔ selects' topic)
    (hfirst : ∀ topic, selects topic → firstSample events topic = firstSample events' topic) :
    samples = samples' := by
  obtain ⟨topics, hsorted, hmem, hsamples⟩ := h
  obtain ⟨topics', hsorted', hmem', hsamples'⟩ := h'
  have htopics : topics = topics' := by
    apply hsorted.eq_of_mem_iff hsorted'
    intro topic
    rw [hmem, hmem', ← hselects, ← firstSample_isSome_iff, ← firstSample_isSome_iff]
    exact and_congr_right fun hselected => by rw [hfirst topic hselected]
  subst htopics
  apply List.map_injective_iff.mpr (Option.some_injective Json)
  rw [hsamples, hsamples']
  exact List.map_congr_left fun topic htopic => hfirst topic ((hmem topic).mp htopic).1

end FirstSamples

/-! ## The snapshot -/

/-- A source is answered with its members and the samples of what it selects. -/
structure Answers (published : List Entry) (events : List Event) (source answered : Json) :
    Prop where
  kept : ∀ key ≠ "samples", answered.member key = source.member key
  samples : ∃ samples, answered.member "samples" = some (.array samples) ∧
    FirstSamples (Selects published source) events samples

/-- A request that passes every check, and the topics that its sources select. -/
structure Accepted (input : Bytes) (published : List Entry) (request : Json.Members)
    (selections : List (Finset String)) (topics : Finset String) : Prop where
  reads : readSnapshotRequest library input = .ok request
  selects : readSources library published (sourcesOf request) ∅ = .ok (selections, topics)

/-- The samples of the source at an index. -/
def samplesAt (result : Json.Members) (i : Nat) : Option Json :=
  (sourcesOf result)[i]?.bind (Json.member "samples")

section

variable {library} {input : Bytes} {published : List Entry} {request : Json.Members}
  {selections : List (Finset String)} {topics : Finset String}

theorem answer_congr {f g : String → Option Json} {selected : Finset String}
    (h : ∀ topic ∈ selected, f topic = g topic) : answer f selected = answer g selected := by
  funext source
  unfold answer
  rw [List.filterMap_congr fun topic htopic => h topic ((Finset.mem_sort _).mp htopic)]

/-- The members of a result whose samples come from a sequence of messages. -/
def resultOf (request : Json.Members) (selections : List (Finset String))
    (events : List Event) : Json.Members :=
  Json.set "sources"
    (.array (List.zipWith (answer (firstSample events)) selections (sourcesOf request))) request

/-- **An accepted request is answered** from any messages that agree with those up to the
deadline about the first samples. -/
theorem poseSnapshot_eq (h : Accepted library input published request selections topics)
    {course : Course} (hstopped : course.stopped = false) (hok : course.ok = true)
    {events : List Event}
    (hevents : ∀ topic ∈ topics,
      firstSample events topic = firstSample (heard course.rounds) topic) :
    poseSnapshot library input (.ok (some published)) course =
      .ok (.object (resultOf request selections events)) := by
  obtain ⟨-, hread⟩ := readSources_eq_ok h.selects
  have hanswers : List.zipWith (answer ((loop topics course.rounds []).lookup ·)) selections
      (sourcesOf request) =
        List.zipWith (answer (firstSample events)) selections (sourcesOf request) := by
    refine List.zipWith_congr _ _ _ _ (hread.flip.imp fun selected source hselected => ?_)
    refine congrFun (answer_congr fun topic htopic => ?_) source
    have hsubscribed := hselected.2 htopic
    exact (lookup_loop .nil hsubscribed course.rounds).trans (hevents topic hsubscribed).symm
  rw [poseSnapshot, h.reads, ok_bind, ok_bind]
  show (readSources library published (sourcesOf request) ∅ >>= _) = _
  rw [h.selects, ok_bind, resultOf, ← hanswers]
  simp [hstopped, hok]

theorem answer_answers {source : Json} {selected : Finset String}
    (h : readSource library published source = .ok selected) (events : List Event) :
    Answers published events source (answer (firstSample events) selected source) := by
  obtain ⟨⟨members, rfl⟩, hselected⟩ := readSource_eq_ok h
  exact {
    kept := fun key hkey => Json.find_set_of_ne hkey _ members
    samples := ⟨_, Json.find_set_self _ _ members, firstSamples_sort hselected⟩ }

theorem zipWith_answers {sources : List Json}
    (h : List.Forall₂ (fun source selected =>
      readSource library published source = .ok selected ∧ selected ⊆ topics) sources selections)
    (events : List Event) :
    List.Forall₂ (Answers published events) sources
      (List.zipWith (answer (firstSample events)) selections sources) := by
  induction h with
  | nil => exact .nil
  | cons hsource _ ih => exact .cons (answer_answers hsource.1 events) ih

/-- The sources of a result, in the order of the request. -/
theorem resultOf_answers (h : Accepted library input published request selections topics)
    (events : List Event) :
    List.Forall₂ (Answers published events) (sourcesOf request)
      (sourcesOf (resultOf request selections events)) := by
  have hanswers := zipWith_answers (readSources_eq_ok h.selects).2 events
  rw [sourcesOf.eq_1 (resultOf _ _ _), resultOf, Json.find_set_self]
  exact hanswers

/-- The samples at an index. -/
theorem samplesAt_eq {events : List Event} {result : Json.Members}
    (h : List.Forall₂ (Answers published events) (sourcesOf request) (sourcesOf result)) {i : Nat}
    {source : Json} (hsource : (sourcesOf request)[i]? = some source) :
    ∃ samples, samplesAt result i = some (.array samples) ∧
      FirstSamples (Selects published source) events samples := by
  obtain ⟨hi, rfl⟩ := List.getElem?_eq_some_iff.mp hsource
  have hanswer := h.get hi (h.length_eq ▸ hi)
  obtain ⟨samples, hsamples, hfirst⟩ := hanswer.samples
  refine ⟨samples, ?_, hfirst⟩
  rw [samplesAt, List.getElem?_eq_getElem (h.length_eq ▸ hi)]
  exact hsamples

/-- **A pose snapshot is determined by the first valid messages**: those that were delivered
answer each source, and neither the interleaving, nor invalid messages, nor the spelling of a
selection matter. -/
theorem pose_snapshot_first_valid
    (haccepted : Accepted library input published request selections topics) {course : Course}
    (hstopped : course.stopped = false) (hok : course.ok = true) :
    ∃ result, poseSnapshot library input (.ok (some published)) course = .ok (.object result) ∧
      (∀ key ≠ "sources", Json.find key result = Json.find key request) ∧
      List.Forall₂ (Answers published (delivered topics course.rounds [])) (sourcesOf request)
        (sourcesOf result) ∧
      (∀ other : Course, other.stopped = false → other.ok = true →
        (∀ topic, validOn topic (heard other.rounds) = validOn topic (heard course.rounds)) →
        poseSnapshot library input (.ok (some published)) other = .ok (.object result)) ∧
      ∀ input' published' request' selections' topics' (course' : Course),
        Accepted library input' published' request' selections' topics' →
        course'.stopped = false → course'.ok = true →
        (∀ topic, validOn topic (heard course'.rounds) = validOn topic (heard course.rounds)) →
        ∃ result', poseSnapshot library input' (.ok (some published')) course' =
            .ok (.object result') ∧
          ∀ i j source source', (sourcesOf request)[i]? = some source →
            (sourcesOf request')[j]? = some source' →
            (∀ topic, Selects published source topic ↔ Selects published' source' topic) →
            samplesAt result' j = samplesAt result i := by
  have hheard : ∀ rounds : List Round,
      (∀ topic, validOn topic (heard rounds) = validOn topic (heard course.rounds)) →
      firstSample (heard rounds) = firstSample (heard course.rounds) := by
    intro rounds hvalid
    funext topic
    rw [firstSample, hvalid, firstSample]
  have hresult := poseSnapshot_eq haccepted hstopped hok fun _ _ => rfl
  have hdelivered := poseSnapshot_eq haccepted hstopped hok fun topic htopic =>
    firstSample_delivered htopic course.rounds
  refine ⟨_, hdelivered, fun key hkey => Json.find_set_of_ne hkey _ _,
    resultOf_answers haccepted _, ?_, ?_⟩
  · intro other hstopped' hok' hvalid
    rw [← hdelivered, hresult]
    exact poseSnapshot_eq haccepted hstopped' hok' fun topic _ =>
      (congrFun (hheard _ hvalid) topic).symm
  · intro input' published' request' selections' topics' course' haccepted' hstopped' hok' hvalid
    have hresult' := poseSnapshot_eq haccepted' hstopped' hok' fun _ _ => rfl
    refine ⟨_, hresult', fun i j source source' hsource hsource' hselects => ?_⟩
    have heq := Json.object.inj (Except.ok.inj (hdelivered.symm.trans hresult))
    rw [heq]
    obtain ⟨samples, hsamples, hfirst⟩ := samplesAt_eq (resultOf_answers haccepted _) hsource
    obtain ⟨samples', hsamples', hfirst'⟩ := samplesAt_eq (resultOf_answers haccepted' _) hsource'
    rw [hsamples, hsamples', hfirst.unique hfirst' hselects fun topic _ =>
      (congrFun (hheard _ hvalid) topic).symm]

/-- A source with a root and an exact topic. -/
def sampleSource : Json :=
  .object [("instanceId", .string "uav1"), ("roots", .array [.string "/mocap"]),
    ("topics", .array [.string "/pose"])]

def sampleRequest : Json.Members :=
  [("experimentCommitId", .string "c1"), ("sessionId", .string "s1"),
    ("sources", .array [sampleSource])]

def sampleInput : Bytes := Bytes.ofText <|
  "\x7b\"experimentCommitId\":\"c1\",\"sessionId\":\"s1\",\"sources\":[" ++
    "\x7b\"instanceId\":\"uav1\",\"roots\":[\"/mocap\"],\"topics\":[\"/pose\"]\x7d]\x7d"

/-- A reader that knows the text of the request. -/
def sampleLibrary : Library where
  parse input := if input = sampleInput then some (.object sampleRequest) else none
  namesValidate _ := true

/-- A message at the origin with the scalar part of its orientation. -/
def samplePose (w : Int) : Event where
  topic := "/mocap/uav1"
  dataType := poseType
  translated := some ⟨"map", ⟨2, 0⟩, (.ofInt _ 0, .ofInt _ 0, .ofInt _ 0),
    (.ofInt _ 0, .ofInt _ 0, .ofInt _ 0, .ofInt _ w)⟩
  observed := ⟨5, 0⟩

/-- A zero quaternion before a valid message. -/
def sampleCourse : Course where
  rounds := [⟨true, false, [samplePose 0]⟩, ⟨true, false, [samplePose 1]⟩]
  stopped := false
  ok := true

theorem validOn_samplePose (topic : String) :
    validOn topic [samplePose 0, samplePose 1] =
      if topic = "/mocap/uav1" then [samplePose 1] else [] := by
  have hzero : ¬(samplePose 0).Valid := by decide +kernel
  have hone : (samplePose 1).Valid := by decide +kernel
  have htopic : ∀ w, (samplePose w).topic = "/mocap/uav1" := fun _ => rfl
  by_cases h : topic = "/mocap/uav1" <;>
    simp [validOn, List.filter, hzero, hone, htopic, h, eq_comm (b := topic)]

theorem pose_snapshot_first_valid_mocap :
    ∃ result, poseSnapshot sampleLibrary sampleInput
        (.ok (some [some ("/mocap/uav1", poseType)])) sampleCourse = .ok (.object result) ∧
      samplesAt result 0 = some (.array [(samplePose 1).record]) := by
  have hparse : sampleLibrary.parse sampleInput = some (.object sampleRequest) := by
    simp only [sampleLibrary, if_true]
  have haccepted : Accepted sampleLibrary sampleInput [some ("/mocap/uav1", poseType)]
      sampleRequest [{"/mocap/uav1", "/pose"}] {"/mocap/uav1", "/pose"} := by
    refine ⟨?_, rfl⟩
    rw [readSnapshotRequest, hparse, if_neg (by decide +kernel)]
    rfl
  have hselects : ∀ topic, topic ∈ ({"/mocap/uav1", "/pose"} : Finset String) ↔
      Selects [some ("/mocap/uav1", poseType)] sampleSource topic :=
    (readSource_eq_ok (show readSource sampleLibrary _ _ = .ok _ from rfl)).2
  have hfirst : FirstSamples (Selects [some ("/mocap/uav1", poseType)] sampleSource)
      (heard sampleCourse.rounds) [(samplePose 1).record] := by
    refine ⟨["/mocap/uav1"], (List.pairwise_singleton _ _).sortedLT, fun topic => ?_, ?_⟩
    · rw [← hselects]
      show _ ↔ _ ∧ validOn topic [samplePose 0, samplePose 1] ≠ []
      rw [validOn_samplePose]
      by_cases h : topic = "/mocap/uav1" <;> simp [h]
    · show [some _] = [firstSample [samplePose 0, samplePose 1] _]
      rw [firstSample, validOn_samplePose, if_pos rfl]
      rfl
  obtain ⟨result, hresult, -, hanswers, -⟩ :=
    pose_snapshot_first_valid haccepted (show sampleCourse.stopped = false from rfl) rfl
  obtain ⟨samples, hsamples, hanswered⟩ :=
    samplesAt_eq hanswers (show (sourcesOf sampleRequest)[0]? = some sampleSource from rfl)
  refine ⟨result, hresult, ?_⟩
  rw [hsamples, hanswered.unique hfirst (fun _ => Iff.rfl) fun topic htopic =>
    firstSample_delivered ((hselects topic).mpr htopic) _]

end

end Ros1Tools.Probe
