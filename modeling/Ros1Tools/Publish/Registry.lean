import Mathlib.Data.List.AList
import Mathlib.Logic.Function.Basic
import Ros1Tools.Error

/-!
# The publisher registry

The mutex-protected state of `PublisherRegistry` and the functions that run under
the mutex.  An entry is shared: the map holds a `shared_ptr` to it and so does
every call that has leased it, and it outlives its place in the map for as long
as a call holds on to it.  Entries are therefore kept in a heap that only grows,
and the map and the calls refer to them by number, which is the identity that
`iterator->second == entry` compares.

Two histories are kept along with the state and read by none of the functions:
the positive master generations in the order in which they reached the lock, and
the topics whose current entry a dispatch has been committed on.
-/

namespace Ros1Tools.Publish

/-- The fields of `PublishRequest` that the registry reads.  The deadline, the
cancellation callback and the pacing interval are answers of the environment. -/
structure PublishRequest where
  topic : String
  messageType : String
  publishCount : UInt32
  latch : Bool
  queueSize : UInt32
  waitForSubscribersMs : UInt32
deriving DecidableEq

/-- A `ros::Publisher`: what it was advertised as, and whether the handle is
valid. -/
structure Publisher where
  topic : String
  messageType : String
  queueSize : UInt32
  latch : Bool
  valid : Bool
deriving DecidableEq

/-- The publisher was advertised with exactly the topic, type, queue size and latch
of the request. -/
def Publisher.For (p : Publisher) (request : PublishRequest) : Prop :=
  p.topic = request.topic ∧ p.messageType = request.messageType ∧
    p.queueSize = request.queueSize ∧ p.latch = request.latch

/-- `PublisherRegistry::Entry`. -/
structure Entry where
  messageType : String
  latch : Bool
  queueSize : UInt32
  publisher : Publisher
  activeCalls : Nat
  nativeDispatchCommitted : Bool

/-- The identity of an entry. -/
abbrev EntryId := Nat

structure Registry where
  heap : EntryId → Entry
  /-- How many entries have been made; the next one gets this number. -/
  made : Nat
  /-- `entries_`. -/
  entries : AList fun _ : String => EntryId
  /-- `master_generation_`. -/
  masterGeneration : Int
  /-- The positive generations that have reached the lock. -/
  arrivals : List Int
  /-- The topics whose current entry a dispatch has been committed on. -/
  dispatched : List String

/-- The entry and the handle a call takes out of the locked section. -/
structure Lease where
  entry : EntryId
  publisher : Publisher

namespace Registry

/-- The registry as constructed. -/
def init : Registry where
  heap := fun _ => ⟨"", false, 0, ⟨"", "", 0, false, false⟩, 0, false⟩
  made := 0
  entries := ∅
  masterGeneration := 0
  arrivals := []
  dispatched := []

/-- `entries_.size()`. -/
def size (r : Registry) : Nat := r.entries.keys.length

/-- The map is emptied, by `clear` or by the swap of a generation change. -/
def clear (r : Registry) : Registry := { r with entries := ∅, dispatched := [] }

/-- The locked part of `refreshMasterGeneration`, for a positive `current`. -/
def refreshMasterGeneration (r : Registry) (current : Int) : Except Exn Unit × Registry :=
  let r := { r with arrivals := r.arrivals ++ [current] }
  if r.masterGeneration = 0 then (.ok (), { r with masterGeneration := current })
  else if r.masterGeneration ≠ current then
    (.error (transientError "ros_master_generation_changed"
      ("ROS1 master process generation changed; this Adapter process is " ++
        "bound to the previous master and must be recycled")), r.clear)
  else (.ok (), r)

inductive MasterBindingState where
  | unbound
  | bound
  | changed
  | unavailable
deriving DecidableEq, Repr

/-- The locked part of `probeMasterBinding`; `none` if the provider threw. -/
def probeMasterBinding (r : Registry) : Option Int → MasterBindingState × Registry
  | none => (if r.masterGeneration = 0 then .unbound else .unavailable, r)
  | some current =>
      if current ≤ 0 then (if r.masterGeneration = 0 then .unbound else .unavailable, r)
      else
        let r := { r with arrivals := r.arrivals ++ [current] }
        if r.masterGeneration = 0 then (.bound, { r with masterGeneration := current })
        else if r.masterGeneration ≠ current then (.changed, r)
        else (.bound, r)

/-- `entries_.emplace` of a new entry. -/
def emplace (r : Registry) (topic : String) (entry : Entry) : Registry :=
  { r with
    heap := Function.update r.heap r.made entry
    made := r.made + 1
    entries := r.entries.insert topic r.made }

/-- `++entry->active_calls`. -/
def retain (r : Registry) (id : EntryId) : Registry :=
  { r with
    heap := Function.update r.heap id
      { r.heap id with activeCalls := (r.heap id).activeCalls + 1 } }

/-- The locked part of `publish`: finds or makes the entry of the topic and leases
it.  `advertise` is what `types_.advertise` answers, if it is called. -/
def acquire (maximumPublishers : Nat) (request : PublishRequest) (advertise : Except Exn Bool)
    (r : Registry) : Except Exn Lease × Registry :=
  match r.entries.lookup request.topic with
  | none =>
      if r.size ≥ maximumPublishers then
        (.error (resourceExhaustedError "publisher_capacity_exhausted"
          ("maximum cached ROS1 publishers reached; replace or stop the " ++
            "Adapter instance before publishing another topic")), r)
      else
        match advertise with
        | .error e => (.error e, r)
        | .ok valid =>
            let publisher : Publisher :=
              ⟨request.topic, request.messageType, request.queueSize, request.latch, valid⟩
            let entry : Entry :=
              ⟨request.messageType, request.latch, request.queueSize, publisher, 1, false⟩
            (.ok ⟨r.made, publisher⟩, r.emplace request.topic entry)
  | some id =>
      let entry := r.heap id
      if entry.messageType ≠ request.messageType ∨ entry.latch ≠ request.latch ∨
          entry.queueSize ≠ request.queueSize then
        (.error (permanentError "publisher_configuration_conflict"
          ("topic '" ++ request.topic ++
            "' is already cached with a different type, latch, or queueSize")), r)
      else
        (.ok ⟨id, entry.publisher⟩, r.retain id)

/-- What `release` leaves of an entry. -/
def released (entry : Entry) (committed : Bool) : Entry :=
  { entry with
    activeCalls := if entry.activeCalls > 0 then entry.activeCalls - 1 else entry.activeCalls
    nativeDispatchCommitted := entry.nativeDispatchCommitted || committed }

/-- `release`. -/
def release (topic : String) (id : EntryId) (committed : Bool) (r : Registry) : Registry :=
  let entry := released (r.heap id) committed
  { r with
    heap := Function.update r.heap id entry
    entries :=
      if r.entries.lookup topic = some id ∧ entry.activeCalls = 0 ∧
          entry.nativeDispatchCommitted = false then
        r.entries.erase topic
      else r.entries
    dispatched :=
      if committed = true ∧ r.entries.lookup topic = some id then r.dispatched ++ [topic]
      else r.dispatched }

/-! ## The heap after each function -/

variable {r : Registry} {id : EntryId}

@[simp] theorem heap_emplace_self (topic : String) (entry : Entry) :
    (r.emplace topic entry).heap r.made = entry := Function.update_self _ _ _

theorem heap_emplace_of_ne (h : id ≠ r.made) (topic : String) (entry : Entry) :
    (r.emplace topic entry).heap id = r.heap id := Function.update_of_ne h _ _

@[simp] theorem heap_retain_self :
    (r.retain id).heap id = { r.heap id with activeCalls := (r.heap id).activeCalls + 1 } :=
  Function.update_self _ _ _

theorem heap_retain_of_ne {other : EntryId} (h : other ≠ id) :
    (r.retain id).heap other = r.heap other := Function.update_of_ne h _ _

@[simp] theorem heap_release_self (topic : String) (committed : Bool) :
    (r.release topic id committed).heap id = released (r.heap id) committed :=
  Function.update_self _ _ _

theorem heap_release_of_ne {other : EntryId} (h : other ≠ id) (topic : String)
    (committed : Bool) : (r.release topic id committed).heap other = r.heap other :=
  Function.update_of_ne h _ _

end Registry

end Ros1Tools.Publish
