import Ros1Tools.Publish.Registry

/-!
# One publish operation

`ToolsAdapter::Publish` around `PublisherRegistry::publish`, as a program counter
with its live locals.  A step runs from one interaction with the outside to the
next: a look at the clock and the cancellation flag, a call into roscpp or
ros_babel_fish, or a section under the registry's mutex, which is one step of its
own.  Everything the outside answers is read from a `CallEnv`, and the registry is
an argument, so that a step can be taken in any state of either.

A step also returns the events that happened in it.  They are appended to the
call's log and read by nothing.
-/

namespace Ros1Tools.Publish

/-! ## Checks -/

/-- What a look at the cancellation flag and the deadline finds, in that order. -/
inductive Check where
  | passed
  | cancelled
  | expired
deriving DecidableEq, Repr

/-- The answers one step may ask for. -/
structure CallEnv where
  cancellationRequested : Bool
  deadlineExpired : Bool
  /-- `master_generation_provider_()`. -/
  generation : Except Exn Int
  /-- The message is made, decoded and serialized: the size of what `serialize`
  returned, if it is not null. -/
  serialized : Except Exn (Option Nat)
  /-- `types_.advertise`: whether the handle is valid. -/
  advertise : Except Exn Bool
  getNumSubscribers : Except Foreign UInt32
  rosOk : Bool
  /-- `waitForSubscribersMs` have elapsed. -/
  waitElapsed : Bool
  /-- The time of the next publish has come. -/
  paced : Bool
  /-- `publisher.publish`. -/
  publish : Except Foreign Unit
  maximumResponseBytes : Nat
  /-- The length of what `writeJson` returns for the result object. -/
  writeJson : Json → Except Foreign Nat

def CallEnv.check (env : CallEnv) : Check :=
  if env.cancellationRequested then .cancelled
  else if env.deadlineExpired then .expired
  else .passed

/-- `requireDispatchAllowed`. -/
def requireDispatchAllowed : Check → Except Exn Unit
  | .passed => .ok ()
  | .cancelled => .error (cancelledError "publish_cancelled"
      "ROS1 topic publish was cancelled before dispatch")
  | .expired => .error (deadlineError "publish_deadline_elapsed"
      "ROS1 topic publish deadline elapsed before dispatch")

/-- `requireContinuationAllowed`. -/
def requireContinuationAllowed : Check → Except Exn Unit
  | .passed => .ok ()
  | .cancelled => .error (uncertainError "publish_cancelled_after_dispatch"
      "ROS1 topic publish was cancelled after native dispatch")
  | .expired => .error (uncertainError "publish_deadline_after_dispatch"
      "ROS1 topic publish crossed its deadline after native dispatch")

/-! ## Results -/

structure PublishResult where
  topic : String
  messageType : String
  serializedBytes : UInt32
  publishedCount : UInt32
  subscriberCount : UInt32

/-- The result object of `Publish`. -/
def PublishResult.toJson (published : PublishResult) : Json :=
  .ofMembers [("event", .string "published"), ("topic", .string published.topic),
    ("messageType", .string published.messageType),
    ("serializedBytes", .uint published.serializedBytes.toUInt64),
    ("publishedCount", .uint published.publishedCount.toUInt64),
    ("subscriberCount", .uint published.subscriberCount.toUInt64)]

/-- The handlers of `publish` for what is thrown after the lease was released. -/
def completionCatch : Exn → Exn
  | .tools e => .tools e
  | .foreign (.std what) => uncertainError "publish_completion_failed"
      ("ROS1 topic publish committed but completion failed: " ++ what)
  | .foreign .other => uncertainError "publish_completion_failed"
      "ROS1 topic publish committed but completion failed"

/-- The handlers around `publisher.publish`. -/
def dispatchCatch : Foreign → Exn
  | .std what => uncertainError "publish_dispatch_failed"
      ("ROS1 topic publish may have been dispatched: " ++ what)
  | .other => uncertainError "publish_dispatch_failed"
      "ROS1 topic publish may have been dispatched"

/-! ## The program counter -/

/-- Between the lease and its release. -/
inductive Held where
  /-- The handle is checked. -/
  | handle
  /-- In the loop that waits for subscribers. -/
  | waiting
  /-- Behind that loop. -/
  | waited
  /-- `ros::ok()` is checked and the result is prepared. -/
  | alive
  /-- The last check in front of the commit. -/
  | last (result : PublishResult)

/-- Inside one round of the dispatch loop. -/
inductive Round where
  | head
  /-- In `waitUntil`. -/
  | pace
  | alive
  | check
  | native
  /-- Behind the native call, with the count already incremented. -/
  | after

inductive Pc where
  /-- `Publish` reads `publish_enabled_`. -/
  | enter
  /-- `Publish` checks the invocation and its input. -/
  | invocation
  /-- The first dispatch check. -/
  | check
  /-- `refreshMasterGeneration` asks the provider. -/
  | provider
  /-- `refreshMasterGeneration` takes the lock. -/
  | refresh (current : Int)
  /-- The message is made and serialized. -/
  | message
  /-- `publish` takes the lock. -/
  | acquire (serializedBytes : Nat)
  | held (serializedBytes : Nat) (lease : Lease) (stage : Held)
  /-- An exception before the commit: the lease is released and it is rethrown. -/
  | abort (lease : Lease) (e : Exn)
  /-- The lease is released as committed. -/
  | commit (lease : Lease) (result : PublishResult)
  | dispatch (publisher : Publisher) (result : PublishResult) (index : Nat) (round : Round)
  | complete (publisher : Publisher) (result : PublishResult)
  /-- `publish` has returned and its result is encoded. -/
  | encode (result : PublishResult)
  | reported (result : OperationResult)
  /-- `Publish` was left by an exception it does not catch. -/
  | escaped

inductive Event where
  | check (found : Check)
  /-- The provider returned a generation. -/
  | obtained (generation : Int)
  | acquired (entry : EntryId)
  | released (entry : EntryId) (committed : Bool)
  /-- `publisher.publish` is entered. -/
  | native (publisher : Publisher)

/-- What a step leads to. -/
structure Outcome where
  pc : Pc
  events : List Event
  registry : Registry

namespace Pc

/-- An exception leaves `publish` and reaches the outermost handler. -/
def fail (e : Exn) : Pc :=
  match failure e with
  | some result => .reported result
  | none => .escaped

/-- A step between the lease and its release. -/
def stepHeld (request : PublishRequest) (env : CallEnv) (serializedBytes : Nat) (lease : Lease) :
    Held → Pc × List Event
  | .handle =>
      if !lease.publisher.valid then
        (.abort lease (transientError "publisher_unavailable"
          ("ROS1 publisher is not available for topic '" ++ request.topic ++ "'")), [])
      else if request.waitForSubscribersMs > 0 then (.held serializedBytes lease .waiting, [])
      else (.held serializedBytes lease .alive, [])
  | .waiting =>
      match env.getNumSubscribers with
      | .error e => (.abort lease (.foreign e), [])
      | .ok count =>
          if count = 0 ∧ env.rosOk = true ∧ env.waitElapsed = false then
            match requireDispatchAllowed env.check with
            | .error e => (.abort lease e, [.check env.check])
            | .ok () => (.held serializedBytes lease .waiting, [.check env.check])
          else (.held serializedBytes lease .waited, [])
  | .waited =>
      match requireDispatchAllowed env.check with
      | .error e => (.abort lease e, [.check env.check])
      | .ok () =>
          match env.getNumSubscribers with
          | .error e => (.abort lease (.foreign e), [.check env.check])
          | .ok count =>
              if count = 0 then
                (.abort lease (transientError "subscriber_wait_timeout"
                  ("no subscriber connected to topic '" ++ request.topic ++
                    "' before waitForSubscribersMs elapsed")), [.check env.check])
              else (.held serializedBytes lease .alive, [.check env.check])
  | .alive =>
      if !env.rosOk then
        (.abort lease (transientError "ros_shutdown"
          "ROS1 is shutting down before the message can be published"), [])
      else
        match env.getNumSubscribers with
        | .error e => (.abort lease (.foreign e), [])
        | .ok count =>
            (.held serializedBytes lease (.last
              ⟨request.topic, request.messageType, .ofNat serializedBytes, 0, count⟩), [])
  | .last result =>
      match requireDispatchAllowed env.check with
      | .error e => (.abort lease e, [.check env.check])
      | .ok () => (.commit lease result, [.check env.check])

/-- A step inside the dispatch loop. -/
def stepDispatch (request : PublishRequest) (env : CallEnv) (publisher : Publisher)
    (result : PublishResult) (index : Nat) : Round → Pc × List Event
  | .head =>
      if index < request.publishCount.toNat then
        (.dispatch publisher result index (if index > 0 then .pace else .alive), [])
      else (.complete publisher result, [])
  | .pace =>
      if env.paced then (.dispatch publisher result index .alive, [])
      else
        match requireContinuationAllowed env.check with
        | .error e => (fail (completionCatch e), [.check env.check])
        | .ok () => (.dispatch publisher result index .pace, [.check env.check])
  | .alive =>
      if !env.rosOk then
        (fail (completionCatch (uncertainError "ros_shutdown_after_dispatch"
          "ROS1 shut down after one or more messages may have been published")), [])
      else (.dispatch publisher result index .check, [])
  | .check =>
      match requireContinuationAllowed env.check with
      | .error e => (fail (completionCatch e), [.check env.check])
      | .ok () => (.dispatch publisher result index .native, [.check env.check])
  | .native =>
      match env.publish with
      | .error e => (fail (completionCatch (dispatchCatch e)), [.native publisher])
      | .ok () =>
          (.dispatch publisher { result with publishedCount := result.publishedCount + 1 } index
            .after, [.native publisher])
  | .after =>
      match requireContinuationAllowed env.check with
      | .error e => (fail (completionCatch e), [.check env.check])
      | .ok () => (.dispatch publisher result (index + 1) .head, [.check env.check])

/-- A step of an admitted operation behind its admission. -/
def step (maximumPublishers : Nat) (request : PublishRequest) (env : CallEnv) (r : Registry) :
    Pc → Outcome
  | .enter => ⟨.enter, [], r⟩
  | .invocation => ⟨.invocation, [], r⟩
  | .check =>
      match requireDispatchAllowed env.check with
      | .error e => ⟨fail e, [.check env.check], r⟩
      | .ok () => ⟨.provider, [.check env.check], r⟩
  | .provider =>
      match env.generation with
      | .error e => ⟨fail e, [], r⟩
      | .ok current =>
          if current ≤ 0 then
            ⟨fail (transientError "ros_master_generation_unavailable"
              "ROS1 master process generation is invalid"), [.obtained current], r⟩
          else ⟨.refresh current, [.obtained current], r⟩
  | .refresh current =>
      match r.refreshMasterGeneration current with
      | (.error e, r) => ⟨fail e, [], r⟩
      | (.ok (), r) => ⟨.message, [], r⟩
  | .message =>
      match env.serialized with
      | .error e => ⟨fail e, [], r⟩
      | .ok none => ⟨fail (permanentError "message_serialization_failed"
          "dynamic ROS1 serializer returned no message"), [], r⟩
      | .ok (some serializedBytes) => ⟨.acquire serializedBytes, [], r⟩
  | .acquire serializedBytes =>
      match r.acquire maximumPublishers request env.advertise with
      | (.error e, r) => ⟨fail e, [], r⟩
      | (.ok lease, r) => ⟨.held serializedBytes lease .handle, [.acquired lease.entry], r⟩
  | .held serializedBytes lease stage =>
      let next := stepHeld request env serializedBytes lease stage
      ⟨next.1, next.2, r⟩
  | .abort lease e =>
      ⟨fail e, [.released lease.entry false], r.release request.topic lease.entry false⟩
  | .commit lease result =>
      ⟨.dispatch lease.publisher result 0 .head, [.released lease.entry true],
        r.release request.topic lease.entry true⟩
  | .dispatch publisher result index round =>
      let next := stepDispatch request env publisher result index round
      ⟨next.1, next.2, r⟩
  | .complete _ result =>
      match env.getNumSubscribers with
      | .error e => ⟨fail (completionCatch (.foreign e)), [], r⟩
      | .ok count => ⟨.encode { result with subscriberCount := count }, [], r⟩
  | .encode result =>
      match encodeResult "publish_result_encoding_failed"
          "ROS1 message was published but its result could not be encoded"
          env.maximumResponseBytes result.toJson (env.writeJson result.toJson) with
      | .error e => ⟨fail e, [], r⟩
      | .ok value => ⟨.reported (.success value), [], r⟩
  | .reported result => ⟨.reported result, [], r⟩
  | .escaped => ⟨.escaped, [], r⟩

end Pc

/-- An operation: what the checks of `Publish` on its invocation come to, where it
is, and what has happened in it. -/
structure Call where
  admission : Except Exn PublishRequest
  pc : Pc
  log : List Event

namespace Call

/-- An operation that is about to start. -/
def init (admission : Except Exn PublishRequest) : Call := ⟨admission, .enter, []⟩

/-- One step of an operation, with the value of `publish_enabled_` and the
registry. -/
def step (maximumPublishers : Nat) (env : CallEnv) (enabled : Bool) (r : Registry) (c : Call) :
    Call × Registry :=
  match c.pc with
  | .enter =>
      if !enabled then
        ({ c with pc := .fail (rejectedError "publish_capability_disabled"
            "ROS1 topic publish capability is not active") }, r)
      else ({ c with pc := .invocation }, r)
  | .invocation =>
      match c.admission with
      | .error e => ({ c with pc := .fail e }, r)
      | .ok _ => ({ c with pc := .check }, r)
  | pc =>
      match c.admission with
      | .error _ => (c, r)
      | .ok request =>
          let next := pc.step maximumPublishers request env r
          ({ c with pc := next.pc, log := c.log ++ next.events }, next.registry)

end Call

/-! ## Logs -/

def Event.isNative : Event → Bool
  | .native _ => true
  | _ => false

def Event.acquired? : Event → Option EntryId
  | .acquired id => some id
  | _ => none

def Event.released? : Event → Option (EntryId × Bool)
  | .released id committed => some (id, committed)
  | _ => none

def Event.obtained? : Event → Option Int
  | .obtained generation => some generation
  | _ => none

/-- How often `publisher.publish` was entered. -/
def natives (log : List Event) : Nat := log.countP Event.isNative

/-- The leases taken. -/
def acquisitions (log : List Event) : List EntryId := log.filterMap Event.acquired?

/-- The leases released, and whether as committed. -/
def releases (log : List Event) : List (EntryId × Bool) := log.filterMap Event.released?

/-- The generations the provider returned. -/
def generations (log : List Event) : List Int := log.filterMap Event.obtained?

@[simp] theorem natives_append (a b : List Event) : natives (a ++ b) = natives a + natives b :=
  List.countP_append

@[simp] theorem acquisitions_append (a b : List Event) :
    acquisitions (a ++ b) = acquisitions a ++ acquisitions b := List.filterMap_append

@[simp] theorem releases_append (a b : List Event) :
    releases (a ++ b) = releases a ++ releases b := List.filterMap_append

@[simp] theorem generations_append (a b : List Event) :
    generations (a ++ b) = generations a ++ generations b := List.filterMap_append

end Ros1Tools.Publish
