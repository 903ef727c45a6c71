import Ros1Tools.Clock.Target
import Ros1Tools.Lib.Run

/-!
# Waiting for the clock

The tool subscribes to a clock and waits for the first stamp at or after its target.  What has
happened so far is kept in the waiter's previous stamp and in three variables that the callback
sets, which may be left by an exception halfway.

The callback is a step, and a history of messages a run.  The invariant `Waiting` says that
none of the messages so far decided anything and that the previous stamp is that of the last
of them; the message that ends it decides the outcome, and nothing changes after it.
-/

namespace Ros1Tools.Clock

open Lib

/-- `ros::Time`. -/
structure Stamp where
  sec : UInt32
  nsec : UInt32
deriving DecidableEq

/-- The nanoseconds of a stamp. -/
def stampNanos (stamp : Stamp) : Arith (Word .uint64) := do
  let scaled ← Arith.mul (.wrap _ stamp.sec.toNat) 1000000000
  Arith.add scaled (.wrap _ stamp.nsec.toNat)

structure ClockWait where
  target : Word .uint64
  previous : Word .uint64 := 0
  observed : Bool := false

/-- `ClockWait::observe`, and the waiter after it. -/
def ClockWait.observe (wait : ClockWait) (stamp : Stamp) : Except String Bool × ClockWait :=
  if 1000000000 ≤ stamp.nsec.toNat then (.error "invalid clock nanoseconds", wait)
  else
    let nanos := (stampNanos stamp).value
    if wait.observed ∧ nanos < wait.previous then
      (.error "simulation clock moved backwards", wait)
    else
      (.ok (decide (wait.target ≤ nanos)), { wait with previous := nanos, observed := true })

/-- The variables of `main` that the callback refers to. -/
structure Waiter where
  wait : ClockWait
  reached : Bool := false
  failure : String := ""
  stamp : Stamp := ⟨0, 0⟩

/-- A message, and whether the deadline has passed when it is delivered. -/
structure Delivery where
  stamp : Stamp
  expired : Bool

namespace Waiter

/-- The callback of the subscription. -/
def callback (waiter : Waiter) (message : Delivery) : Waiter :=
  if waiter.reached || waiter.failure != "" then waiter
  else if message.expired then { waiter with failure := "simulation wait timed out" }
  else
    match waiter.wait.observe message.stamp with
    | (.ok reached, wait) => { waiter with wait, reached, stamp := message.stamp }
    | (.error failure, wait) => { waiter with wait, failure }

end Waiter

/-! ## The main loop -/

/-- What the outside answers in one round of the loop. -/
structure Round where
  /-- The flag of the signal handler, and `ros::ok()`, at the head of the loop. -/
  stopRequested : Bool
  ok : Bool
  /-- Whether either says to stop after the publishers are counted. -/
  interrupted : Bool
  publishers : Nat
  expired : Bool
  messages : List Delivery

/-- How the tool ends. -/
inductive Exit where
  /-- Exit status 130. -/
  | interrupted
  /-- Exit status 1, with a message. -/
  | failed (message : String)
  /-- Exit status 0, with the stamp on the standard output. -/
  | reached (stamp : Stamp)
deriving DecidableEq

/-- What follows the loop. -/
def Waiter.finish (waiter : Waiter) (round : Round) : Exit :=
  if round.stopRequested then .interrupted
  else if waiter.failure != "" then .failed waiter.failure
  else if !waiter.reached then .interrupted
  else if 1 < round.publishers then .failed "clock must have exactly one publisher"
  else .reached waiter.stamp

/-- The loop, on the answers of its rounds in order; `none` if they end before it does. -/
def Waiter.loop (waiter : Waiter) : List Round → Option Exit
  | [] => none
  | round :: rounds =>
      if !round.stopRequested && round.ok && !waiter.reached && waiter.failure == "" then
        if round.interrupted then some .interrupted
        else if 1 < round.publishers then some (.failed "clock must have exactly one publisher")
        else if waiter.wait.observed && round.publishers == 0 then
          some (.failed "clock publisher disconnected")
        else if round.expired then some (.failed "simulation wait timed out")
        else (run Waiter.callback waiter round.messages).loop rounds
      else some (waiter.finish round)

/-! ## Stamps -/

namespace Stamp

/-- The time of a stamp, in seconds. -/
def seconds (stamp : Stamp) : ℚ := stamp.sec.toNat + stamp.nsec.toNat / 10 ^ 9

/-- A stamp whose nanoseconds are less than a second. -/
def Valid (stamp : Stamp) : Prop := stamp.nsec.toNat < 1000000000

/-- The lexicographic order. -/
def Before (stamp later : Stamp) : Prop :=
  stamp.sec < later.sec ∨ stamp.sec = later.sec ∧ stamp.nsec < later.nsec

instance instDecidableValid (stamp : Stamp) : Decidable stamp.Valid :=
  inferInstanceAs (Decidable (_ < _))

instance instDecidableBefore (stamp later : Stamp) : Decidable (stamp.Before later) :=
  inferInstanceAs (Decidable (_ ∨ _))

/-- The 64-bit nanoseconds are exact. -/
theorem nanos_exact (stamp : Stamp) :
    ∃ w, stampNanos stamp = pure w ∧
      w.val = (stamp.sec.toNat * 10 ^ 9 + stamp.nsec.toNat : Nat) := by
  have hsec := stamp.sec.toNat_lt
  have hnsec := stamp.nsec.toNat_lt
  have hwrap : ∀ n : Nat, n < 2 ^ 32 → (Word.wrap .uint64 n).val = n := fun n hn =>
    Word.wrap_val (Int.natCast_nonneg n) (by rw [Range.uint64_hi]; omega)
  obtain ⟨scaled, hscaled, hs⟩ := mul_eq_pure (hwrap _ hsec) (b := 1000000000) (n := 10 ^ 9)
    (by decide) (by omega)
  obtain ⟨w, hw, hval⟩ := add_eq_pure hs (hwrap _ hnsec) (by omega)
  exact ⟨w, by rw [stampNanos, hscaled, pure_bind, hw], hval⟩

theorem nanos_val (stamp : Stamp) :
    (stampNanos stamp).value.val = (stamp.sec.toNat * 10 ^ 9 + stamp.nsec.toNat : Nat) := by
  obtain ⟨w, hw, hval⟩ := stamp.nanos_exact
  rw [hw]
  exact hval

/-- The order of the nanoseconds is the lexicographic one. -/
theorem nanos_lt_iff {stamp later : Stamp} (h : stamp.Valid) (hlater : later.Valid) :
    (stampNanos stamp).value < (stampNanos later).value ↔ stamp.Before later := by
  unfold Valid at h hlater
  rw [Word.lt_iff, nanos_val, nanos_val, Int.ofNat_lt, Before, UInt32.lt_iff_toNat_lt,
    UInt32.lt_iff_toNat_lt, ← UInt32.toNat_inj]
  omega

/-- **The 64-bit comparison with a target is the comparison of the times.** -/
theorem target_le_iff {text : String} {target : Word .uint64} (h : clockTarget text = pure target)
    (stamp : Stamp) :
    target ≤ (stampNanos stamp).value ↔ decimalSeconds text.toList ≤ stamp.seconds := by
  have hpos : (0 : ℚ) < 10 ^ 9 := by positivity
  have hscaled : stamp.seconds * 10 ^ 9 =
      ((stamp.sec.toNat * 10 ^ 9 + stamp.nsec.toNat : Nat) : Int) := by
    rw [seconds, add_mul, div_mul_cancel₀ _ hpos.ne']
    push_cast
    rfl
  rw [Word.le_iff, clockTarget_val h, nanos_val, Int.ceil_le, ← hscaled,
    mul_le_mul_iff_left₀ hpos]

end Stamp

namespace ClockWait

variable {wait : ClockWait} {stamp : Stamp}

theorem observe_invalid (h : ¬stamp.Valid) :
    wait.observe stamp = (.error "invalid clock nanoseconds", wait) := if_pos (not_lt.mp h)

theorem observe_back (hvalid : stamp.Valid)
    (h : wait.observed = true ∧ (stampNanos stamp).value < wait.previous) :
    wait.observe stamp = (.error "simulation clock moved backwards", wait) :=
  (if_neg (not_le.mpr hvalid)).trans (if_pos h)

theorem observe_ok (hvalid : stamp.Valid)
    (h : ¬(wait.observed = true ∧ (stampNanos stamp).value < wait.previous)) :
    wait.observe stamp = (.ok (decide (wait.target ≤ (stampNanos stamp).value)),
      { wait with previous := (stampNanos stamp).value, observed := true }) :=
  (if_neg (not_le.mpr hvalid)).trans (if_neg h)

end ClockWait

/-! ## The first message that decides -/

/-- A stamp that is earlier than the last one. -/
def MovesBack (seen : List Stamp) (stamp : Stamp) : Prop :=
  ∃ last ∈ seen.getLast?, stamp.Before last

/-- A message that decides the outcome after those that were seen. -/
def Decides (target : ℚ) (seen : List Stamp) (stamp : Stamp) : Prop :=
  ¬stamp.Valid ∨ MovesBack seen stamp ∨ target ≤ stamp.seconds

/-- The message at index `k` decides. -/
def DecidesAt (target : ℚ) (stamps : List Stamp) (k : Nat) : Prop :=
  ∃ stamp, stamps[k]? = some stamp ∧ Decides target (stamps.take k) stamp

/-- It is the first one to do so. -/
def FirstDecidesAt (target : ℚ) (stamps : List Stamp) (k : Nat) : Prop :=
  DecidesAt target stamps k ∧ ∀ j < k, ¬DecidesAt target stamps j

section

variable {target : ℚ} {seen : List Stamp} {stamp : Stamp} {k : Nat}

theorem decidesAt_append_of_lt (hk : k < seen.length) (later : List Stamp) :
    DecidesAt target (seen ++ later) k ↔ DecidesAt target seen k := by
  rw [DecidesAt, List.getElem?_append_left hk, List.take_append_of_le_length hk.le]
  rfl

theorem decidesAt_length (later : List Stamp) :
    DecidesAt target (seen ++ stamp :: later) seen.length ↔ Decides target seen stamp := by
  rw [DecidesAt, List.getElem?_append_right le_rfl, Nat.sub_self, List.getElem?_cons_zero,
    List.take_left]
  exact ⟨fun ⟨_, heq, h⟩ => Option.some.inj heq ▸ h, fun h => ⟨stamp, rfl, h⟩⟩

theorem DecidesAt.lt_length (h : DecidesAt target seen k) : k < seen.length := by
  obtain ⟨stamp, hk, -⟩ := h
  exact (List.getElem?_eq_some_iff.mp hk).1

end

/-- How the callback leaves the tool after the message that decides. -/
structure Outcome (seen : List Stamp) (stamp : Stamp) (waiter : Waiter) : Prop where
  invalid : ¬stamp.Valid →
      waiter.reached = false ∧ waiter.failure = "invalid clock nanoseconds"
  movesBack : stamp.Valid → MovesBack seen stamp →
      waiter.reached = false ∧ waiter.failure = "simulation clock moved backwards"
  reached : stamp.Valid → ¬MovesBack seen stamp →
      waiter.reached = true ∧ waiter.failure = "" ∧ waiter.stamp = stamp

namespace Waiter

def start (target : Word .uint64) : Waiter := { wait := { target } }

/-- A waiter that has reached its target or failed. -/
def Settled (waiter : Waiter) : Prop := waiter.reached = true ∨ waiter.failure ≠ ""

theorem callback_of_settled {waiter : Waiter} (h : waiter.Settled) (message : Delivery) :
    waiter.callback message = waiter := by
  unfold callback
  rw [if_pos]
  rw [Bool.or_eq_true, bne_iff_ne]
  exact h

theorem run_of_settled {waiter : Waiter} (h : waiter.Settled) (messages : List Delivery) :
    run callback waiter messages = waiter := by
  induction messages with
  | nil => rfl
  | cons message messages ih => rw [run_cons, callback_of_settled h, ih]

end Waiter

theorem Outcome.settled {seen : List Stamp} {stamp : Stamp} {waiter : Waiter}
    (h : Outcome seen stamp waiter) : waiter.Settled := by
  by_cases hvalid : stamp.Valid
  · by_cases hback : MovesBack seen stamp
    · exact .inr ((h.movesBack hvalid hback).2 ▸ by decide)
    · exact .inl (h.reached hvalid hback).1
  · exact .inr ((h.invalid hvalid).2 ▸ by decide)

/-- A message in time. -/
def Stamp.inTime (stamp : Stamp) : Delivery := ⟨stamp, false⟩

section Runs

variable {text : String} {target : Word .uint64} {seen : List Stamp} {stamp : Stamp}
  {waiter : Waiter}

/-- Nothing is decided by the messages so far. -/
structure Waiting (text : String) (target : Word .uint64) (seen : List Stamp) (waiter : Waiter) :
    Prop where
  reached : waiter.reached = false
  failure : waiter.failure = ""
  target : waiter.wait.target = target
  observed : waiter.wait.observed = seen.getLast?.isSome
  previous : ∀ last ∈ seen.getLast?,
      last.Valid ∧ waiter.wait.previous = (stampNanos last).value
  undecided : ∀ k, ¬DecidesAt (decimalSeconds text.toList) seen k

theorem waiting_start : Waiting text target [] (.start target) where
  reached := rfl
  failure := rfl
  target := rfl
  observed := rfl
  previous _ h := nomatch h
  undecided _ h := absurd h.lt_length (Nat.not_lt_zero _)

/-- The waiter's test is that of the lexicographic order. -/
theorem Waiting.movesBack_iff (h : Waiting text target seen waiter) (hvalid : stamp.Valid) :
    (waiter.wait.observed = true ∧ (stampNanos stamp).value < waiter.wait.previous) ↔
      MovesBack seen stamp := by
  rw [h.observed, Option.isSome_iff_exists]
  constructor
  · rintro ⟨⟨last, hlast⟩, hlt⟩
    obtain ⟨hlastValid, hprevious⟩ := h.previous last hlast
    rw [hprevious, Stamp.nanos_lt_iff hvalid hlastValid] at hlt
    exact ⟨last, hlast, hlt⟩
  · rintro ⟨last, hlast, hbefore⟩
    obtain ⟨hlastValid, hprevious⟩ := h.previous last hlast
    rw [hprevious, Stamp.nanos_lt_iff hvalid hlastValid]
    exact ⟨⟨last, hlast⟩, hbefore⟩

theorem Waiting.callback_eq (h : Waiting text target seen waiter) :
    waiter.callback stamp.inTime =
      match waiter.wait.observe stamp with
      | (.ok reached, wait) => { waiter with wait, reached, stamp }
      | (.error failure, wait) => { waiter with wait, failure } := by
  unfold Waiter.callback
  rw [h.reached, h.failure]
  rfl

/-- The step that decides. -/
theorem Waiting.outcome (htarget : clockTarget text = pure target)
    (h : Waiting text target seen waiter)
    (hdecides : Decides (decimalSeconds text.toList) seen stamp) :
    Outcome seen stamp (waiter.callback stamp.inTime) := by
  by_cases hvalid : stamp.Valid
  · by_cases hback : MovesBack seen stamp
    · rw [h.callback_eq, ClockWait.observe_back hvalid ((h.movesBack_iff hvalid).mpr hback)]
      exact ⟨fun hv => absurd hvalid hv, fun _ _ => ⟨h.reached, rfl⟩, fun _ hb => absurd hback hb⟩
    · have hreached : waiter.wait.target ≤ (stampNanos stamp).value := by
        rw [h.target, Stamp.target_le_iff htarget]
        exact (hdecides.resolve_left (not_not_intro hvalid)).resolve_left hback
      rw [h.callback_eq, ClockWait.observe_ok hvalid (mt (h.movesBack_iff hvalid).mp hback)]
      exact ⟨fun hv => absurd hvalid hv, fun _ hb => absurd hb hback,
        fun _ _ => ⟨decide_eq_true hreached, h.failure, rfl⟩⟩
  · rw [h.callback_eq, ClockWait.observe_invalid hvalid]
    exact ⟨fun _ => ⟨h.reached, rfl⟩, fun hv => absurd hv hvalid, fun hv => absurd hv hvalid⟩

/-- The step that does not. -/
theorem Waiting.callback (htarget : clockTarget text = pure target)
    (h : Waiting text target seen waiter)
    (hdecides : ¬Decides (decimalSeconds text.toList) seen stamp) :
    Waiting text target (seen ++ [stamp]) (waiter.callback stamp.inTime) := by
  obtain ⟨hvalid, hrest⟩ := not_or.mp hdecides
  obtain ⟨hback, hreached⟩ := not_or.mp hrest
  have hvalid := not_not.mp hvalid
  have hreached : ¬waiter.wait.target ≤ (stampNanos stamp).value := by
    rw [h.target, Stamp.target_le_iff htarget]
    exact hreached
  rw [h.callback_eq, ClockWait.observe_ok hvalid (mt (h.movesBack_iff hvalid).mp hback)]
  exact
    { reached := decide_eq_false hreached
      failure := h.failure
      target := h.target
      observed := by rw [List.getLast?_concat]; rfl
      previous := by
        intro last hlast
        rw [List.getLast?_concat, Option.mem_some_iff] at hlast
        subst hlast
        exact ⟨hvalid, rfl⟩
      undecided := by
        intro k hk
        have hlength := hk.lt_length
        rw [List.length_append, List.length_singleton] at hlength
        rcases Nat.lt_or_eq_of_le (Nat.le_of_lt_succ hlength) with hlt | rfl
        · exact h.undecided k ((decidesAt_append_of_lt hlt _).mp hk)
        · exact hdecides ((decidesAt_length []).mp hk) }

/-- **Every history is one of waiting, or is decided by one of its messages.** -/
theorem waiting_or_decided (htarget : clockTarget text = pure target) (stamps : List Stamp) :
    Waiting text target stamps (run Waiter.callback (.start target) (stamps.map Stamp.inTime)) ∨
    ∃ seen stamp later, stamps = seen ++ stamp :: later ∧
      (∀ k, ¬DecidesAt (decimalSeconds text.toList) seen k) ∧
      Decides (decimalSeconds text.toList) seen stamp ∧
      Outcome seen stamp (run Waiter.callback (.start target) (stamps.map Stamp.inTime)) ∧
      run Waiter.callback (.start target) (stamps.map Stamp.inTime) =
        run Waiter.callback (.start target) ((seen ++ [stamp]).map Stamp.inTime) := by
  induction stamps using List.reverseRecOn with
  | nil => exact .inl waiting_start
  | append_singleton stamps stamp ih =>
      have hstep : run Waiter.callback (.start target) ((stamps ++ [stamp]).map Stamp.inTime) =
          (run Waiter.callback (.start target) (stamps.map Stamp.inTime)).callback
            stamp.inTime := by
        rw [List.map_append, List.map_singleton, run_concat]
      rcases ih with hwaiting | ⟨seen, first, later, hstamps, hundecided, hdecides, houtcome, hrun⟩
      · by_cases hdecides : Decides (decimalSeconds text.toList) stamps stamp
        · refine .inr ⟨stamps, stamp, [], rfl, hwaiting.undecided, hdecides, ?_, rfl⟩
          rw [hstep]
          exact hwaiting.outcome htarget hdecides
        · refine .inl ?_
          rw [hstep]
          exact hwaiting.callback htarget hdecides
      · -- nothing changes after the message that decides
        rw [hstep, Waiter.callback_of_settled houtcome.settled]
        exact .inr ⟨seen, first, later ++ [stamp], by rw [hstamps, List.append_assoc,
          List.cons_append], hundecided, hdecides, houtcome, hrun⟩

end Runs

/-! ## The tool -/

/-- A round in which only messages arrive, and in time. -/
structure Round.Undisturbed (round : Round) : Prop where
  stopRequested : round.stopRequested = false
  ok : round.ok = true
  interrupted : round.interrupted = false
  publishers : round.publishers = 1
  expired : round.expired = false
  inTime : ∀ message ∈ round.messages, message.expired = false

/-- How the tool ends with such a waiter; `none` if it does not. -/
def Waiter.exit (waiter : Waiter) : Option Exit :=
  if waiter.failure ≠ "" then some (.failed waiter.failure)
  else if waiter.reached then some (.reached waiter.stamp)
  else none

section Tool

variable {waiter : Waiter} {round : Round}

/-- Messages in time are known by their stamps. -/
theorem map_inTime {messages : List Delivery} (h : ∀ message ∈ messages, message.expired = false) :
    (messages.map Delivery.stamp).map Stamp.inTime = messages := by
  rw [List.map_map]
  refine (List.map_congr_left fun message hmessage => ?_).trans (List.map_id _)
  have hexpired := h message hmessage
  cases message
  exact congrArg (Delivery.mk _) hexpired.symm

theorem loop_of_settled (h : waiter.Settled) (hround : round.Undisturbed) (rounds : List Round) :
    waiter.loop (round :: rounds) = waiter.exit := by
  rcases waiter with ⟨wait, reached, failure, stamp⟩
  unfold Waiter.loop Waiter.finish Waiter.exit
  rw [hround.stopRequested, hround.ok, hround.publishers]
  by_cases hfailure : failure = ""
  · have hreached : reached = true := h.resolve_right (not_not_intro hfailure)
    simp [hfailure, hreached]
  · simp [hfailure]

theorem loop_of_waiting (h : ¬waiter.Settled) (hround : round.Undisturbed) (rounds : List Round) :
    waiter.loop (round :: rounds) = (run Waiter.callback waiter round.messages).loop rounds := by
  obtain ⟨hreached, hfailure⟩ := not_or.mp h
  rw [Bool.not_eq_true] at hreached
  rw [Waiter.loop, hround.stopRequested, hround.ok, hround.interrupted, hround.publishers,
    hround.expired, hreached, not_not.mp hfailure]
  simp

/-- The loop delivers the messages of its rounds until one of them decides. -/
theorem loop_undisturbed {rounds : List Round} {last : Round}
    (hrounds : ∀ round ∈ rounds, round.Undisturbed) (hlast : last.Undisturbed) :
    waiter.loop (rounds ++ [last]) =
      (run Waiter.callback waiter (rounds.flatMap Round.messages)).exit := by
  induction rounds generalizing waiter with
  | nil =>
      by_cases h : waiter.Settled
      · exact loop_of_settled h hlast []
      · rw [List.nil_append, loop_of_waiting h hlast]
        obtain ⟨hreached, hfailure⟩ := not_or.mp h
        rw [Waiter.loop, List.flatMap_nil, run_nil, Waiter.exit, if_neg hfailure, if_neg hreached]
  | cons round rounds ih =>
      obtain ⟨hround, hrounds⟩ := List.forall_mem_cons.mp hrounds
      by_cases h : waiter.Settled
      · rw [Waiter.run_of_settled h, List.cons_append, loop_of_settled h hround]
      · rw [List.cons_append, loop_of_waiting h hround, ih hrounds, List.flatMap_cons, run_append]

end Tool

/-- **The wait reaches exactly the first stamp at or after its target.** -/
theorem clock_wait_first_stamp {text : String} {target : Word .uint64}
    (htarget : clockTarget text = pure target) (stamps : List Stamp) :
    let waiter := run Waiter.callback (.start target) (stamps.map Stamp.inTime)
    ((∀ k, ¬DecidesAt (decimalSeconds text.toList) stamps k) →
      waiter.reached = false ∧ waiter.failure = "") ∧
    (∀ k stamp, FirstDecidesAt (decimalSeconds text.toList) stamps k → stamps[k]? = some stamp →
      Outcome (stamps.take k) stamp waiter ∧
      waiter = run Waiter.callback (.start target) ((stamps.take (k + 1)).map Stamp.inTime)) ∧
    (∀ stamp, (stampNanos stamp).overflow = false ∧
      (target ≤ (stampNanos stamp).value ↔ decimalSeconds text.toList ≤ stamp.seconds)) ∧
    ∀ rounds last, (∀ round ∈ rounds, round.Undisturbed) → last.Undisturbed →
      (rounds.flatMap Round.messages).map Delivery.stamp = stamps →
      (Waiter.start target).loop (rounds ++ [last]) = waiter.exit := by
  refine ⟨fun hnone => ?_, fun k stamp hfirst hk => ?_, fun stamp => ⟨?_, ?_⟩, ?_⟩
  · rcases waiting_or_decided htarget stamps with h | ⟨seen, stamp, later, rfl, -, hdecides, -⟩
    · exact ⟨h.reached, h.failure⟩
    · exact absurd ((decidesAt_length later).mpr hdecides) (hnone _)
  · rcases waiting_or_decided htarget stamps with h | ⟨seen, first, later, rfl, hnone, hdecides,
      houtcome, hrun⟩
    · exact absurd hfirst.1 (h.undecided k)
    · have hindex : k = seen.length := by
        rcases Nat.lt_trichotomy k seen.length with hlt | heq | hgt
        · exact absurd ((decidesAt_append_of_lt hlt _).mp hfirst.1) (hnone k)
        · exact heq
        · exact absurd ((decidesAt_length later).mpr hdecides) (hfirst.2 _ hgt)
      subst hindex
      have hstamp : first = stamp := by
        rw [List.getElem?_append_right le_rfl, Nat.sub_self, List.getElem?_cons_zero] at hk
        exact Option.some.inj hk
      subst hstamp
      have htake : (seen ++ first :: later).take (seen.length + 1) = seen ++ [first] := by
        rw [List.take_length_add_append, List.take_succ_cons, List.take_zero]
      rw [List.take_left, htake]
      exact ⟨houtcome, hrun⟩
  · obtain ⟨w, hw, -⟩ := stamp.nanos_exact
    rw [hw]
    rfl
  · exact Stamp.target_le_iff htarget stamp
  · intro rounds last hrounds hlast hstamps
    have htime : ∀ message ∈ rounds.flatMap Round.messages, message.expired = false := by
      intro message hmessage
      obtain ⟨round, hround, hmessage⟩ := List.mem_flatMap.mp hmessage
      exact (hrounds round hround).inTime message hmessage
    rw [loop_undisturbed hrounds hlast, ← hstamps, map_inTime htime]

/-- Two seconds are reached by a stamp, and a clock that is set back later does not matter. -/
theorem clock_wait_first_stamp_two :
    clockTarget "2" = pure ⟨2000000000, by decide, by decide⟩ ∧
      Outcome [] ⟨2, 0⟩ (run Waiter.callback (.start ⟨2000000000, by decide, by decide⟩)
        ([⟨2, 0⟩, ⟨1, 0⟩].map Stamp.inTime)) := by
  have htarget : clockTarget "2" = pure ⟨2000000000, by decide, by decide⟩ := by rfl
  have hreached : decimalSeconds "2".toList ≤ Stamp.seconds ⟨2, 0⟩ := by decide +kernel
  have hfirst : FirstDecidesAt (decimalSeconds "2".toList) [⟨2, 0⟩, ⟨1, 0⟩] 0 :=
    ⟨⟨_, rfl, .inr (.inr hreached)⟩, fun _ h => absurd h (Nat.not_lt_zero _)⟩
  exact ⟨htarget, ((clock_wait_first_stamp htarget [⟨2, 0⟩, ⟨1, 0⟩]).2.1 0 _ hfirst rfl).1⟩

end Ros1Tools.Clock
