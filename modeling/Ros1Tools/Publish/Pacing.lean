import Mathlib.Tactic.Linarith
import Ros1Tools.Adapter.InputSchema
import Ros1Tools.Lib.Calls
import Ros1Tools.Lib.RoundingError
import Ros1Tools.Publish.Call

/-!
# Publishing at a rate

The loop of `PublisherRegistry::publish` once it has let go of its lease, against a clock.
Its messages are due at multiples of an interval that is computed in floating point: the
reciprocal of the rate, in seconds, is scaled to nanoseconds and truncated.  Between two
messages it sleeps in slices.

Nothing is assumed of the clock but that it does not go back, and of a sleep that it is not
too short.  That a message is not early is then an invariant of what has been published; that
the loop ends is a matter of how many slices an interval can have.
-/

namespace Ros1Tools.Publish

open Lib Lib.Program

/-! ## The interval -/

/-- `duration_cast<steady_clock::duration>` of `duration<double>(1.0 / publish_rate_hz)`. -/
def interval (publishRateHz : Double) : Int :=
  (((Binary.ofInt _ 1).div publishRateHz).mul (Binary.ofInt _ 1000000000)).toInt

/-- A rate and a count that `Publish` lets pass. -/
structure Admitted (publishCount : UInt32) (publishRateHz : Double) : Prop where
  count_pos : 1 ≤ publishCount.toNat
  count_le : publishCount.toNat ≤ 10000
  finite : publishRateHz.isFinite = true
  rate_ge : 1 / 10 ≤ publishRateHz.value
  rate_le : publishRateHz.value ≤ 1000
  duration_le : ((publishCount.toNat : ℚ) - 1) / publishRateHz.value ≤ 240 + 1 / 2 ^ 46

theorem admitted_of_readPublish {platform : Adapter.Platform} {input : Json.Members}
    {request : Adapter.PublishRequest} (h : platform.readPublish input = .ok request) :
    Admitted request.publishCount request.publishRateHz := by
  unfold Adapter.Platform.readPublish at h
  simp only [bind_eq_ok, Adapter.publishRateHz_eq_ok, Adapter.check_eq_ok,
    Adapter.requiredUInt_eq_ok_iff (show Adapter.maximumPublishCount < 2 ^ 32 by decide)] at h
  obtain ⟨-, -, topic, -, messageType, -, -, -, -, -, message, -, count,
    ⟨-, -, -, hcount, hcount'⟩, rate, ⟨value, -, rfl, hnumber, hrate, hrate'⟩, -, hduration, -, -,
    -, -, -, -, ⟨⟩⟩ := h
  have hpos : 0 < value.asDouble.value := lt_of_lt_of_le (by norm_num) hrate
  have hfinite := (Adapter.asDouble_of_number hnumber hrate' hpos.le).1
  rw [Bool.not_eq_true'] at hduration
  exact ⟨hcount, hcount', hfinite, hrate, hrate',
    (Adapter.publishDuration_le_iff hcount hfinite hpos).mp hduration⟩

theorem leastNormal_le : Binary.leastNormal .binary64 ≤ 1 / 1000 := by
  rw [Binary.leastNormal, div_le_div_iff₀ (by positivity) (by norm_num), one_mul]
  have h : 2 ^ Format.binary64.t * 1000 ≤ 2 ^ Format.binary64.unit := by decide +kernel
  exact_mod_cast h

/-- **The interval is the reciprocal of the rate**, less than a nanosecond short of it and not
noticeably longer. -/
theorem Admitted.interval_bounds {count : UInt32} {rate : Double} (h : Admitted count rate) :
    10 ^ 9 / rate.value - (1 + 1 / 10 ^ 5) < interval rate ∧
      (interval rate : ℚ) ≤ 10 ^ 9 / rate.value + 1 / 10 ^ 5 := by
  have hrate : 0 < rate.value := lt_of_lt_of_le (by norm_num) h.rate_ge
  obtain ⟨hone, honeValue⟩ := Adapter.ofInt_value (n := 1) (by decide)
  obtain ⟨hnano, hnanoValue⟩ := Adapter.ofInt_value (n := 1000000000) (by decide)
  obtain ⟨hbig, hbigValue⟩ := Adapter.ofInt_value (n := 100000000000) (by decide)
  push_cast at honeValue hnanoValue hbigValue
  -- The period lies between a millisecond and ten seconds.
  have hperiodLo : 1 / 1000 ≤ 1 / rate.value := one_div_le_one_div_of_le hrate h.rate_le
  have hperiodHi : 1 / rate.value ≤ 10 := by
    have := one_div_le_one_div_of_le (by norm_num) h.rate_ge
    linarith
  obtain ⟨hdiv, hdivError⟩ := Binary.div_spec (d := Binary.ofInt .binary64 100000000000)
    (by decide) hone h.finite hbig (by rw [honeValue]; norm_num) hrate
    (by rw [honeValue, hbigValue]; linarith)
    (by rw [honeValue]; exact leastNormal_le.trans hperiodLo)
  rw [honeValue] at hdivError
  unfold interval
  generalize (Binary.ofInt .binary64 1).div rate = p at hdiv hdivError
  rw [show Format.binary64.t + 1 = 53 from rfl, abs_le] at hdivError
  obtain ⟨hpLo, hpHi⟩ := hdivError
  have hperiod : 10 ^ 9 / rate.value = 10 ^ 9 * (1 / rate.value) := by rw [mul_one_div]
  rw [hperiod]
  generalize 1 / rate.value = period at *
  have hp : 1 / 2000 ≤ p.value := by linarith
  obtain ⟨-, hmulError⟩ := Binary.mul_spec (d := Binary.ofInt .binary64 100000000000)
    (by decide) hdiv hnano hbig (by linarith) (by rw [hnanoValue]; norm_num)
    (by rw [hnanoValue, hbigValue]; linarith)
    (by rw [hnanoValue]; linarith [leastNormal_le])
  generalize p.mul (Binary.ofInt .binary64 1000000000) = q at *
  rw [hnanoValue, show Format.binary64.t + 1 = 53 from rfl, abs_le] at hmulError
  obtain ⟨hqLo, hqHi⟩ := hmulError
  obtain ⟨htruncLe, htruncLt⟩ := Binary.toInt_bounds (x := q) (by linarith)
  constructor
  · linarith
  · linarith

/-- The last message is due within 240 seconds. -/
theorem Admitted.schedule_le {count : UInt32} {rate : Double} (h : Admitted count rate) :
    ((count.toNat : Int) - 1) * interval rate ≤ 240000000000 := by
  have hrate : 0 < rate.value := lt_of_lt_of_le (by norm_num) h.rate_ge
  have hcount : (0 : ℚ) ≤ (count.toNat : ℚ) - 1 := by
    have : (1 : ℚ) ≤ count.toNat := by exact_mod_cast h.count_pos
    linarith
  have hcount' : (count.toNat : ℚ) - 1 ≤ 9999 := by
    have : (count.toNat : ℚ) ≤ 10000 := by exact_mod_cast h.count_le
    linarith
  have hproduct := mul_le_mul_of_nonneg_left h.interval_bounds.2 hcount
  have hduration := h.duration_le
  have hsplit : ((count.toNat : ℚ) - 1) * (10 ^ 9 / rate.value + 1 / 10 ^ 5) =
      10 ^ 9 * (((count.toNat : ℚ) - 1) / rate.value) + ((count.toNat : ℚ) - 1) / 10 ^ 5 := by ring
  rw [hsplit] at hproduct
  have hlt : (((count.toNat : Int) - 1) * interval rate : ℚ) < 240000000001 := by
    push_cast
    linarith
  exact Int.lt_add_one_iff.mp (by exact_mod_cast hlt)

theorem Admitted.interval_le {count : UInt32} {rate : Double} (h : Admitted count rate) :
    interval rate ≤ 10000000000 := by
  have hperiod : 10 ^ 9 / rate.value ≤ 10 ^ 9 / (1 / 10) :=
    div_le_div_of_nonneg_left (by norm_num) (by norm_num) h.rate_ge
  have hle := h.interval_bounds.2
  have hlt : (interval rate : ℚ) < 10000000001 := by linarith
  exact Int.lt_add_one_iff.mp (by exact_mod_cast hlt)

/-! ## The loop -/

namespace Pacing

inductive Call where
  | now
  | check
  | sleep (nanos : Int)
  | rosOk
  | publish

/-- The answers; that of `check` is what `requireContinuationAllowed` finds. -/
abbrev Call.Answer : Call → Type
  | .now => Int
  | .check => Check
  | .sleep _ => Unit
  | .rosOk => Bool
  | .publish => Except Foreign Unit

abbrev calls : Signature := ⟨Call, Call.Answer⟩

abbrev Code := Program calls

def call (c : Call) : Code c.Answer := perform (S := calls) c

/-- The steady clock, and when messages were published. -/
structure World where
  time : Int
  log : List Int

/-- A publish that throws may or may not have been one. -/
def servesPublish (w : World) : Except Foreign Unit → World → Prop
  | .ok _, w' => w' = { w with log := w.log ++ [w.time] }
  | .error _, w' => w' = w ∨ w' = { w with log := w.log ++ [w.time] }

def serves : (c : Call) → World → c.Answer → World → Prop
  | .now, w, answer, w' => answer = w.time ∧ w' = w
  | .check, w, _, w' => w' = w
  | .sleep nanos, w, _, w' => w'.log = w.log ∧ w.time + max nanos 0 ≤ w'.time
  | .rosOk, w, _, w' => w' = w
  | .publish, w, answer, w' => servesPublish w answer w'

/-- Time passes. -/
def rely (w w' : World) : Prop := w.time ≤ w'.time ∧ w'.log = w.log

abbrev clock : Environment calls World := ⟨serves, rely⟩

/-- Five milliseconds. -/
def quantum : Int := 5000000

/-- `waitUntil`; `none` if `fuel` rounds did not reach the target. -/
def waitUntil (target : Int) : Nat → Code (Option (Except Exn Unit))
  | 0 => pure none
  | fuel + 1 => do
      let now ← call .now
      if now < target then
        match requireContinuationAllowed (← call .check) with
        | .error e => pure (some (.error e))
        | .ok () => do
            let later ← call .now
            let remaining := target - later
            call (.sleep (if remaining < quantum then remaining else quantum))
            waitUntil target fuel
      else pure (some (.ok ()))

/-- One message: from the look at `ros::ok` to the check behind the publish. -/
def publishOne : Code (Except Exn Unit) := do
  match ← call .rosOk with
  | false => pure (.error (uncertainError "ros_shutdown_after_dispatch"
      "ROS1 shut down after one or more messages may have been published"))
  | true =>
      match requireContinuationAllowed (← call .check) with
      | .error e => pure (.error e)
      | .ok () =>
          match ← call .publish with
          | .error exception => pure (.error (dispatchCatch exception))
          | .ok () => do
              let found ← call .check
              pure (requireContinuationAllowed found)

/-- The wait for the time of a message that is not the first. -/
def pace (fuel index : Nat) (target : Int) : Code (Option (Except Exn Unit)) :=
  if index = 0 then pure (some (.ok ())) else waitUntil target fuel

/-- The messages from `index` on; `step` is the interval. -/
def publishFrom (fuel : Nat) (step : Int) : Nat → Nat → Int → Code (Option (Except Exn Unit))
  | 0, _, _ => pure (some (.ok ()))
  | left + 1, index, nextPublish => do
      let target := if index = 0 then nextPublish else nextPublish + step
      match ← pace fuel index target with
      | none => pure none
      | some (.error e) => pure (some (.error e))
      | some (.ok ()) =>
          match ← publishOne with
          | .error e => pure (some (.error e))
          | .ok () => publishFrom fuel step left (index + 1) target

/-- The loop, from the time that its first message is due. -/
def publishLoop (fuel : Nat) (publishCount : UInt32) (publishRateHz : Double) :
    Code (Option (Except Exn Unit)) := do
  let nextPublish ← call .now
  publishFrom fuel (interval publishRateHz) publishCount.toNat 0 nextPublish

/-! ### What a round does -/

abbrev Does {α : Type} (code : Code α) (Q : α → World → Prop) (w : World) : Prop :=
  Wp clock (fun _ _ => True) Q code w

/-- No message was early. -/
def Punctual (start step : Int) (log : List Int) : Prop :=
  ∀ (k : Nat) (time : Int), log[k]? = some time → start + k * step ≤ time

/-- The time is at least `least`, and these messages have been published. -/
structure At (least : Int) (log : List Int) (w : World) : Prop where
  time : least ≤ w.time
  log : w.log = log

variable {least target start step : Int} {log : List Int} {w : World}

theorem stable_at : clock.Stable (At least log) := by
  rintro w w' ⟨htime, hlog⟩ h
  exact ⟨h.time.trans htime, hlog.trans h.log⟩

theorem At.mono {least' : Int} (h : At least log w) (hle : least' ≤ least) : At least' log w :=
  ⟨hle.trans h.time, h.log⟩

theorem does_now (h : At least log w) :
    Does (call .now) (fun now w' => least ≤ now ∧ At now log w') w := by
  refine Wp.perform stable_at h fun w₁ answer w₂ h₁ hserves => ⟨trivial, ?_⟩
  obtain ⟨rfl, rfl⟩ := hserves
  exact ⟨h₁.time, le_refl _, h₁.log⟩

/-- A call that only looks. -/
theorem does_look {c : Call} (hlook : ∀ w answer w', serves c w answer w' → w' = w)
    (h : At least log w) : Does (call c) (fun _ => At least log) w := by
  refine Wp.perform stable_at h fun w₁ answer w₂ h₁ hserves => ⟨trivial, ?_⟩
  obtain rfl := hlook w₁ answer w₂ hserves
  exact h₁

theorem does_sleep {nanos : Int} (h : At least log w) :
    Does (call (.sleep nanos)) (fun _ => At (least + max nanos 0) log) w := by
  refine Wp.perform stable_at h fun w₁ answer w₂ h₁ hserves => ⟨trivial, ?_⟩
  exact ⟨(add_le_add_left h₁.time _).trans hserves.2, hserves.1.trans h₁.log⟩

/-- It returns, and what holds if something is thrown and if not. -/
def Returns (bad good : World → Prop) : Option (Except Exn Unit) → World → Prop
  | none => fun _ => False
  | some ended => Ends bad (fun _ => good) ended

/-- **The wait** ends, and not early. -/
theorem does_waitUntil (fuel : Nat) (h : At least log w)
    (hfuel : target - least ≤ fuel * quantum) :
    Does (waitUntil target (fuel + 1)) (Returns (·.log = log) (At target log)) w := by
  induction fuel generalizing w least with
  | zero =>
      refine Wp.bind (does_now h) ?_
      rintro now w₁ ⟨hnow, h₁⟩
      have hreached : ¬now < target := by
        rw [Nat.cast_zero, zero_mul] at hfuel
        exact not_lt.mpr ((sub_nonpos.mp hfuel).trans hnow)
      rw [if_neg hreached]
      exact Wp.pure (h₁.mono (not_lt.mp hreached))
  | succ fuel ih =>
      refine Wp.bind (does_now h) ?_
      rintro now w₁ ⟨hnow, h₁⟩
      by_cases hreached : now < target
      · rw [if_pos hreached]
        refine Wp.bind (does_look (fun _ _ _ hserves => hserves) h₁) fun found w₂ h₂ => ?_
        cases hallowed : requireContinuationAllowed found with
        | error e => exact Wp.pure h₂.log
        | ok u =>
            refine Wp.bind (does_now h₂) ?_
            rintro later w₃ ⟨hlater, h₃⟩
            refine Wp.bind (does_sleep h₃) fun _ w₄ h₄ => ih h₄ ?_
            -- A slice is what is left of the wait, or a whole one; either way it is slept.
            push_cast at hfuel
            rw [add_mul, one_mul] at hfuel
            have hnonneg : 0 ≤ (fuel : Int) * quantum :=
              mul_nonneg (Int.natCast_nonneg fuel) (by decide)
            split
            · omega
            · omega
      · rw [if_neg hreached]
        exact Wp.pure (h₁.mono (not_lt.mp hreached))

/-- One more message, in its time. -/
def Added (least : Int) (log : List Int) (w : World) : Prop :=
  ∃ time, least ≤ time ∧ At least (log ++ [time]) w

theorem does_publish (h : At least log w) :
    Does (call .publish) (Ends (fun w' => At least log w' ∨ Added least log w')
      fun _ => Added least log) w := by
  refine Wp.perform stable_at h fun w₁ answer w₂ h₁ hserves => ⟨trivial, ?_⟩
  have hadded : Added least log { w₁ with log := w₁.log ++ [w₁.time] } :=
    ⟨w₁.time, h₁.time, h₁.time, by rw [h₁.log]⟩
  cases answer with
  | ok u =>
      obtain rfl : w₂ = { w₁ with log := w₁.log ++ [w₁.time] } := hserves
      exact hadded
  | error exception =>
      rcases hserves with rfl | rfl
      · exact .inl h₁
      · exact .inr hadded

/-- **One message** is published at most once, and exactly once if nothing is thrown. -/
theorem does_publishOne (h : At least log w) :
    Does publishOne (Ends (fun w' => At least log w' ∨ Added least log w')
      fun _ => Added least log) w := by
  refine Wp.bind (does_look (fun _ _ _ hserves => hserves) h) fun alive w₁ h₁ => ?_
  cases alive with
  | false => exact Wp.pure (.inl h₁)
  | true =>
      refine Wp.bind (does_look (fun _ _ _ hserves => hserves) h₁) fun found w₂ h₂ => ?_
      cases hallowed : requireContinuationAllowed found with
      | error e => exact Wp.pure (.inl h₂)
      | ok u =>
          refine Wp.bind (does_publish h₂) fun answer w₃ h₃ => ?_
          cases answer with
          | error exception => exact Wp.pure h₃
          | ok u =>
              obtain ⟨time, htime, h₃⟩ := h₃
              refine Wp.bind (does_look (fun _ _ _ hserves => hserves) h₃) fun found w₄ h₄ =>
                Wp.pure ?_
              have hadded : Added least log w₄ := ⟨time, htime, h₄⟩
              cases requireContinuationAllowed found with
              | error e => exact .inr hadded
              | ok u => exact hadded

theorem Punctual.append {time : Int} (h : Punctual start step log)
    (hle : start + log.length * step ≤ time) : Punctual start step (log ++ [time]) := by
  intro k t ht
  rcases Nat.lt_or_ge k log.length with hk | hk
  · rw [List.getElem?_append_left hk] at ht
    exact h k t ht
  · rw [List.getElem?_append_right hk, List.getElem?_singleton] at ht
    split at ht
    · rename_i hzero
      obtain rfl : k = log.length := by omega
      rwa [← Option.some.inj ht]
    · exact absurd ht (by simp)

/-- What the loop has published when it ends: at most `count` messages, none of them early, and
all of them if nothing is thrown. -/
abbrev Published (start step : Int) (count : Nat) : Option (Except Exn Unit) → World → Prop :=
  Returns (fun w => Punctual start step w.log ∧ w.log.length ≤ count)
    fun w => Punctual start step w.log ∧ w.log.length = count

/-- **The loop**: every message is published in its time, and all of them if nothing is
thrown. -/
theorem does_publishFrom {fuel count : Nat} (hfuel : step ≤ fuel * quantum) (left : Nat)
    {next : Int} (h : At next log w) (hpunctual : Punctual start step log)
    (hnext : (if log.length = 0 then next else next + step) = start + log.length * step)
    (hcount : log.length + left = count) :
    Does (publishFrom (fuel + 1) step left log.length next) (Published start step count) w := by
  induction left generalizing w log next with
  | zero => exact Wp.pure ⟨h.log ▸ hpunctual, h.log ▸ hcount⟩
  | succ left ih =>
      -- The time has come when the wait is over, or at once for the first message.
      have hpace : Does (pace (fuel + 1) log.length (start + log.length * step))
          (Returns (·.log = log) (At (start + log.length * step) log)) w := by
        unfold pace
        by_cases hfirst : log.length = 0
        · rw [if_pos hfirst] at hnext ⊢
          exact Wp.pure (hnext ▸ h)
        · rw [if_neg hfirst] at hnext ⊢
          exact does_waitUntil fuel h (by omega)
      unfold publishFrom
      rw [hnext]
      refine Wp.bind hpace fun waited w₁ h₁ => ?_
      rcases waited with - | e | u
      · exact h₁.elim
      · have hlog : w₁.log = log := h₁
        exact Wp.pure ⟨hlog ▸ hpunctual, by rw [hlog]; omega⟩
      have hadded : ∀ w₂, Added (start + log.length * step) log w₂ → ∃ log',
          At (start + log.length * step) log' w₂ ∧ Punctual start step log' ∧
            log'.length = log.length + 1 := by
        rintro w₂ ⟨time, htime, h₂⟩
        exact ⟨_, h₂, hpunctual.append htime, List.length_append⟩
      refine Wp.bind (does_publishOne h₁) fun outcome w₂ h₂ => ?_
      cases outcome with
      | error e =>
          refine Wp.pure ?_
          rcases h₂ with h₂ | h₂
          · exact ⟨h₂.log ▸ hpunctual, by rw [h₂.log]; omega⟩
          · obtain ⟨log', h₂, hpunctual', hlength⟩ := hadded w₂ h₂
            exact ⟨h₂.log ▸ hpunctual', by rw [h₂.log]; omega⟩
      | ok u =>
          obtain ⟨log', h₂, hpunctual', hlength⟩ := hadded w₂ h₂
          dsimp only
          rw [← hlength]
          refine ih h₂ hpunctual' ?_ (by omega)
          rw [if_neg (by omega), hlength, Nat.cast_succ]
          ring

/-- The loop as a whole, for a rate and a count that are admitted. -/
theorem does_publishLoop {count : UInt32} {rate : Double} (hadmitted : Admitted count rate)
    {fuel : Nat} (hfuel : 2001 ≤ fuel) (h : At least [] w) :
    Does (publishLoop fuel count rate) (fun ended w' => ∃ start, least ≤ start ∧
      Published start (interval rate) count.toNat ended w') w := by
  obtain ⟨rounds, rfl⟩ : ∃ rounds, fuel = rounds + 1 := ⟨fuel - 1, by omega⟩
  have hrounds : interval rate ≤ rounds * quantum := by
    have hle := hadmitted.interval_le
    rw [show quantum = 5000000 from rfl]
    omega
  refine Wp.bind (does_now h) ?_
  rintro start w₁ ⟨hstart, h₁⟩
  have hpunctual : Punctual start (interval rate) [] := fun k time htime => absurd htime (by simp)
  have hgo := does_publishFrom hrounds count.toNat h₁ hpunctual (by simp) (Nat.zero_add _)
  exact hgo.mono fun ended w₂ h₂ => ⟨start, hstart, h₂⟩

/-! ### A run -/

theorem runs_call (c : Call) (answer : c.Answer) {w w₁ w' : World} (hrely : rely w w₁)
    (h : serves c w₁ answer w') : Runs clock (call c) w answer w' :=
  .call hrely h .ret

theorem rely_refl (w : World) : rely w w := ⟨le_rfl, rfl⟩

theorem runs_publishOne (time : Int) (log : List Int) :
    Runs clock publishOne ⟨time, log⟩ (.ok ()) ⟨time, log ++ [time]⟩ := by
  refine (runs_call .rosOk true (rely_refl _) rfl).bind ?_
  refine (runs_call .check .passed (rely_refl _) rfl).bind ?_
  refine (runs_call .publish (.ok ()) (rely_refl _) rfl).bind ?_
  exact (runs_call .check .passed (rely_refl _) rfl).bind .ret

/-- Two messages, the second when its time has come. -/
theorem runs_publishFrom_twice {step : Int} (h : 0 ≤ step) :
    Runs clock (publishFrom 2001 step 2 0 0) ⟨0, []⟩ (some (.ok ())) ⟨step, [0, step]⟩ := by
  have hpace : Runs clock (pace 2001 1 (0 + step)) ⟨0, [0]⟩ (some (.ok ()))
      ⟨step, [0]⟩ := by
    have hpasses : rely ⟨0, [0]⟩ ⟨step, [0]⟩ := ⟨h, rfl⟩
    refine (runs_call .now step hpasses ⟨rfl, rfl⟩).bind ?_
    rw [zero_add, if_neg (lt_irrefl _)]
    exact .ret
  refine Runs.bind (a := some (.ok ())) .ret ((runs_publishOne 0 []).bind ?_)
  exact hpace.bind ((runs_publishOne step [0]).bind .ret)

theorem runs_publishLoop_twice {rate : Double} (h : 0 ≤ interval rate) :
    Runs clock (publishLoop 2001 2 rate) ⟨0, []⟩ (some (.ok ()))
      ⟨interval rate, [0, interval rate]⟩ :=
  (runs_call .now (0 : Int) (rely_refl _) ⟨rfl, rfl⟩).bind (runs_publishFrom_twice h)

end Pacing

/-! ## Publications -/

open Pacing

variable {platform : Adapter.Platform} {input : Json.Members}
  {request : Adapter.PublishRequest}

/-- Two messages at ten a second. -/
theorem exists_readPublish_twice : ∃ request : Adapter.PublishRequest,
    Adapter.ToolsAdapter.labPlatform.readPublish (Adapter.publication 2 (.ofInt _ 10)) =
      .ok request ∧ request.publishCount = 2 ∧ request.publishRateHz = .ofInt _ 10 := by
  have hfields : (Adapter.ToolsAdapter.labPlatform.readPublish
      (Adapter.publication 2 (.ofInt _ 10))).map
        (fun request => (request.publishCount, request.publishRateHz)) =
      .ok (2, .ofInt _ 10) := by decide +kernel
  generalize Adapter.ToolsAdapter.labPlatform.readPublish _ = read at hfields
  cases read with
  | error e => cases hfields
  | ok request =>
      obtain ⟨hcount, hrate⟩ := Prod.mk.inj (Except.ok.inj hfields)
      exact ⟨request, rfl, hcount, hrate⟩

/-- **The rate of a publication is kept to the nanosecond.**  The interval between the times
that two messages are due is the reciprocal of the rate, short of it by about a nanosecond at
most, and the last message is due within 240 seconds of the first, so that no time point
overflows. -/
theorem publish_interval_exact (h : platform.readPublish input = .ok request) :
    10 ^ 9 / request.publishRateHz.value - (1 + 1 / 10 ^ 5) < interval request.publishRateHz ∧
      (interval request.publishRateHz : ℚ) ≤ 10 ^ 9 / request.publishRateHz.value + 1 / 10 ^ 5 ∧
      ((request.publishCount.toNat : Int) - 1) * interval request.publishRateHz ≤
        240000000000 := by
  have hadmitted := admitted_of_readPublish h
  exact ⟨hadmitted.interval_bounds.1, hadmitted.interval_bounds.2, hadmitted.schedule_le⟩

theorem publish_interval_exact_twice :
    ∃ request : Adapter.PublishRequest, request.publishCount = 2 ∧
      interval request.publishRateHz ≤ 240000000000 := by
  obtain ⟨request, h, hcount, -⟩ := exists_readPublish_twice
  have hle := (publish_interval_exact h).2.2
  rw [hcount] at hle
  exact ⟨request, hcount, by simpa using hle⟩

/-- **No message is early, lost or repeated.**  Whatever the clock does, whichever calls throw
and wherever it is cancelled, the loop of an admitted publication ends; message `k` is not
published more than ten microseconds before `k` periods have passed; there are at most as many
messages as asked for, and exactly as many if the loop does not throw. -/
theorem publish_paced (h : platform.readPublish input = .ok request) {fuel : Nat}
    (hfuel : 2001 ≤ fuel) {w w' : World} (hlog : w.log = [])
    {ended : Option (Except Exn Unit)}
    (hruns : Runs clock (publishLoop fuel request.publishCount request.publishRateHz) w ended w') :
    ∃ start outcome, w.time ≤ start ∧ ended = some outcome ∧
      w'.log.length ≤ request.publishCount.toNat ∧
      (outcome = .ok () → w'.log.length = request.publishCount.toNat) ∧
      ∀ (k : Nat) (time : Int), w'.log[k]? = some time →
        (start : ℚ) + k * (10 ^ 9 / request.publishRateHz.value) ≤ time + 10000 := by
  have hadmitted := admitted_of_readPublish h
  have hat : At w.time [] w := ⟨le_rfl, hlog⟩
  obtain ⟨start, hstart, hpublished⟩ := (does_publishLoop hadmitted hfuel hat).runs hruns
  obtain ⟨outcome, hended, hpunctual, hle, hok⟩ : ∃ outcome, ended = some outcome ∧
      Punctual start (interval request.publishRateHz) w'.log ∧
      w'.log.length ≤ request.publishCount.toNat ∧
      (outcome = .ok () → w'.log.length = request.publishCount.toNat) := by
    rcases ended with - | e | u
    · exact hpublished.elim
    · exact ⟨_, rfl, hpublished.1, hpublished.2, nofun⟩
    · exact ⟨_, rfl, hpublished.1, hpublished.2.le, fun _ => hpublished.2⟩
  refine ⟨start, outcome, hstart, hended, hle, hok, fun k time htime => ?_⟩
  have hk : (k : ℚ) ≤ 9999 := by
    have hlt := (List.getElem?_eq_some_iff.mp htime).1
    have hcount := hadmitted.count_le
    exact_mod_cast (show k ≤ 9999 by omega)
  have hdue : (start : ℚ) + k * interval request.publishRateHz ≤ time := by
    exact_mod_cast hpunctual k time htime
  have hshort := mul_le_mul_of_nonneg_left hadmitted.interval_bounds.1.le (Nat.cast_nonneg k)
  linarith

theorem publish_paced_twice :
    ∃ request : Adapter.PublishRequest, ∃ start : Int, 0 ≤ start ∧
      (start : ℚ) + 1 * (10 ^ 9 / request.publishRateHz.value) ≤
        interval request.publishRateHz + 10000 := by
  obtain ⟨request, h, hcount, hrate⟩ := exists_readPublish_twice
  have hnonneg : 0 ≤ interval request.publishRateHz := by
    rw [hrate]
    decide +kernel
  have hruns := runs_publishLoop_twice hnonneg
  rw [← hcount] at hruns
  obtain ⟨start, outcome, hstart, -, -, -, hpaced⟩ :=
    publish_paced h (Nat.le_refl 2001) rfl hruns
  refine ⟨request, start, hstart, ?_⟩
  exact_mod_cast hpaced 1 (interval request.publishRateHz) rfl

end Ros1Tools.Publish
