import Ros1Tools.Lib.Run
import Ros1Tools.Publish.Registry

/-!
# The main loop and its master

The main loop looks at the ROS master twenty times a second.  The decision to stop is split in
two: the registry, which binds the first master it sees, tells whether that master is still
there, and the loop counts for how long it has not been.

`stop_requested_iff` says what this comes to, in terms of what the provider of the master's
process id answered.  The induction is over the history of answers, and its invariant
`Watching` says that the counter is the number of failures since the last answer of the bound
master.
-/

namespace Ros1Tools.Adapter

open Lib Publish

/-- `kUnavailableExitPolls`. -/
def unavailableExitPolls : Nat := 10

structure MainLoop where
  registry : Registry
  unavailablePolls : Nat
  stopRequested : Bool

namespace MainLoop

def start : MainLoop := ⟨.init, 0, false⟩

/-- One round of the loop; `none` if the provider threw.  The loop is left once the stop is
requested. -/
def poll (loop : MainLoop) (outcome : Option Int) : MainLoop :=
  if loop.stopRequested then loop
  else
    match loop.registry.probeMasterBinding outcome with
    | (.changed, registry) => { loop with registry, stopRequested := true }
    | (.unavailable, registry) =>
        { registry, unavailablePolls := loop.unavailablePolls + 1,
          stopRequested := decide (unavailableExitPolls ≤ loop.unavailablePolls + 1) }
    | (.bound, registry) => { loop with registry, unavailablePolls := 0 }
    | (.unbound, registry) => { loop with registry, unavailablePolls := 0 }

end MainLoop

/-! ## When to stop -/

/-- The process id of a successful poll. -/
def pidOf (outcome : Option Int) : Option Int := outcome.filter (0 < ·)

/-- The process id that is bound. -/
def firstPid (outcomes : List (Option Int)) : Option Int := outcomes.findSome? pidOf

/-- The master at poll `k` is not the first one. -/
def Replaced (outcomes : List (Option Int)) (k : Nat) : Prop :=
  ∃ outcome pid, outcomes[k]? = some outcome ∧ pidOf outcome = some pid ∧
    firstPid outcomes ≠ some pid

/-- The polls up to `k` have failed ten times in a row, and one before them had succeeded. -/
def Gone (outcomes : List (Option Int)) (k : Nat) : Prop :=
  9 ≤ k ∧ (∀ i, k - 9 ≤ i → i ≤ k → ∃ outcome, outcomes[i]? = some outcome ∧ pidOf outcome = none) ∧
    ∃ j < k - 9, ∃ outcome, outcomes[j]? = some outcome ∧ pidOf outcome ≠ none

def StopsAt (outcomes : List (Option Int)) (k : Nat) : Prop := Replaced outcomes k ∨ Gone outcomes k

/-! ### One more poll -/

section Concat

variable {seen : List (Option Int)} {outcome : Option Int} {k : Nat} {pid : Int}

theorem firstPid_append (later : List (Option Int)) :
    firstPid (seen ++ later) = (firstPid seen).or (firstPid later) := List.findSome?_append

theorem firstPid_concat :
    firstPid (seen ++ [outcome]) = (firstPid seen).or (pidOf outcome) := by
  have hsingle : firstPid [outcome] = pidOf outcome := by
    cases h : pidOf outcome <;> simp [firstPid, h]
  rw [firstPid_append, hsingle]

/-- What later polls answer does not matter. -/
theorem stopsAt_append_of_lt (hk : k < seen.length) (later : List (Option Int)) :
    StopsAt (seen ++ later) k ↔ StopsAt seen k := by
  have hget : ∀ i ≤ k, (seen ++ later)[i]? = seen[i]? := fun i hi =>
    List.getElem?_append_left (by omega)
  refine or_congr ?_ (and_congr_right fun _ => and_congr ?_ ?_)
  · unfold Replaced
    rw [hget k (Nat.le_refl k)]
    refine exists₂_congr fun o pid => and_congr_right fun ho => and_congr_right fun hpid => ?_
    obtain ⟨first, hfirst⟩ : ∃ first, firstPid seen = some first :=
      Option.isSome_iff_exists.mp
        (List.findSome?_isSome_iff.mpr ⟨o, List.mem_of_getElem? ho, by rw [hpid]; rfl⟩)
    rw [firstPid_append, hfirst, Option.some_or]
  · refine forall₃_congr fun i _ hi => ?_
    rw [hget i hi]
  · refine exists_congr fun j => and_congr_right fun hj => ?_
    rw [hget j (by omega)]

theorem StopsAt.lt_length (h : StopsAt seen k) : k < seen.length := by
  rcases h with ⟨_, _, hget, -⟩ | ⟨-, hfailed, -⟩
  · exact List.getElem?_eq_some_iff.mp hget |>.1
  · obtain ⟨_, hget, -⟩ := hfailed k (Nat.sub_le _ _) (Nat.le_refl _)
    exact List.getElem?_eq_some_iff.mp hget |>.1

theorem replaced_concat_length :
    Replaced (seen ++ [outcome]) seen.length ↔
      ∃ pid, pidOf outcome = some pid ∧ ∃ first, firstPid seen = some first ∧ first ≠ pid := by
  unfold Replaced
  rw [List.getElem?_concat_length, firstPid_concat]
  constructor
  · rintro ⟨_, pid, ⟨⟩, hpid, hfirst⟩
    cases hseen : firstPid seen with
    | none =>
        rw [hseen, hpid] at hfirst
        exact absurd rfl hfirst
    | some first =>
        rw [hseen, Option.some_or] at hfirst
        exact ⟨pid, hpid, first, rfl, fun h => hfirst (congrArg some h)⟩
  · rintro ⟨pid, hpid, first, hseen, hne⟩
    refine ⟨outcome, pid, rfl, hpid, ?_⟩
    rw [hseen, Option.some_or]
    exact fun h => hne (Option.some.inj h)

/-- A poll that succeeded is not part of an outage. -/
theorem not_gone_concat_length (h : pidOf outcome ≠ none) :
    ¬Gone (seen ++ [outcome]) seen.length := by
  rintro ⟨-, hfailed, -⟩
  obtain ⟨o, ho, hnone⟩ := hfailed seen.length (Nat.sub_le _ _) (Nat.le_refl _)
  rw [List.getElem?_concat_length] at ho
  cases ho
  exact h hnone

/-- The tenth failure since the last success. -/
theorem gone_concat_length (front : List (Option Int)) {back : List (Option Int)}
    {last : Option Int}
    (hlast : pidOf last ≠ none) (hback : ∀ o ∈ back, pidOf o = none) (h : pidOf outcome = none) :
    Gone (front ++ last :: back ++ [outcome]) (front ++ last :: back).length ↔
      9 ≤ back.length := by
  have hlength : (front ++ last :: back).length = front.length + 1 + back.length := by
    rw [List.length_append, List.length_cons]
    omega
  have hsplit : front ++ last :: back ++ [outcome] = front ++ last :: (back ++ [outcome]) := by
    rw [List.append_assoc, List.cons_append]
  have hat : (front ++ last :: (back ++ [outcome]))[front.length]? = some last := by
    rw [List.getElem?_append_right (Nat.le_refl _), Nat.sub_self, List.getElem?_cons_zero]
  have hafter : ∀ d, (front ++ last :: (back ++ [outcome]))[front.length + 1 + d]? =
      (back ++ [outcome])[d]? := fun d => by
    rw [List.getElem?_append_right (by omega), Nat.add_assoc, Nat.add_sub_cancel_left,
      Nat.add_comm 1 d, List.getElem?_cons_succ]
  have hfailures : ∀ o ∈ back ++ [outcome], pidOf o = none :=
    List.forall_mem_append.mpr ⟨hback, List.forall_mem_singleton.mpr h⟩
  rw [hlength, hsplit]
  constructor
  · rintro ⟨-, hfailed, -⟩
    -- Otherwise the last success is among the ten.
    by_contra hfew
    obtain ⟨o, ho, hnone⟩ := hfailed front.length (by omega) (by omega)
    rw [hat] at ho
    cases ho
    exact hlast hnone
  · intro hmany
    refine ⟨by omega, fun i hlo hhi => ?_, front.length, by omega, last, hat, hlast⟩
    obtain ⟨d, rfl⟩ := Nat.exists_eq_add_of_le (show front.length + 1 ≤ i by omega)
    have hd : d < (back ++ [outcome]).length := by
      rw [List.length_append, List.length_singleton]
      omega
    rw [hafter d]
    exact ⟨_, List.getElem?_eq_getElem hd, hfailures _ (List.getElem_mem hd)⟩

end Concat

/-! ## The history of a run -/

namespace MainLoop

variable {loop : MainLoop} {seen : List (Option Int)} {outcome : Option Int}

/-- The loop is running, and its counter is the number of failures since the last success. -/
structure Watching (seen : List (Option Int)) (loop : MainLoop) : Prop where
  running : loop.stopRequested = false
  bound : loop.registry.masterGeneration = (firstPid seen).getD 0
  unbound : firstPid seen = none → loop.unavailablePolls = 0
  outage : firstPid seen ≠ none → ∃ front last back, seen = front ++ last :: back ∧
    pidOf last ≠ none ∧ (∀ o ∈ back, pidOf o = none) ∧ back.length = loop.unavailablePolls
  few : loop.unavailablePolls < unavailableExitPolls
  going : ∀ k, ¬StopsAt seen k

theorem watching_start : Watching [] start where
  running := rfl
  bound := rfl
  unbound _ := rfl
  outage h := absurd rfl h
  few := by decide
  going _ h := absurd h.lt_length (Nat.not_lt_zero _)

/-- A stop at the new poll is the only one that the polls so far have not decided. -/
theorem Watching.going_concat (h : Watching seen loop)
    (hlast : ¬StopsAt (seen ++ [outcome]) seen.length) (k : Nat) :
    ¬StopsAt (seen ++ [outcome]) k := by
  rcases Nat.lt_trichotomy k seen.length with hk | rfl | hk
  · rw [stopsAt_append_of_lt hk]
    exact h.going k
  · exact hlast
  · intro hstop
    have hlt := hstop.lt_length
    rw [List.length_append, List.length_singleton] at hlt
    omega

/-- The registry tells a poll that failed by whether it has bound a master. -/
theorem probeMasterBinding_of_failed {registry : Registry} (h : pidOf outcome = none) :
    registry.probeMasterBinding outcome =
      (if registry.masterGeneration = 0 then .unbound else .unavailable, registry) := by
  cases outcome with
  | none => rfl
  | some current =>
      have hcurrent : current ≤ 0 := by
        by_contra hpos
        rw [pidOf, Option.filter_some, if_pos (decide_eq_true (by omega))] at h
        cases h
      rw [Registry.probeMasterBinding, if_pos hcurrent]

/-- One that succeeded is compared with the bound master. -/
theorem probeMasterBinding_of_pid (registry : Registry) {pid : Int}
    (h : pidOf outcome = some pid) :
    registry.probeMasterBinding outcome =
      let arrived := { registry with arrivals := registry.arrivals ++ [pid] }
      if registry.masterGeneration = 0 then (.bound, { arrived with masterGeneration := pid })
      else if registry.masterGeneration ≠ pid then (.changed, arrived)
      else (.bound, arrived) := by
  obtain ⟨rfl, hpos⟩ := Option.filter_eq_some_iff.mp h
  have hpos : 0 < pid := of_decide_eq_true hpos
  rw [Registry.probeMasterBinding, if_neg (by omega)]

/-! ### A round -/

/-- A failure before a master was bound. -/
theorem Watching.poll_unbound (h : Watching seen loop) (houtcome : pidOf outcome = none)
    (hfirst : firstPid seen = none) : Watching (seen ++ [outcome]) (loop.poll outcome) := by
  have hzero : loop.registry.masterGeneration = 0 := by
    rw [h.bound, hfirst]
    rfl
  have hpoll : loop.poll outcome = { loop with unavailablePolls := 0 } := by
    rw [poll, h.running, probeMasterBinding_of_failed houtcome, if_pos hzero]
    rfl
  have hfirst' : firstPid (seen ++ [outcome]) = none := by
    rw [firstPid_concat, hfirst, houtcome]
    rfl
  rw [hpoll]
  refine ⟨h.running, ?_, fun _ => rfl, fun hne => absurd hfirst' hne, Nat.succ_pos 9, ?_⟩
  · rw [hfirst']
    exact hzero
  · refine h.going_concat ?_
    rintro (hreplaced | ⟨-, -, j, -, o, ho, hne⟩)
    · obtain ⟨pid, hpid, -⟩ := replaced_concat_length.mp hreplaced
      rw [houtcome] at hpid
      cases hpid
    · rw [firstPid, List.findSome?_eq_none_iff] at hfirst'
      exact hne (hfirst' o (List.mem_of_getElem? ho))

/-- A failure of the bound master counts, and the tenth one in a row stops the loop. -/
theorem Watching.poll_outage (h : Watching seen loop) (houtcome : pidOf outcome = none)
    {first : Int} (hfirst : firstPid seen = some first) (hne : first ≠ 0) :
    Watching (seen ++ [outcome]) (loop.poll outcome) ∨
      (loop.poll outcome).stopRequested = true ∧ StopsAt (seen ++ [outcome]) seen.length := by
  have hbound : loop.registry.masterGeneration ≠ 0 := by
    rw [h.bound, hfirst]
    exact hne
  have hpoll : loop.poll outcome =
      ⟨loop.registry, loop.unavailablePolls + 1,
        decide (unavailableExitPolls ≤ loop.unavailablePolls + 1)⟩ := by
    rw [poll, h.running, probeMasterBinding_of_failed houtcome, if_neg hbound]
    rfl
  obtain ⟨front, last, back, rfl, hlast, hback, hlength⟩ := h.outage (by rw [hfirst]; nofun)
  have hgone := gone_concat_length front hlast hback houtcome
  rw [hlength] at hgone
  rw [hpoll]
  by_cases hten : unavailableExitPolls ≤ loop.unavailablePolls + 1
  · exact .inr ⟨decide_eq_true hten, .inr (hgone.mpr (Nat.le_of_succ_le_succ hten))⟩
  · have hfirst' : firstPid (front ++ last :: back ++ [outcome]) = some first := by
      rw [firstPid_concat, hfirst, Option.some_or]
    refine .inl ⟨decide_eq_false hten, ?_, ?_, fun _ => ?_, Nat.lt_of_not_le hten, ?_⟩
    · rw [hfirst', ← hfirst]
      exact h.bound
    · rw [hfirst']
      nofun
    · refine ⟨front, last, back ++ [outcome], by simp, hlast, ?_, ?_⟩
      · exact List.forall_mem_append.mpr ⟨hback, List.forall_mem_singleton.mpr houtcome⟩
      · rw [List.length_append, hlength]
        rfl
    · refine h.going_concat ?_
      rintro (hreplaced | hgone')
      · obtain ⟨pid, hpid, -⟩ := replaced_concat_length.mp hreplaced
        rw [houtcome] at hpid
        cases hpid
      · exact hten (Nat.succ_le_succ (hgone.mp hgone'))

/-- A success that does not stop the loop restarts the count. -/
theorem Watching.restart (h : Watching seen loop) {pid : Int} (houtcome : pidOf outcome = some pid)
    (hsame : ∀ first, firstPid seen = some first → first = pid) (registry : Registry)
    (hbound : registry.masterGeneration = pid) :
    Watching (seen ++ [outcome]) { loop with registry, unavailablePolls := 0 } := by
  have hfirst : firstPid (seen ++ [outcome]) = some pid := by
    rw [firstPid_concat, houtcome]
    cases hseen : firstPid seen with
    | none => rfl
    | some first => rw [hsame first hseen, Option.some_or]
  refine ⟨h.running, by rw [hfirst]; exact hbound, fun _ => rfl, fun _ => ?_, Nat.succ_pos 9, ?_⟩
  · exact ⟨seen, outcome, [], rfl, by rw [houtcome]; nofun, nofun, rfl⟩
  · refine h.going_concat ?_
    rintro (hreplaced | hgone)
    · obtain ⟨_, hpid, first, hseen, hne⟩ := replaced_concat_length.mp hreplaced
      rw [houtcome] at hpid
      cases hpid
      exact hne (hsame first hseen)
    · exact not_gone_concat_length (by rw [houtcome]; nofun) hgone

/-- A success binds the master or finds it again; another master stops the loop. -/
theorem Watching.poll_pid (h : Watching seen loop) {pid : Int} (houtcome : pidOf outcome = some pid)
    (hpositive : ∀ first, firstPid seen = some first → first ≠ 0) :
    Watching (seen ++ [outcome]) (loop.poll outcome) ∨
      (loop.poll outcome).stopRequested = true ∧ StopsAt (seen ++ [outcome]) seen.length := by
  have hprobe := probeMasterBinding_of_pid loop.registry houtcome
  have hbound := h.bound
  cases hseen : firstPid seen with
  | none =>
      rw [hseen, Option.getD_none] at hbound
      rw [if_pos hbound] at hprobe
      rw [poll, if_neg (Bool.eq_false_iff.mp h.running), hprobe]
      exact .inl (h.restart houtcome (by rw [hseen]; nofun) _ rfl)
  | some first =>
      rw [hseen, Option.getD_some] at hbound
      rw [if_neg (hbound ▸ hpositive first hseen)] at hprobe
      by_cases hsame : first = pid
      · rw [if_neg (not_not.mpr (hbound.trans hsame))] at hprobe
        rw [poll, if_neg (Bool.eq_false_iff.mp h.running), hprobe]
        refine .inl (h.restart houtcome ?_ _ (hbound.trans hsame))
        rw [hseen]
        rintro _ ⟨⟩
        exact hsame
      · rw [if_pos (hbound ▸ hsame)] at hprobe
        rw [poll, if_neg (Bool.eq_false_iff.mp h.running), hprobe]
        exact .inr ⟨rfl, .inl (replaced_concat_length.mpr ⟨pid, houtcome, first, hseen, hsame⟩)⟩

theorem firstPid_ne_zero {first : Int} (h : firstPid seen = some first) : first ≠ 0 := by
  obtain ⟨o, -, ho⟩ := List.exists_of_findSome?_eq_some h
  have hpos : 0 < first := of_decide_eq_true (Option.filter_eq_some_iff.mp ho).2
  omega

/-- A running loop goes on, or stops for the poll it has just made. -/
theorem Watching.poll (h : Watching seen loop) (outcome : Option Int) :
    Watching (seen ++ [outcome]) (loop.poll outcome) ∨
      (loop.poll outcome).stopRequested = true ∧ StopsAt (seen ++ [outcome]) seen.length := by
  cases houtcome : pidOf outcome with
  | none =>
      cases hfirst : firstPid seen with
      | none => exact .inl (h.poll_unbound houtcome hfirst)
      | some first => exact h.poll_outage houtcome hfirst (firstPid_ne_zero hfirst)
  | some pid => exact h.poll_pid houtcome fun _ => firstPid_ne_zero

/-- The loop has stopped for one of the polls, or is watching. -/
theorem watching_run (outcomes : List (Option Int)) :
    Watching outcomes (run MainLoop.poll start outcomes) ∨
      (run MainLoop.poll start outcomes).stopRequested = true ∧
        ∃ k < outcomes.length, StopsAt outcomes k := by
  induction outcomes using List.reverseRecOn with
  | nil => exact .inl watching_start
  | append_singleton seen outcome ih =>
      rw [run_concat, List.length_append, List.length_singleton]
      rcases ih with h | ⟨hstopped, k, hk, hstop⟩
      · exact (h.poll outcome).imp_right fun ⟨hstopped, hstop⟩ =>
          ⟨hstopped, seen.length, Nat.lt_succ_self _, hstop⟩
      · refine .inr ⟨?_, k, by omega, (stopsAt_append_of_lt hk _).mpr hstop⟩
        rw [MainLoop.poll, if_pos hstopped]
        exact hstopped

end MainLoop

/-- **The process stops when its master is replaced or stays gone.**  After any number of polls
the loop has requested the stop if and only if one of them is a poll to stop at: so it requests
it at the first of these, and is running before. -/
theorem stop_requested_iff (outcomes : List (Option Int)) (n : Nat) :
    (run MainLoop.poll .start (outcomes.take n)).stopRequested = true ↔
      ∃ k < n, StopsAt outcomes k := by
  have hsame : ∀ k, k < (outcomes.take n).length →
      (StopsAt outcomes k ↔ StopsAt (outcomes.take n) k) := fun k hk => by
    conv_lhs => rw [← List.take_append_drop n outcomes]
    exact stopsAt_append_of_lt hk _
  rcases MainLoop.watching_run (outcomes.take n) with h | ⟨hstopped, k, hk, hstop⟩
  · rw [h.running]
    refine ⟨nofun, ?_⟩
    rintro ⟨k, hk, hstop⟩
    have hlt : k < (outcomes.take n).length := by
      rw [List.length_take]
      exact lt_min hk hstop.lt_length
    exact absurd ((hsame k hlt).mp hstop) (h.going k)
  · refine ⟨fun _ => ⟨k, ?_, (hsame k hk).mpr hstop⟩, fun _ => hstopped⟩
    exact Nat.lt_of_lt_of_le hk (List.length_take_le _ _)

/-- An outage of nine polls is survived, and the poll after it restarts the count. -/
example :
    (run MainLoop.poll .start
        (some 7 :: List.replicate 9 none ++ some 7 :: List.replicate 9 (some 0))).stopRequested =
      false ∧
    (run MainLoop.poll .start
        (some 7 :: List.replicate 9 none ++ some 7 :: List.replicate 10 (some 0))).stopRequested =
      true := by
  decide

end Ros1Tools.Adapter
