import Ros1Tools.Service.Invariant

/-!
# The commit fence

`client.call` is entered behind a complete commit, and a call that ends outside
the uncertain class has not completed its commit.  Both facts are local to one
party.  What joins them is that the helper counts the bytes of a request the way
the parent does: the lengths it goes by are those of the header it has read, and
what it has read is a prefix of what the parent has sent, so a helper that has
consumed a request and a commit has consumed everything the parent ever sends.
-/

namespace Ros1Tools.Service

open Lib

/-! ## Agreement on the request -/

/-- The lengths in a request header are the lengths of its sections. -/
theorem Sending.requestFrame_lengths (p : Sending) :
    p.requestFrame.serviceNameBytes.toNat = p.request.service.length ∧
      p.requestFrame.serviceMd5Bytes.toNat = p.md5.length ∧
      p.requestFrame.payloadBytes.toNat = p.payload.1.length := by
  have hmd5 : p.md5.length = kServiceMd5Bytes := by
    have := p.md5_valid
    simp only [validServiceMd5, Bool.and_eq_true, beq_iff_eq] at this
    exact this.1
  have hname : p.request.service.length ≤ 4096 := p.service_le
  have hpayload : p.payload.1.length ≤ 8 * 1024 * 1024 := p.payload.2
  refine ⟨UInt32.toNat_ofNat_of_lt' ?_, UInt32.toNat_ofNat_of_lt' ?_,
    UInt32.toNat_ofNat_of_lt' ?_⟩
  · exact Nat.lt_of_le_of_lt hname (by decide)
  · rw [hmd5]
    decide
  · exact Nat.lt_of_le_of_lt hpayload (by decide)

/-- **A request the helper has read off the parent's stream is the parent's.** -/
theorem HelperRequest.agree {r : HelperRequest} {p : Sending} {x : Bytes}
    (h : r.bytes ++ x <+: p.stream) :
    r.header.bytes = p.requestFrame.encode ∧ r.service = p.request.service ∧ r.md5 = p.md5 ∧
      r.payload = p.payload.1 ∧ x <+: p.commitFrame.encode := by
  obtain ⟨hname, hmd5, hpayload⟩ := p.requestFrame_lengths
  rw [HelperRequest.bytes, List.append_assoc] at h
  obtain ⟨hheader, h⟩ := Bytes.eq_of_append_prefix
    (r.header.length_bytes.trans (Frame.length_encode _).symm) h rfl
  have hframe : r.header.frame = p.requestFrame := by
    rw [Header.frame, hheader]
    exact Frame.decode_encode _
  rw [List.append_assoc] at h
  obtain ⟨hservice, h⟩ := Bytes.eq_of_append_prefix
    (r.service_length.trans (by rw [hframe, hname]; rfl)) h rfl
  rw [List.append_assoc] at h
  obtain ⟨hdigest, h⟩ := Bytes.eq_of_append_prefix
    (r.md5_length.trans (by rw [hframe, hmd5]; rfl)) h rfl
  obtain ⟨hbody, h⟩ := Bytes.eq_of_append_prefix
    (r.payload_length.trans (by rw [hframe, hpayload]; rfl)) h rfl
  exact ⟨hheader, hservice, hdigest, hbody, h⟩

/-- A request and a commit are as long as everything the parent sends. -/
theorem HelperRequest.length_committed {r : HelperRequest} {p : Sending} (c : Commit r)
    (h : r.bytes ++ c.bytes <+: p.stream) : (r.bytes ++ c.bytes).length = p.stream.length := by
  obtain ⟨hheader, hservice, hdigest, hbody, -⟩ := HelperRequest.agree h
  have hcommit : c.bytes.length = p.commitFrame.encode.length :=
    c.length_bytes.trans (Frame.length_encode _).symm
  simp only [HelperRequest.bytes, Sending.stream, Sending.later, Sending.bytes, hheader, hservice,
    hdigest, hbody, List.length_append, hcommit, Nat.add_assoc]

/-- **The fence**: a helper inside the native call has read everything, so the
parent has sent everything. -/
theorem not_uncommitted_of_entered {s : System} {r : HelperRequest}
    (h : Entered s.helperView r) : ¬ Uncommitted s.parentView := by
  obtain ⟨c, hup⟩ := h.commit
  have hdelivered : r.bytes ++ c.bytes <+: s.up.sent := by
    rw [← hup]
    exact s.up.delivered_prefix
  rintro (⟨-, hnil⟩ | ⟨p, -, hprefix, hlen⟩)
  · have hle := hdelivered.length_le
    have hcommit := c.length_bytes
    rw [show s.up.sent = [] from hnil, List.length_append, hcommit] at hle
    exact absurd hle (by simp [Frame.size])
  · have hle := hdelivered.length_le
    rw [HelperRequest.length_committed c (hdelivered.trans hprefix)] at hle
    exact absurd hlen (Nat.not_lt.mpr hle)

theorem Gone.calls_eq_nil {s : System} (h : Gone s.helperView) (hu : Uncommitted s.parentView) :
    s.calls = [] := by
  rcases h with ⟨hidle, -⟩ | ⟨r, hentered, -⟩
  · exact hidle.calls
  · exact absurd hu (not_uncommitted_of_entered hentered)

theorem Gone.length_calls_le {v : HelperView} (h : Gone v) : v.calls.length ≤ 1 := by
  rcases h with ⟨hidle, -⟩ | ⟨r, hentered, -⟩
  · rw [hidle.calls]
    exact Nat.zero_le _
  · rw [hentered.calls]
    exact Nat.le_refl _

/-! ## Calls that ended without an uncertain outcome -/

/-- The call has ended, or has been reported, in a class that denies the side
effect. -/
def Parent.refused : Parent → Prop
  | .ended (.error e) => e.uncertain = false
  | .reported (.failure c _ _) => c ≠ .uncertain
  | .escaped => True
  | _ => False

theorem Parent.Inv.uncommitted {v : ParentView} {pc : Parent} (h : pc.Inv v) (hr : pc.refused) :
    Uncommitted v := by
  cases pc with
  | ended outcome =>
      cases outcome with
      | error e => exact h hr
      | ok result => exact hr.elim
  | reported result =>
      cases result with
      | success payload => exact hr.elim
      | failure c code message => exact h hr
  | escaped => exact h
  | _ => exact hr.elim

theorem Parent.refused_report {e : Exn} (h : e.uncertain = false) :
    (Parent.report e).refused := by
  unfold Parent.report
  cases hf : failure e with
  | none => exact trivial
  | some result =>
      cases result with
      | success payload => cases e with
        | tools e => cases hf
        | foreign f => cases f <;> cases hf
      | failure c code message =>
          intro hc
          have := (failure_uncertain_iff hf).mp hc
          exact absurd (h.symm.trans this) Bool.false_ne_true

/-- A refusal is final. -/
theorem refused_step (s : System) (a : Action) (h : s.parent.refused) :
    (step s a).parent.refused := by
  cases a with
  | parent env =>
      rw [step]
      cases hpc : s.parent with
      | ended outcome =>
          rw [hpc] at h
          cases outcome with
          | error e => exact Parent.refused_report h
          | ok result => exact h.elim
      | reported result =>
          rw [hpc] at h
          exact h
      | escaped => exact trivial
      | _ =>
          rw [hpc] at h
          exact h.elim
  | helper env =>
      rw [step]
      simpa using h
  | kill =>
      rw [step]
      split <;> exact h

/-- After a refusal the native call is never entered. -/
theorem calls_run_of_refused {s : System} (hinv : Inv s) (h : s.parent.refused)
    (js : List Action) : (run step s js).calls = [] := by
  have hstep (s : System) (a : Action) (h : Inv s ∧ s.parent.refused) :
      Inv (step s a) ∧ (step s a).parent.refused :=
    ⟨inv_step s a h.1, refused_step s a h.2⟩
  have hrun := run_invariant hstep ⟨hinv, h⟩ js
  exact hrun.1.helper.gone.calls_eq_nil (hrun.1.parent.uncommitted hrun.2)

/-! ## Entering the native call -/

/-- `client.call` is entered from one place. -/
theorem Helper.step_enterCall {env : HelperEnv} {up : ByteStream} {pc : Helper} {call : NativeCall}
    (h : (pc.step env up).2 = .enterCall call) : ∃ r c, pc = .call r c := by
  cases pc with
  | call r c => exact ⟨r, c, rfl⟩
  | unborn | inCall | exited => cases h
  | validate | available | client =>
      exfalso
      simp only [Helper.step] at h
      split at h
      · cases h
      · first | cases h | (split at h <;> cases h)
  | read reading got waiting =>
      exfalso
      simp only [Helper.step] at h
      split at h
      · cases h
      · split at h
        · split at h <;> cases h
        · split at h
          · split at h <;> cases h
          all_goals cases h
  | write writing rest waiting =>
      exfalso
      simp only [Helper.step] at h
      split at h
      · cases h
      · split at h
        · split at h <;> cases h
        · split at h <;> cases h

/-- A step that enters `client.call` is a step of a helper that holds a commit. -/
theorem exists_commit_of_calls_ne {s : System} (hinv : Inv s) {a : Action}
    (h : (step s a).calls ≠ s.calls) :
    ∃ (r : HelperRequest) (c : Commit r), s.up.delivered = r.bytes ++ c.bytes := by
  cases a with
  | parent env =>
      refine absurd ?_ h
      rw [step]
      exact congrArg HelperView.calls (s.helperView_apply _)
  | kill =>
      refine absurd ?_ h
      rw [step]
      split <;> rfl
  | helper env =>
      rw [step] at h
      have hhelper := hinv.helper
      cases he : (s.helper.step env s.up).2 with
      | enterCall call =>
          obtain ⟨r, c, hpc⟩ := Helper.step_enterCall he
          rw [hpc] at hhelper
          exact ⟨r, c, hhelper.2.1⟩
      | none | send | receive | leaveCall =>
          rw [he] at h
          exact absurd rfl h

/-- **Service commit fence.**  Whatever the two parties are answered and however
their steps interleave:

* `client.call` is entered at most once;
* a step that enters it is taken when the helper has received a complete request
  and, behind it, the 64 bytes of a commit frame with the identifier of that
  request;
* once `call` has ended with an error outside the uncertain class, it has not been
  entered and never is;
* once `CallService` has reported a failure of any class but uncertain, it has not
  been entered and never is. -/
theorem service_commit_fence (is : List Action) :
    let s := run step System.init is
    s.calls.length ≤ 1 ∧
    (∀ a, (step s a).calls ≠ s.calls → ∃ (r : HelperRequest) (commit : Bytes),
      s.up.delivered = r.bytes ++ commit ∧ commit.length = 64 ∧
        validateServiceHelperCommit (Frame.decode commit) r.header.frame.requestId = true ∧
        (Frame.decode commit).requestId = r.header.frame.requestId) ∧
    (∀ e, s.parent = .ended (.error e) → e.uncertain = false →
      ∀ js, (run step s js).calls = []) ∧
    (∀ c code message, s.parent = .reported (.failure c code message) → c ≠ .uncertain →
      ∀ js, (run step s js).calls = []) := by
  intro s
  have hinv : Inv s := inv_run is
  refine ⟨hinv.helper.gone.length_calls_le, fun a ha => ?_, fun e hpc he => ?_,
    fun c code message hpc hc => ?_⟩
  · obtain ⟨r, c, hup⟩ := exists_commit_of_calls_ne hinv ha
    exact ⟨r, c.bytes, hup, c.length_bytes, c.valid, requestId_of_validateCommit c.valid⟩
  · refine calls_run_of_refused hinv ?_
    rw [hpc]
    exact he
  · refine calls_run_of_refused hinv ?_
    rw [hpc]
    exact hc

/-- An undisturbed call enters `client.call`. -/
example : (run step System.init (calmly 16 18 ++ calmly 10 6)).calls.length = 1 := by
  decide +kernel

/-- A call that is cancelled with 63 bytes of its commit sent does not, although
the helper goes on. -/
example :
    let s := run step System.init (calmly 16 18 ++ calmly 4 0 ++
      [.parent { Env.calm with transfer := .moved 62 },
        .parent { Env.calm with cancellationRequested := true }] ++ calmly 0 6 ++ calmly 4 6)
    s.up.delivered.length = 99 + 63 ∧ s.calls.length = 0 ∧
      (match s.parent with
        | .reported (.failure .cancelled _ _) => true
        | _ => false) = true := by
  decide +kernel

end Ros1Tools.Service
