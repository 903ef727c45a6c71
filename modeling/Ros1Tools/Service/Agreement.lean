import Ros1Tools.Adapter.Request
import Ros1Tools.Service.Integrity

/-!
# Nothing that is sent is refused

The limits of the protocol are checked once by the side that builds a frame and again by
the side that reads it.  Both checks agree: in every run in which `CallService` admitted the
request, whatever complete frame a party has in front of it passes the party's validator, and
the helper finds the name and the digest it asks for.

The argument needs to know what either party has said so far even when it has gone, which the
two halves of the invariant do not record; `Streamed` and `Spoken` do.
-/

namespace Ros1Tools.Service

open Lib Adapter

/-! ## Frames -/

theorem base_iff {frame : Frame} (hmagic : frame.magic = kServiceHelperProtocolMagic)
    (hversion : frame.version = kServiceHelperProtocolVersion)
    (hreserved : frame.reserved = Vector.replicate 28 0) :
    validServiceHelperFrameBase frame = true ↔ frame.requestId ≠ 0 := by
  have hzero : serviceHelperBytesAreZero (Vector.replicate 28 0) = true := by
    decide +kernel
  simp [validServiceHelperFrameBase, hmagic, hversion, hreserved, hzero]

/-- A ready frame is accepted for the identifier it was made with and for no other. -/
theorem validateReady_iff {id : UInt64} (hid : id ≠ 0) (status : ReadyStatus) (expected : UInt64) :
    validateServiceHelperReady (makeServiceHelperReady id status) expected = true ↔
      id = expected := by
  have hbase : validServiceHelperFrameBase (makeServiceHelperReady id status) = true :=
    (base_iff rfl rfl rfl).mpr hid
  unfold validateServiceHelperReady
  rw [hbase]
  cases status <;>
    simp [makeServiceHelperReady, Frame.zero, ReadyStatus.code]

/-- So is a commit frame. -/
theorem validateCommit_iff {id : UInt64} (hid : id ≠ 0) (expected : UInt64) :
    validateServiceHelperCommit (makeServiceHelperCommit id) expected = true ↔ id = expected := by
  have hbase : validServiceHelperFrameBase (makeServiceHelperCommit id) = true :=
    (base_iff rfl rfl rfl).mpr hid
  unfold validateServiceHelperCommit
  rw [hbase]
  simp [makeServiceHelperCommit, Frame.zero]

/-- And a response frame with a payload within the limit, if only a completed one has any. -/
theorem validateResponse_iff {id : UInt64} (hid : id ≠ 0) {status : ResponseStatus} {size : Nat}
    (hsize : size ≤ kMaximumServicePayloadBytes) (hempty : status ≠ .completed → size = 0)
    (expected : UInt64) :
    validateServiceHelperResponse (makeServiceHelperResponse id status size) expected = true ↔
      id = expected := by
  have hbase : validServiceHelperFrameBase (makeServiceHelperResponse id status size) = true :=
    (base_iff rfl rfl rfl).mpr hid
  have hbytes : (makeServiceHelperResponse id status size).payloadBytes.toNat = size :=
    UInt32.toNat_ofNat_of_lt' (lt_of_le_of_lt hsize (by decide))
  unfold validateServiceHelperResponse
  rw [hbase, hbytes]
  cases status with
  | completed =>
      simp [makeServiceHelperResponse, Frame.zero, ResponseStatus.code, not_lt.mpr hsize]
  | callFailed | responseTooLarge | protocolError =>
      cases hempty (by decide)
      simp [makeServiceHelperResponse, Frame.zero, ResponseStatus.code]

/-- The frame a native result is answered with has a payload only if it is a completed one. -/
theorem answer_frame (id : UInt64) (result : CallResult) :
    ∃ status size, (answer id result).1 = makeServiceHelperResponse id status size ∧
      size ≤ kMaximumServicePayloadBytes ∧ (status ≠ .completed → size = 0) := by
  unfold answer
  split
  · exact ⟨.callFailed, 0, rfl, Nat.zero_le _, fun _ => rfl⟩
  · exact ⟨.callFailed, 0, rfl, Nat.zero_le _, fun _ => rfl⟩
  · split
    · exact ⟨.protocolError, 0, rfl, Nat.zero_le _, fun _ => rfl⟩
    · rename_i data hdata
      split
      · exact ⟨.responseTooLarge, 0, rfl, Nat.zero_le _, fun _ => rfl⟩
      · rename_i hle
        exact ⟨.completed, data.length, rfl, not_lt.mp hle, fun h => absurd rfl h⟩

theorem validateResponse_answer_iff {id : UInt64} (hid : id ≠ 0) (result : CallResult)
    (expected : UInt64) :
    validateServiceHelperResponse (answer id result).1 expected = true ↔ id = expected := by
  obtain ⟨status, size, heq, hsize, hempty⟩ := answer_frame id result
  rw [heq]
  exact validateResponse_iff hid hsize hempty expected

/-- A request frame is accepted if the wait is within its limit; everything else was checked
when the request was made. -/
theorem Sending.validate_requestFrame (p : Sending)
    (hwait : p.request.waitForServiceMs.toNat ≤ kMaximumServiceWaitMilliseconds) :
    validateServiceHelperRequest p.requestFrame = true := by
  obtain ⟨hname, hmd5, hpayload⟩ := p.requestFrame_lengths
  have hbase : validServiceHelperFrameBase p.requestFrame = true :=
    (base_iff rfl rfl rfl).mpr p.requestId_ne
  have hdigest : p.md5.length = kServiceMd5Bytes := by
    have hvalid := p.md5_valid
    rw [validServiceMd5, Bool.and_eq_true, beq_iff_eq] at hvalid
    exact hvalid.1
  unfold validateServiceHelperRequest
  rw [hbase, hname, hmd5, hpayload, hdigest]
  have hwait' : p.requestFrame.waitForServiceMs.toNat ≤ kMaximumServiceWaitMilliseconds := hwait
  have hkind : p.requestFrame.kind = FrameKind.request.code := rfl
  have hstatus : p.requestFrame.status = 0 := rfl
  simp [hkind, hstatus, p.service_pos, p.service_le, p.payload.2, hwait']

/-! ## What was admitted -/

/-- What a step does with the request: it carries the one it had or the one that was admitted,
and only a parent that is sending has named or sent anything. -/
structure Parent.Moves (pc : Parent) (env : Env) (next : Parent × Effect) : Prop where
  request : ∀ r, next.1.request? = some r → pc.request? = some r ∨ env.admission = .ok r
  issue : ∀ p, next.2 = .issue p → pc.request? = some p.request ∧
    ∃ rest waiting, next.1 = .send p .frame rest waiting
  send : ∀ bytes, next.2 = .send bytes → ∃ p piece rest waiting, next.1 = .send p piece rest waiting

/-- A request without an identifier is carried only in front of the helper's work. -/
theorem Parent.request?_eq_none {pc : Parent} {stage : Stage} (h : pc.stage = stage)
    (hstage : stage = .helping ∨ stage = .decoding ∨ stage = .ended ∨ stage = .returned) :
    pc.request? = none := by
  subst h
  cases pc with
  | call | prepared | acquire | start | nextRequestId =>
      rcases hstage with h | h | h | h <;> cases h
  | _ => rfl

/-- A step that is not about the request. -/
theorem Parent.Moves.of_none {pc next : Parent} {env : Env} {e : Effect}
    (h : next.request? = none) (he : e.silent) : pc.Moves env (next, e) where
  request r hr := by cases h.symm.trans hr
  issue p hp := by
    cases hp
    exact he.elim
  send bytes hb := by
    cases hb
    exact he.elim

theorem Parent.Advance.moves {env : Env} {pc : Parent} {next : Parent × Effect}
    (h : pc.Advance env next) : pc.Moves env next := by
  cases h with
  | prepare h hnext hrequest =>
      refine ⟨hrequest, ?_, ?_⟩
      · rintro p ⟨⟩
      · rintro bytes ⟨⟩
  | acquire | fetchAgain | spawn =>
      refine ⟨fun r hr => .inl hr, ?_, ?_⟩
      · rintro p ⟨⟩
      · rintro bytes ⟨⟩
  | refuse h hnext =>
      rcases hnext with hnext | hnext
      · exact .of_none (request?_eq_none hnext (by decide)) trivial
      · exact .of_none (request?_eq_none hnext (by decide)) trivial
  | spawnFails => exact .of_none rfl trivial
  | issue p rest =>
      refine ⟨?_, ?_, ?_⟩
      · rintro r ⟨⟩
      · rintro p ⟨⟩
        exact ⟨rfl, rest, false, rfl⟩
      · rintro bytes ⟨⟩
  | send p piece rest rest' bytes waiting =>
      refine ⟨?_, ?_, ?_⟩
      · rintro r ⟨⟩
      · rintro p ⟨⟩
      · exact fun _ _ => ⟨p, piece, rest', false, rfl⟩
  | help _ hnext he => exact .of_none (request?_eq_none hnext (by decide)) he
  | resume next =>
      rcases stage_resume next with hnext | hnext
      · exact .of_none (request?_eq_none hnext (by decide)) trivial
      · exact .of_none (request?_eq_none hnext (by decide)) trivial
  | decode _ _ _ hnext he => exact .of_none (request?_eq_none hnext (by decide)) he
  | finish _ hnext => exact .of_none (request?_eq_none hnext (by decide)) trivial
  | idle h => exact .of_none (request?_eq_none h (by decide)) trivial

/-- **What a step of the parent does with its request.** -/
theorem Parent.moves_step (env : Env) (down : ByteStream) (exited : Bool) (pc : Parent) :
    pc.Moves env (pc.step env down exited) :=
  (Parent.advance_step env down exited pc).moves

/-! ## What was said -/

/-- Everything the parent has sent is part of one stream. -/
def Streamed (v : ParentView) : Prop :=
  (v.issued = none ∧ v.up = []) ∨ ∃ p, v.issued = some p ∧ v.up <+: p.stream

/-- A sending parent has sent part of its stream. -/
theorem Parent.Inv.streamed {v : ParentView} {p : Sending} {piece : Section} {rest : Bytes}
    {waiting : Bool} (h : (Parent.send p piece rest waiting).Inv v) : Streamed v := by
  have hsent {rest : Bytes} (h : Sent v p rest) : Streamed v :=
    .inr ⟨p, h.issued, rest, h.up⟩
  cases piece with
  | frame | service | md5 | payload | commit => exact hsent h.1

theorem Parent.streamed_step {v : ParentView} (env : Env) (down : ByteStream) (exited : Bool)
    (pc : Parent) (hinv : pc.Inv v) (h : Streamed v) :
    Streamed (v.apply down (pc.step env down exited).2) := by
  have hmoves := Parent.moves_step env down exited pc
  have hnext : (pc.step env down exited).1.Inv _ := Parent.inv_step env down exited pc hinv
  cases he : (pc.step env down exited).2 with
  | issue p =>
      obtain ⟨-, rest, waiting, hsend⟩ := hmoves.issue p he
      rw [he, hsend] at hnext
      exact hnext.streamed
  | send bytes =>
      obtain ⟨p, piece, rest, waiting, hsend⟩ := hmoves.send bytes he
      rw [he, hsend] at hnext
      exact hnext.streamed
  | none | start | kill | receive | hand => exact h

/-- Everything the helper has sent answers one request that it has read. -/
def Spoken (v : HelperView) : Prop :=
  v.down = [] ∨ ∃ r x, v.up = r.bytes ++ x ∧
    ((∃ status, v.down <+: (makeServiceHelperReady r.requestId status).encode) ∨
      ∃ result, v.down <+: readyBytes r ++ answerBytes r result)

/-- The helper sends from one place. -/
theorem Helper.step_send {env : HelperEnv} {up : ByteStream} {pc : Helper} {bytes : Bytes}
    (h : (pc.step env up).2 = .send bytes) :
    ∃ writing rest waiting, (pc.step env up).1 = .write writing rest waiting := by
  cases pc with
  | unborn | inCall | exited | call => cases h
  | validate | available | client =>
      exfalso
      simp only [Helper.step] at h
      split at h
      · cases h
      · first | cases h | (split at h <;> cases h)
  | read reading got waiting =>
      exfalso
      simp only [Helper.step] at h
      split at h
      · cases h
      · split at h
        · split at h <;> cases h
        · split at h
          · split at h <;> cases h
          all_goals cases h
  | write writing rest waiting =>
      simp only [Helper.step] at h ⊢
      split at h
      · cases h
      · rename_i hrest
        rw [if_neg hrest]
        split at h
        · split at h <;> cases h
        · rename_i hwaiting
          rw [if_neg hwaiting]
          split at h
          · exact ⟨_, _, _, rfl⟩
          all_goals cases h

/-- A writing helper has said part of an answer. -/
theorem Helper.Inv.spoken {v : HelperView} {writing : Writing} {rest : Bytes} {waiting : Bool}
    (h : (Helper.write writing rest waiting).Inv v) : Spoken v := by
  have hanswered {r : HelperRequest} {result : CallResult} {rest : Bytes}
      (h : Answered v r result rest) : Spoken v := by
    obtain ⟨c, hup⟩ := h.entered.commit
    exact .inr ⟨r, c.bytes, hup, .inr ⟨result, rest, h.down⟩⟩
  cases writing with
  | ready r status =>
      obtain ⟨-, hup, hdown⟩ := h
      exact .inr ⟨r, [], hup.trans (List.append_nil _).symm, .inl ⟨status, rest, hdown⟩⟩
  | response r result => exact hanswered h
  | payload r result => exact hanswered h

theorem Helper.spoken_step {v : HelperView} (env : HelperEnv) (up : ByteStream) (pc : Helper)
    (hinv : pc.Inv v) (h : Spoken v) : Spoken (v.apply up (pc.step env up).2) := by
  have hnext : (pc.step env up).1.Inv _ := Helper.inv_step env up pc hinv
  cases he : (pc.step env up).2 with
  | send bytes =>
      obtain ⟨writing, rest, waiting, hwrite⟩ := Helper.step_send he
      rw [he, hwrite] at hnext
      exact hnext.spoken
  | receive n =>
      rcases h with hnil | ⟨r, x, hup, hdown⟩
      · exact .inl hnil
      · refine .inr ⟨r, x ++ up.chunk n, ?_, hdown⟩
        rw [HelperView.apply, hup, List.append_assoc]
  | none | enterCall | leaveCall => exact h

/-! ## Both sides -/

/-- The parent's requests are those `CallService` admits, of any adapter, and the helper has the
same `ros::names::validate`. -/
def Action.Admitted (platform : Platform) (contract : Contract) : Action → Prop
  | .parent env => ∀ call, env.admission = .ok call →
      ∃ (adapter : ToolsAdapter) (request : OperationRequest),
        adapter.callService platform contract request = .ok call
  | .helper env => env.namesValidate = platform.validName
  | .kill => True

/-- What holds along a run of admitted requests. -/
structure Agreed (platform : Platform) (s : System) : Prop where
  inv : Inv s
  request : ∀ r, s.parent.request? = some r → platform.Serves r
  issued : ∀ p, s.issued = some p → platform.Serves p.request
  streamed : Streamed s.parentView
  spoken : Spoken s.helperView

section Agreed

variable {platform : Platform} {contract : Contract} {s : System}

theorem Agreed.step {a : Action} (ha : a.Admitted platform contract) (h : Agreed platform s) :
    Agreed platform (step s a) := by
  have hinv : Inv (Service.step s a) := inv_step s a h.inv
  cases a with
  | kill =>
      rw [Service.step] at hinv ⊢
      split at hinv
      · exact h
      · exact ⟨hinv, h.request, h.issued, h.streamed, h.spoken⟩
  | helper env =>
      have hparent : (Service.step s (.helper env)).parent = s.parent := s.parent_applyHelper _
      have hview : (Service.step s (.helper env)).parentView = s.parentView :=
        s.parentView_applyHelper _
      refine ⟨hinv, ?_, ?_, ?_, ?_⟩
      · rw [hparent]
        exact h.request
      · intro p hp
        exact h.issued p ((congrArg ParentView.issued hview).symm.trans hp)
      · rw [hview]
        exact h.streamed
      · have hspoken := Helper.spoken_step env s.up s.helper h.inv.helper h.spoken
        rw [← s.helperView_applyHelper] at hspoken
        exact hspoken
  | parent env =>
      have hmoves := Parent.moves_step env s.down s.helperExited s.parent
      have hview : (Service.step s (.parent env)).parentView =
          s.parentView.apply s.down (s.parent.step env s.down s.helperExited).2 :=
        s.parentView_apply _
      refine ⟨hinv, ?_, ?_, ?_, ?_⟩
      · intro r hr
        rcases hmoves.request r hr with hr | hr
        · exact h.request r hr
        · obtain ⟨adapter, request, hcall⟩ := ha r hr
          exact ToolsAdapter.callService_eq_ok hcall
      · intro p hp
        have hissued := (congrArg ParentView.issued hview).symm.trans hp
        cases he : (s.parent.step env s.down s.helperExited).2 with
        | issue p' =>
            rw [he] at hissued
            cases hissued
            exact h.request _ (hmoves.issue p he).1
        | none | start | kill | send | receive | hand =>
            rw [he] at hissued
            exact h.issued p hissued
      · rw [hview]
        exact Parent.streamed_step env s.down s.helperExited s.parent h.inv.parent h.streamed
      · have hspoken := h.spoken
        rw [← s.helperView_apply (s.parent.step env s.down s.helperExited).2] at hspoken
        exact hspoken

theorem agreed_run {is : List Action} (his : ∀ a ∈ is, a.Admitted platform contract) :
    Agreed platform (run step System.init is) := by
  induction is using List.reverseRecOn with
  | nil =>
      refine ⟨inv_run [], ?_, ?_, .inl ⟨rfl, rfl⟩, .inl rfl⟩
      · rintro r ⟨⟩
      · rintro p ⟨⟩
  | append_singleton is a ih =>
      rw [run_concat]
      have ha := his a (List.mem_append_right _ (List.mem_singleton_self a))
      exact (ih fun b hb => his b (List.mem_append_left _ hb)).step ha

/-- What the helper has read is part of the stream of a request that was admitted. -/
theorem Agreed.exists_stream (h : Agreed platform s) (hne : s.up.delivered ≠ []) :
    ∃ p, s.issued = some p ∧ platform.Serves p.request ∧ s.up.delivered <+: p.stream := by
  rcases h.streamed with ⟨-, hup⟩ | ⟨p, hissued, hup⟩
  · refine absurd (List.prefix_nil.mp ?_) hne
    rw [← show s.up.sent = [] from hup]
    exact s.up.delivered_prefix
  · exact ⟨p, hissued, h.issued p hissued, s.up.delivered_prefix.trans hup⟩

/-- A complete request frame in front of the helper. -/
theorem Agreed.header (h : Agreed platform s) {got : Bytes} {waiting : Bool}
    (hpc : s.helper = .read .header got waiting) (hgot : got.length = Frame.size) :
    validateServiceHelperRequest (Frame.decode got) = true := by
  have hhelper := h.inv.helper
  rw [hpc] at hhelper
  obtain ⟨-, -, hup, -⟩ := hhelper
  have hup : s.up.delivered = got := hup
  obtain ⟨p, -, hserves, hstream⟩ := h.exists_stream (by
    rw [hup]
    rintro rfl
    cases hgot)
  rw [hup, ← List.append_nil got] at hstream
  obtain ⟨hframe, -⟩ := Bytes.eq_of_append_prefix
    (hgot.trans (Frame.length_encode p.requestFrame).symm) hstream rfl
  rw [hframe, Frame.decode_encode]
  exact p.validate_requestFrame hserves.wait_le

/-- A complete request in front of the helper is one that was admitted. -/
theorem Agreed.helperRequest (h : Agreed platform s) {r : HelperRequest} {x : Bytes}
    (hup : s.up.delivered = r.bytes ++ x) :
    ∃ p, s.issued = some p ∧ platform.Serves p.request ∧ r.bytes ++ x <+: p.stream := by
  obtain ⟨p, hissued, hserves, hstream⟩ := h.exists_stream (by
    rw [hup]
    intro hnil
    have hheader := congrArg List.length (List.append_eq_nil_iff.mp
      (List.append_eq_nil_iff.mp hnil).1).1
    rw [r.header.length_bytes] at hheader
    cases hheader)
  exact ⟨p, hissued, hserves, hup ▸ hstream⟩

theorem Agreed.validate (h : Agreed platform s) {r : HelperRequest} (hpc : s.helper = .validate r) :
    validAbsoluteServiceName platform.validName r.service = true ∧
      validServiceMd5 r.md5 = true := by
  have hhelper := h.inv.helper
  rw [hpc] at hhelper
  obtain ⟨-, hup, -⟩ := hhelper
  obtain ⟨p, -, hserves, hstream⟩ := h.helperRequest (hup.trans (List.append_nil _).symm)
  obtain ⟨-, hservice, hmd5, -, -⟩ := HelperRequest.agree hstream
  rw [hservice, hmd5]
  exact ⟨hserves.name, p.md5_valid⟩

/-- The identifier the helper goes by is the parent's. -/
theorem HelperRequest.requestId_eq {r : HelperRequest} {p : Sending} {x : Bytes}
    (h : r.bytes ++ x <+: p.stream) : r.requestId = p.requestId := by
  obtain ⟨hheader, -⟩ := HelperRequest.agree h
  rw [HelperRequest.requestId, Header.frame, hheader, Frame.decode_encode]
  rfl

/-- A complete commit frame in front of the helper. -/
theorem Agreed.commit (h : Agreed platform s) {r : HelperRequest} {got : Bytes} {waiting : Bool}
    (hpc : s.helper = .read (.commit r) got waiting) (hgot : got.length = Frame.size) :
    validateServiceHelperCommit (Frame.decode got) r.requestId = true := by
  have hhelper := h.inv.helper
  rw [hpc] at hhelper
  obtain ⟨-, -, hup, -⟩ := hhelper
  obtain ⟨p, -, -, hstream⟩ := h.helperRequest hup
  obtain ⟨-, -, -, -, hcommit⟩ := HelperRequest.agree hstream
  rw [hcommit.eq_of_length (hgot.trans (Frame.length_encode _).symm), Frame.decode_encode]
  exact (validateCommit_iff p.requestId_ne _).mpr (HelperRequest.requestId_eq hstream).symm

/-- What the parent has read answers its own request. -/
theorem Agreed.exists_answer (h : Agreed platform s) {p : Sending} {rest : Bytes}
    (hsent : Sent s.parentView p rest) (hne : s.down.delivered ≠ []) :
    ∃ r : HelperRequest, r.requestId = p.requestId ∧
      ((∃ status, s.down.delivered <+: (makeServiceHelperReady r.requestId status).encode) ∨
        ∃ result, s.down.delivered <+: readyBytes r ++ answerBytes r result) := by
  rcases h.spoken with hdown | ⟨r, x, hup, hdown⟩
  · refine absurd (List.prefix_nil.mp ?_) hne
    rw [← show s.down.sent = [] from hdown]
    exact s.down.delivered_prefix
  · have hstream : r.bytes ++ x <+: p.stream := by
      rw [← show s.up.delivered = r.bytes ++ x from hup]
      exact s.up.delivered_prefix.trans ⟨rest, hsent.up⟩
    refine ⟨r, HelperRequest.requestId_eq hstream, ?_⟩
    rcases hdown with ⟨status, hdown⟩ | ⟨result, hdown⟩
    · exact .inl ⟨status, s.down.delivered_prefix.trans hdown⟩
    · exact .inr ⟨result, s.down.delivered_prefix.trans hdown⟩

theorem ne_nil_of_length {got : Bytes} (hgot : got.length = Frame.size) : got ≠ [] := by
  rintro rfl
  cases hgot

/-- A complete ready frame in front of the parent. -/
theorem Agreed.ready (h : Agreed platform s) {p : Sending} {got : Bytes} {waiting : Bool}
    (hpc : s.parent = .readReady p got waiting) (hgot : got.length = Frame.size) :
    validateServiceHelperReady (Frame.decode got) p.requestId = true := by
  have hparent := h.inv.parent
  rw [hpc] at hparent
  obtain ⟨hsent, hdown, -⟩ := hparent
  have hdown : s.down.delivered = got := hdown
  obtain ⟨r, hid, hanswer⟩ := h.exists_answer hsent (hdown ▸ ne_nil_of_length hgot)
  have hframe : ∃ status, got = (makeServiceHelperReady r.requestId status).encode := by
    rw [hdown] at hanswer
    rcases hanswer with ⟨status, hanswer⟩ | ⟨result, hanswer⟩
    · exact ⟨status, hanswer.eq_of_length (hgot.trans (Frame.length_encode _).symm)⟩
    · rw [← List.append_nil got] at hanswer
      exact ⟨.ready, (Bytes.eq_of_append_prefix
        (hgot.trans (length_readyBytes r).symm) hanswer rfl).1⟩
  obtain ⟨status, hframe⟩ := hframe
  rw [hframe, Frame.decode_encode, hid]
  exact (validateReady_iff p.requestId_ne status _).mpr rfl

/-- A complete response frame in front of the parent. -/
theorem Agreed.response (h : Agreed platform s) {p : Sending} {got : Bytes} {waiting : Bool}
    (hpc : s.parent = .readResponse p got waiting) (hgot : got.length = Frame.size) :
    validateServiceHelperResponse (Frame.decode got) p.requestId = true := by
  have hparent := h.inv.parent
  rw [hpc] at hparent
  obtain ⟨hsent, -, ready, hready, hdown⟩ := hparent
  have hdown : s.down.delivered = ready ++ got := hdown
  have hlength : (ready ++ got).length = Frame.size + Frame.size := by
    rw [List.length_append, hready, hgot]
  obtain ⟨r, hid, hanswer⟩ := h.exists_answer hsent (by
    rw [hdown]
    exact List.append_ne_nil_of_left_ne_nil (ne_nil_of_length hready) _)
  rw [hdown] at hanswer
  rcases hanswer with ⟨status, hanswer⟩ | ⟨result, hanswer⟩
  · -- Two frames do not fit into one.
    have hle := hanswer.length_le
    rw [hlength, Frame.length_encode] at hle
    exact absurd hle (by decide)
  · obtain ⟨-, hanswer⟩ := Bytes.eq_of_append_prefix
      (hready.trans (length_readyBytes r).symm) hanswer rfl
    rw [answerBytes, ← List.append_nil got] at hanswer
    obtain ⟨hframe, -⟩ := Bytes.eq_of_append_prefix
      (hgot.trans (Frame.length_encode _).symm) hanswer rfl
    rw [hframe, Frame.decode_encode, hid]
    exact (validateResponse_answer_iff p.requestId_ne result _).mpr rfl

end Agreed

/-- **Admitted requests are accepted.**  In every run whose requests passed `CallService`, with
one `ros::names::validate` on both sides:

* the frame of the request that was assigned an identifier is valid, its lengths are those of
  the sections that are sent, and its name and digest are valid;
* a complete request frame, a complete request and a complete commit pass the checks of the
  helper;
* a complete ready or response frame passes the checks of the parent.

And whatever the identifier: a frame either side makes is accepted for that identifier and for
no other. -/
theorem admitted_requests_accepted (platform : Platform) (contract : Contract) (is : List Action)
    (his : ∀ a ∈ is, a.Admitted platform contract) :
    let s := run step System.init is
    (∀ p, s.issued = some p →
      validateServiceHelperRequest p.requestFrame = true ∧
      p.requestFrame.serviceNameBytes.toNat = p.request.service.length ∧
      p.requestFrame.serviceMd5Bytes.toNat = p.md5.length ∧
      p.requestFrame.payloadBytes.toNat = p.payload.1.length ∧
      validAbsoluteServiceName platform.validName p.request.service = true ∧
      validServiceMd5 p.md5 = true) ∧
    (∀ got waiting, s.helper = .read .header got waiting → got.length = Frame.size →
      validateServiceHelperRequest (Frame.decode got) = true) ∧
    (∀ r, s.helper = .validate r →
      validAbsoluteServiceName platform.validName r.service = true ∧
        validServiceMd5 r.md5 = true) ∧
    (∀ r got waiting, s.helper = .read (.commit r) got waiting → got.length = Frame.size →
      validateServiceHelperCommit (Frame.decode got) r.requestId = true) ∧
    (∀ p got waiting, s.parent = .readReady p got waiting → got.length = Frame.size →
      validateServiceHelperReady (Frame.decode got) p.requestId = true) ∧
    (∀ p got waiting, s.parent = .readResponse p got waiting → got.length = Frame.size →
      validateServiceHelperResponse (Frame.decode got) p.requestId = true) ∧
    ∀ id expected : UInt64, id ≠ 0 →
      (∀ status, validateServiceHelperReady (makeServiceHelperReady id status) expected = true ↔
        id = expected) ∧
      (validateServiceHelperCommit (makeServiceHelperCommit id) expected = true ↔
        id = expected) ∧
      (∀ size ≤ kMaximumServicePayloadBytes,
        validateServiceHelperResponse (makeServiceHelperResponse id .completed size) expected =
          true ↔ id = expected) ∧
      (∀ status, validateServiceHelperResponse (makeServiceHelperResponse id status) expected =
        true ↔ id = expected) ∧
      ∀ result, validateServiceHelperResponse (answer id result).1 expected = true ↔
        id = expected := by
  intro s
  have h : Agreed platform s := agreed_run his
  refine ⟨fun p hp => ?_, fun got waiting => h.header, fun r => h.validate,
    fun r got waiting => h.commit, fun p got waiting => h.ready, fun p got waiting => h.response,
    fun id expected hid => ?_⟩
  · obtain ⟨hname, hmd5, hpayload⟩ := p.requestFrame_lengths
    have hserves := h.issued p hp
    exact ⟨p.validate_requestFrame hserves.wait_le, hname, hmd5, hpayload, hserves.name,
      p.md5_valid⟩
  · refine ⟨fun status => validateReady_iff hid status expected, validateCommit_iff hid expected,
      fun size hsize => validateResponse_iff hid hsize (fun hne => absurd rfl hne) expected,
      fun status => validateResponse_iff hid (Nat.zero_le _) (fun _ => rfl) expected,
      fun result => validateResponse_answer_iff hid result expected⟩

/-! A call of `/a` that `CallService` admits, on a machine on which nothing goes wrong. -/

def labCallText : String :=
  "\x7b\"callTimeoutMs\":100,\"request\":\x7b\x7d,\"service\":\"/a\"," ++
    "\"serviceType\":\"pkg/Type\",\"waitForServiceMs\":300000\x7d"

def labServicePlatform : Platform :=
  { ToolsAdapter.labPlatform with
    parse := ToolsAdapter.labParse labCallText (.object [("callTimeoutMs", .int 100),
      ("request", .object []), ("service", .string "/a"), ("serviceType", .string "pkg/Type"),
      ("waitForServiceMs", .int 300000)]) }

def labEndpoint : Endpoint :=
  ⟨"service", "call", "1", "digest", labServicePlatform.configuration, 1024⟩

def labOperation : OperationRequest where
  context := ⟨"service", "call", "1", "digest", some 1, some ToolsAdapter.labContext.scope⟩
  input := ⟨.json, some labServicePlatform.configuration, labCallText⟩

def labRun : List Action :=
  let admission := (ToolsAdapter.init ToolsAdapter.labContext).callService labServicePlatform
    ⟨labEndpoint, labEndpoint⟩ labOperation
  let parent := Action.parent { Env.calm with admission := admission }
  let helper := Action.helper { HelperEnv.calm with namesValidate := labServicePlatform.validName }
  List.replicate 16 parent ++ List.replicate 18 helper ++ List.replicate 10 parent ++
    List.replicate 6 helper

theorem admitted_requests_accepted_lab :
    (∀ a ∈ labRun, a.Admitted labServicePlatform ⟨labEndpoint, labEndpoint⟩) ∧
      (run step System.init labRun).calls.length = 1 ∧
      ∃ p, (run step System.init labRun).issued = some p ∧
        validateServiceHelperRequest p.requestFrame = true := by
  have hrun : ∀ a ∈ labRun, a.Admitted labServicePlatform ⟨labEndpoint, labEndpoint⟩ := by
    intro a ha
    simp only [labRun, List.mem_append, List.mem_replicate] at ha
    rcases ha with ((⟨-, rfl⟩ | ⟨-, rfl⟩) | ⟨-, rfl⟩) | ⟨-, rfl⟩
    · exact fun call hcall => ⟨_, _, hcall⟩
    · exact rfl
    · exact fun call hcall => ⟨_, _, hcall⟩
    · exact rfl
  obtain ⟨p, hp⟩ := Option.isSome_iff_exists.mp
    (show (run step System.init labRun).issued.isSome = true by decide +kernel)
  exact ⟨hrun, by decide +kernel, p, hp,
    ((admitted_requests_accepted labServicePlatform _ labRun hrun).1 p hp).1⟩

end Ros1Tools.Service
