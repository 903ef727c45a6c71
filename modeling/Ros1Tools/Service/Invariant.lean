import Ros1Tools.Service.Advance
import Ros1Tools.Service.System

/-!
# The invariant of a service call

One half for each party, over that party's view.  The parent's half says how much
of the request stream is sent at every point of the program, and in particular
that every exception outside the uncertain class is thrown with the commit
incomplete.  The helper's half says what it has received and written, and that
`client.call` is entered behind a complete request and a valid commit.
-/

namespace Ros1Tools.Service

open Lib

/-! ## The parent's half -/

/-- Nothing has happened yet. -/
structure Fresh (v : ParentView) : Prop where
  up : v.up = []
  down : v.down = []
  issued : v.issued = none
  handed : v.handed = []

/-- Of the stream of `p`, everything but `rest` is sent, and nothing has been
handed to the decoder. -/
structure Sent (v : ParentView) (p : Sending) (rest : Bytes) : Prop where
  issued : v.issued = some p
  handed : v.handed = []
  up : v.up ++ rest = p.stream

/-- The parent has received a ready frame, a response frame it accepted, and
`payload` behind it. -/
structure Responded (v : ParentView) (p : Sending) (response : Frame) (payload : Bytes) :
    Prop where
  valid : validateServiceHelperResponse response p.requestId = true
  down : ∃ ready header : Bytes, ready.length = Frame.size ∧ header.length = Frame.size ∧
    Frame.decode header = response ∧ v.down = ready ++ (header ++ payload)

/-- The parent has not sent a complete commit. -/
def Uncommitted (v : ParentView) : Prop :=
  (v.issued = none ∧ v.up = []) ∨
    ∃ p, v.issued = some p ∧ v.up <+: p.stream ∧ v.up.length < p.stream.length

/-- The parent has evaluated a complete response to `p`. -/
structure Completed (v : ParentView) (p : Sending) (payload : Bytes) : Prop where
  issued : v.issued = some p
  up : v.up = p.stream
  handed : v.handed = [payload]
  down : ∃ response : Frame, Responded v p response payload ∧
    response.status = ResponseStatus.completed.code ∧
    payload.length = response.payloadBytes.toNat

/-- What an exception says about the commit. -/
def Thrown (v : ParentView) (e : Exn) : Prop := e.uncertain = false → Uncommitted v

/-- The parent's half of the invariant. -/
def Parent.Inv (v : ParentView) : Parent → Prop
  | .enter | .invocation | .call _ | .prepared .. | .acquire _ | .start _ | .nextRequestId _ =>
      Fresh v
  | .send p .commit rest _ => Sent v p rest ∧ v.down.length = Frame.size
  | .send p piece rest _ => Sent v p (rest ++ p.later piece) ∧ v.down = []
  | .readReady p got _ => Sent v p (p.bytes .commit) ∧ v.down = got ∧ got.length ≤ Frame.size
  | .ready p => Sent v p (p.bytes .commit) ∧ v.down.length = Frame.size
  | .readResponse p got _ => Sent v p [] ∧ got.length ≤ Frame.size ∧
      ∃ ready : Bytes, ready.length = Frame.size ∧ v.down = ready ++ got
  | .readPayload p response got _ => Sent v p [] ∧ Responded v p response got ∧
      got.length ≤ response.payloadBytes.toNat
  | .terminate (.decode p response payload) | .reap (.decode p response payload)
  | .decode p response payload => Sent v p [] ∧ Responded v p response payload ∧
      payload.length = response.payloadBytes.toNat
  | .terminate (.throw e) | .reap (.throw e) | .ended (.error e) => Thrown v e
  | .ended (.ok _) => ∃ p payload, Completed v p payload
  | .reported (.failure c _ _) => c ≠ .uncertain → Uncommitted v
  | .reported (.success _) => True
  | .escaped => Uncommitted v

section Parent

variable {v : ParentView} {p : Sending} {env : Env} {down : ByteStream}

theorem Fresh.uncommitted (h : Fresh v) : Uncommitted v := .inl ⟨h.issued, h.up⟩

theorem Sent.uncommitted {rest : Bytes} (h : Sent v p rest) (hrest : rest ≠ []) :
    Uncommitted v := by
  refine .inr ⟨p, h.issued, ⟨rest, h.up⟩, ?_⟩
  have := List.length_pos_iff.mpr hrest
  rw [← h.up, List.length_append]
  omega

/-- An exception is reported with the class it was thrown with. -/
theorem Thrown.report {e : Exn} (h : Thrown v e) : (Parent.report e).Inv v := by
  unfold Parent.report
  cases hf : failure e with
  | none =>
      cases e with
      | tools e => cases hf
      | foreign f => exact h rfl
  | some result =>
      cases result with
      | success payload => exact trivial
      | failure c code message =>
          intro hc
          exact h (Bool.eq_false_iff.mpr fun hu => hc ((failure_uncertain_iff hf).mpr hu))

/-- An exception of the uncertain class says nothing. -/
theorem thrown_of_uncertain {e : Exn} (h : e.uncertain = true) : Thrown v e :=
  fun hf => absurd h (by rw [hf]; exact Bool.false_ne_true)

theorem Parent.inv_abandon (e : Exn) : (Parent.abandon e).Inv v :=
  thrown_of_uncertain (uncertain_postCommitCatch e)

theorem Parent.inv_sent {piece : Section} {waiting : Bool}
    (h : (Parent.send p piece [] waiting).Inv v) : (Parent.sent p piece).Inv v := by
  cases piece with
  | frame | service | md5 =>
      obtain ⟨hsent, hdown⟩ := h
      rw [List.nil_append, Sending.later] at hsent
      exact ⟨hsent, hdown⟩
  | payload =>
      obtain ⟨hsent, hdown⟩ := h
      rw [List.nil_append, Sending.later] at hsent
      exact ⟨hsent, hdown, Nat.zero_le _⟩
  | commit => exact ⟨h.1, Nat.zero_le _, v.down, h.2, (List.append_nil _).symm⟩

/-- Writing part of a piece. -/
theorem Parent.inv_send {piece : Section} {rest : Bytes} {waiting : Bool}
    (h : (Parent.send p piece rest waiting).Inv v) (n : Nat) :
    (Parent.send p piece (rest.drop n) false).Inv { v with up := v.up ++ rest.take n } := by
  have hsent {tail : Bytes} (h : Sent v p (rest ++ tail)) :
      Sent { v with up := v.up ++ rest.take n } p (rest.drop n ++ tail) :=
    ⟨h.issued, h.handed, by
      rw [← h.up, List.append_assoc, ← List.append_assoc (rest.take n), List.take_append_drop]⟩
  cases piece with
  | frame | service | md5 | payload => exact ⟨hsent h.1, h.2⟩
  | commit =>
      have hcommit : Sent v p (rest ++ []) := by
        rw [List.append_nil]
        exact h.1
      have hrest := hsent hcommit
      rw [List.append_nil] at hrest
      exact ⟨hrest, h.2⟩

/-- What is left of a piece is part of what is not sent. -/
theorem Parent.uncommitted_of_send {piece : Section} {rest : Bytes} {waiting : Bool}
    (h : (Parent.send p piece rest waiting).Inv v) (hrest : rest ≠ []) : Uncommitted v := by
  cases piece with
  | frame | service | md5 | payload =>
      exact h.1.uncommitted fun hnil => hrest (List.append_eq_nil_iff.mp hnil).1
  | commit => exact h.1.uncommitted hrest

theorem commit_ne_nil (p : Sending) : p.bytes .commit ≠ [] := by
  intro h
  have := Frame.length_encode p.commitFrame
  rw [show p.commitFrame.encode = [] from h] at this
  exact absurd this (by decide)

theorem Parent.inv_checkReady {ready : Frame}
    (h : Sent v p (p.bytes .commit) ∧ v.down.length = Frame.size) :
    (Parent.checkReady p ready).Inv v := by
  have hthrow (code message : String) :
      (Parent.terminate (.throw (transientError code message))).Inv v :=
    fun _ => h.1.uncommitted (commit_ne_nil p)
  unfold Parent.checkReady
  split
  · exact hthrow _ _
  · split
    · exact hthrow _ _
    · split
      · exact hthrow _ _
      · exact h

theorem Parent.inv_checkResponse {got : Bytes} (hgot : got.length = Frame.size)
    {waiting : Bool} (h : (Parent.readResponse p got waiting).Inv v) :
    (Parent.checkResponse p env (Frame.decode got)).Inv v := by
  obtain ⟨hsent, -, ready, hready, hdown⟩ := h
  unfold Parent.checkResponse
  split
  · split
    · exact Parent.inv_abandon _
    · rename_i hvalid
      split
      · exact Parent.inv_abandon _
      · refine ⟨hsent, ⟨by simpa using hvalid, ready, got, hready, hgot, rfl, ?_⟩, Nat.zero_le _⟩
        rw [List.append_nil, hdown]
  · exact Parent.inv_abandon _

theorem Parent.inv_checkPayload {response : Frame} {got : Bytes} {waiting : Bool}
    (hgot : got.length = response.payloadBytes.toNat)
    (h : (Parent.readPayload p response got waiting).Inv v) :
    (Parent.checkPayload p env response got).Inv v := by
  unfold Parent.checkPayload
  split
  · exact ⟨h.1, h.2.1, hgot⟩
  · split
    · exact ⟨h.1, h.2.1, hgot⟩
    · exact Parent.inv_abandon _

theorem Parent.inv_resume {next : After} (h : (Parent.reap next).Inv v) :
    (Parent.resume next).Inv v := by
  cases next <;> exact h

theorem checkStatus_ok {response : Frame} (h : Parent.checkStatus p response = .ok ()) :
    response.status = ResponseStatus.completed.code := by
  unfold Parent.checkStatus at h
  split at h
  · cases h
  · split at h
    · cases h
    · split at h
      · cases h
      · rename_i hne
        simpa using hne

theorem Sending.stream_eq (p : Sending) : p.stream = p.bytes .frame ++ p.later .frame := rfl

/-- The invariant of what a step leads to, in the view its effect leads to. -/
def Parent.NextInv (v : ParentView) (down : ByteStream) (next : Parent × Effect) : Prop :=
  next.1.Inv (v.apply down next.2)

theorem Parent.nextInv_none {pc : Parent} (h : pc.Inv v) : Parent.NextInv v down (pc, .none) := h

/-- **A step of the parent keeps the parent's half.** -/
theorem Parent.inv_step (env : Env) (down : ByteStream) (exited : Bool) (pc : Parent)
    (h : pc.Inv v) : Parent.NextInv v down (pc.step env down exited) := by
  cases pc with
  | enter =>
      rw [Parent.step]
      split
      · exact Parent.nextInv_none (Thrown.report fun _ => Fresh.uncommitted h)
      · exact h
  | invocation =>
      rw [Parent.step]
      split
      · exact Thrown.report fun _ => Fresh.uncommitted h
      · exact h
  | call request =>
      rw [Parent.step]
      split
      · exact fun _ => Fresh.uncommitted h
      · exact h
  | prepared request md5 payload =>
      rw [Parent.step]
      split
      · exact fun _ => Fresh.uncommitted h
      · exact h
  | acquire out =>
      rw [Parent.step]
      split
      · exact fun _ => Fresh.uncommitted h
      · exact h
  | start out =>
      rw [Parent.step]
      split
      · exact h
      · split <;> exact fun _ => Fresh.uncommitted h
  | nextRequestId out =>
      rw [Parent.step]
      split
      · exact h
      · exact ⟨⟨rfl, h.handed, by rw [Sending.stream_eq, ParentView.apply, h.up, List.nil_append]⟩,
          h.down⟩
  | send p piece rest waiting =>
      rw [Parent.step]
      split
      · rename_i hempty
        rw [List.isEmpty_iff.mp hempty] at h
        exact Parent.inv_sent h
      · rename_i hrest
        split
        · exact Parent.inv_send h _
        · cases piece <;> exact h
        · exact fun _ => Parent.uncommitted_of_send h fun hnil => hrest (by rw [hnil]; rfl)
  | readReady p got waiting =>
      rw [Parent.step]
      obtain ⟨hsent, hdown, hlen⟩ := h
      split
      · rename_i hgot
        exact Parent.nextInv_none (Parent.inv_checkReady ⟨hsent, by rw [hdown, hgot]⟩)
      · refine Parent.receiveTurn_rule ?_ ?_ ?_ _
        · exact fun waiting => ⟨hsent, hdown, hlen⟩
        · exact fun result transportError _ => hsent.uncommitted (commit_ne_nil p)
        · intro n hn
          refine ⟨⟨hsent.issued, hsent.handed, hsent.up⟩, by rw [ParentView.apply, hdown], ?_⟩
          rw [List.length_append]
          omega
  | ready p =>
      rw [Parent.step]
      split
      · exact fun _ => h.1.uncommitted (commit_ne_nil p)
      · exact h
  | readResponse p got waiting =>
      rw [Parent.step]
      split
      · rename_i hgot
        exact Parent.inv_checkResponse hgot h
      · obtain ⟨hsent, hlen, ready, hready, hdown⟩ := h
        refine Parent.receiveTurn_rule ?_ ?_ ?_ _
        · exact fun waiting => ⟨hsent, hlen, ready, hready, hdown⟩
        · exact fun result transportError => Parent.inv_abandon _
        · intro n hn
          refine ⟨⟨hsent.issued, hsent.handed, hsent.up⟩, ?_, ready, hready, ?_⟩
          · rw [List.length_append]
            omega
          · rw [ParentView.apply, hdown, List.append_assoc]
  | readPayload p response got waiting =>
      rw [Parent.step]
      split
      · rename_i hgot
        exact Parent.inv_checkPayload hgot h
      · obtain ⟨hsent, ⟨hvalid, ready, header, hready, hheader, hdec, hdown⟩, hlen⟩ := h
        refine Parent.receiveTurn_rule ?_ ?_ ?_ _
        · exact fun waiting =>
            ⟨hsent, ⟨hvalid, ready, header, hready, hheader, hdec, hdown⟩, hlen⟩
        · exact fun result transportError => Parent.inv_abandon _
        · intro n hn
          refine ⟨⟨hsent.issued, hsent.handed, hsent.up⟩,
            ⟨hvalid, ready, header, hready, hheader, hdec, ?_⟩, ?_⟩
          · rw [ParentView.apply, hdown, List.append_assoc, List.append_assoc]
          · rw [List.length_append]
            omega
  | terminate next =>
      rw [Parent.step]
      split <;> cases next <;> exact h
  | reap next =>
      rw [Parent.step]
      split
      · exact h
      · split
        · exact Parent.inv_resume h
        · exact h
      · exact Parent.inv_resume h
  | decode p response payload =>
      rw [Parent.step]
      split
      · exact thrown_of_uncertain (uncertain_postCommitCatch _)
      · rename_i hstatus
        split
        · exact thrown_of_uncertain (uncertain_postCommitCatch _)
        · obtain ⟨hsent, hresp, hlen⟩ := h
          refine ⟨p, payload, hsent.issued, ?_, ?_, response, ⟨hresp.valid, hresp.down⟩,
            checkStatus_ok hstatus, hlen⟩
          · rw [← hsent.up, List.append_nil]
            rfl
          · rw [ParentView.apply, hsent.handed, List.nil_append]
  | ended outcome =>
      cases outcome with
      | error e => exact Thrown.report h
      | ok result =>
          rw [Parent.step]
          split
          · rename_i henc
            exact Thrown.report (thrown_of_uncertain (uncertain_of_encodeResult henc))
          · exact trivial
  | reported result => exact h
  | escaped => exact h

end Parent

/-! ## The helper's half -/

/-- The bytes of the ready frame that precedes a commit. -/
def readyBytes (r : HelperRequest) : Bytes := (makeServiceHelperReady r.requestId .ready).encode

/-- The native call a request leads to. -/
def HelperRequest.nativeCall (r : HelperRequest) : NativeCall :=
  ⟨r.service, r.md5, serviceRequest r.payload⟩

/-- The bytes a native result is answered with. -/
def answerBytes (r : HelperRequest) (result : CallResult) : Bytes :=
  (answer r.requestId result).1.encode ++ (answer r.requestId result).2

/-- `client.call` has not been entered. -/
structure Idle (v : HelperView) : Prop where
  calls : v.calls = []
  results : v.results = []

/-- `client.call` has been entered, for the request `r` and after a commit. -/
structure Entered (v : HelperView) (r : HelperRequest) : Prop where
  commit : ∃ c : Commit r, v.up = r.bytes ++ c.bytes
  calls : v.calls = [r.nativeCall]

/-- The native call has returned, and everything but `rest` of the answer is
sent. -/
structure Answered (v : HelperView) (r : HelperRequest) (result : CallResult) (rest : Bytes) :
    Prop where
  entered : Entered v r
  results : v.results = [result]
  down : v.down ++ rest = readyBytes r ++ answerBytes r result

/-- What is left of a helper's work when the helper is gone. -/
def Gone (v : HelperView) : Prop :=
  (Idle v ∧ v.down.length ≤ Frame.size) ∨
    ∃ r, Entered v r ∧ (v.down.length ≤ Frame.size ∨ ∃ result rest, Answered v r result rest)

/-- The helper's half of the invariant. -/
def Helper.Inv (v : HelperView) : Helper → Prop
  | .unborn => Idle v ∧ v.up = [] ∧ v.down = []
  | .read (.commit r) got _ => Idle v ∧ got.length ≤ Frame.size ∧
      v.up = r.bytes ++ got ∧ v.down = readyBytes r
  | .read reading got _ => Idle v ∧ got.length ≤ reading.want ∧
      v.up = reading.before ++ got ∧ v.down = []
  | .validate r | .available r | .client r => Idle v ∧ v.up = r.bytes ∧ v.down = []
  | .write (.ready r status) rest _ => Idle v ∧ v.up = r.bytes ∧
      v.down ++ rest = (makeServiceHelperReady r.requestId status).encode
  | .write (.response r result) rest _ =>
      Answered v r result (rest ++ (answer r.requestId result).2)
  | .write (.payload r result) rest _ => Answered v r result rest
  | .call r c => Idle v ∧ v.up = r.bytes ++ c.bytes ∧ v.down = readyBytes r
  | .inCall r => Entered v r ∧ v.results = [] ∧ v.down = readyBytes r
  | .exited => Gone v

section Helper

variable {v : HelperView} {up : ByteStream}

theorem length_readyBytes (r : HelperRequest) : (readyBytes r).length = Frame.size :=
  Frame.length_encode _

/-- A helper may die anywhere. -/
theorem Helper.Inv.gone {pc : Helper} (h : pc.Inv v) : Gone v := by
  have hnil {v : HelperView} (h : v.down = []) : v.down.length ≤ Frame.size := by
    rw [h]
    exact Nat.zero_le _
  have hready {v : HelperView} {r : HelperRequest} (h : v.down = readyBytes r) :
      v.down.length ≤ Frame.size := by
    rw [h, length_readyBytes]
  cases pc with
  | unborn => exact .inl ⟨h.1, hnil h.2.2⟩
  | read reading got waiting =>
      cases reading with
      | header | service | md5 | payload => exact .inl ⟨h.1, hnil h.2.2.2⟩
      | commit r => exact .inl ⟨h.1, hready h.2.2.2⟩
  | validate r => exact .inl ⟨h.1, hnil h.2.2⟩
  | available r => exact .inl ⟨h.1, hnil h.2.2⟩
  | client r => exact .inl ⟨h.1, hnil h.2.2⟩
  | write writing rest waiting =>
      cases writing with
      | ready r status =>
          refine .inl ⟨h.1, ?_⟩
          have := congrArg List.length h.2.2
          rw [List.length_append, Frame.length_encode] at this
          omega
      | response r result => exact .inr ⟨r, Answered.entered h, .inr ⟨result, _, h⟩⟩
      | payload r result => exact .inr ⟨r, Answered.entered h, .inr ⟨result, _, h⟩⟩
  | call r c => exact .inl ⟨h.1, hready h.2.2⟩
  | inCall r => exact .inr ⟨r, h.1, .inl (hready h.2.2)⟩
  | exited => exact h

theorem Helper.inv_received {reading : Reading} {got : Bytes} {waiting : Bool}
    (hgot : got.length = reading.want) (h : (Helper.read reading got waiting).Inv v) :
    (Helper.received reading got hgot).Inv v := by
  cases reading with
  | header =>
      rw [Helper.received]
      split
      · obtain ⟨hidle, -, hup, hdown⟩ := h
        exact ⟨hidle, Nat.zero_le _, by simp [hup, Reading.before], hdown⟩
      · exact h.gone
  | service header =>
      obtain ⟨hidle, -, hup, hdown⟩ := h
      exact ⟨hidle, Nat.zero_le _, by simp [hup, Reading.before], hdown⟩
  | md5 header name hs =>
      obtain ⟨hidle, -, hup, hdown⟩ := h
      exact ⟨hidle, Nat.zero_le _, by simp [hup, Reading.before], hdown⟩
  | payload header name digest hs hm =>
      obtain ⟨hidle, -, hup, hdown⟩ := h
      exact ⟨hidle, by simp [hup, Reading.before, HelperRequest.bytes], hdown⟩
  | commit r =>
      rw [Helper.received]
      split
      · exact ⟨h.1, h.2.2⟩
      · exact h.gone

theorem Helper.inv_written {writing : Writing} {waiting : Bool}
    (h : (Helper.write writing [] waiting).Inv v) : (Helper.written writing).Inv v := by
  cases writing with
  | ready r status =>
      cases status with
      | ready =>
          obtain ⟨hidle, hup, hdown⟩ := h
          rw [List.append_nil] at hdown
          exact ⟨hidle, Nat.zero_le _, by rw [hup, List.append_nil], hdown⟩
      | serviceUnavailable | protocolError => exact h.gone
  | response r result =>
      have h : Answered v r result ([] ++ (answer r.requestId result).2) := h
      rw [List.nil_append] at h
      exact h
  | payload r result => exact h.gone

/-- Writing part of a piece. -/
theorem Helper.inv_write {writing : Writing} {rest : Bytes} {waiting : Bool}
    (h : (Helper.write writing rest waiting).Inv v) (n : Nat) :
    (Helper.write writing (rest.drop n) false).Inv { v with down := v.down ++ rest.take n } := by
  have happend (tail : Bytes) :
      v.down ++ rest.take n ++ (rest.drop n ++ tail) = v.down ++ (rest ++ tail) := by
    rw [List.append_assoc, ← List.append_assoc (rest.take n), List.take_append_drop]
  cases writing with
  | ready r status =>
      obtain ⟨hidle, hup, hdown⟩ := h
      have := happend []
      rw [List.append_nil, List.append_nil] at this
      exact ⟨⟨hidle.calls, hidle.results⟩, hup, this.trans hdown⟩
  | response r result =>
      obtain ⟨⟨hcommit, hcalls⟩, hresults, hdown⟩ := h
      exact ⟨⟨hcommit, hcalls⟩, hresults, (happend _).trans hdown⟩
  | payload r result =>
      obtain ⟨⟨hcommit, hcalls⟩, hresults, hdown⟩ := h
      have := happend []
      rw [List.append_nil, List.append_nil] at this
      exact ⟨⟨hcommit, hcalls⟩, hresults, this.trans hdown⟩

/-- Reading part of a section. -/
theorem Helper.inv_read {reading : Reading} {got : Bytes} {waiting : Bool}
    (h : (Helper.read reading got waiting).Inv v) {n : Nat}
    (hn : (up.chunk n).length ≤ reading.want - got.length) :
    (Helper.read reading (got ++ up.chunk n) false).Inv { v with up := v.up ++ up.chunk n } := by
  have hlen {want : Nat} (hgot : got.length ≤ want)
      (hn : (up.chunk n).length ≤ want - got.length) : (got ++ up.chunk n).length ≤ want := by
    rw [List.length_append]
    omega
  cases reading with
  | header | service | md5 | payload | commit =>
      obtain ⟨hidle, hgot, hup, hdown⟩ := h
      exact ⟨⟨hidle.calls, hidle.results⟩, hlen hgot hn, by rw [← List.append_assoc, ← hup], hdown⟩

theorem Helper.inv_startWriting_ready {r : HelperRequest} (status : ReadyStatus)
    (h : Idle v ∧ v.up = r.bytes ∧ v.down = []) :
    (Helper.startWriting (.ready r status)).Inv v :=
  ⟨h.1, h.2.1, by rw [h.2.2, List.nil_append, Writing.bytes]⟩

/-- The invariant of what a step leads to, in the view its effect leads to. -/
def Helper.NextInv (v : HelperView) (up : ByteStream) (next : Helper × HelperEffect) : Prop :=
  next.1.Inv (v.apply up next.2)

/-- **A step of the helper keeps the helper's half.** -/
theorem Helper.inv_step (env : HelperEnv) (up : ByteStream) (pc : Helper) (h : pc.Inv v) :
    Helper.NextInv v up (pc.step env up) := by
  cases pc with
  | unborn => exact h
  | read reading got waiting =>
      have hagain (waiting : Bool) : (Helper.read reading got waiting).Inv v := by
        cases reading <;> exact h
      rw [Helper.step]
      split
      · rename_i hgot
        exact Helper.inv_received hgot h
      · split
        · split
          · exact hagain _
          · exact hagain _
          · exact h.gone
        · split
          · rename_i n _
            by_cases hc : up.chunk (min (n + 1) (reading.want - got.length)) = []
            · simp only [hc, if_true]
              exact hagain _
            · simp only [hc, if_false]
              exact Helper.inv_read h
                (Nat.le_trans (up.length_chunk_le _) (Nat.min_le_right _ _))
          · exact hagain _
          · exact hagain _
          · exact h.gone
          · exact h.gone
  | validate r =>
      rw [Helper.step]
      split
      · exact Helper.inv_startWriting_ready _ h
      · exact h
  | available r =>
      rw [Helper.step]
      split
      · exact h
      · split
        · exact Helper.inv_startWriting_ready _ h
        · exact h
  | client r =>
      rw [Helper.step]
      split <;> exact Helper.inv_startWriting_ready _ h
  | write writing rest waiting =>
      have hagain (waiting : Bool) : (Helper.write writing rest waiting).Inv v := by
        cases writing <;> exact h
      rw [Helper.step]
      split
      · rename_i hempty
        rw [List.isEmpty_iff.mp hempty] at h
        exact Helper.inv_written h
      · split
        · split
          · exact hagain _
          · exact hagain _
          · exact h.gone
        · split
          · exact Helper.inv_write h _
          · exact hagain _
          · exact hagain _
          · exact h.gone
          · exact h.gone
  | call r c =>
      obtain ⟨hidle, hup, hdown⟩ := h
      refine ⟨⟨⟨c, hup⟩, ?_⟩, hidle.results, hdown⟩
      simp [Helper.step, HelperView.apply, hidle.calls, HelperRequest.nativeCall]
  | inCall r =>
      obtain ⟨⟨hcommit, hcalls⟩, hresults, hdown⟩ := h
      refine ⟨⟨hcommit, hcalls⟩, ?_, ?_⟩
      · simp [Helper.step, HelperView.apply, hresults]
      · simp [Helper.step, HelperView.apply, hdown, answerBytes, Writing.bytes]
  | exited => exact h

end Helper

/-! ## Both halves

The one thing the views do not separate is the birth of the helper: the parent's
half alone does not say that there is none before the parent starts it. -/

/-- The part of the program before the helper is started. -/
def Parent.unstarted : Parent → Bool
  | .enter | .invocation | .call _ | .prepared .. | .acquire _ | .start _ => true
  | _ => false

/-- The helper is started by a step from the first part of the program, and no
step returns there. -/
structure Parent.Starts (pc : Parent) (next : Parent × Effect) : Prop where
  start : next.2 = .start → pc.unstarted = true
  stays : next.1.unstarted = true → pc.unstarted = true ∧ next.2 = .none

theorem Parent.unstarted_iff {pc : Parent} :
    pc.unstarted = true ↔ pc.stage = .preparing ∨ pc.stage = .starting := by
  cases pc <;> simp [Parent.unstarted, Parent.stage]

theorem Parent.Starts.of_started {pc next : Parent} {e : Effect} {stage : Stage}
    (hstage : next.stage = stage) (h : stage ≠ .preparing ∧ stage ≠ .starting) (he : e ≠ .start) :
    pc.Starts (next, e) := by
  subst hstage
  refine ⟨fun hs => absurd hs he, fun hn => ?_⟩
  rcases Parent.unstarted_iff.mp hn with hn | hn
  · exact absurd hn h.1
  · exact absurd hn h.2

theorem Effect.silent.ne_start {e : Effect} (h : e.silent) : e ≠ .start := by
  rintro rfl
  exact h

theorem Parent.Advance.starts {env : Env} {pc : Parent} {next : Parent × Effect}
    (h : pc.Advance env next) : pc.Starts next := by
  have hunstarted {pc next : Parent} (h : pc.unstarted = true) : pc.Starts (next, .none) :=
    ⟨fun _ => h, fun _ => ⟨h, rfl⟩⟩
  cases h with
  | prepare h => exact hunstarted (unstarted_iff.mpr (.inl h))
  | acquire | spawnFails => exact hunstarted rfl
  | refuse h => exact hunstarted (unstarted_iff.mpr (.inl h))
  | spawn => exact ⟨fun _ => rfl, nofun⟩
  | fetchAgain => exact .of_started (show _ = Stage.issuing from rfl) (by decide) nofun
  | issue | send => exact .of_started (show _ = Stage.helping from rfl) (by decide) nofun
  | help _ hnext he => exact .of_started hnext (by decide) he.ne_start
  | resume next =>
      rcases stage_resume next with hnext | hnext
      · exact .of_started hnext (by decide) nofun
      · exact .of_started hnext (by decide) nofun
  | decode _ _ _ hnext he => exact .of_started hnext (by decide) he.ne_start
  | finish _ hnext => exact .of_started hnext (by decide) nofun
  | idle h => exact .of_started h (by decide) nofun

theorem Parent.starts_step (env : Env) (down : ByteStream) (exited : Bool) (pc : Parent) :
    pc.Starts (pc.step env down exited) :=
  (Parent.advance_step env down exited pc).starts

/-- The invariant of the system. -/
structure Inv (s : System) : Prop where
  parent : s.parent.Inv s.parentView
  helper : s.helper.Inv s.helperView
  unborn : s.parent.unstarted = true → s.helper = .unborn

theorem inv_init : Inv System.init where
  parent := ⟨rfl, rfl, rfl, rfl⟩
  helper := ⟨⟨rfl, rfl⟩, rfl, rfl⟩
  unborn _ := rfl

/-- The helper keeps its half when the parent starts or kills it. -/
theorem Inv.helper_apply {s : System} (h : Inv s) {e : Effect}
    (hstart : e = .start → s.parent.unstarted = true) :
    (s.apply e).helper.Inv s.helperView := by
  cases e with
  | start =>
      have hinv := h.helper
      rw [h.unborn (hstart rfl)] at hinv
      exact ⟨hinv.1, Nat.zero_le _, hinv.2⟩
  | kill => exact h.helper.gone
  | none | issue | send | receive | hand => exact h.helper

/-- **Every step keeps the invariant.** -/
theorem inv_step (s : System) (a : Action) (h : Inv s) : Inv (step s a) := by
  cases a with
  | parent env =>
      obtain ⟨hstart, hstays⟩ := Parent.starts_step env s.down s.helperExited s.parent
      have hparent := Parent.inv_step env s.down s.helperExited s.parent h.parent
      have hhelper := h.helper_apply hstart
      rw [Parent.NextInv, ← System.parentView_apply] at hparent
      rw [← System.helperView_apply] at hhelper
      refine ⟨hparent, hhelper, fun hu => ?_⟩
      obtain ⟨hu, he⟩ := hstays hu
      rw [step, he]
      exact h.unborn hu
  | helper env =>
      have hhelper := Helper.inv_step env s.up s.helper h.helper
      have hparent := h.parent
      rw [Helper.NextInv, ← System.helperView_applyHelper] at hhelper
      rw [← s.parentView_applyHelper (s.helper.step env s.up).2,
        ← s.parent_applyHelper (s.helper.step env s.up).2] at hparent
      refine ⟨hparent, hhelper, fun hu => ?_⟩
      have hunborn := h.unborn (s.parent_applyHelper _ ▸ hu)
      rw [step, hunborn]
      rfl
  | kill =>
      rw [step]
      split
      · exact h
      · rename_i hne
        exact ⟨h.parent, h.helper.gone, fun hu => absurd (h.unborn hu) hne⟩

theorem inv_run (is : List Action) : Inv (run step System.init is) :=
  run_invariant inv_step inv_init is

end Ros1Tools.Service
