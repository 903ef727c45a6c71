import Ros1Tools.Service.Fence

/-!
# End-to-end integrity

A call that returns a result has made exactly one native call, with what the
parent serialized, and has decoded exactly what that call returned.

The request travels as in the fence argument.  The response travels the other way
with the same two facts: what the parent has received is a prefix of what the
helper has sent, and the parent goes by the length in the header it has read.
-/

namespace Ros1Tools.Service

open Lib

/-- Only a native call that returned a payload within the limit is answered as
completed, and then with that payload and its length. -/
theorem answer_completed {id : UInt64} {result : CallResult}
    (h : (answer id result).1.status = ResponseStatus.completed.code) :
    ∃ response, result = .returned true response ∧
      responsePayload response = some (answer id result).2 ∧
      (answer id result).2.length ≤ kMaximumServicePayloadBytes ∧
      (answer id result).1.payloadBytes.toNat = (answer id result).2.length := by
  have hcode (status : ResponseStatus) (h : status.code = ResponseStatus.completed.code) :
      status = .completed := by
    revert h
    cases status <;> decide
  cases result with
  | threw => exact absurd (hcode .callFailed h) nofun
  | returned called response =>
      cases called with
      | false => exact absurd (hcode .callFailed h) nofun
      | true =>
          rw [answer] at h ⊢
          split at h
          · exact absurd (hcode .protocolError h) nofun
          · rename_i data hdata
            split at h
            · exact absurd (hcode .responseTooLarge h) nofun
            · rename_i hlen
              rw [if_neg hlen]
              refine ⟨response, rfl, hdata, Nat.le_of_not_lt hlen, UInt32.toNat_ofNat_of_lt' ?_⟩
              exact Nat.lt_of_le_of_lt (Nat.le_of_not_lt hlen) (by decide)

/-- Parent and helper agree on the response. -/
theorem Responded.agree {v : ParentView} {p : Sending} {response : Frame} {payload : Bytes}
    {r : HelperRequest} {result : CallResult} (h : Responded v p response payload)
    (hdown : v.down <+: readyBytes r ++ answerBytes r result) :
    response = (answer r.requestId result).1 ∧ payload <+: (answer r.requestId result).2 := by
  obtain ⟨ready, header, hready, hheader, hdec, hv⟩ := h.down
  rw [hv] at hdown
  obtain ⟨-, hdown⟩ := Bytes.eq_of_append_prefix
    (hready.trans (length_readyBytes r).symm) hdown rfl
  rw [answerBytes] at hdown
  obtain ⟨hframe, hpayload⟩ := Bytes.eq_of_append_prefix
    (hheader.trans (Frame.length_encode _).symm) hdown rfl
  refine ⟨?_, hpayload⟩
  rw [← hdec, hframe, Frame.decode_encode]

/-- A response can only be read once the native call has returned. -/
theorem Gone.answered {s : System} (h : Gone s.helperView) {p : Sending} {response : Frame}
    {payload : Bytes} (hresp : Responded s.parentView p response payload) :
    ∃ r result rest, Answered s.helperView r result rest := by
  obtain ⟨ready, header, hready, hheader, -, hv⟩ := hresp.down
  have hlong : ¬ s.down.sent.length ≤ Frame.size := by
    intro hle
    have hprefix := s.down.delivered_prefix.length_le
    rw [show s.down.delivered = ready ++ (header ++ payload) from hv, List.length_append,
      List.length_append, hready, hheader] at hprefix
    have : 0 < Frame.size := by decide
    omega
  rcases h with ⟨-, hle⟩ | ⟨r, -, hle | ⟨result, rest, hans⟩⟩
  · exact absurd hle hlong
  · exact absurd hle hlong
  · exact ⟨r, result, rest, hans⟩

/-- **End-to-end integrity.**  When `call` returns a result, the helper has made
exactly one native call, with the service name, the digest and the payload the
parent serialized; that call returned a message; and its payload, of at most 8 MiB,
is what the parent has handed to the response decoder, once and as a whole. -/
theorem service_call_integrity (is : List Action) (result : ServiceCallResult)
    (h : (run step System.init is).parent = .ended (.ok result)) :
    let s := run step System.init is
    ∃ (p : Sending) (response : SerializedMessage) (payload : Bytes),
      s.issued = some p ∧
      s.calls = [⟨p.request.service, p.md5, serviceRequest p.payload.1⟩] ∧
      s.results = [.returned true response] ∧
      responsePayload response = some payload ∧
      s.handed = [payload] ∧ payload.length ≤ kMaximumServicePayloadBytes := by
  intro s
  have hinv : Inv s := inv_run is
  have hparent := hinv.parent
  rw [h] at hparent
  obtain ⟨p, payload, hdone⟩ := hparent
  obtain ⟨response, hresp, hstatus, hlen⟩ := hdone.down
  obtain ⟨r, native, rest, hans⟩ := hinv.helper.gone.answered hresp
  -- The request the helper read is the one the parent sent.
  obtain ⟨c, hup⟩ := hans.entered.commit
  have hrequest : r.bytes ++ c.bytes <+: p.stream := by
    rw [← hup, ← hdone.up]
    exact s.up.delivered_prefix
  obtain ⟨-, hservice, hmd5, hbody, -⟩ := HelperRequest.agree hrequest
  -- The response the parent read is the one the helper sent.
  have hresponse : s.parentView.down <+: readyBytes r ++ answerBytes r native := by
    refine s.down.delivered_prefix.trans ⟨rest, ?_⟩
    rw [← hans.down]
    rfl
  obtain ⟨hframe, hpayload⟩ := hresp.agree hresponse
  rw [hframe] at hstatus hlen
  obtain ⟨message, hnative, hdata, hmax, hbytes⟩ := answer_completed hstatus
  have heq : payload = (answer r.requestId native).2 :=
    hpayload.eq_of_length (hlen.trans hbytes)
  refine ⟨p, message, payload, hdone.issued, ?_, ?_, ?_, hdone.handed, ?_⟩
  · rw [show s.calls = [r.nativeCall] from hans.entered.calls, HelperRequest.nativeCall, hservice,
      hmd5, hbody]
  · rw [show s.results = [native] from hans.results, hnative]
  · rw [heq, hdata]
  · rw [heq]
    exact hmax

/-- The result a call has returned, if it has. -/
def Parent.returned : Parent → Option ServiceCallResult
  | .ended (.ok result) => some result
  | _ => none

theorem Parent.eq_ended_of_returned {pc : Parent} {result : ServiceCallResult}
    (h : pc.returned = some result) : pc = .ended (.ok result) := by
  unfold Parent.returned at h
  split at h
  · cases h
    rfl
  · cases h

/-- An undisturbed call returns, having decoded the two bytes of its response. -/
theorem service_call_integrity_calm :
    let s := run step System.init (calmly 16 18 ++ calmly 10 12 ++ calmly 7 0)
    s.handed = [[5, 6]] ∧ ∃ p : Sending, s.issued = some p ∧
      s.calls = [⟨p.request.service, p.md5, serviceRequest p.payload.1⟩] := by
  intro s
  obtain ⟨result, hresult⟩ := Option.isSome_iff_exists.mp
    (show s.parent.returned.isSome = true by decide +kernel)
  obtain ⟨p, _, _, hissued, hcalls, -⟩ :=
    service_call_integrity _ result (Parent.eq_ended_of_returned hresult)
  exact ⟨by decide +kernel, p, hissued, hcalls⟩

end Ros1Tools.Service
