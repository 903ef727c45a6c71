import Mathlib.Logic.Basic
import Ros1Tools.Json

/-!
# Errors and operation results

The adapter signals every failure it understands with a `Ros1ToolsError`: a code,
a class and a message.  Whatever else can be thrown in the process comes from
code outside this package (roscpp, ros_babel_fish, JsonCpp, the C++ library) and
is either derived from `std::exception` or not.  The distinction matters because
the adapter's handlers treat the three kinds differently, and because the last
kind passes the outermost handler of an operation unnoticed.
-/

namespace Ros1Tools

/-- The class strings a `Ros1ToolsError` is built with. -/
inductive ErrorClass where
  | permanent
  | transient
  | uncertain
  | cancelled
  | deadline
  | rejected
  | resourceExhausted
deriving DecidableEq, Repr

/-- The typed error of this package. -/
structure Ros1ToolsError where
  code : String
  errorClass : ErrorClass
  message : String
deriving DecidableEq, Repr

/-- What can be thrown by code outside this package: something derived from
`std::exception`, or anything else. -/
inductive Foreign where
  | std (what : String)
  | other
deriving DecidableEq, Repr

/-- Anything that can be in flight as a C++ exception. -/
inductive Exn where
  | tools (error : Ros1ToolsError)
  | foreign (exception : Foreign)
deriving DecidableEq, Repr

def permanentError (code message : String) : Exn := .tools ⟨code, .permanent, message⟩
def transientError (code message : String) : Exn := .tools ⟨code, .transient, message⟩
def uncertainError (code message : String) : Exn := .tools ⟨code, .uncertain, message⟩
def cancelledError (code message : String) : Exn := .tools ⟨code, .cancelled, message⟩
def deadlineError (code message : String) : Exn := .tools ⟨code, .deadline, message⟩
def rejectedError (code message : String) : Exn := .tools ⟨code, .rejected, message⟩
def resourceExhaustedError (code message : String) : Exn :=
  .tools ⟨code, .resourceExhausted, message⟩

/-- Whether an exception is the one class that does not promise the absence of a
native side effect. -/
def Exn.uncertain : Exn → Bool
  | .tools e => e.errorClass == .uncertain
  | .foreign _ => false

@[simp] theorem uncertain_permanentError (c m : String) :
    (permanentError c m).uncertain = false := rfl
@[simp] theorem uncertain_transientError (c m : String) :
    (transientError c m).uncertain = false := rfl
@[simp] theorem uncertain_uncertainError (c m : String) :
    (uncertainError c m).uncertain = true := rfl
@[simp] theorem uncertain_cancelledError (c m : String) :
    (cancelledError c m).uncertain = false := rfl
@[simp] theorem uncertain_deadlineError (c m : String) :
    (deadlineError c m).uncertain = false := rfl
@[simp] theorem uncertain_rejectedError (c m : String) :
    (rejectedError c m).uncertain = false := rfl
@[simp] theorem uncertain_resourceExhaustedError (c m : String) :
    (resourceExhaustedError c m).uncertain = false := rfl

/-! ## Operation results -/

/-- `xgc::adapter::v1::ErrorClass`, as far as the adapter reports it. -/
inductive TerminalClass where
  | permanent
  | transient
  | uncertain
  | rejected
  | resourceExhausted
  | cancelled
  | deadline
deriving DecidableEq, Repr

/-- `xgc2::adapter_runtime::OperationResult`.  A payload is kept as the value it was
written from. -/
inductive OperationResult where
  | success (payload : Json)
  | failure (errorClass : TerminalClass) (code message : String)

/-- The class `ToolsAdapter::failure` reports for a typed error: permanent unless
one of the other strings matches. -/
def terminalClass : ErrorClass → TerminalClass
  | .transient => .transient
  | .uncertain => .uncertain
  | .rejected => .rejected
  | .resourceExhausted => .resourceExhausted
  | .cancelled => .cancelled
  | .deadline => .deadline
  | .permanent => .permanent

/-- `catch (const std::exception&) { return failure(exception); }`, the outermost
handler of an operation.  An exception not derived from `std::exception` is not
caught by it, and no result is reported. -/
def failure : Exn → Option OperationResult
  | .tools e => some (.failure (terminalClass e.errorClass) e.code e.message)
  | .foreign (.std what) => some (.failure .transient "internal_error" what)
  | .foreign .other => none

/-- The adapter reports `uncertain` for exactly the uncertain exceptions. -/
theorem failure_uncertain_iff {e : Exn} {c : TerminalClass} {code message : String}
    (h : failure e = some (.failure c code message)) : c = .uncertain ↔ e.uncertain = true := by
  cases e with
  | tools e =>
      simp only [failure, Option.some.injEq, OperationResult.failure.injEq] at h
      obtain ⟨rfl, -, -⟩ := h
      cases hc : e.errorClass <;> simp [terminalClass, Exn.uncertain, hc]
  | foreign e =>
      cases e with
      | std what =>
          simp only [failure, Option.some.injEq, OperationResult.failure.injEq] at h
          obtain ⟨rfl, -, -⟩ := h
          simp [Exn.uncertain]
      | other => simp [failure] at h

/-- `ToolsAdapter::success`.  `written` is the length of what `writeJson` returned,
or what it threw. -/
def success (maximumResponseBytes : Nat) (value : Json) : Except Foreign Nat → Except Exn Json
  | .error e => .error (.foreign e)
  | .ok written =>
      if written > maximumResponseBytes then
        .error (uncertainError "operation_result_too_large"
          "native side effect committed but its result exceeds the compiled response limit")
      else .ok value

/-- The `try` block both operations encode their result in: a typed error passes,
anything else is reported as uncertain under the operation's own code. -/
def encodeResult (code message : String) (maximumResponseBytes : Nat) (value : Json)
    (written : Except Foreign Nat) : Except Exn Json :=
  match success maximumResponseBytes value written with
  | .ok value => .ok value
  | .error (.tools e) => .error (.tools e)
  | .error (.foreign (.std what)) => .error (uncertainError code (message ++ ": " ++ what))
  | .error (.foreign .other) => .error (uncertainError code message)

/-- Failing to encode a result never denies the side effect. -/
theorem uncertain_of_encodeResult {code message : String} {maximum : Nat} {value : Json}
    {written : Except Foreign Nat} {e : Exn}
    (h : encodeResult code message maximum value written = .error e) : e.uncertain = true := by
  cases written with
  | error f => cases f <;> cases h <;> rfl
  | ok written =>
      by_cases hlen : written > maximum
      · simp only [encodeResult, success, hlen, if_true, uncertainError] at h
        cases h
        rfl
      · simp [encodeResult, success, hlen] at h

/-- A result that is encoded is reported as it is. -/
theorem eq_of_encodeResult {code message : String} {maximum : Nat} {value payload : Json}
    {written : Except Foreign Nat}
    (h : encodeResult code message maximum value written = .ok payload) : payload = value := by
  cases written with
  | error f => cases f <;> cases h
  | ok written =>
      by_cases hlen : written > maximum
      · simp [encodeResult, success, hlen, uncertainError] at h
      · simp only [encodeResult, success, hlen, if_false] at h
        cases h
        rfl

end Ros1Tools
