/-
# What a client sees of a handler

The outcome of a handler crosses four mappings on its way to the caller: the
server turns it into a number (`HandleOneRequest` of
`src/server/connection.cpp`, or the task of `src/server/worker_loop.cpp`, both
through `ToProtoErrorCode` of `src/common/rpc_error.cpp`), and the client turns
the number into a code (`FromProtoErrorCode`) that `Status::ok` reads as a
truth value.

Only the number `OK` comes out as a success.  A handler that returns gives it;
and so does one that throws an `RpcError` whose `std::error_code` has the value
`0`, because such a code is no error for `ToProtoErrorCode` either, whatever its
category.
-/

import MiniRpc.Client.Calls
import MiniRpc.Server.Responses

namespace MiniRpc

namespace Common

/-- Only `OK` is read as no error; numbers outside the enumeration are errors. -/
theorem fromProtoErrorCode_isError (n : ℤ) : (fromProtoErrorCode n).isError = decide (n ≠ 0) := by
  unfold fromProtoErrorCode
  split_ifs with h <;> simp_all [makeErrorCode, ErrorCode.toInt, StdErrorCode.isError]

/-- A code becomes `OK` exactly if it is no error. -/
theorem toProtoErrorCode_eq_zero_iff (code : StdErrorCode) :
    toProtoErrorCode code = 0 ↔ code.isError = false := by
  unfold toProtoErrorCode StdErrorCode.isError
  split_ifs <;> simp_all

end Common

namespace Server

open Client Common
open Connection (sampleRequest sampleBody)

namespace HandlerOutcome

/-- The handler returned normally. -/
def isReturned : HandlerOutcome → Bool
  | .returned _ => true
  | _ => false

/-- The handler threw an `RpcError` with a code of value `0`. -/
def throwsNoError : HandlerOutcome → Bool
  | .rpcError code _ => !code.isError
  | _ => false

end HandlerOutcome

/-- The client takes a response for a success exactly if it carries `OK`. -/
theorem mapped_ok (response : RpcResponse) :
    (mapped response).status.ok = true ↔ response.errorCode = 0 := by
  show (!(fromProtoErrorCode response.errorCode).isError) = true ↔ response.errorCode = 0
  rw [fromProtoErrorCode_isError]
  simp

/-- The answer of a handler carries `OK` if the handler returned, or threw a code
that is no error. -/
theorem answer_errorCode (handler : Handler) (request : RpcRequest) :
    (answer (some handler) request).errorCode = 0 ↔
      (handler request.payload).isReturned = true ∨
        (handler request.payload).throwsNoError = true := by
  unfold answer
  dsimp only
  cases handler request.payload with
  | returned payload => simp [HandlerOutcome.isReturned]
  | rpcError code what =>
    show toProtoErrorCode code = 0 ↔ _
    rw [toProtoErrorCode_eq_zero_iff]
    simp [HandlerOutcome.isReturned, HandlerOutcome.throwsNoError]
  | exception what => simp [HandlerOutcome.isReturned, HandlerOutcome.throwsNoError]
  | unknown => simp [HandlerOutcome.isReturned, HandlerOutcome.throwsNoError]

/-- What the client makes of the answer of a handler tells whether it returned,
unless it threw a code that is no error. -/
theorem mapped_answer (handler : Handler) (request : RpcRequest) :
    ((mapped (answer (some handler) request)).status.ok = true ↔
        (handler request.payload).isReturned = true) ↔
      (handler request.payload).throwsNoError = false := by
  rw [mapped_ok, answer_errorCode]
  cases handler request.payload <;>
    simp [HandlerOutcome.isReturned, HandlerOutcome.throwsNoError]

/-- **A success is a handler that returned, except for exceptions without an
error.**  In both modes the result that the client builds from the response is
`ok()` exactly if the handler returned normally, if and only if the handler does
not throw an `RpcError` with a code of value `0`. -/
theorem ok_iff_returned (env : Env) (request : RpcRequest) {handler : Handler}
    (hfind : env.registry.find request.serviceName request.methodName = some handler) :
    (((mapped (handleOneRequest env request)).status.ok = true ↔
        (handler request.payload).isReturned = true) ↔
      (handler request.payload).throwsNoError = false) ∧
    ∀ fd token sequence,
      ((mapped (runTask env.registry fd token
          (dispatchRequest sequence request)).response).status.ok = true ↔
        (handler request.payload).isReturned = true) ↔
      (handler request.payload).throwsNoError = false := by
  constructor
  · rw [handleOneRequest_eq, hfind]
    exact mapped_answer handler request
  · intro fd token sequence
    rw [runTask_response, hfind]
    exact mapped_answer handler request

/-- A server whose only method, `S.M`, ends in the given way. -/
def oneMethod (outcome : HandlerOutcome) : Env where
  request := .only sampleRequest sampleBody
  response := .only ⟨"", 0, "", []⟩ []
  registry := (ServiceRegistry.register {} "S" "M" (some fun _ => outcome)).1

theorem oneMethod_find (outcome : HandlerOutcome) :
    (oneMethod outcome).registry.find sampleRequest.serviceName sampleRequest.methodName =
      some fun _ => outcome := rfl

/-- A handler that throws `METHOD_NOT_FOUND` is seen to fail. -/
theorem ok_iff_returned_notFound :
    (mapped (handleOneRequest (oneMethod (.rpcError (makeErrorCode .methodNotFound) "no user"))
        sampleRequest)).status.ok = true ↔
      HandlerOutcome.isReturned (.rpcError (makeErrorCode .methodNotFound) "no user") = true :=
  (ok_iff_returned _ sampleRequest (oneMethod_find _)).1.2 rfl

/-- **An exception comes out as a success.**  The handler throws an `RpcError`
with `kOk`; in both modes the client sees `ok()`. -/
theorem thrown_ok :
    HandlerOutcome.isReturned (.rpcError (makeErrorCode .ok) "boom") = false ∧
    (mapped (handleOneRequest (oneMethod (.rpcError (makeErrorCode .ok) "boom"))
      sampleRequest)).status.ok = true ∧
    (mapped (runTask (oneMethod (.rpcError (makeErrorCode .ok) "boom")).registry 7 1
      (dispatchRequest 1 sampleRequest)).response).status.ok = true :=
  ⟨rfl, rfl, rfl⟩

end Server
end MiniRpc
