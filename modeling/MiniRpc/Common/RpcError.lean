/-
# Error codes, statuses and messages

`src/common/rpc_error.{h,cpp}`, `src/client/rpc_types.h` and `proto/rpc.proto`:
the error codes of the framework, their values on the wire, the result of a
call, and the two protobuf messages.

A `std::error_code` is a value and a category; it is an error exactly when the
value is not `0`, whatever the category.  The enumeration on the wire is open,
as in every proto3 message: a peer may send a number outside it.  Protobuf
itself is not part of the repository.  `Message` stands for one message type of
it: `serialize` for `SerializeToArray`, whose length is `ByteSizeLong`, and
`parse` for `ParseFromArray`.
-/

import Mathlib.Data.Int.Notation
import Mathlib.Data.List.Basic

namespace MiniRpc

/-- Raw bytes: a `std::string` used as a buffer or a protobuf `bytes` field. -/
abbrev Bytes := List UInt8

/-- A point of `steady_clock`, or a duration, in ticks. -/
abbrev Time := ℕ

namespace Common

/-- `ErrorCode` of `rpc_error.h`. -/
inductive ErrorCode where
  | ok
  | methodNotFound
  | parseError
  | internalError
  deriving DecidableEq, Repr

/-- `static_cast<int>(code)`. -/
def ErrorCode.toInt : ErrorCode → ℤ
  | .ok => 0
  | .methodNotFound => 1
  | .parseError => 2
  | .internalError => 3

/-- The category of a `std::error_code`: the framework's own, or another one. -/
inductive Category where
  | rpc
  | other (name : String)
  deriving DecidableEq, Repr

/-- `std::error_code`. -/
structure StdErrorCode where
  value : ℤ
  category : Category
  deriving DecidableEq, Repr

/-- `explicit operator bool` of `std::error_code`. -/
def StdErrorCode.isError (c : StdErrorCode) : Bool := c.value ≠ 0

/-- `make_error_code`. -/
def makeErrorCode (code : ErrorCode) : StdErrorCode := ⟨code.toInt, .rpc⟩

/-- `FromProtoErrorCode`: the number on the wire to the framework's code;
numbers outside the enumeration become `kInternalError`. -/
def fromProtoErrorCode (code : ℤ) : StdErrorCode :=
  if code = 0 then makeErrorCode .ok
  else if code = 1 then makeErrorCode .methodNotFound
  else if code = 2 then makeErrorCode .parseError
  else if code = 3 then makeErrorCode .internalError
  else makeErrorCode .internalError

/-- `ToProtoErrorCode`: a code that is no error is `OK` whatever its category,
and an error of another category is `INTERNAL_ERROR`. -/
def toProtoErrorCode (code : StdErrorCode) : ℤ :=
  if !code.isError then 0
  else if code.category ≠ .rpc then 3
  else if code.value = 0 then 0
  else if code.value = 1 then 1
  else if code.value = 2 then 2
  else if code.value = 3 then 3
  else 3

/-- `Status`. -/
structure Status where
  code : StdErrorCode := makeErrorCode .ok
  message : String := ""
  deriving DecidableEq, Repr

/-- `Status::ok`. -/
def Status.ok (s : Status) : Bool := !s.code.isError

end Common

/-- `RpcCallResult`: the outcome of one call, by default an error, so that a
result nobody wrote is never taken for a success. -/
structure RpcCallResult where
  status : Common.Status := ⟨Common.makeErrorCode .internalError, "uninitialized"⟩
  responsePayload : Bytes := []
  deriving DecidableEq, Repr

instance : Inhabited RpcCallResult := ⟨{}⟩

/-- A failure the client makes itself: a code, a text and no payload. -/
def RpcCallResult.failure (code : Common.ErrorCode) (message : String) : RpcCallResult :=
  ⟨⟨Common.makeErrorCode code, message⟩, []⟩

/-- `RpcRequest` of `rpc.proto`. -/
structure RpcRequest where
  requestId : String
  serviceName : String
  methodName : String
  payload : Bytes
  deriving DecidableEq, Repr

/-- `RpcResponse` of `rpc.proto`. -/
structure RpcResponse where
  requestId : String
  errorCode : ℤ
  errorMsg : String
  payload : Bytes
  deriving DecidableEq, Repr

/-- One protobuf message type. -/
structure Message (μ : Type*) where
  serialize : μ → Bytes
  parse : Bytes → Option μ

/-- `ByteSizeLong`. -/
def Message.byteSizeLong {μ : Type*} (M : Message μ) (m : μ) : ℕ := (M.serialize m).length

/-- Parsing gives back the messages of `ms`. -/
def Message.Inverts {μ : Type*} (M : Message μ) (ms : List μ) : Prop :=
  ∀ m ∈ ms, M.parse (M.serialize m) = some m

/-- The part of a message type that concerns one message `m`, written as `body`. -/
def Message.only {μ : Type*} (m : μ) (body : Bytes) : Message μ :=
  ⟨fun _ => body, fun b => if b = body then some m else none⟩

end MiniRpc
