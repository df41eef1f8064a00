/-
# The service registry

`src/server/service_registry.cpp`: handlers under the key `service.method`.  A
handler is user code; a call of it returns a payload or throws an `RpcError`,
another `std::exception`, or anything else.
-/

import MiniRpc.Common.RpcError
import MiniRpc.Library.Table

namespace MiniRpc
namespace Server

/-- What one call of a handler does. -/
inductive HandlerOutcome where
  | returned (payload : Bytes)
  | rpcError (code : Common.StdErrorCode) (what : String)
  | exception (what : String)
  | unknown

/-- `Handler`, as a function of the payload: a state that a handler keeps from one call to the
next, and what it does besides, are left out. -/
abbrev Handler := Bytes → HandlerOutcome

/-- `ServiceRegistry`: the map `handlers_`. -/
structure ServiceRegistry where
  handlers : Table String Handler := ∅

namespace ServiceRegistry

/-- `BuildKey`. -/
def buildKey (serviceName methodName : String) : String := serviceName ++ "." ++ methodName

/-- `Register`; an empty `std::function` is `none`. -/
def register (r : ServiceRegistry) (serviceName methodName : String) (handler : Option Handler) :
    ServiceRegistry × Bool :=
  match handler with
  | none => (r, false)
  | some h =>
    if serviceName = "" ∨ methodName = "" then (r, false)
    else
      let (t, inserted) := r.handlers.tryEmplace (buildKey serviceName methodName) h
      (⟨t⟩, inserted)

/-- `Find`. -/
def find (r : ServiceRegistry) (serviceName methodName : String) : Option Handler :=
  r.handlers.lookup (buildKey serviceName methodName)

end ServiceRegistry
end Server
end MiniRpc
