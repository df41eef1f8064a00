/-
# Which handler a request reaches

`ServiceRegistry` keeps the handlers under one string, `service.method`
(`src/server/service_registry.cpp`), and `TryParseRequests` answers a heartbeat
before it looks at the registry (`src/server/connection.cpp`).  This module says
which call of `Register` a request reaches: the first successful one with its
key.  That is the first successful one with its pair of names wherever no other
pair was registered under the same key; two pairs do share a key when the names
contain dots (`shared_key`).
-/

import MiniRpc.Server.Responses
import Mathlib.Data.List.Find

namespace MiniRpc
namespace Server

/-- A call of `Register`. -/
structure Registration where
  serviceName : String
  methodName : String
  handler : Option Handler

/-- A call of `Register` that returned true. -/
structure Registered where
  serviceName : String
  methodName : String
  handler : Handler

namespace ServiceRegistry

/-- The registry after the calls. -/
def registerAll (r : ServiceRegistry) (calls : List Registration) : ServiceRegistry :=
  calls.foldl (fun r call => (r.register call.serviceName call.methodName call.handler).1) r

/-- The successful ones among the calls, in order. -/
def successes (r : ServiceRegistry) : List Registration → List Registered
  | [] => []
  | call :: calls =>
    let (r', ok) := r.register call.serviceName call.methodName call.handler
    match ok, call.handler with
    | true, some h => ⟨call.serviceName, call.methodName, h⟩ :: r'.successes calls
    | _, _ => r'.successes calls

/-- The handler of the first successful call with exactly this pair of names. -/
def firstRegistered (calls : List Registration) (serviceName methodName : String) :
    Option Handler :=
  ((successes {} calls).find? fun x =>
    x.serviceName = serviceName ∧ x.methodName = methodName).map Registered.handler

/-- No successful call with another pair of names has the key of this pair. -/
def Unshared (calls : List Registration) (serviceName methodName : String) : Prop :=
  ∀ x ∈ successes {} calls, buildKey x.serviceName x.methodName = buildKey serviceName methodName →
    x.serviceName = serviceName ∧ x.methodName = methodName

/-- When `Register` returns true: the names and the handler are there, and the
key is new. -/
theorem register_ok_iff (r : ServiceRegistry) (s m : String) (handler : Option Handler) :
    (r.register s m handler).2 = true ↔
      handler.isSome ∧ s ≠ "" ∧ m ≠ "" ∧ r.find s m = none := by
  unfold register find Table.tryEmplace
  cases handler with
  | none => simp
  | some h =>
    by_cases hempty : s = "" ∨ m = ""
    · rcases hempty with rfl | rfl <;> simp
    · simp only [if_neg hempty]
      obtain ⟨hs, hm⟩ := not_or.1 hempty
      cases hl : r.handlers.lookup (buildKey s m) <;> simp [hs, hm]

/-- **One call of `Register`**: a successful one adds its handler under its key,
a failed one changes nothing. -/
theorem find_register (r : ServiceRegistry) (s m : String) (handler : Option Handler)
    (s' m' : String) :
    (r.register s m handler).1.find s' m' =
      if (r.register s m handler).2 ∧ buildKey s m = buildKey s' m' then handler
      else r.find s' m' := by
  unfold register find Table.tryEmplace
  cases handler with
  | none => simp
  | some h =>
    by_cases hempty : s = "" ∨ m = ""
    · simp [hempty]
    · simp only [if_neg hempty]
      cases hl : r.handlers.lookup (buildKey s m) with
      | some h' => simp
      | none =>
        by_cases hkey : buildKey s m = buildKey s' m'
        · simp [hkey]
        · simp [hkey, AList.lookup_insert_ne (Ne.symm hkey)]

/-- The handlers that are found: those found before, and then that of the first
successful call with the key. -/
theorem find_registerAll (r : ServiceRegistry) (calls : List Registration) (s m : String) :
    (r.registerAll calls).find s m =
      (r.find s m).or (((r.successes calls).find? fun x =>
        buildKey x.serviceName x.methodName = buildKey s m).map Registered.handler) := by
  induction calls generalizing r with
  | nil => simp [registerAll, successes]
  | cons call calls ih =>
    have hstep := find_register r call.serviceName call.methodName call.handler s m
    have hok := register_ok_iff r call.serviceName call.methodName call.handler
    rw [registerAll, List.foldl_cons, ← registerAll, ih, hstep, successes]
    rcases hr : r.register call.serviceName call.methodName call.handler with ⟨r', ok⟩
    rw [hr] at hok
    cases ok with
    | false => simp
    | true =>
      obtain ⟨hsome, -, -, hnew⟩ := hok.1 rfl
      obtain ⟨h, hh⟩ := Option.isSome_iff_exists.1 hsome
      rw [hh]
      by_cases hkey : buildKey call.serviceName call.methodName = buildKey s m
      · -- the key of the call was new, so nothing was found before
        have hnone : r.find s m = none := by
          rw [find, ← hkey]
          exact hnew
        simp [hkey, hnone]
      · simp [hkey]

/-- **`Find` finds the first successful registration of the pair**, if no other
pair was registered under its key. -/
theorem find_eq_firstRegistered {calls : List Registration} {s m : String}
    (h : Unshared calls s m) : (registerAll {} calls).find s m = firstRegistered calls s m := by
  have hnone : find {} s m = none := rfl
  rw [find_registerAll, hnone, Option.none_or, firstRegistered]
  congr 1
  refine List.find?_congr fun x hx => ?_
  rw [decide_eq_decide]
  exact ⟨h x hx, fun ⟨hs, hm⟩ => by rw [hs, hm]⟩

end ServiceRegistry

open ServiceRegistry

/-- **Routing.**  A server whose registry was filled by the calls answers a
request in both modes as the handler of the first successful `Register` with
exactly its pair of names makes it, and with `METHOD_NOT_FOUND` if there is none,
wherever no other pair was registered under the same key; and the next `Register`
of the pair succeeds exactly if there is none.  A heartbeat is not handed to any
handler: it is answered `OK` at once, registered or not. -/
theorem routing (calls : List Registration) (env : Env) (henv : env.registry = registerAll {} calls)
    (body : Bytes) (request : RpcRequest) (hparse : env.request.parse body = some request) :
    (request.serviceName ≠ kHeartbeatServiceName →
      Unshared calls request.serviceName request.methodName →
      env.registry.find request.serviceName request.methodName =
        firstRegistered calls request.serviceName request.methodName ∧
      (∀ o, env.dispatcher = none → processFrame env o body =
        enqueueResponse env { o with handed := o.handed ++ [request] }
          (answer (firstRegistered calls request.serviceName request.methodName) request)) ∧
      (∀ fd token sequence,
        (runTask env.registry fd token (dispatchRequest sequence request)).response =
          answer (firstRegistered calls request.serviceName request.methodName) request) ∧
      (firstRegistered calls request.serviceName request.methodName = none →
        (answer (firstRegistered calls request.serviceName request.methodName)
          request).errorCode = 1) ∧
      (∀ handler : Handler, (env.registry.register request.serviceName request.methodName
          (some handler)).2 = true ↔
        request.serviceName ≠ "" ∧ request.methodName ≠ "" ∧
          firstRegistered calls request.serviceName request.methodName = none)) ∧
    (request.serviceName = kHeartbeatServiceName →
      ∀ o, processFrame env o body = enqueueResponse env o ⟨request.requestId, 0, "", []⟩) := by
  constructor
  · intro hbeat hkey
    have hfind : env.registry.find request.serviceName request.methodName =
        firstRegistered calls request.serviceName request.methodName := by
      rw [henv, find_eq_firstRegistered hkey]
    have hbusiness : business env body = some request := by
      rw [business, hparse]
      exact if_neg hbeat
    have hreply : reply env body = handleOneRequest env request := by
      rw [reply, hparse]
      exact if_neg hbeat
    refine ⟨hfind, fun o hd => ?_, fun fd token sequence => ?_, fun hnone => ?_, fun handler => ?_⟩
    · rw [processFrame_inline hd, hbusiness, hreply, handleOneRequest_eq, hfind]
      rfl
    · rw [runTask_response, hfind]
    · rw [hnone]
      rfl
    · rw [register_ok_iff, hfind]
      simp
  · intro hbeat o
    rw [processFrame, hparse]
    exact if_pos hbeat

/-- A handler that returns the byte `b`. -/
def constHandler (b : UInt8) : Handler := fun _ => .returned [b]

/-- A server of one method. -/
def oneMethodEnv (request : Message RpcRequest) (s m : String) : Env where
  request := request
  response := .only ⟨"1", 0, "", [1]⟩ [0x0A, 1, 0x31, 0x22, 1, 1]
  registry := registerAll {} [⟨s, m, some (constHandler 1)⟩]

open Connection in
/-- A registry with `S.M`, and a request for it. -/
theorem routing_sample :
    processFrame (oneMethodEnv sampleEnv.request "S" "M") {} sampleBody =
      enqueueResponse (oneMethodEnv sampleEnv.request "S" "M") { handed := [sampleRequest] }
        ⟨"1", 0, "", [1]⟩ := by
  have hkey : Unshared [⟨"S", "M", some (constHandler 1)⟩] "S" "M" := by
    rintro x hx -
    obtain rfl : x = ⟨"S", "M", constHandler 1⟩ := List.mem_singleton.1 hx
    exact ⟨rfl, rfl⟩
  exact ((routing [⟨"S", "M", some (constHandler 1)⟩] (oneMethodEnv sampleEnv.request "S" "M") rfl
    sampleBody sampleRequest rfl).1 (by decide) hkey).2.1 {} rfl

/-- A heartbeat for a method `M`. -/
def heartbeat : RpcRequest := ⟨"1", kHeartbeatServiceName, "M", []⟩

/-- Its body. -/
def heartbeatBody : Bytes :=
  [0x0A, 1, 0x31, 0x12, 13] ++ (kHeartbeatServiceName.toList.map fun c => UInt8.ofNat c.toNat) ++
    [0x1A, 1, 0x4D]

/-- **Two pairs share a key, and a reserved name is not looked up.**  With only
method `c` of service `a.b` registered, a request for method `b.c` of service `a`
reaches its handler in both modes, and this pair cannot be registered any more.
With a handler registered for the heartbeat name, a request for it is answered
without the handler. -/
theorem shared_key :
    (successes {} [⟨"a.b", "c", some (constHandler 1)⟩]).length = 1 ∧
    firstRegistered [⟨"a.b", "c", some (constHandler 1)⟩] "a" "b.c" = none ∧
    handleOneRequest (oneMethodEnv Connection.sampleEnv.request "a.b" "c") ⟨"1", "a", "b.c", []⟩ =
      ⟨"1", 0, "", [1]⟩ ∧
    (runTask (oneMethodEnv Connection.sampleEnv.request "a.b" "c").registry 7 1
      (dispatchRequest 1 ⟨"1", "a", "b.c", []⟩)).response = ⟨"1", 0, "", [1]⟩ ∧
    ((registerAll {} [⟨"a.b", "c", some (constHandler 1)⟩]).register "a" "b.c"
      (some (constHandler 2))).2 = false ∧
    (firstRegistered [⟨kHeartbeatServiceName, "M", some (constHandler 1)⟩]
      heartbeat.serviceName heartbeat.methodName).isSome ∧
    processFrame (oneMethodEnv (.only heartbeat heartbeatBody) kHeartbeatServiceName "M") {}
        heartbeatBody =
      enqueueResponse (oneMethodEnv (.only heartbeat heartbeatBody) kHeartbeatServiceName "M") {}
        ⟨"1", 0, "", []⟩ :=
  ⟨rfl, rfl, rfl, rfl, rfl, rfl, rfl⟩

end Server
end MiniRpc
