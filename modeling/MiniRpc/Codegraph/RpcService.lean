/-
# The CodeGraph service

`HandleRpcCall` and `RegisterCodeGraphService` of `src/codegraph/codegraph_rpc_service.cpp`:
every tool of the table is a method of the service `CodeGraph`, and its handler parses the
payload, calls the backend and writes the answer.

A `Backend` is what `Invoke` does at one time.  It never throws an `RpcError` that is no
error, as none of the three backends does (`CodeGraphBackend.backend`): a client would
take it for an answer.  Parameters of an `RpcService` are the JSON library with its
`dump(2)`, and what protobuf's `error_msg` keeps of the text of an `RpcError`.
-/

import MiniRpc.Codegraph.SentNumbers
import MiniRpc.Server.Routing

namespace MiniRpc
namespace Codegraph

open Server

/-- What was thrown says that it is an error. -/
def Failure.isError : Failure → Bool
  | .rpcError code _ => code ≠ .ok
  | .exception _ => true

/-- Whatever is thrown here says that it is an error. -/
def ThrowsErrors {α : Type} (x : Except Failure α) : Prop :=
  ∀ failure, x = .error failure → failure.isError = true

/-- `CodeGraphBackend` at one time. -/
structure Backend where
  invoke : String → RequestArgs → Except Failure Json
  throwsErrors : ∀ method args, ThrowsErrors (invoke method args)

/-! ### The three backends -/

section

variable {α β : Type}

theorem throwsErrors_ok (a : α) : ThrowsErrors (.ok a) := nofun

theorem ThrowsErrors.bind {x : Except Failure α} {f : α → Except Failure β} (hx : ThrowsErrors x)
    (hf : ∀ a, ThrowsErrors (f a)) : ThrowsErrors (x >>= f) := by
  cases x with
  | error failure => exact fun _ h => hx _ (congrArg Except.error (Except.error.inj h))
  | ok a => exact hf a

theorem throwsErrors_throwing (x : Except String α) : ThrowsErrors (throwing x) := by
  cases x with
  | error what =>
    rintro failure h
    obtain rfl := Except.error.inj h
    rfl
  | ok a => exact nofun

theorem throwsErrors_parseError (message : String) :
    ThrowsErrors (.error (parseError message) : Except Failure α) := by
  rintro failure h
  obtain rfl := Except.error.inj h
  rfl

theorem throwsErrors_requiredString (args : RequestArgs) (method key : String) :
    ThrowsErrors (requiredString args method key) := by
  unfold requiredString
  dsimp only
  split
  · exact throwsErrors_parseError _
  · split_ifs
    · exact throwsErrors_parseError _
    · exact throwsErrors_ok _

theorem throwsErrors_optionalInt (args : Json) (method : String) (field : IntField) :
    ThrowsErrors (optionalInt args method field) := by
  unfold optionalInt
  split
  · exact throwsErrors_ok _
  · exact throwsErrors_ok _
  · dsimp only
    split_ifs
    · exact throwsErrors_parseError _
    · exact throwsErrors_ok _
  · exact throwsErrors_parseError _

end

/-- An unknown method. -/
theorem throwsErrors_unknown (method : String) : ThrowsErrors (.error (.rpcError .methodNotFound
    ("unknown CodeGraph method: " ++ method).toByteArray) : Except Failure Json) := by
  rintro failure h
  obtain rfl := Except.error.inj h
  rfl

theorem EmptyBackend.throwsErrors_invoke (method : String) (args : RequestArgs) :
    ThrowsErrors (EmptyBackend.invoke EmptyBackend.optionalInt method args) := by
  have htraverse : ∀ method defaultDepth,
      ThrowsErrors (traverseFrom EmptyBackend.optionalInt method defaultDepth args) :=
    fun method defaultDepth => (throwsErrors_requiredString args method "symbol").bind fun _ =>
      (throwsErrors_optionalInt _ _ _).bind fun _ => throwsErrors_ok _
  unfold invoke
  split_ifs
  · exact throwsErrors_ok _
  · exact (throwsErrors_requiredString _ _ _).bind fun _ =>
      (throwsErrors_optionalInt _ _ _).bind fun _ => throwsErrors_ok _
  · exact (throwsErrors_requiredString _ _ _).bind fun _ =>
      (throwsErrors_optionalInt _ _ _).bind fun _ => throwsErrors_ok _
  · exact htraverse _ _
  · exact htraverse _ _
  · exact htraverse _ _
  · exact (throwsErrors_requiredString _ _ _).bind fun _ => throwsErrors_ok _
  · exact throwsErrors_ok _
  · exact throwsErrors_unknown method

theorem SqliteBackend.throwsErrors_invoke {b : SqliteBackend}
    (hopen : ThrowsErrors b.openReadOnly) (method : String) (args : RequestArgs) :
    ThrowsErrors (b.invoke SqliteBackend.optionalInt method args) := by
  have htraverse : ∀ method defaultDepth answer db,
      ThrowsErrors (traverseFrom SqliteBackend.optionalInt method defaultDepth answer db args) := by
    intro method defaultDepth answer db
    refine (throwsErrors_requiredString args method "symbol").bind fun symbol => ?_
    cases startNode db symbol with
    | error answer => exact throwsErrors_ok _
    | ok start =>
      exact (throwsErrors_optionalInt _ _ _).bind fun _ =>
        (throwsErrors_optionalInt _ _ _).bind fun _ => throwsErrors_ok _
  refine hopen.bind fun db => ?_
  split_ifs
  · exact throwsErrors_ok _
  · exact (throwsErrors_optionalInt _ _ _).bind fun _ => throwsErrors_ok _
  · exact (throwsErrors_requiredString _ _ _).bind fun _ =>
      (throwsErrors_optionalInt _ _ _).bind fun _ => throwsErrors_ok _
  · refine (throwsErrors_requiredString _ _ _).bind fun symbol => ?_
    cases startNode db symbol <;> exact throwsErrors_ok _
  · exact htraverse _ _ _ db
  · exact htraverse _ _ _ db
  · exact htraverse _ _ _ db
  · exact htraverse _ _ _ db
  · exact throwsErrors_unknown method

theorem NativeBackend.throwsErrors_invoke (b : NativeBackend) (method : String)
    (args : RequestArgs) :
    ThrowsErrors (b.invokeUncached NativeBackend.optionalInt method args) := by
  have htraverse : ∀ method defaultDepth query,
      ThrowsErrors (traverseFrom NativeBackend.optionalInt method defaultDepth query args) :=
    fun method defaultDepth query => (throwsErrors_requiredString args method "symbol").bind
      fun _ => (throwsErrors_optionalInt _ _ _).bind fun _ => throwsErrors_throwing _
  unfold invokeUncached
  split_ifs
  · exact throwsErrors_throwing _
  · exact (throwsErrors_throwing _).bind fun _ => (throwsErrors_optionalInt _ _ _).bind
      fun _ => (throwsErrors_throwing _).bind fun _ => throwsErrors_ok _
  · refine (throwsErrors_throwing _).bind fun _ => ?_
    split_ifs
    · exact (throwsErrors_requiredString _ _ _).bind fun _ => (throwsErrors_optionalInt _ _ _).bind
        fun _ => (throwsErrors_throwing _).bind fun _ => throwsErrors_ok _
    · refine (throwsErrors_requiredString _ _ _).bind fun _ =>
        (throwsErrors_throwing _).bind fun found => ?_
      split
      · exact (throwsErrors_throwing _).bind fun _ => throwsErrors_ok _
      · exact throwsErrors_ok _
    · exact (throwsErrors_requiredString _ _ _).bind fun _ => (throwsErrors_optionalInt _ _ _).bind
        fun _ => (throwsErrors_optionalInt _ _ _).bind fun _ => throwsErrors_throwing _
    · exact htraverse _ _ _
    · exact htraverse _ _ _
    · exact htraverse _ _ _
    · exact throwsErrors_unknown method

namespace CodeGraphBackend

/-- A database that cannot be opened is an error. -/
def Opens : CodeGraphBackend → Prop
  | .sqlite b => ThrowsErrors b.openReadOnly
  | .empty | .native _ => True

/-- Each of the three is a `Backend`. -/
def backend (b : CodeGraphBackend) (hopens : b.Opens) : Backend where
  invoke := b.invoke b.optionalInt
  throwsErrors method args := by
    cases b with
    | empty => exact EmptyBackend.throwsErrors_invoke method args
    | sqlite b => exact SqliteBackend.throwsErrors_invoke hopens method args
    | native b => exact b.throwsErrors_invoke method args

end CodeGraphBackend

/-! ### The service -/

structure RpcService where
  lib : JsonLibrary
  lawful : lib.Lawful
  /-- `dump(2)`. -/
  dumpIndented : Json → Except String ByteArray
  /-- `what()` of an `RpcError`, as a protobuf string. -/
  what : Common.ErrorCode → ByteArray → String

namespace RpcService

variable (svc : RpcService) (backend : Backend)

/-- `HandleRpcCall`. -/
def handleRpcCall (method : String) (payload : ByteArray) : Except Failure ByteArray :=
  match h : parsePayload svc.lib method payload with
  | .error failure => .error failure
  | .ok args =>
    match backend.invoke method ⟨args, isUtf8_of_parsePayload svc.lawful h⟩ with
    | .error failure => .error failure
    | .ok result => (svc.dumpIndented result).mapError .exception

/-- The function that is registered for a method. -/
def handler (method : String) : Handler := fun payload =>
  match svc.handleRpcCall backend method ⟨payload.toArray⟩ with
  | .ok answer => .returned answer.data.toList
  | .error (.rpcError code message) =>
    .rpcError (Common.makeErrorCode code) (svc.what code message)
  | .error (.exception what) => .exception what

/-- The loop of `RegisterCodeGraphService`. -/
def registerTools (specs : List ToolSpec) (r : ServiceRegistry × Bool) : ServiceRegistry × Bool :=
  specs.foldl (fun r spec =>
    let registered := r.1.register "CodeGraph" spec.rpcMethod
      (some (svc.handler backend spec.rpcMethod))
    (registered.1, registered.2 && r.2)) r

/-- `RegisterCodeGraphService`. -/
def registerCodeGraphService (r : ServiceRegistry) : ServiceRegistry × Bool :=
  svc.registerTools backend codeGraphToolSpecs (r, true)

/-! ### The registration -/

theorem registerTools_cons (spec : ToolSpec) (specs : List ToolSpec) (r : ServiceRegistry)
    (ok : Bool) :
    svc.registerTools backend (spec :: specs) (r, ok) = svc.registerTools backend specs
      ((r.register "CodeGraph" spec.rpcMethod (some (svc.handler backend spec.rpcMethod))).1,
        (r.register "CodeGraph" spec.rpcMethod
          (some (svc.handler backend spec.rpcMethod))).2 && ok) := rfl

/-- Methods of the service have different keys. -/
theorem buildKey_codeGraph_inj {method method' : String} :
    ServiceRegistry.buildKey "CodeGraph" method = ServiceRegistry.buildKey "CodeGraph" method' ↔
      method = method' :=
  String.append_right_inj _

/-- Which tools of a list have the key. -/
def toolFor (specs : List ToolSpec) (serviceName methodName : String) : Option ToolSpec :=
  specs.find? fun spec => ServiceRegistry.buildKey "CodeGraph" spec.rpcMethod =
    ServiceRegistry.buildKey serviceName methodName

/-- The key of a tool of the list finds one with its method. -/
theorem exists_toolFor {specs : List ToolSpec} {tool : ToolSpec} (h : tool ∈ specs) :
    ∃ found, toolFor specs "CodeGraph" tool.rpcMethod = some found ∧
      found.rpcMethod = tool.rpcMethod := by
  have hsome : (toolFor specs "CodeGraph" tool.rpcMethod).isSome :=
    List.find?_isSome.2 ⟨tool, h, decide_eq_true rfl⟩
  obtain ⟨found, hfound⟩ := Option.isSome_iff_exists.1 hsome
  have hkey := List.find?_some hfound
  exact ⟨found, hfound, buildKey_codeGraph_inj.1 (of_decide_eq_true hkey)⟩

/-- **The loop**: it succeeds if no method was there before, and then adds each; what was
found before is still found. -/
theorem registerTools_spec {specs : List ToolSpec} (hnodup : (specs.map ToolSpec.rpcMethod).Nodup)
    (hnames : ∀ spec ∈ specs, spec.rpcMethod ≠ "") (r : ServiceRegistry) (ok : Bool) :
    ((svc.registerTools backend specs (r, ok)).2 = true ↔
        ok = true ∧ ∀ spec ∈ specs, r.find "CodeGraph" spec.rpcMethod = none) ∧
      ∀ s m, (svc.registerTools backend specs (r, ok)).1.find s m =
        (r.find s m).or
          ((toolFor specs s m).map fun spec => svc.handler backend spec.rpcMethod) := by
  induction specs generalizing r ok with
  | nil => simp [registerTools, toolFor]
  | cons spec specs ih =>
    obtain ⟨hnew, hnodup⟩ := List.nodup_cons.1 hnodup
    have hfind := ServiceRegistry.find_register r "CodeGraph" spec.rpcMethod
      (some (svc.handler backend spec.rpcMethod))
    have hok := ServiceRegistry.register_ok_iff r "CodeGraph" spec.rpcMethod
      (some (svc.handler backend spec.rpcMethod))
    have htail := ih hnodup (fun x hx => hnames x (List.mem_cons_of_mem _ hx))
      (r.register "CodeGraph" spec.rpcMethod (some (svc.handler backend spec.rpcMethod))).1
      ((r.register "CodeGraph" spec.rpcMethod
        (some (svc.handler backend spec.rpcMethod))).2 && ok)
    rw [registerTools_cons]
    generalize r.register "CodeGraph" spec.rpcMethod
      (some (svc.handler backend spec.rpcMethod)) = registered at hfind hok htail
    obtain ⟨r', done⟩ := registered
    obtain ⟨hreturned, hrouted⟩ := htail
    have hdone : done = true ↔ r.find "CodeGraph" spec.rpcMethod = none := by
      rw [hok]
      exact ⟨fun h => h.2.2.2, fun h => ⟨rfl, by decide, hnames spec List.mem_cons_self, h⟩⟩
    constructor
    · -- the other methods are found as before
      have hothers : ∀ x ∈ specs, r'.find "CodeGraph" x.rpcMethod =
          r.find "CodeGraph" x.rpcMethod := by
        intro x hx
        rw [hfind, if_neg]
        rintro ⟨-, hkey⟩
        exact hnew (List.mem_map.2 ⟨x, hx, (buildKey_codeGraph_inj.1 hkey).symm⟩)
      rw [hreturned, Bool.and_eq_true, hdone, List.forall_mem_cons]
      constructor
      · rintro ⟨⟨hfree, hok⟩, hrest⟩
        exact ⟨hok, hfree, fun x hx => hothers x hx ▸ hrest x hx⟩
      · rintro ⟨hok, hfree, hrest⟩
        exact ⟨⟨hfree, hok⟩, fun x hx => (hothers x hx).trans (hrest x hx)⟩
    · intro s m
      rw [hrouted, hfind]
      by_cases hkey : ServiceRegistry.buildKey "CodeGraph" spec.rpcMethod =
          ServiceRegistry.buildKey s m
      · have hsame : r.find s m = r.find "CodeGraph" spec.rpcMethod := by
          unfold ServiceRegistry.find
          rw [hkey]
        rw [show toolFor (spec :: specs) s m = some spec from List.find?_cons_of_pos (by simpa)]
        cases done with
        | true => simp [hkey, hsame, hdone.1 rfl]
        | false =>
          obtain ⟨h, hh⟩ := Option.ne_none_iff_exists'.1 fun hnone => nomatch hdone.2 hnone
          simp [hsame, hh]
      · rw [if_neg fun h => hkey h.2,
          show toolFor (spec :: specs) s m = toolFor specs s m from
            List.find?_cons_of_neg (by simpa)]

theorem nodup_rpcMethods : (codeGraphToolSpecs.map ToolSpec.rpcMethod).Nodup := by decide

theorem rpcMethod_ne_empty : ∀ spec ∈ codeGraphToolSpecs, spec.rpcMethod ≠ "" := by decide

/-- A loop over methods that are all taken changes nothing. -/
theorem registerTools_taken {specs : List ToolSpec} {r : ServiceRegistry}
    (htaken : ∀ spec ∈ specs, (r.find "CodeGraph" spec.rpcMethod).isSome) (ok : Bool) :
    (svc.registerTools backend specs (r, ok)).1 = r := by
  induction specs generalizing ok with
  | nil => rfl
  | cons spec specs ih =>
    obtain ⟨h, hh⟩ := Option.isSome_iff_exists.1 (htaken spec List.mem_cons_self)
    have hsame : (r.register "CodeGraph" spec.rpcMethod
        (some (svc.handler backend spec.rpcMethod))).1 = r := by
      unfold ServiceRegistry.find at hh
      unfold ServiceRegistry.register Table.tryEmplace
      split_ifs
      · rfl
      · rw [hh]
    rw [registerTools_cons, hsame]
    exact ih (fun x hx => htaken x (List.mem_cons_of_mem _ hx)) _

/-- So the loop fails when it is run again. -/
theorem registerTools_again {specs : List ToolSpec} (hnodup : (specs.map ToolSpec.rpcMethod).Nodup)
    (hnames : ∀ spec ∈ specs, spec.rpcMethod ≠ "") (hsome : ∃ spec, spec ∈ specs)
    (r : ServiceRegistry) (svc' : RpcService) (backend' : Backend) :
    svc'.registerTools backend' specs ((svc.registerTools backend specs (r, true)).1, true) =
      ((svc.registerTools backend specs (r, true)).1, false) := by
  obtain ⟨-, hrouted⟩ := svc.registerTools_spec backend hnodup hnames r true
  have htaken : ∀ spec ∈ specs,
      ((svc.registerTools backend specs (r, true)).1.find "CodeGraph" spec.rpcMethod).isSome := by
    intro spec hspec
    obtain ⟨tool, htool, -⟩ := exists_toolFor hspec
    rw [hrouted, htool]
    cases r.find "CodeGraph" spec.rpcMethod <;> rfl
  refine Prod.ext (svc'.registerTools_taken backend' htaken true) ?_
  refine Bool.eq_false_iff.2 fun htrue => ?_
  have hfree := ((svc'.registerTools_spec backend' hnodup hnames _ true).1.1 htrue).2
  obtain ⟨spec, hspec⟩ := hsome
  have hfound := htaken spec hspec
  rw [hfree spec hspec] at hfound
  cases hfound

/-- After a registration that has succeeded the handler of each tool is found. -/
theorem find_registerCodeGraphService {r : ServiceRegistry} {tool : ToolSpec}
    (hregistered : (svc.registerCodeGraphService backend r).2 = true)
    (htool : tool ∈ codeGraphToolSpecs) :
    (svc.registerCodeGraphService backend r).1.find "CodeGraph" tool.rpcMethod =
      some (svc.handler backend tool.rpcMethod) := by
  obtain ⟨hreturned, hrouted⟩ :=
    svc.registerTools_spec backend nodup_rpcMethods rpcMethod_ne_empty r true
  obtain ⟨found, hfound, hmethod⟩ := exists_toolFor htool
  unfold registerCodeGraphService
  rw [hrouted, (hreturned.1 hregistered).2 tool htool, hfound, Option.none_or, Option.map_some,
    hmethod]

/-- **`RegisterCodeGraphService`** returns true if and only if none of the methods was
registered before.  In any case every request that was routed before is routed as before,
and one for a method of a tool that was not there goes to the handler of that tool.  A
second call, with whatever backend, returns false and changes nothing. -/
theorem registerCodeGraphService_spec (r : ServiceRegistry) :
    ((svc.registerCodeGraphService backend r).2 = true ↔
      ∀ spec ∈ codeGraphToolSpecs, r.find "CodeGraph" spec.rpcMethod = none) ∧
    (∀ s m, (svc.registerCodeGraphService backend r).1.find s m = (r.find s m).or
      ((toolFor codeGraphToolSpecs s m).map fun spec => svc.handler backend spec.rpcMethod)) ∧
    ∀ (svc' : RpcService) (backend' : Backend),
      svc'.registerCodeGraphService backend' (svc.registerCodeGraphService backend r).1 =
        ((svc.registerCodeGraphService backend r).1, false) := by
  obtain ⟨hreturned, hrouted⟩ :=
    svc.registerTools_spec backend nodup_rpcMethods rpcMethod_ne_empty r true
  refine ⟨?_, hrouted, ?_⟩
  · unfold registerCodeGraphService
    rw [hreturned]
    exact and_iff_right rfl
  · exact svc.registerTools_again backend nodup_rpcMethods rpcMethod_ne_empty
      ⟨_, List.mem_cons_self⟩ r

end RpcService
end Codegraph
end MiniRpc
