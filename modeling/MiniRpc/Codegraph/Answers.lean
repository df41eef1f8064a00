/-
# Every line is answered

What `Run` of `MiniRpc.Codegraph.McpAdapter` owes its client: one line for each
line of the input that is not empty and no notification, in their order, with the
`id` of the request, or an error without one for what is no request.
`answered_iff` says when it keeps this.
-/

import MiniRpc.Codegraph.McpAdapter
import Mathlib.Data.List.Forall2

namespace MiniRpc
namespace Codegraph

open Json (text)

/-- The line is owed an answer: it is not empty, and no notification. -/
def awaits (lib : JsonLibrary) (turn : Turn) : Bool :=
  !turn.line.isEmpty &&
    match lib.parse turn.line with
    | .ok request => !request.isObject || !isNotification request
    | .error _ => true

/-- The response answers the line: it carries the `id` of a request, and is an
error with the `id` null for what is no JSON object. -/
def Answers (lib : JsonLibrary) (turn : Turn) (w : Written) : Prop :=
  match lib.parse turn.line with
  | .ok (.object members) => w.response.find "id" = (Json.object members).find "id"
  | _ => w.response.find "id" = some .null ∧ (w.response.find "error").isSome = true

/-- **Every line that is owed an answer gets one**, in the order of the input, and
nothing else is written or thrown. -/
structure Answered (lib : JsonLibrary) (turns : List Turn) : Prop where
  thrown : (run lib turns).thrown = none
  answers : List.Forall₂ (Answers lib) (turns.filter (awaits lib)) (run lib turns).written

/-- The payload that a call of the tool returns is UTF-8. -/
def PayloadUtf8 (lib : JsonLibrary) (call : RpcCall) (request : Json) : Prop :=
  ∀ spec arguments payload, toolCall request = .ok (spec, arguments) →
    lib.dump arguments = .ok payload →
    (call "CodeGraph" spec.rpcMethod payload.data.toList).status.ok = true →
    ByteArray.IsValidUTF8
      ⟨(call "CodeGraph" spec.rpcMethod payload.data.toList).responsePayload.toArray⟩

/-- The line is no JSON and the text of the parser's error is UTF-8; or it is an
object, and a notification or a request whose `method` is absent or a string and
whose payload is UTF-8. -/
def Answerable (lib : JsonLibrary) (turn : Turn) : Prop :=
  match lib.parse turn.line with
  | .error failure => failure.what.IsValidUTF8
  | .ok request => request.isObject = true ∧ (isNotification request = false →
      (∀ method, request.find "method" = some method → method.isString = true) ∧
        (request.value "method" "" = .ok "tools/call".toByteArray →
          PayloadUtf8 lib turn.call request))

/-! ### Responses -/

section Responses

variable {id result : Json} {message answer : ByteArray} {code : ℤ}

@[simp] theorem find_id_makeResponse : (makeResponse id result).find "id" = some id := rfl

@[simp] theorem find_id_makeError : (makeError id code message).find "id" = some id := rfl

@[simp] theorem isUtf8_makeResponse :
    (makeResponse id result).isUtf8 = true ↔ result.isUtf8 = true ∧ id.isUtf8 = true := by
  simp [makeResponse]

@[simp] theorem isUtf8_makeError :
    (makeError id code message).isUtf8 = true ↔ message.IsValidUTF8 ∧ id.isUtf8 = true := by
  simp [makeError]

@[simp] theorem isUtf8_makeToolResult {isError : Bool} :
    (makeToolResult answer isError).isUtf8 = true ↔ answer.IsValidUTF8 := by
  cases isError <;> simp [makeToolResult]

end Responses

/-! ### What the handlers return -/

section Handlers

variable {lib : JsonLibrary} {call : RpcCall} {request : Json}

theorem isUtf8_jsonRpcId (h : request.isUtf8 = true) : (jsonRpcId request).isUtf8 = true := by
  unfold jsonRpcId
  cases hfind : request.find "id" with
  | none => rfl
  | some id => exact Json.isUtf8_of_find h hfind

/-- A request that is no notification has an `id`. -/
theorem find_id_of_not_isNotification (h : isNotification request = false) :
    request.find "id" = some (jsonRpcId request) ∧ jsonRpcId request ≠ .null := by
  unfold isNotification at h
  unfold jsonRpcId
  cases hfind : request.find "id" with
  | none =>
    rw [hfind] at h
    cases h
  | some id =>
    rw [hfind] at h
    refine ⟨rfl, ?_⟩
    rintro rfl
    cases h

theorem isUtf8_inputSchema : ∀ spec ∈ codeGraphToolSpecs, spec.inputSchema.isUtf8 = true := by
  simp [codeGraphToolSpecs, objectSchema, stringProperty, integerProperty]

theorem isUtf8_handleInitialize (h : request.isUtf8 = true) :
    (handleInitialize request).isUtf8 = true := by
  simp [handleInitialize, isUtf8_jsonRpcId h]

theorem isUtf8_handleToolsList (h : request.isUtf8 = true) :
    (handleToolsList request).isUtf8 = true := by
  unfold handleToolsList
  rw [isUtf8_makeResponse]
  refine ⟨?_, isUtf8_jsonRpcId h⟩
  simpa using isUtf8_inputSchema

theorem isUtf8_requestParamsObject (h : request.isUtf8 = true) {params : Json}
    (hparams : requestParamsObject request = .ok params) : params.isUtf8 = true := by
  unfold requestParamsObject at hparams
  split at hparams
  · obtain rfl := Except.ok.inj hparams
    rfl
  · rename_i found hfind
    split_ifs at hparams
    · obtain rfl := Except.ok.inj hparams
      rfl
    · obtain rfl := Except.ok.inj hparams
      exact Json.isUtf8_of_find h hfind

theorem isValidUTF8_requiredStringParam {params : Json} {key : String} (h : params.isUtf8 = true)
    {s : ByteArray} (hs : requiredStringParam params key = .ok s) : s.IsValidUTF8 := by
  unfold requiredStringParam at hs
  split at hs
  · rename_i found hfind
    split_ifs at hs
    obtain rfl := Except.ok.inj hs
    exact Json.isUtf8_string.1 (Json.isUtf8_of_find h hfind)
  · cases hs

/-- **Before the call of the tool**, the response carries the `id`, and all texts
are UTF-8. -/
theorem toolCall_spec (h : request.isUtf8 = true) :
    (∀ response, toolCall request = .error response →
      response.find "id" = some (jsonRpcId request) ∧ response.isUtf8 = true) ∧
    ∀ spec arguments, toolCall request = .ok (spec, arguments) → arguments.isUtf8 = true := by
  have hid := isUtf8_jsonRpcId h
  unfold toolCall
  split
  · refine ⟨?_, fun spec arguments heq => by cases heq⟩
    rintro response ⟨⟩
    exact ⟨rfl, isUtf8_makeError.2 ⟨String.isValidUTF8 _, hid⟩⟩
  rename_i params hparams
  have hparams := isUtf8_requestParamsObject h hparams
  split
  · refine ⟨?_, fun spec arguments heq => by cases heq⟩
    rintro response ⟨⟩
    exact ⟨rfl, isUtf8_makeError.2 ⟨String.isValidUTF8 _, hid⟩⟩
  rename_i toolName hname
  split
  · refine ⟨?_, fun spec arguments heq => by cases heq⟩
    rintro response ⟨⟩
    refine ⟨rfl, isUtf8_makeResponse.2 ⟨isUtf8_makeToolResult.2 ?_, hid⟩⟩
    exact (isValidUTF8_append_iff _ _).2 (isValidUTF8_requiredStringParam hparams hname)
  split
  · refine ⟨fun response heq => (by cases heq), ?_⟩
    rintro spec arguments ⟨⟩
    rfl
  · rename_i found hfind
    split_ifs
    · refine ⟨fun response heq => (by cases heq), ?_⟩
      rintro spec arguments ⟨⟩
      rfl
    · refine ⟨fun response heq => (by cases heq), ?_⟩
      rintro spec arguments ⟨⟩
      exact Json.isUtf8_of_find hparams hfind
    · refine ⟨?_, fun spec arguments heq => by cases heq⟩
      rintro response ⟨⟩
      exact ⟨rfl, isUtf8_makeError.2 ⟨String.isValidUTF8 _, hid⟩⟩

/-- **A tool call is answered under its `id`**, by a text that is UTF-8 if the
payload that came back is. -/
theorem handleToolsCall_spec (call : RpcCall) (hlib : lib.Lawful) (h : request.isUtf8 = true) :
    ∃ response, handleToolsCall lib call request = .ok response ∧
      response.find "id" = some (jsonRpcId request) ∧
      (response.isUtf8 = true ↔ PayloadUtf8 lib call request) := by
  obtain ⟨hearly, hcall⟩ := toolCall_spec h
  unfold handleToolsCall PayloadUtf8
  cases htool : toolCall request with
  | error response =>
    obtain ⟨hid, hutf8⟩ := hearly response htool
    refine ⟨response, rfl, hid, fun _ => ?_, fun _ => hutf8⟩
    rintro spec arguments payload ⟨⟩
  | ok called =>
    obtain ⟨spec, arguments⟩ := called
    obtain ⟨payload, hpayload⟩ := (hlib.dump_ok_iff arguments).2 (hcall spec arguments htool)
    simp only [hpayload]
    refine ⟨_, rfl, rfl, ?_⟩
    have hanswer : (∀ spec' arguments' payload',
        Except.ok (ε := Json) (spec, arguments) = .ok (spec', arguments') →
        lib.dump arguments' = .ok payload' →
        (call "CodeGraph" spec'.rpcMethod payload'.data.toList).status.ok = true →
        ByteArray.IsValidUTF8
          ⟨(call "CodeGraph" spec'.rpcMethod payload'.data.toList).responsePayload.toArray⟩) ↔
        ((call "CodeGraph" spec.rpcMethod payload.data.toList).status.ok = true →
        ByteArray.IsValidUTF8
          ⟨(call "CodeGraph" spec.rpcMethod payload.data.toList).responsePayload.toArray⟩) := by
      constructor
      · exact fun hall => hall spec arguments payload rfl hpayload
      · rintro hone spec' arguments' payload' ⟨⟩ hpayload'
        obtain rfl := Except.ok.inj (hpayload.symm.trans hpayload')
        exact hone
    rw [hanswer, isUtf8_makeResponse]
    split_ifs with hok
    · simp [hok, isUtf8_jsonRpcId h]
    · simp [hok, isUtf8_jsonRpcId h, String.isValidUTF8]

/-- **A request is answered under its `id`** if its `method` is absent or a string;
otherwise an exception loses the `id`. -/
theorem handleRequest_spec (call : RpcCall) (hlib : lib.Lawful) (h : request.isUtf8 = true)
    (hobject : request.isObject = true) :
    (∃ what, handleRequest lib call request = .error (.other what) ∧
      ∃ method, request.find "method" = some method ∧ method.isString = false) ∨
    (∀ method, request.find "method" = some method → method.isString = true) ∧
      ∃ response, handleRequest lib call request = .ok response ∧
        response.find "id" = some (jsonRpcId request) ∧
        (response.isUtf8 = true ↔ (request.value "method" "" = .ok "tools/call".toByteArray →
          PayloadUtf8 lib call request)) := by
  have hid := isUtf8_jsonRpcId h
  unfold handleRequest
  rw [hobject, Bool.not_true, if_neg Bool.false_ne_true]
  rcases Json.value_cases "method" "" hobject with
    ⟨other, hfind, hstring, what, hvalue⟩ | ⟨hstring, method, hvalue, hvalid⟩
  · exact Or.inl ⟨what, by simp only [hvalue], other, hfind, hstring⟩
  · refine Or.inr ⟨hstring, ?_⟩
    simp only [hvalue, Except.ok.injEq]
    have hnoTool : method ≠ "tools/call".toByteArray → ∀ response : Json,
        response.isUtf8 = true → (response.isUtf8 = true ↔ (method = "tools/call".toByteArray →
          PayloadUtf8 lib call request)) :=
      fun hne response hutf8 => ⟨fun _ heq => absurd heq hne, fun _ => hutf8⟩
    simp only [isText_iff]
    split_ifs with hempty hinit hlist htool hnote
    · refine ⟨_, rfl, rfl, hnoTool ?_ _ (isUtf8_makeError.2 ⟨String.isValidUTF8 _, hid⟩)⟩
      rintro rfl
      exact absurd hempty (by decide)
    · subst hinit
      exact ⟨_, rfl, rfl, hnoTool (by decide) _ (isUtf8_handleInitialize h)⟩
    · subst hlist
      exact ⟨_, rfl, rfl, hnoTool (by decide) _ (isUtf8_handleToolsList h)⟩
    · obtain ⟨response, hresponse, hcarries, hutf8⟩ := handleToolsCall_spec call hlib h
      refine ⟨response, hresponse, hcarries, hutf8.trans ?_⟩
      exact ⟨fun hall _ => hall, fun hall => hall htool⟩
    · subst hnote
      exact ⟨_, rfl, rfl, hnoTool (by decide) _ (isUtf8_makeResponse.2 ⟨rfl, hid⟩)⟩
    · refine ⟨_, rfl, rfl, hnoTool htool _ (isUtf8_makeError.2 ⟨?_, hid⟩)⟩
      exact (isValidUTF8_append_iff _ _).2 (hvalid h)

end Handlers

/-! ### One line -/

section Line

variable {lib : JsonLibrary} {turn : Turn}

/-- What is answered was owed an answer. -/
theorem awaits_of_respond (hline : turn.line.isEmpty = false) {response : Json}
    (h : respond lib turn = some response) : awaits lib turn = true := by
  unfold respond at h
  unfold awaits
  rw [hline]
  split at h
  · rename_i what hparse
    rw [hparse]
    rfl
  · rename_i what hparse
    rw [hparse]
    rfl
  · rename_i request hparse
    split_ifs at h with hnote
    rw [hparse]
    simp [hnote]

/-- A notification is not answered. -/
theorem respond_of_not_awaits (hline : turn.line.isEmpty = false)
    (h : awaits lib turn = false) : respond lib turn = none ∧ Answerable lib turn := by
  unfold awaits at h
  unfold respond Answerable
  rw [hline] at h
  cases hparse : lib.parse turn.line with
  | error failure =>
    rw [hparse] at h
    cases h
  | ok request =>
    simp only [hparse, Bool.not_false, Bool.true_and, Bool.or_eq_false_iff, Bool.not_eq_false',
      ] at h
    obtain ⟨hobject, hnote⟩ := h
    simp [hnote, hobject]

/-- A response is written if it is UTF-8. -/
theorem written_iff (hlib : lib.Lawful) {response : Json}
    (h : respond lib turn = some response) :
    (∃ w : Written, respond lib turn = some w.response ∧ lib.dump w.response = .ok w.line ∧
      Answers lib turn w) ↔ response.isUtf8 = true ∧ ∀ line, Answers lib turn ⟨response, line⟩ := by
  constructor
  · rintro ⟨w, hw, hline, hanswers⟩
    obtain rfl := Option.some.inj (h.symm.trans hw)
    exact ⟨(hlib.dump_ok_iff _).1 ⟨_, hline⟩, fun _ => hanswers⟩
  · rintro ⟨hutf8, hanswers⟩
    obtain ⟨line, hline⟩ := (hlib.dump_ok_iff _).2 hutf8
    exact ⟨⟨response, line⟩, h, hline, hanswers line⟩

/-- An error of the parser is answered if its text is UTF-8. -/
theorem parseFailure_iff (hlib : lib.Lawful) {failure : ParseFailure} {code : ℤ} {said : String}
    (hparse : lib.parse turn.line = .error failure)
    (h : respond lib turn = some (makeError .null code (said.toByteArray ++ failure.what))) :
    failure.what.IsValidUTF8 ↔ ∃ w : Written, respond lib turn = some w.response ∧
      lib.dump w.response = .ok w.line ∧ Answers lib turn w := by
  rw [written_iff hlib h, isUtf8_makeError, isValidUTF8_append_iff]
  unfold Answers
  simp only [hparse]
  exact ⟨fun hvalid => ⟨⟨hvalid, rfl⟩, fun _ => ⟨rfl, rfl⟩⟩, fun hwritten => hwritten.1.1⟩

/-- **What a line that is owed an answer gets.** -/
theorem answerable_iff (hlib : lib.Lawful) (hawaits : awaits lib turn = true) :
    Answerable lib turn ↔ ∃ w : Written, respond lib turn = some w.response ∧
      lib.dump w.response = .ok w.line ∧ Answers lib turn w := by
  cases hparse : lib.parse turn.line with
  | error failure =>
    unfold Answerable
    simp only [hparse]
    cases failure with
    | parseError what => exact parseFailure_iff hlib hparse (by simp only [respond, hparse]; rfl)
    | outOfRange what => exact parseFailure_iff hlib hparse (by simp only [respond, hparse]; rfl)
  | ok request =>
    have hutf8 := hlib.isUtf8_of_parse _ _ hparse
    cases hobject : request.isObject with
    | false =>
      -- `contains` says no of what is no object, and so the line is taken for a notification
      have hnote : isNotification request = true := by
        unfold isNotification
        cases request with
        | object members => cases hobject
        | _ => rfl
      have hrespond : respond lib turn = none := by simp [respond, hparse, hnote]
      have hnot : ¬ Answerable lib turn := by simp [Answerable, hparse, hobject]
      refine ⟨fun h => absurd h hnot, ?_⟩
      rintro ⟨w, hw, -⟩
      rw [hrespond] at hw
      cases hw
    | true =>
      have hnote : isNotification request = false := by
        unfold awaits at hawaits
        simp only [hparse, hobject, Bool.and_eq_true, Bool.not_true, Bool.false_or,
          Bool.not_eq_true'] at hawaits
        exact hawaits.2
      have hanswerable : Answerable lib turn ↔
          (∀ method, request.find "method" = some method → method.isString = true) ∧
            (request.value "method" "" = .ok "tools/call".toByteArray →
              PayloadUtf8 lib turn.call request) := by
        simp [Answerable, hparse, hobject, hnote]
      have hanswers : ∀ w, Answers lib turn w ↔ w.response.find "id" = request.find "id" := by
        intro w
        unfold Answers
        cases request with
        | object members => simp only [hparse]
        | _ => cases hobject
      obtain ⟨hid, hnull⟩ := find_id_of_not_isNotification hnote
      rw [hanswerable]
      rcases handleRequest_spec turn.call hlib hutf8 hobject with
        ⟨what, hthrown, method, hmethod, hstring⟩ | ⟨hstring, response, hok, hcarries, hvalid⟩
      · -- the exception leaves `HandleRequest` without the `id`
        have hrespond : respond lib turn =
            some (makeError .null (-32603) ("Internal error: " ++ what).toByteArray) := by
          simp [respond, hparse, hnote, hthrown]
        rw [written_iff hlib hrespond]
        constructor
        · rintro ⟨hall, -⟩
          rw [hall method hmethod] at hstring
          cases hstring
        · rintro ⟨-, hlost⟩
          have hfind := (hanswers _).1 (hlost ByteArray.empty)
          rw [hid] at hfind
          exact absurd (Option.some.inj hfind).symm hnull
      · have hrespond : respond lib turn = some response := by
          simp [respond, hparse, hnote, hok]
        rw [written_iff hlib hrespond, hvalid]
        constructor
        · rintro ⟨-, hpayload⟩
          exact ⟨hpayload, fun line => (hanswers _).2 (hcarries.trans hid.symm)⟩
        · rintro ⟨hpayload, -⟩
          exact ⟨hstring, hpayload⟩

end Line

/-! ### The whole input -/

section Run

variable {lib : JsonLibrary} {turn : Turn} {turns : List Turn}

theorem run_skip (h : turn.line.isEmpty = true ∨ respond lib turn = none) :
    run lib (turn :: turns) = run lib turns := by
  rw [run]
  rcases h with hempty | hnone
  · rw [if_pos hempty]
  · split_ifs
    · rfl
    · rw [hnone]

theorem run_write (turns : List Turn) (hline : turn.line.isEmpty = false) {w : Written}
    (h : respond lib turn = some w.response) (hdump : lib.dump w.response = .ok w.line) :
    run lib (turn :: turns) =
      { run lib turns with written := w :: (run lib turns).written } := by
  rw [run, if_neg (by rw [hline]; exact Bool.false_ne_true), h]
  simp only [hdump]

/-- No more is written than is owed. -/
theorem length_written_le (lib : JsonLibrary) (turns : List Turn) :
    (run lib turns).written.length ≤ (turns.filter (awaits lib)).length := by
  induction turns with
  | nil => exact Nat.le_refl _
  | cons turn turns ih =>
    have hsub : (turns.filter (awaits lib)).length ≤
        ((turn :: turns).filter (awaits lib)).length :=
      ((List.sublist_cons_self turn turns).filter _).length_le
    cases hline : turn.line.isEmpty with
    | true =>
      rw [run_skip (Or.inl hline)]
      exact Nat.le_trans ih hsub
    | false =>
      cases hrespond : respond lib turn with
      | none =>
        rw [run_skip (Or.inr hrespond)]
        exact Nat.le_trans ih hsub
      | some response =>
        cases hdump : lib.dump response with
        | error what =>
          rw [run, if_neg (by rw [hline]; exact Bool.false_ne_true), hrespond]
          simp only [hdump]
          exact Nat.zero_le _
        | ok text =>
          rw [run_write _ (w := ⟨response, text⟩) hline hrespond hdump,
            List.filter_cons_of_pos (awaits_of_respond hline hrespond)]
          exact Nat.succ_le_succ ih

/-- A line that is owed no answer changes nothing. -/
theorem answered_skip (hawaits : awaits lib turn = false)
    (h : turn.line.isEmpty = true ∨ respond lib turn = none) :
    Answered lib (turn :: turns) ↔ Answered lib turns := by
  have hfilter : (turn :: turns).filter (awaits lib) = turns.filter (awaits lib) :=
    List.filter_cons_of_neg (by rw [hawaits]; exact Bool.false_ne_true)
  have hrun : run lib (turn :: turns) = run lib turns := run_skip h
  exact ⟨fun ⟨hthrown, hanswers⟩ => ⟨hrun ▸ hthrown, hrun ▸ hfilter ▸ hanswers⟩,
    fun ⟨hthrown, hanswers⟩ => ⟨hrun ▸ hthrown, hrun ▸ hfilter ▸ hanswers⟩⟩

/-- **One line more**, and the lines after it are answered as before. -/
theorem answered_cons (hlib : lib.Lawful) :
    Answered lib (turn :: turns) ↔
      (turn.line.isEmpty = false → Answerable lib turn) ∧ Answered lib turns := by
  cases hline : turn.line.isEmpty with
  | true =>
    rw [answered_skip (by simp [awaits, hline]) (Or.inl hline)]
    simp
  | false =>
    cases hawaits : awaits lib turn with
    | false =>
      obtain ⟨hnone, hanswerable⟩ := respond_of_not_awaits hline hawaits
      rw [answered_skip hawaits (Or.inr hnone)]
      simp [hanswerable]
    | true =>
      have hfilter : (turn :: turns).filter (awaits lib) = turn :: turns.filter (awaits lib) :=
        List.filter_cons_of_pos hawaits
      simp only [forall_const, answerable_iff hlib hawaits]
      constructor
      · rintro ⟨hthrown, hanswers⟩
        rw [hfilter] at hanswers
        cases hrespond : respond lib turn with
        | none =>
          -- nobody answers this line, and the others write too little
          rw [run_skip (Or.inr hrespond)] at hanswers
          have hlength := hanswers.length_eq
          have hle := length_written_le lib turns
          rw [List.length_cons] at hlength
          omega
        | some response =>
          cases hdump : lib.dump response with
          | error what =>
            rw [run, if_neg (by rw [hline]; exact Bool.false_ne_true), hrespond] at hthrown
            simp only [hdump] at hthrown
            cases hthrown
          | ok text =>
            have hrun := run_write turns (w := ⟨response, text⟩) hline hrespond hdump
            rw [hrun] at hthrown hanswers
            obtain ⟨hfirst, hrest⟩ := List.forall₂_cons.1 hanswers
            exact ⟨⟨⟨response, text⟩, rfl, hdump, hfirst⟩, hthrown, hrest⟩
      · rintro ⟨⟨w, hrespond, hdump, hfirst⟩, hthrown, hrest⟩
        have hrun := run_write turns hline hrespond hdump
        refine ⟨?_, ?_⟩
        · rw [hrun]
          exact hthrown
        · rw [hrun, hfilter]
          exact .cons hfirst hrest

/-- **When every line is answered.**  Whatever the lines are and the server
returns, every line that is owed an answer gets the one that answers it, and in
order, if and only if every line that is not empty is `Answerable`. -/
theorem answered_iff (hlib : lib.Lawful) :
    Answered lib turns ↔
      ∀ turn ∈ turns, turn.line.isEmpty = false → Answerable lib turn := by
  induction turns with
  | nil => exact ⟨fun _ turn h => (by cases h), fun _ => ⟨rfl, .nil⟩⟩
  | cons turn turns ih => rw [answered_cons hlib, ih, List.forall_mem_cons]

end Run

theorem answered_initialize :
    let line := "\x7b\"id\":7,\"method\":\"initialize\"\x7d".toByteArray
    let request := Json.object [("id", .integer 7), ("method", text "initialize")]
    let written := ("\x7b\"id\":7,\"jsonrpc\":\"2.0\",\"result\":" ++
      "\x7b\"capabilities\":\x7b\"tools\":\x7b\x7d\x7d,\"protocolVersion\":\"2024-11-05\"," ++
      "\"serverInfo\":\x7b\"name\":\"codegraph-mini-rpc-adapter\",\"version\":\"0.1.0\"" ++
      "\x7d\x7d\x7d").toByteArray
    Answered (.only line request written) [⟨line, fun _ _ _ => {}⟩] := by
  intro line request written
  refine (answered_iff (JsonLibrary.lawful_only (by simp [request]))).2 ?_
  rintro turn hturn -
  obtain rfl := List.mem_singleton.1 hturn
  have hmethod : "initialize".toByteArray ≠ "tools/call".toByteArray := by decide
  unfold Answerable
  simp only [JsonLibrary.parse_only]
  refine ⟨rfl, fun _ => ⟨?_, fun hcall => absurd (Except.ok.inj hcall) hmethod⟩⟩
  rintro method ⟨⟩
  rfl

/-- **What is no object is not answered, and a request with a `method` that is no
string loses its `id`.**  The lines are `[]` and one with the `id` 1 and the method
5; the second is answered by an error with the `id` null. -/
theorem array_unanswered :
    let array := "[]".toByteArray
    let typed := "\x7b\"id\":1,\"method\":5\x7d".toByteArray
    let written := ("\x7b\"error\":\x7b\"code\":-32603,\"message\":\"Internal error: " ++
      "[json.exception.type_error.302] type must be string, but is number\"\x7d," ++
      "\"id\":null,\"jsonrpc\":\"2.0\"\x7d").toByteArray
    let request := Json.object [("id", .integer 1), ("method", .integer 5)]
    (run (.only array (.array []) written) [⟨array, fun _ _ _ => {}⟩]).written = [] ∧
    ¬ Answered (.only array (.array []) written) [⟨array, fun _ _ _ => {}⟩] ∧
    (∃ w, (run (.only typed request written) [⟨typed, fun _ _ _ => {}⟩]).written = [w] ∧
      w.response.find "id" = some .null ∧ w.line = written) ∧
    ¬ Answered (.only typed request written) [⟨typed, fun _ _ _ => {}⟩] := by
  intro array typed written request
  have harray : array.isEmpty = false := by decide
  have htyped : typed.isEmpty = false := by decide
  have hnone : respond (.only array (.array []) written) ⟨array, fun _ _ _ => {}⟩ = none := by
    simp only [respond, JsonLibrary.parse_only]
    rfl
  have hsome : respond (.only typed request written) ⟨typed, fun _ _ _ => {}⟩ =
      some (makeError .null (-32603) ("Internal error: " ++
        "[json.exception.type_error.302] type must be string, but is number").toByteArray) := by
    simp only [respond, JsonLibrary.parse_only]
    rfl
  have hrunArray : run (.only array (.array []) written) [⟨array, fun _ _ _ => {}⟩] = {} :=
    run_skip (Or.inr hnone)
  have hrunTyped := run_write [] (w := ⟨_, written⟩) htyped hsome
    (JsonLibrary.dump_only _ _ _ (isUtf8_makeError.2 ⟨String.isValidUTF8 _, rfl⟩))
  have howedArray : awaits (.only array (.array []) written) ⟨array, fun _ _ _ => {}⟩ = true := by
    simp [awaits, harray, Json.isObject]
  have howedTyped : awaits (.only typed request written) ⟨typed, fun _ _ _ => {}⟩ = true := by
    simp [awaits, htyped, request, Json.isObject, isNotification, Json.find, Json.isNull]
  refine ⟨by rw [hrunArray], ?_, ⟨_, by rw [hrunTyped]; rfl, rfl, rfl⟩, ?_⟩
  · rintro ⟨-, hanswers⟩
    rw [hrunArray, List.filter_cons_of_pos howedArray] at hanswers
    cases hanswers
  · rintro ⟨-, hanswers⟩
    rw [hrunTyped, List.filter_cons_of_pos howedTyped] at hanswers
    have hfirst := (List.forall₂_cons.1 hanswers).1
    simp only [Answers, JsonLibrary.parse_only, request] at hfirst
    have hlost : some Json.null = some (Json.integer 1) := hfirst
    cases hlost

end Codegraph
end MiniRpc
