/-
# The arguments of a CodeGraph call

What the backends of `src/codegraph` do with the arguments of a request before they
answer it: `ParsePayload` of `codegraph_rpc_service.cpp`, and `RequiredString` and
`OptionalInt`, which each of the three files of backends has for itself, in the same
words.

`OptionalInt` narrows the number of the request to an `int` and then looks at its range.
`exactInt` is what its messages say: it looks at the number that was sent.  A number reads
as it was sent if and only if no other one that narrows to the same `int` is in the range
(`readsAsSent_optionalInt_iff`).
-/

import Mathlib.Algebra.Group.Int.Defs
import Mathlib.Data.List.Basic
import MiniRpc.Common.RpcError
import MiniRpc.Library.Json

namespace MiniRpc
namespace Codegraph

/-- What `Invoke` throws: an `RpcError`, or another `std::exception`. -/
inductive Failure where
  | rpcError (code : Common.ErrorCode) (message : ByteArray)
  | exception (what : String)

/-- `ParseError`. -/
def parseError (message : String) : Failure := .rpcError .parseError message.toByteArray

/-- `ParsePayload`. -/
def parsePayload (lib : JsonLibrary) (method : String) (payload : ByteArray) :
    Except Failure Json :=
  if payload.isEmpty then .ok (.object [])
  else
    match lib.parse payload with
    | .error failure =>
      .error (.rpcError .parseError
        (("CodeGraph." ++ method ++ " received invalid JSON payload: ").toByteArray ++
          failure.what))
    | .ok parsed =>
      if parsed.isObject then .ok parsed
      else .error (parseError ("CodeGraph." ++ method ++ " payload must be a JSON object"))

/-- The arguments of a call, as `ParsePayload` lets them through: all strings are UTF-8. -/
structure RequestArgs where
  json : Json
  isUtf8 : json.isUtf8 = true

/-- What `ParsePayload` returns is UTF-8. -/
theorem isUtf8_of_parsePayload {lib : JsonLibrary} (hlib : lib.Lawful) {method : String}
    {payload : ByteArray} {args : Json} (h : parsePayload lib method payload = .ok args) :
    args.isUtf8 = true := by
  unfold parsePayload at h
  split at h
  · obtain rfl := Except.ok.inj h
    exact Json.isUtf8_object.2 (by simp)
  · split at h
    · cases h
    · rename_i parsed hparsed
      split at h
      · obtain rfl := Except.ok.inj h
        exact hlib.isUtf8_of_parse payload _ hparsed
      · cases h

/-- The member of the arguments under a key, if it is a string. -/
def RequestArgs.findString (args : RequestArgs) (key : String) : Option String :=
  match h : args.json.find key with
  | some (.string s) =>
    some (.ofByteArray s (Json.isUtf8_string.1 (Json.isUtf8_of_find args.isUtf8 h)))
  | _ => none

/-- `RequiredString`. -/
def requiredString (args : RequestArgs) (method key : String) : Except Failure String :=
  let missing := parseError ("CodeGraph." ++ method ++ " requires non-empty string field '" ++
    key ++ "'")
  match args.findString key with
  | none => .error missing
  | some s => if s.isEmpty then .error missing else .ok s

/-- An optional number: its key, what it is when it is left out, and its range. -/
structure IntField where
  key : String
  defaultValue : Int32
  minValue : Int32
  maxValue : Int32
  deriving DecidableEq, Repr

/-- The message about a number out of range. -/
def outOfRange (method : String) (field : IntField) : Failure :=
  parseError ("CodeGraph." ++ method ++ " field '" ++ field.key ++ "' is out of range")

/-- The message about a value that is no integer. -/
def notAnInteger (method : String) (field : IntField) : Failure :=
  parseError ("CodeGraph." ++ method ++ " field '" ++ field.key ++ "' must be an integer")

/-- How a backend reads the optional numbers of its arguments. -/
abbrev IntReader := Json → String → IntField → Except Failure Int32

/-- `OptionalInt`; `get<int>()` is a cast. -/
def optionalInt : IntReader := fun args method field =>
  match args.find field.key with
  | none => .ok field.defaultValue
  | some .null => .ok field.defaultValue
  | some (.integer n) =>
    let value := Int32.ofInt n
    if value < field.minValue ∨ field.maxValue < value then .error (outOfRange method field)
    else .ok value
  | some _ => .error (notAnInteger method field)

/-- `OptionalInt` as it is meant: the number that was sent is in the range. -/
def exactInt : IntReader := fun args method field =>
  match args.find field.key with
  | none => .ok field.defaultValue
  | some .null => .ok field.defaultValue
  | some (.integer n) =>
    if n < field.minValue.toInt ∨ field.maxValue.toInt < n then .error (outOfRange method field)
    else .ok (Int32.ofInt n)
  | some _ => .error (notAnInteger method field)

/-- The number is accepted if and only if it is in the range; then it is what the call goes on
with, and otherwise the call ends with a parse error. -/
structure ReadsAsSent (read : Except Failure Int32) (field : IntField) (n : ℤ) : Prop where
  accepted : (∃ value, read = .ok value) ↔
    field.minValue.toInt ≤ n ∧ n ≤ field.maxValue.toInt
  sent : ∀ value, read = .ok value → value.toInt = n
  refused : ∀ failure, read = .error failure → ∃ message, failure = parseError message

/-- No number of the range differs from `n` by a multiple of `2^32`, other than `n` itself. -/
def IntField.NoAlias (field : IntField) (n : ℤ) : Prop :=
  ∀ k : ℤ, k ≠ 0 →
    ¬ (field.minValue.toInt ≤ n + k * 2 ^ 32 ∧ n + k * 2 ^ 32 ≤ field.maxValue.toInt)

/-! ### What the cast does -/

/-- The cast goes by a multiple of `2^32`. -/
theorem exists_toInt_ofInt (n : ℤ) : ∃ k : ℤ, (Int32.ofInt n).toInt = n + k * 2 ^ 32 := by
  obtain ⟨k, hk⟩ : ((Int32.size : ℕ) : ℤ) ∣ n.bmod Int32.size - n := Int.dvd_bmod_sub_self
  refine ⟨k, ?_⟩
  rw [Int32.toInt_ofInt]
  have hsize : ((Int32.size : ℕ) : ℤ) = 2 ^ 32 := rfl
  rw [hsize] at hk
  omega

/-- It finds the number of the range that `n` may be mistaken for, if there is one. -/
theorem toInt_ofInt_of_mem {field : IntField} {n k : ℤ}
    (hmin : field.minValue.toInt ≤ n + k * 2 ^ 32)
    (hmax : n + k * 2 ^ 32 ≤ field.maxValue.toInt) : (Int32.ofInt n).toInt = n + k * 2 ^ 32 := by
  obtain ⟨l, hl⟩ := exists_toInt_ofInt n
  have h₁ := field.minValue.le_toInt
  have h₂ := field.maxValue.toInt_lt
  have h₃ := (Int32.ofInt n).le_toInt
  have h₄ := (Int32.ofInt n).toInt_lt
  omega

/-- So a number that is not in the range and has no alias there stays out of it. -/
theorem IntField.NoAlias.toInt_ofInt {field : IntField} {n : ℤ} (h : field.NoAlias n)
    (hmin : field.minValue.toInt ≤ (Int32.ofInt n).toInt)
    (hmax : (Int32.ofInt n).toInt ≤ field.maxValue.toInt) : (Int32.ofInt n).toInt = n := by
  obtain ⟨k, hk⟩ := exists_toInt_ofInt n
  by_cases hzero : k = 0
  · rw [hk, hzero]
    omega
  · exact absurd ⟨hk ▸ hmin, hk ▸ hmax⟩ (h k hzero)

/-- A number of the range has no alias there. -/
theorem IntField.noAlias_of_mem {field : IntField} {n : ℤ} (hmin : field.minValue.toInt ≤ n)
    (hmax : n ≤ field.maxValue.toInt) : field.NoAlias n := by
  rintro k hk ⟨h₁, h₂⟩
  have := field.minValue.le_toInt
  have := field.maxValue.toInt_lt
  omega

/-! ### Reading a number -/

section

variable {args : Json} {method : String} {field : IntField} {n : ℤ}

theorem optionalInt_accepts (hsent : args.find field.key = some (.integer n))
    (hmin : field.minValue.toInt ≤ (Int32.ofInt n).toInt)
    (hmax : (Int32.ofInt n).toInt ≤ field.maxValue.toInt) :
    optionalInt args method field = .ok (Int32.ofInt n) := by
  simp only [optionalInt, hsent]
  rw [if_neg]
  rw [Int32.lt_iff_toInt_lt, Int32.lt_iff_toInt_lt]
  omega

theorem optionalInt_refuses (hsent : args.find field.key = some (.integer n))
    (h : ¬ (field.minValue.toInt ≤ (Int32.ofInt n).toInt ∧
      (Int32.ofInt n).toInt ≤ field.maxValue.toInt)) :
    optionalInt args method field = .error (outOfRange method field) := by
  simp only [optionalInt, hsent]
  rw [if_pos]
  rw [Int32.lt_iff_toInt_lt, Int32.lt_iff_toInt_lt]
  omega

/-- **When a number reads as it was sent**: no other number of the range is taken for it. -/
theorem readsAsSent_optionalInt_iff (hsent : args.find field.key = some (.integer n)) :
    ReadsAsSent (optionalInt args method field) field n ↔ field.NoAlias n := by
  constructor
  · rintro h k hk ⟨hmin, hmax⟩
    have hcast := toInt_ofInt_of_mem hmin hmax
    have hread : optionalInt args method field = .ok (Int32.ofInt n) :=
      optionalInt_accepts hsent (hcast ▸ hmin) (hcast ▸ hmax)
    have := h.sent _ hread
    omega
  · intro h
    by_cases hrange : field.minValue.toInt ≤ (Int32.ofInt n).toInt ∧
        (Int32.ofInt n).toInt ≤ field.maxValue.toInt
    · obtain ⟨hmin, hmax⟩ := hrange
      have hcast := h.toInt_ofInt hmin hmax
      rw [optionalInt_accepts hsent hmin hmax]
      rw [hcast] at hmin hmax
      constructor
      · exact iff_of_true ⟨_, rfl⟩ ⟨hmin, hmax⟩
      · intro value hvalue
        rw [← Except.ok.inj hvalue, hcast]
      · intro failure hfailure
        cases hfailure
    · rw [optionalInt_refuses hsent hrange]
      constructor
      · refine iff_of_false (fun ⟨value, hvalue⟩ => by cases hvalue) fun ⟨hmin, hmax⟩ => ?_
        have hcast := @toInt_ofInt_of_mem field n 0 (by omega) (by omega)
        omega
      · intro value hvalue
        cases hvalue
      · intro failure hfailure
        exact ⟨_, (Except.error.inj hfailure).symm⟩

/-- Then `OptionalInt` does what it is meant to. -/
theorem optionalInt_eq_exactInt
    (h : ∀ n, args.find field.key = some (.integer n) → field.NoAlias n) :
    optionalInt args method field = exactInt args method field := by
  cases hfind : args.find field.key with
  | none => simp only [optionalInt, exactInt, hfind]
  | some item =>
    cases item with
    | integer n =>
      have hexact : ReadsAsSent (optionalInt args method field) field n :=
        (readsAsSent_optionalInt_iff hfind).2 (h n hfind)
      simp only [exactInt, hfind]
      split_ifs with hrange
      · refine optionalInt_refuses hfind fun ⟨hmin, hmax⟩ => ?_
        have hcast := (h n hfind).toInt_ofInt hmin hmax
        omega
      · obtain ⟨value, hvalue⟩ := hexact.accepted.2 (by omega)
        rw [hvalue, ← hexact.sent value hvalue, Int32.ofInt_toInt]
    | _ => simp only [optionalInt, exactInt, hfind]

end

end Codegraph
end MiniRpc
