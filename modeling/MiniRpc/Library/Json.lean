/-
# JSON values

The values of JSON, and what a JSON library does with them, after `nlohmann::json`.
A string is raw bytes, because a program can put any bytes into it; only `dump`
asks for UTF-8.  A float is known by its bits.  The members of an object stand in
any order; a library writes them sorted.

`JsonLibrary` is a parser and a serializer, `Lawful` what is documented of them:
a text that was parsed holds no string that is not UTF-8, and `dump` throws if
and only if the value holds one.  `ReadsBack` says that what was parsed is read again
from what `dump` writes.
-/

import Mathlib.Data.Int.Notation
import Mathlib.Data.List.Basic
import Mathlib.Tactic.SplitIfs

namespace MiniRpc

/-- The bytes are this text. -/
def isText (b : ByteArray) (s : String) : Bool := b.data = s.toByteArray.data

@[simp] theorem isText_iff {b : ByteArray} {s : String} :
    isText b s = true ↔ b = s.toByteArray := by
  unfold isText
  rw [decide_eq_true_iff]
  exact ⟨ByteArray.ext, fun h => h ▸ rfl⟩

inductive Json where
  | null
  | boolean (b : Bool)
  | integer (n : ℤ)
  | float (bits : UInt64)
  | string (s : ByteArray)
  | array (items : List Json)
  | object (members : List (String × Json))

namespace Json

/-- A string of the program's own text. -/
def text (s : String) : Json := .string s.toByteArray

/-- `type_name`. -/
def typeName : Json → String
  | .null => "null"
  | .boolean _ => "boolean"
  | .integer _ => "number"
  | .float _ => "number"
  | .string _ => "string"
  | .array _ => "array"
  | .object _ => "object"

/-- `is_null`. -/
def isNull : Json → Bool
  | .null => true
  | _ => false

/-- `is_string`. -/
def isString : Json → Bool
  | .string _ => true
  | _ => false

/-- `is_object`. -/
def isObject : Json → Bool
  | .object _ => true
  | _ => false

/-- `find`, which finds nothing in what is no object; and so `contains` and `at`. -/
def find (key : String) : Json → Option Json
  | .object members => members.lookup key
  | _ => none

/-- `value`, of a member that is to be a string; what it throws otherwise. -/
def value (key fallback : String) : Json → Except String ByteArray
  | .object members =>
    match members.lookup key with
    | none => .ok fallback.toByteArray
    | some (.string s) => .ok s
    | some other =>
      .error ("[json.exception.type_error.302] type must be string, but is " ++ other.typeName)
  | other => .error ("[json.exception.type_error.306] cannot use value() with " ++ other.typeName)

/-- `contains`. -/
def contains (key : String) (j : Json) : Bool := (j.find key).isSome

/-- The members with one written. -/
def setMember (key : String) (item : Json) : List (String × Json) → List (String × Json)
  | [] => [(key, item)]
  | (k, old) :: members =>
    if k = key then (k, item) :: members else (k, old) :: setMember key item members

/-- `operator[]` that is assigned to: `null` becomes an object. -/
def set (key : String) (item : Json) : Json → Except String Json
  | .object members => .ok (.object (setMember key item members))
  | .null => .ok (.object [(key, item)])
  | other => .error ("[json.exception.type_error.305] cannot use operator[] with a string " ++
      "argument with " ++ other.typeName)

/-- `erase`, of an object. -/
def erase (key : String) : Json → Json
  | .object members => .object (members.filter fun m => m.1 ≠ key)
  | other => other

/-- What a `for` over the value goes through: a value that holds no others is the only one. -/
def items : Json → List Json
  | .null => []
  | .array items => items
  | .object members => members.map Prod.snd
  | other => [other]

mutual

/-- Every string in the value is UTF-8. -/
def isUtf8 : Json → Bool
  | .string s => s.validateUTF8
  | .array items => itemsUtf8 items
  | .object members => membersUtf8 members
  | _ => true

def itemsUtf8 : List Json → Bool
  | [] => true
  | item :: items => item.isUtf8 && itemsUtf8 items

def membersUtf8 : List (String × Json) → Bool
  | [] => true
  | (_, item) :: members => item.isUtf8 && membersUtf8 members

end

theorem itemsUtf8_iff {items : List Json} :
    itemsUtf8 items = true ↔ ∀ item ∈ items, item.isUtf8 = true := by
  induction items with
  | nil => simp [itemsUtf8]
  | cons item items ih => simp [itemsUtf8, ih]

theorem membersUtf8_iff {members : List (String × Json)} :
    membersUtf8 members = true ↔ ∀ m ∈ members, m.2.isUtf8 = true := by
  induction members with
  | nil => simp [membersUtf8]
  | cons m members ih => simp [membersUtf8, ih]

@[simp] theorem isUtf8_string {s : ByteArray} :
    (Json.string s).isUtf8 = true ↔ s.IsValidUTF8 := by
  rw [isUtf8, ByteArray.validateUTF8_eq_true_iff]

@[simp] theorem isUtf8_null : Json.null.isUtf8 = true := rfl

@[simp] theorem isUtf8_boolean (b : Bool) : (Json.boolean b).isUtf8 = true := rfl

@[simp] theorem isUtf8_integer (n : ℤ) : (Json.integer n).isUtf8 = true := rfl

@[simp] theorem isUtf8_text (s : String) : (text s).isUtf8 = true := by
  rw [text, isUtf8_string]
  exact s.isValidUTF8

@[simp] theorem isUtf8_array {items : List Json} :
    (Json.array items).isUtf8 = true ↔ ∀ item ∈ items, item.isUtf8 = true := by
  rw [isUtf8, itemsUtf8_iff]

@[simp] theorem isUtf8_object {members : List (String × Json)} :
    (Json.object members).isUtf8 = true ↔ ∀ m ∈ members, m.2.isUtf8 = true := by
  rw [isUtf8, membersUtf8_iff]

/-- What is found in a value is a part of it. -/
theorem isUtf8_of_find {key : String} {j j' : Json} (h : j.isUtf8 = true)
    (hfind : j.find key = some j') : j'.isUtf8 = true := by
  cases j with
  | object members =>
    obtain ⟨before, after, rfl, -⟩ := List.lookup_eq_some_iff.1 hfind
    exact isUtf8_object.1 h (key, j') (List.mem_append_right _ (List.mem_cons_self ..))
  | _ => cases hfind

/-- What `value` gives for a member that is absent or a string, and for any other. -/
theorem value_cases (key fallback : String) {j : Json} (hobject : j.isObject = true) :
    (∃ other, j.find key = some other ∧ other.isString = false ∧
      ∃ what, j.value key fallback = .error what) ∨
    (∀ other, j.find key = some other → other.isString = true) ∧
      ∃ s, j.value key fallback = .ok s ∧ (j.isUtf8 = true → s.IsValidUTF8) := by
  cases j with
  | object members =>
    cases hfind : (Json.object members).find key with
    | none =>
      refine Or.inr ⟨fun other h => (by cases h), fallback.toByteArray, ?_, fun _ => ?_⟩
      · have hlookup : members.lookup key = none := hfind
        simp only [value, hlookup]
      · exact fallback.isValidUTF8
    | some found =>
      have hlookup : members.lookup key = some found := hfind
      cases found with
      | string s =>
        refine Or.inr ⟨?_, s, ?_, fun h => isUtf8_string.1 (isUtf8_of_find h hfind)⟩
        · rintro other ⟨⟩
          rfl
        · simp only [value, hlookup]
      | _ => exact Or.inl ⟨_, rfl, rfl, _, by simp only [value, hlookup]; rfl⟩
  | _ => cases hobject

end Json

/-- Text of the program's own in front of some bytes does not matter. -/
theorem isValidUTF8_append_iff (s : String) (b : ByteArray) :
    (s.toByteArray ++ b).IsValidUTF8 ↔ b.IsValidUTF8 := by
  have hlist : ∀ l : List Char, (l.utf8Encode ++ b).IsValidUTF8 ↔ b.IsValidUTF8 := by
    intro l
    induction l with
    | nil => simp
    | cons c l ih =>
      rw [List.utf8Encode_cons, ByteArray.append_assoc,
        ByteArray.isValidUTF8_utf8Encode_singleton_append_iff, ih]
  obtain ⟨l, hl⟩ := s.isValidUTF8
  rw [hl]
  exact hlist l

/-- What a parser throws. -/
inductive ParseFailure where
  | parseError (what : ByteArray)
  /-- A number is too large for a `double`. -/
  | outOfRange (what : ByteArray)

def ParseFailure.what : ParseFailure → ByteArray
  | .parseError what => what
  | .outOfRange what => what

/-- A parser, and a serializer that throws its message. -/
structure JsonLibrary where
  parse : ByteArray → Except ParseFailure Json
  dump : Json → Except String ByteArray

structure JsonLibrary.Lawful (lib : JsonLibrary) : Prop where
  isUtf8_of_parse : ∀ line j, lib.parse line = .ok j → j.isUtf8 = true
  dump_ok_iff : ∀ j, (∃ text, lib.dump j = .ok text) ↔ j.isUtf8 = true

/-- The values that come from a text: what was parsed, its members, and `{}`. -/
inductive JsonLibrary.Read (lib : JsonLibrary) : Json → Prop where
  | parsed {line : ByteArray} {j : Json} (h : lib.parse line = .ok j) : Read lib j
  | member {key : String} {j j' : Json} (h : Read lib j) (hfind : j.find key = some j') :
      Read lib j'
  | object : Read lib (.object [])

/-- `parse` reads what `dump` has written of such values, and no empty text. -/
structure JsonLibrary.ReadsBack (lib : JsonLibrary) : Prop where
  parse_dump : ∀ j written, lib.Read j → lib.dump j = .ok written → lib.parse written = .ok j
  parse_ne_empty : ∀ line j, lib.parse line = .ok j → line.isEmpty = false

/-- The part of a library that reads one line and writes one value, as `written`. -/
def JsonLibrary.only (line : ByteArray) (request : Json) (written : ByteArray) : JsonLibrary where
  parse b :=
    if b.data = line.data then .ok request else .error (.parseError "syntax error".toByteArray)
  dump j := if j.isUtf8 then .ok written else .error "[json.exception.type_error.316]"

@[simp] theorem JsonLibrary.parse_only (line written : ByteArray) (request : Json) :
    (JsonLibrary.only line request written).parse line = .ok request := if_pos rfl

theorem JsonLibrary.dump_only (line written : ByteArray) (request : Json) {j : Json}
    (h : j.isUtf8 = true) : (JsonLibrary.only line request written).dump j = .ok written :=
  if_pos h

theorem JsonLibrary.lawful_only {line written : ByteArray} {request : Json}
    (h : request.isUtf8 = true) : (JsonLibrary.only line request written).Lawful where
  isUtf8_of_parse := by
    intro b j hj
    simp only [only] at hj
    split_ifs at hj
    obtain rfl := Except.ok.inj hj
    exact h
  dump_ok_iff := by
    intro j
    simp only [only]
    constructor
    · rintro ⟨text, htext⟩
      split_ifs at htext with hutf8
      exact hutf8
    · intro hutf8
      exact ⟨written, if_pos hutf8⟩

end MiniRpc
