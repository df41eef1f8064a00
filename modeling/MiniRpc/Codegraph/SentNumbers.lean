/-
# The numbers that a client sends

A limit or a depth is read by the `OptionalInt` of one of the three backends, and goes from
there into a query.  `sent_numbers` says which numbers are read as they were sent, in each
backend: those that no other number of the range is taken for.  A call that was sent only
such numbers does what it does if `OptionalInt` looks at the number before the cast.

The native backend is taken without its cache.
-/

import MiniRpc.Codegraph.EmptyBackend
import MiniRpc.Codegraph.NativeBackend
import MiniRpc.Codegraph.SqliteBackend

namespace MiniRpc
namespace Codegraph

variable {readInt readInt' : IntReader} {method : String} {args : RequestArgs}

/-- The two read the same numbers in the arguments of a call. -/
def SameNumbers (readInt readInt' : IntReader) (method : String) (args : RequestArgs)
    (fields : List IntField) : Prop :=
  ∀ field ∈ fields, readInt args.json method field = readInt' args.json method field

/-! ### The numbers of each method -/

/-- What `EmptyCodeGraphBackend` reads. -/
def EmptyBackend.fields : String → List IntField
  | "Search" => [searchLimit]
  | "Context" => [contextLimit]
  | "Callers" | "Callees" => [maxDepth 3]
  | "Impact" => [maxDepth 5]
  | _ => []

/-- What `SQLiteCodeGraphBackend` reads. -/
def SqliteBackend.fields : String → List IntField
  | "Files" => [filesLimit]
  | "Search" => [searchLimit]
  | "Callers" | "Callees" | "Context" => [maxDepth 3, traversalLimit]
  | "Impact" => [maxDepth 5, traversalLimit]
  | _ => []

/-- What `CodeGraphNativeBackend` reads. -/
def NativeBackend.fields : String → List IntField
  | "Files" => [filesLimit]
  | "Search" => [searchLimit]
  | "Context" => [contextLimit, maxDepth 3]
  | "Callers" | "Callees" => [maxDepth 3]
  | "Impact" => [maxDepth 5]
  | _ => []

/-! ### A call depends on the numbers that it reads -/

theorem EmptyBackend.traverseFrom_congr {defaultDepth : Int32}
    (h : SameNumbers readInt readInt' method args [maxDepth defaultDepth]) :
    traverseFrom readInt method defaultDepth args =
      traverseFrom readInt' method defaultDepth args := by
  rw [traverseFrom, traverseFrom, h _ (by simp)]

theorem EmptyBackend.invoke_congr (h : SameNumbers readInt readInt' method args (fields method)) :
    invoke readInt method args = invoke readInt' method args := by
  unfold invoke
  split_ifs with hstatus hsearch hcontext hcallers hcallees himpact hnode hfiles
  · rfl
  · subst hsearch
    rw [search, search, h _ (by simp [fields])]
  · subst hcontext
    rw [context, context, h _ (by simp [fields])]
  · subst hcallers
    exact traverseFrom_congr h
  · subst hcallees
    exact traverseFrom_congr h
  · subst himpact
    exact traverseFrom_congr h
  · rfl
  · rfl
  · rfl

theorem SqliteBackend.traverseFrom_congr {defaultDepth : Int32}
    {answer : NodeRow → Int32 → Int32 → Json} {db : CodeGraphDb}
    (h : SameNumbers readInt readInt' method args [maxDepth defaultDepth, traversalLimit]) :
    traverseFrom readInt method defaultDepth answer db args =
      traverseFrom readInt' method defaultDepth answer db args := by
  rw [traverseFrom, traverseFrom, h (maxDepth defaultDepth) (by simp),
    h traversalLimit (by simp)]

theorem SqliteBackend.invoke_congr {b : SqliteBackend}
    (h : SameNumbers readInt readInt' method args (fields method)) :
    b.invoke readInt method args = b.invoke readInt' method args := by
  unfold invoke
  refine congrArg (b.openReadOnly >>= ·) (funext fun db => ?_)
  split_ifs with hstatus hfiles hsearch hnode hcallers hcallees himpact hcontext
  · rfl
  · subst hfiles
    rw [files, files, h _ (by simp [fields])]
  · subst hsearch
    rw [search, search, h _ (by simp [fields])]
  · rfl
  · subst hcallers
    exact traverseFrom_congr h
  · subst hcallees
    exact traverseFrom_congr h
  · subst himpact
    exact traverseFrom_congr h
  · subst hcontext
    exact traverseFrom_congr h
  · rfl

theorem NativeBackend.traverseFrom_congr {defaultDepth : Int32}
    {query : String → Int32 → Except String Json}
    (h : SameNumbers readInt readInt' method args [maxDepth defaultDepth]) :
    traverseFrom readInt method defaultDepth query args =
      traverseFrom readInt' method defaultDepth query args := by
  rw [traverseFrom, traverseFrom, h _ (by simp)]

theorem NativeBackend.query_congr {b : NativeBackend}
    (h : SameNumbers readInt readInt' method args (fields method)) :
    b.query readInt method args = b.query readInt' method args := by
  unfold query
  refine congrArg (throwing b.cpp.openDatabase >>= ·) (funext fun _ => ?_)
  split_ifs with hsearch hnode hcontext hcallers hcallees himpact
  · subst hsearch
    rw [search, search, h _ (by simp [fields])]
  · rfl
  · subst hcontext
    rw [context, context, h contextLimit (by simp [fields]), h (maxDepth 3) (by simp [fields])]
  · subst hcallers
    exact traverseFrom_congr h
  · subst hcallees
    exact traverseFrom_congr h
  · subst himpact
    exact traverseFrom_congr h
  · rfl

theorem NativeBackend.invokeUncached_congr {b : NativeBackend}
    (h : SameNumbers readInt readInt' method args (fields method)) :
    b.invokeUncached readInt method args = b.invokeUncached readInt' method args := by
  unfold invokeUncached
  split_ifs with hstatus hfiles
  · rfl
  · subst hfiles
    rw [files, files, h _ (by simp [fields])]
  · exact query_congr h

/-! ### The backends -/

/-- `CodeGraphBackend`, of which there are three. -/
inductive CodeGraphBackend where
  | empty
  | sqlite (b : SqliteBackend)
  | native (b : NativeBackend)

namespace CodeGraphBackend

/-- The `OptionalInt` of the file of the backend. -/
def optionalInt : CodeGraphBackend → IntReader
  | .empty => EmptyBackend.optionalInt
  | .sqlite _ => SqliteBackend.optionalInt
  | .native _ => NativeBackend.optionalInt

/-- `Invoke`. -/
def invoke (readInt : IntReader) :
    CodeGraphBackend → String → RequestArgs → Except Failure Json
  | .empty => EmptyBackend.invoke readInt
  | .sqlite b => b.invoke readInt
  | .native b => b.invokeUncached readInt

/-- The numbers that a method reads. -/
def fields : CodeGraphBackend → String → List IntField
  | .empty => EmptyBackend.fields
  | .sqlite _ => SqliteBackend.fields
  | .native _ => NativeBackend.fields

theorem optionalInt_eq (backend : CodeGraphBackend) :
    backend.optionalInt = Codegraph.optionalInt := by
  cases backend <;> rfl

theorem invoke_congr {backend : CodeGraphBackend}
    (h : SameNumbers readInt readInt' method args (backend.fields method)) :
    backend.invoke readInt method args = backend.invoke readInt' method args := by
  cases backend with
  | empty => exact EmptyBackend.invoke_congr h
  | sqlite b => exact SqliteBackend.invoke_congr h
  | native b => exact NativeBackend.invokeUncached_congr h

/-- **Which numbers are read as they were sent**: those that no other number of the range
differs from by a multiple of `2^32`.  A call that was sent no others gives what it gives if
each number is compared with its range before the cast. -/
theorem sent_numbers (backend : CodeGraphBackend) (method : String) (args : RequestArgs) :
    (∀ (field : IntField) (n : ℤ), args.json.find field.key = some (.integer n) →
      (ReadsAsSent (backend.optionalInt args.json method field) field n ↔ field.NoAlias n)) ∧
    ((∀ field ∈ backend.fields method, ∀ n, args.json.find field.key = some (.integer n) →
        field.NoAlias n) →
      backend.invoke backend.optionalInt method args = backend.invoke exactInt method args) := by
  rw [optionalInt_eq]
  constructor
  · intro field n hsent
    exact readsAsSent_optionalInt_iff hsent
  · intro h
    refine invoke_congr fun field hfield => ?_
    exact optionalInt_eq_exactInt (h field hfield)

/-- The arguments `{"query": "x", "limit": n}`. -/
def searchArgs (n : ℤ) : RequestArgs where
  json := .object [("query", .text "x"), ("limit", .integer n)]
  isUtf8 := Json.isUtf8_object.2 (by simp)

/-- A limit of 20 is read as it was sent. -/
theorem sent_numbers_twenty :
    ReadsAsSent (empty.optionalInt (searchArgs 20).json "Search" EmptyBackend.searchLimit)
      EmptyBackend.searchLimit 20 ∧
    empty.invoke empty.optionalInt "Search" (searchArgs 20) =
      empty.invoke exactInt "Search" (searchArgs 20) := by
  have hfield : ∀ n, (searchArgs 20).json.find "limit" = some (.integer n) →
      EmptyBackend.searchLimit.NoAlias n := by
    intro n hn
    obtain rfl : (20 : ℤ) = n := Json.integer.inj (Option.some.inj hn)
    exact IntField.noAlias_of_mem (by decide) (by decide)
  have h := sent_numbers empty "Search" (searchArgs 20)
  constructor
  · exact (h.1 EmptyBackend.searchLimit 20 rfl).2 (hfield 20 rfl)
  · refine h.2 fun field hmem => ?_
    rw [List.mem_singleton.1 hmem]
    exact hfield

/-- In no backend is a limit of `2^32 + 1` read as it was sent. -/
theorem limit_read_as_one :
    ¬ ∃ backend : CodeGraphBackend, ∀ (args : RequestArgs) (method : String)
      (field : IntField) (n : ℤ), -2 ^ 63 ≤ n → n < 2 ^ 64 →
        args.json.find field.key = some (.integer n) →
          ReadsAsSent (backend.optionalInt args.json method field) field n := by
  rintro ⟨backend, h⟩
  have hsent := h (searchArgs 4294967297) "Search" EmptyBackend.searchLimit 4294967297
    (by decide) (by decide) rfl
  have hread : backend.optionalInt (searchArgs 4294967297).json "Search"
      EmptyBackend.searchLimit = .ok 1 := by
    rw [optionalInt_eq]
    rfl
  exact absurd (hsent.sent 1 hread) (by decide)

end CodeGraphBackend
end Codegraph
end MiniRpc
