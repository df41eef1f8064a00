/-
# The cache of the native backend

`CodeGraphNativeBackend::Invoke` (`MiniRpc.Codegraph.NativeBackend`) answers from a cache
of earlier results, without a look at the arguments and without a query.  The entries are
found by a string, the method and a colon and the dumped arguments, they expire, and half
of them goes when there are too many.

Of the JSON library it is assumed that `dump` writes JSON texts, and different ones for
different arguments of requests (`DumpsArguments`).  `invoked` says once what a call can do.
From it, every entry is the result of an earlier call whose key it has (`Sound`), and two
calls have one key only if they are the same call; so no call can tell whether there is a
cache (`cache_transparent`).
-/

import MiniRpc.Codegraph.NativeBackend
import MiniRpc.Library.JsonText
import MiniRpc.Library.Transition

namespace MiniRpc
namespace Codegraph

open Json (text)
open Transition

/-- `ParsePayload` returns these arguments for some request. -/
def Parsed (lib : JsonLibrary) (args : Json) : Prop :=
  ∃ method payload, parsePayload lib method payload = .ok args

/-- What is assumed of `dump`. -/
structure DumpsArguments (lib : JsonLibrary) : Prop where
  jsonText : ∀ j dumped, lib.dump j = .ok dumped → JsonText dumped.data.toList
  injective : ∀ j j' dumped, Parsed lib j → Parsed lib j' →
    lib.dump j = .ok dumped → lib.dump j' = .ok dumped → j = j'

namespace NativeBackend

variable {b : NativeBackend} {cache cache' : Cache} {call : Invocation} {before : List Invocation}

/-! ### Keys -/

/-- The methods that have results in the cache. -/
def cachedMethods : List String := ["Search", "Node", "Context", "Callers", "Callees", "Impact"]

/-- A query that succeeds is of one of these methods. -/
theorem method_of_query {method : String} {args : RequestArgs} {result : Json}
    (h : b.query optionalInt method args = .ok result) : method ∈ cachedMethods := by
  unfold query at h
  cases hopen : b.cpp.openDatabase with
  | error what =>
    rw [hopen] at h
    cases h
  | ok u =>
    rw [hopen] at h
    change (if method = "Search" then _ else _) = Except.ok result at h
    split_ifs at h with h₁ h₂ h₃ h₄ h₅ h₆
    · simp [cachedMethods, h₁]
    · simp [cachedMethods, h₂]
    · simp [cachedMethods, h₃]
    · simp [cachedMethods, h₄]
    · simp [cachedMethods, h₅]
    · simp [cachedMethods, h₆]

/-- None of their names has a colon. -/
theorem colon_notMem {method : String} (h : method ∈ cachedMethods) :
    Ascii.colon ∉ method.toByteArray.data.toList := by
  simp only [cachedMethods, List.mem_cons, List.not_mem_nil, or_false] at h
  rcases h with rfl | rfl | rfl | rfl | rfl | rfl <;> decide

/-- What a key is made of. -/
theorem makeCacheKey_eq_ok {lib : JsonLibrary} {method : String} {args : Json} {key : Bytes}
    (h : makeCacheKey lib method args = .ok key) :
    ∃ dumped, lib.dump args = .ok dumped ∧
      key = method.toByteArray.data.toList ++ Ascii.colon :: dumped.data.toList := by
  unfold makeCacheKey at h
  cases hdump : lib.dump args with
  | error what =>
    rw [hdump] at h
    cases h
  | ok dumped =>
    rw [hdump] at h
    have hcolon : ":".toByteArray.data.toList = [Ascii.colon] := by decide
    refine ⟨dumped, rfl, (Except.ok.inj h).symm.trans ?_⟩
    show (method ++ ":").toByteArray.data.toList ++ dumped.data.toList = _
    rw [String.toByteArray_append, ByteArray.data_append, Array.toList_append, hcolon,
      List.append_assoc, List.singleton_append]

/-- **A key stands for one call**: whose method has results in the cache, and whose arguments
a request can have. -/
theorem call_of_key (hdump : DumpsArguments b.lib) {method method' : String} {args args' : Json}
    {key : Bytes} (hmethod : method ∈ cachedMethods) (hargs : Parsed b.lib args)
    (hargs' : Parsed b.lib args') (h : makeCacheKey b.lib method args = .ok key)
    (h' : makeCacheKey b.lib method' args' = .ok key) : method = method' ∧ args = args' := by
  obtain ⟨dumped, hok, rfl⟩ := makeCacheKey_eq_ok h
  obtain ⟨dumped', hok', heq⟩ := makeCacheKey_eq_ok h'
  obtain ⟨hname, htext⟩ := JsonText.append_colon_inj (colon_notMem hmethod)
    (hdump.jsonText _ _ hok) (hdump.jsonText _ _ hok') heq
  have hdumped : dumped = dumped' := ByteArray.ext (Array.toList_inj.1 htext)
  constructor
  · exact String.toByteArray_inj.1 (ByteArray.ext (Array.toList_inj.1 hname))
  · exact hdump.injective _ _ dumped hargs hargs' hok (hdumped ▸ hok')

/-- Arguments of a request always have a key. -/
theorem exists_key (hlib : b.lib.Lawful) (call : Invocation) :
    ∃ key, makeCacheKey b.lib call.method call.args.json = .ok key := by
  obtain ⟨dumped, hdumped⟩ := (hlib.dump_ok_iff _).2 call.args.isUtf8
  exact ⟨_, by rw [makeCacheKey, hdumped]; rfl⟩

/-! ### What a call can do -/

/-- `cache'` has some of the entries of `cache`, and no others. -/
structure Thinned (cache cache' : Cache) : Prop where
  entries : ∀ key entry, cache'.lookup key = some entry → cache.lookup key = some entry
  size : cache'.size ≤ cache.size

theorem Thinned.refl (cache : Cache) : Thinned cache cache := ⟨fun _ _ h => h, Nat.le_refl _⟩

/-- What a call can return and leave. -/
inductive Invoked (b : NativeBackend) (cache : Cache) (call : Invocation) :
    Except Failure Json × Cache → Prop
  /-- A method that is not cached. -/
  | passed (hmethod : call.method = "Status" ∨ call.method = "Files") :
      Invoked b cache call (b.invokeUncached optionalInt call.method call.args, cache)
  /-- The arguments cannot be dumped. -/
  | keyless (what : String) (h : makeCacheKey b.lib call.method call.args.json = .error what) :
      Invoked b cache call (.error (.exception what), cache)
  /-- There is an entry that has not expired. -/
  | hit (key : Bytes) (entry : CacheEntry)
      (hcached : call.method ≠ "Status" ∧ call.method ≠ "Files")
      (hkey : makeCacheKey b.lib call.method call.args.json = .ok key)
      (hentry : cache.lookup key = some entry) (hfresh : call.getTime ≤ entry.expiresAt) :
      Invoked b cache call (.ok entry.result, cache)
  /-- There is none, and the query fails. -/
  | failed (failure : Failure) (cache' : Cache)
      (hcached : call.method ≠ "Status" ∧ call.method ≠ "Files")
      (hquery : b.query optionalInt call.method call.args = .error failure)
      (hthinned : Thinned cache cache') :
      Invoked b cache call (.error failure, cache')
  /-- There is none, and the result of the query becomes one. -/
  | stored (key : Bytes) (result : Json) (cache' : Cache)
      (hcached : call.method ≠ "Status" ∧ call.method ≠ "Files")
      (hkey : makeCacheKey b.lib call.method call.args.json = .ok key)
      (hquery : b.query optionalInt call.method call.args = .ok result)
      (hthinned : Thinned cache cache') :
      Invoked b cache call
        (.ok result, cachePut cache' key result call.putTime call.listing)

/-- A look into the cache finds an entry that has not expired, or nothing. -/
theorem cacheGet_cases (cache : Cache) (key : Bytes) (now : Time) :
    (∃ entry, cache.lookup key = some entry ∧ now ≤ entry.expiresAt ∧
      cacheGet cache key now = (some entry.result, cache)) ∨
    ∃ cache', Thinned cache cache' ∧ cacheGet cache key now = (none, cache') := by
  unfold cacheGet
  cases hlookup : cache.lookup key with
  | none => exact Or.inr ⟨cache, .refl cache, rfl⟩
  | some entry =>
    by_cases hold : entry.expiresAt < now
    · refine Or.inr ⟨cache.erase key, ⟨fun _ _ h => Table.lookup_of_erase h, ?_⟩, if_pos hold⟩
      exact Table.size_erase_le cache key
    · exact Or.inl ⟨entry, rfl, Nat.le_of_not_lt hold, if_neg hold⟩

/-- **What a call does.** -/
theorem invoked (b : NativeBackend) (cache : Cache) (call : Invocation) :
    Invoked b cache call (b.invoke cache call) := by
  by_cases hstatus : call.method = "Status"
  · have hinvoke : b.invoke cache call = (b.invokeUncached optionalInt call.method call.args,
        cache) := by
      rw [invoke, invokeUncached, if_pos hstatus, if_pos hstatus]
    exact hinvoke ▸ .passed (Or.inl hstatus)
  by_cases hfiles : call.method = "Files"
  · have hinvoke : b.invoke cache call = (b.invokeUncached optionalInt call.method call.args,
        cache) := by
      rw [invoke, invokeUncached, if_neg hstatus, if_neg hstatus, if_pos hfiles, if_pos hfiles]
    exact hinvoke ▸ .passed (Or.inr hfiles)
  rw [invoke, if_neg hstatus, if_neg hfiles]
  cases hkey : makeCacheKey b.lib call.method call.args.json with
  | error what => exact .keyless what hkey
  | ok key =>
    dsimp only
    rcases cacheGet_cases cache key call.getTime with
      ⟨entry, hentry, hfresh, hget⟩ | ⟨cache', hthinned, hget⟩
    · rw [hget]
      exact .hit key entry ⟨hstatus, hfiles⟩ hkey hentry hfresh
    · rw [hget]
      cases hquery : b.query optionalInt call.method call.args with
      | error failure => exact .failed failure cache' ⟨hstatus, hfiles⟩ hquery hthinned
      | ok result => exact .stored key result cache' ⟨hstatus, hfiles⟩ hkey hquery hthinned

/-! ### What the entries are -/

/-- An earlier call made the entry: it has the key, its query gave the result, and the entry
expires so long after it. -/
def Stored (b : NativeBackend) (before : List Invocation) (key : Bytes) (entry : CacheEntry) :
    Prop :=
  ∃ earlier ∈ before, makeCacheKey b.lib earlier.method earlier.args.json = .ok key ∧
    b.query optionalInt earlier.method earlier.args = .ok entry.result ∧
    entry.expiresAt = earlier.putTime + kCacheTTL

theorem Stored.later {key : Bytes} {entry : CacheEntry} (h : Stored b before key entry)
    (call : Invocation) : Stored b (before ++ [call]) key entry := by
  obtain ⟨earlier, hmem, hstored⟩ := h
  exact ⟨earlier, List.mem_append_left _ hmem, hstored⟩

/-- The invariant of the cache after some calls. -/
structure Sound (b : NativeBackend) (before : List Invocation) (cache : Cache) : Prop where
  entries : ∀ key entry, cache.lookup key = some entry → Stored b before key entry
  size : cache.size ≤ kCacheMaxSize

theorem sound_init (b : NativeBackend) : Sound b [] ∅ where
  entries := fun _ _ h => by cases h
  size := by decide

theorem Sound.thinned (h : Sound b before cache) (hthinned : Thinned cache cache') :
    Sound b (before ++ [call]) cache' where
  entries := fun key entry hentry =>
    (h.entries key entry (hthinned.entries key entry hentry)).later call
  size := hthinned.size.trans h.size

/-- There is room for an entry that is put. -/
theorem size_cachePut_le (hsize : cache.size ≤ kCacheMaxSize) (key : Bytes) (result : Json)
    (now : Time) (listing : Table.Listing Bytes CacheEntry) :
    Table.size (cachePut cache key result now listing) ≤ kCacheMaxSize := by
  unfold cachePut
  refine (Table.size_insert_le _ _ _).trans ?_
  split_ifs with hfull
  · rw [Table.size_eraseFirst]
    unfold kCacheMaxSize at *
    omega
  · omega

/-- What is in the cache after a result was put. -/
theorem lookup_of_cachePut {key key' : Bytes} {result : Json} {now : Time}
    {listing : Table.Listing Bytes CacheEntry} {entry : CacheEntry}
    (h : (cachePut cache key' result now listing).lookup key = some entry) :
    key = key' ∧ entry = ⟨result, now + kCacheTTL⟩ ∨ cache.lookup key = some entry := by
  refine (Table.lookup_of_insert h).imp_right fun h => ?_
  split_ifs at h
  · exact Table.lookup_of_eraseFirst h
  · exact h

/-- **Every call keeps the cache sound.** -/
theorem Sound.invoke (h : Sound b before cache) (call : Invocation) :
    Sound b (before ++ [call]) (b.invoke cache call).2 := by
  have hinvoked := invoked b cache call
  generalize b.invoke cache call = outcome at hinvoked
  cases hinvoked with
  | passed _ => exact h.thinned (.refl cache)
  | keyless _ _ => exact h.thinned (.refl cache)
  | hit _ _ _ _ _ _ => exact h.thinned (.refl cache)
  | failed _ _ _ _ hthinned => exact h.thinned hthinned
  | stored key result cache' _ hkey hquery hthinned =>
    have hcache' : Sound b (before ++ [call]) cache' := h.thinned hthinned
    refine ⟨fun key' entry hentry => ?_, size_cachePut_le hcache'.size ..⟩
    rcases lookup_of_cachePut hentry with ⟨rfl, rfl⟩ | hold
    · exact ⟨call, List.mem_append_right _ (List.mem_singleton_self _), hkey, hquery, rfl⟩
    · exact hcache'.entries key' entry hold

/-- So it is sound after every sequence of calls. -/
theorem sound_exec (h : exec b.step ∅ before = some cache) : Sound b before cache := by
  refine exec_history (I := Sound b) (sound_init b) ?_ before cache h
  rintro before cache call _ hsound ⟨⟩
  exact hsound.invoke call

/-! ### No call can tell -/

/-- What the cache means for a call that finds it in this state, after the calls `before`. -/
structure Transparent (b : NativeBackend) (before : List Invocation) (cache : Cache)
    (call : Invocation) : Prop where
  /-- The call returns or throws what it would without the cache. -/
  same : (b.invoke cache call).1 = b.invokeUncached optionalInt call.method call.args
  /-- If it throws, no entry is added. -/
  failing : ∀ failure, (b.invoke cache call).1 = .error failure →
    ∀ key entry, (b.invoke cache call).2.lookup key = some entry →
      cache.lookup key = some entry
  /-- An entry that it is served was put by an earlier call, and is not older than it may be. -/
  fresh : ∀ key result, makeCacheKey b.lib call.method call.args.json = .ok key →
    (cacheGet cache key call.getTime).1 = some result →
      ∃ entry, cache.lookup key = some entry ∧ entry.result = result ∧
        ∃ earlier ∈ before, entry.expiresAt = earlier.putTime + kCacheTTL ∧
          call.getTime ≤ earlier.putTime + kCacheTTL
  /-- The cache that it leaves is not too large. -/
  size : Table.size (b.invoke cache call).2 ≤ kCacheMaxSize

theorem Sound.same (h : Sound b before cache) (hlib : b.lib.Lawful) (hdump : DumpsArguments b.lib)
    (hbefore : ∀ earlier ∈ before, Parsed b.lib earlier.args.json)
    (hcall : Parsed b.lib call.args.json) :
    (b.invoke cache call).1 = b.invokeUncached optionalInt call.method call.args := by
  have huncached : call.method ≠ "Status" ∧ call.method ≠ "Files" →
      b.invokeUncached optionalInt call.method call.args =
        b.query optionalInt call.method call.args := by
    rintro ⟨hstatus, hfiles⟩
    rw [invokeUncached, if_neg hstatus, if_neg hfiles]
  have hinvoked := invoked b cache call
  generalize b.invoke cache call = outcome at hinvoked
  cases hinvoked with
  | passed _ => rfl
  | keyless what hkey =>
    obtain ⟨key, hok⟩ := exists_key hlib call
    cases hok.symm.trans hkey
  | hit key entry hcached hkey hentry _ =>
    -- the call that made the entry is this call
    obtain ⟨earlier, hmem, hkey', hquery, -⟩ := h.entries key entry hentry
    obtain ⟨hmethod, hargs⟩ := call_of_key hdump (method_of_query hquery) (hbefore earlier hmem)
      hcall hkey' hkey
    have hargs' : earlier.args = call.args := by
      cases hearlier : earlier.args
      cases hthis : call.args
      rw [hearlier, hthis] at hargs
      subst hargs
      rfl
    rw [huncached hcached, ← hmethod, ← hargs', hquery]
  | failed failure _ hcached hquery _ => rw [huncached hcached, hquery]
  | stored _ result _ hcached _ hquery _ => rw [huncached hcached, hquery]

theorem invoke_failing {failure : Failure} (h : (b.invoke cache call).1 = .error failure) :
    Thinned cache (b.invoke cache call).2 := by
  have hinvoked := invoked b cache call
  generalize b.invoke cache call = outcome at h hinvoked
  cases hinvoked with
  | passed _ => exact .refl cache
  | keyless _ _ => exact .refl cache
  | hit _ _ _ _ _ _ => exact .refl cache
  | failed _ _ _ _ hthinned => exact hthinned
  | stored _ _ _ _ _ _ _ => cases h

theorem Sound.fresh (h : Sound b before cache) {key : Bytes} {result : Json} {now : Time}
    (hget : (cacheGet cache key now).1 = some result) :
    ∃ entry, cache.lookup key = some entry ∧ entry.result = result ∧
      ∃ earlier ∈ before, entry.expiresAt = earlier.putTime + kCacheTTL ∧
        now ≤ earlier.putTime + kCacheTTL := by
  rcases cacheGet_cases cache key now with ⟨entry, hentry, hfresh, hfound⟩ | ⟨_, _, hnone⟩
  · rw [hfound] at hget
    obtain ⟨earlier, hmem, -, -, hexpires⟩ := h.entries key entry hentry
    exact ⟨entry, hentry, Option.some.inj hget, earlier, hmem, hexpires, hexpires ▸ hfresh⟩
  · rw [hnone] at hget
    cases hget

/-- **The cache cannot be seen.**  In every sequence of calls with arguments that requests can
have, at any times and in whatever order the map is walked when entries go, each call returns or
throws what it would without the cache; a call that throws adds no entry; no entry is served that
is older than its time; and there are never more entries than there may be. -/
theorem cache_transparent (hlib : b.lib.Lawful) (hdump : DumpsArguments b.lib)
    {calls : List Invocation} (hcalls : ∀ call ∈ calls, Parsed b.lib call.args.json) :
    ∀ before call after, calls = before ++ call :: after →
      ∃ cache, exec b.step ∅ before = some cache ∧ Transparent b before cache call := by
  rintro before call after rfl
  have hrun : ∀ (es : List Invocation) (cache : Cache),
      ∃ cache', exec b.step cache es = some cache' := by
    intro es
    induction es with
    | nil => exact fun cache => ⟨cache, rfl⟩
    | cons e es ih => exact fun cache => ih (b.invoke cache e).2
  obtain ⟨cache, hcache⟩ := hrun before ∅
  have hsound := sound_exec hcache
  have hbefore : ∀ earlier ∈ before, Parsed b.lib earlier.args.json :=
    fun earlier hmem => hcalls earlier (List.mem_append_left _ hmem)
  have hcall : Parsed b.lib call.args.json :=
    hcalls call (List.mem_append_right _ List.mem_cons_self)
  refine ⟨cache, hcache, hsound.same hlib hdump hbefore hcall, ?_, ?_, (hsound.invoke call).size⟩
  · intro failure hfailure
    exact (invoke_failing hfailure).entries
  · intro key result _ hget
    exact hsound.fresh hget

/-! ### A request that is made twice -/

/-- The arguments of a search. -/
def sampleArgs : RequestArgs := ⟨.object [("query", text "a")], by decide⟩

def sampleLine : ByteArray := "\x7b\"query\":\"a\"\x7d".toByteArray

/-- The line of them, and of no arguments. -/
def sampleDump : Json → ByteArray
  | .object [] => "\x7b\x7d".toByteArray
  | _ => sampleLine

/-- The part of a library that reads and writes them. -/
def sampleLibrary : JsonLibrary where
  parse line :=
    if line.data = sampleLine.data then .ok sampleArgs.json
    else .error (.parseError "syntax error".toByteArray)
  dump j := if j.isUtf8 then .ok (sampleDump j) else .error "[json.exception.type_error.316]"

theorem sampleLibrary_lawful : sampleLibrary.Lawful where
  isUtf8_of_parse := by
    intro line j h
    simp only [sampleLibrary] at h
    split_ifs at h
    exact Except.ok.inj h ▸ sampleArgs.isUtf8
  dump_ok_iff := by
    intro j
    simp only [sampleLibrary]
    split_ifs with h
    · exact ⟨fun _ => h, fun _ => ⟨_, rfl⟩⟩
    · constructor
      · rintro ⟨_, hdumped⟩
        cases hdumped
      · intro hutf8
        exact absurd hutf8 h

/-- Nothing else can be the arguments of a request. -/
theorem parsed_sampleLibrary {args : Json} (h : Parsed sampleLibrary args) :
    args = .object [] ∨ args = sampleArgs.json := by
  obtain ⟨method, payload, hpayload⟩ := h
  unfold parsePayload at hpayload
  split_ifs at hpayload
  · exact Or.inl (Except.ok.inj hpayload).symm
  · by_cases hline : payload.data = sampleLine.data
    · have hparse : sampleLibrary.parse payload = .ok sampleArgs.json := if_pos hline
      rw [hparse] at hpayload
      exact Or.inr (Except.ok.inj hpayload).symm
    · have hparse : sampleLibrary.parse payload =
          .error (.parseError "syntax error".toByteArray) := if_neg hline
      rw [hparse] at hpayload
      cases hpayload

theorem jsonText_sampleDump (j : Json) : JsonText (sampleDump j).data.toList := by
  unfold sampleDump
  split
  · exact @JsonText.object [] (by simp) (by simp)
  · have hbody : ∀ body : List UInt8, Ascii.quote ∉ body → Ascii.backslash ∉ body →
        StringBody body := by
      intro body
      induction body with
      | nil => exact fun _ _ => .nil
      | cons b body ih =>
        intro hquote hbackslash
        rw [List.mem_cons, not_or] at hquote hbackslash
        exact .plain (Ne.symm hquote.1) (Ne.symm hbackslash.1) (ih hquote.2 hbackslash.2)
    have hobject := @JsonText.object
      [("query".toByteArray.data.toList, quoted "a".toByteArray.data.toList)]
      (by simpa using hbody _ (by decide) (by decide))
      (by simpa using JsonText.string (hbody _ (by decide) (by decide)))
    exact hobject

theorem sampleLibrary_dumps : DumpsArguments sampleLibrary where
  jsonText := by
    intro j dumped h
    simp only [sampleLibrary] at h
    split_ifs at h
    exact Except.ok.inj h ▸ jsonText_sampleDump j
  injective := by
    intro j j' dumped hj hj' h h'
    simp only [sampleLibrary] at h h'
    split_ifs at h h'
    have heq : sampleDump j = sampleDump j' := Except.ok.inj (h.trans h'.symm)
    have hne : sampleDump (.object []) ≠ sampleDump sampleArgs.json := by decide
    rcases parsed_sampleLibrary hj with rfl | rfl <;>
      rcases parsed_sampleLibrary hj' with rfl | rfl
    · rfl
    · exact absurd heq hne
    · exact absurd heq.symm hne
    · rfl

/-- A backend whose database has no symbols. -/
def sampleBackend : NativeBackend where
  lib := sampleLibrary
  cpp := {
    openDatabase := .ok ()
    getStatus := .ok (.object [])
    getAllFiles := .ok []
    searchSymbols := fun _ _ => .ok (.array [])
    buildContext := fun _ _ _ => .ok (.object [])
    getCallers := fun _ _ => .ok (.object [])
    getCallees := fun _ _ => .ok (.object [])
    getImpact := fun _ _ => .ok (.object []) }
  dbPath := "codegraph.db"

/-- A search at this time. -/
def sampleSearch (now : Time) : Invocation where
  method := "Search"
  args := sampleArgs
  getTime := now
  putTime := now

theorem cache_transparent_again :
    ∃ cache, exec sampleBackend.step ∅ [sampleSearch 0] = some cache ∧
      Transparent sampleBackend [sampleSearch 0] cache (sampleSearch 5) := by
  have hparsed : Parsed sampleLibrary sampleArgs.json := by
    refine ⟨"Search", sampleLine, ?_⟩
    have hparse : sampleLibrary.parse sampleLine = .ok sampleArgs.json := by
      simp [sampleLibrary]
    rw [parsePayload, if_neg (by decide), hparse]
    rfl
  refine @cache_transparent sampleBackend sampleLibrary_lawful sampleLibrary_dumps
    [sampleSearch 0, sampleSearch 5] ?_ [sampleSearch 0] (sampleSearch 5) [] rfl
  simp [sampleSearch, sampleBackend, hparsed]

end NativeBackend
end Codegraph
end MiniRpc
