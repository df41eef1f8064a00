/-
# What a search returns

`SearchNodes` and `FindNodes` (`MiniRpc.Codegraph.SqliteBackend`) put the string of the
request between two `%` and bind it as a pattern of `LIKE`.  That is a search for the
string as long as nothing in it has a meaning there: `%` and `_` are wildcards, and a `NUL`
ends the pattern, so that what follows it does not count.

`matches_contain_iff` says that every node that is returned has the string in its name, in
every database, if and only if there is none of the three in the string.
-/

import Mathlib.Data.List.TakeWhile
import MiniRpc.Codegraph.SqliteBackend

namespace MiniRpc
namespace Codegraph

open LikePattern

/-- The string is in the name or the qualified name, up to the case of ASCII letters. -/
def NodeRow.Contains (s : String) (node : NodeRow) : Prop :=
  fold s.toList <:+: fold node.name.toList ∨ fold s.toList <:+: fold node.qualifiedName.toList

/-- Nothing in the string has a meaning in a pattern, or ends it. -/
def Literal (s : String) : Prop := Plain s.toList ∧ nul ∉ s.toList

instance (s : String) : Decidable (Literal s) := inferInstanceAs (Decidable (_ ∧ _))

variable {s : String} {limit : ℕ} {r : NodeRecord} {schema : SchemaFlavor}

/-! ### The pattern -/

theorem toList_cString (s : String) : (cString s).toList = s.toList.takeWhile (· ≠ nul) :=
  String.toList_ofList

theorem cString_of_notMem (h : nul ∉ s.toList) : cString s = s := by
  rw [← String.toList_inj, toList_cString, List.takeWhile_eq_self_iff]
  intro c hc
  exact decide_eq_true fun hnul => h (hnul ▸ hc)

/-- The pattern as it is bound. -/
def boundPattern (s : String) : String := cString ("%" ++ s ++ "%")

theorem toList_pattern (s : String) :
    ("%" ++ s ++ "%").toList = anyRun :: (s.toList ++ [anyRun]) := by
  rw [String.toList_append, String.toList_append]
  rfl

theorem toList_boundPattern (h : nul ∉ s.toList) :
    (boundPattern s).toList = anyRun :: (s.toList ++ [anyRun]) := by
  rw [boundPattern, cString_of_notMem, toList_pattern]
  rw [toList_pattern, List.mem_cons, List.mem_append, List.mem_singleton]
  rintro (hnul | hnul | hnul)
  · exact absurd hnul (by decide)
  · exact h hnul
  · exact absurd hnul (by decide)

/-- Nothing is cut off a string only where there is no `NUL`. -/
theorem notMem_of_length_le (h : s.toList.length ≤ (s.toList.takeWhile (· ≠ nul)).length) :
    nul ∉ s.toList := by
  have hself := (List.takeWhile_sublist (p := (· ≠ nul)) (l := s.toList)).eq_of_length_le h
  intro hnul
  exact absurd rfl (of_decide_eq_true (List.takeWhile_eq_self_iff.1 hself nul hnul))

/-- It ends at a `NUL` in the string. -/
theorem toList_boundPattern_of_mem (h : nul ∈ s.toList) :
    (boundPattern s).toList = anyRun :: s.toList.takeWhile (· ≠ nul) := by
  have hcut : (s.toList.takeWhile (· ≠ nul)).length ≠ s.toList.length :=
    fun hlen => notMem_of_length_le hlen.ge h
  rw [boundPattern, toList_cString, toList_pattern, List.takeWhile_cons_of_pos (by decide),
    List.takeWhile_append, if_neg hcut]

/-- **What a literal string matches**: the texts that it is in. -/
theorem sqlLike_boundPattern (h : Literal s) {value : String} :
    sqlLike value (boundPattern s) = true ↔ fold s.toList <:+: fold (cString value).toList := by
  rw [sqlLike, toList_boundPattern h.2]
  exact like_between h.1

/-- A text ends where it does in lower case. -/
theorem toList_cString_sqlLower (value : String) :
    (cString (sqlLower value)).toList = fold (cString value).toList := by
  have hnul : ((· ≠ nul) : Char → Bool) ∘ Char.toLower = (· ≠ nul) := by
    funext c
    exact decide_eq_decide.2 (toLower_eq_iff (by decide)).not
  rw [toList_cString, toList_cString, sqlLower, String.toList_ofList, fold, List.takeWhile_map,
    hnul]
  rfl

theorem sqlLike_sqlLower {value pattern : String} :
    sqlLike (sqlLower value) (sqlLower pattern) = sqlLike value pattern := by
  rw [sqlLike, sqlLike, toList_cString_sqlLower, sqlLower, String.toList_ofList,
    Bool.eq_iff_iff]
  exact like_fold

/-! ### The row that matches, and does not have the string -/

/-- A text that the string stands for as a pattern. -/
def sampleOf (s : String) : String := .ofList (sample (s.toList.takeWhile (· ≠ nul)))

/-- Nothing in a sample ends it. -/
theorem cString_sampleOf (s : String) : cString (sampleOf s) = sampleOf s := by
  refine cString_of_notMem ?_
  rw [sampleOf, String.toList_ofList]
  intro h
  rcases mem_of_mem_sample h with h | h
  · exact absurd h (by decide)
  · have hnul := List.mem_takeWhile_imp h
    exact absurd rfl (of_decide_eq_true hnul)

theorem sqlLike_sampleOf (s : String) : sqlLike (sampleOf s) (boundPattern s) = true := by
  rw [sqlLike, cString_sampleOf, sampleOf, String.toList_ofList]
  by_cases h : nul ∈ s.toList
  · rw [toList_boundPattern_of_mem h]
    exact like_anyRun_cons (like_sample _)
  · have hself : s.toList.takeWhile (· ≠ nul) = s.toList := by
      rw [← toList_cString, cString_of_notMem h]
    rw [toList_boundPattern h, hself]
    exact like_anyRun_cons (like_concat_of_like (like_sample _))

/-- **Only a literal string is in its sample.** -/
theorem literal_of_infix (h : fold s.toList <:+: fold (sampleOf s).toList) : Literal s := by
  rw [sampleOf, String.toList_ofList] at h
  have hlen : s.toList.length ≤ (s.toList.takeWhile (· ≠ nul)).length := by
    have hfold := h.length_le
    rw [fold, fold, List.length_map, List.length_map] at hfold
    exact hfold.trans (length_sample_le _)
  have hnul := notMem_of_length_le hlen
  rw [← toList_cString, cString_of_notMem hnul] at h
  exact ⟨plain_of_infix_sample h, hnul⟩

/-! ### The nodes that are returned -/

theorem qualifiedName_readNode {qualifiedName : String}
    (h : r.qualifiedName = some qualifiedName) :
    (readNode schema r).qualifiedName = cString qualifiedName := by
  cases schema <;> simp [readNode, h]

/-- A row that a literal string matches has it in one of its names. -/
theorem contains_of_like (h : Literal s)
    (hlike : (sqlLike r.name (boundPattern s) ||
      r.qualifiedName.any (sqlLike · (boundPattern s))) = true) :
    (readNode schema r).Contains s := by
  rcases Bool.or_eq_true_iff.1 hlike with hname | hqualified
  · exact Or.inl ((sqlLike_boundPattern h).1 hname)
  · obtain ⟨qualifiedName, hsome, hmatch⟩ := (Option.any_eq_true _ _).1 hqualified
    refine Or.inr ?_
    rw [qualifiedName_readNode hsome]
    exact (sqlLike_boundPattern h).1 hmatch

theorem searchWhere_eq (pattern : String) (r : NodeRecord) :
    CodeGraphDb.searchWhere pattern r =
      (sqlLike r.name pattern || r.qualifiedName.any (sqlLike · pattern)) := by
  simp only [CodeGraphDb.searchWhere, sqlLike_sqlLower]

namespace CodeGraphDb

variable {db : CodeGraphDb} {node : NodeRow}

theorem mem_queryNodes {keeps : NodeRecord → Bool} {order : RowOrder NodeRecord}
    (h : node ∈ db.queryNodes keeps order limit) :
    ∃ r, keeps r = true ∧ readNode db.schema r = node := by
  obtain ⟨r, hr, hread⟩ := List.mem_map.1 h
  exact ⟨r, ((db.selectNodes_answers keeps order limit).mem hr).2, hread⟩

theorem contains_of_mem_searchNodes (h : Literal s) (hnode : node ∈ db.searchNodes s limit) :
    node.Contains s := by
  obtain ⟨r, hkeeps, rfl⟩ := mem_queryNodes hnode
  rw [searchWhere_eq] at hkeeps
  exact contains_of_like h hkeeps

/-- A node that `FindNodes` returns is called what was asked for, or matches it. -/
theorem contains_of_mem_findNodes (h : Literal s) (hnode : node ∈ db.findNodes s limit)
    (hname : node.name ≠ s) (hqualified : node.qualifiedName ≠ s) : node.Contains s := by
  have hself := cString_of_notMem h.2
  have hexact : node ∉ db.queryNodes (exactWhere (cString s)) (.ofKey (rank (cString s)))
      limit := by
    intro hmem
    obtain ⟨r, hkeeps, rfl⟩ := mem_queryNodes hmem
    rw [exactWhere, hself, Bool.or_eq_true_iff] at hkeeps
    rcases hkeeps with hr | hr
    · refine hname ?_
      show cString r.name = s
      rw [of_decide_eq_true hr, hself]
    · obtain ⟨qualifiedName, hsome, heq⟩ := (Option.any_eq_true _ _).1 hr
      refine hqualified ?_
      rw [qualifiedName_readNode hsome, of_decide_eq_true heq, hself]
  rw [findNodes] at hnode
  split_ifs at hnode
  · exact absurd hnode hexact
  · rcases List.mem_append.1 hnode with hmem | hfuzzy
    · exact absurd hmem hexact
    · obtain ⟨r, hkeeps, rfl⟩ := mem_queryNodes hfuzzy
      rw [likeWhere, Bool.and_assoc, Bool.and_eq_true_iff] at hkeeps
      exact contains_of_like h hkeeps.1

/-! ### A database of one row -/

/-- The row that has the sample of a string for its names. -/
def sampleRecord (s : String) : NodeRecord where
  id := "1"
  name := sampleOf s
  qualifiedName := some (sampleOf s)

/-- The database of that row. -/
def sampleDb (schema : SchemaFlavor) (s : String) : CodeGraphDb :=
  .ofRecords schema [sampleRecord s]

/-- The node that is read of it. -/
def sampleNode (schema : SchemaFlavor) (s : String) : NodeRow := readNode schema (sampleRecord s)

theorem name_sampleNode : (sampleNode schema s).name = sampleOf s := cString_sampleOf s

theorem qualifiedName_sampleNode : (sampleNode schema s).qualifiedName = sampleOf s :=
  (qualifiedName_readNode rfl).trans (cString_sampleOf s)

theorem literal_of_contains (h : (sampleNode schema s).Contains s) : Literal s := by
  rw [NodeRow.Contains, name_sampleNode, qualifiedName_sampleNode, or_self] at h
  exact literal_of_infix h

theorem queryNodes_sampleDb {keeps : NodeRecord → Bool} {order : RowOrder NodeRecord}
    (hkeeps : keeps (sampleRecord s) = true) (hlimit : 0 < limit) :
    (sampleDb schema s).queryNodes keeps order limit = [sampleNode schema s] := by
  have hanswers := (sampleDb schema s).selectNodes_answers keeps order limit
  rw [queryNodes, hanswers.eq_singleton hkeeps hlimit]
  rfl

theorem sampleNode_mem_searchNodes (hlimit : 0 < limit) :
    sampleNode schema s ∈ (sampleDb schema s).searchNodes s limit := by
  have hkeeps : searchWhere (boundPattern s) (sampleRecord s) = true := by
    rw [searchWhere_eq, Bool.or_eq_true_iff]
    exact Or.inl (sqlLike_sampleOf s)
  show _ ∈ (sampleDb schema s).queryNodes (searchWhere (boundPattern s)) _ limit
  rw [queryNodes_sampleDb hkeeps hlimit]
  exact List.mem_singleton_self _

theorem sampleNode_mem_findNodes (hlimit : 0 < limit) :
    sampleNode schema s ∈ (sampleDb schema s).findNodes s limit := by
  rw [findNodes]
  by_cases hsample : sampleOf s = cString s
  · have hkeeps : exactWhere (cString s) (sampleRecord s) = true :=
      Bool.or_eq_true_iff.2 (Or.inl (decide_eq_true hsample))
    rw [queryNodes_sampleDb hkeeps hlimit]
    split_ifs
    · exact List.mem_singleton_self _
    · exact List.mem_append_left _ (List.mem_singleton_self _)
  · have hexact : (sampleDb schema s).queryNodes (exactWhere (cString s))
        (.ofKey (rank (cString s))) limit = [] := by
      have hanswers := (sampleDb schema s).selectNodes_answers (exactWhere (cString s))
        (.ofKey (rank (cString s))) limit
      rw [queryNodes, hanswers.eq_nil, List.map_nil]
      intro r hr
      rw [List.mem_singleton.1 hr]
      simp [exactWhere, sampleRecord, hsample]
    have hkeeps : likeWhere (boundPattern s) (cString s) (sampleRecord s) = true := by
      simp [likeWhere, sampleRecord, hsample, sqlLike_sampleOf]
    rw [hexact, List.length_nil, if_neg hlimit.not_ge, Nat.sub_zero, List.nil_append]
    show _ ∈ (sampleDb schema s).queryNodes (likeWhere (boundPattern s) (cString s)) _ limit
    rw [queryNodes_sampleDb hkeeps hlimit]
    exact List.mem_singleton_self _

/-- **When the nodes that are returned have the string in a name**: all that `SearchNodes`
returns, and all but the exact matches that `FindNodes` returns, of whatever database, if
and only if nothing in the string has a meaning in a pattern. -/
theorem matches_contain_iff (schema : SchemaFlavor) (query : String) {limit : ℕ}
    (hlimit : 0 < limit) :
    ((∀ db : CodeGraphDb, db.schema = schema →
        ∀ node ∈ db.searchNodes query limit, node.Contains query) ↔ Literal query) ∧
      ((∀ db : CodeGraphDb, db.schema = schema →
        ∀ node ∈ db.findNodes query limit, node.name ≠ query → node.qualifiedName ≠ query →
          node.Contains query) ↔ Literal query) := by
  constructor
  · constructor
    · intro h
      exact literal_of_contains
        (h (sampleDb schema query) rfl _ (sampleNode_mem_searchNodes hlimit))
    · intro h db _ node hnode
      exact contains_of_mem_searchNodes h hnode
  · constructor
    · intro h
      by_cases hsample : sampleOf query = query
      · refine literal_of_infix ?_
        rw [hsample]
      · refine literal_of_contains
          (h (sampleDb schema query) rfl _ (sampleNode_mem_findNodes hlimit) ?_ ?_)
        · rwa [name_sampleNode]
        · rwa [qualifiedName_sampleNode]
    · intro h db _ node hnode
      exact contains_of_mem_findNodes h hnode

/-- A request for `getValue` returns what has it in a name. -/
theorem matches_contain_getValue :
    (∀ db : CodeGraphDb, db.schema = .officialCodeGraph →
      ∀ node ∈ db.searchNodes "getValue" 20, node.Contains "getValue") ∧
    ∀ db : CodeGraphDb, db.schema = .officialCodeGraph →
      ∀ node ∈ db.findNodes "getValue" 20,
        node.name ≠ "getValue" → node.qualifiedName ≠ "getValue" → node.Contains "getValue" :=
  have h := @matches_contain_iff .officialCodeGraph "getValue" 20 (by decide)
  ⟨h.1.2 (by decide), h.2.2 (by decide)⟩

/-- A request for `get_value` returns `getXvalue`. -/
theorem get_value_matches_getXvalue :
    (¬ ∀ (db : CodeGraphDb) (query : String), query ≠ "" →
      ∀ node ∈ db.searchNodes query 20, node.Contains query) ∧
    ¬ ∀ (db : CodeGraphDb) (symbol : String), symbol ≠ "" →
      ∀ node ∈ db.findNodes symbol 1, node.name ≠ symbol → node.qualifiedName ≠ symbol →
        node.Contains symbol := by
  let getXvalue : NodeRecord :=
    { id := "1", name := "getXvalue", qualifiedName := some "getXvalue" }
  let db : CodeGraphDb := .ofRecords .officialCodeGraph [getXvalue]
  let node : NodeRow := readNode .officialCodeGraph getXvalue
  have hnot : ¬ node.Contains "get_value" := by
    unfold NodeRow.Contains
    decide
  constructor
  · intro h
    exact hnot (h db "get_value" (by decide) node (by decide))
  · intro h
    exact hnot (h db "get_value" (by decide) node (by decide) (by decide) (by decide))

end CodeGraphDb
end Codegraph
end MiniRpc
