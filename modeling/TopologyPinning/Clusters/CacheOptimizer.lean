import TopologyPinning.Topology.Snapshot
import Mathlib.Data.Prod.Lex

/-!
# The cache optimizer

`optimizeCacheNodes` is `optimize_cache_nodes`. For a cache level `L ≥ 0` it reads
the cache ids of the first CPU of every core tuple, drops the tuples whose first
CPU has no cache id at level `L`, and orders the others by the pair (cache id at
`L`, first CPU). Reading a cache id that does not parse raises `ValueError`, which
nothing in the optimizer catches.

The optimizer rewrites `coresList` and nothing else (`optimizeCacheNodes_fields`),
keeps a sub-permutation of the tuples (`optimizeCacheNodes_subperm`), and on a
fixed snapshot a second run leaves its result unchanged
(`optimizeCacheNodes_idem`): every tuple it kept passes the filter again, and a
stable sort of a sorted list is the identity.
-/

set_option autoImplicit false

namespace TopologyPinning.Clusters

open TopologyPinning.Python TopologyPinning.Topology

/-- One pass of the loop of `optimize_cache_nodes` over `core_tuple`: the entry
`(core_tuple, cache_id, first_logical_id)`, or `none` where the loop continues. -/
def cacheEntry (fs : Snapshot) (cache_level : Int) :
    List Int → Except PyExc (Option (List Int × Int × Int))
  | [] => .ok none
  | first :: rest => do
    let cache_ids ← getCacheInfo fs first
    if cache_ids = [] ∨ cache_level ≥ cache_ids.length then pure none
    else do
      let cache_id ← getItem cache_ids cache_level
      pure (some (first :: rest, cache_id, first))

/-- The sort key `(x['cache_id'], x['first_logical_id'])`, compared as Python
compares tuples. -/
def cacheKey (e : List Int × Int × Int) : Int ×ₗ Int := toLex (e.2.1, e.2.2)

/-- `optimize_cache_nodes`. -/
def optimizeCacheNodes (fs : Snapshot) (node : NodeInfo) (cache_level : Int) :
    Except PyExc NodeInfo :=
  if cache_level < 0 then .ok node
  else do
    let cores_with_cache ← node.coresList.mapM (cacheEntry fs cache_level)
    pure { node with coresList := (sorted cacheKey (cores_with_cache.filterMap id)).map Prod.fst }

variable {fs : Snapshot} {cache_level : Int}

/-- An entry is built from the tuple it was computed for. -/
theorem cacheEntry_fst {t : List Int} {e : List Int × Int × Int}
    (h : cacheEntry fs cache_level t = .ok (some e)) : e.1 = t := by
  cases t with
  | nil => simp [cacheEntry] at h
  | cons first rest =>
    simp only [cacheEntry, bind_eq_ok] at h
    obtain ⟨cache_ids, -, h⟩ := h
    split at h
    · simp at h
    · obtain ⟨_, -, h⟩ := bind_eq_ok.1 h
      cases h
      rfl

/-- The result of a run at a non-negative level, read off its loop. -/
theorem optimizeCacheNodes_eq_ok {node node' : NodeInfo}
    (h : optimizeCacheNodes fs node cache_level = .ok node') :
    node' = node ∨ ∃ entries, node.coresList.mapM (cacheEntry fs cache_level) = .ok entries ∧
      node' = { node with coresList := (sorted cacheKey (entries.filterMap id)).map Prod.fst } := by
  unfold optimizeCacheNodes at h
  split at h
  · exact .inl (Except.ok.inj h).symm
  · obtain ⟨entries, he, h⟩ := bind_eq_ok.1 h
    exact .inr ⟨entries, he, (Except.ok.inj h).symm⟩

/-- The optimizer changes the core tuples only. -/
theorem optimizeCacheNodes_fields {node node' : NodeInfo}
    (h : optimizeCacheNodes fs node cache_level = .ok node') :
    node'.id = node.id ∧ node'.memory = node.memory ∧ node'.distance = node.distance := by
  rcases optimizeCacheNodes_eq_ok h with rfl | ⟨_, -, rfl⟩ <;> exact ⟨rfl, rfl, rfl⟩

/-- The kept tuples, in input order, form a sublist of the input tuples. -/
theorem kept_sublist {l : List (List Int)} {entries : List (Option (List Int × Int × Int))}
    (h : List.Forall₂ (fun t o => cacheEntry fs cache_level t = .ok o) l entries) :
    List.Sublist ((entries.filterMap id).map Prod.fst) l := by
  induction h with
  | nil => exact List.Sublist.slnil
  | @cons t o l os hto _ ih =>
    cases o with
    | none => exact ih.cons t
    | some e =>
      simp only [List.filterMap_cons, id, List.map_cons, cacheEntry_fst hto]
      exact ih.cons₂ t

/-- The optimizer keeps a sub-permutation of the core tuples. -/
theorem optimizeCacheNodes_subperm {node node' : NodeInfo}
    (h : optimizeCacheNodes fs node cache_level = .ok node') :
    List.Subperm node'.coresList node.coresList := by
  rcases optimizeCacheNodes_eq_ok h with rfl | ⟨entries, he, rfl⟩
  · exact List.Subperm.refl _
  · exact ⟨_, ((sorted_perm cacheKey _).map Prod.fst).symm,
      kept_sublist ((mapM_ok_iff _ _).1 he)⟩

/-- A second run of the optimizer on its own result changes nothing. -/
theorem optimizeCacheNodes_idem {node node' : NodeInfo}
    (h : optimizeCacheNodes fs node cache_level = .ok node') :
    optimizeCacheNodes fs node' cache_level = .ok node' := by
  unfold optimizeCacheNodes at h ⊢
  split at h
  · cases h; simp [*]
  · rename_i hL
    obtain ⟨entries, he, h⟩ := bind_eq_ok.1 h
    cases h
    have hre : ∀ e ∈ sorted cacheKey (entries.filterMap id),
        cacheEntry fs cache_level e.1 = .ok (some e) := fun e he' => by
      obtain ⟨t, -, ht⟩ := exists_of_mem_mapM he (List.mem_filterMap.1 (mem_sorted.1 he') |>
        fun ⟨o, ho, hoe⟩ => (by cases hoe; exact ho))
      rwa [cacheEntry_fst ht]
    simp only [hL, if_false, mapM_map_eq_ok hre, ok_bind, List.filterMap_map]
    simp [sorted_eq_self (sorted_sorted _)]

/-! ## The law of the optimizer

What `optimize_cache_nodes` is for, in terms of the cache-id lists `cacheIds` that
`_get_cache_info` returns for the CPUs: the tuples kept are the non-empty ones whose
first CPU has a cache id at the level, ordered by that cache id and then by that CPU. -/

/-- A tuple with a cache id at `cache_level`: it is non-empty, and the cache-id list of
its first CPU has more than `cache_level` entries. -/
def hasCacheId (cacheIds : Int → List Int) (cache_level : Int) : List Int → Bool
  | [] => false
  | first :: _ => cache_level < (cacheIds first).length

/-- The order of the kept tuples: the cache id at `cache_level` of the first CPU, then
the first CPU. -/
def cacheOrder (cacheIds : Int → List Int) (cache_level : Int) : List Int → Int ×ₗ Int
  | [] => toLex (0, 0)
  | first :: _ => toLex ((cacheIds first).getD cache_level.toNat 0, first)

section Law

variable {cacheIds : Int → List Int}

/-- One pass of the loop when the first CPU has the cache ids `cacheIds`: a tuple with
a cache id at the level gets an entry that carries its `cacheOrder` key. -/
theorem cacheEntry_of_cacheIds (hL : 0 ≤ cache_level) {t : List Int}
    (ht : ∀ c ∈ t.head?, getCacheInfo fs c = .ok (cacheIds c)) :
    cacheEntry fs cache_level t = .ok (if hasCacheId cacheIds cache_level t
      then some (t, ofLex (cacheOrder cacheIds cache_level t)) else none) := by
  cases t with
  | nil => rfl
  | cons first rest =>
    simp only [cacheEntry, ht first rfl, ok_bind, hasCacheId, cacheOrder]
    by_cases hlt : cache_level < (cacheIds first).length
    · have hne : cacheIds first ≠ [] := List.ne_nil_of_length_pos (by omega)
      rw [if_neg (not_or.2 ⟨hne, not_le.2 hlt⟩), getItem_of_lt hL hlt]
      simp [hlt]
    · rw [if_pos (.inr (by omega))]
      simp [hlt]

/-- At a level `L ≥ 0`, when the first CPU of every tuple has the cache ids `cacheIds`,
the optimizer returns the node with the tuples that have a cache id at `L`, sorted by
`cacheOrder`. -/
theorem optimizeCacheNodes_eq_sorted (hL : 0 ≤ cache_level) {node : NodeInfo}
    (hids : ∀ t ∈ node.coresList, ∀ c ∈ t.head?, getCacheInfo fs c = .ok (cacheIds c)) :
    optimizeCacheNodes fs node cache_level = .ok { node with
      coresList := sorted (cacheOrder cacheIds cache_level)
        (node.coresList.filter (hasCacheId cacheIds cache_level)) } := by
  rw [optimizeCacheNodes, if_neg (not_lt.2 hL),
    mapM_eq_ok_map fun t ht => cacheEntry_of_cacheIds hL (hids t ht)]
  simp only [ok_bind, pure_eq, List.filterMap_map, Function.comp_def, id, filterMap_ite]
  rw [sorted_map_of_key (fun _ => rfl) (fun _ => rfl)]
  rfl

end Law

/-- `optimize_cache_nodes` at a level `L < 0` returns the node unchanged. At a level
`L ≥ 0`, whatever cache-id lists `_get_cache_info` returns for the first CPUs of the
tuples, it returns a node with the same id, memory flag and distances, whose tuples are a
permutation of the input tuples that have a cache id at `L`, in non-decreasing
`cacheOrder`. -/
theorem optimizeCacheNodes_law (fs : Snapshot) (node : NodeInfo) (cache_level : Int) :
    (cache_level < 0 → optimizeCacheNodes fs node cache_level = .ok node) ∧
      ∀ cacheIds : Int → List Int, 0 ≤ cache_level →
        (∀ t ∈ node.coresList, ∀ c ∈ t.head?, getCacheInfo fs c = .ok (cacheIds c)) →
        ∃ node', optimizeCacheNodes fs node cache_level = .ok node' ∧
          node'.id = node.id ∧ node'.memory = node.memory ∧ node'.distance = node.distance ∧
          node'.coresList.Perm (node.coresList.filter (hasCacheId cacheIds cache_level)) ∧
          node'.coresList.Sorted fun t u =>
            cacheOrder cacheIds cache_level t ≤ cacheOrder cacheIds cache_level u :=
  ⟨fun hL => if_pos hL, fun _ hL hids => ⟨_, optimizeCacheNodes_eq_sorted hL hids, rfl, rfl, rfl,
    sorted_perm _ _, sorted_sorted _⟩⟩

/-- Two cache levels: CPU 0 has the cache ids `[0, 1]`, CPU 2 has `[2, 0]`, and CPU 4 one
level only, `[4]`. -/
def twoLevelCacheTree : Snapshot where
  listDir p :=
    if p = cpuDir 0 ++ ["cache"] then some ["index1", "index0"]
    else if p = cpuDir 2 ++ ["cache"] then some ["index0", "index1"]
    else if p = cpuDir 4 ++ ["cache"] then some ["index0"]
    else none
  readFile p :=
    if p = cpuDir 0 ++ ["cache", "index0", "id"] then some "0\n"
    else if p = cpuDir 0 ++ ["cache", "index1", "id"] then some "1\n"
    else if p = cpuDir 2 ++ ["cache", "index0", "id"] then some "2\n"
    else if p = cpuDir 2 ++ ["cache", "index1", "id"] then some "0\n"
    else if p = cpuDir 4 ++ ["cache", "index0", "id"] then some "4\n"
    else none
  maxListLength := 2 ^ 30

/-- The cache-id lists of `twoLevelCacheTree`. -/
def twoLevelCacheIds : Int → List Int
  | 0 => [0, 1]
  | 2 => [2, 0]
  | 4 => [4]
  | _ => []

/-- At level 1 the tuple of CPU 4 and the empty tuple are dropped, and the tuple of CPU 2
comes first: its cache id at level 1 is the smaller one. -/
theorem optimizeCacheNodes_law_twoLevel :
    optimizeCacheNodes twoLevelCacheTree ⟨0, true, [[0, 1], [2, 3], [4, 5], []], [10]⟩ 1 =
      .ok ⟨0, true, [[2, 3], [0, 1]], [10]⟩ ∧
    ∃ node', optimizeCacheNodes twoLevelCacheTree ⟨0, true, [[0, 1], [2, 3], [4, 5], []], [10]⟩ 1 =
        .ok node' ∧ node'.id = 0 ∧ node'.memory = true ∧ node'.distance = [10] ∧
      node'.coresList.Perm ([[0, 1], [2, 3], [4, 5], []].filter (hasCacheId twoLevelCacheIds 1)) ∧
      node'.coresList.Sorted fun t u => cacheOrder twoLevelCacheIds 1 t ≤ cacheOrder twoLevelCacheIds 1 u :=
  ⟨rfl, (optimizeCacheNodes_law twoLevelCacheTree ⟨0, true, [[0, 1], [2, 3], [4, 5], []], [10]⟩ 1).2
    twoLevelCacheIds (by decide) fun t ht c hc => by
      simp only [List.mem_cons, List.mem_singleton, List.not_mem_nil, or_false] at ht
      rcases ht with rfl | rfl | rfl | rfl <;> cases hc <;> rfl⟩

end TopologyPinning.Clusters
