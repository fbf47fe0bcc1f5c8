import TopologyPinning.Clusters.Laws
import TopologyPinning.Pinning.Laws
import TopologyPinning.Topology.Exceptions

/-!
# From the attribute tree to a pinning list

A pinning list comes out of a pipeline: `get_nodes_info` reads the nodes from the
attribute tree, `get_clusters` groups them around the memory nodes and, for a cache
level `L ≥ 0`, drops and reorders each clustered node's core tuples, and a generator
emits the ids of the clustered tuples. This module follows the logical CPU ids
through it.

- `getNodesInfo_distinct`: on a well-formed tree (`WellFormed`) the nodes read have
  distinct ids `≥ 0`, and their core tuples together hold no CPU twice;
- `getClusters_tuples_subperm`: the core tuples of the clusters are a
  sub-permutation of the core tuples of the nodes;
- `pinning_nodup`: so on a well-formed tree neither generator emits a CPU twice.

The pipeline does not return on every tree (`pipeline_raises`): `has_memory` in the
kernel's range form `0-1` makes `int()` raise `ValueError` outside any handler of
`get_nodes_info`, and a tree whose only node has no CPUs gives the cluster list on
which `max()` in `ping_pong_pinning` raises. Below cache level 0 `get_clusters()` raises
exactly what `get_nodes_info` raises (`getClusters_raises`).
-/

set_option autoImplicit false

namespace TopologyPinning.Pipeline

open TopologyPinning.Python (PyExc bind_eq_ok pure_eq eq_map_of_mapM_ok sorted sorted_perm maxStrDigits)
open TopologyPinning.Topology TopologyPinning.Clusters TopologyPinning.Pinning

/-! ## Sub-permutations -/

section Subperm

variable {α β : Type}

theorem sublist_flatMap {f : α → List β} {l₁ l₂ : List α} (h : l₁.Sublist l₂) :
    (l₁.flatMap f).Sublist (l₂.flatMap f) := by
  induction h with
  | slnil => exact List.Sublist.slnil
  | cons a _ ih => exact ih.trans (List.sublist_append_right _ _)
  | cons₂ a _ ih => exact ih.append_left (f a)

theorem subperm_flatMap {f : α → List β} {l₁ l₂ : List α} (h : l₁.Subperm l₂) :
    (l₁.flatMap f).Subperm (l₂.flatMap f) := by
  obtain ⟨l, hp, hs⟩ := h
  exact ⟨l.flatMap f, hp.flatMap_right f, sublist_flatMap hs⟩

theorem subperm_append {l₁ l₂ r₁ r₂ : List α} (hl : l₁.Subperm l₂) (hr : r₁.Subperm r₂) :
    (l₁ ++ r₁).Subperm (l₂ ++ r₂) := by
  obtain ⟨l, hlp, hls⟩ := hl
  obtain ⟨r, hrp, hrs⟩ := hr
  exact ⟨l ++ r, hlp.append hrp, hls.append hrs⟩

/-- A loop whose every pass emits a sub-permutation of what another emits. -/
theorem flatMap_subperm_flatMap {f g : α → List β} :
    ∀ {l : List α}, (∀ a ∈ l, (f a).Subperm (g a)) → (l.flatMap f).Subperm (l.flatMap g)
  | [], _ => List.Subperm.refl _
  | a :: _, h => subperm_append (h a (List.mem_cons_self _ _))
      (flatMap_subperm_flatMap fun b hb => h b (List.mem_cons_of_mem _ hb))

theorem nodup_of_subperm {l₁ l₂ : List α} (h : l₁.Subperm l₂) (hnd : l₂.Nodup) : l₁.Nodup := by
  obtain ⟨l, hp, hs⟩ := h
  exact hp.nodup_iff.1 (hnd.sublist hs)

theorem flatten_flatMap {f : α → List (List β)} (l : List α) :
    (l.flatMap f).flatten = l.flatMap fun a => (f a).flatten := by
  induction l with
  | nil => rfl
  | cons a l ih => simp only [List.flatMap_cons, List.flatten_append, ih]

end Subperm

/-! ## Well-formed trees and the nodes read from them -/

/-- The `node<N>` entries of the node root, as `get_nodes_info` lists them. -/
def nodeNames (fs : Snapshot) : List String :=
  match fs.listDir nodePath with
  | some entries => entries.filter (numberedEntry "node")
  | none => []

/-- A well-formed attribute tree: the `node<N>` entries carry distinct numbers, the CPUs
of each entry have consistent sibling lists, and no CPU is listed by two entries. -/
structure WellFormed (fs : Snapshot) : Prop where
  distinctIds : ((nodeNames fs).map fun name => (entryNumber "node" name).toOption).Nodup
  consistent : ∀ name ∈ nodeNames fs, ∀ L, nodeCpulist fs name = .ok L →
    SiblingsConsistent L (siblingsOf fs)
  disjoint : (nodeNames fs).Pairwise fun a b => ∀ L L', nodeCpulist fs a = .ok L →
    nodeCpulist fs b = .ok L' → L.Disjoint L'

theorem toOption_join_eq_some {x : Except PyExc (Option NodeInfo)} {n : NodeInfo}
    (h : x.toOption.join = some n) : x = .ok (some n) := by
  cases x <;> simp_all [Except.toOption]

/-- The nodes `get_nodes_info` returns are, up to order, the nodes its loop kept, entry
by entry. -/
theorem getNodesInfo_perm {fs : Snapshot} {nodes : List NodeInfo} (h : getNodesInfo fs = .ok nodes) :
    ∃ mem, nodes.Perm ((nodeNames fs).filterMap fun name => (nodeEntry fs mem name).toOption.join) := by
  simp only [getNodesInfo, bind_eq_ok] at h
  obtain ⟨mem, -, h⟩ := h
  refine ⟨mem, ?_⟩
  unfold nodeNames
  split at h
  · rename_i hnone
    cases h
    simp only [hnone, List.filterMap_nil, List.Perm.refl]
  · rename_i entries hentries
    simp only [bind_eq_ok, pure_eq, Except.ok.injEq] at h
    obtain ⟨results, hres, rfl⟩ := h
    rw [hentries, eq_map_of_mapM_ok hres (fun name => (nodeEntry fs mem name).toOption.join)
      fun _ _ hab => by simp [hab, Except.toOption], List.filterMap_map]
    exact sorted_perm _ _

section WellFormed

variable {fs : Snapshot} (hw : WellFormed fs)
include hw

/-- A node kept from an entry carries the entry's number as id, and its core tuples hold
no CPU twice and only CPUs of the entry's `cpulist`. -/
theorem nodeEntry_cores {mem : List Int} {name : String} (hname : name ∈ nodeNames fs)
    {n : NodeInfo} (h : nodeEntry fs mem name = .ok (some n)) :
    entryNumber "node" name = .ok n.id ∧ ∃ L, nodeCpulist fs name = .ok L ∧
      n.coresList.flatten.Nodup ∧ ∀ c ∈ n.coresList.flatten, c ∈ L := by
  obtain ⟨hid, hrd⟩ := nodeEntry_eq_some h
  obtain ⟨L, hL, -, hfirst, -⟩ := readNode_coresList hrd
  have hs := hw.consistent name hname L hL
  refine ⟨hid, L, hL, nodup_flatten_of_consistent hs hfirst, fun c hc => ?_⟩
  obtain ⟨t, ht, hct⟩ := List.mem_flatten.1 hc
  exact mem_of_mem_tuple hs hfirst t ht c hct

/-- On a well-formed tree the nodes read have distinct ids `≥ 0`, and no CPU lies in two
of their core tuples. -/
theorem getNodesInfo_distinct {nodes : List NodeInfo} (h : getNodesInfo fs = .ok nodes) :
    (nodes.map NodeInfo.id).Nodup ∧ (∀ n ∈ nodes, 0 ≤ n.id) ∧
      (nodes.flatMap (·.coresList)).flatten.Nodup := by
  obtain ⟨mem, hperm⟩ := getNodesInfo_perm h
  have hkept : ∀ {name n}, n ∈ (nodeEntry fs mem name).toOption.join → name ∈ nodeNames fs →
      entryNumber "node" name = .ok n.id ∧ ∃ L, nodeCpulist fs name = .ok L ∧
        n.coresList.flatten.Nodup ∧ ∀ c ∈ n.coresList.flatten, c ∈ L :=
    fun hn hname => nodeEntry_cores hw hname (toOption_join_eq_some hn)
  have hpw : nodes.Pairwise fun n n' =>
      n.id ≠ n'.id ∧ n.coresList.flatten.Disjoint n'.coresList.flatten := by
    refine (hperm.pairwise_iff fun h => ⟨h.1.symm, fun _ h₁ h₂ => h.2 h₂ h₁⟩).2 (List.Pairwise.filterMap _ ?_
      (List.Pairwise.and_mem.1 ((List.pairwise_map.1 hw.distinctIds).and hw.disjoint)))
    rintro a b ⟨ha, hb, hid, hdis⟩ n hn n' hn'
    obtain ⟨hna, L, hL, -, hsub⟩ := hkept hn ha
    obtain ⟨hnb, L', hL', -, hsub'⟩ := hkept hn' hb
    refine ⟨fun heq => hid ?_, fun c hc hc' => hdis L L' hL hL' (hsub c hc) (hsub' c hc')⟩
    rw [hna, hnb, heq]
  refine ⟨List.pairwise_map.2 (hpw.imp (·.1)), getNodesInfo_id_nonneg h, ?_⟩
  rw [flatten_flatMap]
  refine List.nodup_flatMap.2 ⟨fun n hn => ?_, hpw.imp (·.2)⟩
  obtain ⟨name, hname, hkn⟩ := List.mem_filterMap.1 (hperm.subset hn)
  simpa using (hkept hkn hname).2.choose_spec.2.1

end WellFormed

/-! ## The clusters -/

/-- The node objects of a list, read back through the list. -/
theorem nodeRefs_map_getD (l : List NodeInfo) :
    (nodeRefs l).map (fun r => l.getD r.pos default) = l := by
  unfold nodeRefs
  rw [List.map_map]
  conv_rhs => rw [← List.enum_map_snd l]
  refine List.map_congr_left fun ⟨i, x⟩ hp => ?_
  simp [refAt, List.getD_eq_getElem?_getD, List.mem_enum_iff_getElem?.1 hp]

theorem getClusters_none {fs : Snapshot} {nodes : List NodeInfo} (h : getNodesInfo fs = .ok nodes)
    (cache_level : Int) : getClusters fs none cache_level = getClusters fs (some nodes) cache_level := by
  simp only [getClusters, Option.elim, h]

/-- For nodes with distinct ids `≥ 0`, the core tuples of the clusters `get_clusters`
returns are a sub-permutation of the core tuples of the nodes: a node lies in at most
one cluster, and the cache optimizer only drops and reorders tuples. -/
theorem getClusters_tuples_subperm {fs : Snapshot} {cache_level : Int}
    {nodes nodes' : List NodeInfo} {cs : List (List NodeInfo)}
    (hd : (nodes.map NodeInfo.id).Nodup) (hnn : ∀ n ∈ nodes, 0 ≤ n.id)
    (h : getClusters fs (some nodes) cache_level = (.ok cs, nodes')) :
    (allTuples cs).Subperm (nodes.flatMap (·.coresList)) := by
  by_cases hm : ∃ m ∈ nodes, m.memory
  · rw [getClusters_eq_finish hd hnn hm] at h
    obtain ⟨-, rfl, -⟩ := finishClusters_eq_ok h
    have hflat : allTuples ((clusterSpec (nodeRefs nodes)).map
          (·.map fun r => nodes'.getD r.pos default)) =
        (clusterSpec (nodeRefs nodes)).flatten.flatMap fun r => (nodes'.getD r.pos default).coresList := by
      simp only [allTuples, List.flatMap_map, List.flatten_eq_flatMap, List.flatMap_assoc, id]
    have hnodes : nodes.flatMap (·.coresList) =
        (nodeRefs nodes).flatMap fun r => (nodes.getD r.pos default).coresList := by
      conv_lhs => rw [← nodeRefs_map_getD nodes, List.flatMap_map]
    rw [hflat, hnodes]
    exact (subperm_flatMap (clusterSpec_flatten_subperm (nodeRefs_ids_nodup hd))).trans
      (flatMap_subperm_flatMap fun r _ => finishClusters_subperm h r.pos)
  · have hany : nodes.any (·.memory) = false := by simpa using hm
    by_cases hne : nodes = []
    · simp only [getClusters, Option.elim, hne, if_true, Prod.mk.injEq] at h
      obtain ⟨⟨⟩, -⟩ := h
      exact List.nil_subperm
    · simp only [getClusters, Option.elim, hne, hany, if_false, Bool.not_false, if_true,
        Prod.mk.injEq, Except.ok.injEq] at h
      obtain ⟨rfl, -⟩ := h
      simp only [allTuples, List.flatMap_cons, List.flatMap_nil, List.append_nil]
      exact List.Subperm.refl _

/-- Every core tuple of a cluster `get_clusters` returns is a core tuple of a node of the
list it clustered. -/
theorem mem_tuples_of_getClusters {fs : Snapshot} {cache_level : Int}
    {nodes nodes' : List NodeInfo} {cs : List (List NodeInfo)}
    (h : getClusters fs (some nodes) cache_level = (.ok cs, nodes')) :
    ∀ t ∈ allTuples cs, ∃ n ∈ nodes, t ∈ n.coresList := by
  intro t ht
  simp only [allTuples, List.mem_flatMap] at ht
  obtain ⟨c, hc, n, hn, ht⟩ := ht
  simp only [getClusters, Option.elim] at h
  split_ifs at h with hne hany
  · simp only [Prod.mk.injEq, Except.ok.injEq] at h
    obtain ⟨rfl, -⟩ := h
    exact absurd hc (List.not_mem_nil c)
  · simp only [Prod.mk.injEq, Except.ok.injEq] at h
    obtain ⟨rfl, -⟩ := h
    exact ⟨n, (List.mem_singleton.1 hc) ▸ hn, ht⟩
  · split at h
    · cases h
    · obtain ⟨-, rfl, -⟩ := finishClusters_eq_ok h
      obtain ⟨rs, -, rfl⟩ := List.mem_map.1 hc
      obtain ⟨r, -, rfl⟩ := List.mem_map.1 hn
      have ht' := (finishClusters_subperm h r.pos).subset ht
      rw [List.getD_eq_getElem?_getD] at ht'
      cases hget : nodes[r.pos]? with
      | none => rw [hget] at ht'; exact absurd ht' (List.not_mem_nil t)
      | some m => exact ⟨m, List.mem_iff_getElem?.2 ⟨_, hget⟩, by simpa [hget] using ht'⟩

/-- The CPU ids of the clusters of `get_clusters` are `int()` results. -/
theorem getClusters_natAbs_lt {fs : Snapshot} {cache_level : Int} {cs : List (List NodeInfo)}
    (h : (getClusters fs none cache_level).1 = .ok cs) :
    ∀ t ∈ allTuples cs, ∀ x ∈ t, x.natAbs < 10 ^ maxStrDigits := by
  cases hn : getNodesInfo fs with
  | error e => simp [getClusters, Option.elim, hn] at h
  | ok nodes =>
    rw [getClusters_none hn] at h
    intro t ht
    obtain ⟨n, hn', ht'⟩ := mem_tuples_of_getClusters (Prod.ext h rfl) t ht
    exact getNodesInfo_natAbs_lt hn n hn' t ht'

/-! ## No CPU twice -/

/-- On a well-formed tree, for every cache level, the core tuples of the clusters of
`get_clusters` hold no logical CPU id twice. -/
theorem allTuples_nodup {fs : Snapshot} (hw : WellFormed fs) {cache_level : Int}
    {cs : List (List NodeInfo)} (h : (getClusters fs none cache_level).1 = .ok cs) :
    (allTuples cs).flatten.Nodup := by
  cases hn : getNodesInfo fs with
  | error e => simp [getClusters, Option.elim, hn] at h
  | ok nodes =>
    obtain ⟨hd, hnn, hcores⟩ := getNodesInfo_distinct hw hn
    rw [getClusters_none hn] at h
    refine nodup_of_subperm ?_ hcores
    simpa only [List.flatten_eq_flatMap] using
      subperm_flatMap (getClusters_tuples_subperm hd hnn (Prod.ext h rfl))

/-- On a well-formed tree, for every cache level and every `nodes_per_round ≥ 1`, the
lists `cluster_first_pinning` and `ping_pong_pinning` return on the clusters of
`get_clusters` hold no logical CPU id twice. -/
theorem pinning_nodup {fs : Snapshot} (hw : WellFormed fs) {cache_level : Int}
    {cs : List (List NodeInfo)} (h : (getClusters fs none cache_level).1 = .ok cs) :
    (∀ out, clusterFirstPinning cs = .ok out → out.Nodup) ∧
      ∀ x : Int, 1 ≤ x → ∀ out, pingPongPinning cs x = .ok out → out.Nodup := by
  have hT := allTuples_nodup hw h
  refine ⟨fun out hout => ?_, fun x hx out hout => (pingPongPinning_perm hx hout).nodup_iff.2 hT⟩
  rcases clusterFirstPinning_perm hout with rfl | hp
  · exact List.nodup_nil
  · exact hp.nodup_iff.2 hT

/-- Two nodes of one SMT core each: `node0` with memory and CPUs 0 and 1, `node1`
without memory and CPUs 2 and 3. -/
def twoNodeTree : Snapshot where
  listDir p := if p = nodePath then some ["node0", "node1", "has_memory"] else none
  readFile p :=
    if p = nodePath ++ ["has_memory"] then some "0\n"
    else if p = nodePath ++ ["node0", "cpulist"] then some "0-1\n"
    else if p = nodePath ++ ["node1", "cpulist"] then some "2-3\n"
    else if p = nodePath ++ ["node0", "distance"] then some "10 20\n"
    else if p = nodePath ++ ["node1", "distance"] then some "20 10\n"
    else if p = cpuDir 0 ++ ["topology", "thread_siblings_list"] ∨
        p = cpuDir 1 ++ ["topology", "thread_siblings_list"] then some "0,1\n"
    else if p = cpuDir 2 ++ ["topology", "thread_siblings_list"] ∨
        p = cpuDir 3 ++ ["topology", "thread_siblings_list"] then some "2,3\n"
    else none
  maxListLength := 2 ^ 30

theorem twoNodeTree_wellFormed : WellFormed twoNodeTree := by
  have hnames : nodeNames twoNodeTree = ["node0", "node1"] := rfl
  have hcpu0 : nodeCpulist twoNodeTree "node0" = .ok [0, 1] := rfl
  have hcpu1 : nodeCpulist twoNodeTree "node1" = .ok [2, 3] := rfl
  refine ⟨by rw [hnames]; decide, fun name hname L hL => ?_, ?_⟩
  · rw [hnames, List.mem_pair] at hname
    rcases hname with rfl | rfl
    all_goals first | rw [hcpu0] at hL | rw [hcpu1] at hL
    all_goals cases hL; unfold SiblingsConsistent; decide
  · rw [hnames, List.pairwise_pair, hcpu0, hcpu1]
    rintro L L' ⟨⟩ ⟨⟩ a h₁ h₂
    simp only [List.mem_cons, List.mem_singleton, List.not_mem_nil, or_false] at h₁ h₂
    omega

theorem pinning_nodup_twoNode :
    (getClusters twoNodeTree none (-1)).1 =
        .ok [[⟨0, true, [[0, 1]], [10, 20]⟩, ⟨1, false, [[2, 3]], [20, 10]⟩]] ∧
      (∀ out, clusterFirstPinning [[⟨0, true, [[0, 1]], [10, 20]⟩, ⟨1, false, [[2, 3]], [20, 10]⟩]] =
        .ok out → out.Nodup) ∧
      ∀ x : Int, 1 ≤ x → ∀ out, pingPongPinning
        [[⟨0, true, [[0, 1]], [10, 20]⟩, ⟨1, false, [[2, 3]], [20, 10]⟩]] x = .ok out → out.Nodup := by
  have h : (getClusters twoNodeTree none (-1)).1 =
      .ok [[⟨0, true, [[0, 1]], [10, 20]⟩, ⟨1, false, [[2, 3]], [20, 10]⟩]] := rfl
  exact ⟨h, pinning_nodup twoNodeTree_wellFormed h⟩

/-! ## What the pipeline raises -/

/-- `has_memory` in the kernel's range form, over two nodes of one CPU each. -/
def rangeMemoryTree : Snapshot where
  listDir p := if p = nodePath then some ["node0", "node1", "has_memory"] else none
  readFile p :=
    if p = nodePath ++ ["has_memory"] then some "0-1\n"
    else if p = nodePath ++ ["node0", "cpulist"] then some "0\n"
    else if p = nodePath ++ ["node1", "cpulist"] then some "1\n"
    else if p = nodePath ++ ["node0", "distance"] then some "10 20\n"
    else if p = nodePath ++ ["node1", "distance"] then some "20 10\n"
    else none
  maxListLength := 2 ^ 30

/-- One memory node whose `cpulist` is empty. -/
def cpuLessTree : Snapshot where
  listDir p := if p = nodePath then some ["node0", "has_memory"] else none
  readFile p :=
    if p = nodePath ++ ["has_memory"] then some "0\n"
    else if p = nodePath ++ ["node0", "cpulist"] then some "\n"
    else if p = nodePath ++ ["node0", "distance"] then some "10\n"
    else none
  maxListLength := 2 ^ 30

/-- `int('0-1')` raises `ValueError` where `get_nodes_info` catches only `IOError`, so
`get_nodes_info` and `get_clusters` raise. On the tree whose only node has no CPUs,
`get_clusters` returns one cluster without a core tuple, and `ping_pong_pinning` raises
`ValueError` from `max()` of an empty sequence where `cluster_first_pinning` returns
`[]`. -/
theorem pipeline_raises :
    getNodesInfo rangeMemoryTree = .error .valueError ∧
      (getClusters rangeMemoryTree none (-1)).1 = .error .valueError ∧
      (getClusters cpuLessTree none (-1)).1 = .ok [[⟨0, true, [], [10]⟩]] ∧
      pingPongPinning [[⟨0, true, [], [10]⟩]] 1 = .error .valueError ∧
      clusterFirstPinning [[⟨0, true, [], [10]⟩]] = .ok [] :=
  ⟨rfl, rfl, rfl, rfl, rfl⟩

/-- Below cache level 0, `get_clusters()` raises exactly what `get_nodes_info` raises:
the clustering itself raises nothing on the nodes read, whose ids are entry numbers
`≥ 0`. -/
theorem getClusters_raises (fs : Snapshot) {cache_level : Int} (hL : cache_level < 0) (e : PyExc) :
    (getClusters fs none cache_level).1 = .error e ↔ getNodesInfo fs = .error e := by
  cases hn : getNodesInfo fs with
  | error e' =>
    simp only [getClusters, Option.elim, hn, Except.error.injEq]
  | ok nodes =>
    obtain ⟨cs, hcs⟩ := @getClusters_ok_of_nonneg fs cache_level nodes (getNodesInfo_id_nonneg hn) hL
    rw [getClusters_none hn, hcs]
    simp

theorem getClusters_raises_rangeMemory :
    (-1 : Int) < 0 ∧ getNodesInfo rangeMemoryTree = .error .valueError ∧
      ((getClusters rangeMemoryTree none (-1)).1 = .error .valueError ↔
        getNodesInfo rangeMemoryTree = .error .valueError) :=
  ⟨by decide, rfl, getClusters_raises rangeMemoryTree (by decide) .valueError⟩

end TopologyPinning.Pipeline
