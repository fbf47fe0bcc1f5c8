import TopologyPinning.Clusters.ClosedForm

/-!
# What `get_clusters` guarantees

The laws of the cluster builder, read off the closed form through the node list the
call leaves behind (`getClusters_eq_ok`).

`getClusters_rerun`: calling `get_clusters` a second time on the node list the first
call rewrote in place returns the same clusters and rewrites nothing. The clustering
reads only `id`, `memory` and `distance`, which the optimizer keeps, and the
optimizer is idempotent.

`getClusters_law`: for nodes with distinct ids `≥ 0` and at least one memory node,
on which the cache optimizer does not raise, the call returns one cluster per memory
node in input order, anchored at it; every other node lies in one cluster exactly
when some memory node is within its distance vector; and the members after an anchor
come in non-decreasing distance to it, ties in input order. The optimizer does raise
on a cache id that does not parse (`getClusters_badCacheId`).

`getClusters_nearest`: a node placed with anchor `a` is at least as close to `a`
as to any other memory node, and strictly closer than to any memory node before `a`.

`getClusters_ok_of_nonneg`: below cache level 0 the call returns on every node list
with ids `≥ 0`, distinct or not; `finishClusters_subperm`: the cache loop only drops
and reorders core tuples.
-/

set_option autoImplicit false

namespace TopologyPinning.Clusters

open TopologyPinning.Python TopologyPinning.Topology

/-! ## Node objects with the same fields -/

theorem getElem?_nodeRefs (l : List NodeInfo) (i : Nat) :
    (nodeRefs l)[i]? = l[i]?.map (refAt i) := by
  simp [nodeRefs, Option.map_map, Function.comp_def]

/-- Two lists whose objects agree on `id`, `memory` and `distance` position by
position have the same node objects for the clustering. -/
theorem nodeRefs_congr {l l' : List NodeInfo} (hlen : l'.length = l.length)
    (h : ∀ p < l.length, (l'.getD p default).id = (l.getD p default).id ∧
      (l'.getD p default).memory = (l.getD p default).memory ∧
      (l'.getD p default).distance = (l.getD p default).distance) :
    nodeRefs l' = nodeRefs l := by
  apply List.ext_getElem?
  intro i
  rw [getElem?_nodeRefs, getElem?_nodeRefs]
  by_cases hi : i < l.length
  · obtain ⟨h1, h2, h3⟩ := h i hi
    simp only [List.getD_eq_getElem?_getD, List.getElem?_eq_getElem hi,
      List.getElem?_eq_getElem (hlen ▸ hi), Option.getD_some] at h1 h2 h3
    simp [List.getElem?_eq_getElem hi, List.getElem?_eq_getElem (hlen ▸ hi), refAt, h1, h2, h3]
  · simp [List.getElem?_eq_none (not_lt.1 hi), List.getElem?_eq_none (hlen ▸ not_lt.1 hi)]

theorem any_memory_nodeRefs (l : List NodeInfo) :
    (nodeRefs l).any (·.memory) = l.any (·.memory) := by
  rw [Bool.eq_iff_iff, List.any_eq_true, List.any_eq_true]
  simpa only [List.mem_map, eq_iff_iff] using
    congrArg (true ∈ ·) (nodeRefs_map_fields (fun _ m _ => m) l)

theorem any_memory_eq_of_nodeRefs {l l' : List NodeInfo} (h : nodeRefs l' = nodeRefs l) :
    l'.any (·.memory) = l.any (·.memory) := by
  rw [← any_memory_nodeRefs, h, any_memory_nodeRefs]

/-! ## The end of a call -/

variable {fs : Snapshot} {cache_level : Int}

theorem optimizeCacheNodes_default : optimizeCacheNodes fs default cache_level = .ok default := by
  unfold optimizeCacheNodes
  split <;> rfl

/-- After a cache loop that ran through, the loop changes nothing more and the node
objects still agree with the old ones on the clustered fields. -/
theorem optimizeInPlace_rerun {ps : List Nat} {nodes heap : List NodeInfo}
    (h : optimizeInPlace fs cache_level ps nodes = (none, heap)) :
    optimizeInPlace fs cache_level ps heap = (none, heap) ∧ nodeRefs heap = nodeRefs nodes := by
  have hlen : heap.length = nodes.length := by
    simpa [h] using @optimizeInPlace_length fs cache_level ps nodes
  have hok := fun p hp hlt => h ▸ @optimizeInPlace_ok fs cache_level ps nodes (by simp [h]) p hp hlt
  refine ⟨optimizeInPlace_fixed ps heap fun p hp => ?_, nodeRefs_congr hlen fun p hlt => ?_⟩
  · by_cases hlt : p < nodes.length
    · exact optimizeCacheNodes_idem (hok p hp hlt)
    · rw [List.getD_eq_getElem?_getD, List.getElem?_eq_none (by omega)]
      exact optimizeCacheNodes_default
  · by_cases hp : p ∈ ps
    · exact optimizeCacheNodes_fields (hok p hp hlt)
    · have : heap.getD p default = nodes.getD p default := by
        simpa [h] using @optimizeInPlace_frame fs cache_level ps nodes p hp
      rw [this]
      exact ⟨rfl, rfl, rfl⟩

/-- The cache loop runs through when the optimizer raises on no node of the list. -/
theorem optimizeInPlace_none : ∀ (ps : List Nat) (heap : List NodeInfo),
    (∀ n ∈ heap, ∃ n', optimizeCacheNodes fs n cache_level = .ok n') →
      (optimizeInPlace fs cache_level ps heap).1 = none
  | [], _, _ => rfl
  | i :: rest, heap, hok => by
    obtain ⟨n', hn'⟩ : ∃ n', optimizeCacheNodes fs (heap.getD i default) cache_level = .ok n' := by
      rw [List.getD_eq_getElem?_getD]
      cases h : heap[i]? with
      | none => exact ⟨_, optimizeCacheNodes_default⟩
      | some n => exact hok n (List.mem_iff_getElem?.2 ⟨i, h⟩)
    simp only [optimizeInPlace, hn']
    exact optimizeInPlace_none rest _ fun m hm =>
      (List.mem_or_eq_of_mem_set hm).elim (hok m) fun h => h ▸ ⟨n', optimizeCacheNodes_idem hn'⟩

/-- What the end of a call that returned did: the node list it left agrees with the old
one on the clustered fields, the clusters are read through it, and running the end
again on it returns the same. -/
theorem finishClusters_eq_ok {nodes nodes' : List NodeInfo} {clusters : List (List NodeRef)}
    {cs : List (List NodeInfo)}
    (h : finishClusters fs cache_level nodes clusters = (.ok cs, nodes')) :
    nodeRefs nodes' = nodeRefs nodes ∧
      cs = clusters.map (·.map fun r => nodes'.getD r.pos default) ∧
      finishClusters fs cache_level nodes' clusters = (.ok cs, nodes') := by
  unfold finishClusters at h ⊢
  by_cases hL : 0 ≤ cache_level
  · simp only [hL, if_true] at h ⊢
    cases hrun : optimizeInPlace fs cache_level (clusters.flatten.map NodeRef.pos) nodes with
    | mk res heap =>
      rw [hrun] at h
      cases res with
      | some e => simp at h
      | none =>
        simp only [Prod.mk.injEq, Except.ok.injEq] at h
        obtain ⟨rfl, rfl⟩ := h
        obtain ⟨hfix, hrefs⟩ := optimizeInPlace_rerun hrun
        exact ⟨hrefs, rfl, by rw [hfix]⟩
  · simp only [hL, if_false, Prod.mk.injEq, Except.ok.injEq] at h ⊢
    obtain ⟨rfl, rfl⟩ := h
    simp

/-- The end of a call leaves at every position a sub-permutation of the core tuples
that were there. -/
theorem finishClusters_subperm {nodes nodes' : List NodeInfo} {clusters : List (List NodeRef)}
    {r : Except PyExc (List (List NodeInfo))}
    (h : finishClusters fs cache_level nodes clusters = (r, nodes')) (p : Nat) :
    (nodes'.getD p default).coresList.Subperm (nodes.getD p default).coresList := by
  unfold finishClusters at h
  by_cases hL : 0 ≤ cache_level
  · simp only [hL, if_true] at h
    have hleft : nodes' = (optimizeInPlace fs cache_level (clusters.flatten.map NodeRef.pos) nodes).2 := by
      split at h <;> exact (Prod.mk.inj h).2.symm
    exact hleft ▸ optimizeInPlace_subperm _ _ p
  · simp only [hL, if_false, Prod.mk.injEq] at h
    exact h.2 ▸ List.Subperm.refl _

section Valid

variable {nodes : List NodeInfo} (hd : (nodes.map NodeInfo.id).Nodup)
  (hnn : ∀ n ∈ nodes, 0 ≤ n.id) (hm : ∃ m ∈ nodes, m.memory)
include hd hnn hm

/-- For distinct ids `≥ 0` and a memory node, a call is the end run on the closed form. -/
theorem getClusters_eq_finish :
    getClusters fs (some nodes) cache_level =
      finishClusters fs cache_level nodes (clusterSpec (nodeRefs nodes)) := by
  obtain ⟨m, hm, hmm⟩ := hm
  have hany : nodes.any (·.memory) = true := List.any_eq_true.2 ⟨m, hm, hmm⟩
  have hb := buildClusters_eq ((nodeRefs_ids_nodup hd).sublist ((List.filter_sublist _).map _))
    fun r hr => id_nonneg_of_mem_nodeRefs hnn (List.mem_filter.1 hr).1
  simp [getClusters, List.ne_nil_of_mem hm, hany, hb]

/-- When the call returns, its clusters are the closed form read through the node list
it left, which agrees with the input on the clustered fields. -/
theorem getClusters_eq_ok {nodes' : List NodeInfo} {cs : List (List NodeInfo)}
    (h : getClusters fs (some nodes) cache_level = (.ok cs, nodes')) :
    nodeRefs nodes' = nodeRefs nodes ∧
      cs = (clusterSpec (nodeRefs nodes)).map (·.map fun r => nodes'.getD r.pos default) := by
  rw [getClusters_eq_finish hd hnn hm] at h
  exact ⟨(finishClusters_eq_ok h).1, (finishClusters_eq_ok h).2.1⟩

/-- The call returns when the optimizer raises on no node of the list. -/
theorem getClusters_ok_of_optimizable
    (hopt : ∀ n ∈ nodes, ∃ n', optimizeCacheNodes fs n cache_level = .ok n') :
    ∃ cs, (getClusters fs (some nodes) cache_level).1 = .ok cs := by
  have hrun : (if 0 ≤ cache_level then
      optimizeInPlace fs cache_level ((clusterSpec (nodeRefs nodes)).flatten.map NodeRef.pos) nodes
      else (none, nodes)).1 = none := by
    split
    · exact optimizeInPlace_none _ _ hopt
    · rfl
  rw [getClusters_eq_finish hd hnn hm]
  simp only [finishClusters, hrun]
  exact ⟨_, rfl⟩

end Valid

/-- Below cache level 0, `get_clusters` returns on every list of nodes with ids `≥ 0`,
distinct or not. -/
theorem getClusters_ok_of_nonneg {nodes : List NodeInfo} (hnn : ∀ n ∈ nodes, 0 ≤ n.id)
    (hL : cache_level < 0) : ∃ cs, (getClusters fs (some nodes) cache_level).1 = .ok cs := by
  obtain ⟨clusters, hb⟩ := buildClusters_ok fun r hr =>
    id_nonneg_of_mem_nodeRefs hnn (List.mem_filter.1 hr).1
  simp only [getClusters, Option.elim]
  split_ifs
  · exact ⟨_, rfl⟩
  · exact ⟨_, rfl⟩
  · simp only [hb, finishClusters, not_le.2 hL, if_false]
    exact ⟨_, rfl⟩

/-! ## A second call -/

/-- `get_clusters` on the node list its first call rewrote returns the same clusters
and leaves the list as the first call left it. -/
theorem getClusters_rerun {nodes nodes' : List NodeInfo} {cs : List (List NodeInfo)}
    (h : getClusters fs (some nodes) cache_level = (.ok cs, nodes')) :
    getClusters fs (some nodes') cache_level = (.ok cs, nodes') := by
  simp only [getClusters, Option.elim] at h ⊢
  by_cases hne : nodes = []
  · simp only [hne, if_true, Prod.mk.injEq, Except.ok.injEq] at h
    obtain ⟨rfl, rfl⟩ := h
    simp
  by_cases hmem : nodes.any (·.memory)
  · simp only [hne, if_false, hmem, Bool.not_true, Bool.false_eq_true] at h
    cases hb : buildClusters (nodeRefs nodes) with
    | error e => simp [hb] at h
    | ok clusters =>
      simp only [hb] at h
      obtain ⟨hrefs, -, hfin⟩ := finishClusters_eq_ok h
      have hne' : nodes' ≠ [] := fun h' => hne (by
        simpa [h', nodeRefs] using (congrArg List.length hrefs).symm)
      simp [hne', any_memory_eq_of_nodeRefs hrefs, hmem, hrefs, hb, hfin]
  · simp only [hne, if_false, hmem, Bool.not_false, if_true, Prod.mk.injEq, Except.ok.injEq] at h
    obtain ⟨rfl, rfl⟩ := h
    simp [hne, hmem]

/-- Two cores of one node whose first CPUs sit on L0 caches `1` and `0`. -/
def cacheSwapTree : Snapshot where
  listDir p := if p = cpuDir 0 ++ ["cache"] ∨ p = cpuDir 2 ++ ["cache"] then some ["index0"] else none
  readFile p :=
    if p = cpuDir 0 ++ ["cache", "index0", "id"] then some "1\n"
    else if p = cpuDir 2 ++ ["cache", "index0", "id"] then some "0\n"
    else none
  maxListLength := 2 ^ 30

/-- The first call swaps the cores of node 0 and drops the uncached core of node 1; the
second call finds both nodes as the first left them. -/
theorem getClusters_rerun_cacheSwap :
    getClusters cacheSwapTree
        (some [⟨0, true, [[0, 1], [2, 3]], [10, 20]⟩, ⟨1, false, [[4]], [20, 10]⟩]) 0 =
      (.ok [[⟨0, true, [[2, 3], [0, 1]], [10, 20]⟩, ⟨1, false, [], [20, 10]⟩]],
        [⟨0, true, [[2, 3], [0, 1]], [10, 20]⟩, ⟨1, false, [], [20, 10]⟩]) ∧
    getClusters cacheSwapTree
        (some [⟨0, true, [[2, 3], [0, 1]], [10, 20]⟩, ⟨1, false, [], [20, 10]⟩]) 0 =
      (.ok [[⟨0, true, [[2, 3], [0, 1]], [10, 20]⟩, ⟨1, false, [], [20, 10]⟩]],
        [⟨0, true, [[2, 3], [0, 1]], [10, 20]⟩, ⟨1, false, [], [20, 10]⟩]) :=
  have h : getClusters cacheSwapTree
      (some [⟨0, true, [[0, 1], [2, 3]], [10, 20]⟩, ⟨1, false, [[4]], [20, 10]⟩]) 0 =
    (.ok [[⟨0, true, [[2, 3], [0, 1]], [10, 20]⟩, ⟨1, false, [], [20, 10]⟩]],
      [⟨0, true, [[2, 3], [0, 1]], [10, 20]⟩, ⟨1, false, [], [20, 10]⟩]) := rfl
  ⟨h, getClusters_rerun h⟩

/-! ## The clusters returned -/

/-- What `get_clusters` returns for a node list, nodes identified by id. -/
structure ClusterLaw (nodes : List NodeInfo) (cs : List (List NodeInfo)) : Prop where
  /-- One cluster per memory node, in input order, anchored at it. -/
  anchors : cs.map (fun c => c.head?.map NodeInfo.id) =
    (nodes.filter (·.memory)).map fun m => some m.id
  /-- Every clustered node is a node of the list, with its id, memory flag and distances. -/
  sources : ∀ c ∈ cs, ∀ x ∈ c,
    ∃ n ∈ nodes, n.id = x.id ∧ n.memory = x.memory ∧ n.distance = x.distance
  /-- Only nodes without memory follow the anchor. -/
  members : ∀ c ∈ cs, ∀ x ∈ c.tail, x.memory = false
  /-- A node without memory lies in one cluster when some memory node is within its
  distance vector, in none otherwise. -/
  placed : ∀ n ∈ nodes, n.memory = false →
    cs.countP (fun c => c.any (·.id == n.id)) =
      if ∃ m ∈ nodes, m.memory ∧ m.id < n.distance.length then 1 else 0
  /-- The members after the anchor are within its reach and come in non-decreasing
  distance to it, ties in input order. -/
  ordered : ∀ c ∈ cs, ∀ a ∈ c.head?, (∀ x ∈ c.tail, a.id < x.distance.length) ∧
    c.tail.Pairwise fun x y => x.distance.getD a.id.toNat 0 < y.distance.getD a.id.toNat 0 ∨
      (x.distance.getD a.id.toNat 0 = y.distance.getD a.id.toNat 0 ∧
        nodes.findIdx (·.id == x.id) < nodes.findIdx (·.id == y.id))

section Realized

/-! The closed form read through a node list whose objects agree with those of
`nodes`: `realize r` is the node object at `r.pos` as the call left it. -/

variable {nodes : List NodeInfo} {realize : NodeRef → NodeInfo}

/-- A returned cluster is the closed-form cluster of a memory node, read through
`realize`. -/
theorem mem_realize_clusterSpec {c : List NodeInfo}
    (hc : c ∈ (clusterSpec (nodeRefs nodes)).map (·.map realize)) :
    ∃ m ∈ (nodeRefs nodes).filter (·.memory), c = realize m ::
      (sorted (fun y => distOf y m.id)
        (assignedTo ((nodeRefs nodes).filter (·.memory)) (nodeRefs nodes) m.id)).map realize := by
  obtain ⟨_, hcl, rfl⟩ := List.mem_map.1 hc
  obtain ⟨m, hm, rfl⟩ := List.mem_map.1 hcl
  exact ⟨m, hm, rfl⟩

variable (hreal : ∀ r ∈ nodeRefs nodes, refAt r.pos (realize r) = r)
include hreal

theorem realize_fields {r : NodeRef} (hr : r ∈ nodeRefs nodes) :
    (realize r).id = r.id ∧ (realize r).memory = r.memory ∧ (realize r).distance = r.distance :=
  ⟨congrArg NodeRef.id (hreal r hr), congrArg NodeRef.memory (hreal r hr),
    congrArg NodeRef.distance (hreal r hr)⟩

theorem anchors_realize :
    ((clusterSpec (nodeRefs nodes)).map (·.map realize)).map (fun c => c.head?.map NodeInfo.id) =
      (nodes.filter (·.memory)).map fun m => some m.id := by
  rw [← filter_nodeRefs_map_fields (fun i _ _ => some i), clusterSpec, List.map_map,
    List.map_map]
  refine List.map_congr_left fun m hm => ?_
  simp [(realize_fields hreal (List.mem_filter.1 hm).1).1]

theorem sources_realize :
    ∀ c ∈ (clusterSpec (nodeRefs nodes)).map (·.map realize), ∀ x ∈ c,
      ∃ n ∈ nodes, n.id = x.id ∧ n.memory = x.memory ∧ n.distance = x.distance := by
  intro c hc x hx
  obtain ⟨cl, hcl, rfl⟩ := List.mem_map.1 hc
  obtain ⟨y, hy, rfl⟩ := List.mem_map.1 hx
  have hyr := mem_refs_of_mem_clusterSpec hcl hy
  obtain ⟨n, hn, h1, h2, h3⟩ := exists_of_mem_nodeRefs hyr
  obtain ⟨e1, e2, e3⟩ := realize_fields hreal hyr
  exact ⟨n, hn, h1.trans e1.symm, h2.trans e2.symm, h3.trans e3.symm⟩

theorem placed_realize (hd : (nodes.map NodeInfo.id).Nodup) (hnn : ∀ n ∈ nodes, 0 ≤ n.id)
    {n : NodeInfo} (hn : n ∈ nodes) (hnm : n.memory = false) :
    ((clusterSpec (nodeRefs nodes)).map (·.map realize)).countP (fun c => c.any (·.id == n.id)) =
      if ∃ m ∈ nodes, m.memory ∧ m.id < n.distance.length then 1 else 0 := by
  obtain ⟨i, hr⟩ := exists_refAt_mem hn
  have hany : ∀ cl ∈ clusterSpec (nodeRefs nodes),
      (cl.map realize).any (·.id == n.id) = cl.any (·.id == (refAt i n).id) := fun cl hcl => by
    rw [Bool.eq_iff_iff, List.any_eq_true, List.any_eq_true]
    simp only [List.mem_map, beq_iff_eq]
    constructor
    · rintro ⟨_, ⟨y, hy, rfl⟩, hid⟩
      exact ⟨y, hy, (realize_fields hreal (mem_refs_of_mem_clusterSpec hcl hy)).1 ▸ hid⟩
    · rintro ⟨y, hy, hid⟩
      exact ⟨_, ⟨y, hy, rfl⟩, (realize_fields hreal (mem_refs_of_mem_clusterSpec hcl hy)).1 ▸ hid⟩
  rw [List.countP_map, List.countP_congr fun cl hcl => by rw [Function.comp_apply, hany cl hcl],
    countP_clusterSpec (nodeRefs_ids_nodup hd) hr hnm]
  have hreach : (∀ m ∈ (nodeRefs nodes).filter (·.memory), distOf (refAt i n) m.id = ⊤) ↔
      ¬ ∃ m ∈ nodes, m.memory ∧ m.id < n.distance.length := by
    rw [← exists_memory_iff (P := fun t => t < n.distance.length)]
    simp only [not_exists, not_and]
    refine forall₂_congr fun m hm => ?_
    have := id_nonneg_of_mem_nodeRefs hnn (List.mem_filter.1 hm).1
    rw [← not_iff_not, not_not, ← ne_eq, ← WithTop.lt_top_iff_ne_top, distOf_lt_top]
    show m.id.toNat < n.distance.length ↔ _
    omega
  by_cases h : ∃ m ∈ nodes, m.memory ∧ m.id < n.distance.length
  · have : nearestOf (refAt i n) ((nodeRefs nodes).filter (·.memory)) ≠ none :=
      fun h' => hreach.1 (nearestOf_eq_none.1 h') h
    simp [h, this]
  · simp [h, nearestOf_eq_none.2 (hreach.2 h)]

theorem ordered_realize (hd : (nodes.map NodeInfo.id).Nodup) (hnn : ∀ n ∈ nodes, 0 ≤ n.id) :
    ∀ c ∈ (clusterSpec (nodeRefs nodes)).map (·.map realize), ∀ a ∈ c.head?,
      (∀ x ∈ c.tail, a.id < x.distance.length) ∧
      c.tail.Pairwise fun x y => x.distance.getD a.id.toNat 0 < y.distance.getD a.id.toNat 0 ∨
        (x.distance.getD a.id.toNat 0 = y.distance.getD a.id.toNat 0 ∧
          nodes.findIdx (·.id == x.id) < nodes.findIdx (·.id == y.id)) := by
  intro c hc a ha
  obtain ⟨m, hm, rfl⟩ := mem_realize_clusterSpec hc
  obtain rfl : realize m = a := by simpa using ha
  have hmr := (List.mem_filter.1 hm).1
  have hmid := id_nonneg_of_mem_nodeRefs hnn hmr
  have hreach : ∀ y ∈ sorted (fun y => distOf y m.id)
      (assignedTo ((nodeRefs nodes).filter (·.memory)) (nodeRefs nodes) m.id),
      m.id.toNat < (realize y).distance.length := fun y hy => by
    obtain ⟨hyr, -, hlt, -⟩ := member_clusterSpec hd hm hy
    rw [(realize_fields hreal hyr).2.2]
    exact distOf_lt_top.1 hlt
  rw [(realize_fields hreal hmr).1]
  refine ⟨fun x hx => ?_, ?_⟩
  · obtain ⟨y, hy, rfl⟩ := List.mem_map.1 hx
    have := hreach y hy
    omega
  · refine List.pairwise_map.2 (((tail_clusterSpec (nodeRefs_pairwise_pos nodes) m).2).imp_of_mem
      fun {x y} hx hy hxy => ?_)
    obtain ⟨hxr, -⟩ := member_clusterSpec hd hm hx
    obtain ⟨hyr, -⟩ := member_clusterSpec hd hm hy
    have ex := realize_fields hreal hxr
    have ey := realize_fields hreal hyr
    rw [ex.2.2, ey.2.2, ex.1, ey.1, findIdx_id_eq_pos hd hxr, findIdx_id_eq_pos hd hyr]
    rw [distOf_of_lt (ex.2.2 ▸ hreach x hx), distOf_of_lt (ey.2.2 ▸ hreach y hy)] at hxy
    simpa only [WithTop.coe_lt_coe, WithTop.coe_eq_coe] using hxy

/-- The closed form, read through a list whose objects agree with those of `nodes`,
keeps the law of `get_clusters`. -/
theorem clusterLaw_realize (hd : (nodes.map NodeInfo.id).Nodup) (hnn : ∀ n ∈ nodes, 0 ≤ n.id) :
    ClusterLaw nodes ((clusterSpec (nodeRefs nodes)).map (·.map realize)) where
  anchors := anchors_realize hreal
  sources := sources_realize hreal
  members c hc x hx := by
    obtain ⟨m, hm, rfl⟩ := mem_realize_clusterSpec hc
    obtain ⟨y, hy, rfl⟩ := List.mem_map.1 hx
    obtain ⟨hyr, hym, -⟩ := member_clusterSpec hd hm hy
    exact (realize_fields hreal hyr).2.1.trans hym
  placed _ hn hnm := placed_realize hreal hd hnn hn hnm
  ordered := ordered_realize hreal hd hnn

end Realized

/-- For nodes with distinct ids `≥ 0`, a memory node, and no node on which the cache
optimizer raises, `get_clusters` returns clusters that keep `ClusterLaw`. -/
theorem getClusters_law {nodes : List NodeInfo} (hd : (nodes.map NodeInfo.id).Nodup)
    (hnn : ∀ n ∈ nodes, 0 ≤ n.id) (hm : ∃ m ∈ nodes, m.memory)
    (hopt : ∀ n ∈ nodes, ∃ n', optimizeCacheNodes fs n cache_level = .ok n') :
    ∃ cs, (getClusters fs (some nodes) cache_level).1 = .ok cs ∧ ClusterLaw nodes cs := by
  obtain ⟨cs, hcs⟩ := getClusters_ok_of_optimizable hd hnn hm hopt
  obtain ⟨hrefs, rfl⟩ := getClusters_eq_ok hd hnn hm (Prod.ext hcs rfl)
  exact ⟨_, hcs, clusterLaw_realize (fun r hr => refAt_getD_of_mem (hrefs ▸ hr)) hd hnn⟩

/-- On the cache-swap tree every node is optimizable, so the law applies. -/
theorem getClusters_law_cacheSwap :
    ∃ cs, (getClusters cacheSwapTree
        (some [⟨0, true, [[0, 1], [2, 3]], [10, 20]⟩, ⟨1, false, [[4]], [20, 10]⟩]) 0).1 = .ok cs ∧
      ClusterLaw [⟨0, true, [[0, 1], [2, 3]], [10, 20]⟩, ⟨1, false, [[4]], [20, 10]⟩] cs :=
  getClusters_law (by decide) (by decide) ⟨_, List.mem_cons_self _ _, rfl⟩ fun n hn => by
    rcases List.mem_cons.1 hn with rfl | hn
    · exact ⟨_, rfl⟩
    · obtain rfl := List.mem_singleton.1 hn
      exact ⟨_, rfl⟩

/-- A CPU whose L0 cache id file is empty. -/
def badCacheIdTree : Snapshot where
  listDir p := if p = cpuDir 0 ++ ["cache"] then some ["index0"] else none
  readFile p := if p = cpuDir 0 ++ ["cache", "index0", "id"] then some "" else none
  maxListLength := 2 ^ 30

/-- `int('')` in `_get_cache_info` raises `ValueError`, which neither the optimizer nor
`get_clusters` catches: the call on one memory node raises. -/
theorem getClusters_badCacheId :
    getClusters badCacheIdTree (some [⟨0, true, [[0]], [10]⟩]) 0 =
      (.error .valueError, [⟨0, true, [[0]], [10]⟩]) := rfl

/-! ## The nearest anchor -/

/-- A node placed after the anchor `a` has a distance entry for `a`, is at least as near
to `a` as to every memory node within its distance vector, and on a tie `a` comes no
later in the input. -/
theorem getClusters_nearest {nodes : List NodeInfo} {cs : List (List NodeInfo)}
    (hd : (nodes.map NodeInfo.id).Nodup) (hnn : ∀ n ∈ nodes, 0 ≤ n.id)
    (hm : ∃ m ∈ nodes, m.memory) (h : (getClusters fs (some nodes) cache_level).1 = .ok cs)
    {c : List NodeInfo} (hc : c ∈ cs) {a n : NodeInfo} (ha : c.head? = some a) (hn : n ∈ c.tail) :
    a.id < n.distance.length ∧ ∀ m ∈ nodes, m.memory → m.id < n.distance.length →
      n.distance.getD a.id.toNat 0 ≤ n.distance.getD m.id.toNat 0 ∧
      (n.distance.getD a.id.toNat 0 = n.distance.getD m.id.toNat 0 →
        nodes.findIdx (·.id == a.id) ≤ nodes.findIdx (·.id == m.id)) := by
  obtain ⟨hrefs, rfl⟩ := getClusters_eq_ok hd hnn hm (Prod.ext h rfl)
  have hreal := fun r (hr : r ∈ nodeRefs nodes) => refAt_getD_of_mem (hrefs ▸ hr)
  obtain ⟨m₀, hm₀, rfl⟩ := mem_realize_clusterSpec hc
  obtain rfl := Option.some.inj ha.symm
  obtain ⟨y, hy, rfl⟩ := List.mem_map.1 hn
  obtain ⟨hyr, -, hlt, hleast⟩ := member_clusterSpec hd hm₀ hy
  have hm₀r := (List.mem_filter.1 hm₀).1
  have hm₀nn := id_nonneg_of_mem_nodeRefs hnn hm₀r
  rw [(realize_fields hreal hm₀r).1, (realize_fields hreal hyr).2.2, findIdx_id_eq_pos hd hm₀r]
  have hreach := distOf_lt_top.1 hlt
  refine ⟨by omega, fun m hm hmm hmlt => ?_⟩
  obtain ⟨i, hi⟩ := exists_refAt_mem hm
  obtain ⟨hle, htie⟩ : distOf y m₀.id ≤ distOf y m.id ∧
      (distOf y m₀.id = distOf y m.id → m₀.pos ≤ i) := hleast _ (List.mem_filter.2 ⟨hi, hmm⟩)
  have hmnn : 0 ≤ m.id := hnn m hm
  rw [show nodes.findIdx (·.id == m.id) = i from findIdx_id_eq_pos hd hi]
  rw [distOf_of_lt hreach, distOf_of_lt (show m.id.toNat < y.distance.length by omega)] at hle htie
  exact ⟨WithTop.coe_le_coe.1 hle, fun he => htie (congrArg _ he)⟩

/-- Node 2 is as far from node 0 as from node 1, so it joins node 0, the first memory
node in the list. -/
def tieNodes : List NodeInfo :=
  [⟨0, true, [], [10, 20, 20]⟩, ⟨1, true, [], [20, 10, 20]⟩, ⟨2, false, [], [20, 20, 10]⟩]

theorem getClusters_nearest_tie :
    (getClusters ⟨fun _ => none, fun _ => none, 0⟩ (some tieNodes) (-1)).1 =
      .ok [[⟨0, true, [], [10, 20, 20]⟩, ⟨2, false, [], [20, 20, 10]⟩], [⟨1, true, [], [20, 10, 20]⟩]] ∧
    (0 : Int) < ([20, 20, 10] : List Int).length ∧
    ∀ m ∈ tieNodes, m.memory → m.id < ([20, 20, 10] : List Int).length →
      ([20, 20, 10] : List Int).getD (0 : Int).toNat 0 ≤ ([20, 20, 10] : List Int).getD m.id.toNat 0 ∧
      (([20, 20, 10] : List Int).getD (0 : Int).toNat 0 = ([20, 20, 10] : List Int).getD m.id.toNat 0 →
        tieNodes.findIdx (·.id == 0) ≤ tieNodes.findIdx (·.id == m.id)) :=
  have h : (getClusters ⟨fun _ => none, fun _ => none, 0⟩ (some tieNodes) (-1)).1 =
      .ok [[⟨0, true, [], [10, 20, 20]⟩, ⟨2, false, [], [20, 20, 10]⟩],
        [⟨1, true, [], [20, 10, 20]⟩]] := rfl
  ⟨h, getClusters_nearest (by decide) (by decide) (by decide) h (List.mem_cons_self _ _) rfl
    (List.mem_singleton_self _)⟩

end TopologyPinning.Clusters
