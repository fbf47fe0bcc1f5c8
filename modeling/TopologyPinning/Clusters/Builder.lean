import TopologyPinning.Topology.Nodes
import TopologyPinning.Clusters.CacheOptimizer

/-!
# The cluster builder

`getClusters` is `get_clusters`. It groups the nodes around the memory nodes: one
cluster per memory node (a dict keyed by `str(id)`), every other node appended to
the cluster of the memory node nearest to it, the members after the anchor sorted
by their distance to it, and, for a cache level `L ≥ 0`, every clustered node
passed through the cache optimizer.

Python passes node objects by reference and the optimizer rewrites them in place.
The model therefore clusters `NodeRef`s, which record a node's position in the
caller's list with the three fields the clustering reads, and runs the optimizer
over that list by position. `getClusters` returns what the call returns or raises
together with the caller's list as it stands afterwards.
-/

set_option autoImplicit false

namespace TopologyPinning.Clusters

open TopologyPinning.Python TopologyPinning.Topology

/-- A node object as the clustering sees it: its position in the node list and the
fields `id`, `memory` and `distance`. -/
structure NodeRef where
  pos : Nat
  id : Int
  memory : Bool
  distance : List Int
  deriving DecidableEq, Repr

/-- The node object at position `pos`. -/
def refAt (pos : Nat) (n : NodeInfo) : NodeRef := ⟨pos, n.id, n.memory, n.distance⟩

/-- The node objects of a list, by position. -/
def nodeRefs (nodes : List NodeInfo) : List NodeRef :=
  nodes.enum.map fun p => refAt p.1 p.2

/-- `x.distance[target] if target < len(x.distance) else float('inf')`; a negative
`target` indexes from the end and raises `IndexError` below `-len(x.distance)`. -/
def distanceTo (x : NodeRef) (target : Int) : Except PyExc (WithTop Int) :=
  if target < x.distance.length then (fun d : Int => (d : WithTop Int)) <$> getItem x.distance target
  else .ok ⊤

/-- The scan of the nearest-anchor loop over `(id, distance)` pairs: a distance
strictly below `min_dist` makes its id the closest one. An unreachable anchor has
distance `⊤` and never passes. -/
def closestScan : List (Int × WithTop Int) → WithTop Int → Option Int → Option Int
  | [], _, closest => closest
  | (id, dist) :: rest, min_dist, closest =>
    if dist < min_dist then closestScan rest dist (some id) else closestScan rest min_dist closest

/-- The inner loop of the assignment: the id of the memory node nearest to `node`,
the first one on ties. The distances are read first, in loop order; reading has no
other effect, so the first failing read raises just as in the loop. -/
def nearestMemory (node : NodeRef) (memory_nodes : List NodeRef) : Except PyExc (Option Int) := do
  let dists ← memory_nodes.mapM fun m => distanceTo node m.id
  pure (closestScan ((memory_nodes.map NodeRef.id).zip dists) ⊤ none)

/-- The assignment loop: every node without memory goes to the cluster of its
nearest memory node, if it has one. -/
def assignNodes (memory_nodes : List NodeRef) :
    List NodeRef → List (Int × List NodeRef) → Except PyExc (List (Int × List NodeRef))
  | [], clusters => .ok clusters
  | node :: rest, clusters =>
    if node.memory then assignNodes memory_nodes rest clusters
    else do
      match ← nearestMemory node memory_nodes with
      | none => assignNodes memory_nodes rest clusters
      | some k => assignNodes memory_nodes rest (← dictAppend clusters k node)

/-- `cluster[1:] = sorted(cluster[1:], key=...)` for a cluster of two or more nodes:
the members after the anchor, stably by their distance to it. -/
def sortCluster : List NodeRef → Except PyExc (List NodeRef)
  | memory_node :: x :: rest => do
    let keyed ← (x :: rest).mapM fun y => do
      let k ← distanceTo y memory_node.id
      pure (k, y)
    pure (memory_node :: (sorted Prod.fst keyed).map Prod.snd)
  | cluster => .ok cluster

/-- The clustering part of `get_clusters`, for a list with a memory node: the dict
of anchors, the assignment loop and the sorting loop. -/
def buildClusters (nodes : List NodeRef) : Except PyExc (List (List NodeRef)) := do
  let memory_nodes := nodes.filter (·.memory)
  let clusters := memory_nodes.foldl (fun d m => dictSet d m.id [m]) []
  let clusters ← assignNodes memory_nodes nodes clusters
  (clusters.map Prod.snd).mapM sortCluster

/-- The cache loop of `get_clusters`: `optimize_cache_nodes` on the node objects at
the positions `refs`, in order, each rewriting its object in place. An exception
stops the loop and leaves the earlier rewrites in place. -/
def optimizeInPlace (fs : Snapshot) (cache_level : Int) :
    List Nat → List NodeInfo → Option PyExc × List NodeInfo
  | [], heap => (none, heap)
  | i :: rest, heap =>
    match optimizeCacheNodes fs (heap.getD i default) cache_level with
    | .ok node => optimizeInPlace fs cache_level rest (heap.set i node)
    | .error e => (some e, heap)

/-- The end of `get_clusters` once the clusters are built: the cache loop when
`optimize_cache_level >= 0`, then `list(clusters.values())`, the node objects as
they stand after the loop. -/
def finishClusters (fs : Snapshot) (optimize_cache_level : Int) (nodes : List NodeInfo)
    (clusters : List (List NodeRef)) : Except PyExc (List (List NodeInfo)) × List NodeInfo :=
  let run := if 0 ≤ optimize_cache_level then
      optimizeInPlace fs optimize_cache_level (clusters.flatten.map NodeRef.pos) nodes
    else (none, nodes)
  match run.1 with
  | some e => (.error e, run.2)
  | none => (.ok (clusters.map (·.map fun r => run.2.getD r.pos default)), run.2)

/-- `get_clusters(nodes, optimize_cache_level)`: what the call returns or raises, and
the node list it worked on as it stands afterwards. With `nodes = none` the list is
read by `get_nodes_info`. -/
def getClusters (fs : Snapshot) (nodes : Option (List NodeInfo)) (optimize_cache_level : Int) :
    Except PyExc (List (List NodeInfo)) × List NodeInfo :=
  match nodes.elim (getNodesInfo fs) .ok with
  | .error e => (.error e, [])
  | .ok nodes =>
    if nodes = [] then (.ok [], nodes)
    else if !nodes.any (·.memory) then (.ok [nodes], nodes)
    else
      match buildClusters (nodeRefs nodes) with
      | .error e => (.error e, nodes)
      | .ok clusters => finishClusters fs optimize_cache_level nodes clusters

/-! ## The cache loop

The loop runs the optimizer once per listed position. The optimizer being
idempotent, a position listed twice ends as if listed once. -/

section CacheLoop

variable {fs : Snapshot} {cache_level : Int}

theorem set_getD_self (l : List NodeInfo) (p : Nat) : l.set p (l.getD p default) = l := by
  apply List.ext_getElem?
  intro j
  by_cases h : p = j
  · subst h
    by_cases hp : p < l.length
    · simp [hp]
    · simp [List.set_eq_of_length_le (not_lt.1 hp)]
  · simp [List.getElem?_set_ne h]

theorem optimizeInPlace_length : ∀ (ps : List Nat) (heap : List NodeInfo),
    (optimizeInPlace fs cache_level ps heap).2.length = heap.length
  | [], _ => rfl
  | i :: rest, heap => by
    simp only [optimizeInPlace]
    split
    · rw [optimizeInPlace_length rest, List.length_set]
    · rfl

/-- The loop leaves the objects at other positions alone. -/
theorem optimizeInPlace_frame : ∀ (ps : List Nat) (heap : List NodeInfo) (p : Nat), p ∉ ps →
    (optimizeInPlace fs cache_level ps heap).2.getD p default = heap.getD p default
  | [], _, _, _ => rfl
  | i :: rest, heap, p, hp => by
    simp only [optimizeInPlace]
    split
    · rw [optimizeInPlace_frame rest _ p (fun h => hp (List.mem_cons_of_mem _ h))]
      simp [List.getElem?_set_ne (Ne.symm (List.ne_of_not_mem_cons hp))]
    · rfl

/-- A loop that ran through holds, at every listed position, the optimizer's result
for the object that was there before. -/
theorem optimizeInPlace_ok : ∀ (ps : List Nat) (heap : List NodeInfo),
    (optimizeInPlace fs cache_level ps heap).1 = none → ∀ p ∈ ps, p < heap.length →
      optimizeCacheNodes fs (heap.getD p default) cache_level =
        .ok ((optimizeInPlace fs cache_level ps heap).2.getD p default)
  | [], _, _, p, hp, _ => absurd hp (List.not_mem_nil _)
  | i :: rest, heap, h, p, hp, hlt => by
    cases hn : optimizeCacheNodes fs (heap.getD i default) cache_level with
    | error e => simp only [optimizeInPlace, hn] at h; simp at h
    | ok n =>
      simp only [optimizeInPlace, hn] at h ⊢
      have hlt' : p < (heap.set i n).length := by simpa using hlt
      by_cases hpi : p = i
      · subst hpi
        have hset : (heap.set p n).getD p default = n := by simp [hlt]
        by_cases hmem : p ∈ rest
        · have := optimizeInPlace_ok rest (heap.set p n) h p hmem hlt'
          rwa [hset, optimizeCacheNodes_idem hn, ← hn] at this
        · rw [optimizeInPlace_frame rest _ p hmem, hset, hn]
      · have hmem : p ∈ rest := (List.mem_cons.1 hp).resolve_left hpi
        have := optimizeInPlace_ok rest (heap.set i n) h p hmem hlt'
        rwa [List.getD_eq_getElem?_getD, List.getElem?_set_ne (Ne.symm hpi),
          ← List.getD_eq_getElem?_getD] at this

/-- An exception of the loop is the optimizer's exception on one listed object. -/
theorem optimizeInPlace_error : ∀ (ps : List Nat) (heap : List NodeInfo) (e : PyExc),
    (optimizeInPlace fs cache_level ps heap).1 = some e → ps.Nodup →
      ∃ p ∈ ps, optimizeCacheNodes fs (heap.getD p default) cache_level = .error e
  | [], _, _, h, _ => by simp [optimizeInPlace] at h
  | i :: rest, heap, e, h, hnd => by
    cases hn : optimizeCacheNodes fs (heap.getD i default) cache_level with
    | error e' =>
      simp only [optimizeInPlace, hn, Option.some.injEq] at h
      exact ⟨i, List.mem_cons_self _ _, h ▸ hn⟩
    | ok n =>
      simp only [optimizeInPlace, hn] at h
      obtain ⟨p, hp, hpe⟩ := optimizeInPlace_error rest _ e h (List.nodup_cons.1 hnd).2
      have hpi : i ≠ p := fun hip => (List.nodup_cons.1 hnd).1 (hip ▸ hp)
      refine ⟨p, List.mem_cons_of_mem _ hp, ?_⟩
      rwa [List.getD_eq_getElem?_getD, List.getElem?_set_ne hpi,
        ← List.getD_eq_getElem?_getD] at hpe

/-- The loop only drops and reorders core tuples: at every position the tuples left are
a sub-permutation of the tuples there before. -/
theorem optimizeInPlace_subperm : ∀ (ps : List Nat) (heap : List NodeInfo) (p : Nat),
    ((optimizeInPlace fs cache_level ps heap).2.getD p default).coresList.Subperm
      (heap.getD p default).coresList
  | [], _, _ => List.Subperm.refl _
  | i :: rest, heap, p => by
    simp only [optimizeInPlace]
    split
    · rename_i node hn
      refine (optimizeInPlace_subperm rest _ p).trans ?_
      by_cases hpi : p = i
      · subst hpi
        by_cases hlt : p < heap.length
        · simpa [hlt] using optimizeCacheNodes_subperm hn
        · rw [List.set_eq_of_length_le (not_lt.1 hlt)]
      · rw [List.getD_eq_getElem?_getD, List.getElem?_set_ne (Ne.symm hpi),
          ← List.getD_eq_getElem?_getD]
    · exact List.Subperm.refl _

/-- On objects the optimizer leaves unchanged the loop changes nothing. -/
theorem optimizeInPlace_fixed : ∀ (ps : List Nat) (heap : List NodeInfo),
    (∀ p ∈ ps, optimizeCacheNodes fs (heap.getD p default) cache_level =
      .ok (heap.getD p default)) → optimizeInPlace fs cache_level ps heap = (none, heap)
  | [], _, _ => rfl
  | i :: rest, heap, h => by
    simp only [optimizeInPlace, h i (List.mem_cons_self _ _), set_getD_self]
    exact optimizeInPlace_fixed rest heap fun p hp => h p (List.mem_cons_of_mem _ hp)

end CacheLoop

/-! ## The clustering on non-negative distinct memory ids

For memory nodes with distinct ids `≥ 0`, no read of a distance raises and every
anchor has its own dict entry. `buildClusters_eq` then gives the clusters in closed
form: for each memory node `m`, in input order, `m` followed by the nodes without
memory whose nearest memory node is `m`, sorted stably by their distance to `m`. -/

/-- The distance from `x` to the node with id `t ≥ 0`, `⊤` when `x` has no entry. -/
def distOf (x : NodeRef) (t : Int) : WithTop Int :=
  match x.distance[t.toNat]? with
  | some d => d
  | none => ⊤

/-- The id of the memory node of `memory_nodes` nearest to `x`. -/
def nearestOf (x : NodeRef) (memory_nodes : List NodeRef) : Option Int :=
  closestScan (memory_nodes.map fun m => (m.id, distOf x m.id)) ⊤ none

/-- The nodes without memory whose nearest memory node has id `k`, in input order. -/
def assignedTo (memory_nodes nodes : List NodeRef) (k : Int) : List NodeRef :=
  nodes.filter fun x => !x.memory && nearestOf x memory_nodes == some k

/-- The clusters of `buildClusters`, in closed form. -/
def clusterSpec (nodes : List NodeRef) : List (List NodeRef) :=
  (nodes.filter (·.memory)).map fun m =>
    m :: sorted (fun y => distOf y m.id) (assignedTo (nodes.filter (·.memory)) nodes m.id)

theorem distanceTo_of_nonneg (x : NodeRef) {t : Int} (ht : 0 ≤ t) :
    distanceTo x t = .ok (distOf x t) := by
  unfold distanceTo distOf getItem
  have hnt : ¬ t < 0 := by omega
  by_cases h : t < x.distance.length
  · have hlt : t.toNat < x.distance.length := by omega
    simp [h, hnt, List.getElem?_eq_getElem hlt, ht]
  · have hge : x.distance.length ≤ t.toNat := by omega
    simp [h, List.getElem?_eq_none hge]

theorem nearestMemory_eq (x : NodeRef) {memory_nodes : List NodeRef}
    (hnn : ∀ m ∈ memory_nodes, 0 ≤ m.id) :
    nearestMemory x memory_nodes = .ok (nearestOf x memory_nodes) := by
  simp only [nearestMemory, mapM_eq_ok_map fun m hm => distanceTo_of_nonneg x (hnn m hm),
    ok_bind, pure_eq, nearestOf, List.zip_map', id]

/-- The scan returns one of the ids it was given, or its starting value. -/
theorem closestScan_mem {l : List (Int × WithTop Int)} :
    ∀ {min_dist closest k}, closestScan l min_dist closest = some k →
      k ∈ l.map Prod.fst ∨ closest = some k := by
  induction l with
  | nil => intro _ _ _ h; exact .inr h
  | cons p rest ih =>
    intro min_dist closest k h
    simp only [closestScan] at h
    split at h
    · rcases ih h with h | h
      · exact .inl (List.mem_cons_of_mem _ h)
      · cases h; exact .inl (List.mem_cons_self _ _)
    · rcases ih h with h | h
      · exact .inl (List.mem_cons_of_mem _ h)
      · exact .inr h

/-- What the nearest-anchor scan finds: either no distance below `min_dist`, and the
scan keeps `closest`, or an entry `(k, d)` with `d` below `min_dist`, strictly below
every distance before it and at most every distance after it. -/
theorem closestScan_spec (l : List (Int × WithTop Int)) :
    ∀ min_dist closest,
      (closestScan l min_dist closest = closest ∧ ∀ e ∈ l, min_dist ≤ e.2) ∨
      ∃ pre k d post, l = pre ++ (k, d) :: post ∧ d < min_dist ∧ (∀ e ∈ pre, d < e.2) ∧
        (∀ e ∈ post, d ≤ e.2) ∧ closestScan l min_dist closest = some k := by
  induction l with
  | nil => intro _ _; exact .inl ⟨rfl, fun _ h => absurd h (List.not_mem_nil _)⟩
  | cons e rest ih =>
    intro min_dist closest
    obtain ⟨k₀, d₀⟩ := e
    by_cases hd : d₀ < min_dist
    · simp only [closestScan, hd, if_true]
      rcases ih d₀ (some k₀) with ⟨hs, hall⟩ | ⟨pre, k, d, post, rfl, hlt, hpre, hpost, hs⟩
      · exact .inr ⟨[], k₀, d₀, rest, rfl, hd, fun _ h => absurd h (List.not_mem_nil _), hall, hs⟩
      · exact .inr ⟨(k₀, d₀) :: pre, k, d, post, rfl, hlt.trans hd,
          List.forall_mem_cons.2 ⟨hlt, hpre⟩, hpost, hs⟩
    · have hle : min_dist ≤ d₀ := le_of_not_lt hd
      simp only [closestScan, hd, if_false]
      rcases ih min_dist closest with ⟨hs, hall⟩ | ⟨pre, k, d, post, rfl, hlt, hpre, hpost, hs⟩
      · exact .inl ⟨hs, List.forall_mem_cons.2 ⟨hle, hall⟩⟩
      · exact .inr ⟨(k₀, d₀) :: pre, k, d, post, rfl, hlt,
          List.forall_mem_cons.2 ⟨lt_of_lt_of_le hlt hle, hpre⟩, hpost, hs⟩

theorem nearestOf_mem {x : NodeRef} {memory_nodes : List NodeRef} {k : Int}
    (h : nearestOf x memory_nodes = some k) : ∃ m ∈ memory_nodes, m.id = k := by
  rcases closestScan_mem h with h | h
  · simpa using h
  · cases h

/-- The anchor dict: with distinct ids every memory node gets a fresh entry. -/
theorem foldl_dictSet_eq :
    ∀ (ms : List NodeRef) (d : List (Int × List NodeRef)), (ms.map NodeRef.id).Nodup →
      (∀ m ∈ ms, m.id ∉ d.map Prod.fst) →
      ms.foldl (fun d m => dictSet d m.id [m]) d = d ++ ms.map fun m => (m.id, [m])
  | [], d, _, _ => by simp
  | m :: ms, d, hnd, hfresh => by
    rw [List.foldl_cons, dictSet_fresh (hfresh m (List.mem_cons_self _ _)),
      foldl_dictSet_eq ms _ (List.nodup_cons.1 hnd).2]
    · simp
    · intro m' hm'
      simp only [List.map_append, List.mem_append, List.map_cons, List.map_nil, List.mem_singleton,
        not_or]
      refine ⟨hfresh m' (List.mem_cons_of_mem _ hm'), fun h => (List.nodup_cons.1 hnd).1 ?_⟩
      exact h ▸ List.mem_map_of_mem _ hm'

/-- Every memory node has an entry in the anchor dict. -/
theorem keys_foldl_dictSet : ∀ (ms : List NodeRef) (d : List (Int × List NodeRef)) (k : Int),
    k ∈ d.map Prod.fst ∨ k ∈ ms.map NodeRef.id →
      k ∈ (ms.foldl (fun d m => dictSet d m.id [m]) d).map Prod.fst
  | [], _, _, h => by simpa using h
  | m :: ms, d, k, h => keys_foldl_dictSet ms _ k <| by
    rw [keys_dictSet]
    simp only [List.map_cons, List.mem_cons] at h
    tauto

/-- Every entry of the anchor dict is one memory node, the last with its id. -/
theorem values_foldl_dictSet (P : NodeRef → Prop) :
    ∀ (ms : List NodeRef) (d : List (Int × List NodeRef)), (∀ m ∈ ms, P m) →
      (∀ p ∈ d, ∃ m, p.2 = [m] ∧ P m) →
      ∀ p ∈ ms.foldl (fun d m => dictSet d m.id [m]) d, ∃ m, p.2 = [m] ∧ P m
  | [], _, _, hd => hd
  | m :: ms, d, hms, hd => values_foldl_dictSet P ms _ (fun m' h => hms m' (List.mem_cons_of_mem _ h))
      fun p hp => (mem_dictSet hp).elim (hd p) fun h => ⟨m, by rw [h], hms m (List.mem_cons_self _ _)⟩

theorem assignNodes_eq {ms : List NodeRef} (hnn : ∀ m ∈ ms, 0 ≤ m.id) :
    ∀ (xs : List NodeRef) (d : List (Int × List NodeRef)), (∀ m ∈ ms, m.id ∈ d.map Prod.fst) →
      assignNodes ms xs d = .ok (d.map fun p => (p.1, p.2 ++ assignedTo ms xs p.1))
  | [], d, _ => by simp [assignNodes, assignedTo]
  | x :: rest, d, hkeys => by
    cases hx : x.memory
    · simp only [assignNodes, hx, Bool.false_eq_true, if_false, nearestMemory_eq x hnn, ok_bind]
      cases hn : nearestOf x ms with
      | none =>
        simp only [assignNodes_eq hnn rest d hkeys, assignedTo, List.filter_cons, hx, hn]
        rfl
      | some k =>
        obtain ⟨m, hm, rfl⟩ := nearestOf_mem hn
        have hkeys' : ∀ m' ∈ ms, m'.id ∈ (d.map fun p =>
            if p.1 = m.id then (m.id, p.2 ++ [x]) else p).map Prod.fst := fun m' hm' => by
          rw [keys_update d m.id fun p => p.2 ++ [x]]
          exact hkeys m' hm'
        simp only [dictAppend_mem (hkeys m hm), ok_bind, assignNodes_eq hnn rest _ hkeys',
          List.map_map]
        congr 1
        refine List.map_congr_left fun p _ => ?_
        by_cases hp : p.1 = m.id
        · simp [hp, assignedTo, hx, hn]
        · simp [hp, assignedTo, hx, hn, Ne.symm hp]
    · simp only [assignNodes, hx, if_true, assignNodes_eq hnn rest d hkeys, assignedTo,
        List.filter_cons, Bool.not_true, Bool.false_and]
      rfl

theorem sortCluster_eq {m : NodeRef} (hm : 0 ≤ m.id) (xs : List NodeRef) :
    sortCluster (m :: xs) = .ok (m :: sorted (fun y => distOf y m.id) xs) := by
  cases xs with
  | nil => rfl
  | cons x rest =>
    simp only [sortCluster, distanceTo_of_nonneg _ hm, ok_bind, pure_eq]
    rw [mapM_eq_ok_map (k := fun y => (distOf y m.id, y)) (fun _ _ => rfl), ok_bind,
      sorted_keyed]

/-- `buildClusters` in closed form, for distinct non-negative memory ids. -/
theorem buildClusters_eq {nodes : List NodeRef}
    (hd : ((nodes.filter (·.memory)).map NodeRef.id).Nodup)
    (hnn : ∀ m ∈ nodes.filter (·.memory), 0 ≤ m.id) :
    buildClusters nodes = .ok (clusterSpec nodes) := by
  have hfold := foldl_dictSet_eq (nodes.filter (·.memory)) [] hd (by simp)
  have hkeys : ∀ m ∈ nodes.filter (·.memory),
      m.id ∈ ((nodes.filter (·.memory)).map fun m => (m.id, [m])).map Prod.fst := fun m hm => by
    simpa using List.mem_map_of_mem NodeRef.id hm
  simp only [buildClusters, hfold, List.nil_append, assignNodes_eq hnn _ _ hkeys, ok_bind,
    List.map_map]
  exact mapM_map_eq_ok fun m hm => sortCluster_eq (hnn m hm) _

/-- The clustering raises nothing when the memory ids are `≥ 0`, distinct or not: a
repeated id shares one dict entry, and every read of a distance is in range or `inf`. -/
theorem buildClusters_ok {nodes : List NodeRef} (hnn : ∀ m ∈ nodes.filter (·.memory), 0 ≤ m.id) :
    ∃ clusters, buildClusters nodes = .ok clusters := by
  have hkeys : ∀ m ∈ nodes.filter (·.memory), m.id ∈
      ((nodes.filter (·.memory)).foldl (fun d m => dictSet d m.id [m]) []).map Prod.fst :=
    fun m hm => keys_foldl_dictSet _ [] _ (.inr (List.mem_map_of_mem _ hm))
  have hvals := values_foldl_dictSet (fun m => 0 ≤ m.id) _ [] hnn (by simp)
  simp only [buildClusters, assignNodes_eq hnn _ _ hkeys, ok_bind]
  refine mapM_ok_of_forall fun c hc => ?_
  obtain ⟨p, hp, rfl⟩ := List.mem_map.1 (List.map_map .. ▸ hc)
  obtain ⟨m, hpm, hm⟩ := hvals p hp
  exact ⟨_, by simp only [Function.comp, hpm, List.singleton_append]; exact sortCluster_eq hm _⟩

end TopologyPinning.Clusters
