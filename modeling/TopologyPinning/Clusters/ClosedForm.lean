import TopologyPinning.Clusters.Builder

/-!
# What the closed form of the clustering says

`buildClusters_eq` gives the clusters of `get_clusters` as `clusterSpec`. This module
reads off what that closed form promises, over the node objects of a list with
distinct ids:

- `nearestOf_eq_some` / `nearestOf_eq_none`: the anchor scan picks a memory node
  strictly nearer than every earlier one and no farther than every later one, and
  picks none exactly when no memory node is within the distance vector;
- `nearestOf_least`: the anchor of a placed node is at least as near as every other
  memory node, and on a tie it comes first in the input;
- `tail_clusterSpec`: the members after an anchor are the nodes without memory
  assigned to it, in non-decreasing distance, ties in input order;
- `countP_clusterSpec`: a node without memory lies in one cluster when its scan
  finds an anchor and in none otherwise.
-/

set_option autoImplicit false

namespace TopologyPinning.Clusters

open TopologyPinning.Python TopologyPinning.Topology

/-! ## The node objects of a list -/

/-- Any function of the three clustered fields reads the same on the node objects as
on the nodes. -/
theorem nodeRefs_map_fields {β : Type} (f : Int → Bool → List Int → β) (l : List NodeInfo) :
    (nodeRefs l).map (fun r => f r.id r.memory r.distance) =
      l.map fun n => f n.id n.memory n.distance := by
  rw [nodeRefs, List.map_map]
  conv_rhs => rw [← List.enum_map_snd l, List.map_map]
  rfl

/-- The memory nodes' objects, read through the three fields, are the memory nodes. -/
theorem filter_nodeRefs_map_fields {β : Type} (f : Int → Bool → List Int → β) (l : List NodeInfo) :
    ((nodeRefs l).filter (·.memory)).map (fun r => f r.id r.memory r.distance) =
      (l.filter (·.memory)).map fun n => f n.id n.memory n.distance := by
  have h := congrArg (fun L => (L.filter (·.2.1)).map fun t => f t.1 t.2.1 t.2.2)
    (nodeRefs_map_fields (fun i m d => (i, m, d)) l)
  simpa only [List.filter_map, List.map_map, Function.comp_def] using h

theorem mem_nodeRefs {l : List NodeInfo} {r : NodeRef} :
    r ∈ nodeRefs l ↔ ∃ n, l[r.pos]? = some n ∧ refAt r.pos n = r := by
  simp only [nodeRefs, List.mem_map, List.mem_enum_iff_getElem?, Prod.exists]
  constructor
  · rintro ⟨i, n, hn, rfl⟩
    exact ⟨n, hn, rfl⟩
  · rintro ⟨n, hn, hr⟩
    exact ⟨r.pos, n, hn, hr⟩

/-- A node object reads its fields off the node at its position. -/
theorem refAt_getD_of_mem {l : List NodeInfo} {r : NodeRef} (hr : r ∈ nodeRefs l) :
    refAt r.pos (l.getD r.pos default) = r := by
  obtain ⟨n, hn, hr⟩ := mem_nodeRefs.1 hr
  rwa [List.getD_eq_getElem?_getD, hn, Option.getD_some]

/-- A node object carries the fields of a node of the list. -/
theorem exists_of_mem_nodeRefs {l : List NodeInfo} {r : NodeRef} (hr : r ∈ nodeRefs l) :
    ∃ n ∈ l, n.id = r.id ∧ n.memory = r.memory ∧ n.distance = r.distance := by
  obtain ⟨n, hn, hr⟩ := mem_nodeRefs.1 hr
  exact ⟨n, List.mem_iff_getElem?.2 ⟨_, hn⟩,
    congrArg NodeRef.id hr, congrArg NodeRef.memory hr, congrArg NodeRef.distance hr⟩

/-- A property of a memory node's id holds of a memory node's object exactly when it
holds of a memory node. -/
theorem exists_memory_iff {l : List NodeInfo} {P : Int → Prop} :
    (∃ m ∈ (nodeRefs l).filter (·.memory), P m.id) ↔ ∃ m ∈ l, m.memory ∧ P m.id := by
  have h := filter_nodeRefs_map_fields (fun i _ _ => i) l
  constructor
  · rintro ⟨m, hm, hP⟩
    have : m.id ∈ (l.filter (·.memory)).map NodeInfo.id := h ▸ List.mem_map_of_mem _ hm
    obtain ⟨n, hn, hid⟩ := List.mem_map.1 this
    exact ⟨n, (List.mem_filter.1 hn).1, by simpa using (List.mem_filter.1 hn).2, hid ▸ hP⟩
  · rintro ⟨n, hn, hmem, hP⟩
    have : n.id ∈ ((nodeRefs l).filter (·.memory)).map NodeRef.id :=
      h.symm ▸ List.mem_map_of_mem _ (List.mem_filter.2 ⟨hn, by simpa using hmem⟩)
    obtain ⟨m, hm, hid⟩ := List.mem_map.1 this
    exact ⟨m, hm, hid ▸ hP⟩

theorem nodeRefs_pairwise_pos (l : List NodeInfo) :
    (nodeRefs l).Pairwise fun a b => a.pos < b.pos := by
  rw [List.pairwise_iff_getElem]
  intro i j _ _ hij
  simpa [nodeRefs, refAt] using hij

theorem refAt_mem_nodeRefs {l : List NodeInfo} {i : Nat} {n : NodeInfo} (h : l[i]? = some n) :
    refAt i n ∈ nodeRefs l :=
  mem_nodeRefs.2 ⟨n, h, rfl⟩

/-- The node objects of a list with ids `≥ 0` have ids `≥ 0`. -/
theorem id_nonneg_of_mem_nodeRefs {l : List NodeInfo} (hnn : ∀ n ∈ l, 0 ≤ n.id) {r : NodeRef}
    (hr : r ∈ nodeRefs l) : 0 ≤ r.id := by
  obtain ⟨n, hn, hid, -⟩ := exists_of_mem_nodeRefs hr
  exact hid ▸ hnn n hn

/-- Every node of the list has its node object. -/
theorem exists_refAt_mem {l : List NodeInfo} {n : NodeInfo} (hn : n ∈ l) :
    ∃ i, refAt i n ∈ nodeRefs l := by
  obtain ⟨i, hi, rfl⟩ := List.getElem_of_mem hn
  exact ⟨i, refAt_mem_nodeRefs (List.getElem?_eq_getElem hi)⟩

section DistinctIds

variable {nodes : List NodeInfo} (hd : (nodes.map NodeInfo.id).Nodup)
include hd

theorem nodeRefs_ids_nodup : ((nodeRefs nodes).map NodeRef.id).Nodup := by
  simpa using (nodeRefs_map_fields (fun i _ _ => i) nodes).symm ▸ hd

/-- With distinct ids, the first node with a node object's id is at its position. -/
theorem findIdx_id_eq_pos {r : NodeRef} (hr : r ∈ nodeRefs nodes) :
    nodes.findIdx (·.id == r.id) = r.pos := by
  obtain ⟨n, hn, hr⟩ := mem_nodeRefs.1 hr
  obtain ⟨hlt, rfl⟩ := List.getElem?_eq_some_iff.1 hn
  have hid : nodes[r.pos].id = r.id := congrArg NodeRef.id hr
  rw [List.findIdx_eq hlt, ← hid]
  refine ⟨by simp, fun j hj => ?_⟩
  have hne := (@List.Nodup.getElem_inj_iff _ _ hd j (by simp; omega) r.pos
    (by simpa using hlt)).not.2 (by omega)
  simpa using hne

end DistinctIds

/-! ## The anchor scan -/

theorem distOf_lt_top {x : NodeRef} {t : Int} : distOf x t < ⊤ ↔ t.toNat < x.distance.length := by
  unfold distOf
  cases h : x.distance[t.toNat]? with
  | none => simpa using (List.getElem?_eq_none_iff.1 h)
  | some d => simpa using (List.getElem?_eq_some_iff.1 h).1

theorem distOf_of_lt {x : NodeRef} {t : Int} (h : t.toNat < x.distance.length) :
    distOf x t = ((x.distance.getD t.toNat 0 : Int) : WithTop Int) := by
  simp [distOf, List.getElem?_eq_getElem h]

/-- What the scan picks: the memory node `a` with id `k`, within reach, strictly nearer
than every memory node before it and no farther than every one after it. -/
theorem nearestOf_eq_some {x : NodeRef} {ms : List NodeRef} {k : Int}
    (h : nearestOf x ms = some k) :
    ∃ pre a post, ms = pre ++ a :: post ∧ a.id = k ∧ distOf x a.id < ⊤ ∧
      (∀ m ∈ pre, distOf x a.id < distOf x m.id) ∧ ∀ m ∈ post, distOf x a.id ≤ distOf x m.id := by
  unfold nearestOf at h
  rcases closestScan_spec (ms.map fun m => (m.id, distOf x m.id)) ⊤ none with
    ⟨hs, -⟩ | ⟨pre, k', d, post, hsplit, hlt, hpre, hpost, hs⟩
  · rw [hs] at h; cases h
  · obtain ⟨l₁, l₂, rfl, rfl, hl₂⟩ := List.map_eq_append_iff.1 hsplit
    obtain ⟨a, post', rfl, ha, rfl⟩ := List.map_eq_cons_iff.1 hl₂
    simp only [Prod.mk.injEq] at ha
    obtain ⟨rfl, rfl⟩ := ha
    refine ⟨l₁, a, post', rfl, Option.some.inj (hs.symm.trans h), hlt, ?_, ?_⟩
    · exact fun m hm => hpre _ (List.mem_map_of_mem _ hm)
    · exact fun m hm => hpost _ (List.mem_map_of_mem _ hm)

/-- The scan picks nothing exactly when no memory node is within reach. -/
theorem nearestOf_eq_none {x : NodeRef} {ms : List NodeRef} :
    nearestOf x ms = none ↔ ∀ m ∈ ms, distOf x m.id = ⊤ := by
  unfold nearestOf
  rcases closestScan_spec (ms.map fun m => (m.id, distOf x m.id)) ⊤ none with
    ⟨hs, hall⟩ | ⟨pre, k, d, post, hsplit, hlt, -, -, hs⟩
  · simpa [hs] using hall
  · have hmem : (k, d) ∈ ms.map fun m => (m.id, distOf x m.id) := by simp [hsplit]
    obtain ⟨m, hm, hmd⟩ := List.mem_map.1 hmem
    simp only [Prod.mk.injEq] at hmd
    simp only [hs, reduceCtorEq, false_iff, not_forall]
    exact ⟨m, hm, hmd.2 ▸ hlt.ne⟩

/-- The anchor `a` the scan picks for `x` is at least as near as every memory node,
and a memory node as near as `a` does not come before it. -/
theorem nearestOf_least {x a : NodeRef} {ms : List NodeRef}
    (hids : (ms.map NodeRef.id).Nodup) (hpos : ms.Pairwise fun a b => a.pos < b.pos)
    (ha : a ∈ ms) (h : nearestOf x ms = some a.id) :
    distOf x a.id < ⊤ ∧ ∀ m ∈ ms, distOf x a.id ≤ distOf x m.id ∧
      (distOf x a.id = distOf x m.id → a.pos ≤ m.pos) := by
  obtain ⟨pre, a', post, rfl, hid, hlt, hpre, hpost⟩ := nearestOf_eq_some h
  obtain rfl : a' = a := List.inj_on_of_nodup_map hids (by simp) ha hid
  refine ⟨hlt, fun m hm => ?_⟩
  rcases List.mem_append.1 hm with hm | hm
  · exact ⟨(hpre m hm).le, fun he => absurd he (hpre m hm).ne⟩
  · rcases List.mem_cons.1 hm with rfl | hm
    · exact ⟨le_rfl, fun _ => le_rfl⟩
    · have hafter := (List.pairwise_cons.1 (List.pairwise_append.1 hpos).2.1).1 m hm
      exact ⟨hpost m hm, fun _ => hafter.le⟩

/-! ## The clusters -/

theorem mem_assignedTo {ms refs : List NodeRef} {k : Int} {x : NodeRef} :
    x ∈ assignedTo ms refs k ↔ x ∈ refs ∧ x.memory = false ∧ nearestOf x ms = some k := by
  simp [assignedTo]

/-- The members after the anchor `m`: the nodes without memory whose scan picks `m`,
in non-decreasing distance to `m`, ties in input order. -/
theorem tail_clusterSpec {refs : List NodeRef} (hpos : refs.Pairwise fun a b => a.pos < b.pos)
    (m : NodeRef) :
    let tail := sorted (fun y => distOf y m.id) (assignedTo (refs.filter (·.memory)) refs m.id)
    (∀ x, x ∈ tail ↔ x ∈ refs ∧ x.memory = false ∧ nearestOf x (refs.filter (·.memory)) = some m.id) ∧
      tail.Pairwise fun x y => distOf x m.id < distOf y m.id ∨
        (distOf x m.id = distOf y m.id ∧ x.pos < y.pos) :=
  ⟨fun _ => mem_sorted.trans mem_assignedTo, sorted_stable (hpos.filter _)⟩

/-- Every node of every cluster is a node object of the list. -/
theorem mem_refs_of_mem_clusterSpec {refs : List NodeRef} {c : List NodeRef}
    (hc : c ∈ clusterSpec refs) {x : NodeRef} (hx : x ∈ c) : x ∈ refs := by
  obtain ⟨m, hm, rfl⟩ := List.mem_map.1 hc
  rcases List.mem_cons.1 hx with rfl | hx
  · exact (List.mem_filter.1 hm).1
  · exact (mem_assignedTo.1 (mem_sorted.1 hx)).1

/-- A node without memory lies in the cluster of `m` exactly when its scan picks `m`. -/
theorem any_cluster_iff {refs : List NodeRef} (hids : (refs.map NodeRef.id).Nodup)
    {r m : NodeRef} (hr : r ∈ refs) (hrm : r.memory = false) (hm : m ∈ refs.filter (·.memory)) :
    (m :: sorted (fun y => distOf y m.id) (assignedTo (refs.filter (·.memory)) refs m.id)).any
        (·.id == r.id) = (nearestOf r (refs.filter (·.memory)) == some m.id) := by
  have hm' := List.mem_filter.1 hm
  rw [Bool.eq_iff_iff, List.any_eq_true]
  simp only [beq_iff_eq, List.mem_cons, mem_sorted, mem_assignedTo]
  constructor
  · rintro ⟨y, rfl | ⟨hy, -, hyn⟩, hid⟩
    · obtain rfl := List.inj_on_of_nodup_map hids hm'.1 hr hid
      simp [hrm] at hm'
    · rwa [← List.inj_on_of_nodup_map hids hy hr hid]
  · exact fun h => ⟨r, .inr ⟨hr, hrm, h⟩, rfl⟩

/-- A node without memory lies in one cluster when its scan finds an anchor and in none
otherwise. -/
theorem countP_clusterSpec {refs : List NodeRef} (hids : (refs.map NodeRef.id).Nodup)
    {r : NodeRef} (hr : r ∈ refs) (hrm : r.memory = false) :
    (clusterSpec refs).countP (fun c => c.any (·.id == r.id)) =
      if nearestOf r (refs.filter (·.memory)) = none then 0 else 1 := by
  have hmids : ((refs.filter (·.memory)).map NodeRef.id).Nodup :=
    hids.sublist ((List.filter_sublist _).map _)
  rw [clusterSpec, List.countP_map,
    List.countP_congr fun m hm => by rw [Function.comp_apply, any_cluster_iff hids hr hrm hm]]
  cases hn : nearestOf r (refs.filter (·.memory)) with
  | none => simp
  | some k =>
    obtain ⟨a, ha, rfl⟩ := nearestOf_mem hn
    exact countP_eq_one_of_unique hmids.of_map ha (by simp)
      fun b hb hba => List.inj_on_of_nodup_map hmids hb ha (by simp at hba; exact hba.symm)

/-- No node object lies in two clusters, nor twice in one: the clusters together are a
sub-permutation of the node objects. -/
theorem clusterSpec_flatten_subperm {refs : List NodeRef} (hids : (refs.map NodeRef.id).Nodup) :
    (clusterSpec refs).flatten.Subperm refs := by
  have hmem : ∀ {m x : NodeRef}, x ∈ m :: sorted (fun y => distOf y m.id)
      (assignedTo (refs.filter (·.memory)) refs m.id) ↔
        x = m ∨ x ∈ refs ∧ x.memory = false ∧ nearestOf x (refs.filter (·.memory)) = some m.id :=
    by intro m x; simp only [List.mem_cons, mem_sorted, mem_assignedTo]
  have hmids : ((refs.filter (·.memory)).map NodeRef.id).Nodup :=
    hids.sublist ((List.filter_sublist _).map _)
  refine List.subperm_of_subset (List.nodup_flatten.2 ⟨fun c hc => ?_, ?_⟩)
    fun x hx => mem_refs_of_mem_clusterSpec (List.mem_flatten.1 hx).choose_spec.1
      (List.mem_flatten.1 hx).choose_spec.2
  · obtain ⟨m, hm, rfl⟩ := List.mem_map.1 hc
    refine List.nodup_cons.2 ⟨fun h => ?_, (sorted_perm _ _).nodup_iff.2 ((hids.of_map _).filter _)⟩
    simp [(mem_assignedTo.1 (mem_sorted.1 h)).2.1] at hm
  · refine List.pairwise_map.2 ((List.pairwise_map.1 hmids).imp_of_mem fun ha hb hne x hx hy => ?_)
    have hma := (List.mem_filter.1 ha).2
    have hmb := (List.mem_filter.1 hb).2
    rcases hmem.1 hx with rfl | ⟨-, hxm, hxn⟩ <;> rcases hmem.1 hy with rfl | ⟨-, hym, hyn⟩
    · exact hne rfl
    · simp [hym] at hma
    · simp [hxm] at hmb
    · exact hne (Option.some.inj (hxn.symm.trans hyn))

/-- A member after the anchor `m` of the closed form over a list with distinct ids: a
node object without memory, within reach of `m`, at least as near to `m` as to every
memory node, and on a tie `m` comes first. -/
theorem member_clusterSpec {nodes : List NodeInfo} (hd : (nodes.map NodeInfo.id).Nodup)
    {m y : NodeRef} (hm : m ∈ (nodeRefs nodes).filter (·.memory))
    (hy : y ∈ sorted (fun y => distOf y m.id)
      (assignedTo ((nodeRefs nodes).filter (·.memory)) (nodeRefs nodes) m.id)) :
    y ∈ nodeRefs nodes ∧ y.memory = false ∧ distOf y m.id < ⊤ ∧
      ∀ m' ∈ (nodeRefs nodes).filter (·.memory), distOf y m.id ≤ distOf y m'.id ∧
        (distOf y m.id = distOf y m'.id → m.pos ≤ m'.pos) := by
  obtain ⟨hyr, hym, hyn⟩ := ((tail_clusterSpec (nodeRefs_pairwise_pos nodes) m).1 y).1 hy
  exact ⟨hyr, hym, nearestOf_least ((nodeRefs_ids_nodup hd).sublist ((List.filter_sublist _).map _))
    ((nodeRefs_pairwise_pos nodes).filter _) hm hyn⟩

end TopologyPinning.Clusters
