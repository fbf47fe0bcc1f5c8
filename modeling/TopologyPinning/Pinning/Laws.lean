import TopologyPinning.Pinning.Generators
import Mathlib.Data.List.Perm.Basic

/-!
# What the pinning generators emit

A pinning list is to hold `t[i]` once for every core tuple `t` of every node of every
cluster and every `i < len(t)`: the entries `smtPairs`, each tagged with its SMT
index `i`. Both generators emit their entries column by column, SMT index by SMT
index, and a column is a reordering of the `i`-th ids of all tuples; so the tagged
output is a permutation of `smtPairs` (`columns_perm_smtPairs`).

- `clusterFirstPinning_pairs`: when `clusters[0][0]` has a core tuple, or no node has
  one, `cluster_first_pinning` emits every entry once, all entries of SMT index `i`
  before those of `i + 1`. Its early return looks at `clusters[0][0]` alone, so a first
  node without cores empties the whole list (`clusterFirstPinning_cpuLessAnchor`).
- `pingPongPinning_spec`: for every cluster list with a core tuple and every
  `nodes_per_round ≥ 1`, `ping_pong_pinning` returns `pingPongSpec`, the concatenation
  over SMT indices of one block per round, and emits every entry once.
- `pingPongPinning_eq_clusterFirst`: with one cluster, or rounds as large as every
  cluster, the two generators agree when `clusters[0][0]` has a core tuple; when it has
  none they do not (`pingPongPinning_cpuLessAnchor`).
- `pinning_raises`: `cluster_first_pinning` never raises; `ping_pong_pinning` raises
  `ValueError` exactly when no node of a non-empty cluster list has a core tuple.
-/

set_option autoImplicit false

namespace TopologyPinning.Pinning

open TopologyPinning.Python (PyExc)
open TopologyPinning.Topology

/-! ## The entries of a pinning list -/

/-- Every core tuple of every node of every cluster, in cluster, node and tuple order. -/
def allTuples (clusters : List (List NodeInfo)) : List (List Int) :=
  clusters.flatMap fun cluster => cluster.flatMap (·.coresList)

/-- The entries a pinning list is to hold: the id `t[i]` of every core tuple `t` and
every index `i < len(t)`, tagged with `i`. -/
def smtPairs (tuples : List (List Int)) : List (Int × Nat) :=
  tuples.flatMap fun t => t.enum.map fun p => (p.2, p.1)

/-- `S`, the largest width of a core tuple (`0` when there is none). -/
def maxWidth (clusters : List (List NodeInfo)) : Nat :=
  (coreWidths clusters).foldl max 0

theorem coreWidths_eq (clusters : List (List NodeInfo)) :
    coreWidths clusters = (allTuples clusters).map List.length := by
  simp [coreWidths, allTuples, List.map_flatMap]

theorem flatMap_coresAt (i : Nat) (clusters : List (List NodeInfo)) :
    clusters.flatMap (fun cluster => cluster.flatMap (coresAt i)) =
      (allTuples clusters).filterMap (·[i]?) := by
  simp only [allTuples, List.filterMap_flatMap]
  rfl

theorem le_foldl_max : ∀ (l : List Nat) (a : Nat), a ≤ l.foldl max a ∧ ∀ w ∈ l, w ≤ l.foldl max a
  | [], a => by simp
  | b :: l, a => by
    obtain ⟨h1, h2⟩ := le_foldl_max l (max a b)
    simp only [List.foldl_cons, List.mem_cons, forall_eq_or_imp]
    exact ⟨by omega, by omega, h2⟩

theorem width_le_maxWidth {clusters : List (List NodeInfo)} {t : List Int}
    (ht : t ∈ allTuples clusters) : t.length ≤ maxWidth clusters :=
  (le_foldl_max _ 0).2 _ (coreWidths_eq clusters ▸ List.mem_map_of_mem _ ht)

/-- Python's `max()` of the widths, when there is a tuple. -/
theorem max_coreWidths {clusters : List (List NodeInfo)} (h : coreWidths clusters ≠ []) :
    Python.max (coreWidths clusters) = .ok (maxWidth clusters) := by
  unfold maxWidth
  cases hw : coreWidths clusters with
  | nil => exact absurd hw h
  | cons a l => simp [Python.max]

theorem coreWidths_ne_nil {clusters : List (List NodeInfo)} {c : List NodeInfo} {n : NodeInfo}
    (hc : c ∈ clusters) (hn : n ∈ c) (h : n.coresList ≠ []) : coreWidths clusters ≠ [] := by
  obtain ⟨t, ht⟩ := List.exists_mem_of_ne_nil _ h
  rw [coreWidths_eq]
  exact List.ne_nil_of_mem (List.mem_map_of_mem _
    (by simpa [allTuples] using ⟨c, hc, n, hn, ht⟩ : t ∈ allTuples clusters))

/-! ## Columns -/

theorem flatMap_append_perm {α β : Type} (l : List α) (f g : α → List β) :
    (l.flatMap fun a => f a ++ g a).Perm (l.flatMap f ++ l.flatMap g) := by
  induction l with
  | nil => simp
  | cons a l ih =>
    simp only [List.flatMap_cons, List.append_assoc]
    exact ((ih.append_left (g a)).trans (List.perm_append_comm_assoc _ _ _)).append_left (f a)

/-- Two nested loops over independent lists emit the same entries in either nesting. -/
theorem flatMap_comm_perm {α β γ : Type} (l₁ : List α) (l₂ : List β) (f : α → β → List γ) :
    (l₁.flatMap fun a => l₂.flatMap (f a)).Perm (l₂.flatMap fun b => l₁.flatMap fun a => f a b) := by
  induction l₁ with
  | nil => simp
  | cons a l₁ ih =>
    simp only [List.flatMap_cons]
    exact (ih.append_left _).trans (flatMap_append_perm l₂ (f a) fun b => l₁.flatMap fun a => f a b).symm

/-- The ids of one tuple at the indices `0 .. S - 1`, tagged with `k` plus the index,
are the tuple enumerated from `k`. -/
theorem filterMap_range_getElem? (t : List Int) : ∀ (S k : Nat), t.length ≤ S →
    (List.range S).filterMap (fun i => t[i]?.map fun v => (v, k + i)) =
      (t.enumFrom k).map fun p => (p.2, p.1) := by
  induction t with
  | nil => intro S k _; simp
  | cons a t ih =>
    intro S k h
    obtain ⟨S, rfl⟩ : ∃ S', S = S' + 1 := ⟨S - 1, by simp at h; omega⟩
    have hshift : (fun i => (a :: t)[i + 1]?.map fun v => (v, k + (i + 1))) =
        fun i => t[i]?.map fun v => (v, (k + 1) + i) := by
      funext i; simp [Nat.add_assoc, Nat.add_comm 1 i]
    rw [List.range_succ_eq_map, List.filterMap_cons, List.filterMap_map, Function.comp_def]
    simp only [Nat.succ_eq_add_one, hshift, ih S (k + 1) (by simpa using h)]
    simp

/-- Column by column, the tagged ids of a list of tuples are its entries. -/
theorem columns_perm_smtPairs (T : List (List Int)) {S : Nat} (h : ∀ t ∈ T, t.length ≤ S) :
    ((List.range S).flatMap fun i => (T.filterMap (·[i]?)).map (·, i)).Perm (smtPairs T) := by
  have hcol : ∀ i, (T.filterMap (·[i]?)).map (·, i) =
      T.flatMap fun t => (t[i]?.map fun v => (v, 0 + i)).toList := fun i => by
    rw [List.map_filterMap, List.filterMap_eq_flatMap_toList]
    simp
  simp only [hcol]
  refine (flatMap_comm_perm _ _ _).trans (List.Perm.flatMap_left T fun t ht => List.Perm.of_eq ?_)
  rw [← List.filterMap_eq_flatMap_toList, filterMap_range_getElem? t S 0 (h t ht)]
  rfl

theorem smtPairs_map_fst (T : List (List Int)) : (smtPairs T).map Prod.fst = T.flatten := by
  simp only [smtPairs, List.map_flatMap, List.map_map, Function.comp_def, List.enum_map_snd]
  exact List.flatMap_id T

/-- Untagged, the columns are a reordering of the ids of all tuples. -/
theorem columns_perm_flatten (T : List (List Int)) {S : Nat} (h : ∀ t ∈ T, t.length ≤ S) :
    ((List.range S).flatMap fun i => T.filterMap (·[i]?)).Perm T.flatten := by
  simpa [List.map_flatMap, List.map_map, Function.comp_def, smtPairs_map_fst] using
    (columns_perm_smtPairs T h).map Prod.fst

/-- Blocks emitted SMT index by SMT index are in order of their tags. -/
theorem sorted_columns (S : Nat) (col : Nat → List Int) :
    ((List.range S).flatMap fun i => (col i).map (·, i)).Sorted fun a b => a.2 ≤ b.2 := by
  refine List.pairwise_flatMap.2 ⟨fun i _ => List.pairwise_map.2 (List.pairwise_of_forall
    fun _ _ => le_rfl), (List.pairwise_lt_range S).imp fun hij x hx y hy => ?_⟩
  obtain ⟨_, -, rfl⟩ := List.mem_map.1 hx
  obtain ⟨_, -, rfl⟩ := List.mem_map.1 hy
  exact hij.le

/-! ## Cluster-first -/

theorem clusterFirstPinning_eq {node : NodeInfo} {rest : List NodeInfo}
    {clusters : List (List NodeInfo)} (h : node.coresList ≠ []) :
    clusterFirstPinning ((node :: rest) :: clusters) =
      .ok ((List.range (maxWidth ((node :: rest) :: clusters))).flatMap fun i =>
        ((node :: rest) :: clusters).flatMap fun cluster => cluster.flatMap (coresAt i)) := by
  simp only [clusterFirstPinning, h, if_false]
  rw [max_coreWidths (coreWidths_ne_nil (List.mem_cons_self _ _) (List.mem_cons_self _ _) h)]
  rfl

/-- Whatever `cluster_first_pinning` returns is empty or a reordering of the ids of all
tuples. -/
theorem clusterFirstPinning_perm {clusters : List (List NodeInfo)} {out : List Int}
    (h : clusterFirstPinning clusters = .ok out) : out = [] ∨ out.Perm (allTuples clusters).flatten := by
  match clusters, h with
  | [], h => exact .inl (Except.ok.inj h).symm
  | [] :: _, h => exact .inl (Except.ok.inj h).symm
  | (node :: rest) :: cs, h =>
    by_cases hne : node.coresList = []
    · simp only [clusterFirstPinning, hne, if_true, Except.ok.injEq] at h
      exact .inl h.symm
    · rw [clusterFirstPinning_eq hne, Except.ok.injEq] at h
      subst h
      simp only [flatMap_coresAt]
      exact .inr (columns_perm_flatten _ fun t ht => width_le_maxWidth ht)

/-- When `clusters[0][0]` has a core tuple, or no node has one, `cluster_first_pinning`
emits every entry once, the entries of SMT index `i` before those of `i + 1`. -/
theorem clusterFirstPinning_pairs {clusters : List (List NodeInfo)}
    (hguard : (∃ c ∈ clusters.head?, ∃ n ∈ c.head?, n.coresList ≠ []) ∨ allTuples clusters = []) :
    ∃ tagged : List (Int × Nat), clusterFirstPinning clusters = .ok (tagged.map Prod.fst) ∧
      tagged.Sorted (fun a b => a.2 ≤ b.2) ∧ tagged.Perm (smtPairs (allTuples clusters)) := by
  rcases hguard with ⟨c, hc, n, hn, hcores⟩ | hnil
  · obtain ⟨cs, rfl⟩ := List.head?_eq_some_iff.1 hc
    obtain ⟨rest, rfl⟩ := List.head?_eq_some_iff.1 hn
    refine ⟨(List.range (maxWidth ((n :: rest) :: cs))).flatMap fun i =>
      ((allTuples ((n :: rest) :: cs)).filterMap (·[i]?)).map (·, i), ?_,
      sorted_columns _ _, columns_perm_smtPairs _ fun t ht => width_le_maxWidth ht⟩
    rw [clusterFirstPinning_eq hcores]
    simp only [List.map_flatMap, List.map_map, Function.comp_def, List.map_id', flatMap_coresAt]
  · refine ⟨[], ?_, List.sorted_nil, by simp [hnil, smtPairs]⟩
    match clusters, hnil with
    | [], _ => rfl
    | [] :: _, _ => rfl
    | (n :: _) :: _, hnil =>
      have : n.coresList = [] := by simp [allTuples] at hnil; exact hnil.1
      simp [clusterFirstPinning, this]

/-- Two clusters whose first nodes have core tuples of widths `2, 1` and `1`. -/
def unevenWidths : List (List NodeInfo) :=
  [[⟨0, true, [[0, 4], [1]], [10, 20]⟩], [⟨1, true, [[2]], [20, 10]⟩]]

/-- The first SMT position of every tuple, then the second one of the only wide tuple. -/
theorem clusterFirstPinning_pairs_uneven :
    clusterFirstPinning unevenWidths = .ok [0, 1, 2, 4] ∧
      ∃ tagged : List (Int × Nat), clusterFirstPinning unevenWidths = .ok (tagged.map Prod.fst) ∧
        tagged.Sorted (fun a b => a.2 ≤ b.2) ∧ tagged.Perm (smtPairs (allTuples unevenWidths)) :=
  ⟨rfl, clusterFirstPinning_pairs (.inl ⟨_, rfl, _, rfl, by decide⟩)⟩

/-- A memory node without CPUs anchors the first cluster; the node after it has the
core `(1, 3)`. -/
def cpuLessAnchor : List (List NodeInfo) :=
  [[⟨0, true, [], [10, 20]⟩, ⟨1, false, [[1, 3]], [20, 10]⟩]]

theorem clusterFirstPinning_cpuLessAnchor :
    clusterFirstPinning cpuLessAnchor = .ok [] ∧
      smtPairs (allTuples cpuLessAnchor) = [(1, 0), (3, 1)] :=
  ⟨rfl, rfl⟩

/-! ## Ping-pong -/

/-- The largest number of nodes of a cluster. -/
def maxClusterLength (clusters : List (List NodeInfo)) : Nat :=
  (clusters.map List.length).foldl max 0

/-- What `ping_pong_pinning(clusters, x)` is described to return: for every SMT index
`i < S`, one block per round `r` in which some cluster has more than `r * x` nodes;
round `r` takes every cluster in order, its nodes at indices `r * x` to
`r * x + x - 1`, and the `i`-th id of each of their tuples wider than `i`. -/
def pingPongSpec (clusters : List (List NodeInfo)) (x : Nat) : List Int :=
  (List.range (maxWidth clusters)).flatMap fun i =>
    ((List.range (maxClusterLength clusters)).filter fun r =>
      clusters.any fun c => r * x < c.length).flatMap fun r =>
        clusters.flatMap fun cluster => ((cluster.drop (r * x)).take x).flatMap (coresAt i)

/-- A filter of `0 .. M - 1` closed downwards is a prefix `0 .. R - 1`. -/
theorem filter_range_eq_range (p : Nat → Bool) (hdown : ∀ r, p (r + 1) → p r) :
    ∀ M, (∀ r, p r → r < M) → ∃ R, (List.range M).filter p = List.range R ∧ ¬ p R
  | 0, hM => ⟨0, rfl, fun h => absurd (hM 0 h) (by omega)⟩
  | M + 1, hM => by
    have hbelow : ∀ n r, r ≤ n → p n → p r := fun n r hrn =>
      Nat.le_induction (P := fun n _ => p n → p r) id (fun n _ ih h => ih (hdown n h)) n hrn
    by_cases hp : p M
    · refine ⟨M + 1, List.filter_eq_self.2 fun r hr => hbelow M r ?_ hp, fun h => ?_⟩
      · simpa [Nat.lt_succ_iff] using hr
      · exact absurd (hM _ h) (by omega)
    · obtain ⟨R, hR, hnR⟩ := filter_range_eq_range p hdown M fun r hr => by
        have := hM r hr
        rcases Nat.lt_succ_iff_lt_or_eq.1 this with h | rfl
        · exact h
        · exact absurd hr hp
      refine ⟨R, ?_, hnR⟩
      rw [List.range_succ, List.filter_append, hR]
      simp [hp]

/-- The rounds of the description are `0 .. R - 1`, and `R` rounds pass every cluster. -/
theorem rounds_eq_range (clusters : List (List NodeInfo)) {x : Nat} (hx : 0 < x) :
    ∃ R, ((List.range (maxClusterLength clusters)).filter fun r =>
        clusters.any fun c => r * x < c.length) = List.range R ∧
      ∀ c ∈ clusters, c.length ≤ R * x := by
  obtain ⟨R, hR, hnR⟩ := filter_range_eq_range (fun r => clusters.any fun c => r * x < c.length)
    (fun r h => by
      simp only [List.any_eq_true, decide_eq_true_eq] at h ⊢
      obtain ⟨c, hc, hlt⟩ := h
      exact ⟨c, hc, by rw [Nat.succ_mul] at hlt; omega⟩)
    (maxClusterLength clusters) fun r h => by
      simp only [List.any_eq_true, decide_eq_true_eq] at h
      obtain ⟨c, hc, hlt⟩ := h
      have hle := (le_foldl_max (clusters.map List.length) 0).2 _ (List.mem_map_of_mem _ hc)
      have : r ≤ r * x := Nat.le_mul_of_pos_right r hx
      unfold maxClusterLength
      omega
  refine ⟨R, hR, fun c hc => ?_⟩
  simp only [List.any_eq_true, decide_eq_true_eq, not_exists, not_and] at hnR
  exact not_lt.1 (hnR c hc)

/-- The chunks of `R` rounds are the first `R * x` nodes of the cluster. -/
theorem flatMap_chunk (x : Nat) (c : List NodeInfo) :
    ∀ R, (List.range R).flatMap (fun r => (c.drop (r * x)).take x) = c.take (R * x)
  | 0 => by simp
  | R + 1 => by
    rw [List.range_succ, List.flatMap_append, flatMap_chunk x c R, List.flatMap_singleton,
      ← List.take_add, Nat.succ_mul]

/-- Once the rounds pass every cluster, a column of ping-pong is a reordering of the
column of all tuples. -/
theorem rounds_perm_column (i x : Nat) (clusters : List (List NodeInfo)) {R : Nat}
    (hcover : ∀ c ∈ clusters, c.length ≤ R * x) :
    ((List.range R).flatMap (roundBlock i x clusters)).Perm
      ((allTuples clusters).filterMap (·[i]?)) := by
  refine (flatMap_comm_perm (List.range R) clusters
    fun r c => (chunk x r c).flatMap (coresAt i)).trans (.of_eq ?_)
  rw [← flatMap_coresAt]
  refine List.flatMap_congr fun c hc => ?_
  rw [← List.flatMap_assoc]
  unfold chunk
  rw [flatMap_chunk, List.take_of_length_le (hcover c hc)]

/-- For a cluster list with a core tuple and `nodes_per_round ≥ 1`, the round loop
ends and `ping_pong_pinning` returns the described list. -/
theorem pingPongPinning_eq_spec {clusters : List (List NodeInfo)} {x : Int}
    (hcores : ∃ c ∈ clusters, ∃ n ∈ c, n.coresList ≠ []) (hx : 1 ≤ x) :
    pingPongPinning clusters x = .ok (pingPongSpec clusters x.toNat) := by
  obtain ⟨c, hc, n, hn, hne⟩ := hcores
  obtain ⟨R, hR, hcover⟩ := rounds_eq_range clusters (x := x.toNat) (by omega)
  unfold pingPongPinning
  rw [dif_neg (by simp only [not_or]; exact ⟨List.ne_nil_of_mem hc, by omega⟩),
    max_coreWidths (coreWidths_ne_nil hc hn hne)]
  simp only [pingPongSpec, hR]
  show Except.ok _ = Except.ok _
  congr 1
  refine List.flatMap_congr fun i _ => ?_
  rw [← cursorsAt_zero x.toNat clusters,
    playRounds_cursorsAt i x.toNat _ clusters R 0 (by simpa using hcover), List.range_eq_range']
  rfl

/-- For `nodes_per_round ≥ 1` the described list, each entry tagged with its SMT index,
is a reordering of the entries. -/
theorem pingPongSpec_tagged (clusters : List (List NodeInfo)) {x : Nat} (hx : 0 < x) :
    ∃ tagged : List (Int × Nat), pingPongSpec clusters x = tagged.map Prod.fst ∧
      tagged.Perm (smtPairs (allTuples clusters)) := by
  obtain ⟨R, hR, hcover⟩ := rounds_eq_range clusters hx
  refine ⟨(List.range (maxWidth clusters)).flatMap
    (fun i => ((List.range R).flatMap (roundBlock i x clusters)).map (·, i)), ?_, ?_⟩
  · simp only [pingPongSpec, hR, List.map_flatMap, List.map_map, Function.comp_def, List.map_id']
    rfl
  · exact (List.Perm.flatMap_left _ fun i _ => (rounds_perm_column i x clusters hcover).map _).trans
      (columns_perm_smtPairs _ fun t ht => width_le_maxWidth ht)

theorem pingPongSpec_perm (clusters : List (List NodeInfo)) {x : Nat} (hx : 0 < x) :
    (pingPongSpec clusters x).Perm (allTuples clusters).flatten := by
  obtain ⟨tagged, heq, hp⟩ := pingPongSpec_tagged clusters hx
  rw [heq, ← smtPairs_map_fst]
  exact hp.map _

/-- Whatever `ping_pong_pinning` returns for `nodes_per_round ≥ 1` is a reordering of the
ids of all tuples: without a core tuple it returns `[]` or raises. -/
theorem pingPongPinning_perm {clusters : List (List NodeInfo)} {x : Int} {out : List Int}
    (hx : 1 ≤ x) (h : pingPongPinning clusters x = .ok out) :
    out.Perm (allTuples clusters).flatten := by
  by_cases hcores : ∃ c ∈ clusters, ∃ n ∈ c, n.coresList ≠ []
  · rw [pingPongPinning_eq_spec hcores hx, Except.ok.injEq] at h
    exact h ▸ pingPongSpec_perm clusters (by omega)
  · have hnil : allTuples clusters = [] := by
      simp only [not_exists, not_and, not_not] at hcores
      simpa [allTuples, List.flatMap_eq_nil_iff] using hcores
    unfold pingPongPinning at h
    split at h
    · cases h
      simp [hnil]
    · rw [coreWidths_eq, hnil] at h
      cases h

/-- `cluster_first_pinning` never raises; `ping_pong_pinning` raises exactly when the
cluster list is non-empty, `nodes_per_round ≥ 1` and no node has a core tuple, and then
raises `ValueError` from `max()` of an empty sequence. -/
theorem pinning_raises (clusters : List (List NodeInfo)) (x : Int) :
    (∃ out, clusterFirstPinning clusters = .ok out) ∧
      ∀ e, pingPongPinning clusters x = .error e ↔
        e = .valueError ∧ clusters ≠ [] ∧ 0 < x ∧ allTuples clusters = [] := by
  refine ⟨?_, fun e => ⟨fun h => ?_, ?_⟩⟩
  · match clusters with
    | [] => exact ⟨[], rfl⟩
    | [] :: _ => exact ⟨[], rfl⟩
    | (node :: _) :: _ =>
      by_cases hne : node.coresList = []
      · exact ⟨[], by simp [clusterFirstPinning, hne]⟩
      · exact ⟨_, clusterFirstPinning_eq hne⟩
  · unfold pingPongPinning at h
    split at h
    · cases h
    · rename_i hguard
      simp only [not_or, not_le] at hguard
      cases hw : coreWidths clusters with
      | nil =>
        rw [hw] at h
        cases h
        exact ⟨rfl, hguard.1, hguard.2, List.map_eq_nil_iff.1 (coreWidths_eq clusters ▸ hw)⟩
      | cons w ws =>
        rw [hw] at h
        cases h
  · rintro ⟨rfl, hne, hx, hnil⟩
    unfold pingPongPinning
    rw [dif_neg (by simp only [not_or, not_le]; exact ⟨hne, hx⟩), coreWidths_eq, hnil]
    rfl

/-- For every cluster list with a core tuple and every `nodes_per_round ≥ 1`,
`ping_pong_pinning` returns the described concatenation of round blocks, and that list
holds every entry once. -/
theorem pingPongPinning_spec {clusters : List (List NodeInfo)} {x : Int}
    (hcores : ∃ c ∈ clusters, ∃ n ∈ c, n.coresList ≠ []) (hx : 1 ≤ x) :
    pingPongPinning clusters x = .ok (pingPongSpec clusters x.toNat) ∧
      ∃ tagged : List (Int × Nat), pingPongSpec clusters x.toNat = tagged.map Prod.fst ∧
        tagged.Perm (smtPairs (allTuples clusters)) :=
  ⟨pingPongPinning_eq_spec hcores hx, pingPongSpec_tagged clusters (by omega)⟩

/-- Two clusters of two nodes each, one single-thread core per node. -/
def twoByTwo : List (List NodeInfo) :=
  [[⟨0, true, [[0]], [10, 20]⟩, ⟨1, false, [[1]], [20, 10]⟩],
    [⟨2, true, [[2]], [10, 20]⟩, ⟨3, false, [[3]], [20, 10]⟩]]

/-- One node per round: node 0 of each cluster, then node 1 of each. -/
theorem pingPongPinning_spec_twoByTwo :
    pingPongPinning twoByTwo 1 = .ok [0, 2, 1, 3] ∧
      ∃ tagged : List (Int × Nat), pingPongSpec twoByTwo 1 = tagged.map Prod.fst ∧
        tagged.Perm (smtPairs (allTuples twoByTwo)) :=
  have h := @pingPongPinning_spec twoByTwo 1 (by decide) (by decide)
  ⟨h.1.trans rfl, h.2⟩

/-! ## Ping-pong against cluster-first -/

/-- With one cluster, or at least as many nodes per round as any cluster has, ping-pong
is cluster-first, when `clusters[0][0]` has a core tuple. -/
theorem pingPongPinning_eq_clusterFirst {clusters : List (List NodeInfo)} {x : Int} (hx : 1 ≤ x)
    (hfirst : ∃ c ∈ clusters.head?, ∃ n ∈ c.head?, n.coresList ≠ [])
    (hshape : clusters.length = 1 ∨ ∀ c ∈ clusters, c.length ≤ x) :
    pingPongPinning clusters x = clusterFirstPinning clusters := by
  obtain ⟨c, hc, n, hn, hne⟩ := hfirst
  obtain ⟨cs, rfl⟩ := List.head?_eq_some_iff.1 hc
  obtain ⟨rest, rfl⟩ := List.head?_eq_some_iff.1 hn
  obtain ⟨R, hR, hcover⟩ := rounds_eq_range ((n :: rest) :: cs) (x := x.toNat) (by omega)
  rw [pingPongPinning_eq_spec ⟨_, List.mem_cons_self _ _, n, List.mem_cons_self _ _, hne⟩ hx,
    clusterFirstPinning_eq hne]
  simp only [pingPongSpec, hR]
  congr 1
  refine List.flatMap_congr fun i _ => ?_
  rcases hshape with hone | hall
  · obtain rfl : cs = [] := List.length_eq_zero.1 (by simpa using hone)
    simp only [List.flatMap_singleton]
    rw [← List.flatMap_assoc, flatMap_chunk, List.take_of_length_le (hcover _ (List.mem_singleton_self _))]
  · have hR1 : R = 1 := by
      have h0 : R ≠ 0 := fun h0 => by
        simpa [h0] using hcover _ (List.mem_cons_self _ _)
      have h1 : ¬ 1 < R := fun h1 => by
        have := List.mem_range.2 h1
        simp only [← hR, List.mem_filter, List.any_eq_true, decide_eq_true_eq] at this
        obtain ⟨-, c, hc, hlt⟩ := this
        have := hall c hc
        omega
      omega
    subst hR1
    rw [show List.range 1 = [0] from rfl, List.flatMap_singleton]
    simp only [Nat.zero_mul, List.drop_zero]
    refine List.flatMap_congr fun c hc => ?_
    rw [List.take_of_length_le (by have := hall c hc; omega)]

/-- Two nodes per round cover both clusters of `twoByTwo` in one round. -/
theorem pingPongPinning_eq_clusterFirst_twoByTwo :
    pingPongPinning twoByTwo 2 = clusterFirstPinning twoByTwo ∧
      clusterFirstPinning twoByTwo = .ok [0, 1, 2, 3] :=
  ⟨pingPongPinning_eq_clusterFirst (by decide) ⟨_, rfl, _, rfl, by decide⟩ (.inr (by decide)), rfl⟩

theorem pingPongPinning_cpuLessAnchor :
    pingPongPinning cpuLessAnchor 1 = .ok [1, 3] ∧ clusterFirstPinning cpuLessAnchor = .ok [] :=
  ⟨(pingPongPinning_eq_spec (by decide) (by decide)).trans rfl, rfl⟩

end TopologyPinning.Pinning
