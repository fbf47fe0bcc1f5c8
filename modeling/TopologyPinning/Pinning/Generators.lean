import TopologyPinning.Topology.Snapshot

/-!
# The pinning generators

`CPUPinningGenerator` turns a list of clusters into one list of logical CPU ids. Both
generators go through the SMT positions `0 .. max_smt - 1`, `max_smt` being Python's
`max()` of the widths of all core tuples (`ValueError` when there is none), and at
each position emit `core[smt_pos]` for every core tuple wide enough (`coresAt`).

- `clusterFirstPinning` is `cluster_first_pinning`: at each position, every cluster,
  node and core in order. It returns `[]` at once unless `clusters[0][0]` has a core.
- `pingPongPinning` is `ping_pong_pinning`: at each position, rounds; in each round
  every cluster in turn advances its own cursor by up to `nodes_per_round` nodes
  (`takeTurn`, `playRound`). The rounds repeat while some cursor is short of its
  cluster's end (`playRounds`); the loop ends because every round moves such a cursor.

The main results are the closed forms of the round loop: one round from the cursors
`min (r * x) (len cluster)` emits the `r`-th chunk of `x` nodes of every cluster and
leaves the cursors at round `r + 1` (`playRound_cursorsAt`), so the whole loop emits
the chunks of every round in turn (`playRounds_cursorsAt`).
-/

set_option autoImplicit false

namespace TopologyPinning.Pinning

open TopologyPinning.Python (PyExc)
open TopologyPinning.Topology

/-- The widths `len(core)` of every core tuple of every node of every cluster, in the
order of the generator expression of `max_smt`. -/
def coreWidths (clusters : List (List NodeInfo)) : List Nat :=
  clusters.flatMap fun cluster => cluster.flatMap fun node => node.coresList.map List.length

/-- The loop over the cores of one node at one SMT position: `core[smt_pos]` for every
core with `smt_pos < len(core)`. -/
def coresAt (smt_pos : Nat) (node : NodeInfo) : List Int :=
  node.coresList.filterMap fun core => core[smt_pos]?

/-- `cluster_first_pinning`. -/
def clusterFirstPinning (clusters : List (List NodeInfo)) : Except PyExc (List Int) :=
  match clusters with
  | (node :: _) :: _ =>
    if node.coresList = [] then .ok []
    else do
      let max_smt ← Python.max (coreWidths clusters)
      pure ((List.range max_smt).flatMap fun smt_pos =>
        clusters.flatMap fun cluster => cluster.flatMap (coresAt smt_pos))
  | _ => .ok []

/-! ## The round loop of `ping_pong_pinning` -/

/-- The inner `while` of one cluster's turn at SMT position `smt_pos`: from the cursor
`pos`, the nodes while fewer than `budget` more were taken and the cluster has nodes
left. The ids emitted and the cursor after. -/
def takeTurn (smt_pos : Nat) (cluster : List NodeInfo) : Nat → Nat → List Int × Nat
  | 0, pos => ([], pos)
  | budget + 1, pos =>
    match cluster[pos]? with
    | some node =>
      let rest := takeTurn smt_pos cluster budget (pos + 1)
      (coresAt smt_pos node ++ rest.1, rest.2)
    | none => ([], pos)

/-- One round, the loop `for cluster_idx, cluster in enumerate(clusters)`: every
cluster's turn in order, each moving its own cursor. -/
def playRound (smt_pos nodes_per_round : Nat) :
    List (List NodeInfo) → List Nat → List Int × List Nat
  | cluster :: clusters, pos :: positions =>
    let turn := takeTurn smt_pos cluster nodes_per_round pos
    let rest := playRound smt_pos nodes_per_round clusters positions
    (turn.1 ++ rest.1, turn.2 :: rest.2)
  | _, _ => ([], [])

/-- The loop condition `any(pos < len(cluster) for pos, cluster in zip(...))`. -/
def nodesLeft (clusters : List (List NodeInfo)) (positions : List Nat) : Bool :=
  (clusters.zip positions).any fun p => p.2 < p.1.length

/-- The nodes the cursors have still to pass, the measure of the round loop. -/
def remaining (clusters : List (List NodeInfo)) (positions : List Nat) : Nat :=
  ((clusters.zip positions).map fun p => p.1.length - p.2).sum

/-- A turn takes the next `budget` nodes, or as many as are left. -/
theorem takeTurn_eq (smt_pos : Nat) (cluster : List NodeInfo) : ∀ budget pos,
    takeTurn smt_pos cluster budget pos =
      (((cluster.drop pos).take budget).flatMap (coresAt smt_pos),
        max pos (min (pos + budget) cluster.length))
  | 0, pos => by
    rw [takeTurn, List.take_zero, List.flatMap_nil, Prod.mk.injEq]
    exact ⟨rfl, by omega⟩
  | budget + 1, pos => by
    simp only [takeTurn]
    cases h : cluster[pos]? with
    | none =>
      have hle := List.getElem?_eq_none_iff.1 h
      rw [List.drop_eq_nil_of_le hle, List.take_nil, List.flatMap_nil, Prod.mk.injEq]
      exact ⟨rfl, by omega⟩
    | some node =>
      obtain ⟨hlt, rfl⟩ := List.getElem?_eq_some_iff.1 h
      rw [takeTurn_eq smt_pos cluster budget (pos + 1), List.drop_eq_getElem_cons hlt]
      simp only [List.take_succ_cons, List.flatMap_cons, Prod.mk.injEq, true_and]
      omega

/-- A round moves no cursor back. -/
theorem remaining_playRound_le (smt_pos x : Nat) : ∀ (clusters : List (List NodeInfo))
    (positions : List Nat), remaining clusters (playRound smt_pos x clusters positions).2 ≤
      remaining clusters positions
  | [], _ | _ :: _, [] => by simp [remaining, playRound]
  | c :: cs, p :: ps => by
    have := remaining_playRound_le smt_pos x cs ps
    simp only [remaining, playRound, List.zip_cons_cons, List.map_cons, List.sum_cons,
      takeTurn_eq] at this ⊢
    omega

/-- A round moves forward some cursor short of its cluster's end. -/
theorem remaining_playRound_lt {smt_pos x : Nat} (hx : 0 < x) :
    ∀ (clusters : List (List NodeInfo)) (positions : List Nat), nodesLeft clusters positions →
      remaining clusters (playRound smt_pos x clusters positions).2 < remaining clusters positions
  | [], _, h | _ :: _, [], h => by simp [nodesLeft] at h
  | c :: cs, p :: ps, h => by
    simp only [nodesLeft, List.zip_cons_cons, List.any_cons, Bool.or_eq_true,
      decide_eq_true_eq] at h
    have hle := remaining_playRound_le smt_pos x cs ps
    simp only [remaining, playRound, List.zip_cons_cons, List.map_cons, List.sum_cons,
      takeTurn_eq] at hle ⊢
    rcases h with h | h
    · omega
    · have := @remaining_playRound_lt smt_pos x hx cs ps h
      simp only [remaining] at this
      omega

/-- The `while` loop of rounds at one SMT position. -/
def playRounds (smt_pos nodes_per_round : Nat) (hx : 0 < nodes_per_round)
    (clusters : List (List NodeInfo)) (positions : List Nat) : List Int :=
  if _h : nodesLeft clusters positions then
    (playRound smt_pos nodes_per_round clusters positions).1 ++
      playRounds smt_pos nodes_per_round hx clusters
        (playRound smt_pos nodes_per_round clusters positions).2
  else []
termination_by remaining clusters positions
decreasing_by exact remaining_playRound_lt hx clusters positions _h

/-- `ping_pong_pinning`. -/
def pingPongPinning (clusters : List (List NodeInfo)) (nodes_per_round : Int) :
    Except PyExc (List Int) :=
  if h : clusters = [] ∨ nodes_per_round ≤ 0 then .ok []
  else do
    let max_smt ← Python.max (coreWidths clusters)
    pure ((List.range max_smt).flatMap fun smt_pos =>
      playRounds smt_pos nodes_per_round.toNat (by simp only [not_or] at h; omega) clusters
        (List.replicate clusters.length 0))

theorem playRounds_of_nodesLeft {smt_pos x : Nat} {hx : 0 < x} {clusters : List (List NodeInfo)}
    {positions : List Nat} (h : nodesLeft clusters positions) :
    playRounds smt_pos x hx clusters positions =
      (playRound smt_pos x clusters positions).1 ++
        playRounds smt_pos x hx clusters (playRound smt_pos x clusters positions).2 := by
  rw [playRounds, dif_pos h]

theorem playRounds_of_not_nodesLeft {smt_pos x : Nat} {hx : 0 < x}
    {clusters : List (List NodeInfo)} {positions : List Nat} (h : ¬ nodesLeft clusters positions) :
    playRounds smt_pos x hx clusters positions = [] := by
  rw [playRounds, dif_neg h]

/-! ## The rounds in closed form -/

/-- The nodes of the `r`-th chunk of `x` nodes of a cluster. -/
def chunk (x r : Nat) (cluster : List NodeInfo) : List NodeInfo :=
  (cluster.drop (r * x)).take x

/-- The cursors at the start of round `r`: `min(r * x, len(cluster))`. -/
def cursorsAt (x r : Nat) (clusters : List (List NodeInfo)) : List Nat :=
  clusters.map fun cluster => min (r * x) cluster.length

/-- What round `r` emits at SMT position `smt_pos`. -/
def roundBlock (smt_pos x : Nat) (clusters : List (List NodeInfo)) (r : Nat) : List Int :=
  clusters.flatMap fun cluster => (chunk x r cluster).flatMap (coresAt smt_pos)

theorem cursorsAt_zero (x : Nat) (clusters : List (List NodeInfo)) :
    cursorsAt x 0 clusters = List.replicate clusters.length 0 := by
  simp [cursorsAt, List.map_const']

/-- The step of the invariant: from the cursors of round `r`, one round emits the
`r`-th chunks and leaves the cursors of round `r + 1`. -/
theorem playRound_cursorsAt (smt_pos x r : Nat) : ∀ clusters : List (List NodeInfo),
    playRound smt_pos x clusters (cursorsAt x r clusters) =
      (roundBlock smt_pos x clusters r, cursorsAt x (r + 1) clusters)
  | [] => rfl
  | c :: cs => by
    have hchunk : (c.drop (min (r * x) c.length)).take x = chunk x r c := by
      by_cases h : r * x ≤ c.length
      · rw [min_eq_left h, chunk]
      · rw [chunk, List.drop_eq_nil_of_le (by omega : c.length ≤ r * x),
          List.drop_eq_nil_of_le (by omega : c.length ≤ min (r * x) c.length)]
    have hstep : cursorsAt x r (c :: cs) = min (r * x) c.length :: cursorsAt x r cs := rfl
    rw [hstep, playRound, takeTurn_eq, hchunk, playRound_cursorsAt smt_pos x r cs]
    simp only [roundBlock, cursorsAt, List.flatMap_cons, List.map_cons, Prod.mk.injEq,
      List.cons.injEq, and_true, true_and]
    rw [Nat.succ_mul]
    omega

theorem nodesLeft_cursorsAt {x r : Nat} {clusters : List (List NodeInfo)} :
    nodesLeft clusters (cursorsAt x r clusters) ↔ ∃ c ∈ clusters, r * x < c.length := by
  induction clusters with
  | nil => simp [nodesLeft, cursorsAt]
  | cons c cs ih =>
    have hc : min (r * x) c.length < c.length ↔ r * x < c.length := by omega
    simp only [nodesLeft, cursorsAt, List.map_cons, List.zip_cons_cons, List.any_cons,
      Bool.or_eq_true, decide_eq_true_eq, List.mem_cons, exists_eq_or_imp] at ih ⊢
    rw [hc, ih]

theorem roundBlock_eq_nil {smt_pos x r : Nat} {clusters : List (List NodeInfo)}
    (h : ∀ c ∈ clusters, c.length ≤ r * x) : roundBlock smt_pos x clusters r = [] := by
  simp only [roundBlock, List.flatMap_eq_nil_iff, chunk]
  intro c hc
  simp [List.drop_eq_nil_of_le (h c hc)]

/-- The round loop from the cursors of round `r` emits the blocks of rounds `r` to
`r + k - 1`, for any `k` after which every cluster is passed. -/
theorem playRounds_cursorsAt (smt_pos x : Nat) (hx : 0 < x) (clusters : List (List NodeInfo)) :
    ∀ k r, (∀ c ∈ clusters, c.length ≤ (r + k) * x) →
      playRounds smt_pos x hx clusters (cursorsAt x r clusters) =
        (List.range' r k).flatMap (roundBlock smt_pos x clusters)
  | 0, r, h => by
    rw [playRounds_of_not_nodesLeft (nodesLeft_cursorsAt.not.2 fun ⟨c, hc, hlt⟩ => by
      have := h c hc; simp at this; omega)]
    rfl
  | k + 1, r, h => by
    rw [List.range'_succ, List.flatMap_cons]
    by_cases hl : nodesLeft clusters (cursorsAt x r clusters)
    · rw [playRounds_of_nodesLeft hl, playRound_cursorsAt,
        playRounds_cursorsAt smt_pos x hx clusters k (r + 1) (by simpa [Nat.add_right_comm] using h)]
    · have hpassed : ∀ c ∈ clusters, c.length ≤ r * x := fun c hc =>
        not_lt.1 fun hlt => hl (nodesLeft_cursorsAt.2 ⟨c, hc, hlt⟩)
      rw [playRounds_of_not_nodesLeft hl, roundBlock_eq_nil hpassed, List.nil_append,
        List.flatMap_eq_nil_iff.2]
      intro r' hr'
      have hr : r + 1 ≤ r' := (List.mem_range'_1.1 hr').1
      exact roundBlock_eq_nil fun c hc =>
        (hpassed c hc).trans (Nat.mul_le_mul_right x (by omega))

end TopologyPinning.Pinning
