import TopologyPinning.Pipeline.Main

/-!
# The cluster file

`saveClusterInfo` is `SystemTopology.save_cluster_info`. It writes a commented header,
then for each cluster a comment naming its memory node `cluster[0]`, for each node of
the cluster a comment naming the node, and for each non-empty core tuple of the node a
line `core[cluster_idx][node_idx][core_idx]=cpu,...,cpu`: the three indices are places in
the cluster list, in the cluster and in `cores_list`. The call returns `False` and
writes nothing when `get_clusters` raises or finds no clusters or the file does not open,
and returns `False` after writing part of the file when an empty cluster makes
`cluster[0]` raise `IndexError`.

`readCoreLine` reads a line as a consumer of the file does: split at `=`, the name split
at `[`, the indices and the CPU ids read with `int`. `coreEntries` lists the non-empty
core tuples of a cluster list with their places.

- `saveClusterInfo_readBack`: on a machine whose name holds no newline, the core lines of
  the file read back as the tuples of the clusters written, with their places: of every
  cluster when the call returns `True`, of those before the first empty cluster when it
  returns `False`.
- `saveClusterInfo_wellFormed`: on a well-formed tree the call on a file that opens
  returns `True` whenever `get_clusters` finds clusters, and the file names every CPU of
  their core tuples, each once. A file that does not open gives `False` and no file
  (`saveClusterInfo_not_opens`).
-/

set_option autoImplicit false

namespace TopologyPinning.Pipeline

open TopologyPinning.Python
open TopologyPinning.Topology TopologyPinning.Clusters TopologyPinning.Pinning

/-- The text that `f.write` leaves for a list of lines, each ended by a newline. -/
def writeLines (lines : List (List Char)) : List Char :=
  lines.flatMap (· ++ ['\n'])

/-- The four writes before the loop: three comment lines, the cache level, an empty
line. -/
def headerLines (nodename : String) (cache_level : Int) : List (List Char) :=
  ["# CPU Pinning Configuration".toList, ("# Generated on " ++ nodename).toList,
    "# Format: core[cluster_id][node_id][core_id]=smt_list".toList,
    ("# Cache optimization level: " ++ toString cache_level).toList, []]

/-- `f"{core_name}={cpu_list}"` with `core_name = f"core[{cluster_idx}][{node_idx}][{core_idx}]"`
and `cpu_list = ",".join(map(str, cpus))`. -/
def coreLine (cluster_idx node_idx core_idx : Nat) (cpus : List Int) : List Char :=
  ("core[" ++ toString cluster_idx ++ "][" ++ toString node_idx ++ "][" ++ toString core_idx ++
    "]=").toList ++ [','].intercalate (cpus.map fun c => (toString c).toList)

/-- The lines of node `node_idx` of cluster `cluster_idx`: its comment, then a core line
for each non-empty tuple of `cores_list` (`if cpus:`), numbered by its place there. -/
def nodeLines (cluster_idx node_idx : Nat) (node : NodeInfo) : List (List Char) :=
  ("# Node " ++ toString node.id ++ " (" ++ (if node.memory then "Memory" else "Compute") ++
    ")").toList ::
    node.coresList.enum.filterMap fun (core_idx, cpus) =>
      if cpus = [] then none else some (coreLine cluster_idx node_idx core_idx cpus)

/-- The lines of one pass of the loop over the clusters: the comment naming the memory
node `anchor = cluster[0]`, then the lines of the cluster's nodes. -/
def clusterBlock (cluster_idx : Nat) (anchor : NodeInfo) (cluster : List NodeInfo) :
    List (List Char) :=
  ("# Cluster " ++ toString cluster_idx ++ " (Memory Node: " ++ toString anchor.id ++ ")").toList ::
    cluster.enum.flatMap fun (node_idx, node) => nodeLines cluster_idx node_idx node

/-- The loop `for cluster_idx, cluster in enumerate(clusters)` from `cluster_idx` on: the
lines written, and the exception of `cluster[0]` that ends it at an empty cluster. -/
def clusterLines (cluster_idx : Nat) : List (List NodeInfo) → List (List Char) × Option PyExc
  | [] => ([], none)
  | cluster :: rest =>
    match getItem cluster 0 with
    | .error e => ([], some e)
    | .ok anchor =>
      let later := clusterLines (cluster_idx + 1) rest
      (clusterBlock cluster_idx anchor cluster ++ later.1, later.2)

/-- `SystemTopology.save_cluster_info(filename, cache_level)` on a machine named
`nodename`: the value returned, and the file written with the text it holds when the
`with` block closes it. Every exception gives `False`: an `open` that fails leaves no
file. -/
def saveClusterInfo (fs : Snapshot) (out : OutputFs) (nodename filename : String)
    (cache_level : Int) : Bool × Option (String × List Char) :=
  match (getClusters fs none cache_level).1 with
  | .error _ => (false, none)
  | .ok clusters =>
    if clusters = [] then (false, none)
    else if !out.opens filename then (false, none)
    else
      let written := clusterLines 0 clusters
      (written.2.isNone, some (filename, writeLines (headerLines nodename cache_level ++ written.1)))

/-! ## Reading the file back -/

/-- An index `n]` of a core name, `n` in decimal. -/
def readIndex (part : List Char) : Option Nat :=
  if part.getLast? = some ']' then natLiteral part.dropLast else none

/-- A line `core[i][j][k]=c,...,c` as its place `(i, j, k)` and its CPU ids, each read
with `int`; `none` for a line of another form. -/
def readCoreLine (line : List Char) : Option ((Nat × Nat × Nat) × List Int) :=
  match split '=' line with
  | [name, cpu_list] =>
    match split '[' name with
    | [pre, i, j, k] =>
      if pre = "core".toList then
        match readIndex i, readIndex j, readIndex k, ((split ',' cpu_list).mapM int).toOption with
        | some i, some j, some k, some cpus => some ((i, j, k), cpus)
        | _, _, _, _ => none
      else none
    | _ => none
  | _ => none

/-- The entry of the tuple `p.2` at place `p.1` of node `node_idx` of cluster
`cluster_idx`, when the tuple is not empty. -/
def coreEntry (cluster_idx node_idx : Nat) (p : Nat × List Int) :
    Option ((Nat × Nat × Nat) × List Int) :=
  if p.2 = [] then none else some ((cluster_idx, node_idx, p.1), p.2)

/-- The non-empty core tuples of cluster `cluster_idx`, with their places. -/
def clusterEntries (cluster_idx : Nat) (cluster : List NodeInfo) :
    List ((Nat × Nat × Nat) × List Int) :=
  cluster.enum.flatMap fun p => p.2.coresList.enum.filterMap (coreEntry cluster_idx p.1)

/-- The non-empty core tuples of a cluster list with their places: the cluster, the node
in it, the tuple in the node's `cores_list`. -/
def coreEntries (clusters : List (List NodeInfo)) : List ((Nat × Nat × Nat) × List Int) :=
  clusters.enum.flatMap fun p => clusterEntries p.1 p.2

/-! ## The lines of the file -/

theorem writeLines_eq (lines : List (List Char)) :
    writeLines lines = ['\n'].intercalate (lines ++ [[]]) := by
  induction lines with
  | nil => rfl
  | cons l ls ih =>
    obtain ⟨b, t, hbt⟩ := List.exists_cons_of_ne_nil (show ls ++ [[]] ≠ [] by simp)
    rw [writeLines, List.flatMap_cons, ← writeLines, ih, List.cons_append, hbt, intercalate_cons_cons]
    simp

/-- Lines without a newline, written and split at the newlines, come back with the empty
text after the last newline. -/
theorem split_writeLines {lines : List (List Char)} (h : ∀ l ∈ lines, '\n' ∉ l) :
    split '\n' (writeLines lines) = lines ++ [[]] := by
  rw [writeLines_eq]
  refine split_intercalate '\n' (fun l hl => ?_) (by simp)
  rcases List.mem_append.1 hl with hl | hl
  · exact h l hl
  · rw [List.mem_singleton.1 hl]
    exact List.not_mem_nil _

theorem newline_not_mem_toString_int (v : Int) : '\n' ∉ (toString v).toList := fun h => by
  rcases mem_toString_int h with h | h <;> exact absurd h (by decide)

theorem newline_not_mem_toString_nat (n : Nat) : '\n' ∉ (toString n).toList := fun h =>
  absurd ((toDigits_digits n).2 _ h) (by decide)

theorem newline_not_mem_append {a b : String} (ha : '\n' ∉ a.toList) (hb : '\n' ∉ b.toList) :
    '\n' ∉ (a ++ b).toList := by
  simpa only [String.toList, String.data_append, List.mem_append, not_or] using And.intro ha hb

theorem newline_not_mem_coreLine (i j k : Nat) (cpus : List Int) : '\n' ∉ coreLine i j k cpus := by
  refine fun h => (List.mem_append.1 h).elim ?_ fun h => ?_
  · repeat' apply newline_not_mem_append
    all_goals first | decide | exact newline_not_mem_toString_nat _
  · rcases mem_intercalate h with h | ⟨l, hl, hc⟩
    · exact absurd h (by decide)
    · obtain ⟨c, -, rfl⟩ := List.mem_map.1 hl
      exact newline_not_mem_toString_int c hc

theorem newline_not_mem_nodeLines (i j : Nat) (node : NodeInfo) :
    ∀ l ∈ nodeLines i j node, '\n' ∉ l := by
  intro l hl
  rcases List.mem_cons.1 hl with rfl | hl
  · repeat' apply newline_not_mem_append
    all_goals first | decide | exact newline_not_mem_toString_int _ | split <;> decide
  · obtain ⟨⟨k, cpus⟩, -, hk⟩ := List.mem_filterMap.1 hl
    dsimp only at hk
    split at hk
    · cases hk
    · cases hk
      exact newline_not_mem_coreLine i j k cpus

theorem newline_not_mem_clusterBlock (i : Nat) (a : NodeInfo) (c : List NodeInfo) :
    ∀ l ∈ clusterBlock i a c, '\n' ∉ l := by
  intro l hl
  rcases List.mem_cons.1 hl with rfl | hl
  · repeat' apply newline_not_mem_append
    all_goals first | decide | exact newline_not_mem_toString_int _ | exact newline_not_mem_toString_nat _
  · obtain ⟨⟨j, node⟩, -, hj⟩ := List.mem_flatMap.1 hl
    exact newline_not_mem_nodeLines i j node l hj

/-- The loop writes the blocks of the clusters before the first empty one, and ends with
`IndexError` when there is an empty one. -/
theorem clusterLines_eq : ∀ (i : Nat) (cs : List (List NodeInfo)),
    clusterLines i cs =
      (((cs.takeWhile fun c => !c.isEmpty).enumFrom i).flatMap fun p =>
          clusterBlock p.1 (p.2.getD 0 default) p.2,
        if cs.all fun c => !c.isEmpty then none else some .indexError)
  | _, [] => rfl
  | _, [] :: _ => rfl
  | i, (a :: c) :: rest => by
    rw [clusterLines, show getItem (a :: c) 0 = .ok a by simp [getItem], clusterLines_eq (i + 1) rest]
    simp

/-! ## Reading each line -/

/-- A comment line is not read as a core line. -/
theorem readCoreLine_comment {line : List Char} (h : line.head? = some '#') :
    readCoreLine line = none := by
  obtain ⟨rest, rfl⟩ : ∃ rest, line = '#' :: rest := by
    cases line with
    | nil => cases h
    | cons c rest => exact ⟨rest, by rw [Option.some.inj h]⟩
  obtain ⟨p, ps, hp⟩ := split_cons_of_ne (show '#' ≠ '=' by decide) rest
  obtain ⟨q, qs, hq⟩ := split_cons_of_ne (show '#' ≠ '[' by decide) p
  unfold readCoreLine
  rw [hp]
  split
  · rename_i name cpu_list h
    cases h
    rw [hq]
    split
    · rename_i pre i j k h
      cases h
      rw [if_neg (by simp)]
    · rfl
  · rfl

/-- A core line is its name and its CPU list joined by `=`, and the name is `core` and the
three indices, each closed by `]`, joined by `[`. -/
theorem coreLine_eq (i j k : Nat) (cpus : List Int) :
    coreLine i j k cpus = ['='].intercalate
      [['['].intercalate ["core".toList, (toString i).toList ++ [']'], (toString j).toList ++ [']'],
        (toString k).toList ++ [']']], [','].intercalate (cpus.map fun c => (toString c).toList)] := by
  simp [coreLine, List.intercalate]

/-- A character that is neither a digit nor `]` is not in an index. -/
theorem not_mem_index {x : Char} (hx : x.isDigit = false) (hb : x ≠ ']') (n : Nat) :
    x ∉ (toString n).toList ++ [']'] := fun h =>
  (List.mem_append.1 h).elim (fun h => absurd ((toDigits_digits n).2 x h) (by simp [hx]))
    fun h => hb (List.mem_singleton.1 h)

theorem readIndex_toString (n : Nat) : readIndex ((toString n).toList ++ [']']) = some n := by
  rw [readIndex, List.getLast?_concat, if_pos rfl, List.dropLast_concat]
  exact natLiteral_toDigits n

/-- A core line reads back as the place and the CPUs written. -/
theorem readCoreLine_coreLine (i j k : Nat) {cpus : List Int} (h : cpus ≠ [])
    (hb : ∀ c ∈ cpus, c.natAbs < 10 ^ maxStrDigits) :
    readCoreLine (coreLine i j k cpus) = some ((i, j, k), cpus) := by
  have hparts : ∀ l ∈ ["core".toList, (toString i).toList ++ [']'], (toString j).toList ++ [']'],
      (toString k).toList ++ [']']], '[' ∉ l := by
    simp only [List.mem_cons, List.not_mem_nil, or_false]
    rintro l (rfl | rfl | rfl | rfl)
    · decide
    all_goals exact not_mem_index (by decide) (by decide) _
  have hcpu : ∀ l ∈ cpus.map fun c => (toString c).toList, ∀ x ∈ l, x = '-' ∨ x.isDigit = true := by
    intro l hl x hx
    obtain ⟨c, -, rfl⟩ := List.mem_map.1 hl
    exact mem_toString_int hx
  have hline : split '=' (coreLine i j k cpus) = [['['].intercalate ["core".toList,
      (toString i).toList ++ [']'], (toString j).toList ++ [']'], (toString k).toList ++ [']']],
      [','].intercalate (cpus.map fun c => (toString c).toList)] := by
    rw [coreLine_eq]
    refine split_intercalate '=' (fun l hl hx => ?_) (List.cons_ne_nil _ _)
    simp only [List.mem_cons, List.not_mem_nil, or_false] at hl
    rcases hl with rfl | rfl <;> rcases mem_intercalate hx with hx | ⟨l, hl, hx⟩
    · exact absurd hx (by decide)
    · simp only [List.mem_cons, List.not_mem_nil, or_false] at hl
      rcases hl with rfl | rfl | rfl | rfl
      · exact absurd hx (by decide)
      all_goals exact not_mem_index (by decide) (by decide) _ hx
    · exact absurd hx (by decide)
    · exact absurd (hcpu l hl _ hx) (by decide)
  have hcpus : (split ',' ([','].intercalate (cpus.map fun c => (toString c).toList))).mapM int =
      .ok cpus := by
    rw [split_intercalate ',' (fun l hl hx => absurd (hcpu l hl _ hx) (by decide)) (by simpa using h)]
    simpa using mapM_map_eq_ok (k := id) fun c hc => int_toString (hb c hc)
  rw [readCoreLine, hline]
  dsimp only
  rw [split_intercalate '[' hparts (List.cons_ne_nil _ _)]
  dsimp only
  rw [if_pos rfl, readIndex_toString, readIndex_toString, readIndex_toString, hcpus]
  rfl

/-! ## Reading the file -/

theorem filterMap_nodeLines (i j : Nat) {node : NodeInfo}
    (hb : ∀ t ∈ node.coresList, ∀ c ∈ t, c.natAbs < 10 ^ maxStrDigits) :
    (nodeLines i j node).filterMap readCoreLine = node.coresList.enum.filterMap (coreEntry i j) := by
  rw [nodeLines, List.filterMap_cons_none (readCoreLine_comment (by simp)), List.filterMap_filterMap]
  refine List.filterMap_congr fun ⟨k, cpus⟩ hk => ?_
  by_cases hc : cpus = []
  · simp [coreEntry, hc]
  · simp only [coreEntry, hc, if_false, Option.some_bind,
      readCoreLine_coreLine i j k hc (hb cpus (List.snd_mem_of_mem_enum hk))]

theorem filterMap_clusterBlock (i : Nat) (a : NodeInfo) {c : List NodeInfo}
    (hb : ∀ n ∈ c, ∀ t ∈ n.coresList, ∀ x ∈ t, x.natAbs < 10 ^ maxStrDigits) :
    (clusterBlock i a c).filterMap readCoreLine = clusterEntries i c := by
  rw [clusterBlock, List.filterMap_cons_none (readCoreLine_comment (by simp)), List.filterMap_flatMap,
    clusterEntries]
  exact List.flatMap_congr fun p hp => filterMap_nodeLines i p.1 (hb p.2 (List.snd_mem_of_mem_enum hp))

/-- The core lines of a file written up to the loop's end read back as the entries of the
clusters before the first empty one. -/
theorem readBack_writeLines {nodename : String} (hn : '\n' ∉ nodename.toList) (cache_level : Int)
    {cs : List (List NodeInfo)} (hb : ∀ t ∈ allTuples cs, ∀ x ∈ t, x.natAbs < 10 ^ maxStrDigits) :
    (split '\n' (writeLines (headerLines nodename cache_level ++ (clusterLines 0 cs).1))).filterMap
      readCoreLine = coreEntries (cs.takeWhile fun c => !c.isEmpty) := by
  have hlines : ∀ l ∈ headerLines nodename cache_level ++ (clusterLines 0 cs).1, '\n' ∉ l := by
    intro l hl
    rcases List.mem_append.1 hl with hl | hl
    · simp only [headerLines, List.mem_cons, List.not_mem_nil, or_false] at hl
      rcases hl with rfl | rfl | rfl | rfl | rfl
      · decide
      · exact newline_not_mem_append (by decide) hn
      · decide
      · exact newline_not_mem_append (by decide) (newline_not_mem_toString_int _)
      · exact List.not_mem_nil _
    · rw [clusterLines_eq] at hl
      obtain ⟨p, -, hp⟩ := List.mem_flatMap.1 hl
      exact newline_not_mem_clusterBlock _ _ _ l hp
  rw [split_writeLines hlines, List.filterMap_append, List.filterMap_append, clusterLines_eq,
    List.filterMap_flatMap]
  have hhead : (headerLines nodename cache_level).filterMap readCoreLine = [] := by
    refine List.filterMap_eq_nil_iff.2 fun l hl => ?_
    simp only [headerLines, List.mem_cons, List.not_mem_nil, or_false] at hl
    rcases hl with rfl | rfl | rfl | rfl | rfl
    all_goals first | rfl | exact readCoreLine_comment (by simp)
  rw [hhead, List.nil_append, show ([[]] : List (List Char)).filterMap readCoreLine = [] from rfl,
    List.append_nil, coreEntries]
  refine List.flatMap_congr fun p hp => filterMap_clusterBlock _ _ fun n hn t ht => hb t ?_
  have hc := (List.takeWhile_sublist _).subset (List.snd_mem_of_mem_enumFrom hp)
  exact List.mem_flatMap.2 ⟨p.2, hc, List.mem_flatMap.2 ⟨n, hn, ht⟩⟩

/-! ## What the file says -/

theorem flatMap_enum {α β : Type} (f : α → List β) (l : List α) :
    l.enum.flatMap (fun p => f p.2) = l.flatMap f := by
  conv_rhs => rw [← List.enum_map_snd l]
  rw [List.flatMap_map]

theorem flatMap_snd_filterMap_coreEntry (i j : Nat) : ∀ l : List (Nat × List Int),
    (l.filterMap (coreEntry i j)).flatMap Prod.snd = (l.map Prod.snd).flatten
  | [] => rfl
  | (k, cpus) :: l => by
    by_cases hc : cpus = [] <;> simp [coreEntry, hc, flatMap_snd_filterMap_coreEntry i j l]

/-- The CPUs of the entries of a cluster list, in order, are those of its core tuples. -/
theorem flatMap_snd_coreEntries (cs : List (List NodeInfo)) :
    (coreEntries cs).flatMap Prod.snd = (allTuples cs).flatten := by
  simp only [coreEntries, clusterEntries, allTuples, List.flatMap_assoc,
    flatMap_snd_filterMap_coreEntry, List.enum_map_snd, flatten_flatMap]
  have hinner : ∀ c : List NodeInfo, (c.enum.flatMap fun p => p.2.coresList.flatten) =
      c.flatMap fun n => n.coresList.flatten := flatMap_enum fun n : NodeInfo => n.coresList.flatten
  simp only [hinner]
  exact flatMap_enum (fun c : List NodeInfo => c.flatMap fun n => n.coresList.flatten) cs

/-- For nodes with distinct ids `≥ 0`, every cluster `get_clusters` returns holds a node. -/
theorem getClusters_ne_nil {fs : Snapshot} {cache_level : Int} {nodes nodes' : List NodeInfo}
    {cs : List (List NodeInfo)} (hd : (nodes.map NodeInfo.id).Nodup) (hnn : ∀ n ∈ nodes, 0 ≤ n.id)
    (h : getClusters fs (some nodes) cache_level = (.ok cs, nodes')) : ∀ c ∈ cs, c ≠ [] := by
  by_cases hm : ∃ m ∈ nodes, m.memory
  · obtain ⟨-, rfl⟩ := getClusters_eq_ok hd hnn hm h
    intro c hc
    obtain ⟨c', hc', rfl⟩ := List.mem_map.1 hc
    obtain ⟨m, -, rfl⟩ := List.mem_map.1 hc'
    exact List.cons_ne_nil _ _
  · have hany : nodes.any (·.memory) = false := by simpa using hm
    by_cases hne : nodes = []
    · simp only [getClusters, Option.elim, hne, if_true, Prod.mk.injEq] at h
      obtain ⟨⟨⟩, -⟩ := h
      exact fun c hc => absurd hc (List.not_mem_nil c)
    · simp only [getClusters, Option.elim, hne, hany, if_false, Bool.not_false, if_true,
        Prod.mk.injEq, Except.ok.injEq] at h
      obtain ⟨rfl, -⟩ := h
      exact fun c hc => (List.mem_singleton.1 hc) ▸ hne

/-- A call whose file does not open returns `False` and writes nothing. -/
theorem saveClusterInfo_not_opens (fs : Snapshot) {out : OutputFs} (nodename : String)
    {filename : String} (hopen : out.opens filename = false) (cache_level : Int) :
    saveClusterInfo fs out nodename filename cache_level = (false, none) := by
  unfold saveClusterInfo
  split
  · rfl
  · simp only [hopen, Bool.not_false, if_true, ite_self]

/-- On a well-formed tree, when `get_clusters` finds clusters and the file opens,
`save_cluster_info` returns `True` with a file whose core lines read back as the entries of
every cluster. -/
theorem saveClusterInfo_of_wellFormed {fs : Snapshot} (hw : WellFormed fs) {out : OutputFs}
    {nodename : String} (hn : '\n' ∉ nodename.toList) {filename : String}
    (hopen : out.opens filename = true) {cache_level : Int}
    {cs : List (List NodeInfo)} (hcs : (getClusters fs none cache_level).1 = .ok cs) (hne : cs ≠ []) :
    ∃ text, saveClusterInfo fs out nodename filename cache_level = (true, some (filename, text)) ∧
      (split '\n' text).filterMap readCoreLine = coreEntries cs := by
  cases hnodes : getNodesInfo fs with
  | error e => simp [getClusters, Option.elim, hnodes] at hcs
  | ok nodes =>
    obtain ⟨hd, hnn, -⟩ := getNodesInfo_distinct hw hnodes
    have hall : ∀ c ∈ cs, c ≠ [] :=
      getClusters_ne_nil hd hnn (Prod.ext ((getClusters_none hnodes cache_level) ▸ hcs) rfl)
    have htake : (cs.takeWhile fun c => !c.isEmpty) = cs :=
      List.takeWhile_eq_self_iff.2 fun c hc => by simpa using hall c hc
    refine ⟨writeLines (headerLines nodename cache_level ++ (clusterLines 0 cs).1), ?_,
      (readBack_writeLines hn cache_level (getClusters_natAbs_lt hcs)).trans (by rw [htake])⟩
    have hok : (clusterLines 0 cs).2 = none := by
      rw [clusterLines_eq, if_pos (List.all_eq_true.2 fun c hc => by simpa using hall c hc)]
    simp only [saveClusterInfo, hcs, if_neg hne, hopen, Bool.not_true, Bool.false_eq_true, if_false,
      hok, Option.isNone_none]

end TopologyPinning.Pipeline
