import TopologyPinning.Topology.Snapshot

/-!
# NUMA nodes and their core tuples

`getNodesInfo` is `get_nodes_info`: it reads the set of memory nodes, then for every
`node<N>` entry its `cpulist`, its `distance` vector, and the sibling list of every
listed CPU. The non-empty sibling lists become the node's core tuples, with repeats
removed by a loop over a `seen` set. A `cpulist` range `a-b` becomes
`list(range(a, b + 1))` (`intRange`), which raises `OverflowError` beyond `sys.maxsize`
elements and `MemoryError` beyond what the interpreter can allocate: neither is caught by
the per-node handler.

`dedupCores_firstOccurrences` shows that the loop keeps exactly the first
occurrence of every tuple, in order. On that, `getNodesInfo_coresList` describes the
core tuples of every node the scan returns: the distinct non-empty sibling lists of
its CPUs in order of first occurrence and, when the sibling lists are consistent,
one tuple per CPU and nothing outside the node; every id of a core tuple is an `int()`
result (`getNodesInfo_natAbs_lt`).
-/

set_option autoImplicit false

namespace TopologyPinning.Topology

open TopologyPinning.Python

/-! ## Parsing and reading one node -/

/-- `has_memory`: the ids of the nodes with memory. Only `IOError` is caught, with
the empty set as result; a text that does not parse raises `ValueError`. -/
def memoryNodes (fs : Snapshot) : Except PyExc (List Int) :=
  match fs.readFile (nodePath ++ ["has_memory"]) with
  | none => .ok []
  | some text => intList text.toList

/-- `sys.maxsize` of a 64-bit CPython: no list is longer. -/
def maxSize : Nat := 2 ^ 63 - 1

/-- `list(range(start, stop))` where a list can be given at most `capacity` elements:
`OverflowError` when the length exceeds `sys.maxsize`, `MemoryError` when it exceeds
`capacity`. -/
def intRange (capacity : Nat) (start stop : Int) : Except PyExc (List Int) :=
  if maxSize < (stop - start).toNat then .error .overflowError
  else if capacity < (stop - start).toNat then .error .memoryError
  else .ok ((List.range (stop - start).toNat).map fun i : Nat => start + i)

/-- The `cpulist` parse of `get_nodes_info`: one range `a-b` when the text holds a
dash (unpacking anything but two parts raises `ValueError`), a comma list with
blank items skipped otherwise. -/
def parseCpulist (capacity : Nat) (cpus_data : List Char) : Except PyExc (List Int) :=
  if '-' ∈ cpus_data then
    match split '-' cpus_data with
    | [a, b] => do
      let start ← int a
      let stop ← int b
      intRange capacity start (stop + 1)
    | _ => .error .valueError
  else ((split ',' cpus_data).filter fun i => !(strip i).isEmpty).mapM int

/-- The CPUs of the node entry `name`: its `cpulist` file, stripped and parsed. -/
def nodeCpulist (fs : Snapshot) (name : String) : Except PyExc (List Int) := do
  parseCpulist fs.maxListLength (strip (← readText fs (nodePath ++ [name, "cpulist"])))

/-- The loop "remove duplicates while preserving order" of `get_nodes_info`: a tuple
is kept when it is not in `seen`, and is then added to `seen`. -/
def dedupCores : List (List Int) → List (List Int) → List (List Int) → List (List Int)
  | [], _, unique_cores => unique_cores
  | core :: rest, seen, unique_cores =>
    if core ∈ seen then dedupCores rest seen unique_cores
    else dedupCores rest (core :: seen) (unique_cores ++ [core])

/-- The body of the per-node `try` block of `get_nodes_info` for the entry `name`
whose number is `node_id`. -/
def readNode (fs : Snapshot) (memory_nodes : List Int) (name : String) (node_id : Int) :
    Except PyExc NodeInfo := do
  let cpus ← nodeCpulist fs name
  let distances ← (splitWs (strip (← readText fs (nodePath ++ [name, "distance"])))).mapM int
  let siblings ← cpus.mapM (getCpusLogicalIds fs)
  pure ⟨node_id, decide (node_id ∈ memory_nodes),
    dedupCores (siblings.filter (· ≠ [])) [] [], distances⟩

/-- One pass of the loop over the `node<N>` entries: the entry's number, then its
`try` block, `none` when the handler caught an exception. -/
def nodeEntry (fs : Snapshot) (memory_nodes : List Int) (name : String) :
    Except PyExc (Option NodeInfo) := do
  let node_id ← entryNumber "node" name
  catching entryError (readNode fs memory_nodes name node_id)

/-- `get_nodes_info`: one record per readable `node<N>` entry, sorted by id. An entry
whose reads fail is skipped; an unlistable node root gives `[]`. -/
def getNodesInfo (fs : Snapshot) : Except PyExc (List NodeInfo) := do
  let memory_nodes ← memoryNodes fs
  match fs.listDir nodePath with
  | none => .ok []
  | some entries => do
    let nodes ← (entries.filter (numberedEntry "node")).mapM (nodeEntry fs memory_nodes)
    pure (sorted NodeInfo.id (nodes.filterMap id))

/-! ## The dedup loop keeps first occurrences -/

/-- `r` lists every element of `l` exactly once, in order of first occurrence in `l`. -/
def FirstOccurrences {α : Type} [BEq α] (l r : List α) : Prop :=
  r.Nodup ∧ (∀ a, a ∈ r ↔ a ∈ l) ∧ r.Sorted fun a b => l.indexOf a < l.indexOf b

theorem dedupCores_append (l : List (List Int)) :
    ∀ seen unique_cores, dedupCores l seen unique_cores = unique_cores ++ dedupCores l seen [] := by
  induction l with
  | nil => simp [dedupCores]
  | cons c rest ih =>
    intro seen u
    by_cases hc : c ∈ seen
    · simp only [dedupCores, hc, if_true]; exact ih seen u
    · simp only [dedupCores, hc, if_false, List.nil_append]
      rw [ih, ih _ [c], List.append_assoc, List.singleton_append]

theorem dedupCores_cons (c : List Int) (rest seen : List (List Int)) :
    dedupCores (c :: rest) seen [] =
      if c ∈ seen then dedupCores rest seen [] else c :: dedupCores rest (c :: seen) [] := by
  by_cases hc : c ∈ seen
  · simp [dedupCores, hc]
  · simp only [dedupCores, hc, if_false, List.nil_append]
    rw [dedupCores_append, List.singleton_append]

theorem mem_dedupCores (l : List (List Int)) :
    ∀ seen t, t ∈ dedupCores l seen [] ↔ t ∈ l ∧ t ∉ seen := by
  induction l with
  | nil => simp [dedupCores]
  | cons c rest ih =>
    intro seen t
    rw [dedupCores_cons]
    by_cases hc : c ∈ seen
    · simp only [hc, if_true, ih, List.mem_cons]
      constructor
      · exact fun h => ⟨Or.inr h.1, h.2⟩
      · rintro ⟨rfl | h, ht⟩
        · exact absurd hc ht
        · exact ⟨h, ht⟩
    · simp only [hc, if_false, List.mem_cons, ih, not_or]
      by_cases htc : t = c
      · subst htc; simp [hc]
      · simp [htc]

theorem nodup_dedupCores (l : List (List Int)) : ∀ seen, (dedupCores l seen []).Nodup := by
  induction l with
  | nil => simp [dedupCores]
  | cons c rest ih =>
    intro seen
    rw [dedupCores_cons]
    split
    · exact ih seen
    · exact List.nodup_cons.2 ⟨by simp [mem_dedupCores], ih _⟩

theorem sorted_dedupCores (l : List (List Int)) :
    ∀ seen, (dedupCores l seen []).Sorted fun a b => l.indexOf a < l.indexOf b := by
  induction l with
  | nil => simp [dedupCores]
  | cons c rest ih =>
    intro seen
    rw [dedupCores_cons]
    -- entries other than `c` keep their relative first-occurrence order
    have shift : ∀ s, c ∈ s → (dedupCores rest s []).Sorted
        fun a b => (c :: rest).indexOf a < (c :: rest).indexOf b := fun s hs =>
      (ih s).imp_of_mem fun ha hb hab => by
        have hac : _ ≠ c := fun h => ((mem_dedupCores rest s _).1 (h ▸ ha)).2 hs
        have hbc : _ ≠ c := fun h => ((mem_dedupCores rest s _).1 (h ▸ hb)).2 hs
        simpa [List.indexOf_cons, beq_eq_false_iff_ne.2 (Ne.symm hac),
          beq_eq_false_iff_ne.2 (Ne.symm hbc)] using hab
    split
    · exact shift seen ‹_›
    · refine List.sorted_cons.2 ⟨fun b hb => ?_, shift _ (List.mem_cons_self _ _)⟩
      have hbc : b ≠ c := fun h => ((mem_dedupCores rest _ b).1 hb).2 (h ▸ List.mem_cons_self _ _)
      simp [List.indexOf_cons, beq_eq_false_iff_ne.2 (Ne.symm hbc)]

/-- The dedup loop of `get_nodes_info` keeps the first occurrence of every tuple. -/
theorem dedupCores_firstOccurrences (l : List (List Int)) :
    FirstOccurrences l (dedupCores l [] []) :=
  ⟨nodup_dedupCores l [], fun t => by simp [mem_dedupCores], sorted_dedupCores l []⟩

/-! ## The core tuples of a returned node -/

/-- The parsed `thread_siblings_list` of CPU `c`, `[]` when it cannot be read or
parsed. -/
def siblingsOf (fs : Snapshot) (c : Int) : List Int :=
  match getCpusLogicalIds fs c with
  | .ok s => s
  | .error _ => []

theorem siblingsOf_natAbs_lt (fs : Snapshot) (c : Int) :
    ∀ x ∈ siblingsOf fs c, x.natAbs < 10 ^ maxStrDigits := by
  unfold siblingsOf
  split
  · exact getCpusLogicalIds_natAbs_lt ‹_›
  · exact fun x hx => absurd hx (List.not_mem_nil x)

/-- Consistent sibling lists for the CPUs `L`: each non-empty one is duplicate-free,
holds its own CPU, lies within `L`, and is the list of every CPU it holds. -/
def SiblingsConsistent (L : List Int) (sib : Int → List Int) : Prop :=
  ∀ c ∈ L, sib c ≠ [] →
    (sib c).Nodup ∧ c ∈ sib c ∧ (∀ d ∈ sib c, d ∈ L) ∧ ∀ d ∈ sib c, sib d = sib c

/-- What a node read from the entry `name` with CPUs `L` holds as core tuples: the
distinct non-empty sibling lists of `L` in order of first occurrence and, for
consistent sibling lists, exactly one tuple per CPU and no CPU outside `L`. -/
def CoresListLaw (fs : Snapshot) (L : List Int) (n : NodeInfo) : Prop :=
  (∀ c ∈ L, getCpusLogicalIds fs c = .ok (siblingsOf fs c)) ∧
  FirstOccurrences ((L.map (siblingsOf fs)).filter (· ≠ [])) n.coresList ∧
  (SiblingsConsistent L (siblingsOf fs) →
    (∀ c ∈ L, siblingsOf fs c ≠ [] → n.coresList.countP (fun t => c ∈ t) = 1) ∧
    ∀ t ∈ n.coresList, ∀ c ∈ t, c ∈ L)

theorem countP_eq_one_of_unique {α : Type} {p : α → Bool} {a : α} :
    ∀ {r : List α}, r.Nodup → a ∈ r → p a → (∀ b ∈ r, p b → b = a) → r.countP p = 1
  | [], _, ha, _, _ => by simp at ha
  | b :: r, hr, ha, hpa, h => by
    rw [List.countP_cons]
    by_cases hba : b = a
    · subst hba
      have : r.countP p = 0 := List.countP_eq_zero.2 fun x hx hpx =>
        (List.nodup_cons.1 hr).1 (h x (List.mem_cons_of_mem _ hx) hpx ▸ hx)
      simp [this, hpa]
    · have hpb : p b = false := by
        by_contra hpb; exact hba (h b (List.mem_cons_self _ _) (by simpa using hpb))
      rw [hpb, countP_eq_one_of_unique (List.nodup_cons.1 hr).2
        ((List.mem_cons.1 ha).resolve_left (Ne.symm hba)) hpa
        fun x hx => h x (List.mem_cons_of_mem _ hx)]
      rfl

section Consistent

variable {L : List Int} {sib : Int → List Int} {r : List (List Int)}

theorem mem_tuples_iff {t : List Int} :
    t ∈ (L.map sib).filter (· ≠ []) ↔ ∃ c ∈ L, sib c = t ∧ t ≠ [] := by
  simp only [List.mem_filter, List.mem_map, decide_eq_true_eq]
  constructor
  · rintro ⟨⟨c, hc, rfl⟩, ht⟩; exact ⟨c, hc, rfl, ht⟩
  · rintro ⟨c, hc, rfl, ht⟩; exact ⟨⟨c, hc, rfl⟩, ht⟩

/-- With consistent sibling lists a CPU with siblings lies in exactly one tuple. -/
theorem countP_mem_eq_one (hs : SiblingsConsistent L sib)
    (hr : FirstOccurrences ((L.map sib).filter (· ≠ [])) r) {c : Int} (hc : c ∈ L)
    (hne : sib c ≠ []) : r.countP (fun t => c ∈ t) = 1 := by
  refine countP_eq_one_of_unique hr.1 ((hr.2.1 _).2 (mem_tuples_iff.2 ⟨c, hc, rfl, hne⟩))
    (by simpa using (hs c hc hne).2.1) fun t ht hct => ?_
  obtain ⟨c', hc', rfl, hne'⟩ := mem_tuples_iff.1 ((hr.2.1 t).1 ht)
  exact ((hs c' hc' hne').2.2.2 c (by simpa using hct)).symm

/-- With consistent sibling lists no tuple holds a CPU outside `L`. -/
theorem mem_of_mem_tuple (hs : SiblingsConsistent L sib)
    (hr : FirstOccurrences ((L.map sib).filter (· ≠ [])) r) :
    ∀ t ∈ r, ∀ d ∈ t, d ∈ L := by
  intro t ht d hd
  obtain ⟨c, hc, rfl, hne⟩ := mem_tuples_iff.1 ((hr.2.1 t).1 ht)
  exact (hs c hc hne).2.2.1 d hd

/-- With consistent sibling lists the tuples hold no CPU twice: a CPU `d` of a tuple
`sib c` has `sib d = sib c`, so two tuples sharing `d` are equal. -/
theorem nodup_flatten_of_consistent (hs : SiblingsConsistent L sib)
    (hr : FirstOccurrences ((L.map sib).filter (· ≠ [])) r) : r.flatten.Nodup := by
  refine List.nodup_flatten.2 ⟨fun t ht => ?_, hr.1.pairwise_of_forall_ne fun t₁ h₁ t₂ h₂ hne => ?_⟩
  · obtain ⟨c, hc, rfl, hne⟩ := mem_tuples_iff.1 ((hr.2.1 t).1 ht)
    exact (hs c hc hne).1
  · obtain ⟨c₁, hc₁, rfl, hne₁⟩ := mem_tuples_iff.1 ((hr.2.1 _).1 h₁)
    obtain ⟨c₂, hc₂, rfl, hne₂⟩ := mem_tuples_iff.1 ((hr.2.1 _).1 h₂)
    intro d hd₁ hd₂
    exact hne (((hs c₁ hc₁ hne₁).2.2.2 d hd₁).symm.trans ((hs c₂ hc₂ hne₂).2.2.2 d hd₂))

end Consistent

theorem readNode_eq_ok {fs : Snapshot} {memory_nodes : List Int} {name : String}
    {node_id : Int} {n : NodeInfo} (h : readNode fs memory_nodes name node_id = .ok n) :
    ∃ L sibs, nodeCpulist fs name = .ok L ∧ L.mapM (getCpusLogicalIds fs) = .ok sibs ∧
      n.id = node_id ∧ n.coresList = dedupCores (sibs.filter (· ≠ [])) [] [] := by
  simp only [readNode, bind_eq_ok, pure_eq, Except.ok.injEq] at h
  obtain ⟨L, hL, _, _, _, _, sibs, hs, rfl⟩ := h
  exact ⟨L, sibs, hL, hs, rfl, rfl⟩

/-- A node the loop kept was read from its entry under the entry's number. -/
theorem nodeEntry_eq_some {fs : Snapshot} {memory_nodes : List Int} {name : String}
    {n : NodeInfo} (h : nodeEntry fs memory_nodes name = .ok (some n)) :
    entryNumber "node" name = .ok n.id ∧ readNode fs memory_nodes name n.id = .ok n := by
  simp only [nodeEntry, bind_eq_ok, catching_eq_ok_some] at h
  obtain ⟨node_id, hid, hrd⟩ := h
  obtain ⟨-, -, -, -, rfl, -⟩ := readNode_eq_ok hrd
  exact ⟨hid, hrd⟩

/-- Every node `getNodesInfo` returns was read from one `node<N>` entry. -/
theorem getNodesInfo_mem {fs : Snapshot} {nodes : List NodeInfo}
    (h : getNodesInfo fs = .ok nodes) {n : NodeInfo} (hn : n ∈ nodes) :
    ∃ entries name mem, fs.listDir nodePath = some entries ∧
      name ∈ entries.filter (numberedEntry "node") ∧ memoryNodes fs = .ok mem ∧
      entryNumber "node" name = .ok n.id ∧ readNode fs mem name n.id = .ok n := by
  simp only [getNodesInfo, bind_eq_ok] at h
  obtain ⟨mem, hmem, h⟩ := h
  split at h
  · simp at h; subst h; simp at hn
  · rename_i entries hentries
    simp only [bind_eq_ok, pure_eq, Except.ok.injEq] at h
    obtain ⟨results, hres, rfl⟩ := h
    obtain ⟨o, ho, hon⟩ := List.mem_filterMap.1 (mem_sorted.1 hn)
    cases hon
    obtain ⟨name, hname, hread⟩ := exists_of_mem_mapM hres ho
    exact ⟨entries, name, mem, hentries, hname, hmem, nodeEntry_eq_some hread⟩

/-- The ids of the nodes `get_nodes_info` returns are entry numbers, so `≥ 0`. -/
theorem getNodesInfo_id_nonneg {fs : Snapshot} {nodes : List NodeInfo}
    (h : getNodesInfo fs = .ok nodes) (n : NodeInfo) (hn : n ∈ nodes) : 0 ≤ n.id := by
  obtain ⟨_, name, _, -, hname, -, hid, -⟩ := getNodesInfo_mem h hn
  exact entryNumber_nonneg (List.mem_filter.1 hname).2 hid

/-- A node read from the entry `name` satisfies `CoresListLaw` for the entry's CPUs. -/
theorem readNode_coresList {fs : Snapshot} {memory_nodes : List Int} {name : String}
    {node_id : Int} {n : NodeInfo} (h : readNode fs memory_nodes name node_id = .ok n) :
    ∃ L, nodeCpulist fs name = .ok L ∧ CoresListLaw fs L n := by
  obtain ⟨L, sibs, hL, hsibs, -, hcores⟩ := readNode_eq_ok h
  have hmap : sibs = L.map (siblingsOf fs) :=
    eq_map_of_mapM_ok hsibs _ fun c s hc => by simp [siblingsOf, hc]
  have hfirst : FirstOccurrences ((L.map (siblingsOf fs)).filter (· ≠ [])) n.coresList :=
    hcores ▸ hmap ▸ dedupCores_firstOccurrences _
  refine ⟨L, hL, fun c hc => ?_, hfirst,
    fun hs => ⟨fun c hc hne => countP_mem_eq_one hs hfirst hc hne, mem_of_mem_tuple hs hfirst⟩⟩
  obtain ⟨s, hcs⟩ := ok_of_mem_mapM hsibs hc
  simp [siblingsOf, hcs]

/-- The core tuples of every node `get_nodes_info` returns: the node was read from
an entry `name` whose `cpulist` parses to some `L`, and `CoresListLaw` holds. -/
theorem getNodesInfo_coresList {fs : Snapshot} {nodes : List NodeInfo}
    (h : getNodesInfo fs = .ok nodes) (n : NodeInfo) (hn : n ∈ nodes) :
    ∃ entries name L, fs.listDir nodePath = some entries ∧
      name ∈ entries.filter (numberedEntry "node") ∧ entryNumber "node" name = .ok n.id ∧
      nodeCpulist fs name = .ok L ∧ CoresListLaw fs L n := by
  obtain ⟨entries, name, mem, hentries, hname, -, hid, hrd⟩ := getNodesInfo_mem h hn
  obtain ⟨L, hL, hlaw⟩ := readNode_coresList hrd
  exact ⟨entries, name, L, hentries, hname, hid, hL, hlaw⟩

/-- The CPU ids of the core tuples of the nodes read are `int()` results. -/
theorem getNodesInfo_natAbs_lt {fs : Snapshot} {nodes : List NodeInfo}
    (h : getNodesInfo fs = .ok nodes) : ∀ n ∈ nodes, ∀ t ∈ n.coresList, ∀ x ∈ t,
      x.natAbs < 10 ^ maxStrDigits := by
  intro n hn t ht x hx
  obtain ⟨-, -, L, -, -, -, -, -, hfirst, -⟩ := getNodesInfo_coresList h n hn
  obtain ⟨c, -, rfl⟩ := List.mem_map.1 (List.mem_filter.1 ((hfirst.2.1 t).1 ht)).1
  exact siblingsOf_natAbs_lt fs c x hx

/-- One memory node `node0` whose CPUs 0 and 1 are SMT siblings. -/
def smtPairTree : Snapshot where
  listDir p := if p = nodePath then some ["node0", "has_memory"] else none
  readFile p :=
    if p = nodePath ++ ["has_memory"] then some "0\n"
    else if p = nodePath ++ ["node0", "cpulist"] then some "0-1\n"
    else if p = nodePath ++ ["node0", "distance"] then some "10\n"
    else if p = cpuDir 0 ++ ["topology", "thread_siblings_list"] ∨
        p = cpuDir 1 ++ ["topology", "thread_siblings_list"] then some "0,1\n"
    else none
  maxListLength := 2 ^ 30

theorem getNodesInfo_coresList_smtPair :
    getNodesInfo smtPairTree = .ok [⟨0, true, [[0, 1]], [10]⟩] ∧
    ∃ entries name L, smtPairTree.listDir nodePath = some entries ∧
      name ∈ entries.filter (numberedEntry "node") ∧ entryNumber "node" name = .ok 0 ∧
      nodeCpulist smtPairTree name = .ok L ∧ CoresListLaw smtPairTree L ⟨0, true, [[0, 1]], [10]⟩ :=
  have h : getNodesInfo smtPairTree = .ok [⟨0, true, [[0, 1]], [10]⟩] := rfl
  ⟨h, getNodesInfo_coresList h _ (List.mem_singleton_self _)⟩

end TopologyPinning.Topology
