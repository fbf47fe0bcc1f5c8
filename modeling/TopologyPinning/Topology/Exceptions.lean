import TopologyPinning.Topology.Nodes

/-!
# Which exceptions the readers raise

The reads of `get_cpu_info` and of the per-node loop of `get_nodes_info` sit in `try`
blocks that catch `IOError`, `FileNotFoundError` and `ValueError` (`entryError`). Every
reader under them raises nothing else (`readCpu_entryError`), except the `cpulist` range
of a node: `list(range(start, end + 1))` raises `OverflowError` beyond `sys.maxsize`
elements and `MemoryError` beyond what can be allocated, and neither is caught
(`readNode_error`). The entry numbers are read outside the blocks, and `int()` rejects
some of the names `str.isdigit` admits (`entryNumber_error_iff`). Hence:

- `getCpuInfo_raises`: `get_cpu_info` raises only `ValueError`, and exactly when a
  `cpu<N>` entry has a number `int()` rejects: a digit that is not decimal, as in `cpu²`,
  or more than 4300 digits;
- `getNodesInfo_raises`: `get_nodes_info` raises only `ValueError`, `OverflowError` or
  `MemoryError`, and exactly when parsing `has_memory` raises, or a `node<N>` entry has a
  number `int()` rejects or a `cpulist` range too long for a list.
-/

set_option autoImplicit false

namespace TopologyPinning.Topology

open TopologyPinning.Python

/-! ## The readers -/

theorem entryError_of_valueError {e : PyExc} (h : (e == .valueError) = true) :
    entryError e = true := by
  cases e <;> first | rfl | exact absurd h (by decide)

theorem int_entryError (s : List Char) : RaisesOnly entryError (int s) :=
  raisesOnly_mono (fun _ => entryError_of_valueError) (int_raisesOnly s)

theorem readText_entryError (fs : Snapshot) (p : List String) :
    RaisesOnly entryError (readText fs p) := by
  intro e h
  unfold readText at h
  split at h <;> cases h
  rfl

/-- `int()` rejects the number of a numbered entry exactly for a digit that is not a
decimal one or for more than `maxStrDigits` digits. -/
theorem entryNumber_error_iff {pre name : String} (h : numberedEntry pre name = true) :
    (∃ e, entryNumber pre name = .error e) ↔
      (∃ c ∈ name.toList.drop pre.length, decimalValue c = none) ∨
        maxStrDigits < (name.toList.drop pre.length).length := by
  rw [exists_error_iff_not_ok, entryNumber_ok_iff h, not_and_or, not_le]
  simp only [not_forall, Option.not_isSome_iff_eq_none, exists_prop]

theorem intList_raisesOnly (text : List Char) : RaisesOnly (· == .valueError) (intList text) :=
  raisesOnly_mapM int_raisesOnly _

theorem getCpusLogicalIds_entryError (fs : Snapshot) (c : Int) :
    RaisesOnly entryError (getCpusLogicalIds fs c) := by
  unfold getCpusLogicalIds
  split
  · exact raisesOnly_ok _
  · exact raisesOnly_mapM int_entryError _

theorem readCacheIds_entryError (fs : Snapshot) (cache_path : List String) :
    ∀ (dirs : List String) (acc : List Int), RaisesOnly entryError (readCacheIds fs cache_path dirs acc)
  | [], _ => raisesOnly_ok _
  | d :: dirs, acc => by
    unfold readCacheIds
    split
    · exact raisesOnly_ok _
    · exact raisesOnly_bind (int_entryError _) fun _ => readCacheIds_entryError fs cache_path dirs _

theorem getCacheInfo_entryError (fs : Snapshot) (c : Int) :
    RaisesOnly entryError (getCacheInfo fs c) := by
  simp only [getCacheInfo]
  split
  · exact raisesOnly_ok _
  · exact raisesOnly_bind (raisesOnly_mapM (fun _ => raisesOnly_bind (int_entryError _)
      fun _ => raisesOnly_ok _) _) fun _ => readCacheIds_entryError _ _ _ _

theorem getNodeOfCpu_entryError (fs : Snapshot) (c : Int) :
    RaisesOnly entryError (getNodeOfCpu fs c) := by
  unfold getNodeOfCpu
  split
  · exact raisesOnly_ok _
  · split
    · exact raisesOnly_map (int_entryError _)
    · exact raisesOnly_ok _

/-- Every read of the per-CPU `try` block raises only what its handler catches. -/
theorem readCpu_entryError (fs : Snapshot) (name : String) (cpu_nbr : Int) :
    RaisesOnly entryError (readCpu fs name cpu_nbr) := by
  simp only [readCpu]
  refine raisesOnly_bind (readText_entryError _ _) fun _ => ?_
  refine raisesOnly_bind (raisesOnly_mapM int_entryError _) fun _ => ?_
  refine raisesOnly_bind (readText_entryError _ _) fun _ => raisesOnly_bind (int_entryError _) fun _ => ?_
  refine raisesOnly_bind (readText_entryError _ _) fun _ => raisesOnly_bind (int_entryError _) fun _ => ?_
  exact raisesOnly_bind (getCacheInfo_entryError _ _) fun _ =>
    raisesOnly_bind (getNodeOfCpu_entryError _ _) fun _ => raisesOnly_ok _

/-- The exceptions of the `cpulist` parse: what the handler catches, and the
`OverflowError` and `MemoryError` of a range. -/
def cpulistError (e : PyExc) : Bool :=
  entryError e || e == .overflowError || e == .memoryError

theorem parseCpulist_cpulistError (capacity : Nat) (cpus_data : List Char) :
    RaisesOnly cpulistError (parseCpulist capacity cpus_data) := by
  have hint : ∀ s, RaisesOnly cpulistError (int s) := fun s =>
    raisesOnly_mono (fun e h => by simp [cpulistError, h]) (int_entryError s)
  unfold parseCpulist
  split
  · split
    · refine raisesOnly_bind (hint _) fun _ => raisesOnly_bind (hint _) fun _ => ?_
      intro e h
      unfold intRange at h
      split_ifs at h <;> cases h <;> rfl
    · intro e h; cases h; rfl
  · exact raisesOnly_mapM hint _

/-- Reading and parsing a node's `cpulist` raises what the node handler catches, or the
`OverflowError` or `MemoryError` of a range. -/
theorem nodeCpulist_cpulistError (fs : Snapshot) (name : String) :
    RaisesOnly cpulistError (nodeCpulist fs name) := by
  unfold nodeCpulist
  exact raisesOnly_bind (raisesOnly_mono (fun e h => by simp [cpulistError, h])
    (readText_entryError _ _)) fun _ => parseCpulist_cpulistError _ _

/-- The per-node `try` block raises what its handler catches, or the exception of the
`cpulist` parse, which it reads first. -/
theorem readNode_error {fs : Snapshot} {memory_nodes : List Int} {name : String}
    {node_id : Int} {e : PyExc} (h : readNode fs memory_nodes name node_id = .error e) :
    entryError e = true ∨ nodeCpulist fs name = .error e := by
  simp only [readNode] at h
  cases hc : nodeCpulist fs name with
  | error e' => rw [hc] at h; cases h; exact .inr rfl
  | ok cpus =>
    rw [hc, ok_bind] at h
    refine .inl (raisesOnly_bind (readText_entryError _ _) (fun _ =>
      raisesOnly_bind (raisesOnly_mapM int_entryError _) fun _ =>
        raisesOnly_bind (raisesOnly_mapM (getCpusLogicalIds_entryError fs) _)
          fun _ => raisesOnly_ok _) e h)

/-! ## The scans -/

/-- One pass of the CPU loop raises exactly when the entry's number does: the `try`
block after it raises only what its handler catches. -/
theorem cpuEntry_error_iff (fs : Snapshot) (name : String) :
    (∃ e, (do let cpu_nbr ← entryNumber "cpu" name
              catching entryError (readCpu fs name cpu_nbr)) = Except.error e) ↔
      ∃ e, entryNumber "cpu" name = .error e := by
  cases hn : entryNumber "cpu" name with
  | error e => simp
  | ok cpu_nbr =>
    obtain ⟨o, ho⟩ := catching_ok (readCpu_entryError fs name cpu_nbr)
    simp [ho]

/-- `get_cpu_info` raises only `ValueError`, and exactly when a `cpu<N>` entry, which
`str.isdigit` admits, has a number `int()` rejects: a digit that is not decimal, such as
`²`, or more than 4300 digits. -/
theorem getCpuInfo_raises (fs : Snapshot) :
    (∀ e, getCpuInfo fs = .error e → e = .valueError) ∧
      ((∃ e, getCpuInfo fs = .error e) ↔ ∃ entries, fs.listDir cpuPath = some entries ∧
        ∃ name ∈ entries, numberedEntry "cpu" name = true ∧
          ((∃ c ∈ name.toList.drop 3, decimalValue c = none) ∨
            maxStrDigits < (name.toList.drop 3).length)) := by
  unfold getCpuInfo
  split
  · rename_i hnone
    simp [hnone]
  · rename_i entries hentries
    refine ⟨fun e h => ?_, ?_⟩
    · cases hm : (entries.filter (numberedEntry "cpu")).mapM fun name => do
          let cpu_nbr ← entryNumber "cpu" name
          catching entryError (readCpu fs name cpu_nbr) with
      | ok cpus => rw [hm] at h; cases h
      | error e' =>
        rw [hm] at h
        cases h
        obtain ⟨name, -, hname⟩ := exists_of_mapM_error hm
        cases hn : entryNumber "cpu" name with
        | error e'' => rw [hn] at hname; cases hname; exact entryNumber_error hn
        | ok cpu_nbr =>
          obtain ⟨o, ho⟩ := catching_ok (readCpu_entryError fs name cpu_nbr)
          rw [hn, ok_bind, ho] at hname
          cases hname
    · have hbind : ∀ {x : Except PyExc (List (Option CPUInfo))},
          (∃ e, (x >>= fun cpus => pure (sorted CPUInfo.logicalId (cpus.filterMap id))) =
            Except.error e) ↔ ∃ e, x = .error e := by
        intro x; cases x <;> simp
      rw [hbind, mapM_error_iff]
      simp only [List.mem_filter, cpuEntry_error_iff, hentries, Option.some.injEq, exists_eq_left']
      constructor
      · rintro ⟨name, ⟨hmem, hname⟩, herr⟩
        exact ⟨name, hmem, hname, (entryNumber_error_iff hname).1 herr⟩
      · rintro ⟨name, hmem, hname, hbad⟩
        exact ⟨name, ⟨hmem, hname⟩, (entryNumber_error_iff hname).2 hbad⟩

/-- What one pass of the node loop raises: the `int()` error of the entry's number, or an
error of the `cpulist` parse that the handler does not catch. -/
theorem nodeEntry_eq_error {fs : Snapshot} {memory_nodes : List Int} {name : String} {e : PyExc}
    (h : nodeEntry fs memory_nodes name = .error e) :
    entryNumber "node" name = .error e ∨ (nodeCpulist fs name = .error e ∧ entryError e = false) := by
  unfold nodeEntry at h
  cases hn : entryNumber "node" name with
  | error e' => rw [hn] at h; cases h; exact .inl rfl
  | ok node_id =>
    rw [hn, ok_bind] at h
    cases hr : readNode fs memory_nodes name node_id with
    | ok n => rw [hr] at h; cases h
    | error e' =>
      rw [hr] at h
      simp only [catching] at h
      split at h
      · cases h
      · rename_i hcaught
        cases h
        rcases readNode_error hr with hc | hc
        · exact absurd hc hcaught
        · exact .inr ⟨hc, by simpa using hcaught⟩

/-- One pass of the node loop raises exactly when the entry's number does, or its
`cpulist` parse raises what the handler does not catch. -/
theorem nodeEntry_error_iff (fs : Snapshot) (memory_nodes : List Int) (name : String) :
    (∃ e, nodeEntry fs memory_nodes name = .error e) ↔
      (∃ e, entryNumber "node" name = .error e) ∨
        ∃ e, nodeCpulist fs name = .error e ∧ entryError e = false := by
  constructor
  · rintro ⟨e, h⟩
    exact (nodeEntry_eq_error h).imp (⟨e, ·⟩) (⟨e, ·⟩)
  · rintro (⟨e, hn⟩ | ⟨e, hc, he⟩)
    · exact ⟨e, by simp [nodeEntry, hn]⟩
    · cases hn : entryNumber "node" name with
      | error e' => exact ⟨e', by simp [nodeEntry, hn]⟩
      | ok node_id =>
        have hr : readNode fs memory_nodes name node_id = .error e := by simp [readNode, hc]
        exact ⟨e, by simp [nodeEntry, hn, hr, catching, he]⟩

theorem nodeEntry_error {fs : Snapshot} {memory_nodes : List Int} {name : String} {e : PyExc}
    (h : nodeEntry fs memory_nodes name = .error e) :
    e = .valueError ∨ e = .overflowError ∨ e = .memoryError := by
  rcases nodeEntry_eq_error h with hn | ⟨hc, hcaught⟩
  · exact .inl (entryNumber_error hn)
  · have := nodeCpulist_cpulistError fs name e hc
    simp only [cpulistError, hcaught, Bool.false_or, Bool.or_eq_true, beq_iff_eq] at this
    exact .inr this

/-- Parsing `has_memory` raises only `ValueError`. -/
theorem memoryNodes_error {fs : Snapshot} {e : PyExc} (h : memoryNodes fs = .error e) :
    e = .valueError := by
  unfold memoryNodes at h
  split at h
  · cases h
  · simpa using intList_raisesOnly _ e h

/-- Once `has_memory` is parsed, `get_nodes_info` raises exactly when one pass of its
loop does. -/
theorem getNodesInfo_error_of_memoryNodes {fs : Snapshot} {mem : List Int}
    (h : memoryNodes fs = .ok mem) :
    (∃ e, getNodesInfo fs = .error e) ↔ ∃ entries, fs.listDir nodePath = some entries ∧
      ∃ name ∈ entries.filter (numberedEntry "node"), ∃ e, nodeEntry fs mem name = .error e := by
  simp only [getNodesInfo, h, ok_bind]
  split
  · rename_i hnone
    simp [hnone]
  · rename_i entries hentries
    have hbind : ∀ {x : Except PyExc (List (Option NodeInfo))},
        (∃ e, (x >>= fun nodes => pure (sorted NodeInfo.id (nodes.filterMap id))) =
          Except.error e) ↔ ∃ e, x = .error e := by
      intro x; cases x <;> simp
    rw [hbind, mapM_error_iff]
    simp [hentries]

/-- `get_nodes_info` raises only `ValueError`, `OverflowError` or `MemoryError`, and exactly
when parsing `has_memory` raises (the handler around that read catches `IOError` only), or
a `node<N>` entry has a number `int()` rejects, or the range of its `cpulist` is too long
for a list. -/
theorem getNodesInfo_raises (fs : Snapshot) :
    (∀ e, getNodesInfo fs = .error e → e = .valueError ∨ e = .overflowError ∨ e = .memoryError) ∧
      ((∃ e, getNodesInfo fs = .error e) ↔ (∃ e, memoryNodes fs = .error e) ∨
        ∃ entries, fs.listDir nodePath = some entries ∧ ∃ name ∈ entries,
          numberedEntry "node" name = true ∧
            ((∃ e, entryNumber "node" name = .error e) ∨
              ∃ e, nodeCpulist fs name = .error e ∧ entryError e = false)) := by
  cases hm : memoryNodes fs with
  | error e' =>
    have he' := memoryNodes_error hm
    simp only [getNodesInfo, hm, error_bind, Except.error.injEq]
    exact ⟨fun e h => .inl (h ▸ he'), iff_of_true ⟨e', rfl⟩ (.inl ⟨e', rfl⟩)⟩
  | ok mem =>
    refine ⟨fun e h => ?_, ?_⟩
    · simp only [getNodesInfo, hm, ok_bind] at h
      split at h
      · cases h
      · cases hl : (List.filter (numberedEntry "node") ‹List String›).mapM
            (nodeEntry fs mem) with
        | ok nodes => rw [hl] at h; cases h
        | error e' =>
          rw [hl] at h
          cases h
          obtain ⟨name, -, hname⟩ := exists_of_mapM_error hl
          exact nodeEntry_error hname
    · rw [getNodesInfo_error_of_memoryNodes hm]
      simp only [reduceCtorEq, exists_false, false_or, List.mem_filter, ← nodeEntry_error_iff fs mem,
        and_assoc]

/-- A CPU entry `cpu²`, which `str.isdigit` admits and `int()` rejects. -/
example : getCpuInfo ⟨fun p => if p = cpuPath then some ["cpu²"] else none, fun _ => none, 0⟩ =
    .error .valueError := rfl

end TopologyPinning.Topology
