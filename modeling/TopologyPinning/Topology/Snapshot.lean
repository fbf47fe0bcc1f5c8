import TopologyPinning.Python.Builtins

/-!
# The attribute tree and the per-CPU readers

`SystemTopology` reads the CPU and NUMA parts of the kernel's attribute tree. A
`Snapshot` fixes that tree for the duration of one call: what each directory lists
and what each file holds, with `none` where Python's `iterdir` or `open` raises
`OSError`; and the longest list the interpreter can allocate in it, beyond which
`list(range(...))` raises `MemoryError`.

Over a snapshot this module defines the CPU and node records and the readers of
one CPU: `getNodeOfCpu`, `getCpusLogicalIds` and `getCacheInfo` (the private
helpers of the class), and `getCpuInfo`, which scans the CPU root. Every reader
returns an `Except PyExc`: a parse failure raises `ValueError` unless a handler of
the source catches it.

Entries are numbered by the filter `name[len(pre):].isdigit()`, which accepts the
digits of every script and the other Unicode digits such as `²`, while `int()` of the
same text accepts decimal digits only, at most 4300 of them; the number is read
outside the `try` blocks (`entryNumber`).
-/

set_option autoImplicit false

namespace TopologyPinning.Topology

open TopologyPinning.Python

/-- A read-only view of the attribute tree. A path is the list of its components.
`listDir p` gives the entry names `Path(p).iterdir()` yields, in that order;
`readFile p` the text `open(p).read()` returns; `maxListLength` is the most elements a
list can be given before its allocation raises `MemoryError`. -/
structure Snapshot where
  listDir : List String → Option (List String)
  readFile : List String → Option String
  maxListLength : Nat

/-- `CPU_PATH`. -/
def cpuPath : List String := ["sys", "devices", "system", "cpu"]

/-- `NODE_PATH`. -/
def nodePath : List String := ["sys", "devices", "system", "node"]

/-- `f"cpu{logical_id}"`, the directory of one logical CPU. -/
def cpuDir (logical_id : Int) : List String := cpuPath ++ ["cpu" ++ toString logical_id]

/-- `with path.open('r') as f: f.read()`: `OSError` when the file cannot be read. -/
def readText (fs : Snapshot) (p : List String) : Except PyExc (List Char) :=
  match fs.readFile p with
  | some text => .ok text.toList
  | none => .error .osError

/-- The entry filter `name.startswith(pre) and name[len(pre):].isdigit()`, used for
`cpu<N>`, `node<N>` and `index<K>` entries. -/
def numberedEntry (pre name : String) : Bool :=
  name.toList.take pre.length == pre.toList && isDigits (name.toList.drop pre.length)

/-- `int(name[len(pre):])` for an entry that passed `numberedEntry pre`: it raises
`ValueError` for a digit that is not decimal or for more than 4300 digits. -/
def entryNumber (pre name : String) : Except PyExc Int :=
  int (name.toList.drop pre.length)

/-- The number of a numbered entry is not negative: its digits hold no minus sign. -/
theorem entryNumber_nonneg {pre name : String} {n : Int} (hname : numberedEntry pre name = true)
    (h : entryNumber pre name = .ok n) : 0 ≤ n :=
  int_nonneg (fun hm => by
    simp only [numberedEntry, isDigits, Bool.and_eq_true, List.all_eq_true] at hname
    exact absurd (hname.2.2 _ hm) (by decide)) h

/-- The number of a numbered entry is read exactly when its digits are decimal digits, at
most `maxStrDigits` of them; otherwise `int()` raises `ValueError`. -/
theorem entryNumber_ok_iff {pre name : String} (hname : numberedEntry pre name = true) :
    (∃ n, entryNumber pre name = .ok n) ↔
      (∀ c ∈ name.toList.drop pre.length, (decimalValue c).isSome) ∧
        (name.toList.drop pre.length).length ≤ maxStrDigits :=
  int_ok_iff_of_isDigits (by simp only [numberedEntry, Bool.and_eq_true] at hname; exact hname.2)

theorem entryNumber_error {pre name : String} {e : PyExc} (h : entryNumber pre name = .error e) :
    e = .valueError := by
  simpa using int_raisesOnly _ e h

/-- A comma-separated list of integers: `[int(i) for i in text.strip().split(',')]`. -/
def intList (text : List Char) : Except PyExc (List Int) :=
  (split ',' (strip text)).mapM int

/-! ## Records -/

/-- `CPUInfo`. -/
structure CPUInfo where
  logicalId : Int
  coreId : Int
  siblings : List Int
  numaNode : Option Int
  cacheIds : List Int
  packageId : Int
  deriving DecidableEq, Repr

/-- `NodeInfo`: the core tuples `coresList` are lists of logical CPU ids, and
`distance[j]` is the distance to node `j`. -/
structure NodeInfo where
  id : Int
  memory : Bool
  coresList : List (List Int)
  distance : List Int
  deriving DecidableEq, Repr, Inhabited

/-! ## Readers of one CPU -/

/-- `_get_node_of_cpu`: the number of the first `node<M>` entry of the CPU's
directory, `None` when there is none or the directory cannot be listed. -/
def getNodeOfCpu (fs : Snapshot) (logical_id : Int) : Except PyExc (Option Int) :=
  match fs.listDir (cpuDir logical_id) with
  | none => .ok none
  | some entries =>
    match entries.find? (numberedEntry "node") with
    | some name => some <$> entryNumber "node" name
    | none => .ok none

/-- `_get_cpus_logical_ids`: the parsed `thread_siblings_list`, `[]` when it cannot
be read. A text that does not parse raises `ValueError`, which is not caught here. -/
def getCpusLogicalIds (fs : Snapshot) (logical_id : Int) : Except PyExc (List Int) :=
  match fs.readFile (cpuDir logical_id ++ ["topology", "thread_siblings_list"]) with
  | none => .ok []
  | some text => intList text.toList

/-- The sibling ids read are `int()` results. -/
theorem getCpusLogicalIds_natAbs_lt {fs : Snapshot} {logical_id : Int} {ids : List Int}
    (h : getCpusLogicalIds fs logical_id = .ok ids) : ∀ x ∈ ids, x.natAbs < 10 ^ maxStrDigits := by
  intro x hx
  unfold getCpusLogicalIds at h
  split at h
  · cases h
    exact absurd hx (List.not_mem_nil x)
  · obtain ⟨s, -, hs⟩ := exists_of_mem_mapM h hx
    exact int_natAbs_lt hs

/-- The loop of `_get_cache_info` over the sorted `index<K>` directories. An
unreadable `id` file ends the scan with the ids read so far (the `IOError` handler
returns `cache_ids`); an unparsable one raises `ValueError`. -/
def readCacheIds (fs : Snapshot) (cache_path : List String) :
    List String → List Int → Except PyExc (List Int)
  | [], acc => .ok acc
  | d :: ds, acc =>
    match fs.readFile (cache_path ++ [d, "id"]) with
    | none => .ok acc
    | some text => do
      let v ← int (strip text.toList)
      readCacheIds fs cache_path ds (acc ++ [v])

/-- `_get_cache_info`: the cache id of every `index<K>` directory of the CPU, in
ascending `K`. -/
def getCacheInfo (fs : Snapshot) (logical_id : Int) : Except PyExc (List Int) :=
  let cache_path := cpuDir logical_id ++ ["cache"]
  match fs.listDir cache_path with
  | none => .ok []
  | some entries => do
    let keyed ← (entries.filter (numberedEntry "index")).mapM fun d => do
      let k ← entryNumber "index" d
      pure (k, d)
    readCacheIds fs cache_path ((sorted Prod.fst keyed).map Prod.snd) []

/-! ## The CPU scan -/

/-- The body of the per-CPU `try` block of `get_cpu_info`, for the entry `name`
whose number is `cpu_nbr`. -/
def readCpu (fs : Snapshot) (name : String) (cpu_nbr : Int) : Except PyExc CPUInfo := do
  let topology_dir := cpuPath ++ [name, "topology"]
  let text ← readText fs (topology_dir ++ ["thread_siblings_list"])
  let siblings ← ((split ',' (strip text)).filter fun x => !(strip x).isEmpty).mapM int
  let core_id ← int (strip (← readText fs (topology_dir ++ ["core_id"])))
  let package_id ← int (strip (← readText fs (topology_dir ++ ["physical_package_id"])))
  let cache_ids ← getCacheInfo fs cpu_nbr
  let numa_node ← getNodeOfCpu fs cpu_nbr
  pure ⟨cpu_nbr, core_id, siblings, numa_node, cache_ids, package_id⟩

/-- The exceptions the per-entry handlers of the scans catch:
`except (IOError, FileNotFoundError, ValueError)`. -/
def entryError : PyExc → Bool
  | .osError | .valueError => true
  | _ => false

/-- `get_cpu_info`: one record per readable `cpu<N>` entry, sorted by logical id. An
entry whose reads fail is skipped; an unlistable CPU root gives `[]`. -/
def getCpuInfo (fs : Snapshot) : Except PyExc (List CPUInfo) :=
  match fs.listDir cpuPath with
  | none => .ok []
  | some entries => do
    let cpus ← (entries.filter (numberedEntry "cpu")).mapM fun name => do
      let cpu_nbr ← entryNumber "cpu" name
      catching entryError (readCpu fs name cpu_nbr)
    pure (sorted CPUInfo.logicalId (cpus.filterMap id))

end TopologyPinning.Topology
