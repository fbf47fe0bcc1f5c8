import TopologyPinning.Monitor.MonitorProcess
import TopologyPinning.Python.Builtins

/-!
# The unit conversion of the CSV file

`convertUnits` is `MemoryMonitor.convert_units`. It opens the output file for reading
and the temporary file `outfile.with_suffix('.tmp')` for writing, copies the header,
converts the first two cells of every data row from pages to units of
`2 ** unit_shift` bytes, and writes the rows in batches; a row with fewer than two cells,
or whose first two cells do not parse, is skipped. It then replaces the output file by
the temporary one. Any exception in this `try` block removes the temporary file and
leaves as a `RuntimeError`.

The files are a map from paths to the rows `csv.reader` reads from them (`Files`). The
reader reads lazily, so it sees the output file as it is after the temporary file was
opened for writing.

- `convertRows_ok` is the run lemma of the row loop: the rows written and the batch are
  the converted rows that qualify (`convertedRows`).
- `convertUnits_outcome`: when the temporary path names another file, a call either
  returns, and the output file holds its header and the converted rows that qualify,
  in input order, or raises and leaves the output file as it was.
- `convertUnits_aliased`: when the output path ends in `.tmp`, `with_suffix` returns
  the output path itself. Opening it for writing empties it, the empty-file error is
  raised, and the cleanup deletes the output file (`convertUnits_memoryTmp`).
-/

set_option autoImplicit false

namespace TopologyPinning.Monitor

open TopologyPinning.Python

/-! ## Paths and files -/

/-- A path: its directory and its file name. -/
structure Path where
  parent : List String
  name : List Char
  deriving DecidableEq, Repr

/-- `PurePath.suffix` of a name: the name from its last dot, when that dot is neither its
first nor its last character; empty otherwise. -/
def suffixOf (name : List Char) : List Char :=
  match name.reverse.span (· != '.') with
  | (ext, '.' :: stem) => if stem ≠ [] ∧ ext ≠ [] then '.' :: ext.reverse else []
  | _ => []

/-- `PurePath.with_suffix(suffix)`: the suffix of the name replaced by `suffix`, or
`suffix` appended to a name without one. `ValueError`, here `none`, for an empty name. -/
def withSuffix (p : Path) (suffix : List Char) : Option Path :=
  if p.name = [] then none
  else some { p with name := p.name.take (p.name.length - (suffixOf p.name).length) ++ suffix }

example : withSuffix ⟨[], "memory.csv".toList⟩ ".tmp".toList = some ⟨[], "memory.tmp".toList⟩ := rfl
example : withSuffix ⟨[], ".bashrc".toList⟩ ".tmp".toList = some ⟨[], ".bashrc.tmp".toList⟩ := rfl

/-- The files: the rows `csv.reader` reads from the file at each path, `none` where
there is no file. -/
def Files : Type := Path → Option (List (List String))

/-- The file at `p` set to `v`. -/
def Files.set (fs : Files) (p : Path) (v : Option (List (List String))) : Files :=
  fun q => if q = p then v else fs q

/-- `os.replace(src, dst)`: the file at `src` moves to `dst`. -/
def Files.replace (fs : Files) (src dst : Path) : Files :=
  if src = dst then fs else (fs.set dst (fs src)).set src none

section Files

variable (fs : Files) {p q : Path} (v w : Option (List (List String)))

@[simp] theorem Files.set_same : fs.set p v p = v := if_pos rfl

@[simp] theorem Files.set_other (h : q ≠ p) : fs.set p v q = fs q := if_neg h

@[simp] theorem Files.set_set : (fs.set p v).set p w = fs.set p w := by
  funext r
  by_cases h : r = p <;> simp [Files.set, h]

/-- After `os.replace(src, dst)`, `dst` holds what `src` held. -/
@[simp] theorem Files.replace_dst (src dst : Path) : fs.replace src dst dst = fs src := by
  unfold Files.replace
  split
  · subst_vars; rfl
  · rename_i h; simp [Ne.symm h]

end Files

/-! ## The conversion -/

/-- The fields of a `MemoryMonitor` that `convert_units` reads. -/
structure MonitorConfig where
  outfile : Path
  batchSize : Nat
  pageSize : Int
  deriving DecidableEq, Repr

/-- The exception that leaves the `try` block of `convert_units`. -/
inductive Cause where
  /-- The `OSError` of `open`: there is no file at the path. -/
  | osError
  /-- `ValueError(msg)`, raised in the block. -/
  | valueError (msg : String)
  /-- The `OverflowError` of a true division whose quotient leaves the float range. -/
  | overflowError
  deriving DecidableEq, Repr

/-- What `convert_units` raises. -/
inductive ConvertError where
  /-- `ValueError(msg)`, raised before the `try` block. -/
  | valueError (msg : String)
  /-- The `ValueError` of `with_suffix` for an output path with an empty name. -/
  | emptyName
  /-- `RuntimeError(f"Failed to convert units: {e}")` for the exception `e` of the block. -/
  | runtimeError (cause : Cause)
  deriving DecidableEq, Repr

/-- The rows the loop has written to the temporary file after the header, and the batch. -/
structure ConvertState where
  written : List (List String)
  batch : List (List String)
  deriving DecidableEq, Repr

/-- The `for row in reader` loop. A row with fewer than two cells, or whose first two
cells do not parse (the `ValueError` is caught), is skipped. The others get their two
cells converted by `toUnit` from bytes and join the batch, which is written when it
holds `batch_size` rows. `toUnit v` is `str(round(v / (2 ** unit_shift), 2))`, `none`
where the division raises `OverflowError`, which leaves the loop. -/
def convertRows (m : MonitorConfig) (toUnit : Int → Option String) :
    List (List String) → ConvertState → Except Cause Unit × ConvertState
  | [], s => (.ok (), s)
  | row :: rows, s =>
    match row with
    | cell0 :: cell1 :: rest =>
      match int cell0.toList, int cell1.toList with
      | .ok vm_pages, .ok rss_pages =>
        match toUnit (vm_pages * m.pageSize), toUnit (rss_pages * m.pageSize) with
        | some vm, some rss =>
          let batch := s.batch ++ [vm :: rss :: rest]
          if batch.length ≥ m.batchSize then convertRows m toUnit rows ⟨s.written ++ batch, []⟩
          else convertRows m toUnit rows ⟨s.written, batch⟩
        | _, _ => (.error .overflowError, s)
      | _, _ => convertRows m toUnit rows s
    | _ => convertRows m toUnit rows s

/-- The `try` block of `convert_units` with the temporary path `temp_file`: the exception
that leaves it, if any, and the files after it. Opening `temp_file` for writing empties
or creates it before the reader reads its first row. -/
def convertBody (m : MonitorConfig) (toUnit : Int → Option String) (temp_file : Path)
    (fs : Files) : Except Cause Unit × Files :=
  match fs m.outfile with
  | none => (.error .osError, fs)
  | some _ =>
    let fs := fs.set temp_file (some [])
    match (fs m.outfile).getD [] with
    | [] => (.error (.valueError "Input CSV file is empty"), fs)
    | header :: rows =>
      match convertRows m toUnit rows ⟨[], []⟩ with
      | (.ok (), s) => (.ok (), (fs.set temp_file (some (header :: (s.written ++ s.batch)))).replace
          temp_file m.outfile)
      | (.error e, s) => (.error e, fs.set temp_file (some (header :: s.written)))

/-- `convert_units(unit_shift)`: the exception it raises, if any, and the files after the
call. `scaled unit_shift v` is the text of `v` bytes converted, as `toUnit` above. -/
def convertUnits (m : MonitorConfig) (scaled : Int → Int → Option String) (unit_shift : Int)
    (fs : Files) : Except ConvertError Unit × Files :=
  if unit_shift < 0 then (.error (.valueError "Unit shift must be non-negative"), fs)
  else
    match withSuffix m.outfile ".tmp".toList with
    | none => (.error .emptyName, fs)
    | some temp_file =>
      match convertBody m (scaled unit_shift) temp_file fs with
      | (.ok (), fs) => (.ok (), fs)
      | (.error e, fs) =>
        (.error (.runtimeError e), if (fs temp_file).isSome then fs.set temp_file none else fs)

/-! ## The row loop -/

/-- A row that qualifies: at least two cells, the first two parsing as integers. Its two
page counts and its other cells. -/
def qualifying (row : List String) : Option (Int × Int × List String) :=
  match row with
  | cell0 :: cell1 :: rest =>
    match int cell0.toList, int cell1.toList with
    | .ok vm, .ok rss => some (vm, rss, rest)
    | _, _ => none
  | _ => none

/-- The rows the conversion is to leave: one per qualifying row, in input order, its
first two cells converted and the others unchanged; `none` when a conversion
overflows. -/
def convertedRows (page_size : Int) (toUnit : Int → Option String) (rows : List (List String)) :
    Option (List (List String)) :=
  (rows.filterMap qualifying).mapM fun (vm, rss, rest) => do
    let a ← toUnit (vm * page_size)
    let b ← toUnit (rss * page_size)
    pure (a :: b :: rest)

section Loop

variable {m : MonitorConfig} {toUnit : Int → Option String}

theorem convertedRows_skip {row : List String} (h : qualifying row = none) (rows : List (List String)) :
    convertedRows m.pageSize toUnit (row :: rows) = convertedRows m.pageSize toUnit rows := by
  simp [convertedRows, List.filterMap_cons, h]

/-- The run lemma of the row loop: when it ends without an exception, the rows written
and the batch are the rows before it and the converted qualifying rows. -/
theorem convertRows_ok : ∀ (rows : List (List String)) (s s' : ConvertState),
    convertRows m toUnit rows s = (.ok (), s') →
      ∃ out, convertedRows m.pageSize toUnit rows = some out ∧
        s'.written ++ s'.batch = s.written ++ s.batch ++ out
  | [], s, s', h => by
    cases h
    exact ⟨[], rfl, by simp⟩
  | row :: rows, s, s', h => by
    match row, h with
    | [], h =>
      rw [convertedRows_skip (show qualifying [] = none from rfl)]
      exact convertRows_ok rows s s' h
    | [c], h =>
      rw [convertedRows_skip (show qualifying [c] = none from rfl)]
      exact convertRows_ok rows s s' h
    | cell0 :: cell1 :: rest, h =>
      simp only [convertRows] at h
      split at h
      · rename_i vm_pages rss_pages h0 h1
        split at h
        · rename_i vm rss hvm hrss
          have hstep : ∀ s1 : ConvertState, s1.written ++ s1.batch =
              s.written ++ s.batch ++ [vm :: rss :: rest] → convertRows m toUnit rows s1 = (.ok (), s') →
              ∃ out, convertedRows m.pageSize toUnit ((cell0 :: cell1 :: rest) :: rows) = some out ∧
                s'.written ++ s'.batch = s.written ++ s.batch ++ out := fun s1 hs1 h => by
            obtain ⟨out, hout, hs'⟩ := convertRows_ok rows s1 s' h
            refine ⟨(vm :: rss :: rest) :: out, ?_, by rw [hs', hs1]; simp⟩
            simp only [convertedRows, List.filterMap_cons, qualifying, h0, h1] at hout ⊢
            simp only [List.mapM_cons, hout, hvm, hrss]
            rfl
          split at h
          · exact hstep _ (by simp) h
          · exact hstep _ (by simp) h
        · cases h
      · rename_i hnot
        have hq : qualifying (cell0 :: cell1 :: rest) = none := by
          cases h0 : int cell0.toList with
          | error _ => simp only [qualifying, h0]
          | ok vm_pages =>
            cases h1 : int cell1.toList with
            | error _ => simp only [qualifying, h0, h1]
            | ok rss_pages => exact (hnot _ _ h0 h1).elim
        rw [convertedRows_skip hq]
        exact convertRows_ok rows s s' h

end Loop

/-! ## The outcomes of a call -/

/-- The `try` block, when the temporary path names another file: it either ends without
an exception, and the output file holds its header and the converted qualifying rows, or
it raises and the output file is as it was. -/
theorem convertBody_outcome (m : MonitorConfig) (toUnit : Int → Option String) {temp_file : Path}
    (hne : temp_file ≠ m.outfile) (fs : Files) :
    (∃ header rows out, (convertBody m toUnit temp_file fs).1 = .ok () ∧
        fs m.outfile = some (header :: rows) ∧ convertedRows m.pageSize toUnit rows = some out ∧
        (convertBody m toUnit temp_file fs).2 m.outfile = some (header :: out)) ∨
      ∃ e, (convertBody m toUnit temp_file fs).1 = .error e ∧
        (convertBody m toUnit temp_file fs).2 m.outfile = fs m.outfile := by
  unfold convertBody
  split
  · exact .inr ⟨_, rfl, rfl⟩
  · rename_i rows0 hf
    have hread : fs.set temp_file (some []) m.outfile = some rows0 := by simp [Ne.symm hne, hf]
    dsimp only
    rw [hread, Option.getD_some]
    split
    · exact .inr ⟨_, rfl, hread.trans hf.symm⟩
    · rename_i header rows
      split
      · rename_i s hc
        obtain ⟨out, hout, hs⟩ := convertRows_ok rows _ _ hc
        exact .inl ⟨header, rows, out, rfl, hf, hout, by simp [hs]⟩
      · exact .inr ⟨_, rfl, by simp [Ne.symm hne, hf]⟩

/-- The `try` block when the temporary path is the output file itself: opening it for
writing empties it, so the reader finds no header. -/
theorem convertBody_self (m : MonitorConfig) (toUnit : Int → Option String) {fs : Files}
    {rows : List (List String)} (hf : fs m.outfile = some rows) :
    convertBody m toUnit m.outfile fs =
      (.error (.valueError "Input CSV file is empty"), fs.set m.outfile (some [])) := by
  simp [convertBody, hf]

/-- What a call leaves in the output file when the temporary path names another file:
its header and the converted qualifying rows when the call returns, the file as it was
when it raises. -/
theorem convertUnits_outfile (m : MonitorConfig) (scaled : Int → Int → Option String)
    (unit_shift : Int) (fs : Files) (htemp : withSuffix m.outfile ".tmp".toList ≠ some m.outfile) :
    match convertUnits m scaled unit_shift fs with
    | (.ok (), fs') => ∃ header rows out, fs m.outfile = some (header :: rows) ∧
        convertedRows m.pageSize (scaled unit_shift) rows = some out ∧
        fs' m.outfile = some (header :: out)
    | (.error _, fs') => fs' m.outfile = fs m.outfile := by
  rw [convertUnits]
  split_ifs
  · exact rfl
  · cases hw : withSuffix m.outfile ".tmp".toList with
    | none => exact rfl
    | some temp_file =>
      have hne : temp_file ≠ m.outfile := fun h => htemp (h ▸ hw)
      have ho := convertBody_outcome m (scaled unit_shift) hne fs
      dsimp only
      rcases hb : convertBody m (scaled unit_shift) temp_file fs with ⟨e | ⟨⟩, fs'⟩ <;>
        rw [hb] at ho <;> dsimp only
      · rcases ho with ⟨_, _, _, hok, -⟩ | ⟨_, -, hfile⟩
        · cases hok
        · split
          · simpa [Ne.symm hne] using hfile
          · exact hfile
      · rcases ho with ⟨header, rows, out, -, hf, hout, hfile⟩ | ⟨_, he, -⟩
        · exact ⟨header, rows, out, hf, hout, hfile⟩
        · cases he

/-- When the temporary path `outfile.with_suffix('.tmp')` names another file than the
output file, `convert_units` either returns, leaving in the output file its header and one
converted row per qualifying row, in input order, or raises, leaving the output file as
it was. -/
theorem convertUnits_outcome (m : MonitorConfig) (scaled : Int → Int → Option String)
    (unit_shift : Int) (fs : Files) (htemp : withSuffix m.outfile ".tmp".toList ≠ some m.outfile) :
    (∃ fs' header rows out, convertUnits m scaled unit_shift fs = (.ok (), fs') ∧
        fs m.outfile = some (header :: rows) ∧
        convertedRows m.pageSize (scaled unit_shift) rows = some out ∧
        fs' m.outfile = some (header :: out)) ∨
      ∃ e fs', convertUnits m scaled unit_shift fs = (.error e, fs') ∧ fs' m.outfile = fs m.outfile := by
  have h := convertUnits_outfile m scaled unit_shift fs htemp
  rcases hc : convertUnits m scaled unit_shift fs with ⟨e | ⟨⟩, fs'⟩ <;> rw [hc] at h
  · exact .inr ⟨e, fs', rfl, h⟩
  · obtain ⟨header, rows, out, hf, hout, hfile⟩ := h
    exact .inl ⟨fs', header, rows, out, rfl, hf, hout, hfile⟩

/-- A monitor whose output file is `memory.csv`, with batches of 1000 rows and pages of
4096 bytes. -/
def memoryCsvMonitor : MonitorConfig := ⟨⟨["home"], "memory.csv".toList⟩, 1000, 4096⟩

/-- One sample in `memory.csv`, as `_monitor_process` writes it, and a malformed row. -/
def memoryCsvFiles : Files := fun p =>
  if p = memoryCsvMonitor.outfile then some [header, ["100", "50", "0"], ["x"]] else none

/-- A stand-in for the float arithmetic: the quotient rounded down. -/
def floorScaled (unit_shift v : Int) : Option String := some (toString (v / 2 ^ unit_shift.toNat))

/-- Converting `memory.csv` to KiB: the temporary file is `memory.tmp`, the sample row is
converted, and the malformed row is dropped. -/
theorem convertUnits_outcome_memoryCsv :
    withSuffix memoryCsvMonitor.outfile ".tmp".toList ≠ some memoryCsvMonitor.outfile ∧
      (convertUnits memoryCsvMonitor floorScaled 10 memoryCsvFiles).1 = .ok () ∧
      (convertUnits memoryCsvMonitor floorScaled 10 memoryCsvFiles).2 memoryCsvMonitor.outfile =
        some [header, ["400", "200", "0"]] ∧
      ((∃ fs' header rows out, convertUnits memoryCsvMonitor floorScaled 10 memoryCsvFiles = (.ok (), fs') ∧
          memoryCsvFiles memoryCsvMonitor.outfile = some (header :: rows) ∧
          convertedRows memoryCsvMonitor.pageSize (floorScaled 10) rows = some out ∧
          fs' memoryCsvMonitor.outfile = some (header :: out)) ∨
        ∃ e fs', convertUnits memoryCsvMonitor floorScaled 10 memoryCsvFiles = (.error e, fs') ∧
          fs' memoryCsvMonitor.outfile = memoryCsvFiles memoryCsvMonitor.outfile) :=
  ⟨by decide, rfl, rfl, convertUnits_outcome memoryCsvMonitor floorScaled 10 memoryCsvFiles (by decide)⟩

/-- When `with_suffix('.tmp')` returns the output path itself, as for a name ending in
`.tmp`, `convert_units` with a non-negative unit shift on an existing output file raises
`RuntimeError` for the empty-file `ValueError` and deletes the output file: opening the
temporary file for writing emptied it before the reader read it. -/
theorem convertUnits_aliased (m : MonitorConfig) (scaled : Int → Int → Option String)
    {unit_shift : Int} (hshift : 0 ≤ unit_shift) {fs : Files}
    (halias : withSuffix m.outfile ".tmp".toList = some m.outfile) (hfile : (fs m.outfile).isSome) :
    convertUnits m scaled unit_shift fs =
      (.error (.runtimeError (.valueError "Input CSV file is empty")), fs.set m.outfile none) := by
  obtain ⟨rows, hrows⟩ := Option.isSome_iff_exists.1 hfile
  rw [convertUnits, if_neg (not_lt.2 hshift), halias]
  simp [convertBody_self m _ hrows]

/-- A monitor whose output file is `memory.tmp`. -/
def memoryTmpMonitor : MonitorConfig := ⟨⟨["home"], "memory.tmp".toList⟩, 1000, 4096⟩

/-- One sample in `memory.tmp`, as `_monitor_process` writes it. -/
def memoryTmpFiles : Files := fun p =>
  if p = memoryTmpMonitor.outfile then some [header, ["100", "50", "0"]] else none

theorem convertUnits_aliased_memoryTmp :
    (0 : Int) ≤ 20 ∧ withSuffix memoryTmpMonitor.outfile ".tmp".toList = some memoryTmpMonitor.outfile ∧
      (memoryTmpFiles memoryTmpMonitor.outfile).isSome ∧
      convertUnits memoryTmpMonitor floorScaled 20 memoryTmpFiles =
        (.error (.runtimeError (.valueError "Input CSV file is empty")),
          memoryTmpFiles.set memoryTmpMonitor.outfile none) :=
  ⟨by decide, rfl, rfl, convertUnits_aliased memoryTmpMonitor floorScaled (by decide) rfl rfl⟩

/-- With the output file `memory.tmp` holding one sample, `convert_units(20)` raises, for
any float arithmetic, and the output file no longer exists: the sample is lost. -/
theorem convertUnits_memoryTmp (scaled : Int → Int → Option String) :
    memoryTmpFiles memoryTmpMonitor.outfile = some [header, ["100", "50", "0"]] ∧
      (convertUnits memoryTmpMonitor scaled 20 memoryTmpFiles).1 =
        .error (.runtimeError (.valueError "Input CSV file is empty")) ∧
      (convertUnits memoryTmpMonitor scaled 20 memoryTmpFiles).2 memoryTmpMonitor.outfile = none :=
  ⟨rfl, rfl, rfl⟩

end TopologyPinning.Monitor
