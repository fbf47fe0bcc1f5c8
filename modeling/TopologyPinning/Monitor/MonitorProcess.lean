import TopologyPinning.Python.Builtins

/-!
# The sampling loop of the memory monitor

`MemoryMonitor._monitor_process` samples `/proc/<pid>/statm` of the child until the
child exits, the read fails or `max_rows` samples are taken. Samples go to a batch,
and a batch is written to the CSV file when it holds `batch_size` samples; what is
left in the batch is written after the loop. The run is driven by the environment:
`Event` says what the monitor finds at each turn of its loop, and what leaves the loop
early (`Interrupt`): a `KeyboardInterrupt`, the `SystemExit` of the handler that
`monitor` installs for `SIGINT` and `SIGTERM`, or the exception of `time.sleep`. A
signal reaches the handler at any point of a turn: before the turn's sample is written
in its batch (`Event.interrupted`), or after (`Event.sample` with a stop).

`sampleLoop` is the `while` loop over a state record, `monitorProcess` the whole call
up to the closing of the file. The loop keeps `LoopInv` (`sampleLoop_inv`): the rows
written and the batch are the rows of the samples collected, in order, and the rows
written are whole batches. The run is a prefix of turns that sample and go on, then the
turn that ends it (`sampleLoop_outcome`). So a run that ends normally leaves every
sample in the file, and an interrupted one only the samples of full batches
(`monitorProcess_file`): the samples of the last, partly filled batch are lost
(`monitorProcess_lostBatch`).
-/

set_option autoImplicit false

namespace TopologyPinning.Monitor

open TopologyPinning.Python (PyExc)

/-- What leaves the sampling loop early. -/
inductive Interrupt
  /-- `KeyboardInterrupt`, which `_monitor_process` catches as a user stop. -/
  | keyboard
  /-- `SIGINT` or `SIGTERM`: the handler of `monitor` terminates the child and calls
  `sys.exit(0)`, whose `SystemExit` passes through `_monitor_process`. -/
  | signal
  /-- The exception of `time.sleep(self.granularity)`, which `_monitor_process` logs and
  raises again. -/
  | raised (e : PyExc)
  deriving DecidableEq, Repr

/-- What the monitor finds at one turn of its loop. -/
inductive Event
  /-- `self.process.poll() is not None`: the child has exited. -/
  | exited
  /-- `_get_memory_info(pid)` returns `None`. -/
  | statmFailed
  /-- The turn is cut short before its sample reaches the batch written to the file: at
  the poll, in the read, between the sample joining the batch and the batch being
  written, or, at the turn that ends the loop, before the final write. -/
  | interrupted (kind : Interrupt)
  /-- `statm` gives `vm_pages` and `rss_pages`; `stop` is what leaves the loop after the
  sample's batch is written: an interruption, before `break` at `max_rows` and up to the
  end of the sleep otherwise, or the exception of the sleep. -/
  | sample (vmPages rssPages : Int) (stop : Option Interrupt)
  deriving DecidableEq, Repr

/-- Whether the monitor takes a sample at this turn. -/
def Event.isSample : Event → Bool
  | .sample .. => true
  | _ => false

/-- `MemoryInfo`, without its timestamp, which no row holds. -/
structure MemoryInfo where
  vmPages : Int
  rssPages : Int
  step : Int
  deriving DecidableEq, Repr

/-- `MemoryInfo.to_list`, the cells of a CSV row. -/
def MemoryInfo.toList (m : MemoryInfo) : List Int := [m.vmPages, m.rssPages, m.step]

/-- The locals of `_monitor_process` in its loop, and the rows the CSV writer has
written after the header. -/
structure MonitorState where
  step : Nat
  rowCount : Nat
  memoryBatch : List MemoryInfo
  written : List (List Int)
  deriving DecidableEq, Repr

/-- `step = 0`, `row_count = 0`, an empty batch, nothing written after the header. -/
def MonitorState.init : MonitorState := ⟨0, 0, [], []⟩

/-- `_write_batch`: `writer.writerows` of the batch's rows. -/
def writeBatch (written : List (List Int)) (batch : List MemoryInfo) : List (List Int) :=
  written ++ batch.map MemoryInfo.toList

/-- The body of the loop for a sample: `mem_info.step = step`, the sample joins the
batch, `step` and `row_count` count it, and a full batch is written and cleared. -/
def takeSample (batch_size : Nat) (s : MonitorState) (vm rss : Int) : MonitorState :=
  let batch := s.memoryBatch ++ [⟨vm, rss, s.step⟩]
  if batch.length ≥ batch_size then
    ⟨s.step + 1, s.rowCount + 1, [], writeBatch s.written batch⟩
  else ⟨s.step + 1, s.rowCount + 1, batch, s.written⟩

/-- How the loop ends: by `break` or its condition, or by an interruption. -/
inductive LoopEnd
  | done
  | interrupted (kind : Interrupt)
  deriving DecidableEq, Repr

/-- The `while row_count < max_rows` loop, for at most `fuel` turns; the turn is read
off `events` at the number of samples taken so far. At `max_rows` the loop breaks
before the sleep, so only an interruption can end it early there. `monitorProcess`
gives it `max_rows` turns, which is enough: every turn that goes on takes a sample
(`sampleLoop_outcome`). -/
def sampleLoop (max_rows batch_size : Nat) (events : Nat → Event) :
    Nat → MonitorState → LoopEnd × MonitorState
  | 0, s => (.done, s)
  | fuel + 1, s =>
    if s.rowCount < max_rows then
      match events s.rowCount with
      | .exited => (.done, s)
      | .statmFailed => (.done, s)
      | .interrupted kind => (.interrupted kind, s)
      | .sample vm rss stop =>
        let s := takeSample batch_size s vm rss
        if s.rowCount ≥ max_rows then
          match stop with
          | some (.raised _) | none => (.done, s)
          | some kind => (.interrupted kind, s)
        else match stop with
          | some kind => (.interrupted kind, s)
          | none => sampleLoop max_rows batch_size events fuel s
    else (.done, s)

/-- The header row `["VM", "RSS", "Step"]`. -/
def header : List String := ["VM", "RSS", "Step"]

/-- What `_monitor_process` leaves: the CSV file as it is closed, each row as the `str`
of its cells; `row_count`, the number of samples collected; and what left the loop
early, if anything (`signal` leaves by `SystemExit`, `raised` by the sleep's exception). -/
structure MonitorResult where
  file : List (List String)
  rowCount : Nat
  stop : Option Interrupt
  deriving DecidableEq, Repr

/-- `_monitor_process`: the loop, then, when it ended normally, the write of what is
left in the batch. An exception leaves the `with` block at once. -/
def monitorProcess (max_rows batch_size : Nat) (events : Nat → Event) : MonitorResult :=
  match sampleLoop max_rows batch_size events max_rows MonitorState.init with
  | (.done, s) =>
    let written := if s.memoryBatch ≠ [] then writeBatch s.written s.memoryBatch else s.written
    ⟨header :: written.map (·.map toString), s.rowCount, none⟩
  | (.interrupted kind, s) => ⟨header :: s.written.map (·.map toString), s.rowCount, some kind⟩

/-! ## The loop invariant -/

/-- The row of the `k`-th sample: `[vm, rss, k]`. -/
def sampleRow (events : Nat → Event) (k : Nat) : List Int :=
  match events k with
  | .sample vm rss _ => [vm, rss, k]
  | _ => []

/-- What the loop keeps: `step = row_count`; the rows written, then the batch, are the
rows of the samples collected, in order; the rows written are whole batches and the
batch is not full; at most `max_rows` samples. -/
structure LoopInv (max_rows batch_size : Nat) (events : Nat → Event) (s : MonitorState) :
    Prop where
  step_eq : s.step = s.rowCount
  rows : s.written ++ s.memoryBatch.map MemoryInfo.toList =
    (List.range s.rowCount).map (sampleRow events)
  whole : batch_size ∣ s.written.length
  batch_lt : s.memoryBatch.length < batch_size
  bound : s.rowCount ≤ max_rows

@[simp] theorem takeSample_rowCount (batch_size : Nat) (s : MonitorState) (vm rss : Int) :
    (takeSample batch_size s vm rss).rowCount = s.rowCount + 1 := by
  simp only [takeSample]
  split <;> rfl

section Loop

variable {max_rows batch_size : Nat} {events : Nat → Event}

theorem loopInv_init (hb : 1 ≤ batch_size) :
    LoopInv max_rows batch_size events MonitorState.init :=
  ⟨rfl, rfl, Nat.dvd_zero _, by simp [MonitorState.init]; omega, Nat.zero_le _⟩

/-- The step lemma: a sample taken below `max_rows` keeps the invariant. It becomes row
`row_count`, and a batch that fills up moves whole to the rows written. -/
theorem loopInv_takeSample {s : MonitorState} (hs : LoopInv max_rows batch_size events s)
    {vm rss : Int} {stop : Option Interrupt} (he : events s.rowCount = .sample vm rss stop)
    (hlt : s.rowCount < max_rows) :
    LoopInv max_rows batch_size events (takeSample batch_size s vm rss) := by
  have hrows : s.written ++ (s.memoryBatch ++ [(⟨vm, rss, s.step⟩ : MemoryInfo)]).map MemoryInfo.toList =
      (List.range (s.rowCount + 1)).map (sampleRow events) := by
    rw [List.map_append, ← List.append_assoc, hs.rows, List.range_succ, List.map_append]
    simp [MemoryInfo.toList, sampleRow, he, hs.step_eq]
  have hb := hs.batch_lt
  simp only [takeSample]
  split
  · rename_i hfull
    have hbeq : s.memoryBatch.length + 1 = batch_size := by simp at hfull; omega
    refine ⟨by simp [hs.step_eq], by simpa [writeBatch] using hrows, ?_, by simp; omega,
      by simp; omega⟩
    simpa [writeBatch, hbeq] using Nat.dvd_add hs.whole (Nat.dvd_refl batch_size)
  · rename_i hnot
    exact ⟨by simp [hs.step_eq], hrows, hs.whole, by simp at hnot ⊢; omega, by simp; omega⟩

/-- The induction over the loop, once: a property of the state that every sample taken
below `max_rows` keeps holds at the end of the loop, whichever way it ends. -/
theorem sampleLoop_induct (P : MonitorState → Prop)
    (step : ∀ s vm rss stop, P s → events s.rowCount = .sample vm rss stop →
      s.rowCount < max_rows → P (takeSample batch_size s vm rss)) :
    ∀ (fuel : Nat) (s : MonitorState), P s → P (sampleLoop max_rows batch_size events fuel s).2
  | 0, _, hs => hs
  | fuel + 1, s, hs => by
    unfold sampleLoop
    split
    · rename_i hlt
      cases he : events s.rowCount with
      | exited => exact hs
      | statmFailed => exact hs
      | interrupted kind => exact hs
      | sample vm rss stop =>
        have hs' := step s vm rss stop hs he hlt
        simp only
        split
        · split <;> exact hs'
        · split
          · exact hs'
          · exact sampleLoop_induct P step fuel _ hs'
    · exact hs

/-- The run lemma: the loop keeps the invariant to its end, whichever way it ends. -/
theorem sampleLoop_inv (fuel : Nat) (s : MonitorState) (hs : LoopInv max_rows batch_size events s) :
    LoopInv max_rows batch_size events (sampleLoop max_rows batch_size events fuel s).2 :=
  sampleLoop_induct _ (fun _ _ _ _ hs he hlt => loopInv_takeSample hs he hlt) fuel s hs

/-- Every turn that goes on takes a sample: the first `row_count` events are samples. -/
theorem sampleLoop_isSample (fuel : Nat) (s : MonitorState)
    (hs : ∀ k < s.rowCount, (events k).isSample) :
    ∀ k < (sampleLoop max_rows batch_size events fuel s).2.rowCount, (events k).isSample := by
  refine sampleLoop_induct (fun s => ∀ k < s.rowCount, (events k).isSample) ?_ fuel s hs
  intro s _ _ _ hs he _ k hk
  rw [takeSample_rowCount] at hk
  rcases Nat.lt_succ_iff_lt_or_eq.1 hk with hk | rfl
  · exact hs k hk
  · rw [he]; rfl

/-- Why the loop stops, given the turns it needs: it has `max_rows` samples, or the turn
at `row_count` takes none (the child exited, the read failed or a signal came first), or
something left the loop after a sample. -/
theorem sampleLoop_stop : ∀ (fuel : Nat) (s : MonitorState), max_rows ≤ s.rowCount + fuel →
    max_rows ≤ (sampleLoop max_rows batch_size events fuel s).2.rowCount ∨
      (events (sampleLoop max_rows batch_size events fuel s).2.rowCount).isSample = false ∨
      (sampleLoop max_rows batch_size events fuel s).1 ≠ .done
  | 0, _, h => .inl (by simpa using h)
  | fuel + 1, s, h => by
    unfold sampleLoop
    split
    · cases he : events s.rowCount with
      | exited => exact .inr (.inl (by rw [he]; rfl))
      | statmFailed => exact .inr (.inl (by rw [he]; rfl))
      | interrupted kind => exact .inr (.inr LoopEnd.noConfusion)
      | sample vm rss stop =>
        simp only
        split
        · rename_i hge
          split <;> exact .inl hge
        · cases stop with
          | some kind => exact .inr (.inr LoopEnd.noConfusion)
          | none => exact sampleLoop_stop fuel _ (by simp only [takeSample_rowCount]; omega)
    · exact .inl (not_lt.1 ‹_›)

end Loop

/-! ## Where the run ends -/

/-- Whether the run goes on after a turn: the turn took a sample, nothing left the loop
after it, and it is not the last turn `max_rows` allows (`atLast`). -/
def Event.goesOn (atLast : Bool) : Event → Bool
  | .sample _ _ none => !atLast
  | _ => false

/-- The turn `k` that ends the run decides what `_monitor_process` reports: how many
samples it collected and what left the loop early. At the last turn the exception of
the sleep does not arise, as the loop breaks before sleeping. -/
def Event.outcome (k : Nat) (atLast : Bool) : Event → Nat × Option Interrupt
  | .exited | .statmFailed => (k, none)
  | .interrupted kind => (k, some kind)
  | .sample _ _ (some (.raised e)) => (k + 1, if atLast then none else some (.raised e))
  | .sample _ _ stop => (k + 1, stop)

/-- The exception of a way the loop ends, if any. -/
def LoopEnd.stop : LoopEnd → Option Interrupt
  | .done => none
  | .interrupted kind => some kind

section Outcome

variable {max_rows batch_size : Nat} {events : Nat → Event}

theorem Event.goesOn_eq_true {atLast : Bool} {e : Event} :
    e.goesOn atLast = true ↔ atLast = false ∧ ∃ vm rss, e = .sample vm rss none := by
  cases e with
  | sample vm rss stop => cases stop <;> cases atLast <;> simp [Event.goesOn]
  | exited => simp [Event.goesOn]
  | statmFailed => simp [Event.goesOn]
  | interrupted kind => simp [Event.goesOn]

/-- The step lemma of the run: a turn that does not go on ends the loop with its
outcome. -/
theorem sampleLoop_ends (fuel : Nat) {s : MonitorState} (hlt : s.rowCount < max_rows)
    (hgo : (events s.rowCount).goesOn (s.rowCount + 1 = max_rows) = false) :
    ((sampleLoop max_rows batch_size events (fuel + 1) s).2.rowCount,
      (sampleLoop max_rows batch_size events (fuel + 1) s).1.stop) =
        (events s.rowCount).outcome s.rowCount (s.rowCount + 1 = max_rows) := by
  cases he : events s.rowCount with
  | exited => simp [sampleLoop, hlt, he, Event.outcome, LoopEnd.stop]
  | statmFailed => simp [sampleLoop, hlt, he, Event.outcome, LoopEnd.stop]
  | interrupted kind => simp [sampleLoop, hlt, he, Event.outcome, LoopEnd.stop]
  | sample vm rss stop =>
    rw [he] at hgo
    by_cases hlast : s.rowCount + 1 = max_rows
    · -- The last turn: the loop breaks after the sample, before the sleep.
      have hge : (takeSample batch_size s vm rss).rowCount ≥ max_rows := by simp; omega
      simp only [sampleLoop, if_pos hlt, he, if_pos hge, hlast, decide_True]
      rcases stop with _ | _ | _ | e <;> simp [Event.outcome, LoopEnd.stop]
    · have hlt' : ¬ (takeSample batch_size s vm rss).rowCount ≥ max_rows := by simp; omega
      cases stop with
      | none => simp [Event.goesOn, hlast] at hgo
      | some kind =>
        simp only [sampleLoop, if_pos hlt, he, if_neg hlt', hlast, decide_False]
        cases kind <;> simp [Event.outcome, LoopEnd.stop]

/-- A turn that goes on takes its sample, and the loop carries on from the next turn. -/
theorem sampleLoop_next (fuel : Nat) {s : MonitorState} (hlt : s.rowCount < max_rows)
    {vm rss : Int} (he : events s.rowCount = .sample vm rss none)
    (hlast : s.rowCount + 1 ≠ max_rows) :
    sampleLoop max_rows batch_size events (fuel + 1) s =
      sampleLoop max_rows batch_size events fuel (takeSample batch_size s vm rss) := by
  have hlt' : ¬ (takeSample batch_size s vm rss).rowCount ≥ max_rows := by simp; omega
  simp only [sampleLoop, if_pos hlt, he, if_neg hlt']

/-- The run lemma: from a turn below `max_rows` the turns sample and go on up to a turn
`k`, which ends the run with its outcome. -/
theorem sampleLoop_outcome : ∀ (fuel : Nat) (s : MonitorState), s.rowCount < max_rows →
    max_rows ≤ s.rowCount + fuel →
      ∃ k, s.rowCount ≤ k ∧ k < max_rows ∧
        (∀ j, s.rowCount ≤ j → j < k → ∃ vm rss, events j = .sample vm rss none) ∧
        (events k).goesOn (k + 1 = max_rows) = false ∧
        ((sampleLoop max_rows batch_size events fuel s).2.rowCount,
          (sampleLoop max_rows batch_size events fuel s).1.stop) =
            (events k).outcome k (k + 1 = max_rows)
  | 0, s, hlt, hfuel => absurd hfuel (by omega)
  | fuel + 1, s, hlt, hfuel => by
    cases hgo : (events s.rowCount).goesOn (s.rowCount + 1 = max_rows) with
    | false => exact ⟨s.rowCount, le_rfl, hlt, fun j hj hjk => absurd hjk (by omega), hgo,
        sampleLoop_ends fuel hlt hgo⟩
    | true =>
      -- The turn takes a sample and the run goes on from the next turn.
      obtain ⟨hlast, vm, rss, he⟩ := Event.goesOn_eq_true.1 hgo
      have hlast : s.rowCount + 1 ≠ max_rows := by simpa using hlast
      obtain ⟨k, hk1, hk2, hpre, hgo', hout⟩ := sampleLoop_outcome fuel
        (takeSample batch_size s vm rss) (by simp; omega) (by simp; omega)
      rw [takeSample_rowCount] at hk1 hpre
      refine ⟨k, by omega, hk2, fun j hj hjk => ?_, hgo', sampleLoop_next fuel hlt he hlast ▸ hout⟩
      rcases Nat.eq_or_lt_of_le hj with rfl | hj
      · exact ⟨vm, rss, he⟩
      · exact hpre j hj hjk

end Outcome

/-! ## The file -/

/-- The data rows of the first `n` samples, as the CSV writer writes them: the `k`-th
is `[str(vm), str(rss), str(k)]`. -/
def fileRows (events : Nat → Event) (n : Nat) : List (List String) :=
  (List.range n).map fun k => (sampleRow events k).map toString

/-- How many samples reach the file: all of them when the loop ends normally, only the
full batches when it is interrupted. -/
def savedRows (batch_size : Nat) (r : MonitorResult) : Nat :=
  if r.stop = none then r.rowCount else batch_size * (r.rowCount / batch_size)

/-- Whole batches of rows are the first rows. -/
theorem written_eq_fileRows {max_rows batch_size : Nat} {events : Nat → Event} {s : MonitorState}
    (hb : 1 ≤ batch_size) (hs : LoopInv max_rows batch_size events s) :
    s.written.map (·.map toString) = fileRows events (batch_size * (s.rowCount / batch_size)) := by
  obtain ⟨q, hq⟩ := hs.whole
  have hlen : s.written.length + s.memoryBatch.length = s.rowCount := by
    simpa using congrArg List.length hs.rows
  have hdiv : s.rowCount / batch_size = q := by
    rw [← hlen, hq, Nat.mul_add_div (by omega), Nat.div_eq_of_lt hs.batch_lt, Nat.add_zero]
  have hw : s.written = ((List.range s.rowCount).map (sampleRow events)).take s.written.length := by
    rw [← hs.rows, List.take_left]
  rw [hw, hdiv, ← hq, ← List.map_take, List.take_range, Nat.min_eq_left (by omega), List.map_map]
  rfl

theorem monitorProcess_rowCount (max_rows batch_size : Nat) (events : Nat → Event) :
    (monitorProcess max_rows batch_size events).rowCount =
      (sampleLoop max_rows batch_size events max_rows MonitorState.init).2.rowCount := by
  unfold monitorProcess
  rcases sampleLoop max_rows batch_size events max_rows MonitorState.init with ⟨_ | _, _⟩ <;> rfl

theorem monitorProcess_rowCount_le {max_rows batch_size : Nat} (hb : 1 ≤ batch_size)
    (events : Nat → Event) : (monitorProcess max_rows batch_size events).rowCount ≤ max_rows := by
  rw [monitorProcess_rowCount]
  exact (sampleLoop_inv max_rows _ (@loopInv_init max_rows batch_size events hb)).bound

/-- The samples `_monitor_process` counts are the first events, all of them samples. -/
theorem monitorProcess_isSample (max_rows batch_size : Nat) (events : Nat → Event) :
    ∀ k < (monitorProcess max_rows batch_size events).rowCount, (events k).isSample := by
  rw [monitorProcess_rowCount]
  exact sampleLoop_isSample _ _ fun k hk => absurd hk (Nat.not_lt_zero k)

theorem monitorProcess_file_eq {max_rows batch_size : Nat} (hb : 1 ≤ batch_size)
    (events : Nat → Event) :
    (monitorProcess max_rows batch_size events).file =
      header :: fileRows events (savedRows batch_size (monitorProcess max_rows batch_size events)) := by
  have hinv := sampleLoop_inv max_rows MonitorState.init (@loopInv_init max_rows batch_size events hb)
  unfold monitorProcess
  rcases h : sampleLoop max_rows batch_size events max_rows MonitorState.init with ⟨_ | kind, s⟩
  · rw [h] at hinv
    have hwritten : (if s.memoryBatch ≠ [] then writeBatch s.written s.memoryBatch else s.written) =
        (List.range s.rowCount).map (sampleRow events) := by
      rw [← hinv.rows]
      split
      · rfl
      · rename_i hnil
        simp [not_not.1 hnil]
    simp only [savedRows, if_true, hwritten, List.map_map]
    rfl
  · rw [h] at hinv
    simp only [savedRows, reduceCtorEq, if_false, written_eq_fileRows hb hinv]

/-- `_monitor_process` runs through turns that sample and go on, up to the turn `k` that
ends the run, and reports that turn's outcome. -/
theorem monitorProcess_outcome {max_rows : Nat} (hm : 0 < max_rows) (batch_size : Nat)
    (events : Nat → Event) :
    ∃ k < max_rows, (∀ j < k, ∃ vm rss, events j = .sample vm rss none) ∧
      (events k).goesOn (k + 1 = max_rows) = false ∧
      ((monitorProcess max_rows batch_size events).rowCount,
        (monitorProcess max_rows batch_size events).stop) = (events k).outcome k (k + 1 = max_rows) := by
  obtain ⟨k, -, hk, hpre, hgo, hout⟩ := @sampleLoop_outcome max_rows batch_size events max_rows
    MonitorState.init hm (by simp [MonitorState.init])
  refine ⟨k, hk, fun j hj => hpre j (Nat.zero_le _) hj, hgo, ?_⟩
  rw [← hout]
  unfold monitorProcess
  rcases sampleLoop max_rows batch_size events max_rows MonitorState.init with ⟨_ | _, _⟩ <;> rfl

/-- `_monitor_process` stops at `max_rows` samples, at a turn where the child has exited
or the read failed, or when something left the loop early. -/
theorem monitorProcess_stop (max_rows batch_size : Nat) (events : Nat → Event) :
    (monitorProcess max_rows batch_size events).rowCount = max_rows ∨
      events (monitorProcess max_rows batch_size events).rowCount = .exited ∨
      events (monitorProcess max_rows batch_size events).rowCount = .statmFailed ∨
      (monitorProcess max_rows batch_size events).stop ≠ none := by
  rcases Nat.eq_zero_or_pos max_rows with rfl | hm
  · exact .inl rfl
  obtain ⟨k, -, -, hgo, hout⟩ := monitorProcess_outcome hm batch_size events
  have hR : (monitorProcess max_rows batch_size events).rowCount = _ := congrArg Prod.fst hout
  have hS : (monitorProcess max_rows batch_size events).stop = _ := congrArg Prod.snd hout
  rw [hR, hS]
  cases he : events k with
  | exited => simp [Event.outcome, he]
  | statmFailed => simp [Event.outcome, he]
  | interrupted kind => simp [Event.outcome]
  | sample vm rss stop =>
    rw [he] at hgo
    rcases stop with _ | (_ | _ | e) <;>
      by_cases hl : k + 1 = max_rows <;> simp_all [Event.outcome, Event.goesOn]

/-- The file keeps no more samples than were collected. -/
theorem savedRows_le (batch_size : Nat) (r : MonitorResult) : savedRows batch_size r ≤ r.rowCount := by
  unfold savedRows
  split
  · exact le_rfl
  · exact Nat.mul_div_le _ _

/-- A full batch of two and one more sample, then the child exits. -/
def twoBatchThenExit : Nat → Event
  | 0 => .sample 10 5 none
  | 1 => .sample 11 6 none
  | 2 => .sample 12 7 none
  | _ => .exited

/-- One sample, then an interruption after it. -/
def oneSampleThenStop (kind : Interrupt) : Nat → Event
  | 0 => .sample 100 50 (some kind)
  | _ => .exited

/-- With `max_rows = 5` and `batch_size = 1000`, one sample is collected and then the
run is interrupted, by either kind: the file holds the header only. -/
theorem monitorProcess_lostBatch (kind : Interrupt) :
    monitorProcess 5 1000 (oneSampleThenStop kind) = ⟨[header], 1, some kind⟩ := by
  cases kind <;> rfl

end TopologyPinning.Monitor
