import TopologyPinning.Topology.Nodes
import Mathlib.Data.List.Chain

/-!
# The kernel's list format

The kernel writes an id set, such as a node's `cpulist`, `has_memory` or a CPU's
`thread_siblings_list`, in its list format: one item per maximal run of consecutive
ids, `a` for a run of one id and `a-b` for the run `a..b`, the items joined by commas,
then a newline. `renderIdList` is that rendering of an ascending id list; `idRuns`
gives the runs (`idRuns_cover`, `idRuns_maximal`).

The scripts parse these files in two ways.

- `has_memory`, and `thread_siblings_list` in `_get_cpus_logical_ids` and in
  `get_cpu_info`, are split on commas and every item is read by `int`. They read back
  exactly the renderings whose items are all single ids of at most 4300 digits, and raise
  `ValueError` on any other (`commaList_renderIdList`).
- A node's `cpulist` is read as one range when it holds a dash and as a comma list
  otherwise. It reads back the renderings of single ids and the rendering of one run
  that fits in a list, raises `OverflowError` or `MemoryError` on a longer run, and
  `ValueError` on a rendering that mixes a range with other items
  (`parseCpulist_renderIdList`).

`listFormat_twoSocket` runs both on the renderings `0-3,8-11` and `0-1`.
-/

set_option autoImplicit false

namespace TopologyPinning.Topology

open TopologyPinning.Python

/-! ## The rendering -/

/-- The maximal runs of consecutive ids of a list, as `(first, last)` pairs: an id joins
the run of the ids after it when that run starts at the id plus one. -/
def idRuns : List Nat → List (Nat × Nat)
  | [] => []
  | a :: rest =>
    match idRuns rest with
    | (b, c) :: runs => if b = a + 1 then (a, c) :: runs else (a, a) :: (b, c) :: runs
    | [] => [(a, a)]

/-- The ids of the run `(a, b)`: `a, a + 1, ..., b`. -/
def runIds (r : Nat × Nat) : List Nat := List.range' r.1 (r.2 + 1 - r.1)

/-- One item of the list format: `a` for a run of one id, `a-b` for the run `a..b`. -/
def runText (r : Nat × Nat) : List Char :=
  if r.1 = r.2 then Nat.toDigits 10 r.1 else Nat.toDigits 10 r.1 ++ '-' :: Nat.toDigits 10 r.2

/-- The list format of the ids, without the newline. -/
def renderIdList (ids : List Nat) : List Char :=
  [','].intercalate ((idRuns ids).map runText)

/-- Every item of the rendering is a single id: no two ids are consecutive. -/
def singlesOnly (ids : List Nat) : Bool :=
  (idRuns ids).all fun r => r.1 == r.2

example : renderIdList [0, 2, 5, 6, 7] = "0,2,5-7".toList := rfl

/-! ## The runs -/

theorem idRuns_le : ∀ l : List Nat, ∀ r ∈ idRuns l, r.1 ≤ r.2
  | [] => fun _ h => absurd h (List.not_mem_nil _)
  | a :: rest => by
    have ih := idRuns_le rest
    unfold idRuns
    split
    · rename_i b c runs hrest
      have hbc := ih (b, c) (hrest ▸ List.mem_cons_self _ _)
      have hruns : ∀ r ∈ runs, r.1 ≤ r.2 := fun r hr => ih r (hrest ▸ List.mem_cons_of_mem _ hr)
      split
      · rintro r (_ | ⟨_, hr⟩)
        · simp only at hbc ⊢; omega
        · exact hruns r hr
      · rintro r (_ | ⟨_, _ | ⟨_, hr⟩⟩)
        · exact le_refl _
        · exact hbc
        · exact hruns r hr
    · simp

/-- The runs are the ids, in order. -/
theorem idRuns_cover : ∀ l : List Nat, (idRuns l).flatMap runIds = l
  | [] => rfl
  | a :: rest => by
    have ih := idRuns_cover rest
    have hle := idRuns_le rest
    unfold idRuns
    split
    · rename_i b c runs hrest
      rw [hrest, List.flatMap_cons] at ih
      split
      · rename_i hb
        have hbc := hle (b, c) (hrest ▸ List.mem_cons_self _ _)
        simp only at hbc
        rw [List.flatMap_cons, ← ih, runIds, runIds, hb, show c + 1 - a = (c + 1 - (a + 1)) + 1 by omega,
          List.range'_succ]
        rfl
      · rw [List.flatMap_cons, List.flatMap_cons, ← ih]
        simp [runIds]
    · rename_i hrest
      rw [hrest] at ih
      simp [runIds, ← ih]

theorem idRuns_cons (a : Nat) (rest : List Nat) : ∃ c runs, idRuns (a :: rest) = (a, c) :: runs := by
  unfold idRuns
  split
  · split
    · exact ⟨_, _, rfl⟩
    · exact ⟨_, _, rfl⟩
  · exact ⟨_, _, rfl⟩

/-- On an ascending list the runs are maximal: a gap of at least one id separates each
run from the next. -/
theorem idRuns_maximal : ∀ {l : List Nat}, l.Sorted (· < ·) →
    (idRuns l).Chain' fun r s => r.2 + 1 < s.1
  | [], _ => List.chain'_nil
  | a :: rest, hs => by
    have ih := idRuns_maximal hs.of_cons
    unfold idRuns
    split
    · rename_i b c runs hrest
      rw [hrest] at ih
      split
      · exact (List.chain'_cons'.1 ih).1 |> fun h => List.chain'_cons'.2 ⟨h, (List.chain'_cons'.1 ih).2⟩
      · have hb : a < b := by
          cases rest with
          | nil => simp [idRuns] at hrest
          | cons b' rest' =>
            obtain ⟨c', runs', h'⟩ := idRuns_cons b' rest'
            rw [h'] at hrest
            cases hrest
            exact List.rel_of_sorted_cons hs _ (List.mem_cons_self _ _)
        exact List.Chain'.cons (by simp only; omega) ih
    · exact List.chain'_singleton _

theorem idRuns_eq_nil {l : List Nat} : idRuns l = [] ↔ l = [] := by
  cases l with
  | nil => simp [idRuns]
  | cons a rest =>
    obtain ⟨c, runs, h⟩ := idRuns_cons a rest
    simp [h]

theorem eq_map_of_singles : ∀ runs : List (Nat × Nat), (∀ r ∈ runs, r.1 = r.2) →
    runs = (runs.flatMap runIds).map fun a => (a, a)
  | [], _ => rfl
  | (a, b) :: runs, hr => by
    obtain rfl : a = b := hr _ (List.mem_cons_self _ _)
    simp only [List.flatMap_cons, runIds, Nat.add_sub_cancel_left, List.range'_one,
      List.singleton_append, List.map_cons]
    exact congrArg _ (eq_map_of_singles runs fun r h => hr r (List.mem_cons_of_mem _ h))

/-- With single ids only, the runs are the ids. -/
theorem idRuns_of_singlesOnly {ids : List Nat} (h : singlesOnly ids = true) :
    idRuns ids = ids.map fun a => (a, a) := by
  rw [eq_map_of_singles (idRuns ids) fun r hr => by simpa using List.all_eq_true.1 h r hr,
    idRuns_cover]

/-! ## The items -/

theorem mem_intercalate_of_mem {sep c : Char} {l : List Char} (hc : c ∈ l) :
    ∀ {ls : List (List Char)}, l ∈ ls → c ∈ [sep].intercalate ls
  | [], h => absurd h (List.not_mem_nil _)
  | [a], h => by simpa [List.intercalate, List.mem_singleton.1 h] using hc
  | a :: b :: t, h => by
    rw [intercalate_cons_cons]
    rcases List.mem_cons.1 h with rfl | h
    · exact List.mem_append_left _ hc
    · exact List.mem_append_right _ (List.mem_cons_of_mem _ (mem_intercalate_of_mem hc h))

theorem mem_runText {r : Nat × Nat} {c : Char} (h : c ∈ runText r) :
    c.isDigit = true ∨ (c = '-' ∧ r.1 ≠ r.2) := by
  unfold runText at h
  split at h
  · exact .inl ((toDigits_digits _).2 c h)
  · rename_i hne
    rcases List.mem_append.1 h with h | h
    · exact .inl ((toDigits_digits _).2 c h)
    rcases List.mem_cons.1 h with h | h
    · exact .inr ⟨h, hne⟩
    · exact .inl ((toDigits_digits _).2 c h)

theorem runText_ne_nil (r : Nat × Nat) : runText r ≠ [] := by
  unfold runText
  split
  · exact (toDigits_digits _).1
  · simp

/-- A character of the rendering is a digit, a comma, or the dash of a range item. -/
theorem mem_renderIdList {ids : List Nat} {c : Char} (h : c ∈ renderIdList ids) :
    c.isDigit = true ∨ c = ',' ∨ (c = '-' ∧ ∃ r ∈ idRuns ids, r.1 ≠ r.2) := by
  rcases mem_intercalate h with h | ⟨l, hl, hc⟩
  · exact .inr (.inl h)
  · obtain ⟨r, hr, rfl⟩ := List.mem_map.1 hl
    rcases mem_runText hc with h | ⟨h, hne⟩
    · exact .inl h
    · exact .inr (.inr ⟨h, r, hr, hne⟩)

/-- The file's text, stripped, is the rendering. -/
theorem strip_renderIdList (ids : List Nat) : strip (renderIdList ids ++ ['\n']) = renderIdList ids :=
  strip_append_space (fun c hc => by
    rcases mem_renderIdList hc with h | rfl | ⟨rfl, -⟩
    · exact isSpace_of_isDigit h
    all_goals decide) (by decide)

/-- Splitting the rendering on commas gives its items. -/
theorem split_renderIdList {ids : List Nat} (hne : ids ≠ []) :
    split ',' (renderIdList ids) = (idRuns ids).map runText :=
  split_intercalate ',' (fun l hl hc => by
    obtain ⟨r, -, rfl⟩ := List.mem_map.1 hl
    rcases mem_runText hc with h | ⟨h, -⟩
    · exact absurd h (by decide)
    · exact absurd h (by decide))
    (by simpa [idRuns_eq_nil] using hne)

/-! ## Reading the format back -/

theorem runText_range {r : Nat × Nat} (hne : r.1 ≠ r.2) :
    runText r = Nat.toDigits 10 r.1 ++ '-' :: Nat.toDigits 10 r.2 := if_neg hne

/-- The items stripped are themselves and not blank. -/
theorem runText_nonblank (r : Nat × Nat) : (!(strip (runText r)).isEmpty) = true := by
  rw [strip_of_no_space fun c hc => ?_]
  · simpa using runText_ne_nil r
  · rcases mem_runText hc with h | ⟨rfl, -⟩
    · exact isSpace_of_isDigit h
    · decide

/-- Every item read by `int`: the ids when all items are single ids of at most 4300
digits, `ValueError` when one is a range or a longer id. -/
theorem mapM_int_runText (ids : List Nat) :
    ((idRuns ids).map runText).mapM int =
      if singlesOnly ids ∧ ids.all (· < 10 ^ maxStrDigits) = true then .ok (ids.map (↑))
      else .error .valueError := by
  split
  · rename_i h
    simp only [List.all_eq_true, decide_eq_true_eq] at h
    rw [idRuns_of_singlesOnly h.1, List.map_map]
    exact mapM_map_eq_ok fun a ha => by simp [runText, int_toDigits (h.2 a ha)]
  · rename_i h
    have hbad : ∃ r ∈ idRuns ids, int (runText r) = .error .valueError := by
      by_cases hs : singlesOnly ids
      · obtain ⟨a, ha, hle⟩ : ∃ a ∈ ids, 10 ^ maxStrDigits ≤ a := by simpa [hs] using h
        refine ⟨(a, a), by rw [idRuns_of_singlesOnly hs]; exact List.mem_map_of_mem _ ha, ?_⟩
        simpa [runText] using int_toDigits_of_le hle
      · obtain ⟨r, hr, hne⟩ : ∃ r ∈ idRuns ids, r.1 ≠ r.2 := by simpa [singlesOnly] using hs
        refine ⟨r, hr, ?_⟩
        rw [runText_range hne]
        exact int_range (toDigits_digits _).1 (toDigits_digits _).2 (toDigits_digits _).2
    obtain ⟨r, hr, hbad⟩ := hbad
    cases hm : ((idRuns ids).map runText).mapM int with
    | ok rs =>
      obtain ⟨_, hok⟩ := ok_of_mem_mapM hm (List.mem_map_of_mem _ hr)
      rw [hbad] at hok
      cases hok
    | error e => simpa using raisesOnly_mapM int_raisesOnly _ e hm

/-- The comma-list parses of `has_memory` and `_get_cpus_logical_ids` (`intList`), and
of `thread_siblings_list` in `get_cpu_info` (blank items skipped), on a file holding
the rendering of a non-empty id list: the ids when every item is a single id of at most
4300 digits, `ValueError` otherwise. -/
theorem commaList_renderIdList {ids : List Nat} (hne : ids ≠ []) :
    intList (renderIdList ids ++ ['\n']) =
        (if singlesOnly ids ∧ ids.all (· < 10 ^ maxStrDigits) = true then .ok (ids.map (↑))
          else .error .valueError) ∧
      ((split ',' (strip (renderIdList ids ++ ['\n']))).filter fun x => !(strip x).isEmpty).mapM int =
        (if singlesOnly ids ∧ ids.all (· < 10 ^ maxStrDigits) = true then .ok (ids.map (↑))
          else .error .valueError) := by
  rw [intList, strip_renderIdList, split_renderIdList hne,
    List.filter_eq_self.2 fun x hx => by obtain ⟨r, -, rfl⟩ := List.mem_map.1 hx; exact runText_nonblank r]
  exact ⟨mapM_int_runText ids, mapM_int_runText ids⟩

/-- The rendering `0,2-3` has a range item. -/
theorem commaList_renderIdList_range :
    ([0, 2, 3] : List Nat) ≠ [] ∧ singlesOnly [0, 2, 3] = false ∧
      intList (renderIdList [0, 2, 3] ++ ['\n']) = .error .valueError ∧
      (intList (renderIdList [0, 2, 3] ++ ['\n']) =
          (if singlesOnly [0, 2, 3] ∧ [0, 2, 3].all (· < 10 ^ maxStrDigits) = true then
            .ok ([0, 2, 3].map (↑)) else .error .valueError) ∧
        ((split ',' (strip (renderIdList [0, 2, 3] ++ ['\n']))).filter fun x => !(strip x).isEmpty).mapM int =
          (if singlesOnly [0, 2, 3] ∧ [0, 2, 3].all (· < 10 ^ maxStrDigits) = true then
            .ok ([0, 2, 3].map (↑)) else .error .valueError)) :=
  ⟨by decide, rfl, rfl, commaList_renderIdList (by decide)⟩

/-- `range(a, b + 1)` of the run `(a, b)` is its ids. -/
theorem range_map_runIds {r : Nat × Nat} (hle : r.1 ≤ r.2) :
    (List.range ((r.2 : Int) + 1 - r.1).toNat).map (fun i : Nat => (r.1 : Int) + i) =
      (runIds r).map (↑) := by
  rw [runIds, List.range'_eq_map_range, List.map_map,
    show ((r.2 : Int) + 1 - r.1).toNat = r.2 + 1 - r.1 by omega]
  exact List.map_congr_left fun _ _ => by simp

theorem mem_runIds {r : Nat × Nat} (hle : r.1 ≤ r.2) : r.1 ∈ runIds r ∧ r.2 ∈ runIds r := by
  simp only [runIds, List.mem_range'_1]
  omega

/-- The `cpulist` parse of `get_nodes_info` on a file holding the rendering of an id
list, where a list can be given `capacity` elements: the ids when every item is a single
id, or when there is one item whose range fits in a list; `OverflowError` or
`MemoryError` for one range longer than that; `ValueError` for a rendering that mixes a
range with other items, or holds an id of more than 4300 digits. -/
theorem parseCpulist_renderIdList (capacity : Nat) (ids : List Nat) :
    parseCpulist capacity (strip (renderIdList ids ++ ['\n'])) =
      if (singlesOnly ids ∨ (idRuns ids).length = 1) ∧ ids.all (· < 10 ^ maxStrDigits) = true then
        if singlesOnly ids ∨ ids.length ≤ capacity ∧ ids.length ≤ maxSize then .ok (ids.map (↑))
        else if maxSize < ids.length then .error .overflowError else .error .memoryError
      else .error .valueError := by
  rw [strip_renderIdList]
  by_cases hs : singlesOnly ids
  · -- Single ids only: no dash, the comma branch reads every item.
    have hdash : '-' ∉ renderIdList ids := fun h => by
      rcases mem_renderIdList h with h | h | ⟨-, r, hr, hne⟩
      · exact absurd h (by decide)
      · exact absurd h (by decide)
      · exact hne (by simpa using List.all_eq_true.1 hs r hr)
    rw [parseCpulist, if_neg hdash]
    rcases eq_or_ne ids [] with rfl | hne
    · rfl
    · rw [split_renderIdList hne, List.filter_eq_self.2 fun x hx => by
        obtain ⟨r, -, rfl⟩ := List.mem_map.1 hx; exact runText_nonblank r, mapM_int_runText]
      simp [hs]
  · -- A range item: the dash branch.
    obtain ⟨r, hr, hne⟩ : ∃ r ∈ idRuns ids, r.1 ≠ r.2 := by simpa [singlesOnly] using hs
    have hdash : '-' ∈ renderIdList ids :=
      mem_intercalate_of_mem (by rw [runText_range hne]; simp) (List.mem_map_of_mem _ hr)
    rw [parseCpulist, if_pos hdash]
    by_cases h1 : (idRuns ids).length = 1
    · -- One run `a-b`: read as `range(a, b + 1)`.
      obtain ⟨r', hr'⟩ := List.length_eq_one.1 h1
      obtain rfl : r = r' := List.mem_singleton.1 (hr' ▸ hr)
      have hle := idRuns_le ids r hr
      have hids : ids = runIds r := by simpa [hr'] using (idRuns_cover ids).symm
      have hsplit : split '-' (renderIdList ids) = [Nat.toDigits 10 r.1, Nat.toDigits 10 r.2] := by
        rw [show renderIdList ids = ['-'].intercalate [Nat.toDigits 10 r.1, Nat.toDigits 10 r.2] by
          simp [renderIdList, hr', runText_range hne, List.intercalate]]
        exact @split_intercalate '-' [_, _] (fun l hl hl' => by
          rcases List.mem_pair.1 hl with rfl | rfl <;>
            exact absurd ((toDigits_digits _).2 _ hl') (by decide)) (by simp)
      have hlen : ((r.2 : Int) + 1 - r.1).toNat = ids.length := by
        rw [hids, runIds, List.length_range']
        omega
      rw [hsplit]
      simp only [hs, h1, or_true, true_and, false_or]
      split
      · -- Both ends convert: the range is built, if it fits.
        rename_i hb
        have hb' : ∀ i ∈ ids, i < 10 ^ maxStrDigits := by simpa using hb
        simp only [int_toDigits (hb' _ (hids ▸ (mem_runIds hle).1)),
          int_toDigits (hb' _ (hids ▸ (mem_runIds hle).2)), ok_bind, intRange]
        rw [range_map_runIds hle, hlen, ← hids]
        simp only [Bool.false_eq_true, false_or]
        split_ifs <;> first | rfl | omega
      · -- The upper end has more than 4300 digits.
        rename_i hb
        have hb2 : 10 ^ maxStrDigits ≤ r.2 := by
          by_contra hlt
          refine hb (List.all_eq_true.2 fun i hi => ?_)
          have : i ≤ r.2 := by rw [hids] at hi; simp only [runIds, List.mem_range'_1] at hi; omega
          simp only [decide_eq_true_eq]
          omega
        cases h0 : int (Nat.toDigits 10 r.1) with
        | error e => simpa [h0] using int_raisesOnly _ e h0
        | ok a => simp only [h0, ok_bind, int_toDigits_of_le hb2, error_bind]
    · -- Several items and a range: splitting on the dash leaves a comma in a part.
      rw [if_neg (by simp [hs, h1])]
      have hcomma : ',' ∈ renderIdList ids := by
        rcases hruns : idRuns ids with _ | ⟨r1, _ | ⟨r2, rest⟩⟩
        · simp [hruns] at hr
        · simp [hruns] at h1
        · rw [renderIdList, hruns, List.map_cons, List.map_cons, intercalate_cons_cons]
          exact List.mem_append_right _ (List.mem_cons_self _ _)
      have hjoin := intercalate_split '-' (renderIdList ids)
      split
      · rename_i x y hxy
        rw [hxy] at hjoin
        have hxy' : ',' ∈ x ∨ ',' ∈ y := by
          rw [← hjoin] at hcomma
          simpa [List.intercalate] using hcomma
        rcases hxy' with hx | hy
        · rw [int_comma hx]
          rfl
        · cases hix : int x with
          | error e => simpa using int_raisesOnly x e hix
          | ok a => simp only [ok_bind, int_comma hy, error_bind]
      · rfl

/-! ## The usual two-socket rendering -/

/-- Node 0 of a two-socket machine with SMT: its CPUs are `0..3` and `8..11`, and CPUs 0
and 1 are siblings. The files hold the kernel's renderings. -/
def twoSocketTree : Snapshot where
  listDir p := if p = nodePath then some ["node0"] else if p = cpuPath then some ["cpu0"] else none
  readFile p :=
    if p = nodePath ++ ["has_memory"] then some "0\n"
    else if p = nodePath ++ ["node0", "cpulist"] then some "0-3,8-11\n"
    else if p = nodePath ++ ["node0", "distance"] then some "10\n"
    else if p = cpuDir 0 ++ ["topology", "thread_siblings_list"] then some "0-1\n"
    else if p = cpuDir 0 ++ ["topology", "core_id"] then some "0\n"
    else if p = cpuDir 0 ++ ["topology", "physical_package_id"] then some "0\n"
    else none
  maxListLength := 2 ^ 30

/-- The kernel renders the CPUs `{0, ..., 3, 8, ..., 11}` as `0-3,8-11` and the pair
`{0, 1}` as `0-1`. The `cpulist` parse raises `ValueError` on the first, and so does
every comma-list parse on the second: `get_nodes_info` drops the node,
`_get_cpus_logical_ids` raises, `get_cpu_info` drops the CPU, and a `has_memory` of
`0-1` makes `get_nodes_info` raise. -/
theorem listFormat_twoSocket :
    renderIdList [0, 1, 2, 3, 8, 9, 10, 11] = "0-3,8-11".toList ∧
      renderIdList [0, 1] = "0-1".toList ∧
      nodeCpulist twoSocketTree "node0" = .error .valueError ∧
      getNodesInfo twoSocketTree = .ok [] ∧
      getCpusLogicalIds twoSocketTree 0 = .error .valueError ∧
      readCpu twoSocketTree "cpu0" 0 = .error .valueError ∧
      getCpuInfo twoSocketTree = .ok [] ∧
      intList "0-1\n".toList = .error .valueError :=
  ⟨rfl, rfl, rfl, rfl, rfl, rfl, rfl, rfl⟩

end TopologyPinning.Topology
