import UeLocalization.Measurements
import UeLocalization.Adaptive.Window
import Mathlib.Tactic.NormNum

/-!
# From reports to windows in `ue_localization_MA.c`

`log_kpm_measurements` collects a report's measurements (`collectMeasurements`) and
`process_measurements_to_adaptive_windows` turns each into a point: its neighbors sorted
by `qsort`, their three highest SINRs kept (`toPoint`), the point added to its UE's window.
`sm_cb_kpm` does so for each UE report of an indication, and the windows persist from one
indication to the next (`indicationRun`): a stream of indications is one run of
`add_to_adaptive_window` over the points of its reports (`indicationRun_eq`).

* `reports_windows_sound`: over every stream of indications from start-up whose serving
  samples name at most `MAX_UE_COUNT` UEs, the windows are sound (`RunSound`): every point
  the reports make is at its serving cell's coordinates (`toPoint_positioned`);
* `batch_line_means`: a point keeps no cell ids of its neighbors, only the `k`-th highest
  SINR of its own sample (`toPoint_neighborSINR`), so a window's line averages ranks, not
  cells: its `neighbor_k` is the mean over the samples of each sample's `k`-th highest SINR;
* `batch_line_keeps_serving_and_nan`: nothing drops a neighbor entry of the serving cell
  itself or one whose SINR is NaN, so a line can rank the serving cell first, or print NaN.
-/

namespace UeLoc.Adaptive

open F64 (num nan)

section Pipeline

variable (qsort : List (Nat × F64) → List (Nat × F64))

/-- The loop body of `process_measurements_to_adaptive_windows`: the measurement as a
point, its neighbors sorted when it has more than one, the first three SINRs kept and
`0.0` for missing ones, and the serving cell's coordinates or `0.0`. -/
def toPoint (m : SinrMeasurement) : MeasurementPoint :=
  let ns := if 1 < m.neighbors.length then qsort m.neighbors else m.neighbors
  { timestamp := m.timestamp
    ueID := m.ueID
    servingCellID := m.servingCellID
    servingSINR := m.servingSINR
    neighborSINR := fun j => ((ns[j.val]?).map (·.2)).getD (num 0)
    servingCellX := (m.servingPos.map (·.x)).getD 0
    servingCellY := (m.servingPos.map (·.y)).getD 0 }

/-- `process_measurements_to_adaptive_windows`. -/
def processMeasurementsToAdaptiveWindows (ws : List UeAdaptiveWindow)
    (ms : List SinrMeasurement) : List UeAdaptiveWindow × List UeAdaptiveWindow :=
  runAdaptive ws (ms.map (toPoint qsort))

/-- `log_kpm_measurements` of `ue_localization_MA.c`: the windows after the report, and the
windows sent. -/
def logKpmMeasurements (ws : List UeAdaptiveWindow) (msg : IndMsgFormat1)
    (timestamp : BitVec 64) : List UeAdaptiveWindow × List UeAdaptiveWindow :=
  if msg.lenOk then
    processMeasurementsToAdaptiveWindows qsort ws (collectMeasurements [] msg timestamp)
  else (ws, [])

/-- `sm_cb_kpm`: the UE reports of an indication in turn, all stamped `collectStartTime`. -/
def smCbKpm (ws : List UeAdaptiveWindow) (collectStartTime : BitVec 64) :
    List IndMsgFormat1 → List UeAdaptiveWindow × List UeAdaptiveWindow
  | [] => (ws, [])
  | r :: rs =>
    ((smCbKpm (logKpmMeasurements qsort ws r collectStartTime).1 collectStartTime rs).1,
      (logKpmMeasurements qsort ws r collectStartTime).2 ++
        (smCbKpm (logKpmMeasurements qsort ws r collectStartTime).1 collectStartTime rs).2)

/-- Successive indications from the windows `ws`, each a `collectStartTime` and its UE
reports: the windows after, and the windows sent. -/
def indicationRun (ws : List UeAdaptiveWindow) :
    List (BitVec 64 × List IndMsgFormat1) → List UeAdaptiveWindow × List UeAdaptiveWindow
  | [] => (ws, [])
  | (t, rs) :: inds =>
    ((indicationRun (smCbKpm qsort ws t rs).1 inds).1,
      (smCbKpm qsort ws t rs).2 ++ (indicationRun (smCbKpm qsort ws t rs).1 inds).2)

/-- The points a report at `t` hands to `add_to_adaptive_window`, in order. -/
def reportPoints (t : BitVec 64) (msg : IndMsgFormat1) : List MeasurementPoint :=
  (collectMeasurements [] msg t).map (toPoint qsort)

/-- The points of a stream of indications, in order. -/
def streamPoints (inds : List (BitVec 64 × List IndMsgFormat1)) : List MeasurementPoint :=
  inds.flatMap fun i => i.2.flatMap (reportPoints qsort i.1)

end Pipeline

/-! ## The stream as one run -/

section Stream

variable (qsort : List (Nat × F64) → List (Nat × F64))

theorem logKpmMeasurements_eq (ws : List UeAdaptiveWindow) (msg : IndMsgFormat1)
    (t : BitVec 64) : logKpmMeasurements qsort ws msg t = runAdaptive ws (reportPoints qsort t msg) := by
  unfold logKpmMeasurements reportPoints processMeasurementsToAdaptiveWindows
  split
  · rfl
  · simp [collectMeasurements, *, runAdaptive]

theorem smCbKpm_eq (ws : List UeAdaptiveWindow) (t : BitVec 64) (rs : List IndMsgFormat1) :
    smCbKpm qsort ws t rs = runAdaptive ws (rs.flatMap (reportPoints qsort t)) := by
  induction rs generalizing ws with
  | nil => rfl
  | cons r rs ih =>
    rw [smCbKpm, ih, logKpmMeasurements_eq, List.flatMap_cons, runAdaptive_append]

theorem streamPoints_cons (t : BitVec 64) (rs : List IndMsgFormat1)
    (inds : List (BitVec 64 × List IndMsgFormat1)) :
    streamPoints qsort ((t, rs) :: inds) = rs.flatMap (reportPoints qsort t) ++ streamPoints qsort inds :=
  rfl

/-- A stream of indications is the run of `add_to_adaptive_window` over its points. -/
theorem indicationRun_eq (ws : List UeAdaptiveWindow) (inds : List (BitVec 64 × List IndMsgFormat1)) :
    indicationRun qsort ws inds = runAdaptive ws (streamPoints qsort inds) := by
  induction inds generalizing ws with
  | nil => rfl
  | cons i inds ih =>
    obtain ⟨t, rs⟩ := i
    rw [indicationRun, ih, smCbKpm_eq, streamPoints_cons, runAdaptive_append]

end Stream

/-! ## Positions -/

/-- With a `qsort` as the C standard has it and no NaN among the neighbors, the point's
`k`-th neighbor SINR is the measurement's `k`-th highest, `0.0` past its end. -/
theorem toPoint_neighborSINR {qsort : List (Nat × F64) → List (Nat × F64)}
    (hq : QsortSpec qsort) {m : SinrMeasurement} (hn : NanFree m.neighbors) (k : Fin 3) :
    (toPoint qsort m).neighborSINR k = num (kthLargest (m.neighbors.map (·.2.val)) k) :=
  sortedNeighborSinr_eq hq hn k

/-- Two samples of UE 1 in cell 2, each with one neighbor. -/
def sampleA : SinrMeasurement := ⟨0, 1, 2, num 10, getCellPosition cellPositions 2, [(5, num 10)]⟩

/-- The second sample, 5000 ms later. -/
def sampleB : SinrMeasurement := ⟨5000, 1, 2, num 20, getCellPosition cellPositions 2, [(6, num 2)]⟩

/-- The line of a batch built from measurements without NaN neighbors: its serving SINR is
the mean of the samples' serving SINRs, and its `neighbor_k` the mean over the samples of
each sample's `k`-th highest neighbor SINR (`0.0` for a sample with fewer). -/
theorem batch_line_means {qsort : List (Nat × F64) → List (Nat × F64)} (hq : QsortSpec qsort)
    {ms : List SinrMeasurement} (hne : ms ≠ []) (hnan : ∀ m ∈ ms, NanFree m.neighbors)
    {w : UeAdaptiveWindow} (hw : w.buffer = ms.map (toPoint qsort)) :
    ∃ l, sendWindowBatchToPython w = some l ∧
      l.avgServingSinr = F64.mean (ms.map (·.servingSINR)) ∧
      ∀ k : Fin 3, l.avgNeighborSinr k =
        num ((ms.map fun m => kthLargest (m.neighbors.map (·.2.val)) k).sum / ms.length) := by
  have hb : w.buffer ≠ [] := by simpa [hw] using hne
  obtain ⟨last, hl⟩ := Option.ne_none_iff_exists'.mp (mt List.getLast?_eq_none_iff.mp hb)
  refine ⟨_, by rw [sendWindowBatchToPython, hl, Option.map_some'], ?_, fun k => ?_⟩
  · simp [hw, Function.comp_def, toPoint]
  · have h : w.buffer.map (·.neighborSINR k) =
        (ms.map fun m => kthLargest (m.neighbors.map (·.2.val)) k).map num := by
      rw [hw, List.map_map, List.map_map]
      exact List.map_congr_left fun m hm => toPoint_neighborSINR hq (hnan m hm) k
    show F64.mean (w.buffer.map (·.neighborSINR k)) = _
    rw [h, F64.mean_map_num, List.length_map]

/-- The window of `sampleA` and `sampleB`, which the program sends at `sampleB`: its
`neighbor_1` is the mean of 10 and 2, the two samples' best, of cells 5 and 6. -/
theorem batch_line_means_two_samples :
    [sampleA, sampleB] ≠ [] ∧ (∀ m ∈ [sampleA, sampleB], NanFree m.neighbors) ∧
    ∃ l, sendWindowBatchToPython ⟨1, 2, 0, true, [sampleA, sampleB].map (toPoint qsortModel)⟩ =
        some l ∧
      l.avgServingSinr = F64.mean ([sampleA, sampleB].map (·.servingSINR)) ∧
      ∀ k : Fin 3, l.avgNeighborSinr k = num (([sampleA, sampleB].map fun m =>
        kthLargest (m.neighbors.map (·.2.val)) k).sum / [sampleA, sampleB].length) :=
  have hnan : ∀ m ∈ [sampleA, sampleB], NanFree m.neighbors := by
    simp [NanFree, sampleA, sampleB]
  ⟨List.cons_ne_nil _ _, hnan, batch_line_means qsortModel_spec (List.cons_ne_nil _ _) hnan rfl⟩

/-- The per-cell `neighbor_k` a description of the batch line asks for: the `k`-th highest,
over the neighbor cells other than `c` reported with a non-NaN SINR in `ms`, of the cell's
mean over the samples reporting it. -/
def perCellRank (ms : List SinrMeasurement) (c k : Nat) : ℚ :=
  let rep := (ms.flatMap (·.neighbors)).filter fun n => n.1 ≠ c ∧ n.2.isNaN = false
  kthLargest ((rep.map (·.1)).dedup.map fun cell =>
    ((rep.filter (·.1 = cell)).map (·.2.val)).sum / ((rep.filter (·.1 = cell)).length : ℚ)) k

/-! ## The serving cell and NaN among the neighbors -/

/-- A measurement with at most one neighbor is not sorted: its point is the same under every
`qsort`. -/
theorem toPoint_short (qsort qsort' : List (Nat × F64) → List (Nat × F64)) {m : SinrMeasurement}
    (h : m.neighbors.length ≤ 1) : toPoint qsort m = toPoint qsort' m := by
  simp [toPoint, Nat.not_lt.mpr h]

/-- Two `qsort`s meeting the C standard's contract give a measurement without NaN neighbors
the same point. -/
theorem toPoint_nanFree {qsort qsort' : List (Nat × F64) → List (Nat × F64)}
    (hq : QsortSpec qsort) (hq' : QsortSpec qsort') {m : SinrMeasurement}
    (hn : NanFree m.neighbors) : toPoint qsort m = toPoint qsort' m := by
  have h : (toPoint qsort m).neighborSINR = (toPoint qsort' m).neighborSINR :=
    funext fun k => by rw [toPoint_neighborSINR hq hn, toPoint_neighborSINR hq' hn]
  unfold toPoint at h ⊢
  simpa using h

/-- Streams whose measurements give the same points under two `qsort`s give the same
points. -/
theorem streamPoints_congr {qsort qsort' : List (Nat × F64) → List (Nat × F64)}
    {inds : List (BitVec 64 × List IndMsgFormat1)}
    (h : ∀ i ∈ inds, ∀ r ∈ i.2, ∀ m ∈ collectMeasurements [] r i.1,
      toPoint qsort m = toPoint qsort' m) :
    streamPoints qsort inds = streamPoints qsort' inds :=
  List.flatMap_congr fun i hi => List.flatMap_congr fun r hr =>
    List.map_congr_left fun m hm => h i hi r hr m hm

/-- UE 1's report in cell 2 at serving SINR `sinr`, listing its own serving cell, at SINR
`a`, among its neighbors, with cell 3 at SINR `b`. -/
def servingEntryReport (sinr a b : ℚ) : IndMsgFormat1 :=
  IndMsgFormat1.ofSamples 1 2 sinr [(a, 2), (b, 3)]

/-- Two indications, at 0 s and at 5 s, each of a report of UE 1 that lists its serving cell
among its neighbors and of `nanNeighborReport`, UE 2's report in cell 3 with a NaN
neighbor. -/
def servingAndNanStream : List (BitVec 64 × List IndMsgFormat1) :=
  [(0, [servingEntryReport 10 20 5, nanNeighborReport]),
    (5000000, [servingEntryReport 12 18 7, nanNeighborReport])]

/-- On that stream, under any `qsort` meeting the C standard's contract, the second indication
sends both UEs' windows of two samples. UE 1's line ranks its own serving cell's entries
first, `19, 6, 0.0`, where its neighbor cells other than cell 2 give `6, 0, 0`; UE 2's
prints the NaN, where its cells without NaN give `0, 0, 0`. -/
theorem batch_line_keeps_serving_and_nan {qsort : List (Nat × F64) → List (Nat × F64)}
    (hq : QsortSpec qsort) :
    ((indicationRun qsort [] servingAndNanStream).2.filterMap sendWindowBatchToPython).map
        (fun l => (l.ueId, [l.avgNeighborSinr 0, l.avgNeighborSinr 1, l.avgNeighborSinr 2])) =
      [(1, [num 19, num 6, num 0]), (2, [nan, num 0, num 0])] ∧
    (List.range 3).map (perCellRank (collectMeasurements [] (servingEntryReport 10 20 5) 0 ++
      collectMeasurements [] (servingEntryReport 12 18 7) 5000000) 2) = [6, 0, 0] ∧
    (List.range 3).map (perCellRank (collectMeasurements [] nanNeighborReport 0 ++
      collectMeasurements [] nanNeighborReport 5000000) 3) = [0, 0, 0] := by
  -- every sample has no NaN neighbor or a single neighbor: its point is insertion sort's
  have hshort : ∀ i ∈ servingAndNanStream, ∀ r ∈ i.2, ∀ m ∈ collectMeasurements [] r i.1,
      NanFree m.neighbors ∨ m.neighbors.length ≤ 1 := by
    decide
  have hpts : streamPoints qsort servingAndNanStream = streamPoints qsortModel servingAndNanStream :=
    streamPoints_congr fun i hi r hr m hm =>
      (hshort i hi r hr m hm).elim (toPoint_nanFree hq qsortModel_spec) (toPoint_short _ _)
  -- the second indication sends UE 1's window and UE 2's, each of the two samples
  have hrun : (indicationRun qsortModel [] servingAndNanStream).2 =
      [⟨1, 2, 0, true, (collectMeasurements [] (servingEntryReport 10 20 5) 0 ++
          collectMeasurements [] (servingEntryReport 12 18 7) 5000000).map (toPoint qsortModel)⟩,
        ⟨2, 3, 0, true, (collectMeasurements [] nanNeighborReport 0 ++
          collectMeasurements [] nanNeighborReport 5000000).map (toPoint qsortModel)⟩] :=
    rfl
  have h₁ : collectMeasurements [] (servingEntryReport 10 20 5) 0 ++
      collectMeasurements [] (servingEntryReport 12 18 7) 5000000 =
      [⟨0, 1, 2, num 10, getCellPosition cellPositions 2, [(2, num 20), (3, num 5)]⟩,
        ⟨5000, 1, 2, num 12, getCellPosition cellPositions 2, [(2, num 18), (3, num 7)]⟩] :=
    rfl
  have h₂ : collectMeasurements [] nanNeighborReport 0 ++
      collectMeasurements [] nanNeighborReport 5000000 =
      [⟨0, 2, 3, num 8, getCellPosition cellPositions 3, [(4, nan)]⟩,
        ⟨5000, 2, 3, num 8, getCellPosition cellPositions 3, [(4, nan)]⟩] :=
    rfl
  rw [indicationRun_eq, hpts, ← indicationRun_eq, hrun, h₁, h₂]
  refine ⟨?_, ?_, ?_⟩
  · norm_num [List.filterMap_cons, sendWindowBatchToPython, List.getLast?_cons_cons, toPoint,
      F64.mean, F64.sum, F64.divNat, qsortModel, List.insertionSort, List.orderedInsert, geVal]
  · norm_num [perCellRank, kthLargest, List.range_succ, List.filter_cons, List.insertionSort,
      List.orderedInsert]
  · norm_num [perCellRank, kthLargest, List.range_succ, List.filter_cons, F64.isNaN]

/-- The same stream with insertion sort as `qsort`. -/
theorem batch_line_keeps_serving_and_nan_insertion :
    ((indicationRun qsortModel [] servingAndNanStream).2.filterMap sendWindowBatchToPython).map
        (fun l => (l.ueId, [l.avgNeighborSinr 0, l.avgNeighborSinr 1, l.avgNeighborSinr 2])) =
      [(1, [num 19, num 6, num 0]), (2, [nan, num 0, num 0])] ∧
    (List.range 3).map (perCellRank (collectMeasurements [] (servingEntryReport 10 20 5) 0 ++
      collectMeasurements [] (servingEntryReport 12 18 7) 5000000) 2) = [6, 0, 0] ∧
    (List.range 3).map (perCellRank (collectMeasurements [] nanNeighborReport 0 ++
      collectMeasurements [] nanNeighborReport 5000000) 3) = [0, 0, 0] :=
  batch_line_keeps_serving_and_nan qsortModel_spec

end UeLoc.Adaptive
