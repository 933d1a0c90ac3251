import UeLocalization.Measurements

/-!
# The one-line monitor of `kpm_monitor_xapp_v2.c`

`sm_cb_kpm` runs `log_kpm_measurements` on each UE report of an indication, which collects
into the static `measurements` array as `ue_localization_MA.c` does (`collectMeasurements`),
and then `output_sinr_data_oneline` prints one line per measurement and empties the array:
every indication starts from none (`collectIndication`). A line's three neighbor fields are
`neighbors[0..3)` after `qsort` with `compare_neighbors_by_sinr`, `0.0` past the end
(`sortedNeighborSinr`).

* `oneline_top_three`: when no collected neighbor SINR is NaN, the fields are the three
  largest of all the measurement's collected entries, whatever `qsort` does with ties;
* `oneline_keeps_serving_and_nan`: no entry is left out, neither one of the serving cell
  itself nor one whose SINR is NaN, which a lone neighbor prints as `nan`.
-/

namespace UeLoc.Monitor.V2

open F64 (num nan)

/-- One line of `output_sinr_data_oneline`: timestamp, UE, serving cell and SINR, the three
neighbor SINRs, and the serving cell's coordinates (`0.0` without a position). -/
structure OnelineRow where
  timestamp : BitVec 64
  ueID : Nat
  servingCellID : Nat
  servingSINR : F64
  neighborSINR : List F64
  x : ℚ
  y : ℚ

section Monitor

variable (qsort : List (Nat × F64) → List (Nat × F64))

/-- The loop body of `output_sinr_data_oneline` on one measurement. -/
def onelineRow (m : SinrMeasurement) : OnelineRow :=
  { timestamp := m.timestamp
    ueID := m.ueID
    servingCellID := m.servingCellID
    servingSINR := m.servingSINR
    neighborSINR := (List.range 3).map (sortedNeighborSinr qsort m.neighbors)
    x := (m.servingPos.map (·.x)).getD 0
    y := (m.servingPos.map (·.y)).getD 0 }

/-- `output_sinr_data_oneline`: a line per measurement; `num_measurements = 0` after. -/
def outputSinrDataOneline (ms : List SinrMeasurement) : List OnelineRow :=
  ms.map (onelineRow qsort)

/-- The measurements the `log_kpm_measurements` calls of one indication collect, from the
array `output_sinr_data_oneline` left empty. -/
def collectIndication (reports : List IndMsgFormat1) (collectStartTime : BitVec 64) :
    List SinrMeasurement :=
  reports.foldl (fun ms r => collectMeasurements ms r collectStartTime) []

/-- `sm_cb_kpm`: the lines of one indication. -/
def smCbKpm (reports : List IndMsgFormat1) (collectStartTime : BitVec 64) : List OnelineRow :=
  outputSinrDataOneline qsort (collectIndication reports collectStartTime)

end Monitor

/-- The three values a line would show if it listed the three largest SINRs of `ns`. -/
def topThree (ns : List (Nat × F64)) : List F64 :=
  (List.range 3).map fun j => num (kthLargest (ns.map (·.2.val)) j)

theorem onelineRow_neighborSINR {qsort : List (Nat × F64) → List (Nat × F64)}
    (hq : QsortSpec qsort) {m : SinrMeasurement} (hn : NanFree m.neighbors) :
    (onelineRow qsort m).neighborSINR = topThree m.neighbors :=
  List.map_congr_left fun j _ => sortedNeighborSinr_eq hq hn j

/-- Over every indication whose collected neighbor SINRs are not NaN, under any `qsort`
meeting the C standard's contract, each line's neighbor fields are the three largest SINRs
of all its measurement's collected entries, padded with `0.0`. -/
theorem oneline_top_three {qsort : List (Nat × F64) → List (Nat × F64)} (hq : QsortSpec qsort)
    (reports : List IndMsgFormat1) (collectStartTime : BitVec 64)
    (hn : ∀ m ∈ collectIndication reports collectStartTime, NanFree m.neighbors) :
    (smCbKpm qsort reports collectStartTime).map (·.neighborSINR) =
      (collectIndication reports collectStartTime).map (topThree ·.neighbors) := by
  simp only [smCbKpm, outputSinrDataOneline, List.map_map]
  exact List.map_congr_left fun m hm => onelineRow_neighborSINR hq (hn m hm)

/-- UE 1 in cell 2 reports neighbors of SINR 20 in cell 2 and 5 in cell 3; its line shows
`20, 5, 0.0`, with insertion sort as `qsort`. -/
theorem oneline_top_three_serving_entry :
    (smCbKpm qsortModel [IndMsgFormat1.ofSamples 1 2 10 [(20, 2), (5, 3)]] 0).map
        (·.neighborSINR) = [[num 20, num 5, num 0]] := by
  rw [oneline_top_three qsortModel_spec _ _ (by decide)]
  decide

/-- An indication of UE 1 (cell 2, neighbors of SINR 20 in cell 2 and 5 in cell 3) and UE 2
(cell 3, one neighbor of NaN SINR): under any `qsort` meeting the contract, UE 1's line
ranks the entry of its own serving cell first, and UE 2's prints the NaN. -/
theorem oneline_keeps_serving_and_nan {qsort : List (Nat × F64) → List (Nat × F64)}
    (hq : QsortSpec qsort) :
    (smCbKpm qsort [IndMsgFormat1.ofSamples 1 2 10 [(20, 2), (5, 3)], nanNeighborReport] 0).map
        (·.neighborSINR) = [[num 20, num 5, num 0], [nan, num 0, num 0]] := by
  have hc : collectIndication [IndMsgFormat1.ofSamples 1 2 10 [(20, 2), (5, 3)],
      nanNeighborReport] 0 =
      [⟨0, 1, 2, num 10, getCellPosition cellPositions 2, [(2, num 20), (3, num 5)]⟩,
       ⟨0, 2, 3, num 8, getCellPosition cellPositions 3, [(4, nan)]⟩] :=
    rfl
  simp only [smCbKpm, outputSinrDataOneline, hc, List.map_cons, List.map_nil]
  -- UE 2's one entry is not sorted and its NaN printed as it is (`congr` closes it by `rfl`);
  -- UE 1's two are sorted by any `qsort`, the serving cell's own entry included
  congr 1
  exact (onelineRow_neighborSINR hq (by decide)).trans (by decide)

/-- The same indication with insertion sort as `qsort`. -/
theorem oneline_keeps_serving_and_nan_insertion :
    (smCbKpm qsortModel [IndMsgFormat1.ofSamples 1 2 10 [(20, 2), (5, 3)], nanNeighborReport]
        0).map (·.neighborSINR) = [[num 20, num 5, num 0], [nan, num 0, num 0]] :=
  oneline_keeps_serving_and_nan qsortModel_spec

end UeLoc.Monitor.V2
