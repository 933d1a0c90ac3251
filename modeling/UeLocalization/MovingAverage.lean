import UeLocalization.Basic

/-!
# The 5-second moving average of `ue_localization_MA_v2.c`

The first program of `ue_localization_MA_v2.c` accumulates, per UE (20 at most), the sum
and number of its serving SINRs and, per neighbor cell (10 at most, in order of first
appearance), the sum and number of that cell's SINRs. `log_kpm_measurements` adds one
report's samples, and then, if the report's `collectStartTime` is 5 s past
`last_prediction_time` in `uint64_t` (`shouldProcess`), `process_and_send_averaged_data`
writes one line per UE with data and clears every buffer.

The test sits in `log_kpm_measurements`, which `sm_cb_kpm` runs once per UE report of an
indication: so processing happens at most once per indication, in the call of its first
well-formed report, and the other reports only accumulate (`indication_lines_first_report`). The line's
neighbor slots are the first three cells in order of first appearance, with their
averages (`neighborSlot`), not the three best.
-/

namespace UeLoc.MovingAvg

open F64 (num nan)

/-- `ue_buffer_t.neighbors[i]`: a neighbor cell with the sum and number of its SINRs. -/
structure NeighborAcc where
  neighCellID : Nat
  sinrSum : F64
  sinrCount : Nat
  deriving DecidableEq, Repr

/-- `ue_buffer_t` of the moving-average program; `neighbors` is
`neighbors[0..active_neighbors)`. -/
structure UeBuffer where
  ueID : Nat
  servingCellID : Nat
  servingSinrSum : F64
  servingSinrCount : Nat
  neighbors : List NeighborAcc
  hasData : Bool
  deriving DecidableEq, Repr

/-- A buffer as `get_or_create_ue_buffer` makes it: zeroed, with its UE id. -/
def UeBuffer.init (ueID : Nat) : UeBuffer := ⟨ueID, 0, num 0, 0, [], false⟩

/-- `ue_buffers` holds 20 UEs. -/
def maxUeBuffers : Nat := 20

/-- `neighbors` holds 10 cells. -/
def maxNeighbors : Nat := 10

/-- `get_or_create_ue_buffer`. -/
def getOrCreateUeBuffer (bufs : List UeBuffer) (ueID : Nat) : Option UeBuffer :=
  getOrCreate (·.ueID) maxUeBuffers UeBuffer.init bufs ueID

/-- `add_serving_sinr_to_buffer`. -/
def addServingSinrToBuffer (b : UeBuffer) (cellID : Nat) (sinr : F64) : UeBuffer :=
  { b with servingCellID := cellID, servingSinrSum := b.servingSinrSum.add sinr,
           servingSinrCount := b.servingSinrCount + 1, hasData := true }

/-- `add_neighbor_sinr_to_buffer` on the neighbor list: the cell's entry accumulates, or a
new entry while fewer than 10. -/
def addNeighborSinr (ns : List NeighborAcc) (neighCellID : Nat) (sinr : F64) :
    List NeighborAcc :=
  match findUe (·.neighCellID) ns neighCellID with
  | some a => setUe (·.neighCellID) neighCellID
      { a with sinrSum := a.sinrSum.add sinr, sinrCount := a.sinrCount + 1 } ns
  | none => if ns.length < maxNeighbors then ns ++ [⟨neighCellID, sinr, 1⟩] else ns

/-- `add_neighbor_sinr_to_buffer`. -/
def addNeighborSinrToBuffer (b : UeBuffer) (neighCellID : Nat) (sinr : F64) : UeBuffer :=
  { b with neighbors := addNeighborSinr b.neighbors neighCellID sinr }

/-- The line `process_and_send_averaged_data` writes for a UE. -/
structure AvgLine where
  timeMs : BitVec 64
  ueID : Nat
  servingCellID : Nat
  avgServingSinr : F64
  neighbors : List (Nat × F64)
  x : ℚ
  y : ℚ
  deriving DecidableEq, Repr

/-- Slot `n` of `neighbor_ids` / `neighbor_sinr`: the `n`-th neighbor entry and its
average, or `(0, 0.0)`. -/
def neighborSlot (ns : List NeighborAcc) (n : Nat) : Nat × F64 :=
  match ns[n]? with
  | some a => if 0 < a.sinrCount then (a.neighCellID, a.sinrSum.divNat a.sinrCount) else (0, num 0)
  | none => (0, num 0)

/-- The line of one UE at simulation time `t`, unless it has no serving data. -/
def avgLine (t : BitVec 64) (b : UeBuffer) : Option AvgLine :=
  if !b.hasData || b.servingSinrCount == 0 then none
  else some
    { timeMs := t / 1000
      ueID := b.ueID
      servingCellID := b.servingCellID
      avgServingSinr := b.servingSinrSum.divNat b.servingSinrCount
      neighbors := [neighborSlot b.neighbors 0, neighborSlot b.neighbors 1,
        neighborSlot b.neighbors 2]
      x := (cellXY cellPositions b.servingCellID).1
      y := (cellXY cellPositions b.servingCellID).2 }

/-- The reset loop of `process_and_send_averaged_data`. -/
def clearBuffer (b : UeBuffer) : UeBuffer :=
  { b with servingSinrSum := num 0, servingSinrCount := 0, neighbors := [], hasData := false }

/-- `process_and_send_averaged_data`: the buffers after, and the lines written. -/
def processAndSendAveragedData (bufs : List UeBuffer) (t : BitVec 64) :
    List UeBuffer × List AvgLine :=
  (bufs.map clearBuffer, bufs.filterMap (avgLine t))

/-- The program's state: `ue_buffers[0..num_active_ues)` and `last_prediction_time`. -/
structure State where
  ueBuffers : List UeBuffer
  lastPredictionTime : BitVec 64
  deriving DecidableEq, Repr

/-- The state at start-up. -/
def State.init : State := ⟨[], 0⟩

/-- `if (last_prediction_time == 0) last_prediction_time = simulation_timestamp;` -/
def startOf (last t : BitVec 64) : BitVec 64 := if last = 0 then t else last

/-- `(simulation_timestamp - last_prediction_time) >= PREDICTION_INTERVAL_US`, in
`uint64_t`. -/
def shouldProcess (last t : BitVec 64) : Bool := elapsedAtLeast 5000000 last t

/-- The first loop on one serving sample. -/
def addServing (bufs : List UeBuffer) (s : InfoObj × F64) : List UeBuffer :=
  updateUe (·.ueID) maxUeBuffers UeBuffer.init (addServingSinrToBuffer · s.1.cellID s.2)
    bufs s.1.ueID

/-- The second loop on one neighbor list. -/
def addNeighbors (bufs : List UeBuffer) (l : InfoObj × List (Nat × F64)) : List UeBuffer :=
  updateUe (·.ueID) maxUeBuffers UeBuffer.init
    (fun b => l.2.foldl (fun b pr => addNeighborSinrToBuffer b pr.1 pr.2) b) bufs l.1.ueID

/-- `log_kpm_measurements` of the moving-average program. -/
def logKpmMeasurements (s : State) (msg : IndMsgFormat1) (t : BitVec 64) :
    State × List AvgLine :=
  if msg.lenOk then
    let last := startOf s.lastPredictionTime t
    let bufs := (neighLists msg).foldl addNeighbors
      ((servingSamples msg).foldl addServing s.ueBuffers)
    if shouldProcess last t then
      (⟨(processAndSendAveragedData bufs t).1, t⟩, (processAndSendAveragedData bufs t).2)
    else (⟨bufs, last⟩, [])
  else (s, [])

/-- `sm_cb_kpm`: the UE reports of an indication in turn, all at `collectStartTime`. -/
def smCbKpm (s : State) (collectStartTime : BitVec 64) :
    List IndMsgFormat1 → State × List AvgLine
  | [] => (s, [])
  | r :: rs =>
    ((smCbKpm (logKpmMeasurements s r collectStartTime).1 collectStartTime rs).1,
      (logKpmMeasurements s r collectStartTime).2 ++
        (smCbKpm (logKpmMeasurements s r collectStartTime).1 collectStartTime rs).2)

/-- Successive indications, each a `collectStartTime` and its UE reports. -/
def indicationRun (s : State) : List (BitVec 64 × List IndMsgFormat1) → State × List AvgLine
  | [] => (s, [])
  | (t, rs) :: inds =>
    ((indicationRun (smCbKpm s t rs).1 inds).1,
      (smCbKpm s t rs).2 ++ (indicationRun (smCbKpm s t rs).1 inds).2)

/-! ## When processing runs -/

/-- A state in which a call at `t` neither moves the start nor processes. -/
def Quiet (s : State) (t : BitVec 64) : Prop :=
  startOf s.lastPredictionTime t = s.lastPredictionTime ∧
    shouldProcess s.lastPredictionTime t = false

theorem startOf_startOf (last t : BitVec 64) : startOf (startOf last t) t = startOf last t := by
  unfold startOf; split <;> simp_all

/-- A well-formed report's call at `t` leaves a state quiet at `t`. -/
theorem quiet_logKpmMeasurements (s : State) {msg : IndMsgFormat1} (hm : msg.lenOk = true)
    (t : BitVec 64) : Quiet (logKpmMeasurements s msg t).1 t := by
  simp only [logKpmMeasurements, hm, if_true]
  split
  · exact ⟨by simp [startOf], elapsedAtLeast_self (by decide) (by decide) t⟩
  · rename_i h
    exact ⟨startOf_startOf _ _, by simpa using h⟩

/-- In a quiet state a call writes nothing and leaves the state quiet. -/
theorem logKpmMeasurements_of_quiet {s : State} {t : BitVec 64} (hq : Quiet s t)
    (msg : IndMsgFormat1) :
    (logKpmMeasurements s msg t).2 = [] ∧ Quiet (logKpmMeasurements s msg t).1 t := by
  unfold logKpmMeasurements
  split
  · rename_i hm
    simp only [hq.1, hq.2, Bool.false_eq_true, if_false]
    exact ⟨trivial, hq⟩
  · exact ⟨rfl, hq⟩

theorem smCbKpm_of_quiet {s : State} {t : BitVec 64} (hq : Quiet s t)
    (rs : List IndMsgFormat1) : (smCbKpm s t rs).2 = [] := by
  induction rs generalizing s with
  | nil => rfl
  | cons r rs ih =>
    obtain ⟨h1, h2⟩ := logKpmMeasurements_of_quiet hq r
    simp [smCbKpm, h1, ih h2]

/-- The state after UE 1's serving SINR at 1 s. -/
def afterUeOne : State := (smCbKpm State.init 1000000 [IndMsgFormat1.ofSamples 1 2 10 []]).1

/-- An indication whose first report is well formed writes exactly the lines of the call for
that report: the other reports write nothing, whatever their order. -/
theorem indication_lines_first_report (s : State) (t : BitVec 64) {r : IndMsgFormat1}
    (hr : r.lenOk = true) {rs rs' : List IndMsgFormat1} (hp : rs.Perm rs') :
    (smCbKpm s t (r :: rs)).2 = (logKpmMeasurements s r t).2 ∧
      (smCbKpm s t (r :: rs)).2 = (smCbKpm s t (r :: rs')).2 := by
  have h := fun rs => smCbKpm_of_quiet (quiet_logKpmMeasurements s hr t) rs
  have hp' := hp.length_eq
  simp [smCbKpm, h]

/-- UE 1's serving SINR at 1 s, then at 6 s an indication of UEs 2, 3 and 4: the lines are
those of UE 2's call, which processes UE 1's and UE 2's samples, in either order of the
later two. -/
theorem indication_lines_first_report_two :
    (IndMsgFormat1.ofSamples 2 3 20 []).lenOk = true ∧
    [IndMsgFormat1.ofSamples 3 4 30 [], IndMsgFormat1.ofSamples 4 5 40 []].Perm
      [IndMsgFormat1.ofSamples 4 5 40 [], IndMsgFormat1.ofSamples 3 4 30 []] ∧
    (smCbKpm afterUeOne 6000000 [IndMsgFormat1.ofSamples 2 3 20 [],
        IndMsgFormat1.ofSamples 3 4 30 [], IndMsgFormat1.ofSamples 4 5 40 []]).2 =
      (logKpmMeasurements afterUeOne (IndMsgFormat1.ofSamples 2 3 20 []) 6000000).2 ∧
    (smCbKpm afterUeOne 6000000 [IndMsgFormat1.ofSamples 2 3 20 [],
        IndMsgFormat1.ofSamples 3 4 30 [], IndMsgFormat1.ofSamples 4 5 40 []]).2 =
      (smCbKpm afterUeOne 6000000 [IndMsgFormat1.ofSamples 2 3 20 [],
        IndMsgFormat1.ofSamples 4 5 40 [], IndMsgFormat1.ofSamples 3 4 30 []]).2 :=
  have hr : (IndMsgFormat1.ofSamples 2 3 20 []).lenOk = true := rfl
  have hp : [IndMsgFormat1.ofSamples 3 4 30 [], IndMsgFormat1.ofSamples 4 5 40 []].Perm
      [IndMsgFormat1.ofSamples 4 5 40 [], IndMsgFormat1.ofSamples 3 4 30 []] :=
    List.Perm.swap _ _ _
  ⟨hr, hp, indication_lines_first_report afterUeOne 6000000 hr hp⟩

/-- UE 1's serving SINR at 1 s; at 6 s an indication with a report of UE 2 and one of UE 3.
Processed in that order the lines are UE 1's and UE 2's; in the other, UE 1's and UE 3's. -/
theorem indication_order_changes_lines :
    ¬ (smCbKpm afterUeOne 6000000
        [IndMsgFormat1.ofSamples 2 3 20 [], IndMsgFormat1.ofSamples 3 4 30 []]).2.Perm
      (smCbKpm afterUeOne 6000000
        [IndMsgFormat1.ofSamples 3 4 30 [], IndMsgFormat1.ofSamples 2 3 20 []]).2 := by
  intro h
  have h₁ : (smCbKpm afterUeOne 6000000 [IndMsgFormat1.ofSamples 2 3 20 [],
      IndMsgFormat1.ofSamples 3 4 30 []]).2.map (·.ueID) = [1, 2] := by decide
  have h₂ : (smCbKpm afterUeOne 6000000 [IndMsgFormat1.ofSamples 3 4 30 [],
      IndMsgFormat1.ofSamples 2 3 20 []]).2.map (·.ueID) = [1, 3] := by decide
  have hp := h.map (·.ueID)
  rw [h₁, h₂] at hp
  exact absurd (hp.mem_iff.mpr (List.mem_cons_of_mem 1 (List.mem_singleton_self 3))) (by decide)

/-! ## The neighbor slots -/

/-- UE 1 reports cells 3, 4, 5, 6 with SINRs 1, 2, 3, 4 at 1 s; at 6 s a report of one
item of another name triggers processing, and UE 1's line names cells 3, 4, 5, the first
three to appear, not 6, 5, 4, the three best. -/
theorem neighbor_slots_first_appearance :
    (smCbKpm State.init 1000000
      [IndMsgFormat1.ofSamples 1 2 10 [(1, 3), (2, 4), (3, 5), (4, 6)]]).1.ueBuffers.map
        (·.neighbors) = [[⟨3, num 1, 1⟩, ⟨4, num 2, 1⟩, ⟨5, num 3, 1⟩, ⟨6, num 4, 1⟩]] ∧
      (smCbKpm (smCbKpm State.init 1000000
        [IndMsgFormat1.ofSamples 1 2 10 [(1, 3), (2, 4), (3, 5), (4, 6)]]).1 6000000
          [⟨[.name .other], [[.real (num 1)]]⟩]).2.map (fun l => l.neighbors.map (·.1)) =
        [[3, 4, 5]] := by
  decide

end UeLoc.MovingAvg
