import UeLocalization.Basic

/-!
# The SINR monitor of `src/unnamed/part_000`

The SINR monitor prints the SINRs of each UE report. Its `log_kpm_measurements` walks the
`meas_record_lst` of each item whose type is a name (`itemBody`) with its own index `j`
(`recordLoop`), reading the name on every record. A valid serving name prints each record that is real or an integer. A valid neighbor
name takes `meas_record_lst[j]` and `meas_record_lst[j + 1]` as a `(SINR, neighbor id)` pair
and moves on by two, but only when `j + 1 < meas_record_len`. Otherwise `j` moves on by one.
The state logs, as a ghost, every read of `meas_record_lst` (`SinrState.reads`).

* `recordLoop_log`, `sinr_monitor_lines`: the walk prints the lines of `itemLines`: one per
  real or integer record of a valid serving name, one per pair of a valid neighbor name that
  has a real SINR and an integer id, which are the pairs the localization programs collect
  (`neighPairs_eq_idPairs`), and nothing for another name;
* `sinr_monitor_neighbors_agree`: so on a well-formed report its neighbor lines are, ids cast to
  `uint16_t`, the pairs of `neighLists`, which every localization program collects;
* `sinr_monitor_reads_in_bounds`: every read is below `meas_record_len`, unlike in
  `kpm_monitor_xapp_v1.c` (`UeLoc.Monitor.V1`).
-/

namespace UeLoc.Monitor.Sinr

/-- A line `log_kpm_measurements` prints. -/
inductive SinrLine where
  /-- `SERVING SINR - Cell:%d UE:%d = %.2f dB`. -/
  | serving (cellID ueID : Nat) (sinr : F64)
  /-- `ENCODED SERVING SINR - Cell:%d UE:%d = %d`. -/
  | encodedServing (cellID ueID : Nat) (value : Nat)
  /-- `NEIGHBOR SINR - UE:%d Serving:%d Neighbor:%d = %.2f dB`. -/
  | neighbor (ueID servingCellID neighborID : Nat) (sinr : F64)
  deriving DecidableEq, Repr

/-- The lines printed, and, as a ghost, each read of `meas_record_lst[k]` of item `i` as
`(i, k)`. -/
structure SinrState where
  log : List SinrLine
  reads : List (Nat × Nat)

/-- A read of `meas_record_lst[k]` of item `i`. -/
def SinrState.read (s : SinrState) (i k : Nat) : SinrState :=
  { s with reads := s.reads ++ [(i, k)] }

/-- A line printed by `log_both`. -/
def SinrState.print (s : SinrState) (l : SinrLine) : SinrState := { s with log := s.log ++ [l] }

/-- The serving branch on `record_item`: a real value prints its SINR, an integer its encoded
value. -/
def servingLine (info : InfoObj) : MeasRecord → Option SinrLine
  | .real x => some (.serving info.cellID info.ueID x)
  | .integer v => some (.encodedServing info.cellID info.ueID v)
  | .noValue => none

/-- The neighbor branch's pair: a real `sinr` and an integer `neighID` print a line. -/
def neighborLine (info : InfoObj) : MeasRecord → MeasRecord → Option SinrLine
  | .real x, .integer v => some (.neighbor info.ueID info.cellID v x)
  | _, _ => none

/-- `s` with the line `l`, if any, printed. -/
def SinrState.printOpt (s : SinrState) : Option SinrLine → SinrState
  | some l => s.print l
  | none => s

/-- The inner loop `for (j = ...; j < meas_record_len;)` of item `i` of type `t` with records
`d`, from `j`: `record_item = meas_record_lst[j]` is read, then a valid neighbor name with
`j + 1 < meas_record_len` reads `meas_record_lst[j + 1]` and moves on by two; every other
case moves on by one. -/
def recordLoop (i : Nat) (t : MeasType) (d : List MeasRecord) (j : Nat) (s : SinrState) :
    SinrState :=
  if j < d.length then
    let s := s.read i j
    let r := d.getD j .noValue
    match t with
    | .name (.serving info) =>
      recordLoop i t d (j + 1) (if info.valid then s.printOpt (servingLine info r) else s)
    | .name (.neigh info) =>
      if info.valid ∧ j + 1 < d.length then
        let s := s.read i (j + 1)
        recordLoop i t d (j + 2) (s.printOpt (neighborLine info r (d.getD (j + 1) .noValue)))
      else recordLoop i t d (j + 1) s
    | _ => recordLoop i t d (j + 1) s
  else s
termination_by d.length - j

/-- The body of the outer loop on item `i`: `if (meas_type.type == NAME_MEAS_TYPE)` the
inner loop, else nothing. -/
def itemBody (i : Nat) (t : MeasType) (d : List MeasRecord) (s : SinrState) : SinrState :=
  match t with
  | .name _ => recordLoop i t d 0 s
  | .id _ => s

/-- The outer loop over the items from index `i`. -/
def itemLoop : Nat → List (MeasType × List MeasRecord) → SinrState → SinrState
  | _, [], s => s
  | i, (t, d) :: items, s => itemLoop (i + 1) items (itemBody i t d s)

/-- `log_kpm_measurements(msg_frm_1)`: nothing for a report whose two lists differ in length;
otherwise the walk over its items. -/
def logKpmMeasurements (msg : IndMsgFormat1) : SinrState :=
  if msg.lenOk then itemLoop 0 (msg.measInfoLst.zip msg.measDataLst) ⟨[], []⟩ else ⟨[], []⟩

/-- `sm_cb_kpm`: `log_kpm_measurements` on each UE report of an indication, in order. -/
def smCbKpm (reports : List IndMsgFormat1) : List SinrLine :=
  reports.flatMap fun msg => (logKpmMeasurements msg).log

/-! ## The lines -/

/-- The `(neighbor id, SINR)` pairs at even offsets whose SINR is real and whose id is an
integer. -/
def idPairs : List MeasRecord → List (Nat × F64)
  | .real x :: .integer n :: rest => (n, x) :: idPairs rest
  | _ :: _ :: rest => idPairs rest
  | _ => []

/-- The pairs are those the localization programs store, before the `uint16_t` cast. -/
theorem neighPairs_eq_idPairs (d : List MeasRecord) :
    neighPairs d = (idPairs d).map fun p => (p.1 % 2 ^ 16, p.2) := by
  induction d using idPairs.induct <;> simp_all [neighPairs, idPairs]

/-- What the walk prints for one item. -/
def itemLines : MeasType → List MeasRecord → List SinrLine
  | .name (.serving info), d => if info.valid then d.filterMap (servingLine info) else []
  | .name (.neigh info), d =>
    if info.valid then (idPairs d).map fun p => .neighbor info.ueID info.cellID p.1 p.2 else []
  | _, _ => []

@[simp] theorem read_log (s : SinrState) (i k : Nat) : (s.read i k).log = s.log := rfl

@[simp] theorem read_reads (s : SinrState) (i k : Nat) : (s.read i k).reads = s.reads ++ [(i, k)] :=
  rfl

@[simp] theorem printOpt_log (s : SinrState) (l : Option SinrLine) :
    (s.printOpt l).log = s.log ++ l.toList := by
  cases l <;> simp [SinrState.printOpt, SinrState.print]

@[simp] theorem printOpt_reads (s : SinrState) (l : Option SinrLine) :
    (s.printOpt l).reads = s.reads := by
  cases l <;> rfl

theorem idPairs_cons_cons (a b : MeasRecord) (rest : List MeasRecord) :
    idPairs (a :: b :: rest) =
      match a, b with
      | .real x, .integer n => (n, x) :: idPairs rest
      | _, _ => idPairs rest := by
  cases a <;> cases b <;> rfl

/-- The walk from `j` prints the lines of the records from `j` on. -/
theorem recordLoop_log (i : Nat) (t : MeasType) (d : List MeasRecord) (j : Nat) (s : SinrState) :
    (recordLoop i t d j s).log = s.log ++ itemLines t (d.drop j) := by
  induction j, s using recordLoop.induct i t d with
  | case1 j s hj s₁ r info ht ih =>
    subst ht
    rw [recordLoop, if_pos hj]
    simp only [s₁, r, dite_eq_ite] at ih ⊢
    rw [ih, List.drop_eq_getElem_cons hj, List.getD_eq_getElem?_getD,
      List.getElem?_eq_getElem hj, Option.getD_some]
    by_cases hv : info.valid
    · simp only [hv, if_true, printOpt_log, read_log, itemLines, List.filterMap_cons]
      cases servingLine info d[j] <;> simp
    · simp [hv, itemLines]
  | case2 j s hj s₁ r info ht hv s₂ ih =>
    subst ht
    rw [recordLoop, if_pos hj]
    simp only [s₂, s₁, r, if_pos hv] at ih ⊢
    rw [ih, List.drop_eq_getElem_cons hj, List.drop_eq_getElem_cons hv.2]
    simp only [printOpt_log, read_log, itemLines, hv.1, if_true, idPairs_cons_cons,
      List.getD_eq_getElem?_getD, List.getElem?_eq_getElem hj, List.getElem?_eq_getElem hv.2,
      Option.getD_some]
    split <;> simp [neighborLine, *]
  | case3 j s hj s₁ info ht hv ih =>
    subst ht
    rw [recordLoop, if_pos hj]
    simp only [s₁, if_neg hv] at ih ⊢
    rw [ih, List.drop_eq_getElem_cons hj]
    by_cases hv' : info.valid
    · have hlast : d.drop (j + 1) = [] := List.drop_eq_nil_of_le (by simpa [hv'] using hv)
      simp [itemLines, hv', hlast, idPairs]
    · simp [itemLines, hv']
  | case4 j s hj s₁ hs hn ih =>
    rw [recordLoop, if_pos hj]
    obtain rfl | ⟨v, rfl⟩ := MeasType.other_or_id hs hn <;> simpa [itemLines] using ih
  | case5 j s hj =>
    rw [recordLoop, if_neg hj, List.drop_eq_nil_of_le (not_lt.mp hj)]
    cases t with
    | name n => cases n <;> simp [itemLines, idPairs]
    | id _ => simp [itemLines]

theorem itemBody_log (i : Nat) (t : MeasType) (d : List MeasRecord) (s : SinrState) :
    (itemBody i t d s).log = s.log ++ itemLines t d := by
  cases t with
  | name n => simp [itemBody, recordLoop_log]
  | id v => simp [itemBody, itemLines]

theorem itemLoop_log (i : Nat) (items : List (MeasType × List MeasRecord)) (s : SinrState) :
    (itemLoop i items s).log = s.log ++ items.flatMap fun it => itemLines it.1 it.2 := by
  induction items generalizing i s with
  | nil => simp [itemLoop]
  | cons it items ih => simp [itemLoop, ih, itemBody_log]

/-- Over every report, the SINR monitor prints, item by item, the lines of `itemLines`. -/
theorem sinr_monitor_lines (msg : IndMsgFormat1) :
    (logKpmMeasurements msg).log =
      if msg.lenOk then (msg.measInfoLst.zip msg.measDataLst).flatMap fun it => itemLines it.1 it.2
      else [] := by
  unfold logKpmMeasurements
  split <;> simp [itemLoop_log]

/-- A neighbor line as `(UE, serving cell, neighbor id as a `uint16_t`, SINR)`. -/
def neighborEntry : SinrLine → Option (Nat × Nat × Nat × F64)
  | .neighbor ue cell n x => some (ue, cell, n % 2 ^ 16, x)
  | _ => none

theorem itemLines_neighborEntry (t : MeasType) (d : List MeasRecord) :
    (itemLines t d).filterMap neighborEntry =
      (neighList t d).toList.flatMap fun l =>
        l.2.map fun p => (l.1.ueID, l.1.cellID, p.1, p.2) := by
  match t with
  | .name (.serving info) =>
    have hnone : ∀ r, (servingLine info r).bind neighborEntry = none := fun r => by
      cases r <;> rfl
    by_cases hv : info.valid <;> simp [itemLines, neighList, hv, List.filterMap_filterMap, hnone]
  | .name (.neigh info) =>
    by_cases hv : info.valid
    · simp only [itemLines, neighList, hv, if_true, List.filterMap_map, neighPairs_eq_idPairs,
        Option.toList_some, List.flatMap_singleton, List.map_map]
      exact congrFun (List.filterMap_eq_map _) _
    · simp [itemLines, neighList, hv]
  | .name .other => simp [itemLines, neighList]
  | .id _ => simp [itemLines, neighList]

/-- Over every well-formed report, the neighbor lines the SINR monitor prints are, with the
ids cast to `uint16_t`, exactly the pairs of the neighbor lists every localization program
collects (`neighLists`), in the same order. -/
theorem sinr_monitor_neighbors_agree (msg : IndMsgFormat1) (h : msg.lenOk) :
    (logKpmMeasurements msg).log.filterMap neighborEntry =
      (neighLists msg).flatMap fun l => l.2.map fun p => (l.1.ueID, l.1.cellID, p.1, p.2) := by
  simp only [logKpmMeasurements, if_pos h, itemLoop_log, neighLists, List.nil_append]
  induction msg.measInfoLst.zip msg.measDataLst with
  | nil => rfl
  | cons it items ih =>
    rw [List.flatMap_cons, List.filterMap_append, itemLines_neighborEntry, ih, List.filterMap_cons]
    cases neighList it.1 it.2 <;> simp

/-- The report of UE 1 in cell 2 with one neighbor pair. -/
theorem sinr_monitor_neighbors_agree_one_pair :
    (IndMsgFormat1.ofSamples 1 2 10 [(5, 3)]).lenOk = true ∧
      (logKpmMeasurements (IndMsgFormat1.ofSamples 1 2 10 [(5, 3)])).log.filterMap neighborEntry =
        (neighLists (IndMsgFormat1.ofSamples 1 2 10 [(5, 3)])).flatMap fun l =>
          l.2.map fun p => (l.1.ueID, l.1.cellID, p.1, p.2) :=
  ⟨rfl, sinr_monitor_neighbors_agree _ rfl⟩

/-! ## The reads -/

/-- Every read `s'` adds to `s` is of item `i`, at an index from `j` on below `d.length`. -/
def ReadsFrom (i j : Nat) (d : List MeasRecord) (s s' : SinrState) : Prop :=
  ∀ p ∈ s'.reads, p ∈ s.reads ∨ p.1 = i ∧ j ≤ p.2 ∧ p.2 < d.length

theorem ReadsFrom.read {i j k : Nat} {d : List MeasRecord} (s : SinrState) (hjk : j ≤ k)
    (hk : k < d.length) : ReadsFrom i j d s (s.read i k) := by
  intro p hp
  simp only [read_reads, List.mem_append, List.mem_singleton] at hp
  rcases hp with h | rfl
  · exact .inl h
  · exact .inr ⟨rfl, hjk, hk⟩

theorem ReadsFrom.trans {i j k : Nat} {d : List MeasRecord} {s s' s'' : SinrState}
    (h₁ : ReadsFrom i j d s s') (h₂ : ReadsFrom i k d s' s'') (hjk : j ≤ k) :
    ReadsFrom i j d s s'' := by
  intro p hp
  rcases h₂ p hp with h | ⟨h1, h2, h3⟩
  · exact h₁ p h
  · exact .inr ⟨h1, by omega, h3⟩

theorem ReadsFrom.printOpt {i j : Nat} {d : List MeasRecord} {s s' : SinrState}
    (h : ReadsFrom i j d s s') (l : Option SinrLine) : ReadsFrom i j d s (s'.printOpt l) := by
  simpa [ReadsFrom] using h

/-- A walk from `j` reads only records of its item from `j` on, below `meas_record_len`. -/
theorem recordLoop_reads (i : Nat) (t : MeasType) (d : List MeasRecord) (j : Nat) (s : SinrState) :
    ReadsFrom i j d s (recordLoop i t d j s) := by
  induction j, s using recordLoop.induct i t d with
  | case1 j s hj s₁ r info ht ih =>
    subst ht
    rw [recordLoop, if_pos hj]
    refine ReadsFrom.trans ?_ ih (Nat.le_succ j)
    split
    · exact (ReadsFrom.read s le_rfl hj).printOpt _
    · exact ReadsFrom.read s le_rfl hj
  | case2 j s hj s₁ r info ht hv s₂ ih =>
    subst ht
    rw [recordLoop, if_pos hj]
    simp only [s₂, s₁, r, if_pos hv] at ih ⊢
    refine ReadsFrom.trans (ReadsFrom.printOpt ?_ _) ih (by omega)
    exact (ReadsFrom.read s le_rfl hj).trans (ReadsFrom.read _ (Nat.le_succ j) hv.2) le_rfl
  | case3 j s hj s₁ info ht hv ih =>
    subst ht
    rw [recordLoop, if_pos hj]
    simp only [s₁, if_neg hv] at ih ⊢
    exact (ReadsFrom.read s le_rfl hj).trans ih (Nat.le_succ j)
  | case4 j s hj s₁ hs hn ih =>
    rw [recordLoop, if_pos hj]
    obtain rfl | ⟨v, rfl⟩ := MeasType.other_or_id hs hn <;>
      exact (ReadsFrom.read s le_rfl hj).trans ih (Nat.le_succ j)
  | case5 j s hj =>
    rw [recordLoop, if_neg hj]
    exact fun p hp => .inl hp

theorem itemBody_reads (i : Nat) (t : MeasType) (d : List MeasRecord) (s : SinrState) :
    ReadsFrom i 0 d s (itemBody i t d s) := by
  cases t with
  | name n => exact recordLoop_reads i _ d 0 s
  | id v => exact fun p hp => .inl hp

theorem itemLoop_reads (i : Nat) (items : List (MeasType × List MeasRecord)) (s : SinrState) :
    ∀ p ∈ (itemLoop i items s).reads,
      p ∈ s.reads ∨ i ≤ p.1 ∧ ∃ it, items[p.1 - i]? = some it ∧ p.2 < it.2.length := by
  induction items generalizing i s with
  | nil => exact fun p hp => .inl hp
  | cons it items ih =>
    intro p hp
    rcases ih (i + 1) _ p hp with h | ⟨h1, it', h2, h3⟩
    · rcases itemBody_reads i it.1 it.2 s p h with h | ⟨rfl, -, h3⟩
      · exact .inl h
      · exact .inr ⟨le_rfl, it, by simp, h3⟩
    · refine .inr ⟨by omega, it', ?_, h3⟩
      rwa [show p.1 - i = p.1 - (i + 1) + 1 by omega, List.getElem?_cons_succ]

/-- Over every report, every read of `meas_record_lst[k]` of item `i` is below that item's
`meas_record_len`. -/
theorem sinr_monitor_reads_in_bounds (msg : IndMsgFormat1) :
    ∀ p ∈ (logKpmMeasurements msg).reads,
      ∃ d, msg.measDataLst[p.1]? = some d ∧ p.2 < d.length := by
  unfold logKpmMeasurements
  split
  · intro p hp
    rcases itemLoop_reads 0 _ _ p hp with h | ⟨-, it, h1, h2⟩
    · simp at h
    · rw [Nat.sub_zero, List.getElem?_zip_eq_some] at h1
      exact ⟨it.2, h1.2, h2⟩
  · simp

/-- On `oddNeighborReport` the monitor reads the neighbor list's one record, and only that
one. -/
theorem sinr_monitor_reads_in_bounds_odd_neighbor :
    (logKpmMeasurements oddNeighborReport).reads = [(0, 0), (1, 0)] ∧
      ∃ d, oddNeighborReport.measDataLst[1]? = some d ∧ 0 < d.length := by
  have h : (logKpmMeasurements oddNeighborReport).reads = [(0, 0), (1, 0)] := by
    simp [logKpmMeasurements, oddNeighborReport, IndMsgFormat1.lenOk, itemLoop, itemBody,
      recordLoop, InfoObj.valid, uint16Max]
  exact ⟨h, sinr_monitor_reads_in_bounds _ (1, 0) (by simp [h])⟩

end UeLoc.Monitor.Sinr
