import UeLocalization.MovingAverage

/-!
# What the moving-average buffers hold

An abstract model of the 5-second moving average: per admitted UE, the lists of serving
and of neighbor samples accepted since its buffer was created or last processed
(`Pending`), kept by the same table discipline (20 UEs, found or created) and the same
5-second processing, which closes every UE's window and starts it afresh (`absCall`). A
buffer refines its window (`BufRefines`) when its sums and counts are those of the window's
samples and its neighbor entries are the first 10 distinct cells of the window, each with
the sum and number of that cell's samples (`neighborAccs`).

* `addNeighborSinr_neighborAccs`: `add_neighbor_sinr_to_buffer` keeps the neighbor entries
  so; samples of cells past the first 10 distinct ones are the only ones dropped;
* `logKpmMeasurements_refines`: one call keeps every buffer refining its UE's window, and
  the lines it writes are those of the windows it closes (`windowLine`);
* `absRun_conserve`: over a run, each admitted UE's closed windows followed by its open one
  are exactly its serving samples, in order;
* `moving_average_bookkeeping`: all of it over every run of indications from start-up.
-/

namespace UeLoc.MovingAvg

open F64 (num nan)

/-! ## Distinct cells -/

/-- The distinct values of `cs`, in order of first appearance. -/
def firstSeen (cs : List Nat) : List Nat :=
  cs.foldl (fun acc c => if c ∈ acc then acc else acc ++ [c]) []

theorem firstSeen_append_singleton (cs : List Nat) (c : Nat) :
    firstSeen (cs ++ [c]) = if c ∈ firstSeen cs then firstSeen cs else firstSeen cs ++ [c] := by
  simp only [firstSeen, List.foldl_append, List.foldl_cons, List.foldl_nil]

theorem mem_firstSeen (cs : List Nat) (c : Nat) : c ∈ firstSeen cs ↔ c ∈ cs := by
  induction cs using List.reverseRecOn generalizing c with
  | nil => simp [firstSeen]
  | append_singleton cs c' ih =>
    rw [firstSeen_append_singleton]
    split
    · rename_i h
      rw [ih] at h ⊢
      simp only [List.mem_append, List.mem_singleton]
      exact ⟨.inl, fun h' => h'.elim id fun e => e ▸ h⟩
    · simp [ih]

theorem nodup_firstSeen (cs : List Nat) : (firstSeen cs).Nodup := by
  induction cs using List.reverseRecOn with
  | nil => exact List.nodup_nil
  | append_singleton cs c ih =>
    rw [firstSeen_append_singleton]
    split
    · exact ih
    · exact List.nodup_append.mpr ⟨ih, List.nodup_singleton c, by simpa⟩

/-- The SINRs of the samples of cell `c`, in order. -/
def cellSamples (samples : List (Nat × F64)) (c : Nat) : List F64 :=
  (samples.filter (·.1 = c)).map (·.2)

theorem cellSamples_append_singleton (samples : List (Nat × F64)) (c' : Nat) (x : F64)
    (c : Nat) :
    cellSamples (samples ++ [(c', x)]) c = cellSamples samples c ++ if c' = c then [x] else [] := by
  by_cases h : c' = c <;> simp [cellSamples, List.filter_append, h]

theorem cellSamples_eq_nil {samples : List (Nat × F64)} {c : Nat}
    (h : c ∉ samples.map (·.1)) : cellSamples samples c = [] := by
  simp only [cellSamples, List.map_eq_nil_iff, List.filter_eq_nil_iff, decide_eq_true_eq]
  exact fun a ha e => h (e ▸ List.mem_map_of_mem _ ha)

theorem cellSamples_ne_nil {samples : List (Nat × F64)} {c : Nat}
    (h : c ∈ samples.map (·.1)) : cellSamples samples c ≠ [] := by
  obtain ⟨a, ha, rfl⟩ := List.mem_map.mp h
  simp only [cellSamples, ne_eq, List.map_eq_nil_iff, List.filter_eq_nil_iff, decide_eq_true_eq,
    not_forall, not_not]
  exact ⟨a, ha, rfl⟩

/-! ## The neighbor entries -/

/-- The entry of cell `c` for the samples `samples`: the sum and number of its SINRs. -/
def cellAcc (samples : List (Nat × F64)) (c : Nat) : NeighborAcc :=
  ⟨c, F64.sum (cellSamples samples c), (cellSamples samples c).length⟩

/-- The neighbor entries a buffer should hold for its neighbor samples: the first 10
distinct cells, in order of first appearance, each with the sum and number of its
samples. -/
def neighborAccs (samples : List (Nat × F64)) : List NeighborAcc :=
  ((firstSeen (samples.map (·.1))).take maxNeighbors).map (cellAcc samples)

section Entries

variable {g g' : Nat → NeighborAcc}

theorem findUe_map_self (hg : ∀ c, (g c).neighCellID = c) (cells : List Nat) (c : Nat) :
    findUe (·.neighCellID) (cells.map g) c = if c ∈ cells then some (g c) else none := by
  induction cells with
  | nil => rfl
  | cons c₀ cells ih =>
    rw [List.map_cons, findUe_cons, hg, ih]
    by_cases h : c₀ = c
    · simp [h]
    · simp [h, Ne.symm h]

theorem setUe_map_self (hg : ∀ c, (g c).neighCellID = c) {cells : List Nat} (hnd : cells.Nodup)
    {c : Nat} (hc : c ∈ cells) (hg' : ∀ c' ∈ cells, c' ≠ c → g' c' = g c') :
    setUe (·.neighCellID) c (g' c) (cells.map g) = cells.map g' := by
  induction cells with
  | nil => simp at hc
  | cons c₀ cells ih =>
    rw [List.nodup_cons] at hnd
    simp only [List.map_cons, setUe, hg]
    by_cases h : c₀ = c
    · subst h
      rw [if_pos rfl, List.map_congr_left fun c' hc' =>
        (hg' c' (List.mem_cons_of_mem _ hc') fun e => hnd.1 (e ▸ hc')).symm]
    · rw [if_neg h, hg' c₀ (List.mem_cons_self _ _) h,
        ih hnd.2 ((List.mem_cons.mp hc).resolve_left (Ne.symm h))
          fun c' hc' => hg' c' (List.mem_cons_of_mem _ hc')]

end Entries

@[simp] theorem cellAcc_neighCellID (samples : List (Nat × F64)) (c : Nat) :
    (cellAcc samples c).neighCellID = c := rfl

theorem cellAcc_append_self (samples : List (Nat × F64)) (c : Nat) (x : F64) :
    cellAcc (samples ++ [(c, x)]) c =
      ⟨c, (cellAcc samples c).sinrSum.add x, (cellAcc samples c).sinrCount + 1⟩ := by
  simp [cellAcc, cellSamples_append_singleton, F64.sum_append_singleton]

theorem cellAcc_append_ne (samples : List (Nat × F64)) {c c' : Nat} (x : F64) (h : c' ≠ c) :
    cellAcc (samples ++ [(c, x)]) c' = cellAcc samples c' := by
  simp [cellAcc, cellSamples_append_singleton, Ne.symm h]

/-- `add_neighbor_sinr_to_buffer` keeps the entries those of the samples: a known cell
accumulates, a new cell is appended while fewer than 10 are known, and a sample of any
other cell is dropped. -/
theorem addNeighborSinr_neighborAccs (samples : List (Nat × F64)) (c : Nat) (x : F64) :
    addNeighborSinr (neighborAccs samples) c x = neighborAccs (samples ++ [(c, x)]) := by
  set F := firstSeen (samples.map (·.1)) with hF
  have hcells : (samples ++ [(c, x)]).map (·.1) = samples.map (·.1) ++ [c] := by simp
  have hne : ∀ c' ∈ F.take maxNeighbors, c' ≠ c →
      cellAcc (samples ++ [(c, x)]) c' = cellAcc samples c' :=
    fun c' _ h => cellAcc_append_ne samples x h
  unfold addNeighborSinr neighborAccs
  rw [findUe_map_self (cellAcc_neighCellID samples), hcells, firstSeen_append_singleton, ← hF]
  by_cases hc : c ∈ F.take maxNeighbors
  · -- a known cell: its entry accumulates
    have hseen : c ∈ F := List.mem_of_mem_take hc
    simp only [hc, if_true, hseen, cellAcc_neighCellID]
    rw [← cellAcc_append_self, setUe_map_self (cellAcc_neighCellID samples)
      ((List.take_sublist _ _).nodup (nodup_firstSeen _)) hc hne]
  · simp only [hc, if_false, List.length_map, List.length_take]
    by_cases hroom : F.length < maxNeighbors
    · -- room for a new cell: its entry starts with this sample
      rw [List.take_of_length_le hroom.le] at hc ⊢
      have hnew : c ∉ samples.map (·.1) := fun h => hc ((mem_firstSeen _ _).mpr h)
      rw [if_pos (by omega), if_neg hc, List.take_of_length_le (by simp; omega), List.map_append,
        List.map_congr_left fun c' hc' =>
          (hne c' (by rwa [List.take_of_length_le hroom.le]) fun e => hc (e ▸ hc')).symm]
      simp [cellAcc, cellSamples_append_singleton, cellSamples_eq_nil hnew]
    · -- ten cells known: the sample is dropped
      have htake : (if c ∈ F then F else F ++ [c]).take maxNeighbors = F.take maxNeighbors := by
        split
        · rfl
        · exact List.take_append_of_le_length (by omega)
      rw [if_neg (by omega), htake, List.map_congr_left fun c' hc' => hne c' hc' fun e => hc (e ▸ hc')]

/-- The slot `n` of a line for the neighbor samples `samples`: the `n`-th distinct cell and
the mean of its SINRs, or `(0, 0.0)`. -/
def windowSlot (samples : List (Nat × F64)) (n : Nat) : Nat × F64 :=
  match (firstSeen (samples.map (·.1)))[n]? with
  | some c => (c, F64.mean (cellSamples samples c))
  | none => (0, num 0)

theorem neighborSlot_neighborAccs (samples : List (Nat × F64)) {n : Nat}
    (hn : n < maxNeighbors) : neighborSlot (neighborAccs samples) n = windowSlot samples n := by
  unfold neighborSlot windowSlot neighborAccs
  rw [List.getElem?_map, List.getElem?_take_of_lt hn]
  cases h : (firstSeen (samples.map (·.1)))[n]? with
  | none => rfl
  | some c =>
    have hc : c ∈ samples.map (·.1) := (mem_firstSeen _ _).mp (List.getElem?_mem h)
    simp [cellAcc, F64.mean, List.length_pos.mpr (cellSamples_ne_nil hc)]

/-! ## One buffer -/

/-- The samples accepted for one UE since its buffer was created or last processed: the
serving ones as `(cell, SINR)`, the neighbor ones as `(neighbor cell, SINR)`. -/
structure Pending where
  ueID : Nat
  serving : List (Nat × F64)
  neighbors : List (Nat × F64)
  deriving DecidableEq

/-- The window of a new UE. -/
def Pending.init (ueID : Nat) : Pending := ⟨ueID, [], []⟩

/-- The window after processing: empty. -/
def Pending.flush (p : Pending) : Pending := ⟨p.ueID, [], []⟩

/-- A buffer holding the sums of a window: `serving_sinr_sum` and `serving_sinr_count` are
the sum and number of its serving samples, `has_data` says it has one and
`serving_cell_id` is the last one's cell; the neighbor entries are `neighborAccs`. -/
structure BufRefines (b : UeBuffer) (p : Pending) : Prop where
  ueID : b.ueID = p.ueID
  servingSum : b.servingSinrSum = F64.sum (p.serving.map (·.2))
  servingCount : b.servingSinrCount = p.serving.length
  hasData : b.hasData = !p.serving.isEmpty
  servingCell : ∀ q ∈ p.serving.getLast?, b.servingCellID = q.1
  neighbors : b.neighbors = neighborAccs p.neighbors

theorem BufRefines.init (ueID : Nat) : BufRefines (UeBuffer.init ueID) (Pending.init ueID) :=
  ⟨rfl, rfl, rfl, rfl, by simp [Pending.init], rfl⟩

theorem BufRefines.serving {b : UeBuffer} {p : Pending} (h : BufRefines b p) (c : Nat)
    (x : F64) :
    BufRefines (addServingSinrToBuffer b c x) { p with serving := p.serving ++ [(c, x)] } where
  ueID := h.ueID
  servingSum := by simp [addServingSinrToBuffer, h.servingSum, F64.sum_append_singleton]
  servingCount := by simp [addServingSinrToBuffer, h.servingCount]
  hasData := by simp [addServingSinrToBuffer]
  servingCell := by simp [addServingSinrToBuffer]
  neighbors := h.neighbors

theorem BufRefines.neighborList {b : UeBuffer} {p : Pending} (h : BufRefines b p)
    (l : List (Nat × F64)) :
    BufRefines (l.foldl (fun b pr => addNeighborSinrToBuffer b pr.1 pr.2) b)
      { p with neighbors := p.neighbors ++ l } := by
  induction l generalizing b p with
  | nil => simpa using h
  | cons pr l ih =>
    have hn : (addNeighborSinrToBuffer b pr.1 pr.2).neighbors =
        neighborAccs (p.neighbors ++ [pr]) := by
      simp only [addNeighborSinrToBuffer, h.neighbors, addNeighborSinr_neighborAccs]
    have h' : BufRefines (addNeighborSinrToBuffer b pr.1 pr.2)
        { p with neighbors := p.neighbors ++ [pr] } := { h with neighbors := hn }
    simpa using ih h'

theorem BufRefines.clear {b : UeBuffer} {p : Pending} (h : BufRefines b p) :
    BufRefines (clearBuffer b) p.flush :=
  ⟨h.ueID, rfl, rfl, rfl, by simp [Pending.flush], rfl⟩

/-- The line a window gives at time `t`: the mean of its serving SINRs at the cell of its
last serving sample, and its first three distinct neighbor cells with the mean of each
one's SINRs. -/
def windowLine (t : BitVec 64) (p : Pending) : AvgLine :=
  let cell := (p.serving.getLast?.map (·.1)).getD 0
  { timeMs := t / 1000
    ueID := p.ueID
    servingCellID := cell
    avgServingSinr := F64.mean (p.serving.map (·.2))
    neighbors := [windowSlot p.neighbors 0, windowSlot p.neighbors 1, windowSlot p.neighbors 2]
    x := (cellXY cellPositions cell).1
    y := (cellXY cellPositions cell).2 }

/-- A buffer writes a line exactly when its window has a serving sample, and it is the
window's line. -/
theorem BufRefines.avgLine_eq {b : UeBuffer} {p : Pending} (h : BufRefines b p) (t : BitVec 64) :
    avgLine t b = if p.serving = [] then none else some (windowLine t p) := by
  by_cases hs : p.serving = []
  · have hc : (!b.hasData || b.servingSinrCount == 0) = true := by simp [h.hasData, hs]
    simp [avgLine, hc, hs]
  · obtain ⟨q, hq⟩ := Option.ne_none_iff_exists'.mp (mt List.getLast?_eq_none_iff.mp hs)
    have hc : (!b.hasData || b.servingSinrCount == 0) = false := by
      simp [h.hasData, h.servingCount, hs]
    simp only [avgLine, hc, Bool.false_eq_true, if_false]
    simp only [hs, windowLine, hq, Option.map_some', Option.getD_some, h.servingCell q hq, h.ueID,
      h.servingSum, h.servingCount, h.neighbors, F64.mean, List.length_map,
      neighborSlot_neighborAccs _ (by decide : 0 < maxNeighbors),
      neighborSlot_neighborAccs _ (by decide : 1 < maxNeighbors),
      neighborSlot_neighborAccs _ (by decide : 2 < maxNeighbors)]
    rfl

/-! ## The windows of all UEs -/

/-- The first loop on one serving sample, on the windows: the sample joins its UE's window,
created while fewer than 20 UEs are known. -/
def pendServing (ps : List Pending) (smp : InfoObj × F64) : List Pending :=
  updateUe (·.ueID) maxUeBuffers Pending.init
    (fun p => { p with serving := p.serving ++ [(smp.1.cellID, smp.2)] }) ps smp.1.ueID

/-- The second loop on one neighbor list, on the windows. -/
def pendNeighbors (ps : List Pending) (l : InfoObj × List (Nat × F64)) : List Pending :=
  updateUe (·.ueID) maxUeBuffers Pending.init
    (fun p => { p with neighbors := p.neighbors ++ l.2 }) ps l.1.ueID

/-- The windows of the admitted UEs, and `last_prediction_time`. -/
structure AbsState where
  pending : List Pending
  lastPredictionTime : BitVec 64

/-- No UE and no time at start-up. -/
def AbsState.init : AbsState := ⟨[], 0⟩

/-- A call on the windows: a well-formed report's samples join their windows, and at the
5-second test every window is closed, those with a serving sample given out with the
time. -/
def absCall (a : AbsState) (msg : IndMsgFormat1) (t : BitVec 64) :
    AbsState × List (BitVec 64 × Pending) :=
  if msg.lenOk then
    let last := startOf a.lastPredictionTime t
    let ps := (neighLists msg).foldl pendNeighbors ((servingSamples msg).foldl pendServing a.pending)
    if shouldProcess last t then
      (⟨ps.map Pending.flush, t⟩, (ps.filter (·.serving ≠ [])).map (t, ·))
    else (⟨ps, last⟩, [])
  else (a, [])

/-- Successive calls on the windows: the state after, and the windows closed. -/
def absRun (a : AbsState) :
    List (IndMsgFormat1 × BitVec 64) → AbsState × List (BitVec 64 × Pending)
  | [] => (a, [])
  | (msg, t) :: calls =>
    ((absRun (absCall a msg t).1 calls).1, (absCall a msg t).2 ++ (absRun (absCall a msg t).1 calls).2)

/-- The calls of `log_kpm_measurements` over successive indications. -/
def indicationCalls (inds : List (BitVec 64 × List IndMsgFormat1)) :
    List (IndMsgFormat1 × BitVec 64) :=
  inds.flatMap fun i => i.2.map (·, i.1)

theorem absRun_append (a : AbsState) (calls calls' : List (IndMsgFormat1 × BitVec 64)) :
    absRun a (calls ++ calls') =
      ((absRun (absRun a calls).1 calls').1, (absRun a calls).2 ++ (absRun (absRun a calls).1 calls').2) := by
  induction calls generalizing a with
  | nil => rfl
  | cons c calls ih => simp [absRun, ih]

/-! ## Refinement -/

/-- The program's state refines the windows: buffer by buffer, and the same
`last_prediction_time`. -/
structure Refines (s : State) (a : AbsState) : Prop where
  buffers : List.Forall₂ BufRefines s.ueBuffers a.pending
  last : s.lastPredictionTime = a.lastPredictionTime

theorem Refines.init : Refines State.init AbsState.init := ⟨.nil, rfl⟩

theorem forall₂_foldl {γ : Type} {f : List UeBuffer → γ → List UeBuffer}
    {g : List Pending → γ → List Pending}
    (hfg : ∀ {bufs ps} x, List.Forall₂ BufRefines bufs ps →
      List.Forall₂ BufRefines (f bufs x) (g ps x))
    (xs : List γ) {bufs : List UeBuffer} {ps : List Pending}
    (h : List.Forall₂ BufRefines bufs ps) :
    List.Forall₂ BufRefines (xs.foldl f bufs) (xs.foldl g ps) := by
  induction xs generalizing bufs ps with
  | nil => exact h
  | cons x xs ih => exact ih (hfg x h)

/-- A report's samples keep the buffers refining the windows. -/
theorem forall₂_accumulate {bufs : List UeBuffer} {ps : List Pending}
    (h : List.Forall₂ BufRefines bufs ps) (msg : IndMsgFormat1) :
    List.Forall₂ BufRefines
      ((neighLists msg).foldl addNeighbors ((servingSamples msg).foldl addServing bufs))
      ((neighLists msg).foldl pendNeighbors ((servingSamples msg).foldl pendServing ps)) :=
  forall₂_foldl (fun l h => updateUe_forall₂ (R := BufRefines) (fun hb => hb.ueID)
      BufRefines.init (fun hb => hb.neighborList l.2) h l.1.ueID) _
    (forall₂_foldl (fun smp h => updateUe_forall₂ (R := BufRefines) (fun hb => hb.ueID)
      BufRefines.init (fun hb => hb.serving smp.1.cellID smp.2) h smp.1.ueID) _ h)

/-- Processing clears each buffer with its window and writes the lines of the windows with a
serving sample. -/
theorem forall₂_process {bufs : List UeBuffer} {ps : List Pending}
    (h : List.Forall₂ BufRefines bufs ps) (t : BitVec 64) :
    List.Forall₂ BufRefines (processAndSendAveragedData bufs t).1 (ps.map Pending.flush) ∧
      (processAndSendAveragedData bufs t).2 = (ps.filter (·.serving ≠ [])).map (windowLine t) := by
  induction h with
  | nil => exact ⟨.nil, rfl⟩
  | @cons b p bufs ps hb _ ih =>
    simp only [processAndSendAveragedData, List.map_cons, List.filterMap_cons,
      hb.avgLine_eq t, List.filter_cons] at ih ⊢
    refine ⟨.cons hb.clear ih.1, ?_⟩
    by_cases hs : p.serving = [] <;> simp [hs, ih.2]

/-- One call keeps the state refining the windows, and writes the lines of the windows it
closes. -/
theorem logKpmMeasurements_refines {s : State} {a : AbsState} (h : Refines s a)
    (msg : IndMsgFormat1) (t : BitVec 64) :
    Refines (logKpmMeasurements s msg t).1 (absCall a msg t).1 ∧
      (logKpmMeasurements s msg t).2 = (absCall a msg t).2.map fun w => windowLine w.1 w.2 := by
  unfold logKpmMeasurements absCall
  by_cases hm : msg.lenOk
  · have hacc := forall₂_accumulate h.buffers msg
    simp only [hm, if_true, h.last]
    by_cases hp : shouldProcess (startOf a.lastPredictionTime t) t
    · obtain ⟨h1, h2⟩ := forall₂_process hacc t
      simp only [hp, if_true, h2, List.map_map]
      exact ⟨⟨h1, rfl⟩, rfl⟩
    · simp only [hp, Bool.false_eq_true, if_false, List.map_nil]
      exact ⟨⟨hacc, rfl⟩, trivial⟩
  · simp only [hm, Bool.false_eq_true, if_false, List.map_nil]
    exact ⟨h, trivial⟩

theorem smCbKpm_refines {s : State} {a : AbsState} (h : Refines s a) (t : BitVec 64)
    (rs : List IndMsgFormat1) :
    Refines (smCbKpm s t rs).1 (absRun a (rs.map (·, t))).1 ∧
      (smCbKpm s t rs).2 = (absRun a (rs.map (·, t))).2.map fun w => windowLine w.1 w.2 := by
  induction rs generalizing s a with
  | nil => exact ⟨h, rfl⟩
  | cons r rs ih =>
    obtain ⟨h1, h2⟩ := logKpmMeasurements_refines h r t
    obtain ⟨h3, h4⟩ := ih h1
    exact ⟨h3, by simp only [smCbKpm, List.map_cons, absRun, List.map_append, h2, h4]⟩

theorem indicationRun_refines {s : State} {a : AbsState} (h : Refines s a)
    (inds : List (BitVec 64 × List IndMsgFormat1)) :
    Refines (indicationRun s inds).1 (absRun a (indicationCalls inds)).1 ∧
      (indicationRun s inds).2 =
        (absRun a (indicationCalls inds)).2.map fun w => windowLine w.1 w.2 := by
  induction inds generalizing s a with
  | nil => exact ⟨h, rfl⟩
  | cons i inds ih =>
    obtain ⟨t, rs⟩ := i
    obtain ⟨h1, h2⟩ := smCbKpm_refines h t rs
    obtain ⟨h3, h4⟩ := ih h1
    have hcalls : indicationCalls ((t, rs) :: inds) = rs.map (·, t) ++ indicationCalls inds := rfl
    exact ⟨by rw [hcalls, absRun_append]; exact h3,
      by rw [hcalls, absRun_append, indicationRun, List.map_append, h2, h4]⟩

/-! ## Every serving sample in one window -/

/-- The serving samples of UE `u` in the well-formed reports of `calls`, in order. -/
def servingInput (calls : List (IndMsgFormat1 × BitVec 64)) (u : Nat) : List (Nat × F64) :=
  calls.flatMap fun c =>
    if c.1.lenOk then ((servingSamples c.1).filter (·.1.ueID = u)).map fun smp => (smp.1.cellID, smp.2)
    else []

/-- The serving samples of UE `u`'s closed windows, in order. -/
def closedServing (ws : List (BitVec 64 × Pending)) (u : Nat) : List (Nat × F64) :=
  (ws.filter (·.2.ueID = u)).flatMap (·.2.serving)

/-- The windows `ps` open and `ws` closed account for the serving samples `input u` of each
UE `u`: an admitted UE's closed windows followed by its open one are exactly its samples,
and a UE without a window has none closed, and none at all while the table has room. -/
structure Conserve (ps : List Pending) (ws : List (BitVec 64 × Pending))
    (input : Nat → List (Nat × F64)) : Prop where
  nodup : (ps.map (·.ueID)).Nodup
  found : ∀ u p, findUe (·.ueID) ps u = some p → closedServing ws u ++ p.serving = input u
  absent : ∀ u, findUe (·.ueID) ps u = none →
    closedServing ws u = [] ∧ (ps.length < maxUeBuffers → input u = [])

theorem Conserve.init : Conserve [] [] fun _ => [] :=
  ⟨List.nodup_nil, fun _ _ h => by simp [findUe] at h, fun _ _ => ⟨rfl, fun _ => rfl⟩⟩

/-- A window update that appends `new` to the serving samples of UE `u₀`, creating its
window if there is room, accounts for `new` as `u₀`'s input. -/
theorem Conserve.update {ps : List Pending} {ws : List (BitVec 64 × Pending)}
    {input : Nat → List (Nat × F64)} (hc : Conserve ps ws input) (f : Pending → Pending)
    (hfid : ∀ p, (f p).ueID = p.ueID) (new : List (Nat × F64))
    (hfs : ∀ p, (f p).serving = p.serving ++ new) (u₀ : Nat) :
    Conserve (updateUe (·.ueID) maxUeBuffers Pending.init f ps u₀) ws
      fun u => input u ++ if u = u₀ then new else [] := by
  have hinit : ∀ u, (Pending.init u).ueID = u := fun _ => rfl
  have hlen : ps.length ≤ (updateUe (·.ueID) maxUeBuffers Pending.init f ps u₀).length :=
    length_le_updateUe ps u₀
  refine ⟨nodup_updateUe hinit hfid hc.nodup u₀, fun u p hp => ?_, fun u hp => ?_⟩
  · rw [findUe_updateUe hinit hfid] at hp
    split at hp
    · -- `u₀`'s window: found, or created empty
      subst u
      obtain ⟨b, hb, rfl⟩ := Option.map_eq_some'.mp hp
      rw [if_pos rfl, hfs, ← List.append_assoc]
      unfold getOrCreate at hb
      split at hb
      · cases hb; rw [hc.found _ _ ‹_›]
      · split at hb <;> cases hb
        obtain ⟨h1, h2⟩ := hc.absent _ ‹_›
        simp [h1, h2 ‹_›, Pending.init]
    · rw [if_neg ‹_›, List.append_nil]
      exact hc.found u p hp
  · rw [findUe_updateUe hinit hfid] at hp
    split at hp
    · -- no room for `u₀`: the table is full and stays so
      subst u
      obtain ⟨hn, hfull⟩ := getOrCreate_eq_none.mp (Option.map_eq_none'.mp hp)
      exact ⟨(hc.absent _ hn).1, fun h => absurd (lt_of_le_of_lt hlen h) (not_lt.mpr hfull)⟩
    · obtain ⟨h1, h2⟩ := hc.absent u hp
      exact ⟨h1, fun h => by rw [h2 (lt_of_le_of_lt hlen h), if_neg ‹_›]; rfl⟩

theorem Conserve.addServings {ps : List Pending} {ws : List (BitVec 64 × Pending)}
    {input : Nat → List (Nat × F64)} (hc : Conserve ps ws input) (smps : List (InfoObj × F64)) :
    Conserve (smps.foldl pendServing ps) ws fun u =>
      input u ++ ((smps.filter (·.1.ueID = u)).map fun smp => (smp.1.cellID, smp.2)) := by
  induction smps generalizing ps input with
  | nil => simpa using hc
  | cons smp smps ih =>
    have h := ih (hc.update (fun p => { p with serving := p.serving ++ [(smp.1.cellID, smp.2)] })
      (fun _ => rfl) _ (fun _ => rfl) smp.1.ueID)
    refine (congrArg _ ?_).mp h
    funext u
    by_cases hu : u = smp.1.ueID <;> simp [List.filter_cons, hu, eq_comm]

theorem Conserve.addNeighborLists {ps : List Pending} {ws : List (BitVec 64 × Pending)}
    {input : Nat → List (Nat × F64)} (hc : Conserve ps ws input)
    (ls : List (InfoObj × List (Nat × F64))) : Conserve (ls.foldl pendNeighbors ps) ws input := by
  induction ls generalizing ps with
  | nil => exact hc
  | cons l ls ih =>
    refine ih ?_
    simpa using hc.update (fun p => { p with neighbors := p.neighbors ++ l.2 })
      (fun _ => rfl) [] (fun _ => (List.append_nil _).symm) l.1.ueID

/-- The closed windows of processing, for one UE: its window's serving samples. -/
theorem closedServing_flush {ps : List Pending} (hnd : (ps.map (·.ueID)).Nodup) (t : BitVec 64)
    (u : Nat) :
    closedServing ((ps.filter (·.serving ≠ [])).map (t, ·)) u =
      ((findUe (·.ueID) ps u).map (·.serving)).getD [] := by
  unfold closedServing
  rw [List.filter_map, List.filter_filter]
  have hcomm : ((fun w : BitVec 64 × Pending => decide (w.2.ueID = u)) ∘ (t, ·)) =
      fun p => decide (p.ueID = u) := rfl
  rw [hcomm]
  simp only [Bool.and_comm (decide (_ = u)), ← List.filter_filter, filter_eq_findUe hnd,
    List.flatMap_map]
  cases findUe (·.ueID) ps u with
  | none => rfl
  | some p => by_cases hs : p.serving = [] <;> simp [hs]

theorem Conserve.flush {ps : List Pending} {ws : List (BitVec 64 × Pending)}
    {input : Nat → List (Nat × F64)} (hc : Conserve ps ws input) (t : BitVec 64) :
    Conserve (ps.map Pending.flush) (ws ++ (ps.filter (·.serving ≠ [])).map (t, ·)) input := by
  have hmap : ∀ u, findUe (·.ueID) (ps.map Pending.flush) u =
      (findUe (·.ueID) ps u).map Pending.flush := @findUe_map Pending (·.ueID) Pending.flush (fun _ => rfl) ps
  have hclosed : ∀ u, closedServing (ws ++ (ps.filter (·.serving ≠ [])).map (t, ·)) u =
      closedServing ws u ++ ((findUe (·.ueID) ps u).map (·.serving)).getD [] := fun u => by
    rw [← closedServing_flush hc.nodup t u]
    simp [closedServing, List.filter_append]
  refine ⟨by simpa [Function.comp_def, Pending.flush] using hc.nodup, fun u p hp => ?_,
    fun u hp => ?_⟩
  · rw [hmap] at hp
    obtain ⟨p₀, hp₀, rfl⟩ := Option.map_eq_some'.mp hp
    rw [hclosed, hp₀]
    simpa [Pending.flush] using hc.found u p₀ hp₀
  · rw [hmap, Option.map_eq_none'] at hp
    rw [hclosed, hp, List.length_map]
    simpa using hc.absent u hp

/-- One call accounts for its report's serving samples. -/
theorem Conserve.call {a : AbsState} {ws : List (BitVec 64 × Pending)}
    {input : Nat → List (Nat × F64)} (hc : Conserve a.pending ws input) (msg : IndMsgFormat1)
    (t : BitVec 64) :
    Conserve (absCall a msg t).1.pending (ws ++ (absCall a msg t).2)
      fun u => input u ++ servingInput [(msg, t)] u := by
  unfold absCall
  by_cases hm : msg.lenOk
  · have hacc := (hc.addServings (servingSamples msg)).addNeighborLists (neighLists msg)
    simp only [hm, if_true, servingInput, List.flatMap_cons, List.flatMap_nil, List.append_nil]
    split
    · exact hacc.flush t
    · simpa using hacc
  · simpa [hm, servingInput] using hc

/-- Over a run, the windows account for every serving sample of the input. -/
theorem absRun_conserve {a : AbsState} {ws : List (BitVec 64 × Pending)}
    {input : Nat → List (Nat × F64)} (hc : Conserve a.pending ws input)
    (calls : List (IndMsgFormat1 × BitVec 64)) :
    Conserve (absRun a calls).1.pending (ws ++ (absRun a calls).2)
      fun u => input u ++ servingInput calls u := by
  induction calls generalizing a ws input with
  | nil => simpa [absRun, servingInput] using hc
  | cons c calls ih =>
    obtain ⟨msg, t⟩ := c
    have h := ih (hc.call msg t)
    have hin : servingInput ((msg, t) :: calls) = fun u =>
        servingInput [(msg, t)] u ++ servingInput calls u := by
      funext u; simp [servingInput]
    simpa [absRun, hin, List.append_assoc] using h

/-! ## Every reachable state -/

theorem forall₂_exists_right {bufs : List UeBuffer} {ps : List Pending}
    (h : List.Forall₂ BufRefines bufs ps) {b : UeBuffer} (hb : b ∈ bufs) :
    ∃ p ∈ ps, BufRefines b p := by
  induction h with
  | nil => simp at hb
  | @cons b' p bufs ps hbp _ ih =>
    rcases List.mem_cons.mp hb with rfl | hb
    · exact ⟨p, List.mem_cons_self _ _, hbp⟩
    · obtain ⟨q, hq, hbq⟩ := ih hb
      exact ⟨q, List.mem_cons_of_mem _ hq, hbq⟩

/-- The neighbor entries of a buffer refining a window: at most 10, of distinct cells. -/
theorem BufRefines.neighbors_ok {b : UeBuffer} {p : Pending} (h : BufRefines b p) :
    (b.neighbors.map (·.neighCellID)).Nodup ∧ b.neighbors.length ≤ maxNeighbors := by
  rw [h.neighbors, neighborAccs, List.map_map, List.length_map, List.length_take]
  have hid : ((·.neighCellID) ∘ cellAcc p.neighbors) = id := rfl
  rw [hid, List.map_id]
  exact ⟨(List.take_sublist _ _).nodup (nodup_firstSeen _), min_le_left _ _⟩

/-- Over every run of indications from start-up, with the windows of the abstract model on
the same calls: each UE buffer holds the sums and numbers of its window's serving and
per-cell neighbor samples (`BufRefines`), its neighbor entries are at most 10 distinct
cells; the lines written are the lines of the windows closed, so each serving average is
the mean of its window; and each admitted UE's closed windows followed by its open one are
exactly its serving samples, so no serving sample is in two lines. -/
theorem moving_average_bookkeeping (inds : List (BitVec 64 × List IndMsgFormat1)) :
    List.Forall₂ BufRefines (indicationRun State.init inds).1.ueBuffers
      (absRun AbsState.init (indicationCalls inds)).1.pending ∧
    (∀ b ∈ (indicationRun State.init inds).1.ueBuffers,
      (b.neighbors.map (·.neighCellID)).Nodup ∧ b.neighbors.length ≤ maxNeighbors) ∧
    (indicationRun State.init inds).2 =
      (absRun AbsState.init (indicationCalls inds)).2.map (fun w => windowLine w.1 w.2) ∧
    ∀ p ∈ (absRun AbsState.init (indicationCalls inds)).1.pending,
      closedServing (absRun AbsState.init (indicationCalls inds)).2 p.ueID ++ p.serving =
        servingInput (indicationCalls inds) p.ueID := by
  obtain ⟨hr, hlines⟩ := indicationRun_refines Refines.init inds
  have hc := absRun_conserve (a := AbsState.init) Conserve.init (indicationCalls inds)
  refine ⟨hr.buffers, fun b hb => ?_, hlines, fun p hp => ?_⟩
  · obtain ⟨p, -, hbp⟩ := forall₂_exists_right hr.buffers hb
    exact hbp.neighbors_ok
  · simpa using hc.found p.ueID p (findUe_of_mem hc.nodup hp)

end UeLoc.MovingAvg
