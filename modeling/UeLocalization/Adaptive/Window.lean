import UeLocalization.Basic
import Mathlib.Algebra.Order.BigOperators.Group.List

/-!
# The adaptive windows of `ue_localization_MA.c`

`add_to_adaptive_window` keeps one window per UE in `ue_windows[0..active_ue_count)`
(`MAX_UE_COUNT` of them at most). A point of the window's serving cell (or the first
point) is appended, and the window is sent and reset once the point is 5000 ms past the
window's start, in `uint64_t` arithmetic; a point of another cell sends the window and
starts a new one with that point (`windowStep`).

Each window keeps `WindowInv` (`windowStep_inv`), and the table its distinct ids
(`TableInv`). Over a whole run (`runAdaptive`) from any table with room for the run's UEs,
every UE's sent batches, followed by its open buffer, are exactly its points in input order
(`runAdaptive_ok`), and from no windows the run is sound (`RunSound`,
`runAdaptive_sound`). Nothing on the append path bounds a window by its 200 slots: equal
points pile up in one window for ever (`runAdaptive_replicate`). The time rule in
`uint64_t` also fires on a point earlier than the window's start (`elapsedAtLeast_iff`).
Within the 200 slots, the `uint64_t` sum of the timestamps `send_window_batch_to_python`
averages never wraps, so the line's timestamp lies between the window's earliest and latest
(`batch_timestamp_mean`).
-/

namespace UeLoc.Adaptive

open F64 (num nan)

/-- `measurement_point_t`. -/
structure MeasurementPoint where
  timestamp : BitVec 64
  ueID : Nat
  servingCellID : Nat
  servingSINR : F64
  neighborSINR : Fin 3 → F64
  servingCellX : ℚ
  servingCellY : ℚ

/-- A point whose coordinates are its serving cell's, as `log_kpm_measurements` and
`process_measurements_to_adaptive_windows` build every point. -/
def MeasurementPoint.Positioned (p : MeasurementPoint) : Prop :=
  (p.servingCellX, p.servingCellY) = cellXY cellPositions p.servingCellID

/-- `ue_adaptive_window_t`; `buffer` is `buffer[0..count)`. -/
structure UeAdaptiveWindow where
  ueId : Nat
  currentServingCell : Nat
  windowStartTime : BitVec 64
  windowActive : Bool
  buffer : List MeasurementPoint

namespace UeAdaptiveWindow

/-- `count`. -/
def count (w : UeAdaptiveWindow) : Nat := w.buffer.length

/-- The window `create_ue_window` makes: zeroed by `memset`, with its UE id. -/
def init (ueId : Nat) : UeAdaptiveWindow := ⟨ueId, 0, 0, false, []⟩

end UeAdaptiveWindow

/-- The length of `ue_adaptive_window_t.buffer`. -/
def bufferCapacity : Nat := 200

/-- `MAX_UE_COUNT`. -/
def maxUeCount : Nat := 100

/-- The line `send_window_batch_to_python` writes: the mean timestamp, the UE, the serving
cell, the mean serving and neighbor SINRs, and the last point's coordinates. -/
structure BatchLine where
  avgTimestamp : BitVec 64
  ueId : Nat
  servingCell : Nat
  avgServingSinr : F64
  avgNeighborSinr : Fin 3 → F64
  x : ℚ
  y : ℚ

/-- `send_window_batch_to_python`: nothing for an empty window. -/
def sendWindowBatchToPython (w : UeAdaptiveWindow) : Option BatchLine :=
  w.buffer.getLast?.map fun last =>
    { avgTimestamp := w.buffer.foldl (fun s q => s + q.timestamp) 0 / BitVec.ofNat 64 w.count
      ueId := w.ueId
      servingCell := w.currentServingCell
      avgServingSinr := F64.mean (w.buffer.map (·.servingSINR))
      avgNeighborSinr := fun j => F64.mean (w.buffer.map (·.neighborSINR j))
      x := last.servingCellX
      y := last.servingCellY }

/-- `reset_window`. -/
def resetWindow (w : UeAdaptiveWindow) (newStartTime : BitVec 64) : UeAdaptiveWindow :=
  { w with buffer := [], windowStartTime := newStartTime, currentServingCell := 0,
           windowActive := false }

/-- `point->timestamp - window->window_start_time >= 5000`, in `uint64_t`. -/
def timeUp (start t : BitVec 64) : Bool := elapsedAtLeast 5000 start t

/-- The first point of a window sets its cell and start and activates it. -/
def seed (w : UeAdaptiveWindow) (p : MeasurementPoint) : UeAdaptiveWindow :=
  if w.count = 0 then
    { w with currentServingCell := p.servingCellID, windowStartTime := p.timestamp,
             windowActive := true }
  else w

/-- The body of `add_to_adaptive_window` once the UE's window is found or created: the
window after `p`, and the window handed to `send_window_batch_to_python`, if any. -/
def windowStep (w : UeAdaptiveWindow) (p : MeasurementPoint) :
    UeAdaptiveWindow × Option UeAdaptiveWindow :=
  if w.count = 0 ∨ w.currentServingCell = p.servingCellID then
    let w₂ := { seed w p with buffer := (seed w p).buffer ++ [p] }
    if timeUp w₂.windowStartTime p.timestamp then (resetWindow w₂ p.timestamp, some w₂)
    else (w₂, none)
  else
    let sent := if 0 < w.count then some w else none
    let w₁ := resetWindow w p.timestamp
    ({ w₁ with currentServingCell := p.servingCellID, windowActive := true,
               buffer := w₁.buffer ++ [p] }, sent)

/-- `find_ue_window`. -/
def findUeWindow (ws : List UeAdaptiveWindow) (ueId : Nat) : Option UeAdaptiveWindow :=
  findUe (·.ueId) ws ueId

/-- `find_ue_window`, else `create_ue_window`, which refuses past `MAX_UE_COUNT`. -/
def findOrCreateUeWindow (ws : List UeAdaptiveWindow) (ueId : Nat) :
    Option UeAdaptiveWindow :=
  getOrCreate (·.ueId) maxUeCount UeAdaptiveWindow.init ws ueId

/-- `add_to_adaptive_window`: the windows after `p`, and the window sent, if any. -/
def addToAdaptiveWindow (ws : List UeAdaptiveWindow) (p : MeasurementPoint) :
    List UeAdaptiveWindow × Option UeAdaptiveWindow :=
  match findOrCreateUeWindow ws p.ueID with
  | some w => ((storeUe (·.ueId) ws p.ueID (windowStep w p).1), (windowStep w p).2)
  | none => (ws, none)

/-- `add_to_adaptive_window` on each point in turn: the windows at the end, and the
windows sent, in order. -/
def runAdaptive (ws : List UeAdaptiveWindow) :
    List MeasurementPoint → List UeAdaptiveWindow × List UeAdaptiveWindow
  | [] => (ws, [])
  | p :: ps =>
    ((runAdaptive (addToAdaptiveWindow ws p).1 ps).1,
      (addToAdaptiveWindow ws p).2.toList ++ (runAdaptive (addToAdaptiveWindow ws p).1 ps).2)

/-- The points of UE `u` still buffered. -/
def openBuffer (ws : List UeAdaptiveWindow) (u : Nat) : List MeasurementPoint :=
  ((findUeWindow ws u).map (·.buffer)).getD []

/-! ## One window -/

/-- What holds of every window at every point of a run: an empty window is inactive; a
non-empty one is active, started at its first point's timestamp, and holds only points of
its serving cell. -/
structure WindowInv (w : UeAdaptiveWindow) : Prop where
  idle : w.buffer = [] → w.windowActive = false
  active : w.buffer ≠ [] → w.windowActive = true
  start : ∀ q ∈ w.buffer.head?, w.windowStartTime = q.timestamp
  cell : ∀ q ∈ w.buffer, q.servingCellID = w.currentServingCell

theorem WindowInv.init (u : Nat) : WindowInv (UeAdaptiveWindow.init u) :=
  ⟨fun _ => rfl, fun h => absurd rfl h, by simp [UeAdaptiveWindow.init],
    by simp [UeAdaptiveWindow.init]⟩

theorem WindowInv.reset (w : UeAdaptiveWindow) (t : BitVec 64) :
    WindowInv (resetWindow w t) :=
  ⟨fun _ => rfl, fun h => absurd rfl h, by simp [resetWindow], by simp [resetWindow]⟩

/-- A window seeded by `p` and then holding `p` keeps the invariant, when `p` is of its
cell or it was empty. -/
theorem WindowInv.append {w : UeAdaptiveWindow} (hw : WindowInv w) {p : MeasurementPoint}
    (hp : w.count = 0 ∨ w.currentServingCell = p.servingCellID) :
    WindowInv { seed w p with buffer := (seed w p).buffer ++ [p] } := by
  by_cases h0 : w.count = 0
  · have hb : w.buffer = [] := List.length_eq_zero.mp h0
    refine ⟨?_, ?_, ?_, ?_⟩ <;> simp [seed, h0, hb]
  · have hb : w.buffer ≠ [] := fun h => h0 (by simp [UeAdaptiveWindow.count, h])
    have hc : w.currentServingCell = p.servingCellID := hp.resolve_left h0
    refine ⟨?_, fun _ => by simpa [seed, h0] using hw.active hb, ?_, ?_⟩
    · simp [seed, h0]
    · obtain ⟨q, qs, hq⟩ := List.exists_cons_of_ne_nil hb
      simpa [seed, h0, hq] using hw.start q (by simp [hq])
    · simp only [seed, h0, if_false, List.mem_append, List.mem_singleton]
      rintro q (hq | rfl)
      exacts [hw.cell q hq, hc.symm]

/-- One step of a window: it keeps the invariant and its UE; what it sends is non-empty, of
its UE and keeps the invariant; and the points sent, then the points kept, are the points
held, then `p`. -/
theorem windowStep_ok {w : UeAdaptiveWindow} (hw : WindowInv w) (p : MeasurementPoint) :
    WindowInv (windowStep w p).1 ∧ (windowStep w p).1.ueId = w.ueId ∧
    (windowStep w p).2.toList.flatMap (·.buffer) ++ (windowStep w p).1.buffer =
      w.buffer ++ [p] ∧
    ∀ s ∈ (windowStep w p).2, s.ueId = w.ueId ∧ s.buffer ≠ [] ∧ WindowInv s := by
  unfold windowStep
  split
  · rename_i hp
    have hs : (seed w p).buffer = w.buffer ∧ (seed w p).ueId = w.ueId := by
      unfold seed; split <;> simp
    dsimp only
    split
    · refine ⟨WindowInv.reset _ _, by simp [resetWindow, hs.2], by simp [resetWindow, hs.1], ?_⟩
      simp only [Option.mem_def, Option.some.injEq]
      rintro s rfl
      exact ⟨hs.2, by simp, hw.append hp⟩
    · exact ⟨hw.append hp, hs.2, by simp [hs.1], by simp⟩
  · rename_i hp
    have h0 : 0 < w.count := Nat.pos_of_ne_zero fun h => hp (.inl h)
    dsimp only
    refine ⟨⟨by simp, fun _ => rfl, by simp [resetWindow], ?_⟩, rfl, ?_, ?_⟩
    · simp [resetWindow]
    · simp [h0, resetWindow]
    · simp only [h0, if_true, Option.mem_def, Option.some.injEq]
      rintro s rfl
      exact ⟨rfl, fun h => by simp [UeAdaptiveWindow.count, h] at h0, hw⟩

/-! ## The table -/

/-- The table's invariant: distinct UE ids, every window's invariant. -/
structure TableInv (ws : List UeAdaptiveWindow) : Prop where
  nodup : (ws.map (·.ueId)).Nodup
  windows : ∀ w ∈ ws, WindowInv w

/-- Room for the point's UE: it has a window, or the table is not full. -/
def Room (ws : List UeAdaptiveWindow) (u : Nat) : Prop :=
  u ∈ ws.map (·.ueId) ∨ ws.length < maxUeCount

theorem findOrCreateUeWindow_some {ws : List UeAdaptiveWindow} {u : Nat}
    (hr : Room ws u) : ∃ w, findOrCreateUeWindow ws u = some w := by
  unfold findOrCreateUeWindow getOrCreate
  split
  · exact ⟨_, rfl⟩
  · rename_i h
    have := (hr.resolve_left (findUe_eq_none.mp h))
    simp [this]

theorem findOrCreateUeWindow_spec {ws : List UeAdaptiveWindow} {u : Nat}
    {w : UeAdaptiveWindow} (ht : TableInv ws) (h : findOrCreateUeWindow ws u = some w) :
    w.ueId = u ∧ WindowInv w ∧ openBuffer ws u = w.buffer := by
  unfold findOrCreateUeWindow getOrCreate at h
  split at h
  · rename_i b hb
    cases h
    exact ⟨findUe_id hb, ht.windows w (List.mem_of_find?_eq_some hb), by
      simp [openBuffer, findUeWindow, hb]⟩
  · rename_i hb
    split at h <;> cases h
    exact ⟨rfl, WindowInv.init u, by simp [openBuffer, findUeWindow, hb, UeAdaptiveWindow.init]⟩

theorem openBuffer_storeUe {ws : List UeAdaptiveWindow} {u : Nat} {w : UeAdaptiveWindow}
    (hw : w.ueId = u) (v : Nat) :
    openBuffer (storeUe (·.ueId) ws u w) v = if v = u then w.buffer else openBuffer ws v := by
  unfold openBuffer findUeWindow
  rw [storeUe_find hw]
  split <;> rfl

/-- One step of the table, with room for the point's UE: the table keeps its invariant,
what is sent is non-empty, of the point's UE and keeps the invariant, and the point lands
after the sent points of its UE. -/
theorem addToAdaptiveWindow_ok {ws : List UeAdaptiveWindow} (ht : TableInv ws)
    (p : MeasurementPoint) (hr : Room ws p.ueID) :
    TableInv (addToAdaptiveWindow ws p).1 ∧
    (∀ s ∈ (addToAdaptiveWindow ws p).2, s.ueId = p.ueID ∧ s.buffer ≠ [] ∧ WindowInv s) ∧
    ∀ u, ((addToAdaptiveWindow ws p).2.toList.filter (·.ueId = u)).flatMap (·.buffer) ++
        openBuffer (addToAdaptiveWindow ws p).1 u =
      openBuffer ws u ++ [p].filter (·.ueID = u) := by
  obtain ⟨w, hw⟩ := findOrCreateUeWindow_some hr
  obtain ⟨hid, hwi, hbuf⟩ := findOrCreateUeWindow_spec ht hw
  obtain ⟨hinv, hsid, hcons, hsent⟩ := windowStep_ok hwi p
  have hsid' : (windowStep w p).1.ueId = p.ueID := hsid.trans hid
  simp only [addToAdaptiveWindow, hw]
  refine ⟨⟨nodup_storeUe hsid' ht.nodup, ?_⟩, fun s hs => ?_, fun u => ?_⟩
  · intro v hv
    rcases mem_storeUe hv with hvs | rfl
    · exact ht.windows v hvs
    · exact hinv
  · obtain ⟨h1, h2, h3⟩ := hsent s hs
    exact ⟨h1.trans hid, h2, h3⟩
  · rw [openBuffer_storeUe hsid']
    by_cases hu : u = p.ueID
    · subst hu
      have hf : (windowStep w p).2.toList.filter (·.ueId = p.ueID) = (windowStep w p).2.toList :=
        List.filter_eq_self.mpr fun s hs => by simpa using ((hsent s (by simpa using hs)).1.trans hid)
      simp [hf, hcons, hbuf]
    · have hf : (windowStep w p).2.toList.filter (·.ueId = u) = [] :=
        List.filter_eq_nil_iff.mpr fun s hs => by
          simpa [(hsent s (by simpa using hs)).1.trans hid] using Ne.symm hu
      simp [hf, hu, Ne.symm hu]

theorem windowStep_ueId (w : UeAdaptiveWindow) (p : MeasurementPoint) :
    (windowStep w p).1.ueId = w.ueId := by
  unfold windowStep seed
  split
  · dsimp only; split <;> split <;> rfl
  · rfl

theorem findOrCreateUeWindow_id {ws : List UeAdaptiveWindow} {u : Nat} {w : UeAdaptiveWindow}
    (h : findOrCreateUeWindow ws u = some w) : w.ueId = u :=
  getOrCreate_id (fun _ => rfl) h

/-- A step adds at most the point's UE to the table. -/
theorem ids_addToAdaptiveWindow (ws : List UeAdaptiveWindow) (p : MeasurementPoint) :
    ∀ v ∈ (addToAdaptiveWindow ws p).1.map (·.ueId), v ∈ ws.map (·.ueId) ∨ v = p.ueID := by
  unfold addToAdaptiveWindow
  split
  · rename_i w hw
    simp only [List.mem_map]
    rintro v ⟨a, ha, rfl⟩
    rcases mem_storeUe ha with ha | rfl
    · exact .inl ⟨a, ha, rfl⟩
    · exact .inr ((windowStep_ueId w p).trans (findOrCreateUeWindow_id hw))
  · exact fun v hv => .inl hv

/-! ## Runs -/

/-- Room for every UE of a run: the UEs with a window and the UEs of the points fit in
`MAX_UE_COUNT` together. -/
def Admits (ws : List UeAdaptiveWindow) (ps : List MeasurementPoint) : Prop :=
  (ws.map (·.ueId) ++ ps.map (·.ueID)).toFinset.card ≤ maxUeCount

theorem Admits.room {ws : List UeAdaptiveWindow} {p : MeasurementPoint}
    {ps : List MeasurementPoint} (ht : TableInv ws) (h : Admits ws (p :: ps)) :
    Room ws p.ueID := by
  by_cases hp : p.ueID ∈ ws.map (·.ueId)
  · exact .inl hp
  · refine .inr (Nat.lt_of_lt_of_le ?_ h)
    have hsub : insert p.ueID (ws.map (·.ueId)).toFinset ⊆
        (ws.map (·.ueId) ++ (p :: ps).map (·.ueID)).toFinset := by
      intro v; simp only [Finset.mem_insert, List.mem_toFinset, List.mem_append, List.map_cons,
        List.mem_cons]; tauto
    calc ws.length = (ws.map (·.ueId)).toFinset.card := by
            rw [List.toFinset_card_of_nodup ht.nodup, List.length_map]
      _ < (insert p.ueID (ws.map (·.ueId)).toFinset).card :=
            Finset.card_lt_card (Finset.ssubset_insert (by simpa using hp))
      _ ≤ _ := Finset.card_le_card hsub

theorem Admits.step {ws : List UeAdaptiveWindow} {p : MeasurementPoint}
    {ps : List MeasurementPoint} (h : Admits ws (p :: ps)) :
    Admits (addToAdaptiveWindow ws p).1 ps := by
  refine le_trans (Finset.card_le_card fun v => ?_) h
  simp only [List.mem_toFinset, List.mem_append, List.map_cons, List.mem_cons]
  rintro (hv | hv)
  · rcases ids_addToAdaptiveWindow ws p v hv with hv | rfl
    · exact .inl hv
    · exact .inr (.inl rfl)
  · exact .inr (.inr hv)

/-- A run over two lists of points is the run over the second from where the first ended. -/
theorem runAdaptive_append (ws : List UeAdaptiveWindow) (ps qs : List MeasurementPoint) :
    runAdaptive ws (ps ++ qs) =
      ((runAdaptive (runAdaptive ws ps).1 qs).1,
        (runAdaptive ws ps).2 ++ (runAdaptive (runAdaptive ws ps).1 qs).2) := by
  induction ps generalizing ws with
  | nil => rfl
  | cons p ps ih => simp [runAdaptive, ih]

/-- A run from a table with room for its UEs: the table keeps its invariant, every window
sent is non-empty and keeps the invariant, and each UE's sent batches, then its open
buffer, are its open buffer at the start followed by its points, in order. -/
theorem runAdaptive_ok {ws : List UeAdaptiveWindow} {ps : List MeasurementPoint}
    (ht : TableInv ws) (ha : Admits ws ps) :
    TableInv (runAdaptive ws ps).1 ∧
    (∀ s ∈ (runAdaptive ws ps).2, s.buffer ≠ [] ∧ WindowInv s) ∧
    ∀ u, ((runAdaptive ws ps).2.filter (·.ueId = u)).flatMap (·.buffer) ++
        openBuffer (runAdaptive ws ps).1 u = openBuffer ws u ++ ps.filter (·.ueID = u) := by
  induction ps generalizing ws with
  | nil => exact ⟨ht, by simp [runAdaptive], by simp [runAdaptive]⟩
  | cons p ps ih =>
    obtain ⟨ht₁, hs₁, hc₁⟩ := addToAdaptiveWindow_ok ht p (ha.room ht)
    obtain ⟨ht₂, hs₂, hc₂⟩ := ih ht₁ ha.step
    refine ⟨ht₂, fun s hs => ?_, fun u => ?_⟩
    · simp only [runAdaptive, List.mem_append, Option.mem_toList] at hs
      rcases hs with hs | hs
      exacts [(hs₁ s hs).2, hs₂ s hs]
    · simp only [runAdaptive, List.filter_append, List.flatMap_append, List.append_assoc, hc₂]
      rw [← List.append_assoc, hc₁, List.append_assoc, ← List.filter_append]
      rfl

/-- The line of a sent window: one line, of the window's UE and serving cell, at that
cell's coordinates. -/
theorem sendWindowBatchToPython_of_inv {s : UeAdaptiveWindow} (hs : s.buffer ≠ [])
    (hw : WindowInv s) (hpos : ∀ q ∈ s.buffer, q.Positioned) :
    ∃ l, sendWindowBatchToPython s = some l ∧ l.ueId = s.ueId ∧
      l.servingCell = s.currentServingCell ∧
      (l.x, l.y) = cellXY cellPositions s.currentServingCell := by
  obtain ⟨last, hl⟩ := Option.ne_none_iff_exists'.mp (mt List.getLast?_eq_none_iff.mp hs)
  have hmem := List.mem_of_getLast?_eq_some hl
  simp only [sendWindowBatchToPython, hl, Option.map_some', Option.some.injEq, exists_eq_left',
    true_and]
  rw [← hw.cell last hmem]
  exact hpos last hmem

/-- What a run from no windows over the points `ps` keeps: distinct window ids; each UE's
sent batches, then its open buffer, are its points in order; every window sent is non-empty,
of one serving cell, and its line is at that cell's coordinates; every open window keeps
`WindowInv`. -/
structure RunSound (ps : List MeasurementPoint)
    (r : List UeAdaptiveWindow × List UeAdaptiveWindow) : Prop where
  nodup : (r.1.map (·.ueId)).Nodup
  conserve : ∀ u, (r.2.filter (·.ueId = u)).flatMap (·.buffer) ++ openBuffer r.1 u =
    ps.filter (·.ueID = u)
  sent : ∀ s ∈ r.2, s.buffer ≠ [] ∧
    (∀ q ∈ s.buffer, q.servingCellID = s.currentServingCell) ∧
    ∃ l, sendWindowBatchToPython s = some l ∧ l.ueId = s.ueId ∧
      l.servingCell = s.currentServingCell ∧
      (l.x, l.y) = cellXY cellPositions s.currentServingCell
  windows : ∀ w ∈ r.1, WindowInv w

/-- A run from no windows over at most `MAX_UE_COUNT` UEs' positioned points is sound. -/
theorem runAdaptive_sound (ps : List MeasurementPoint)
    (hcap : (ps.map (·.ueID)).toFinset.card ≤ maxUeCount) (hpos : ∀ p ∈ ps, p.Positioned) :
    RunSound ps (runAdaptive [] ps) := by
  obtain ⟨ht, hs, hc⟩ := @runAdaptive_ok [] ps ⟨List.nodup_nil, by simp⟩
    (by simpa [Admits] using hcap)
  have hc' : ∀ u, ((runAdaptive [] ps).2.filter (·.ueId = u)).flatMap (·.buffer) ++
      openBuffer (runAdaptive [] ps).1 u = ps.filter (·.ueID = u) := fun u => by
    simpa [openBuffer, findUeWindow, findUe] using hc u
  refine ⟨ht.nodup, hc', fun s hsent => ?_, ht.windows⟩
  obtain ⟨hne, hw⟩ := hs s hsent
  refine ⟨hne, hw.cell, sendWindowBatchToPython_of_inv hne hw fun q hq => hpos q ?_⟩
  have : q ∈ ps.filter (·.ueID = s.ueId) := by
    rw [← hc' s.ueId]
    exact List.mem_append_left _ (List.mem_flatMap.mpr ⟨s, List.mem_filter.mpr ⟨hsent, by simp⟩, hq⟩)
  exact (List.mem_filter.mp this).1

theorem adaptive_windows_sound (ps : List MeasurementPoint)
    (hcap : (ps.map (·.ueID)).toFinset.card ≤ maxUeCount) (hpos : ∀ p ∈ ps, p.Positioned) :
    ((runAdaptive [] ps).1.map (·.ueId)).Nodup ∧
    (∀ u, ((runAdaptive [] ps).2.filter (·.ueId = u)).flatMap (·.buffer) ++
        openBuffer (runAdaptive [] ps).1 u = ps.filter (·.ueID = u)) ∧
    (∀ s ∈ (runAdaptive [] ps).2, s.buffer ≠ [] ∧
      (∀ q ∈ s.buffer, q.servingCellID = s.currentServingCell) ∧
      ∃ l, sendWindowBatchToPython s = some l ∧ l.ueId = s.ueId ∧
        l.servingCell = s.currentServingCell ∧
        (l.x, l.y) = cellXY cellPositions s.currentServingCell) ∧
    ∀ w ∈ (runAdaptive [] ps).1, WindowInv w :=
  have h := runAdaptive_sound ps hcap hpos
  ⟨h.nodup, h.conserve, h.sent, h.windows⟩

/-- A point of UE 1 in cell 2 at time `t`, at cell 2's coordinates. -/
def cellTwoPoint (t : BitVec 64) : MeasurementPoint := ⟨t, 1, 2, num 10, fun _ => num 0, 800, 800⟩

theorem adaptive_windows_sound_two_points :
    ([cellTwoPoint 0, cellTwoPoint 6000].map (·.ueID)).toFinset.card ≤ maxUeCount ∧
    (∀ p ∈ [cellTwoPoint 0, cellTwoPoint 6000], p.Positioned) ∧
    ((runAdaptive [] [cellTwoPoint 0, cellTwoPoint 6000]).1.map (·.ueId)).Nodup :=
  have hcap : ([cellTwoPoint 0, cellTwoPoint 6000].map (·.ueID)).toFinset.card ≤ maxUeCount := by
    decide
  have hpos : ∀ p ∈ [cellTwoPoint 0, cellTwoPoint 6000], p.Positioned := by
    simp only [List.mem_cons, List.not_mem_nil, or_false]
    rintro p (rfl | rfl) <;> rfl
  ⟨hcap, hpos, (adaptive_windows_sound _ hcap hpos).1⟩

/-! ## The 200 slots and the time rule -/

/-- A window of `p`'s UE and cell, started at `p`, holding `k + 1` copies of `p`. -/
def pile (p : MeasurementPoint) (k : Nat) : UeAdaptiveWindow :=
  ⟨p.ueID, p.servingCellID, p.timestamp, true, List.replicate (k + 1) p⟩

theorem timeUp_self (t : BitVec 64) : timeUp t t = false :=
  elapsedAtLeast_self (by decide) (by decide) t

theorem addToAdaptiveWindow_pile (p : MeasurementPoint) (k : Nat) :
    addToAdaptiveWindow [pile p k] p = ([pile p (k + 1)], none) := by
  have hf : findOrCreateUeWindow [pile p k] p.ueID = some (pile p k) := by
    simp [findOrCreateUeWindow, getOrCreate, findUe, pile]
  have hw : windowStep (pile p k) p = (pile p (k + 1), none) := by
    simp [windowStep, seed, pile, UeAdaptiveWindow.count, timeUp_self, List.replicate_succ']
  simp only [addToAdaptiveWindow, hf, hw]
  simp [storeUe, findUe, setUe, pile]

theorem runAdaptive_pile (p : MeasurementPoint) (k m : Nat) :
    runAdaptive [pile p k] (List.replicate m p) = ([pile p (k + m)], []) := by
  induction m generalizing k with
  | zero => rfl
  | succ m ih =>
    simp only [List.replicate_succ, runAdaptive, addToAdaptiveWindow_pile, ih, Option.toList_none,
      List.nil_append, Nat.add_right_comm k 1 m, Nat.add_assoc]

/-- Equal points never close their window: after `n + 1` of them, one window holds them
all, whatever `n`, past its 200 slots. -/
theorem runAdaptive_replicate (p : MeasurementPoint) (n : Nat) :
    runAdaptive [] (List.replicate (n + 1) p) = ([pile p n], []) := by
  have h₀ : addToAdaptiveWindow [] p = ([pile p 0], none) := by
    simp [addToAdaptiveWindow, findOrCreateUeWindow, getOrCreate, findUe, maxUeCount, storeUe,
      windowStep, seed, UeAdaptiveWindow.init, UeAdaptiveWindow.count, timeUp_self, pile]
  simpa [List.replicate_succ, runAdaptive, h₀] using runAdaptive_pile p 0 n

/-- Two hundred and one points of UE 1, cell 2, time 0: the window holds 201, so the last
`window->buffer[window->count++] = *point` stored at index 200. -/
theorem window_holds_201_points :
    (runAdaptive [] (List.replicate 201 (cellTwoPoint 0))).1.map UeAdaptiveWindow.count = [201] := by
  rw [runAdaptive_replicate (cellTwoPoint 0) 200]
  rfl

/-- UE 1's window started at 5000 with one point of cell 2; a point of the same UE and cell
stamped 0 closes and sends it. -/
theorem earlier_point_closes_window :
    (runAdaptive [] [cellTwoPoint 5000, cellTwoPoint 0]).2.map UeAdaptiveWindow.count = [2] := by
  decide

/-! ## The mean timestamp -/

/-- A timestamp `log_kpm_measurements` makes, `collectStartTime / 1000`, is at most
`(2^64 - 1) / 1000`. -/
theorem div_thousand_toNat_le (c : BitVec 64) : (c / 1000).toNat ≤ (2 ^ 64 - 1) / 1000 := by
  rw [BitVec.toNat_udiv]
  exact Nat.div_le_div_right (Nat.le_pred_of_lt c.isLt)

/-- The loop `avg_timestamp += buffer[i].timestamp` from `a` adds exactly while the exact
sum stays below `2^64`. -/
theorem foldl_timestamp_toNat (l : List MeasurementPoint) (a : BitVec 64)
    (h : a.toNat + (l.map (·.timestamp.toNat)).sum < 2 ^ 64) :
    (l.foldl (fun (s : BitVec 64) (q : MeasurementPoint) => s + q.timestamp) a).toNat =
      a.toNat + (l.map (·.timestamp.toNat)).sum := by
  induction l generalizing a with
  | nil => simp
  | cons p l ih =>
    simp only [List.map_cons, List.sum_cons] at h ⊢
    rw [List.foldl_cons, ih _ (by rw [BitVec.toNat_add_of_lt (by omega)]; omega),
      BitVec.toNat_add_of_lt (by omega), Nat.add_assoc]

theorem foldl_timestamp_toNat_zero (l : List MeasurementPoint)
    (h : (l.map (·.timestamp.toNat)).sum < 2 ^ 64) :
    (l.foldl (fun (s : BitVec 64) (q : MeasurementPoint) => s + q.timestamp) 0).toNat =
      (l.map (·.timestamp.toNat)).sum := by
  simpa using foldl_timestamp_toNat l 0 (by simpa using h)

/-- Some value of a non-empty list is at most the floor of its mean. -/
theorem exists_le_sum_div (l : List Nat) (h : l ≠ []) : ∃ x ∈ l, x ≤ l.sum / l.length := by
  by_contra hc
  push_neg at hc
  have hge : l.length * (l.sum / l.length + 1) ≤ l.sum := List.card_nsmul_le_sum l _ hc
  have hlt := Nat.lt_mul_div_succ l.sum (List.length_pos.mpr h)
  omega

/-- Some value of a non-empty list is at least the floor of its mean. -/
theorem exists_sum_div_le (l : List Nat) (h : l ≠ []) : ∃ x ∈ l, l.sum / l.length ≤ x := by
  by_contra hc
  push_neg at hc
  obtain ⟨y, hy⟩ := List.exists_mem_of_ne_nil l h
  have hq : 1 ≤ l.sum / l.length := by have := hc y hy; omega
  have hle : l.sum ≤ l.length * (l.sum / l.length - 1) :=
    List.sum_le_card_nsmul l _ fun x hx => by have := hc x hx; omega
  exact lt_irrefl _ <| calc
    l.sum ≤ l.length * (l.sum / l.length - 1) := hle
    _ < l.length * (l.sum / l.length) :=
      (Nat.mul_lt_mul_left (List.length_pos.mpr h)).mpr (by omega)
    _ ≤ l.sum := Nat.mul_div_le l.sum l.length

/-- The timestamps of at most 200 points made by `log_kpm_measurements` sum below `2^64`. -/
theorem timestamp_sum_lt {ps : List MeasurementPoint} (hcap : ps.length ≤ bufferCapacity)
    (hts : ∀ p ∈ ps, ∃ collectStartTime : BitVec 64, p.timestamp = collectStartTime / 1000) :
    (ps.map (·.timestamp.toNat)).sum < 2 ^ 64 :=
  calc (ps.map (·.timestamp.toNat)).sum
      ≤ (ps.map (·.timestamp.toNat)).length * ((2 ^ 64 - 1) / 1000) := by
        refine List.sum_le_card_nsmul _ _ fun x hx => ?_
        obtain ⟨p, hp, rfl⟩ := List.mem_map.mp hx
        obtain ⟨c, hc⟩ := hts p hp
        exact hc ▸ div_thousand_toNat_le c
    _ ≤ 200 * ((2 ^ 64 - 1) / 1000) := by
        rw [List.length_map]
        exact Nat.mul_le_mul_right _ hcap
    _ < 2 ^ 64 := by decide

/-- A window of `1..200` points stamped `collectStartTime / 1000`: no partial sum of the
timestamp loop wraps, and the line's timestamp is the floor of the exact mean, at least the
earliest point's and at most the latest's. -/
theorem batch_timestamp_mean (w : UeAdaptiveWindow) (hpos : 0 < w.count)
    (hcap : w.count ≤ bufferCapacity)
    (hts : ∀ p ∈ w.buffer, ∃ collectStartTime : BitVec 64, p.timestamp = collectStartTime / 1000) :
    (∀ k ≤ w.count,
      ((w.buffer.take k).foldl (fun (s : BitVec 64) (q : MeasurementPoint) => s + q.timestamp)
        0).toNat = ((w.buffer.take k).map (·.timestamp.toNat)).sum) ∧
    ∃ line, sendWindowBatchToPython w = some line ∧
      line.avgTimestamp.toNat = (w.buffer.map (·.timestamp.toNat)).sum / w.count ∧
      (∃ p ∈ w.buffer, p.timestamp ≤ line.avgTimestamp) ∧
      ∃ q ∈ w.buffer, line.avgTimestamp ≤ q.timestamp := by
  have hsum := timestamp_sum_lt hcap hts
  have hne : w.buffer.map (·.timestamp.toNat) ≠ [] := by
    simpa [← List.length_pos] using hpos
  have hlen : (w.buffer.map (·.timestamp.toNat)).length = w.count := List.length_map _ _
  have hcount : (BitVec.ofNat 64 w.count).toNat = w.count :=
    Nat.mod_eq_of_lt (by unfold bufferCapacity at hcap; omega)
  have havg : (w.buffer.foldl (fun s q => s + q.timestamp) 0 / BitVec.ofNat 64 w.count).toNat =
      (w.buffer.map (·.timestamp.toNat)).sum / w.count := by
    rw [BitVec.toNat_udiv, foldl_timestamp_toNat_zero _ hsum, hcount]
  refine ⟨fun k _ => foldl_timestamp_toNat_zero _ ?_, ?_⟩
  · -- a prefix sums to at most the whole
    have := List.sum_take_add_sum_drop (w.buffer.map (·.timestamp.toNat)) k
    rw [← List.map_take] at this
    omega
  · obtain ⟨last, hlast⟩ := Option.ne_none_iff_exists'.mp
      (mt List.getLast?_eq_none_iff.mp (by simpa using hne))
    simp only [sendWindowBatchToPython, hlast, Option.map_some', Option.some.injEq,
      exists_eq_left']
    refine ⟨havg, ?_, ?_⟩
    · obtain ⟨x, hx, hle⟩ := exists_le_sum_div _ hne
      obtain ⟨p, hp, rfl⟩ := List.mem_map.mp hx
      exact ⟨p, hp, BitVec.le_def.mpr (by rw [havg, ← hlen]; exact hle)⟩
    · obtain ⟨x, hx, hle⟩ := exists_sum_div_le _ hne
      obtain ⟨q, hq, rfl⟩ := List.mem_map.mp hx
      exact ⟨q, hq, BitVec.le_def.mpr (by rw [havg, ← hlen]; exact hle)⟩

/-- UE 1's window of two points, stamped from the largest `collectStartTime` and from 0:
the line's timestamp is half the largest, with no wrap. -/
theorem batch_timestamp_mean_extremes :
    ∃ line, sendWindowBatchToPython
        ⟨1, 2, 0, true, [cellTwoPoint (-1 / 1000), cellTwoPoint (0 / 1000)]⟩ = some line ∧
      line.avgTimestamp.toNat = (2 ^ 64 - 1) / 1000 / 2 := by
  obtain ⟨-, line, hline, havg, -⟩ := batch_timestamp_mean
    ⟨1, 2, 0, true, [cellTwoPoint (-1 / 1000), cellTwoPoint (0 / 1000)]⟩ (by decide) (by decide)
    (by simp only [List.mem_cons, List.not_mem_nil, or_false]
        rintro p (rfl | rfl) <;> exact ⟨_, rfl⟩)
  exact ⟨line, hline, havg.trans (by decide)⟩

end UeLoc.Adaptive
