import UeLocalization.Basic

/-!
# The record walk of `kpm_monitor_xapp_v1.c`

`log_kpm_measurements` of the first monitor walks each item's `meas_record_lst` with its
own index `j` (`recordLoop`). A serving record prints the pending neighbors and starts its
UE; a neighbor record of the current UE is stored with the record after it,
`meas_record_lst[j + 1]`, and `j` moves on by two. Nothing checks that `j + 1` is below
`meas_record_len`. The state logs, as a ghost, every read of `meas_record_lst`
(`V1State.reads`).

* `recordLoop_reads`: a walk reads its records, and at most one more: the one past the end
  of a neighbor list of odd length;
* `reads_in_bounds_or_odd_neighbor`: over every report, every read is below
  `meas_record_len`, or is that one past the end;
* `odd_neighbor_list_read_past_end`: a serving record of UE 1 followed by a neighbor list of
  UE 1 with one record reads index 1 of that one-record list.

A neighbor record is stored only for the UE of the last serving record (`current_ue`), 20 at
most, and printed when the next serving record or the end of the report comes. The walk
takes the report's `events` one by one (`recordLoop_view`), and so:

* `v1_monitor_lines`: over every report, the monitor prints, for each serving record in the
  order of the walk, its UE line, then one neighbors line with the first 20 entries of the
  neighbor lists named for its UE that come before the next serving record, if there is any
  (`block`).
-/

namespace UeLoc.Monitor.V1

open F64 (num nan)

/-- The `real_val` member of a record: its value for `REAL_MEAS_VALUE`. For another record
the union holds other bits, which the model does not know; `nan` stands for them. -/
def realVal : MeasRecord → F64
  | .real x => x
  | _ => nan

/-- The `int_val` member of a record: its value for `INTEGER_MEAS_VALUE`, `0` standing for
the bits of another. -/
def intVal : MeasRecord → Nat
  | .integer n => n
  | _ => 0

/-- A line `log_kpm_measurements` prints. -/
inductive LogLine where
  /-- `UE %d - Cell %d: %.2f dB`. -/
  | ue (ueID cellID : Nat) (servingSinr : F64)
  /-- `Neighbors: Cell %d (%.2f dB), ...`. -/
  | neighbors (ns : List (Nat × F64))

/-- The locals of `log_kpm_measurements`: `current_ue` and
`neighbors[0..neighbor_count)` as `(neighbor_id, sinr)`, with the lines printed and, as a
ghost, each read of `meas_record_lst[k]` of item `i` as `(i, k)`. -/
structure V1State where
  currentUe : Int
  neighbors : List (Nat × F64)
  log : List LogLine
  reads : List (Nat × Nat)

/-- `current_ue = -1`, `neighbor_count = 0`. -/
def V1State.init : V1State := ⟨-1, [], [], []⟩

/-- A read of `meas_record_lst[k]` of item `i`. -/
def V1State.read (s : V1State) (i k : Nat) : V1State := { s with reads := s.reads ++ [(i, k)] }

/-- `if (current_ue != -1 && neighbor_count > 0)`: print the neighbors, and empty them. -/
def flushNeighbors (s : V1State) : V1State :=
  if s.currentUe ≠ -1 ∧ s.neighbors ≠ [] then
    { s with log := s.log ++ [.neighbors s.neighbors], neighbors := [] }
  else s

/-- The serving branch on `record_item`: the pending neighbors printed, then UE
`info.ueID` started with `record_item.real_val`. -/
def servingRecord (info : InfoObj) (r : MeasRecord) (s : V1State) : V1State :=
  let s := flushNeighbors s
  { s with currentUe := info.ueID, log := s.log ++ [.ue info.ueID info.cellID (realVal r)] }

/-- The neighbor branch on `meas_record_lst[j]` (`r`), `next` being the records after it:
a list of the current UE, while fewer than 20 neighbors are stored, stores `r`'s SINR with
the id `meas_record_lst[j + 1]`, read even past the end (`noValue` stands for what is
there). -/
def neighborRecord (i j : Nat) (info : InfoObj) (r : MeasRecord) (next : List MeasRecord)
    (s : V1State) : V1State :=
  if (info.ueID : Int) = s.currentUe ∧ s.neighbors.length < 20 then
    let s := s.read i (j + 1)
    { s with neighbors := s.neighbors ++ [(intVal (next.headD .noValue), realVal r)] }
  else s

/-- The inner loop `for (j = ...; j < meas_record_len;)` of item `i` of type `t`, from `j`,
`rest` being `meas_record_lst[j..meas_record_len)`: `record_item` is read first, then a
serving or other record moves `j` on by one and a neighbor record by two. -/
def recordLoop (i : Nat) (t : MeasType) : Nat → List MeasRecord → V1State → V1State
  | _, [], s => s
  | j, r :: rest, s =>
    let s := s.read i j
    match t with
    | .name (.serving info) => recordLoop i t (j + 1) rest (servingRecord info r s)
    | .name (.neigh info) =>
      let s := neighborRecord i j info r rest s
      match rest with
      | [] => s
      | _ :: rest => recordLoop i t (j + 2) rest s
    | _ => recordLoop i t (j + 1) rest s

/-- The outer loop over the items from index `i`. -/
def itemLoop : Nat → List (MeasType × List MeasRecord) → V1State → V1State
  | _, [], s => s
  | i, (t, d) :: items, s => itemLoop (i + 1) items (recordLoop i t 0 d s)

/-- `log_kpm_measurements(msg_frm_1)`: nothing for a report whose two lists differ in
length; otherwise the walk, then the last UE's neighbors printed. -/
def logKpmMeasurements (msg : IndMsgFormat1) : V1State :=
  if msg.lenOk then flushNeighbors (itemLoop 0 (msg.measInfoLst.zip msg.measDataLst) V1State.init)
  else V1State.init

/-! ## The reads -/

@[simp] theorem read_reads (s : V1State) (i k : Nat) : (s.read i k).reads = s.reads ++ [(i, k)] :=
  rfl

@[simp] theorem flushNeighbors_reads (s : V1State) : (flushNeighbors s).reads = s.reads := by
  unfold flushNeighbors; split <;> rfl

@[simp] theorem servingRecord_reads (info : InfoObj) (r : MeasRecord) (s : V1State) :
    (servingRecord info r s).reads = s.reads := flushNeighbors_reads s

theorem neighborRecord_reads (i j : Nat) (info : InfoObj) (r : MeasRecord)
    (next : List MeasRecord) (s : V1State) :
    (neighborRecord i j info r next s).reads = s.reads ∨
      (neighborRecord i j info r next s).reads = s.reads ++ [(i, j + 1)] := by
  unfold neighborRecord; split
  · exact .inr rfl
  · exact .inl rfl

/-! ### One record -/

section Branches

variable {t : MeasType} {info : InfoObj} (i j : Nat) (r : MeasRecord) (s : V1State)

theorem recordLoop_serving (ht : t = .name (.serving info)) (rest : List MeasRecord) :
    recordLoop i t j (r :: rest) s =
      recordLoop i t (j + 1) rest (servingRecord info r (s.read i j)) := by
  subst ht; rfl

theorem recordLoop_neigh_last (ht : t = .name (.neigh info)) :
    recordLoop i t j [r] s = neighborRecord i j info r [] (s.read i j) := by
  subst ht; rfl

theorem recordLoop_neigh (ht : t = .name (.neigh info)) (r' : MeasRecord)
    (rest : List MeasRecord) :
    recordLoop i t j (r :: r' :: rest) s =
      recordLoop i t (j + 2) rest (neighborRecord i j info r (r' :: rest) (s.read i j)) := by
  subst ht; rfl

theorem recordLoop_other (hs : ∀ info, t ≠ .name (.serving info))
    (hn : ∀ info, t ≠ .name (.neigh info)) (rest : List MeasRecord) :
    recordLoop i t j (r :: rest) s = recordLoop i t (j + 1) rest (s.read i j) := by
  match t, hs, hn with
  | .name (.serving info), hs, _ => exact absurd rfl (hs info)
  | .name (.neigh info), _, hn => exact absurd rfl (hn info)
  | .name .other, _, _ => rfl
  | .id _, _, _ => rfl

/-- The reads of the neighbor branch on record `j`: `j`, then perhaps `j + 1`. -/
theorem mem_neighborRecord_reads {next : List MeasRecord} {p : Nat × Nat}
    (hp : p ∈ (neighborRecord i j info r next (s.read i j)).reads) :
    p ∈ s.reads ∨ p = (i, j) ∨ p = (i, j + 1) := by
  rcases neighborRecord_reads i j info r next (s.read i j) with h | h <;>
    simp only [h, read_reads, List.mem_append, List.mem_singleton] at hp
  · exact hp.imp_right .inl
  · rcases hp with (hp | hp) | hp
    exacts [.inl hp, .inr (.inl hp), .inr (.inr hp)]

end Branches

/-! ### The walk -/

/-- A read `meas_record_lst[k]` of an item of type `t` and records `d`: in bounds, or the
one past the end of a neighbor list of odd length. -/
def ReadOk (t : MeasType) (d : List MeasRecord) (k : Nat) : Prop :=
  k < d.length ∨ (k = d.length ∧ d.length % 2 = 1 ∧ ∃ info, t = .name (.neigh info))

/-- The walk of item `i` from `j`, with `len = j + rest.length` records in all, adds reads
of item `i` only, each below `len`, or at `len` for a neighbor list whose records from `j`
are odd in number. -/
theorem recordLoop_reads (i : Nat) (t : MeasType) {len : Nat} (j : Nat) (rest : List MeasRecord)
    (s : V1State) (hlen : j + rest.length = len) :
    ∀ p ∈ (recordLoop i t j rest s).reads, p ∈ s.reads ∨ p.1 = i ∧
      (p.2 < len ∨ p.2 = len ∧ rest.length % 2 = 1 ∧ ∃ info, t = .name (.neigh info)) := by
  induction j, rest, s using recordLoop.induct i t with
  | case1 => exact fun p hp => .inl hp
  | case2 j r rest s s₁ info ht ih =>
    -- a serving record: read `j`, then the walk goes on from `j + 1`
    intro p hp
    simp only [List.length_cons] at hlen
    rw [recordLoop_serving i j r s ht] at hp
    rcases ih (by omega) p hp with hp | ⟨hi, hk | ⟨-, -, info', h⟩⟩
    · simp only [s₁, servingRecord_reads, read_reads, List.mem_append, List.mem_singleton] at hp
      rcases hp with hp | rfl
      exacts [.inl hp, .inr ⟨rfl, .inl (by simp; omega)⟩]
    · exact .inr ⟨hi, .inl hk⟩
    · exact absurd (ht.symm.trans h) (by simp)
  | case3 j r s info ht =>
    -- the last record of a neighbor list: read `j`, and perhaps `j + 1 = len`
    intro p hp
    simp only [List.length_singleton] at hlen
    rw [recordLoop_neigh_last i j r s ht] at hp
    rcases mem_neighborRecord_reads i j r s hp with hp | rfl | rfl
    exacts [.inl hp, .inr ⟨rfl, .inl (by simp; omega)⟩,
      .inr ⟨rfl, .inr ⟨by simp; omega, rfl, info, ht⟩⟩]
  | case4 j r s _ info ht r' rest _ ih =>
    -- a neighbor record with one after it: `j` and perhaps `j + 1` are both in bounds
    intro p hp
    simp only [List.length_cons] at hlen
    rw [recordLoop_neigh i j r s ht] at hp
    rcases ih (by omega) p hp with hp | ⟨hi, hk | ⟨hk, hodd, hn⟩⟩
    · rcases mem_neighborRecord_reads i j r s hp with hp | rfl | rfl
      exacts [.inl hp, .inr ⟨rfl, .inl (by simp; omega)⟩, .inr ⟨rfl, .inl (by simp; omega)⟩]
    · exact .inr ⟨hi, .inl hk⟩
    · exact .inr ⟨hi, .inr ⟨hk, by simp only [List.length_cons]; omega, hn⟩⟩
  | case5 j r rest s s₁ hs hn ih =>
    -- any other record: read `j`, then the walk goes on from `j + 1`
    intro p hp
    simp only [List.length_cons] at hlen
    rw [recordLoop_other i j r s hs hn] at hp
    rcases ih (by omega) p hp with hp | ⟨hi, hk | ⟨-, -, info', h⟩⟩
    · simp only [s₁, read_reads, List.mem_append, List.mem_singleton] at hp
      rcases hp with hp | rfl
      exacts [.inl hp, .inr ⟨rfl, .inl (by simp; omega)⟩]
    · exact .inr ⟨hi, .inl hk⟩
    · exact absurd h (hn info')

/-- The walk over the items from index `i0` adds only reads `(i0 + n, k)` of an item `n`
of the list that are `ReadOk`. -/
theorem itemLoop_reads (i0 : Nat) (items : List (MeasType × List MeasRecord)) (s : V1State) :
    ∀ p ∈ (itemLoop i0 items s).reads, p ∈ s.reads ∨
      ∃ n t d, items[n]? = some (t, d) ∧ p.1 = i0 + n ∧ ReadOk t d p.2 := by
  induction items generalizing i0 s with
  | nil => exact fun p hp => .inl hp
  | cons item items ih =>
    obtain ⟨t, d⟩ := item
    intro p hp
    rcases ih (i0 + 1) _ p hp with hp | ⟨n, t', d', hn, hi, hok⟩
    · rcases recordLoop_reads i0 t 0 d s (Nat.zero_add _) p hp with hp | ⟨hi, hok⟩
      exacts [.inl hp, .inr ⟨0, t, d, List.getElem?_cons_zero, hi, hok⟩]
    · exact .inr ⟨n + 1, t', d', by rw [List.getElem?_cons_succ]; exact hn, by omega, hok⟩

/-- Over every report, every read of `meas_record_lst[k]` of item `i` is below that item's
`meas_record_len`, or is the one at `meas_record_len` of a neighbor list of odd length. -/
theorem reads_in_bounds_or_odd_neighbor (msg : IndMsgFormat1) :
    ∀ p ∈ (logKpmMeasurements msg).reads, ∃ t d,
      msg.measInfoLst[p.1]? = some t ∧ msg.measDataLst[p.1]? = some d ∧
      (p.2 < d.length ∨ p.2 = d.length ∧ d.length % 2 = 1 ∧ ∃ info, t = .name (.neigh info)) := by
  intro p hp
  unfold logKpmMeasurements at hp
  split at hp
  · rw [flushNeighbors_reads] at hp
    rcases itemLoop_reads 0 _ V1State.init p hp with hp | ⟨n, t, d, hn, hi, hok⟩
    · simp [V1State.init] at hp
    · rw [List.getElem?_zip_eq_some] at hn
      rw [Nat.zero_add] at hi
      exact ⟨t, d, hi ▸ hn.1, hi ▸ hn.2, hok⟩
  · simp [V1State.init] at hp

/-- On that report, the walk reads `meas_record_lst[1]` of the neighbor list, whose
`meas_record_len` is 1. -/
theorem odd_neighbor_list_read_past_end :
    oddNeighborReport.lenOk = true ∧
      oddNeighborReport.measDataLst.map List.length = [1, 1] ∧
      (logKpmMeasurements oddNeighborReport).reads = [(0, 0), (1, 0), (1, 1)] := by
  decide

/-- Its read of index 1 of the neighbor list is the one past the end of an odd list. -/
theorem reads_in_bounds_or_odd_neighbor_past_end :
    ∃ t d, oddNeighborReport.measInfoLst[1]? = some t ∧ oddNeighborReport.measDataLst[1]? = some d ∧
      (1 < d.length ∨ 1 = d.length ∧ d.length % 2 = 1 ∧ ∃ info, t = .name (.neigh info)) :=
  reads_in_bounds_or_odd_neighbor oddNeighborReport (1, 1) (by decide)

/-! ## The printed lines -/

/-- What the walk meets, in order: a serving record, or a neighbor record with the records
after it in its list. -/
inductive Event where
  | serving (info : InfoObj) (r : MeasRecord)
  | neighbor (info : InfoObj) (r : MeasRecord) (next : List MeasRecord)

/-- The neighbor records of a list, `j` moving on by two. -/
def neighborEvents (info : InfoObj) : List MeasRecord → List Event
  | [] => []
  | [r] => [.neighbor info r []]
  | r :: r' :: rest => .neighbor info r (r' :: rest) :: neighborEvents info rest

/-- The events of an item. -/
def itemEvents : MeasType → List MeasRecord → List Event
  | .name (.serving info), d => d.map (.serving info)
  | .name (.neigh info), d => neighborEvents info d
  | _, _ => []

/-- The events of a report, nothing for one whose two lists differ in length. -/
def events (msg : IndMsgFormat1) : List Event :=
  if msg.lenOk then (msg.measInfoLst.zip msg.measDataLst).flatMap fun it => itemEvents it.1 it.2
  else []

/-- The events before the first serving one, and each serving one with the events up to the
next. -/
def splitServing : List Event → List Event × List (InfoObj × MeasRecord × List Event)
  | [] => ([], [])
  | .serving info r :: es => ([], (info, r, (splitServing es).1) :: (splitServing es).2)
  | e :: es => (e :: (splitServing es).1, (splitServing es).2)

/-- The entry a neighbor event stores for UE `ue`, when its list is named for `ue`. -/
def pairFor (ue : Nat) : Event → Option (Nat × F64)
  | .neighbor info r next =>
    if info.ueID = ue then some (intVal (next.headD .noValue), realVal r) else none
  | .serving _ _ => none

/-- A neighbors line, unless there is no neighbor. -/
def neighborsLine (ns : List (Nat × F64)) : List LogLine := if ns = [] then [] else [.neighbors ns]

/-- The lines of a serving record and of the events up to the next one: its UE line, then the
first 20 entries named for its UE. -/
def block (b : InfoObj × MeasRecord × List Event) : List LogLine :=
  .ue b.1.ueID b.1.cellID (realVal b.2.1) ::
    neighborsLine ((b.2.2.filterMap (pairFor b.1.ueID)).take 20)

/-- One event, as the walk takes it. -/
def stepE (s : V1State) : Event → V1State
  | .serving info r => servingRecord info r s
  | .neighbor info r next => neighborRecord 0 0 info r next s

/-- A state without its ghost reads. -/
def V1State.view (s : V1State) : Int × List (Nat × F64) × List LogLine :=
  (s.currentUe, s.neighbors, s.log)

section View

variable {s s' : V1State} (h : s.view = s'.view)
include h

theorem flushNeighbors_view : (flushNeighbors s).view = (flushNeighbors s').view := by
  simp only [V1State.view, Prod.mk.injEq] at h ⊢
  obtain ⟨h1, h2, h3⟩ := h
  simp only [flushNeighbors, h1, h2, h3]
  split <;> simp [h1, h2, h3]

theorem servingRecord_view (info : InfoObj) (r : MeasRecord) :
    (servingRecord info r s).view = (servingRecord info r s').view := by
  have := flushNeighbors_view h
  simp only [V1State.view, Prod.mk.injEq] at this ⊢
  simp [servingRecord, this]

theorem neighborRecord_view (i j i' j' : Nat) (info : InfoObj) (r : MeasRecord)
    (next : List MeasRecord) :
    (neighborRecord i j info r next s).view = (neighborRecord i' j' info r next s').view := by
  simp only [V1State.view, Prod.mk.injEq] at h ⊢
  obtain ⟨h1, h2, h3⟩ := h
  simp only [neighborRecord, h1, h2]
  split <;> simp [V1State.read, h1, h2, h3]

end View

theorem foldl_stepE_view {s s' : V1State} (h : s.view = s'.view) (es : List Event) :
    (es.foldl stepE s).view = (es.foldl stepE s').view := by
  induction es generalizing s s' with
  | nil => exact h
  | cons e es ih =>
    cases e with
    | serving info r => exact ih (servingRecord_view h info r)
    | neighbor info r next => exact ih (neighborRecord_view h 0 0 0 0 info r next)

/-- The walk of an item takes its events. -/
theorem recordLoop_view (i : Nat) (t : MeasType) (j : Nat) (rest : List MeasRecord)
    (s : V1State) : (recordLoop i t j rest s).view = ((itemEvents t rest).foldl stepE s).view := by
  induction j, rest, s using recordLoop.induct i t with
  | case1 => cases t with
    | name n => cases n <;> rfl
    | id _ => rfl
  | case2 j r rest s s₁ info ht ih =>
    subst ht
    rw [recordLoop_serving i j r s rfl, ih]
    exact foldl_stepE_view (servingRecord_view (show (s.read i j).view = s.view from rfl) info r) _
  | case3 j r s info ht =>
    subst ht
    rw [recordLoop_neigh_last i j r s rfl]
    exact neighborRecord_view (show (s.read i j).view = s.view from rfl) i j 0 0 info r []
  | case4 j r s _ info ht r' rest _ ih =>
    subst ht
    rw [recordLoop_neigh i j r s rfl, ih]
    exact foldl_stepE_view
      (neighborRecord_view (show (s.read i j).view = s.view from rfl) i j 0 0 info r _) _
  | case5 j r rest s s₁ hs hn ih =>
    rw [recordLoop_other i j r s hs hn, ih]
    obtain rfl | ⟨v, rfl⟩ := MeasType.other_or_id hs hn <;> rfl

theorem itemLoop_view (i : Nat) (items : List (MeasType × List MeasRecord)) (s : V1State) :
    (itemLoop i items s).view =
      ((items.flatMap fun it => itemEvents it.1 it.2).foldl stepE s).view := by
  induction items generalizing i s with
  | nil => rfl
  | cons it items ih =>
    obtain ⟨t, d⟩ := it
    rw [itemLoop, ih, List.flatMap_cons, List.foldl_append]
    exact foldl_stepE_view (recordLoop_view i t 0 d s) _

/-- What taking events keeps: at most 20 stored neighbors, none before any serving record,
and no UE below `-1`. -/
structure StepInv (s : V1State) : Prop where
  count : s.neighbors.length ≤ 20
  fresh : s.currentUe = -1 → s.neighbors = []
  current : -1 ≤ s.currentUe

theorem StepInv.init : StepInv V1State.init := ⟨by decide, fun _ => rfl, by decide⟩

/-- The neighbors line that the stored neighbors of `s`, and then the neighbor events `pre`,
end in. -/
def pendingLines (s : V1State) (pre : List Event) : List LogLine :=
  if s.currentUe = -1 then []
  else neighborsLine ((s.neighbors ++ pre.filterMap (pairFor s.currentUe.toNat)).take 20)

theorem flushNeighbors_log {s : V1State} (hs : StepInv s) :
    (flushNeighbors s).log = s.log ++ pendingLines s [] ∧ (flushNeighbors s).neighbors = [] := by
  unfold flushNeighbors pendingLines
  by_cases hu : s.currentUe = -1
  · simp [hu, hs.fresh hu]
  · by_cases hn : s.neighbors = [] <;> simp [hu, hn, neighborsLine, List.take_of_length_le hs.count]

theorem stepE_serving {s : V1State} (hs : StepInv s) (info : InfoObj) (r : MeasRecord) :
    StepInv (servingRecord info r s) ∧
      (servingRecord info r s).log = s.log ++ pendingLines s [] ++ [.ue info.ueID info.cellID (realVal r)] ∧
      ∀ pre, pendingLines (servingRecord info r s) pre =
        neighborsLine ((pre.filterMap (pairFor info.ueID)).take 20) := by
  obtain ⟨hlog, hn⟩ := flushNeighbors_log hs
  have hu : ((info.ueID : Int) = -1) = False := eq_false (by omega)
  refine ⟨⟨by simp [servingRecord, hn], fun _ => by simp [servingRecord, hn], by
    simp [servingRecord]; omega⟩, by simp [servingRecord, hlog], fun pre => ?_⟩
  simp [pendingLines, servingRecord, hn, hu]

theorem stepE_neighbor {s : V1State} (hs : StepInv s) (info : InfoObj) (r : MeasRecord)
    (next : List MeasRecord) :
    StepInv (neighborRecord 0 0 info r next s) ∧ (neighborRecord 0 0 info r next s).log = s.log ∧
      ∀ pre, pendingLines (neighborRecord 0 0 info r next s) pre =
        pendingLines s (.neighbor info r next :: pre) := by
  unfold neighborRecord
  split
  · rename_i h
    have hu : s.currentUe ≠ -1 := by omega
    refine ⟨⟨by simp [V1State.read]; omega, fun h' => absurd h' hu, hs.current⟩, rfl, fun pre => ?_⟩
    simp [pendingLines, V1State.read, hu, pairFor, show info.ueID = s.currentUe.toNat by omega]
  · rename_i h
    refine ⟨hs, rfl, fun pre => ?_⟩
    unfold pendingLines
    split
    · rfl
    · rename_i hu
      by_cases he : info.ueID = s.currentUe.toNat
      · -- twenty neighbors already: the entry is not stored, and not listed
        have hlen : s.neighbors.length = 20 := by
          have := hs.count; have := hs.current; omega
        simp only [List.filterMap_cons, pairFor, he, if_true]
        rw [List.take_append_of_le_length (by omega), List.take_append_of_le_length (by omega)]
      · simp [pairFor, he]

/-- Taking events from a state, then flushing, prints the pending neighbors line, then the
block of each serving event. -/
theorem foldl_stepE_lines (es : List Event) {s : V1State} (hs : StepInv s) :
    (flushNeighbors (es.foldl stepE s)).log =
      s.log ++ pendingLines s (splitServing es).1 ++ (splitServing es).2.flatMap block := by
  induction es generalizing s with
  | nil => simp [splitServing, (flushNeighbors_log hs).1]
  | cons e es ih =>
    cases e with
    | serving info r =>
      obtain ⟨hs', hlog, hpend⟩ := stepE_serving hs info r
      rw [List.foldl_cons, stepE, ih hs', hlog, hpend]
      simp [splitServing, block, pendingLines]
    | neighbor info r next =>
      obtain ⟨hs', hlog, hpend⟩ := stepE_neighbor hs info r next
      rw [List.foldl_cons, stepE, ih hs', hlog, hpend]
      rfl

/-- Over every report, the first monitor prints, for each serving record in the order of the
walk, its UE line, then a neighbors line with the first 20 entries of neighbor lists named
for its UE that the walk meets before the next serving record, if there is any. -/
theorem v1_monitor_lines (msg : IndMsgFormat1) :
    (logKpmMeasurements msg).log = (splitServing (events msg)).2.flatMap block := by
  unfold logKpmMeasurements events
  split
  · have hv := flushNeighbors_view (itemLoop_view 0 (msg.measInfoLst.zip msg.measDataLst)
      V1State.init)
    simp only [V1State.view, Prod.mk.injEq] at hv
    rw [hv.2.2, foldl_stepE_lines _ StepInv.init]
    simp [V1State.init, pendingLines]
  · simp [V1State.init, splitServing]

end UeLoc.Monitor.V1
