import UeLocalization.Basic
import Mathlib.Data.List.Sort

/-!
# The records of the trilateration program

The second program of `ue_localization_MA_v2.c` keeps, per UE, the latest serving SINR and
the neighbor entries reported after it (`WINDOW_SIZE` is 1, so `measurement_history` has
one entry and `current_idx` is always 0). `check_and_send_ue_data` collects the entries
that are not the serving cell, not cell 0 and not NaN (`collectNeighbors`, at most 10),
sorts them by SINR with an exchange sort (`exchangeSort`), and writes a record of the
three best when there are at least `MIN_NEIGHBORS_REQUIRED` of them.

`check_and_send_ok`: a record is written exactly when the serving SINR is not NaN and three
entries are valid, and its slots are the first three of a permutation of the valid entries
sorted by SINR, highest first, each with its cell's coordinates. The exchange sort is not
stable: of two entries with equal SINRs it may report the later one first
(`exchange_sort_not_stable`).
-/

namespace UeLoc.Trilat

open F64 (num nan)

/-- `cell_positions` of the trilateration program. -/
def trilatCellPositions : List (CellPosition Int) :=
  [⟨2, 800, 800⟩, ⟨3, 1300, 800⟩, ⟨4, 1050, 1233⟩, ⟨5, 550, 1233⟩, ⟨6, 300, 800⟩,
    ⟨7, 550, 366⟩, ⟨8, 1050, 366⟩]

/-- `MIN_NEIGHBORS_REQUIRED`. -/
def minNeighborsRequired : Nat := 3

/-- `measurement_history[0]`: the serving SINR and the entries
`neighbor_ids[0..active_neighbor_count)`, `neighbor_sinrs[0..active_neighbor_count)`. -/
structure HistoryEntry where
  servingSinr : F64
  neighbors : List (Nat × F64)
  deriving DecidableEq, Repr

/-- `ue_buffer_t` of the trilateration program: the fields its functions read. -/
structure UeBuffer where
  ueID : Nat
  servingCellID : Nat
  history : HistoryEntry
  historyCount : Nat
  deriving DecidableEq, Repr

/-- A buffer as `get_or_create_ue_buffer` makes it: zeroed, with its UE id. -/
def UeBuffer.init (ueID : Nat) : UeBuffer := ⟨ueID, 0, ⟨num 0, []⟩, 0⟩

/-- `add_serving_sample`: the serving cell, and a history entry with the SINR and no
neighbors; `history_count` grows up to `WINDOW_SIZE`. -/
def addServingSample (b : UeBuffer) (cellID : Nat) (sinr : F64) : UeBuffer :=
  { b with servingCellID := cellID, history := ⟨sinr, []⟩,
           historyCount := if b.historyCount < 1 then b.historyCount + 1 else b.historyCount }

/-- `add_neighbor_sample`: an entry of the serving cell is dropped, the first 10 others kept. -/
def addNeighborSample (b : UeBuffer) (neighCellID : Nat) (sinr : F64) : UeBuffer :=
  if neighCellID = b.servingCellID then b
  else if b.history.neighbors.length < 10 then
    { b with history := { b.history with neighbors := b.history.neighbors ++ [(neighCellID, sinr)] } }
  else b

@[simp] theorem addServingSample_ueID (b : UeBuffer) (cellID : Nat) (sinr : F64) :
    (addServingSample b cellID sinr).ueID = b.ueID := rfl

@[simp] theorem addNeighborSample_ueID (b : UeBuffer) (neighCellID : Nat) (sinr : F64) :
    (addNeighborSample b neighCellID sinr).ueID = b.ueID := by
  unfold addNeighborSample; split_ifs <;> rfl

@[simp] theorem foldl_addNeighborSample_ueID (l : List (Nat × F64)) (b : UeBuffer) :
    (l.foldl (fun b pr => addNeighborSample b pr.1 pr.2) b).ueID = b.ueID := by
  induction l generalizing b with
  | nil => rfl
  | cons pr l ih => simp [ih]

/-! ## Collecting and sorting the neighbors -/

/-- `neighbor_data_t`. -/
structure NeighborData where
  cellID : Nat
  sinr : F64
  x : Int
  y : Int
  deriving DecidableEq, Repr

/-- An entry as the collection loop stores it, with its cell's coordinates or `0`. -/
def neighborData (n : Nat × F64) : NeighborData :=
  ⟨n.1, n.2, (cellXY trilatCellPositions n.1).1, (cellXY trilatCellPositions n.1).2⟩

/-- The negation of the loop's `neighID == servingCellID || isnan(neighSINR) || neighID == 0`. -/
def validNeighbor (servingCellID : Nat) (n : Nat × F64) : Bool :=
  !(n.1 == servingCellID || n.2.isNaN || n.1 == 0)

/-- `for (i = 0; i < active_neighbor_count && neighbor_count < 10; i++)`: the valid entries
appended to `acc`. -/
def collectNeighbors (servingCellID : Nat) (acc : List NeighborData) :
    List (Nat × F64) → List NeighborData
  | [] => acc
  | n :: ns =>
    if acc.length < 10 then
      collectNeighbors servingCellID
        (if validNeighbor servingCellID n then acc ++ [neighborData n] else acc) ns
    else acc

/-- The inner loop of the sort for slot `i`, which holds `cur`: every later entry with a
higher SINR is swapped into slot `i`. The slot's final entry, and the later slots. -/
def innerPass (cur : NeighborData) : List NeighborData → NeighborData × List NeighborData
  | [] => (cur, [])
  | n :: ns =>
    if F64.lt cur.sinr n.sinr then ((innerPass n ns).1, cur :: (innerPass n ns).2)
    else ((innerPass cur ns).1, n :: (innerPass cur ns).2)

/-- `k` rounds of the outer loop, from the first slot of `l` on. -/
def sortPasses : Nat → List NeighborData → List NeighborData
  | 0, l => l
  | _ + 1, [] => []
  | k + 1, n :: ns => (innerPass n ns).1 :: sortPasses k (innerPass n ns).2

/-- The sort of `check_and_send_ue_data`, `for (i = 0; i < neighbor_count - 1; i++)`. -/
def exchangeSort (l : List NeighborData) : List NeighborData := sortPasses (l.length - 1) l

/-! ## The record -/

/-- The values of the CSV line of `check_and_send_ue_data`; `top3` holds the three slots. -/
structure TrilatRecord where
  sequenceTimestamp : Nat
  ueID : Nat
  servingCellID : Nat
  servingX : Int
  servingY : Int
  servingSinr : F64
  top3 : List NeighborData
  deriving DecidableEq, Repr

/-- `check_and_send_ue_data(ue_buf, sequence_timestamp)`: the record written, if any. -/
def checkAndSendUeData (b : UeBuffer) (sequenceTimestamp : Nat) : Option TrilatRecord :=
  if b.history.servingSinr.isNaN then none
  else if (collectNeighbors b.servingCellID [] b.history.neighbors).length < minNeighborsRequired
  then none
  else some ⟨sequenceTimestamp, b.ueID, b.servingCellID,
    (cellXY trilatCellPositions b.servingCellID).1, (cellXY trilatCellPositions b.servingCellID).2,
    b.history.servingSinr, (exchangeSort (collectNeighbors b.servingCellID [] b.history.neighbors)).take 3⟩

/-! ## The collection loop -/

theorem collectNeighbors_eq (s : Nat) (l : List (Nat × F64)) {acc : List NeighborData}
    (h : acc.length ≤ 10) :
    collectNeighbors s acc l =
      acc ++ ((l.filter (validNeighbor s)).map neighborData).take (10 - acc.length) := by
  induction l generalizing acc with
  | nil => simp [collectNeighbors]
  | cons n ns ih =>
    rcases Nat.lt_or_ge acc.length 10 with hlt | hge
    · have hk : 10 - acc.length = 10 - (acc.length + 1) + 1 := by omega
      by_cases hv : validNeighbor s n
      · simp only [collectNeighbors, hlt, hv, if_true, @ih (acc ++ [neighborData n]) (by simp; omega),
          List.filter_cons, List.map_cons, hk, List.take_succ_cons, List.length_append,
          List.length_singleton, List.append_assoc, List.singleton_append]
      · simp [collectNeighbors, hlt, hv, ih h, List.filter_cons]
    · simp [collectNeighbors, Nat.not_lt.mpr hge, show 10 - acc.length = 0 by omega]

/-- The loop keeps the first 10 valid entries. -/
theorem collectNeighbors_nil (s : Nat) (l : List (Nat × F64)) :
    collectNeighbors s [] l = ((l.filter (validNeighbor s)).map neighborData).take 10 := by
  simpa using @collectNeighbors_eq s l [] (Nat.zero_le _)

theorem isNaN_of_collect {s : Nat} {l : List (Nat × F64)} {d : NeighborData}
    (h : d ∈ collectNeighbors s [] l) : d.sinr.isNaN = false := by
  rw [collectNeighbors_nil] at h
  obtain ⟨n, hn, rfl⟩ := List.mem_map.mp (List.mem_of_mem_take h)
  have hv := (List.mem_filter.mp hn).2
  simp only [validNeighbor, Bool.not_or, Bool.and_eq_true, Bool.not_eq_true'] at hv
  exact hv.1.2

/-! ## The exchange sort -/

/-- The inner loop moves entries and keeps them all. -/
theorem innerPass_perm (cur : NeighborData) (ns : List NeighborData) :
    ((innerPass cur ns).1 :: (innerPass cur ns).2).Perm (cur :: ns) := by
  induction ns generalizing cur with
  | nil => rfl
  | cons n ns ih =>
    unfold innerPass
    split
    · exact (List.Perm.swap _ _ _).trans ((ih n).cons cur)
    · exact (List.Perm.swap _ _ _).trans (((ih cur).cons n).trans (List.Perm.swap _ _ _))

theorem innerPass_length (cur : NeighborData) (ns : List NeighborData) :
    (innerPass cur ns).2.length = ns.length := by
  simpa using (innerPass_perm cur ns).length_eq

/-- The SINRs of a list of entries are numbers. -/
def NoNaN (l : List NeighborData) : Prop := ∀ d ∈ l, d.sinr.isNaN = false

/-- Off NaN, the slot's final entry has the highest SINR of the pass. -/
theorem innerPass_max {cur : NeighborData} {ns : List NeighborData} (h : NoNaN (cur :: ns)) :
    cur.sinr.val ≤ (innerPass cur ns).1.sinr.val ∧
      ∀ d ∈ (innerPass cur ns).2, d.sinr.val ≤ (innerPass cur ns).1.sinr.val := by
  induction ns generalizing cur with
  | nil => simp [innerPass]
  | cons n ns ih =>
    have hc := h cur (List.mem_cons_self _ _)
    have hn := h n (List.mem_cons_of_mem _ (List.mem_cons_self _ _))
    have hcur : NoNaN (cur :: ns) := fun d hd =>
      h d (((List.sublist_cons_self n ns).cons₂ cur).subset hd)
    unfold innerPass
    rw [F64.lt_eq_decide hc hn]
    split
    · rename_i hlt
      have hlt : cur.sinr.val ≤ n.sinr.val := (of_decide_eq_true hlt).le
      obtain ⟨h1, h2⟩ := ih fun d hd => h d (List.mem_cons_of_mem _ hd)
      exact ⟨le_trans hlt h1,
        fun d hd => (List.mem_cons.mp hd).elim (fun e => by subst e; exact le_trans hlt h1) (h2 d)⟩
    · rename_i hge
      have hge : n.sinr.val ≤ cur.sinr.val := by simpa using hge
      obtain ⟨h1, h2⟩ := ih hcur
      exact ⟨h1, fun d hd => (List.mem_cons.mp hd).elim (fun e => by subst e; exact le_trans hge h1) (h2 d)⟩

/-- Enough rounds of the outer loop sort a list without NaN by SINR, highest first. -/
theorem sortPasses_ok (k : Nat) {l : List NeighborData} (hk : l.length ≤ k + 1) (h : NoNaN l) :
    (sortPasses k l).Perm l ∧ (sortPasses k l).Sorted fun a b => b.sinr.val ≤ a.sinr.val := by
  induction k generalizing l with
  | zero =>
    match l, hk with
    | [], _ => exact ⟨List.Perm.refl _, List.sorted_nil⟩
    | [_], _ => exact ⟨List.Perm.refl _, List.sorted_singleton _⟩
  | succ k ih =>
    match l, hk with
    | [], _ => exact ⟨List.Perm.refl _, List.sorted_nil⟩
    | n :: ns, hk =>
      have hp := innerPass_perm n ns
      have hmax := (innerPass_max h).2
      obtain ⟨hp', hs⟩ := ih (by simp [innerPass_length] at hk ⊢; omega)
        fun d hd => h d (hp.subset (List.mem_cons_of_mem _ hd))
      exact ⟨(hp'.cons _).trans hp,
        List.sorted_cons.mpr ⟨fun d hd => hmax d (hp'.subset hd), hs⟩⟩

/-- The exchange sort sorts a list without NaN by SINR, highest first. -/
theorem exchangeSort_ok {l : List NeighborData} (h : NoNaN l) :
    (exchangeSort l).Perm l ∧ (exchangeSort l).Sorted fun a b => b.sinr.val ≤ a.sinr.val :=
  sortPasses_ok _ (by omega) h

/-! ## When a record is written, and what it holds -/

theorem length_collectNeighbors_lt (b : UeBuffer) :
    (collectNeighbors b.servingCellID [] b.history.neighbors).length < 3 ↔
      (b.history.neighbors.filter (validNeighbor b.servingCellID)).length < 3 := by
  rw [collectNeighbors_nil, List.length_take, List.length_map]; omega

/-- When `check_and_send_ue_data` writes a record. -/
theorem checkAndSendUeData_isSome (b : UeBuffer) (seq : Nat) :
    (checkAndSendUeData b seq).isSome ↔
      b.history.servingSinr.isNaN = false ∧
        3 ≤ (b.history.neighbors.filter (validNeighbor b.servingCellID)).length := by
  have := length_collectNeighbors_lt b
  unfold checkAndSendUeData
  split_ifs <;> simp_all [minNeighborsRequired]

/-- What a written record holds. -/
theorem checkAndSendUeData_some {b : UeBuffer} {seq : Nat} {r : TrilatRecord}
    (hr : checkAndSendUeData b seq = some r) :
    r.sequenceTimestamp = seq ∧ r.ueID = b.ueID ∧ r.servingSinr = b.history.servingSinr ∧
      r.top3.length = 3 ∧
      ∃ l : List NeighborData,
        l.Perm (((b.history.neighbors.filter (validNeighbor b.servingCellID)).map
          neighborData).take 10) ∧
        l.Sorted (fun a c => c.sinr.val ≤ a.sinr.val) ∧ r.top3 = l.take 3 := by
  obtain ⟨hp, hs⟩ := exchangeSort_ok fun d hd => isNaN_of_collect (s := b.servingCellID)
    (l := b.history.neighbors) hd
  unfold checkAndSendUeData at hr
  split_ifs at hr with h1 h2
  cases hr
  refine ⟨rfl, rfl, rfl, ?_, _, collectNeighbors_nil _ _ ▸ hp, hs, rfl⟩
  simp only [List.length_take, hp.length_eq]
  simp only [minNeighborsRequired, Nat.not_lt] at h2
  omega

/-- A record is written exactly when the serving SINR is not NaN and at least three entries
are valid; it carries the sequence, UE and serving SINR it was given, and its three slots
are the first three of a permutation of the first 10 valid entries sorted by SINR, highest
first, each with its cell's coordinates (`neighborData`). -/
theorem check_and_send_ok (b : UeBuffer) (seq : Nat) :
    ((checkAndSendUeData b seq).isSome ↔
      b.history.servingSinr.isNaN = false ∧
        3 ≤ (b.history.neighbors.filter (validNeighbor b.servingCellID)).length) ∧
    ∀ r, checkAndSendUeData b seq = some r →
      r.sequenceTimestamp = seq ∧ r.ueID = b.ueID ∧ r.servingSinr = b.history.servingSinr ∧
      r.top3.length = 3 ∧
      ∃ l : List NeighborData,
        l.Perm (((b.history.neighbors.filter (validNeighbor b.servingCellID)).map
          neighborData).take 10) ∧
        l.Sorted (fun a c => c.sinr.val ≤ a.sinr.val) ∧ r.top3 = l.take 3 :=
  ⟨checkAndSendUeData_isSome b seq, fun _ => checkAndSendUeData_some⟩

/-! ## Ties -/

/-- The sort the description asks for: by SINR, highest first, equal SINRs in the order the
entries came (insertion sort is stable). -/
def stableSortDesc (l : List NeighborData) : List NeighborData :=
  l.insertionSort fun a b => F64.lt a.sinr b.sinr = false

/-- UE 1 in cell 2, with cells 3 and 4 at SINR 2, then cell 5 at SINR 3. -/
def tieBuffer : UeBuffer := ⟨1, 2, ⟨num 10, [(3, num 2), (4, num 2), (5, num 3)]⟩, 1⟩

/-- On `tieBuffer` the exchange sort gives cells 5, 4, 3; the stable sort 5, 3, 4. -/
theorem exchange_sort_not_stable :
    ¬ ∀ (b : UeBuffer) (seq : Nat), (checkAndSendUeData b seq).isSome →
      (checkAndSendUeData b seq).map (·.top3) =
        some ((stableSortDesc ((b.history.neighbors.filter
          (validNeighbor b.servingCellID)).map neighborData)).take 3) :=
  fun h => absurd (h tieBuffer 0 (by decide)) (by decide)

end UeLoc.Trilat
