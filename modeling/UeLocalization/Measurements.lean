import UeLocalization.Basic
import Mathlib.Data.List.Sort

/-!
# Serving samples with their neighbors

`ue_localization_MA.c` and `kpm_monitor_xapp_v2.c` collect a report into
`measurements[0..num_measurements)` the same way (`collectMeasurements`): one
`sinr_measurement_t` per serving sample, 100 at most, then each neighbor list's pairs
attached, 10 at most, to the first measurement of its UE. Each then sorts a measurement's
neighbors with `qsort` and `compare_neighbors_by_sinr`, highest SINR first.

`qsort` is the C library's: a parameter here, with what the C standard promises of it
when the comparator is a total preorder, that is when no SINR is NaN (`QsortSpec`). Then
whatever order it leaves tied entries in, the SINRs it lists are the neighbors' SINRs from
the highest down (`sorted_vals`, `kthLargest`), and so are the three both programs keep
(`sortedNeighborSinr_eq`); `qsortModel` is one such sort.
-/

namespace UeLoc

open F64 (num nan)

/-- `sinr_measurement_t`: a serving sample, its cell's position (`servingPos`, the target of
the pointer or `NULL`) and its neighbors `neighbors[0..num_neighbors)` as
`(neighCellID, neighSINR)`. -/
structure SinrMeasurement where
  timestamp : BitVec 64
  ueID : Nat
  servingCellID : Nat
  servingSINR : F64
  servingPos : Option (CellPosition ℚ)
  neighbors : List (Nat × F64)

/-- A measurement pointing at its serving cell's entry of the table. -/
def SinrMeasurement.Positioned (m : SinrMeasurement) : Prop :=
  m.servingPos = getCellPosition cellPositions m.servingCellID

/-- `measurements` holds 100 entries. -/
def maxMeasurements : Nat := 100

/-- `neighbors` holds 10 entries. -/
def maxNeighbors : Nat := 10

/-- The first loop of `log_kpm_measurements` on one serving sample: a new measurement while
fewer than 100 are stored. -/
def addServing (t : BitVec 64) (ms : List SinrMeasurement) (s : InfoObj × F64) :
    List SinrMeasurement :=
  if ms.length < maxMeasurements then
    ms ++ [⟨t, s.1.ueID, s.1.cellID, s.2, getCellPosition cellPositions s.1.cellID, []⟩]
  else ms

/-- `if (num_neighbors < 10)` append the pair. -/
def addPair (ns : List (Nat × F64)) (pr : Nat × F64) : List (Nat × F64) :=
  if ns.length < maxNeighbors then ns ++ [pr] else ns

/-- The second loop on one neighbor list: its pairs go to the first measurement of its UE,
if any (`break` after it). -/
def attachNeighbors (ms : List SinrMeasurement) (l : InfoObj × List (Nat × F64)) :
    List SinrMeasurement :=
  match findUe (·.ueID) ms l.1.ueID with
  | some m => setUe (·.ueID) l.1.ueID { m with neighbors := l.2.foldl addPair m.neighbors } ms
  | none => ms

/-- The collecting part of `log_kpm_measurements(msg_frm_1, timestamp)`: the measurements
after the report, stamped `timestamp / 1000`; a report whose two lists differ in length is
dropped. -/
def collectMeasurements (ms : List SinrMeasurement) (msg : IndMsgFormat1)
    (timestamp : BitVec 64) : List SinrMeasurement :=
  if msg.lenOk then
    (neighLists msg).foldl attachNeighbors
      ((servingSamples msg).foldl (addServing (timestamp / 1000)) ms)
  else ms

/-! ## What a report leaves in `measurements` -/

/-- The measurement the first loop makes of a serving sample, stamped `t`. -/
def newMeasurement (t : BitVec 64) (s : InfoObj × F64) : SinrMeasurement :=
  ⟨t, s.1.ueID, s.1.cellID, s.2, getCellPosition cellPositions s.1.cellID, []⟩

/-- The pairs of all of UE `u`'s neighbor lists, in report order. -/
def pairsOf (ls : List (InfoObj × List (Nat × F64))) (u : Nat) : List (Nat × F64) :=
  (ls.filter (·.1.ueID = u)).flatMap (·.2)

/-- Each UE's pairs `ps u` appended to its first measurement, up to 10 neighbors; the others
keep theirs. -/
def attachFirst (ps : Nat → List (Nat × F64)) : List SinrMeasurement → List SinrMeasurement
  | [] => []
  | m :: ms =>
    { m with neighbors := m.neighbors ++ (ps m.ueID).take (maxNeighbors - m.neighbors.length) } ::
      attachFirst (fun u => if u = m.ueID then [] else ps u) ms

/-- Appending while fewer than `cap` entries are stored keeps the first ones that fit. -/
theorem foldl_capped {α β : Type} (f : α → β) (cap : Nat) (xs : List α) (acc : List β) :
    xs.foldl (fun acc x => if acc.length < cap then acc ++ [f x] else acc) acc =
      acc ++ (xs.map f).take (cap - acc.length) := by
  induction xs generalizing acc with
  | nil => simp
  | cons x xs ih =>
    rw [List.foldl_cons]
    split
    · rw [ih, List.length_append, List.length_singleton, List.map_cons,
        show cap - acc.length = cap - (acc.length + 1) + 1 by omega, List.take_succ_cons]
      simp
    · rw [ih, show cap - acc.length = 0 by omega]
      simp

theorem foldl_addPair (l ns : List (Nat × F64)) :
    l.foldl addPair ns = ns ++ l.take (maxNeighbors - ns.length) := by
  simpa using foldl_capped id maxNeighbors l ns

theorem foldl_addServing (t : BitVec 64) (l : List (InfoObj × F64)) (ms : List SinrMeasurement) :
    l.foldl (addServing t) ms = ms ++ (l.map (newMeasurement t)).take (maxMeasurements - ms.length) :=
  foldl_capped (newMeasurement t) maxMeasurements l ms

theorem attachFirst_of_nil {ps : Nat → List (Nat × F64)} (h : ∀ u, ps u = [])
    (ms : List SinrMeasurement) : attachFirst ps ms = ms := by
  induction ms generalizing ps with
  | nil => rfl
  | cons m ms ih =>
    rw [attachFirst, h, ih fun u => by split <;> simp [h]]
    simp

theorem attachNeighbors_cons_ne {m : SinrMeasurement} {ms : List SinrMeasurement}
    {l : InfoObj × List (Nat × F64)} (h : m.ueID ≠ l.1.ueID) :
    attachNeighbors (m :: ms) l = m :: attachNeighbors ms l := by
  simp only [attachNeighbors, findUe_cons, if_neg h]
  split <;> simp [setUe, h]

/-- One neighbor list attached after the others is its pairs appended to its UE's. -/
theorem attachNeighbors_attachFirst (ps : Nat → List (Nat × F64)) (ms : List SinrMeasurement)
    (l : InfoObj × List (Nat × F64)) :
    attachNeighbors (attachFirst ps ms) l =
      attachFirst (fun u => ps u ++ if u = l.1.ueID then l.2 else []) ms := by
  induction ms generalizing ps with
  | nil => simp [attachFirst, attachNeighbors, findUe]
  | cons m ms ih =>
    by_cases hm : m.ueID = l.1.ueID
    · -- the list's pairs go to this measurement, after the pairs it already took
      simp only [attachFirst, attachNeighbors, findUe_cons, hm, if_true, setUe, foldl_addPair,
        List.take_append_eq_append_take, List.length_append, List.length_take,
        List.append_assoc, SinrMeasurement.mk.injEq, true_and, List.cons.injEq]
      refine ⟨by congr 3; omega, congrArg (attachFirst · ms) (funext fun u => ?_)⟩
      split <;> simp_all
    · rw [attachFirst, attachNeighbors_cons_ne, ih, attachFirst, if_neg hm, List.append_nil]
      · congr 2
        funext u
        split <;> simp_all
      · exact hm

theorem foldl_attachNeighbors (ls : List (InfoObj × List (Nat × F64)))
    (ps : Nat → List (Nat × F64)) (ms : List SinrMeasurement) :
    ls.foldl attachNeighbors (attachFirst ps ms) = attachFirst (fun u => ps u ++ pairsOf ls u) ms := by
  induction ls generalizing ps with
  | nil => simp [pairsOf]
  | cons l ls ih =>
    rw [List.foldl_cons, attachNeighbors_attachFirst, ih]
    congr 1
    funext u
    by_cases h : u = l.1.ueID <;> simp [pairsOf, List.filter_cons, h, eq_comm]

/-- The neighbor lists of a report, attached one after the other, give each UE's pairs to its
first measurement. -/
theorem foldl_attachNeighbors_eq (ls : List (InfoObj × List (Nat × F64)))
    (ms : List SinrMeasurement) : ls.foldl attachNeighbors ms = attachFirst (pairsOf ls) ms := by
  simpa [attachFirst_of_nil] using foldl_attachNeighbors ls (fun _ => []) ms

/-- What `log_kpm_measurements` of `ue_localization_MA.c` and `kpm_monitor_xapp_v2.c` leaves in
`measurements`: one measurement per serving sample while fewer than 100 are stored, and then
each UE's neighbor pairs, in report order, given to its first measurement only, while it has
fewer than 10; the pairs of a UE without a measurement are dropped. -/
theorem collectMeasurements_eq (ms : List SinrMeasurement) (msg : IndMsgFormat1)
    (timestamp : BitVec 64) :
    collectMeasurements ms msg timestamp =
      if msg.lenOk then
        attachFirst (pairsOf (neighLists msg))
          (ms ++ ((servingSamples msg).map (newMeasurement (timestamp / 1000))).take
            (maxMeasurements - ms.length))
      else ms := by
  rw [collectMeasurements, foldl_addServing, foldl_attachNeighbors_eq]

/-! ## Sorting the neighbors -/

/-- No SINR of the list is NaN. -/
def NanFree (l : List (Nat × F64)) : Prop := ∀ n ∈ l, n.2.isNaN = false

instance : DecidablePred NanFree := fun l => inferInstanceAs (Decidable (∀ n ∈ l, _))

/-- What `qsort(base, n, size, compare_neighbors_by_sinr)` guarantees when no SINR is NaN:
a permutation in which no entry has a smaller SINR than an entry after it. -/
structure QsortSpec (qsort : List (Nat × F64) → List (Nat × F64)) : Prop where
  perm : ∀ l, NanFree l → (qsort l).Perm l
  sorted : ∀ l, NanFree l → (qsort l).Sorted fun a b => F64.lt a.2 b.2 = false

/-- The `k`-th largest of `qs` (from 0), `0` past its end. -/
def kthLargest (qs : List ℚ) (k : Nat) : ℚ := ((qs.insertionSort (· ≥ ·))[k]?).getD 0

/-- A sort of a list without NaN, as `QsortSpec` asks, lists its SINRs from the highest
down. -/
theorem sorted_vals {l l' : List (Nat × F64)} (hn : NanFree l) (hp : l'.Perm l)
    (hs : l'.Sorted fun a b => F64.lt a.2 b.2 = false) :
    l'.map (·.2.val) = (l.map (·.2.val)).insertionSort (· ≥ ·) := by
  have hn' : NanFree l' := fun n h => hn n (hp.subset h)
  refine List.eq_of_perm_of_sorted ((hp.map _).trans (List.perm_insertionSort _ _).symm) ?_
    (List.sorted_insertionSort _ _)
  rw [List.Sorted, List.pairwise_map]
  refine hs.imp_of_mem fun {a b} ha hb h => ?_
  rw [F64.lt_eq_decide (hn' a ha) (hn' b hb)] at h
  simpa using h

/-- The `k`-th SINR of a sorted list without NaN is the `k`-th largest, `0.0` past its end. -/
theorem getD_sorted {l l' : List (Nat × F64)} (hn : NanFree l) (hp : l'.Perm l)
    (hs : l'.Sorted fun a b => F64.lt a.2 b.2 = false) (k : Nat) :
    ((l'[k]?).map (·.2)).getD (num 0) = num (kthLargest (l.map (·.2.val)) k) := by
  have hn' : NanFree l' := fun n h => hn n (hp.subset h)
  rw [kthLargest, ← sorted_vals hn hp hs, List.getElem?_map]
  cases h : l'[k]? with
  | none => rfl
  | some x => simpa using F64.eq_num_of_isNaN (hn' x (List.getElem?_mem h))

/-- `neighbors[j].neighSINR` after `if (num_neighbors > 1) qsort(...)`, and `0.0` for
`j >= num_neighbors`: the `j`-th neighbor SINR both programs keep of a measurement. -/
def sortedNeighborSinr (qsort : List (Nat × F64) → List (Nat × F64)) (ns : List (Nat × F64))
    (j : Nat) : F64 :=
  (((if 1 < ns.length then qsort ns else ns)[j]?).map (·.2)).getD (num 0)

/-- Without NaN, the `j`-th kept SINR is the `j`-th largest, whatever `qsort` does with
ties and whether it runs. -/
theorem sortedNeighborSinr_eq {qsort : List (Nat × F64) → List (Nat × F64)}
    (hq : QsortSpec qsort) {ns : List (Nat × F64)} (hn : NanFree ns) (j : Nat) :
    sortedNeighborSinr qsort ns j = num (kthLargest (ns.map (·.2.val)) j) := by
  unfold sortedNeighborSinr
  split
  · exact getD_sorted hn (hq.perm _ hn) (hq.sorted _ hn) j
  · rename_i h
    refine getD_sorted hn (List.Perm.refl _) ?_ j
    match ns, h with
    | [], _ => exact List.sorted_nil
    | [_], _ => exact List.sorted_singleton _
    | _ :: _ :: _, h => simp at h

/-- Sorting by value, highest first. -/
def geVal (a b : Nat × F64) : Prop := b.2.val ≤ a.2.val

instance : DecidableRel geVal := fun a b => inferInstanceAs (Decidable (b.2.val ≤ a.2.val))
instance : IsTotal (Nat × F64) geVal := ⟨fun a b => le_total b.2.val a.2.val⟩
instance : IsTrans (Nat × F64) geVal := ⟨fun _ _ _ hab hbc => le_trans hbc hab⟩

/-- A `qsort`: insertion sort, highest SINR first. -/
def qsortModel (l : List (Nat × F64)) : List (Nat × F64) := l.insertionSort geVal

theorem qsortModel_spec : QsortSpec qsortModel where
  perm l _ := List.perm_insertionSort geVal l
  sorted l hn := by
    refine (List.sorted_insertionSort geVal l).imp_of_mem fun {a b} ha hb h => ?_
    have hp := List.perm_insertionSort geVal l
    rw [F64.lt_eq_decide (hn a (hp.subset ha)) (hn b (hp.subset hb))]
    simpa [geVal] using h

end UeLoc
