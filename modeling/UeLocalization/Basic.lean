import Mathlib.Algebra.Order.Field.Rat
import Mathlib.Data.Finset.Card

/-!
# Doubles, cells, reports and UE tables

What the localization xApps share. A SINR is a C `double`; here it is an exact rational
or NaN (`F64`), so that sums and means are exact and NaN absorbs. A report is a
`kpm_ind_msg_format_1_t` whose measurement names are already classified (`MeasName`):
the name matcher `isMeasNameContains` / `parseServingMsg` / `parseNeighMsg` is an
external collaborator, and a failed parse gives the ids `-1`, that is `UINT16_MAX`.

Every `log_kpm_measurements` walks a report twice, serving samples first
(`servingSamples`), then neighbor lists (`neighLists`, with their `(cell, SINR)` pairs
`neighPairs`). Every program keeps its UEs in a table `tbl[0..n)` searched linearly and
appended to while there is room (`getOrCreate`, `storeUe`); `storeUe_find` and
`ids_storeUe` are what the programs' invariants need of it.
-/

namespace UeLoc

/-! ## Doubles -/

/-- A C `double`, with arithmetic taken as exact: a rational, or NaN. -/
inductive F64 where
  | num (q : ℚ)
  | nan
  deriving DecidableEq, Repr

namespace F64

/-- `+`: NaN absorbs. -/
def add : F64 → F64 → F64
  | num a, num b => num (a + b)
  | _, _ => nan

/-- `x / n` for a sample count `n`; every caller divides by a positive count. -/
def divNat : F64 → Nat → F64
  | num a, n => num (a / n)
  | nan, _ => nan

/-- C's `a < b`: false when either side is NaN. -/
def lt : F64 → F64 → Bool
  | num a, num b => decide (a < b)
  | _, _ => false

/-- `isnan`. -/
def isNaN : F64 → Bool
  | nan => true
  | num _ => false

/-- The value of a double that is not NaN (NaN reads as 0). -/
def val : F64 → ℚ
  | num q => q
  | nan => 0

/-- `s = 0; for (...) s += x;` -/
def sum (xs : List F64) : F64 := xs.foldl add (num 0)

/-- The sum of `xs` divided by their number, as the programs average a window. -/
def mean (xs : List F64) : F64 := (sum xs).divNat xs.length

@[simp] theorem add_num (a b : ℚ) : add (num a) (num b) = num (a + b) := rfl
@[simp] theorem add_nan_left (x : F64) : add nan x = nan := rfl
@[simp] theorem add_nan_right (x : F64) : add x nan = nan := by cases x <;> rfl
@[simp] theorem divNat_num (a : ℚ) (n : Nat) : divNat (num a) n = num (a / n) := rfl
@[simp] theorem isNaN_num (a : ℚ) : isNaN (num a) = false := rfl
@[simp] theorem lt_num (a b : ℚ) : lt (num a) (num b) = decide (a < b) := rfl
@[simp] theorem val_num (a : ℚ) : val (num a) = a := rfl

theorem eq_num_of_isNaN {x : F64} (h : x.isNaN = false) : x = num x.val := by
  cases x <;> simp_all [isNaN, val]

/-- Off NaN, C's `a < b` is `<` on the values. -/
theorem lt_eq_decide {x y : F64} (hx : x.isNaN = false) (hy : y.isNaN = false) :
    lt x y = decide (x.val < y.val) := by
  rw [eq_num_of_isNaN hx, eq_num_of_isNaN hy]; rfl

theorem foldl_add_num (qs : List ℚ) (a : ℚ) :
    (qs.map num).foldl add (num a) = num (a + qs.sum) := by
  induction qs generalizing a with
  | nil => simp
  | cons q qs ih => simp only [List.map_cons, List.foldl_cons, add_num, ih, List.sum_cons, add_assoc]

/-- On numbers, `sum` is the exact sum. -/
@[simp] theorem sum_map_num (qs : List ℚ) : sum (qs.map num) = num qs.sum := by
  simpa using foldl_add_num qs 0

/-- On numbers, `mean` is the exact arithmetic mean. -/
@[simp] theorem mean_map_num (qs : List ℚ) : mean (qs.map num) = num (qs.sum / qs.length) := by
  simp [mean]

@[simp] theorem sum_nil : sum [] = num 0 := rfl

theorem sum_append_singleton (xs : List F64) (x : F64) : sum (xs ++ [x]) = add (sum xs) x := by
  simp [sum, List.foldl_append]

@[simp] theorem sum_singleton (x : F64) : sum [x] = x := by
  cases x <;> simp [sum, add]

end F64

open F64 (num nan)

/-! ## Times -/

/-- `t - start >= d` on `uint64_t` times, the test by which both time-bounded programs close
a window: the subtraction wraps. -/
def elapsedAtLeast (d : Nat) (start t : BitVec 64) : Bool := decide (BitVec.ofNat 64 d ≤ t - start)

/-- The test fires `d` or more past the start, and also at a time earlier than the start by
at most `2⁶⁴ − d`. -/
theorem elapsedAtLeast_iff {d : Nat} (hd : d < 2 ^ 64) (start t : BitVec 64) :
    elapsedAtLeast d start t = true ↔
      start.toNat + d ≤ t.toNat ∨ (t.toNat < start.toNat ∧ start.toNat - t.toNat ≤ 2 ^ 64 - d) := by
  have := start.isLt
  have := t.isLt
  simp only [elapsedAtLeast, decide_eq_true_eq, BitVec.le_def, BitVec.toNat_sub,
    BitVec.toNat_ofNat, Nat.mod_eq_of_lt hd]
  omega

/-- A test started at 5000 fires at 0. -/
theorem elapsedAtLeast_earlier : 5000 < 2 ^ 64 ∧ elapsedAtLeast 5000 5000 0 = true :=
  have hd : 5000 < 2 ^ 64 := by decide
  ⟨hd, (elapsedAtLeast_iff hd 5000 0).mpr (.inr ⟨by decide, by decide⟩)⟩

theorem elapsedAtLeast_self {d : Nat} (h0 : 0 < d) (hd : d < 2 ^ 64) (t : BitVec 64) :
    elapsedAtLeast d t t = false := by
  simp only [elapsedAtLeast, BitVec.sub_self, decide_eq_false_iff_not, BitVec.le_def,
    BitVec.toNat_ofNat, Nat.mod_eq_of_lt hd]
  simpa using h0.ne'

/-! ## Cells -/

/-- `cell_position_t`: a cell and its coordinates. -/
structure CellPosition (α : Type) where
  cellID : Nat
  x : α
  y : α
  deriving Repr

/-- `get_cell_position`: the first entry of the table for `cellID`, or `NULL`. -/
def getCellPosition {α : Type} (tbl : List (CellPosition α)) (cellID : Nat) :
    Option (CellPosition α) :=
  tbl.find? (·.cellID == cellID)

/-- `pos ? pos->x : 0`, `pos ? pos->y : 0` for `pos = get_cell_position(cellID)`. -/
def cellXY {α : Type} [Zero α] (tbl : List (CellPosition α)) (cellID : Nat) : α × α :=
  match getCellPosition tbl cellID with
  | some p => (p.x, p.y)
  | none => (0, 0)

/-- `cell_positions` of `ue_localization_MA.c`, of the moving-average program of
`ue_localization_MA_v2.c` and of `kpm_monitor_xapp_v2.c` (the same table in each). -/
def cellPositions : List (CellPosition ℚ) :=
  [⟨2, 800, 800⟩, ⟨3, 1200, 800⟩, ⟨4, 1000, 1146⟩, ⟨5, 600, 1146⟩, ⟨6, 400, 800⟩,
    ⟨7, 600, 453⟩, ⟨8, 1000, 453⟩]

/-! ## Reports -/

/-- `UINT16_MAX`: the ids `parseServingMsg` and `parseNeighMsg` give on a failed parse. -/
def uint16Max : Nat := 65535

/-- `struct InfoObj`: the ids a measurement name carries. -/
structure InfoObj where
  cellID : Nat
  ueID : Nat
  deriving DecidableEq, Repr

/-- `info.cellID != UINT16_MAX && info.ueID != UINT16_MAX`. -/
def InfoObj.valid (info : InfoObj) : Bool := info.cellID != uint16Max && info.ueID != uint16Max

/-- A measurement name, as the matcher reads it: a name starting with
`L3servingSINR3gpp_cell_` and what `parseServingMsg` makes of it, one starting with
`L3neighSINRListOf_UEID_` and what `parseNeighMsg` makes of it, or any other. -/
inductive MeasName where
  | serving (info : InfoObj)
  | neigh (info : InfoObj)
  | other
  deriving DecidableEq, Repr

/-- `meas_type_t`: a name (`NAME_MEAS_TYPE`) or an id. -/
inductive MeasType where
  | name (n : MeasName)
  | id (v : Nat)
  deriving DecidableEq, Repr

/-- A type that names neither a serving record nor a neighbor list is another name or an id. -/
theorem MeasType.other_or_id {t : MeasType} (hs : ∀ info, t ≠ .name (.serving info))
    (hn : ∀ info, t ≠ .name (.neigh info)) : t = .name .other ∨ ∃ v, t = .id v := by
  rcases t with (info | info | _) | v
  exacts [absurd rfl (hs info), absurd rfl (hn info), .inl rfl, .inr ⟨v, rfl⟩]

/-- `meas_record_lst_t`: `INTEGER_MEAS_VALUE` with its `int_val`, `REAL_MEAS_VALUE` with its
`real_val`, or no value. -/
inductive MeasRecord where
  | integer (intVal : Nat)
  | real (realVal : F64)
  | noValue
  deriving DecidableEq, Repr

/-- `kpm_ind_msg_format_1_t`, one UE report: `meas_info_lst` and `meas_data_lst`, each data
item given by its `meas_record_lst`. -/
structure IndMsgFormat1 where
  measInfoLst : List MeasType
  measDataLst : List (List MeasRecord)
  deriving DecidableEq, Repr

/-- A well-formed report of UE `ue` in cell `cell`: its serving SINR, then its neighbor list
of `(SINR, cell id)` pairs. -/
def IndMsgFormat1.ofSamples (ue cell : Nat) (sinr : ℚ) (neigh : List (ℚ × Nat)) :
    IndMsgFormat1 :=
  ⟨[.name (.serving ⟨cell, ue⟩), .name (.neigh ⟨cell, ue⟩)],
    [[.real (num sinr)], neigh.flatMap fun n => [.real (num n.1), .integer n.2]]⟩

/-- A report of UE 1 in cell 2: a serving record, then a neighbor list of one record. -/
def oddNeighborReport : IndMsgFormat1 :=
  ⟨[.name (.serving ⟨2, 1⟩), .name (.neigh ⟨2, 1⟩)], [[.real (num 10)], [.real (num 5)]]⟩

/-- A report of UE 2 in cell 3 whose one neighbor, cell 4, has a NaN SINR. -/
def nanNeighborReport : IndMsgFormat1 :=
  ⟨[.name (.serving ⟨3, 2⟩), .name (.neigh ⟨3, 2⟩)], [[.real (num 8)], [.real nan, .integer 4]]⟩

/-- `meas_info_lst_len != meas_data_lst_len`: the reports every `log_kpm_measurements`
drops at once. -/
def IndMsgFormat1.lenOk (msg : IndMsgFormat1) : Bool :=
  msg.measInfoLst.length == msg.measDataLst.length

/-- The first loop's body on one item: a valid serving name whose first record is real or
an integer gives its sample, `(double)int_val` for an integer. -/
def servingSample : MeasType → List MeasRecord → Option (InfoObj × F64)
  | .name (.serving info), .real x :: _ => if info.valid then some (info, x) else none
  | .name (.serving info), .integer n :: _ => if info.valid then some (info, num n) else none
  | _, _ => none

/-- The serving samples of a report, in `meas_info_lst` order. -/
def servingSamples (msg : IndMsgFormat1) : List (InfoObj × F64) :=
  (msg.measInfoLst.zip msg.measDataLst).filterMap fun d => servingSample d.1 d.2

/-- `for (j = 0; j + 1 < meas_record_len; j += 2)` over a neighbor list: the pairs whose
SINR `[j]` is real and whose cell id `[j + 1]` is an integer; the id is stored in a
`uint16_t`. -/
def neighPairs : List MeasRecord → List (Nat × F64)
  | .real x :: .integer n :: rest => (n % 2 ^ 16, x) :: neighPairs rest
  | _ :: _ :: rest => neighPairs rest
  | _ => []

/-- The second loop's body on one item: a valid neighbor name gives its UE and its pairs. -/
def neighList : MeasType → List MeasRecord → Option (InfoObj × List (Nat × F64))
  | .name (.neigh info), d => if info.valid then some (info, neighPairs d) else none
  | _, _ => none

/-- The neighbor lists of a report, in `meas_info_lst` order. -/
def neighLists (msg : IndMsgFormat1) : List (InfoObj × List (Nat × F64)) :=
  (msg.measInfoLst.zip msg.measDataLst).filterMap fun d => neighList d.1 d.2

/-! ## UE tables -/

section Table

variable {β : Type} (idOf : β → Nat)

/-- The entry of UE `ue`: the first whose id is `ue` (`find_ue_window`, the search of
`get_or_create_ue_buffer`). -/
def findUe (tbl : List β) (ue : Nat) : Option β := tbl.find? (idOf · == ue)

/-- `tbl` with its first entry of UE `ue` replaced by `b`. -/
def setUe (ue : Nat) (b : β) : List β → List β
  | [] => []
  | a :: tbl => if idOf a = ue then b :: tbl else a :: setUe ue b tbl

/-- Find-or-create on a table of capacity `cap`: the entry of `ue`, or a fresh `init ue`
when the table has room, or `NULL`. -/
def getOrCreate (cap : Nat) (init : Nat → β) (tbl : List β) (ue : Nat) : Option β :=
  match findUe idOf tbl ue with
  | some b => some b
  | none => if tbl.length < cap then some (init ue) else none

/-- The table after the entry of `ue` found or created by `getOrCreate` became `b`. -/
def storeUe (tbl : List β) (ue : Nat) (b : β) : List β :=
  match findUe idOf tbl ue with
  | some _ => setUe idOf ue b tbl
  | none => tbl ++ [b]

/-- Update the entry of `ue` in place with `f`, creating it when there is room; a full
table without `ue` is left alone. -/
def updateUe (cap : Nat) (init : Nat → β) (f : β → β) (tbl : List β) (ue : Nat) : List β :=
  match getOrCreate idOf cap init tbl ue with
  | some b => storeUe idOf tbl ue (f b)
  | none => tbl

variable {idOf}

theorem findUe_cons (a : β) (tbl : List β) (ue : Nat) :
    findUe idOf (a :: tbl) ue = if idOf a = ue then some a else findUe idOf tbl ue := by
  by_cases h : idOf a = ue <;> simp [findUe, List.find?_cons, h]

theorem findUe_eq_none {tbl : List β} {ue : Nat} : findUe idOf tbl ue = none ↔ ue ∉ tbl.map idOf := by
  simp [findUe]

theorem findUe_id {tbl : List β} {ue : Nat} {b : β} (h : findUe idOf tbl ue = some b) : idOf b = ue := by
  simpa using List.find?_some h

theorem mem_ids_of_findUe {tbl : List β} {ue : Nat} {b : β} (h : findUe idOf tbl ue = some b) :
    ue ∈ tbl.map idOf :=
  findUe_id h ▸ List.mem_map_of_mem idOf (List.mem_of_find?_eq_some h)

theorem map_setUe {tbl : List β} {ue : Nat} {b : β} (hb : idOf b = ue) :
    (setUe idOf ue b tbl).map idOf = tbl.map idOf := by
  induction tbl with
  | nil => rfl
  | cons a tbl ih => by_cases h : idOf a = ue <;> simp [setUe, h, hb, ih]

theorem findUe_setUe {tbl : List β} {ue : Nat} {b : β} (hb : idOf b = ue)
    (hin : ue ∈ tbl.map idOf) (v : Nat) :
    findUe idOf (setUe idOf ue b tbl) v = if v = ue then some b else findUe idOf tbl v := by
  induction tbl with
  | nil => simp at hin
  | cons a tbl ih =>
    by_cases ha : idOf a = ue
    · simp only [setUe, ha, if_true, findUe_cons, hb]
      by_cases hv : v = ue
      · simp [hv]
      · simp [hv, Ne.symm hv]
    · have hin' : ue ∈ tbl.map idOf := by
        simp only [List.map_cons, List.mem_cons] at hin
        exact hin.resolve_left (Ne.symm ha)
      simp only [setUe, ha, if_false, findUe_cons, ih hin']
      by_cases hv : v = ue <;> simp [hv, ha]

theorem findUe_append_of_none {tbl : List β} {ue : Nat} {b : β} (hb : idOf b = ue)
    (hn : findUe idOf tbl ue = none) (v : Nat) :
    findUe idOf (tbl ++ [b]) v = if v = ue then some b else findUe idOf tbl v := by
  by_cases hv : v = ue
  · subst hv
    simp only [findUe] at hn
    simp [findUe, List.find?_append, hn, hb]
  · cases h : findUe idOf tbl v <;>
      simp_all [findUe, List.find?_append, Ne.symm hv]

/-- What `storeUe` leaves: the entry of `ue` is `b`, every other UE's is unchanged. -/
theorem storeUe_find {tbl : List β} {ue : Nat} {b : β} (hb : idOf b = ue) (v : Nat) :
    findUe idOf (storeUe idOf tbl ue b) v = if v = ue then some b else findUe idOf tbl v := by
  cases h : findUe idOf tbl ue with
  | some a => simpa only [storeUe, h] using findUe_setUe hb (mem_ids_of_findUe h) v
  | none => simpa only [storeUe, h] using findUe_append_of_none hb h v

theorem mem_setUe {tbl : List β} {ue : Nat} {a b : β} (h : a ∈ setUe idOf ue b tbl) :
    a ∈ tbl ∨ a = b := by
  induction tbl with
  | nil => simp [setUe] at h
  | cons c tbl ih =>
    unfold setUe at h
    split at h <;> simp only [List.mem_cons] at h
    · rcases h with rfl | h
      · exact .inr rfl
      · exact .inl (List.mem_cons_of_mem _ h)
    · rcases h with rfl | h
      · exact .inl (List.mem_cons_self _ _)
      · exact (ih h).imp_left (List.mem_cons_of_mem _)

/-- An entry of the table after `storeUe` was in it before, or is the new one. -/
theorem mem_storeUe {tbl : List β} {ue : Nat} {a b : β} (h : a ∈ storeUe idOf tbl ue b) :
    a ∈ tbl ∨ a = b := by
  unfold storeUe at h
  split at h
  · exact mem_setUe h
  · simpa using h

/-- The ids of the table after `storeUe`: unchanged, or `ue` appended. -/
theorem ids_storeUe {tbl : List β} {ue : Nat} {b : β} (hb : idOf b = ue) :
    (storeUe idOf tbl ue b).map idOf =
      if ue ∈ tbl.map idOf then tbl.map idOf else tbl.map idOf ++ [ue] := by
  cases h : findUe idOf tbl ue with
  | some a => simp [storeUe, h, map_setUe hb, mem_ids_of_findUe h]
  | none => simp [storeUe, h, findUe_eq_none.mp h, hb]

/-- `storeUe` keeps the ids pairwise distinct. -/
theorem nodup_storeUe {tbl : List β} {ue : Nat} {b : β} (hb : idOf b = ue)
    (hd : (tbl.map idOf).Nodup) : ((storeUe idOf tbl ue b).map idOf).Nodup := by
  rw [ids_storeUe hb]
  split
  · exact hd
  · rename_i h
    exact List.nodup_append.mpr ⟨hd, List.nodup_singleton ue, by simpa using h⟩

theorem getOrCreate_id {cap : Nat} {init : Nat → β} (hinit : ∀ u, idOf (init u) = u)
    {tbl : List β} {ue : Nat} {b : β} (h : getOrCreate idOf cap init tbl ue = some b) :
    idOf b = ue := by
  unfold getOrCreate at h
  split at h
  · cases h; exact findUe_id ‹_›
  · split at h <;> cases h; exact hinit ue

/-- `updateUe` on `ue` leaves every other UE's entry as it was. -/
theorem findUe_updateUe_ne {cap : Nat} {init : Nat → β} {f : β → β}
    (hinit : ∀ u, idOf (init u) = u) (hf : ∀ b, idOf (f b) = idOf b) (tbl : List β)
    {ue v : Nat} (hv : v ≠ ue) :
    findUe idOf (updateUe idOf cap init f tbl ue) v = findUe idOf tbl v := by
  unfold updateUe
  split
  · rename_i b h
    rw [storeUe_find ((hf b).trans (getOrCreate_id hinit h)), if_neg hv]
  · rfl

/-- An entry of the table after `updateUe` on `ue` was there before, or is `ue`'s. -/
theorem mem_updateUe {cap : Nat} {init : Nat → β} {f : β → β}
    (hinit : ∀ u, idOf (init u) = u) (hf : ∀ b, idOf (f b) = idOf b) {tbl : List β}
    {ue : Nat} {a : β} (h : a ∈ updateUe idOf cap init f tbl ue) : a ∈ tbl ∨ idOf a = ue := by
  unfold updateUe at h
  split at h
  · rename_i b hb
    exact (mem_storeUe h).imp_right fun e : a = f b => by
      rw [e]; exact (hf b).trans (getOrCreate_id hinit hb)
  · exact .inl h

theorem getOrCreate_eq_none {cap : Nat} {init : Nat → β} {tbl : List β} {ue : Nat} :
    getOrCreate idOf cap init tbl ue = none ↔ findUe idOf tbl ue = none ∧ cap ≤ tbl.length := by
  unfold getOrCreate
  split
  · simp_all
  · rename_i h
    split <;> simp_all

/-- What `updateUe` leaves: the entry of `ue` is `f` of the one found or created, every
other UE's is unchanged. -/
theorem findUe_updateUe {cap : Nat} {init : Nat → β} {f : β → β}
    (hinit : ∀ u, idOf (init u) = u) (hf : ∀ b, idOf (f b) = idOf b) (tbl : List β)
    (ue v : Nat) :
    findUe idOf (updateUe idOf cap init f tbl ue) v =
      if v = ue then (getOrCreate idOf cap init tbl ue).map f else findUe idOf tbl v := by
  split
  · subst v
    unfold updateUe
    split
    · rename_i b hb
      rw [storeUe_find ((hf b).trans (getOrCreate_id hinit hb)), if_pos rfl, hb]
      rfl
    · rename_i hb
      rw [hb]
      exact (getOrCreate_eq_none.mp hb).1
  · exact findUe_updateUe_ne hinit hf tbl ‹_›

/-- `updateUe` never shrinks the table. -/
theorem length_le_updateUe {cap : Nat} {init : Nat → β} {f : β → β} (tbl : List β) (ue : Nat) :
    tbl.length ≤ (updateUe idOf cap init f tbl ue).length := by
  have hset : ∀ (b : β) (tbl : List β), (setUe idOf ue b tbl).length = tbl.length := by
    intro b tbl
    induction tbl with
    | nil => rfl
    | cons a tbl ih => unfold setUe; split <;> simp [ih]
  unfold updateUe storeUe
  split
  · split <;> simp [hset]
  · exact le_refl _

/-- `updateUe` keeps the ids pairwise distinct. -/
theorem nodup_updateUe {cap : Nat} {init : Nat → β} {f : β → β}
    (hinit : ∀ u, idOf (init u) = u) (hf : ∀ b, idOf (f b) = idOf b) {tbl : List β}
    (hd : (tbl.map idOf).Nodup) (ue : Nat) :
    ((updateUe idOf cap init f tbl ue).map idOf).Nodup := by
  unfold updateUe
  split
  · rename_i b hb
    exact nodup_storeUe ((hf b).trans (getOrCreate_id hinit hb)) hd
  · exact hd

/-- Mapping an id-keeping `g` over a table maps the entry found. -/
theorem findUe_map {g : β → β} (hg : ∀ b, idOf (g b) = idOf b) (tbl : List β) (u : Nat) :
    findUe idOf (tbl.map g) u = (findUe idOf tbl u).map g := by
  induction tbl with
  | nil => rfl
  | cons a tbl ih =>
    rw [List.map_cons, findUe_cons, findUe_cons, hg, ih]
    split <;> rfl

/-- In a table of distinct ids, an entry is the one `findUe` gives for its id. -/
theorem findUe_of_mem {tbl : List β} (hnd : (tbl.map idOf).Nodup) {b : β} (hb : b ∈ tbl) :
    findUe idOf tbl (idOf b) = some b := by
  induction tbl with
  | nil => simp at hb
  | cons a tbl ih =>
    rw [List.map_cons, List.nodup_cons] at hnd
    rw [findUe_cons]
    rcases List.mem_cons.mp hb with rfl | hb
    · simp
    · have hne : idOf a ≠ idOf b := fun e => hnd.1 (e ▸ List.mem_map_of_mem idOf hb)
      rw [if_neg hne, ih hnd.2 hb]

/-- In a table of distinct ids, the entries of UE `u` are the one `findUe` gives. -/
theorem filter_eq_findUe {tbl : List β} (hnd : (tbl.map idOf).Nodup) (u : Nat) :
    tbl.filter (idOf · = u) = (findUe idOf tbl u).toList := by
  induction tbl with
  | nil => rfl
  | cons a tbl ih =>
    rw [List.map_cons, List.nodup_cons] at hnd
    rw [findUe_cons, List.filter_cons, ih hnd.2]
    by_cases ha : idOf a = u
    · have hn : findUe idOf tbl u = none := findUe_eq_none.mpr (ha ▸ hnd.1)
      simp [ha, hn]
    · simp [ha]

end Table

/-! ## Two tables in step -/

section TableSim

variable {α β : Type} {idA : α → Nat} {idB : β → Nat} {R : α → β → Prop}

/-- Two tables related entry by entry, by a relation that keeps ids, find related
entries. -/
theorem findUe_forall₂ (hid : ∀ {a b}, R a b → idA a = idB b) {as : List α} {bs : List β}
    (h : List.Forall₂ R as bs) (u : Nat) : Option.Rel R (findUe idA as u) (findUe idB bs u) := by
  induction h with
  | nil => exact .none
  | @cons a b as bs hab _ ih =>
    rw [findUe_cons, findUe_cons, hid hab]
    split
    · exact .some hab
    · exact ih

theorem setUe_forall₂ (hid : ∀ {a b}, R a b → idA a = idB b) {as : List α} {bs : List β}
    (h : List.Forall₂ R as bs) {a' : α} {b' : β} (hab : R a' b') (u : Nat) :
    List.Forall₂ R (setUe idA u a' as) (setUe idB u b' bs) := by
  induction h with
  | nil => exact .nil
  | @cons a b as bs hab₀ htl ih =>
    simp only [setUe, hid hab₀]
    split
    · exact .cons hab htl
    · exact .cons hab₀ ih

/-- Related tables stay related when both run the same `updateUe` with related
creations and related updates. -/
theorem updateUe_forall₂ (hid : ∀ {a b}, R a b → idA a = idB b) {cap : Nat}
    {initA : Nat → α} {initB : Nat → β} (hinit : ∀ u, R (initA u) (initB u))
    {fA : α → α} {fB : β → β} (hf : ∀ {a b}, R a b → R (fA a) (fB b))
    {as : List α} {bs : List β} (h : List.Forall₂ R as bs) (u : Nat) :
    List.Forall₂ R (updateUe idA cap initA fA as u) (updateUe idB cap initB fB bs u) := by
  have hstore : ∀ {a' b'}, R a' b' →
      List.Forall₂ R (storeUe idA as u a') (storeUe idB bs u b') := fun hab => by
    unfold storeUe
    have hr := findUe_forall₂ (R := R) hid h u
    generalize findUe idA as u = oa, findUe idB bs u = ob at hr ⊢
    cases hr
    · exact setUe_forall₂ (R := R) hid h hab u
    · exact List.rel_append h (.cons hab .nil)
  have hget : Option.Rel R (getOrCreate idA cap initA as u) (getOrCreate idB cap initB bs u) := by
    unfold getOrCreate
    have hr := findUe_forall₂ (R := R) hid h u
    generalize findUe idA as u = oa, findUe idB bs u = ob at hr ⊢
    cases hr
    · exact .some ‹_›
    · rw [h.length_eq]
      by_cases hc : bs.length < cap
      · simp only [hc, if_true]; exact .some (hinit u)
      · simp only [hc, if_false]; exact .none
  unfold updateUe
  generalize getOrCreate idA cap initA as u = oa, getOrCreate idB cap initB bs u = ob at hget ⊢
  cases hget
  · exact hstore (hf ‹_›)
  · exact h

end TableSim

end UeLoc
