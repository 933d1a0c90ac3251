import Mathlib.Algebra.Order.Field.Rat
import Mathlib.Algebra.Order.BigOperators.Group.List
import Mathlib.Data.List.DropRight
import Mathlib.Tactic.NormNum

/-!
# The PRB average of the mmWave eNB device

`MmWaveEnbNetDevice::CalculatePrbAverage` turns the MAC symbol counts of the UE map into one
PRB value per call, pushes it on `m_prbHistory`, and once the history holds
`MAX_PRB_HISTORY` values returns their mean and drops the oldest. `CheckReportingFlag` calls
it on each check of a valid subscription. Doubles are taken as exact rationals.

* `calculatePrbAverage_window`: one call moves the sliding window (`prbWindow`) on by the
  call's value;
* `prb_history_window`: over every sequence of calls from the empty history, call `k`
  leaves the last `min k (MAX_PRB_HISTORY - 1)` values and returns `0` before
  `MAX_PRB_HISTORY` values exist, the mean of the last `MAX_PRB_HISTORY` from then on;
* `check_sends_every_report`: since no call returns a negative value, the guard
  `currentPrbAvg >= 0` of `CheckReportingFlag` never holds a report back, so every check
  with a test condition sends one, from the first.
-/

namespace UeLoc.EnbDevice

/-- What `CalculatePrbAverage` reads of one UE of `m_rrc->GetUeMap()`:
`GetMacNumberOfSymbolsUeSpecific`, then `Simulator::Now() - GetLastResetTime(..)` and the slot
period, in nanoseconds. -/
structure UeUsage where
  macNumberOfSymbols : ℚ
  reportingWindowNs : Int
  slotPeriodNs : Int
  deriving DecidableEq

/-- `dlAvailablePrbs`. -/
def dlAvailablePrbs : ℚ := 139

/-- `denominatorPrb`: `GetNanoSeconds()` is an `int64_t`, so the quotient is truncated
before `std::ceil`, which leaves it as it is. -/
def denominatorPrb (u : UeUsage) : ℚ := (u.reportingWindowNs.tdiv u.slotPeriodNs : ℚ) * 14

/-- One UE's term of `totalPrbUtilization`; a UE with no slot in its window adds nothing. -/
def prbShare (u : UeUsage) : ℚ :=
  if denominatorPrb u > 0 then u.macNumberOfSymbols / denominatorPrb u * 139 else 0

/-- `totalPrbUtilization`, the loop over the UE map. -/
def totalPrbUtilization (ues : List UeUsage) : ℚ := (ues.map prbShare).sum

/-- `currentPrbValue`. -/
def currentPrbValue (ues : List UeUsage) : ℚ :=
  min (totalPrbUtilization ues / dlAvailablePrbs * 100) 100

/-- `CalculatePrbAverage`, with `m_prbHistory` passed in and returned after the value:
push, and at exactly `MAX_PRB_HISTORY` values, their mean, erasing the first. -/
def calculatePrbAverage (maxPrbHistory : Nat) (prbHistory : List ℚ) (ues : List UeUsage) :
    ℚ × List ℚ :=
  let prbHistory := prbHistory ++ [currentPrbValue ues]
  if prbHistory.length = maxPrbHistory then (prbHistory.sum / maxPrbHistory, prbHistory.tail)
  else (0, prbHistory)

/-- Successive calls from a history: each call's value and the history it leaves. -/
def prbTrace (maxPrbHistory : Nat) : List ℚ → List (List UeUsage) → List (ℚ × List ℚ)
  | _, [] => []
  | prbHistory, ues :: calls =>
    let r := calculatePrbAverage maxPrbHistory prbHistory ues
    r :: prbTrace maxPrbHistory r.2 calls

/-! ## The sliding window -/

/-- What the call that brings the values to `vs` returns and leaves, as a sliding window
of `maxPrbHistory` values: `0` while fewer exist, then the mean of the last
`maxPrbHistory`; the last `maxPrbHistory - 1` are kept for the next call. -/
def prbWindow (maxPrbHistory : Nat) (vs : List ℚ) : ℚ × List ℚ :=
  (if vs.length < maxPrbHistory then 0 else (vs.rtake maxPrbHistory).sum / maxPrbHistory,
   vs.rtake (maxPrbHistory - 1))

theorem rtake_append_singleton (l : List ℚ) (v : ℚ) (n : Nat) :
    (l ++ [v]).rtake (n + 1) = l.rtake n ++ [v] := by
  simp only [List.rtake, List.length_append, List.length_singleton]
  rw [show l.length + 1 - (n + 1) = l.length - n by omega,
    List.drop_append_of_le_length (Nat.sub_le _ _)]

theorem rtake_of_length_le {l : List ℚ} {n : Nat} (h : l.length ≤ n) : l.rtake n = l := by
  simp [List.rtake, Nat.sub_eq_zero_of_le h]

theorem rtake_min_of_length {l : List ℚ} {k : Nat} (h : l.length = k) (n : Nat) :
    l.rtake (min k n) = l.rtake n := by
  simp only [List.rtake]
  congr 1
  omega

section Window

variable {maxPrbHistory : Nat}

/-- One call moves the window on by the call's `currentPrbValue`. -/
theorem calculatePrbAverage_window (hmax : 1 ≤ maxPrbHistory) (vs : List ℚ)
    (ues : List UeUsage) :
    calculatePrbAverage maxPrbHistory (prbWindow maxPrbHistory vs).2 ues =
      prbWindow maxPrbHistory (vs ++ [currentPrbValue ues]) := by
  obtain ⟨m, rfl⟩ : ∃ m, maxPrbHistory = m + 1 := ⟨maxPrbHistory - 1, by omega⟩
  generalize hw : vs ++ [currentPrbValue ues] = w
  have hpush : vs.rtake m ++ [currentPrbValue ues] = w.rtake (m + 1) :=
    hw ▸ (rtake_append_singleton vs _ m).symm
  have hwlen : w.length = vs.length + 1 := by simp [← hw]
  have hlen : (w.rtake (m + 1)).length = min (m + 1) w.length := by simp [List.rtake]; omega
  simp only [calculatePrbAverage, prbWindow, Nat.add_sub_cancel]
  rw [hpush, hlen]
  by_cases hfull : m + 1 ≤ w.length
  · -- the history was full: the mean of the last `m + 1`, then the oldest is erased
    rw [if_pos (by omega), if_neg (by omega)]
    simp only [List.rtake, List.tail_drop]
    congr 2
    omega
  · -- still filling: nothing is returned and nothing erased
    rw [if_neg (by omega), if_pos (by omega), rtake_of_length_le (by omega),
      rtake_of_length_le (by omega)]

/-- Every call of a trace from a window follows the window on the values so far. -/
theorem prbTrace_getElem? (hmax : 1 ≤ maxPrbHistory) (vs : List ℚ)
    (calls : List (List UeUsage)) {k : Nat} (hk : k < calls.length) :
    (prbTrace maxPrbHistory (prbWindow maxPrbHistory vs).2 calls)[k]? =
      some (prbWindow maxPrbHistory (vs ++ (calls.take (k + 1)).map currentPrbValue)) := by
  induction calls generalizing vs k with
  | nil => exact absurd hk (Nat.not_lt_zero _)
  | cons ues calls ih =>
    simp only [prbTrace, calculatePrbAverage_window hmax]
    cases k with
    | zero => simp
    | succ k =>
      rw [List.getElem?_cons_succ, ih _ (by simpa using hk)]
      simp [List.take_succ_cons]

/-- Over every sequence of calls from the empty history, call `k` (counted from 1) leaves
the last `min k (maxPrbHistory - 1)` of the values `v₁, …, v_k`, and returns `0` if
`k < maxPrbHistory` and the mean of `v_{k - maxPrbHistory + 1}, …, v_k` otherwise. -/
theorem prb_history_window (hmax : 1 ≤ maxPrbHistory) (calls : List (List UeUsage)) (k : Nat)
    (hk1 : 1 ≤ k) (hk : k ≤ calls.length) :
    (prbTrace maxPrbHistory [] calls)[k - 1]? =
      some (if k < maxPrbHistory then 0
            else (((calls.take k).map currentPrbValue).rtake maxPrbHistory).sum / maxPrbHistory,
            ((calls.take k).map currentPrbValue).rtake (min k (maxPrbHistory - 1))) := by
  obtain ⟨j, rfl⟩ : ∃ j, k = j + 1 := ⟨k - 1, by omega⟩
  have hlen : ((calls.take (j + 1)).map currentPrbValue).length = j + 1 := by simp; omega
  have hstart : prbWindow maxPrbHistory [] = (0, []) := by
    simp [prbWindow, List.rtake]
  have h := prbTrace_getElem? hmax [] calls (k := j) (by omega)
  rw [hstart, List.nil_append] at h
  rw [Nat.add_sub_cancel, h, rtake_min_of_length hlen]
  simp only [prbWindow, hlen]

end Window

/-- Three calls of values `10, 20, 30` with a history of two: the third returns `25` and
leaves `30`. -/
theorem prb_history_window_three_calls :
    (prbTrace 2 [] [[UeUsage.mk 14 10 1], [UeUsage.mk 28 10 1], [UeUsage.mk 42 10 1]])[3 - 1]? =
      some (25, [30]) := by
  rw [prb_history_window (by decide) _ 3 (by decide) (by decide)]
  norm_num [currentPrbValue, totalPrbUtilization, prbShare, denominatorPrb, dlAvailablePrbs,
    List.rtake]

/-! ## The reporting check -/

/-- The members of `MmWaveEnbNetDevice` that `CheckReportingFlag` reads and writes. -/
structure Device where
  prbHistory : List ℚ
  isReportingEnabled : Bool
  isReported : Bool

/-- What one `CheckReportingFlag` call reads: `m_stopSendingMessages`,
`m_hasValidSubscription`, the `int`s under "Test Condition Expression" and "Test Condition
Value" (`none` when the subscription map is empty or `at` or `any_cast` throws, which ends the
`try` block before `CalculatePrbAverage`), and the UE map. -/
structure Check where
  stopSendingMessages : Bool
  hasValidSubscription : Bool
  testCondition : Option (Int × Int)
  ues : List UeUsage

/-- `CheckReportingFlag`: the device after the check, and whether it called
`BuildAndSendReportMessage`. The answer of `MATH_CALL_BACKS[index]` is overwritten by
`true`. -/
def checkReportingFlag (maxPrbHistory : Nat) (d : Device) (c : Check) : Device × Bool :=
  if !c.stopSendingMessages && c.hasValidSubscription then
    match c.testCondition with
    | none => (d, false)
    | some _ =>
      let r := calculatePrbAverage maxPrbHistory d.prbHistory c.ues
      let d := { d with prbHistory := r.2 }
      if r.1 ≥ 0 then
        let shouldReport := true
        if !d.isReportingEnabled then
          if shouldReport then ({ d with isReported := true, isReportingEnabled := true }, true)
          else (d, false)
        else (d, true)
      else (d, false)
  else (d, false)

/-- Whether each of successive checks sends a report. -/
def checkRun (maxPrbHistory : Nat) : Device → List Check → List Bool
  | _, [] => []
  | d, c :: checks =>
    let r := checkReportingFlag maxPrbHistory d c
    r.2 :: checkRun maxPrbHistory r.1 checks

/-- A UE map whose symbol counts are not negative. -/
def UsageNonneg (ues : List UeUsage) : Prop := ∀ u ∈ ues, 0 ≤ u.macNumberOfSymbols

theorem currentPrbValue_nonneg {ues : List UeUsage} (h : UsageNonneg ues) :
    0 ≤ currentPrbValue ues := by
  have hshare : ∀ x ∈ ues.map prbShare, 0 ≤ x := by
    simp only [List.mem_map]
    rintro _ ⟨u, hu, rfl⟩
    unfold prbShare
    split
    · exact mul_nonneg (div_nonneg (h u hu) (le_of_lt ‹_›)) (by norm_num)
    · exact le_refl 0
  exact le_min (mul_nonneg (div_nonneg (List.sum_nonneg hshare) (by norm_num [dlAvailablePrbs]))
    (by norm_num)) (by norm_num)

/-- A call on a history of non-negative values returns one and keeps them so. -/
theorem calculatePrbAverage_nonneg (maxPrbHistory : Nat) {prbHistory : List ℚ}
    (hh : ∀ x ∈ prbHistory, 0 ≤ x) {ues : List UeUsage} (hu : UsageNonneg ues) :
    0 ≤ (calculatePrbAverage maxPrbHistory prbHistory ues).1 ∧
      ∀ x ∈ (calculatePrbAverage maxPrbHistory prbHistory ues).2, 0 ≤ x := by
  have hpush : ∀ x ∈ prbHistory ++ [currentPrbValue ues], 0 ≤ x :=
    List.forall_mem_append.mpr ⟨hh, by simpa using currentPrbValue_nonneg hu⟩
  dsimp only [calculatePrbAverage]
  split
  · exact ⟨div_nonneg (List.sum_nonneg hpush) (Nat.cast_nonneg _),
      fun x hx => hpush x (List.mem_of_mem_tail hx)⟩
  · exact ⟨le_refl 0, hpush⟩

/-- One check sends a report exactly when it passes the subscription tests. -/
theorem checkReportingFlag_sends (maxPrbHistory : Nat) {d : Device}
    (hd : ∀ x ∈ d.prbHistory, 0 ≤ x) {c : Check} (hc : UsageNonneg c.ues) :
    (checkReportingFlag maxPrbHistory d c).2 =
        (!c.stopSendingMessages && c.hasValidSubscription && c.testCondition.isSome) ∧
      ∀ x ∈ (checkReportingFlag maxPrbHistory d c).1.prbHistory, 0 ≤ x := by
  obtain ⟨hr, hh⟩ := calculatePrbAverage_nonneg maxPrbHistory hd hc
  unfold checkReportingFlag
  split
  · rename_i hguard
    cases c.testCondition with
    | none => simpa [hguard] using hd
    | some _ => cases d.isReportingEnabled <;> simpa [hguard, hr] using hh
  · simpa [*] using hd

/-- With symbol counts that are not negative, each of successive checks from a device whose
history holds no negative value sends a report exactly when it is not stopped, has a valid
subscription and finds both test-condition entries: before `MAX_PRB_HISTORY` values exist
too, where `CalculatePrbAverage` returns `0` and not `-1`, so `currentPrbAvg >= 0` never
holds a report back. -/
theorem check_sends_every_report (maxPrbHistory : Nat) (d : Device)
    (hd : ∀ x ∈ d.prbHistory, 0 ≤ x) (checks : List Check)
    (hc : ∀ c ∈ checks, UsageNonneg c.ues) :
    checkRun maxPrbHistory d checks = checks.map fun c =>
      !c.stopSendingMessages && c.hasValidSubscription && c.testCondition.isSome := by
  induction checks generalizing d with
  | nil => rfl
  | cons c checks ih =>
    have hc' := List.forall_mem_cons.mp hc
    obtain ⟨hsend, hh⟩ := checkReportingFlag_sends maxPrbHistory hd hc'.1
    simp only [checkRun, List.map_cons, hsend, ih _ hh hc'.2]

/-- The first check of a fresh device with a valid subscription sends a report, though no
PRB average exists yet. -/
theorem check_sends_every_report_first :
    checkRun 10 ⟨[], false, false⟩ [⟨false, true, some (0, 50), [UeUsage.mk 14 10 1]⟩] =
      [true] := by
  rw [check_sends_every_report 10 _ (by simp) _ (by simp [UsageNonneg])]
  rfl

end UeLoc.EnbDevice
