import UeLocalization.Basic
import Mathlib.Data.List.Sort

/-!
# The burst clock of the trilateration program

The second program of `ue_localization_MA_v2.c` stamps its lines with a logical sequence
number: `assign_sequence_timestamp(ue_id)` gives a UE the current sequence the first time
it is seen in a burst (and the same number again after that), and the 28th first call of a
burst (`TOTAL_UES`) advances the sequence and clears every flag.

On ids below 28, every state reached keeps `ClockInv`, and a call does what `AssignSpec`
says (`assign_ok`). Over a whole run from the start-up clock (`assignRun`), the sequence is
the number of first calls divided by 28, the numbers returned never decrease, and every
finished burst gave its number to 28 distinct UEs on their first call (`burst_clock_ok`).

The arrays are functions of the index here, and a call is modelled statement by statement
with every entry it reads or writes (`assignTraced`), the reset loop
`for (i = 0; i <= TOTAL_UES; i++)` included (`resetLoop`): `burst_sequence_assigned` has 28
entries, but a UE id 28 reads entry 28, and on ids below 28 the only accesses outside the
arrays are the reset loop's writes of entry 28, one for each burst a run finishes
(`reset_writes_past_end`).
-/

namespace UeLoc.Trilat

/-- `TOTAL_UES`. -/
def totalUes : Nat := 28

/-- The clock: `current_sequence_timestamp`, `current_burst_ue_count`,
`burst_sequence_assigned` and `ue_sequence_timestamps`, arrays read as functions. -/
structure BurstClock where
  currentSequenceTimestamp : Nat
  currentBurstUeCount : Nat
  burstSequenceAssigned : Nat → Bool
  ueSequenceTimestamps : Nat → Nat

/-- The clock at start-up: all zero. -/
def BurstClock.init : BurstClock := ⟨0, 0, fun _ => false, fun _ => 0⟩

/-- A first call on `u` in the burst: `u` takes the current sequence and is flagged. -/
def BurstClock.flag (c : BurstClock) (u : Nat) : BurstClock :=
  { c with ueSequenceTimestamps := Function.update c.ueSequenceTimestamps u c.currentSequenceTimestamp
           burstSequenceAssigned := Function.update c.burstSequenceAssigned u true
           currentBurstUeCount := c.currentBurstUeCount + 1 }

/-- `for (int i = k; i <= TOTAL_UES; i++) burst_sequence_assigned[i] = false;` from `i = k`:
the flags after, and the entries written, in order. -/
def resetLoop (f : Nat → Bool) (k : Nat) : (Nat → Bool) × List Nat :=
  if k ≤ totalUes then
    ((resetLoop (Function.update f k false) (k + 1)).1,
      k :: (resetLoop (Function.update f k false) (k + 1)).2)
  else (f, [])
termination_by totalUes + 1 - k

/-- The end of a burst: the next sequence, and the reset loop clearing the flags. -/
def BurstClock.nextBurst (c : BurstClock) : BurstClock :=
  { c with currentSequenceTimestamp := c.currentSequenceTimestamp + 1
           currentBurstUeCount := 0
           burstSequenceAssigned := (resetLoop c.burstSequenceAssigned 0).1 }

/-- The two arrays a call indexes. -/
inductive ClockArray where
  | burstSequenceAssigned
  | ueSequenceTimestamps
  deriving DecidableEq, Repr

/-- The entries each is declared with: `burst_sequence_assigned[TOTAL_UES]` and
`ue_sequence_timestamps[TOTAL_UES + 1]`. -/
def ClockArray.size : ClockArray → Nat
  | .burstSequenceAssigned => totalUes
  | .ueSequenceTimestamps => totalUes + 1

/-- `assign_sequence_timestamp(ue_id)` statement by statement: the clock after and the
sequence returned, with each entry of the two arrays read or written, in order. -/
def assignTraced (c : BurstClock) (ueId : Nat) : (BurstClock × Nat) × List (ClockArray × Nat) :=
  if c.burstSequenceAssigned ueId then
    ((c, c.ueSequenceTimestamps ueId),
      [(.burstSequenceAssigned, ueId), (.ueSequenceTimestamps, ueId)])
  else if totalUes ≤ (c.flag ueId).currentBurstUeCount then
    (((c.flag ueId).nextBurst, (c.flag ueId).ueSequenceTimestamps ueId),
      [(.burstSequenceAssigned, ueId), (.ueSequenceTimestamps, ueId),
        (.burstSequenceAssigned, ueId)] ++
      (resetLoop (c.flag ueId).burstSequenceAssigned 0).2.map (.burstSequenceAssigned, ·) ++
      [(.ueSequenceTimestamps, ueId)])
  else
    ((c.flag ueId, (c.flag ueId).ueSequenceTimestamps ueId),
      [(.burstSequenceAssigned, ueId), (.ueSequenceTimestamps, ueId),
        (.burstSequenceAssigned, ueId), (.ueSequenceTimestamps, ueId)])

/-- `assign_sequence_timestamp(ue_id)`: the clock after, and the sequence returned. -/
def assignSequenceTimestamp (c : BurstClock) (ueId : Nat) : BurstClock × Nat :=
  (assignTraced c ueId).1

/-- The call keeps to the arrays: every entry it reads or writes is below its array's
size. -/
def InBounds (c : BurstClock) (ueId : Nat) : Prop :=
  ∀ a ∈ (assignTraced c ueId).2, a.2 < a.1.size

@[simp] theorem flag_seq (c : BurstClock) (u : Nat) :
    (c.flag u).currentSequenceTimestamp = c.currentSequenceTimestamp := rfl
@[simp] theorem flag_count (c : BurstClock) (u : Nat) :
    (c.flag u).currentBurstUeCount = c.currentBurstUeCount + 1 := rfl
@[simp] theorem flag_assigned (c : BurstClock) (u : Nat) :
    (c.flag u).burstSequenceAssigned = Function.update c.burstSequenceAssigned u true := rfl
@[simp] theorem flag_stamps (c : BurstClock) (u : Nat) :
    (c.flag u).ueSequenceTimestamps =
      Function.update c.ueSequenceTimestamps u c.currentSequenceTimestamp := rfl
@[simp] theorem nextBurst_seq (c : BurstClock) :
    c.nextBurst.currentSequenceTimestamp = c.currentSequenceTimestamp + 1 := rfl
@[simp] theorem nextBurst_count (c : BurstClock) : c.nextBurst.currentBurstUeCount = 0 := rfl

/-- The reset loop from `k` clears the flags from `k` to `TOTAL_UES`, and no other. -/
theorem resetLoop_fst (f : Nat → Bool) (k : Nat) :
    (resetLoop f k).1 = fun i => if k ≤ i ∧ i ≤ totalUes then false else f i := by
  induction f, k using resetLoop.induct with
  | case1 f k hk ih =>
    rw [resetLoop, if_pos hk, ih]
    funext i
    by_cases hik : i = k
    · subst hik; simp [hk]
    · rw [Function.update_noteq hik]
      split_ifs <;> first | rfl | omega
  | case2 f k hk =>
    rw [resetLoop, if_neg hk]
    funext i
    rw [if_neg (by omega)]

/-- The reset loop from `k` writes the entries `k..TOTAL_UES`, in order. -/
theorem resetLoop_snd (f : Nat → Bool) (k : Nat) :
    (resetLoop f k).2 = List.range' k (totalUes + 1 - k) := by
  induction f, k using resetLoop.induct with
  | case1 f k hk ih =>
    rw [resetLoop, if_pos hk, ih, show totalUes + 1 - k = totalUes + 1 - (k + 1) + 1 by omega,
      List.range'_succ]
  | case2 f k hk =>
    rw [resetLoop, if_neg hk, show totalUes + 1 - k = 0 by omega, List.range'_zero]

theorem nextBurst_assigned (c : BurstClock) (i : Nat) :
    c.nextBurst.burstSequenceAssigned i = if i ≤ totalUes then false else c.burstSequenceAssigned i := by
  simp [BurstClock.nextBurst, resetLoop_fst]

/-- UE 28, of the ids 1..28 the code declares, at start-up: its first read is entry 28 of
the 28 entries of `burst_sequence_assigned`. -/
theorem assign_ue_28_out_of_bounds : ¬ InBounds BurstClock.init 28 := fun h =>
  absurd (h (.burstSequenceAssigned, 28) (by simp [assignTraced, BurstClock.init, totalUes]))
    (by decide)

/-! ## The invariant -/

/-- What every reached clock keeps: the count is the number of flagged ids and below 28,
only ids below 28 are flagged, and each flagged id holds the current sequence. -/
structure ClockInv (c : BurstClock) : Prop where
  count_eq : c.currentBurstUeCount = (List.range totalUes).countP c.burstSequenceAssigned
  count_lt : c.currentBurstUeCount < totalUes
  flagged_lt : ∀ i, c.burstSequenceAssigned i = true → i < totalUes
  flagged_seq : ∀ i, c.burstSequenceAssigned i = true →
    c.ueSequenceTimestamps i = c.currentSequenceTimestamp

/-- What a call on `u` does: on a flagged id, nothing, returning the sequence the id took
earlier in the burst, the current one; on another, it takes and returns the current
sequence, and the 28th such call moves to the next sequence with every flag cleared. -/
def AssignSpec (c : BurstClock) (u : Nat) : Prop :=
  (c.burstSequenceAssigned u = true →
    assignSequenceTimestamp c u = (c, c.ueSequenceTimestamps u) ∧
      c.ueSequenceTimestamps u = c.currentSequenceTimestamp) ∧
  (c.burstSequenceAssigned u = false → c.currentBurstUeCount + 1 < totalUes →
    assignSequenceTimestamp c u = (c.flag u, c.currentSequenceTimestamp)) ∧
  (c.burstSequenceAssigned u = false → c.currentBurstUeCount + 1 = totalUes →
    (assignSequenceTimestamp c u).2 = c.currentSequenceTimestamp ∧
    (assignSequenceTimestamp c u).1.currentSequenceTimestamp = c.currentSequenceTimestamp + 1 ∧
    (assignSequenceTimestamp c u).1.currentBurstUeCount = 0 ∧
    ∀ i < totalUes, (assignSequenceTimestamp c u).1.burstSequenceAssigned i = false)

theorem countP_update_true {l : List Nat} (hl : l.Nodup) {f : Nat → Bool} {u : Nat}
    (hu : u ∈ l) (hf : f u = false) :
    l.countP (Function.update f u true) = l.countP f + 1 := by
  induction l with
  | nil => simp at hu
  | cons a l ih =>
    obtain ⟨ha, hl⟩ := List.nodup_cons.mp hl
    by_cases hau : a = u
    · subst hau
      have hc : l.countP (Function.update f a true) = l.countP f :=
        List.countP_congr fun x hx => by
          rw [Function.update_noteq (fun h : x = a => ha (h ▸ hx))]
      simp [List.countP_cons, hc, hf]
    · have hu' : u ∈ l := (List.mem_cons.mp hu).resolve_left (Ne.symm hau)
      simp [List.countP_cons, Function.update_noteq hau, ih hl hu']
      omega

theorem assign_flagged {c : BurstClock} {u : Nat} (hu : c.burstSequenceAssigned u = true) :
    assignSequenceTimestamp c u = (c, c.ueSequenceTimestamps u) := by
  simp [assignSequenceTimestamp, assignTraced, hu]

theorem assign_fresh {c : BurstClock} {u : Nat} (hu : c.burstSequenceAssigned u = false)
    (hc : c.currentBurstUeCount + 1 < totalUes) :
    assignSequenceTimestamp c u = (c.flag u, c.currentSequenceTimestamp) := by
  simp [assignSequenceTimestamp, assignTraced, hu, Nat.not_le.mpr hc]

theorem assign_last {c : BurstClock} {u : Nat} (hu : c.burstSequenceAssigned u = false)
    (hc : c.currentBurstUeCount + 1 = totalUes) :
    assignSequenceTimestamp c u = ((c.flag u).nextBurst, c.currentSequenceTimestamp) := by
  simp [assignSequenceTimestamp, assignTraced, hu, hc]

/-- After the last first call of a burst no flag is left. -/
theorem nextBurst_flag_off {c : BurstClock} (hc : ClockInv c) {u : Nat} (hu : u < totalUes)
    (i : Nat) : (c.flag u).nextBurst.burstSequenceAssigned i = false := by
  rw [nextBurst_assigned]
  split
  · rfl
  · rename_i hi
    rw [flag_assigned, Function.update_noteq (by omega)]
    exact Bool.eq_false_iff.mpr fun h => hi (Nat.le_of_lt (hc.flagged_lt i h))

/-- One call on an id below 28 keeps the invariant, and does what `AssignSpec` says. -/
theorem assign_ok {c : BurstClock} (hc : ClockInv c) {u : Nat} (hu : u < totalUes) :
    ClockInv (assignSequenceTimestamp c u).1 ∧ AssignSpec c u := by
  have hspec : AssignSpec c u :=
    ⟨fun h => ⟨assign_flagged h, hc.flagged_seq u h⟩, fun h h' => assign_fresh h h',
      fun h h' => by simp [assign_last h h', nextBurst_assigned]; omega⟩
  refine ⟨?_, hspec⟩
  cases hf : c.burstSequenceAssigned u
  · have hcount := countP_update_true (List.nodup_range totalUes) (List.mem_range.mpr hu) hf
    rcases Nat.lt_or_ge (c.currentBurstUeCount + 1) totalUes with h | h
    · rw [assign_fresh hf h]
      refine ⟨by simp [hcount, hc.count_eq], by simpa using h, fun i hi => ?_, fun i hi => ?_⟩
      · by_cases hiu : i = u
        · exact hiu ▸ hu
        · exact hc.flagged_lt i (by simpa [Function.update_noteq hiu] using hi)
      · by_cases hiu : i = u
        · subst hiu; simp
        · simpa [Function.update_noteq hiu] using hc.flagged_seq i (by simpa [Function.update_noteq hiu] using hi)
    · have h' : c.currentBurstUeCount + 1 = totalUes := le_antisymm hc.count_lt h
      rw [assign_last hf h']
      have hoff := nextBurst_flag_off hc hu
      refine ⟨?_, by simp [totalUes], fun i hi => by simp [hoff i] at hi,
        fun i hi => by simp [hoff i] at hi⟩
      rw [nextBurst_count, eq_comm, List.countP_eq_zero]
      exact fun i _ => by simp [hoff i]
  · rw [assign_flagged hf]
    exact hc

/-- A clock keeping the invariant returns its current sequence. -/
theorem assign_ret {c : BurstClock} (hc : ClockInv c) (u : Nat) :
    (assignSequenceTimestamp c u).2 = c.currentSequenceTimestamp := by
  unfold assignSequenceTimestamp assignTraced
  split
  · exact hc.flagged_seq u ‹_›
  · split <;> simp

/-! ## Runs -/

/-- One call of a run: the UE, whether it was a first call in the burst, and the sequence
returned. -/
structure AssignEvent where
  ueId : Nat
  fresh : Bool
  seq : Nat

/-- A call after the calls so far. -/
def assignStep (st : BurstClock × List AssignEvent) (u : Nat) : BurstClock × List AssignEvent :=
  ((assignSequenceTimestamp st.1 u).1,
    st.2 ++ [⟨u, !st.1.burstSequenceAssigned u, (assignSequenceTimestamp st.1 u).2⟩])

/-- Calls on `us` in turn from clock `c`: the clock after, and the calls. -/
def assignRun (c : BurstClock) (us : List Nat) : BurstClock × List AssignEvent :=
  us.foldl assignStep (c, [])

/-- The clock after a run is the clock's own fold over the calls. -/
theorem foldl_assignStep_fst (us : List Nat) (st : BurstClock × List AssignEvent) :
    (us.foldl assignStep st).1 = us.foldl (fun c u => (assignSequenceTimestamp c u).1) st.1 := by
  induction us generalizing st with
  | nil => rfl
  | cons u us ih => exact ih _

/-- The UEs that got sequence `s` on a first call. -/
def firstCalls (evs : List AssignEvent) (s : Nat) : List Nat :=
  (evs.filter fun e => e.fresh && e.seq == s).map (·.ueId)

theorem firstCalls_append (evs : List AssignEvent) (e : AssignEvent) (s : Nat) :
    firstCalls (evs ++ [e]) s =
      firstCalls evs s ++ if e.fresh && e.seq == s then [e.ueId] else [] := by
  unfold firstCalls
  split <;> simp [*]

theorem firstCalls_eq_nil {evs : List AssignEvent} {s : Nat} (h : ∀ e ∈ evs, e.seq ≤ s) :
    firstCalls evs (s + 1) = [] := by
  simp only [firstCalls, List.map_eq_nil_iff, List.filter_eq_nil_iff, Bool.and_eq_true,
    beq_iff_eq, not_and]
  exact fun e he _ hs => absurd (h e he) (by omega)

/-- What a run keeps, of the clock and the calls so far: the clock's invariant; the
sequence and count say how many first calls there were; the flagged UEs are the first
calls of the current burst, each once; every finished burst had 28 distinct first calls;
and the sequences returned never decrease. -/
structure RunInv (st : BurstClock × List AssignEvent) : Prop where
  clock : ClockInv st.1
  fresh_count : st.1.currentSequenceTimestamp * totalUes + st.1.currentBurstUeCount =
    (st.2.filter (·.fresh)).length
  flags : ∀ i, st.1.burstSequenceAssigned i = true ↔
    i ∈ firstCalls st.2 st.1.currentSequenceTimestamp
  current_nodup : (firstCalls st.2 st.1.currentSequenceTimestamp).Nodup
  current_len : (firstCalls st.2 st.1.currentSequenceTimestamp).length = st.1.currentBurstUeCount
  done : ∀ s < st.1.currentSequenceTimestamp,
    (firstCalls st.2 s).Nodup ∧ (firstCalls st.2 s).length = totalUes
  seq_le : ∀ e ∈ st.2, e.seq ≤ st.1.currentSequenceTimestamp
  sorted : (st.2.map (·.seq)).Sorted (· ≤ ·)

theorem RunInv.init : RunInv (BurstClock.init, []) :=
  ⟨⟨by simp [BurstClock.init], by simp [BurstClock.init, totalUes], by simp [BurstClock.init],
    by simp [BurstClock.init]⟩, rfl, by simp [BurstClock.init, firstCalls], List.nodup_nil, rfl,
    by simp [BurstClock.init], by simp, List.sorted_nil⟩

theorem sorted_append_seq {evs : List AssignEvent} {s : Nat} (h : (evs.map (·.seq)).Sorted (· ≤ ·))
    (hle : ∀ e ∈ evs, e.seq ≤ s) (e : AssignEvent) (he : e.seq = s) :
    ((evs ++ [e]).map (·.seq)).Sorted (· ≤ ·) := by
  rw [List.map_append, List.Sorted, List.pairwise_append]
  refine ⟨h, List.pairwise_singleton _ _, fun a ha b hb => ?_⟩
  obtain ⟨e', he', rfl⟩ := List.mem_map.mp ha
  simp only [List.map_cons, List.map_nil, List.mem_singleton] at hb
  exact hb ▸ he ▸ hle e' he'

theorem seq_le_append {evs : List AssignEvent} {s s' : Nat} (h : ∀ e ∈ evs, e.seq ≤ s)
    (hs : s ≤ s') (e : AssignEvent) (he : e.seq = s) : ∀ e' ∈ evs ++ [e], e'.seq ≤ s' := by
  intro e' h'
  rcases List.mem_append.mp h' with h' | h'
  · exact le_trans (h e' h') hs
  · rw [List.mem_singleton.mp h', he]; exact hs

/-- A call never moves the sequence back. -/
theorem assign_seq_ge (c : BurstClock) (u : Nat) :
    c.currentSequenceTimestamp ≤ (assignSequenceTimestamp c u).1.currentSequenceTimestamp := by
  unfold assignSequenceTimestamp assignTraced
  split_ifs <;> simp

/-- A call on an id below 28 keeps the run's invariant. -/
theorem assignStep_inv {st : BurstClock × List AssignEvent} (h : RunInv st) {u : Nat}
    (hu : u < totalUes) : RunInv (assignStep st u) := by
  obtain ⟨c, evs⟩ := st
  have hinv := (assign_ok h.clock hu).1
  have hle := seq_le_append h.seq_le (assign_seq_ge c u)
    ⟨u, !c.burstSequenceAssigned u, c.currentSequenceTimestamp⟩ rfl
  have hsorted := sorted_append_seq h.sorted h.seq_le
    ⟨u, !c.burstSequenceAssigned u, c.currentSequenceTimestamp⟩ rfl
  simp only [assignStep, assign_ret h.clock u]
  cases hf : c.burstSequenceAssigned u <;> simp only [hf] at hle hsorted
  · have hnot : u ∉ firstCalls evs c.currentSequenceTimestamp := fun hm =>
      absurd ((h.flags u).mpr hm) (by simp [hf])
    have hnd := List.nodup_append.mpr ⟨h.current_nodup, List.nodup_singleton u, by simpa using hnot⟩
    rcases Nat.lt_or_ge (c.currentBurstUeCount + 1) totalUes with hc | hc
    · rw [assign_fresh hf hc] at hinv hle ⊢
      refine ⟨hinv, ?_, fun i => ?_, by simpa [firstCalls_append] using hnd, ?_,
        fun s hs => ?_, hle, hsorted⟩
      · simp [List.filter_append, ← h.fresh_count]; omega
      · by_cases hiu : i = u
        · subst hiu; simp [firstCalls_append]
        · simp [firstCalls_append, Function.update_noteq hiu, h.flags i, hiu]
      · simp [firstCalls_append, h.current_len]
      · simpa [firstCalls_append, Nat.ne_of_gt (show s < c.currentSequenceTimestamp from hs)]
          using h.done s hs
    · have hc' : c.currentBurstUeCount + 1 = totalUes := le_antisymm h.clock.count_lt hc
      rw [assign_last hf hc'] at hinv hle ⊢
      have hoff := nextBurst_flag_off h.clock hu
      have hnil : firstCalls (evs ++ [⟨u, true, c.currentSequenceTimestamp⟩])
          (c.currentSequenceTimestamp + 1) = [] :=
        firstCalls_eq_nil (seq_le_append h.seq_le le_rfl _ rfl)
      refine ⟨hinv, ?_, fun i => by simp [hoff, hnil], by simp [hnil], by simp [hnil],
        fun s hs => ?_, hle, hsorted⟩
      · simp [List.filter_append, ← h.fresh_count, totalUes] at hc' ⊢; omega
      · rcases Nat.lt_or_ge s c.currentSequenceTimestamp with hs' | hs'
        · simpa [firstCalls_append, Nat.ne_of_gt hs'] using h.done s hs'
        · obtain rfl : s = c.currentSequenceTimestamp := by simp at hs; omega
          refine ⟨by simpa [firstCalls_append] using hnd, ?_⟩
          simp [firstCalls_append, h.current_len, hc']
  · rw [assign_flagged hf] at hinv hle ⊢
    refine ⟨h.clock, by simpa [List.filter_append] using h.fresh_count, fun i => ?_, ?_, ?_,
      fun s hs => ?_, hle, hsorted⟩
    · simpa [firstCalls_append] using h.flags i
    · simpa [firstCalls_append] using h.current_nodup
    · simpa [firstCalls_append] using h.current_len
    · simpa [firstCalls_append] using h.done s hs

theorem assignRun_inv {st : BurstClock × List AssignEvent} (h : RunInv st) {us : List Nat}
    (hu : ∀ u ∈ us, u < totalUes) : RunInv (us.foldl assignStep st) := by
  induction us generalizing st with
  | nil => exact h
  | cons u us ih =>
    exact ih (assignStep_inv h (hu u (List.mem_cons_self u us)))
      fun v hv => hu v (List.mem_cons_of_mem u hv)

theorem burst_clock_ok (us : List Nat) (hu : ∀ u ∈ us, u < totalUes) :
    ClockInv (assignRun BurstClock.init us).1 ∧
    (∀ u < totalUes, AssignSpec (assignRun BurstClock.init us).1 u) ∧
    (assignRun BurstClock.init us).1.currentSequenceTimestamp =
      ((assignRun BurstClock.init us).2.filter (·.fresh)).length / totalUes ∧
    ((assignRun BurstClock.init us).2.map (·.seq)).Sorted (· ≤ ·) ∧
    ∀ s < (assignRun BurstClock.init us).1.currentSequenceTimestamp,
      (firstCalls (assignRun BurstClock.init us).2 s).Nodup ∧
        (firstCalls (assignRun BurstClock.init us).2 s).length = totalUes := by
  have h : RunInv (assignRun BurstClock.init us) := assignRun_inv RunInv.init hu
  refine ⟨h.clock, fun u hu' => (assign_ok h.clock hu').2, ?_, h.sorted, h.done⟩
  have := h.clock.count_lt
  rw [← h.fresh_count]
  simp only [totalUes] at this ⊢
  omega

theorem burst_clock_ok_three_calls :
    (∀ u ∈ [0, 1, 0], u < totalUes) ∧
    ClockInv (assignRun BurstClock.init [0, 1, 0]).1 :=
  have hu : ∀ u ∈ [0, 1, 0], u < totalUes := by decide
  ⟨hu, (burst_clock_ok [0, 1, 0] hu).1⟩

/-! ## Array bounds -/

/-- An access outside its array. -/
def outOfBounds (a : ClockArray × Nat) : Bool := a.1.size ≤ a.2

/-- The entries a run of calls from `c` reads and writes, in order. -/
def runAccesses (c : BurstClock) : List Nat → List (ClockArray × Nat)
  | [] => []
  | u :: us => (assignTraced c u).2 ++ runAccesses (assignSequenceTimestamp c u).1 us

/-- Of the reset loop's writes, only the last, of entry 28, is outside the array. -/
theorem resetLoop_outOfBounds (f : Nat → Bool) :
    ((resetLoop f 0).2.map (ClockArray.burstSequenceAssigned, ·)).filter outOfBounds =
      [(.burstSequenceAssigned, totalUes)] := by
  rw [resetLoop_snd]
  decide

/-- On an id below 28, a call's only access outside the arrays is the reset loop's write of
entry 28, made when the call moves the clock to the next sequence. -/
theorem assignTraced_outOfBounds (c : BurstClock) {u : Nat} (hu : u < totalUes) :
    (assignTraced c u).2.filter outOfBounds =
      List.replicate ((assignSequenceTimestamp c u).1.currentSequenceTimestamp -
        c.currentSequenceTimestamp) (.burstSequenceAssigned, totalUes) := by
  have hin : ∀ a : ClockArray, outOfBounds (a, u) = false := fun a => by
    cases a <;> simp only [outOfBounds, ClockArray.size, decide_eq_false_iff_not] <;> omega
  unfold assignSequenceTimestamp assignTraced
  split_ifs
  · simp [hin]
  · simp only [List.filter_append, resetLoop_outOfBounds]
    simp [hin]
  · simp [hin]

theorem foldl_assign_seq_ge (c : BurstClock) (us : List Nat) :
    c.currentSequenceTimestamp ≤
      (us.foldl (fun c u => (assignSequenceTimestamp c u).1) c).currentSequenceTimestamp := by
  induction us generalizing c with
  | nil => exact le_rfl
  | cons u us ih => exact (assign_seq_ge c u).trans (ih _)

/-- Over every run on ids below 28, from any clock, the accesses outside the arrays are the
reset loop's writes of entry 28 of `burst_sequence_assigned`, one for each burst the run
finishes. -/
theorem reset_writes_past_end (c : BurstClock) {us : List Nat} (hu : ∀ u ∈ us, u < totalUes) :
    (runAccesses c us).filter outOfBounds =
      List.replicate ((us.foldl (fun c u => (assignSequenceTimestamp c u).1) c).currentSequenceTimestamp -
        c.currentSequenceTimestamp) (.burstSequenceAssigned, totalUes) := by
  induction us generalizing c with
  | nil => simp [runAccesses]
  | cons u us ih =>
    have h₁ := assign_seq_ge c u
    have h₂ := foldl_assign_seq_ge (assignSequenceTimestamp c u).1 us
    rw [runAccesses, List.filter_append, assignTraced_outOfBounds c (hu u (List.mem_cons_self u us)),
      ih _ fun v hv => hu v (List.mem_cons_of_mem u hv), List.append_replicate_replicate,
      List.foldl_cons]
    congr 1
    omega

/-- UEs 0..27 at start-up: one burst, one write past the end. -/
theorem reset_writes_past_end_first_burst :
    (∀ u ∈ List.range 28, u < totalUes) ∧
      (runAccesses BurstClock.init (List.range 28)).filter outOfBounds =
        List.replicate (((List.range 28).foldl (fun c u => (assignSequenceTimestamp c u).1)
          BurstClock.init).currentSequenceTimestamp - BurstClock.init.currentSequenceTimestamp)
          (.burstSequenceAssigned, totalUes) :=
  have hu : ∀ u ∈ List.range 28, u < totalUes := by decide
  ⟨hu, reset_writes_past_end BurstClock.init hu⟩

end UeLoc.Trilat
