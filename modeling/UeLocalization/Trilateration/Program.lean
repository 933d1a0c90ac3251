import UeLocalization.Trilateration.Burst
import UeLocalization.Trilateration.Send

/-!
# The trilateration program's reports

`log_kpm_measurements` of the second program of `ue_localization_MA_v2.c` adds a report's
serving samples and neighbor entries to the UE buffers (28 at most), and then walks every
buffer with a sample: each gets a sequence number from `assign_sequence_timestamp` and is
handed to `check_and_send_ue_data` (`sendUeData`).

So a report sends every UE's latest sample, not only its own UE's: a report that carries
nothing of UE `u` writes `u`'s buffer again, as it was (`report_resends`). At the first tick
of a cohort, UE 0's sample is written once for UE 0's report and again for UE 1's
(`tick_zero_sample_sent_twice`). The send loop's calls reach `assign_sequence_timestamp`
with every id a report names, and a report of UE 28 at start-up reads entry 28 of the
28 entries of `burst_sequence_assigned` (`ue_28_report_out_of_bounds`).

On reports whose UE ids are below 28, the program's clock is the burst clock run on the
send loops' calls (`ProgInv`): it keeps `ClockInv`, and the sequences of the records written
never decrease (`record_sequences_monotone`).
-/

namespace UeLoc.Trilat

open F64 (num nan)

/-- `ue_buffers` holds 28 UEs. -/
def maxUeBuffers : Nat := 28

/-- `get_or_create_ue_buffer`. -/
def getOrCreateUeBuffer (bufs : List UeBuffer) (ueID : Nat) : Option UeBuffer :=
  getOrCreate (·.ueID) maxUeBuffers UeBuffer.init bufs ueID

/-- The first loop on one serving sample. -/
def addServing (bufs : List UeBuffer) (s : InfoObj × F64) : List UeBuffer :=
  updateUe (·.ueID) maxUeBuffers UeBuffer.init (addServingSample · s.1.cellID s.2)
    bufs s.1.ueID

/-- The second loop on one neighbor list. -/
def addNeighbors (bufs : List UeBuffer) (l : InfoObj × List (Nat × F64)) : List UeBuffer :=
  updateUe (·.ueID) maxUeBuffers UeBuffer.init
    (fun b => l.2.foldl (fun b pr => addNeighborSample b pr.1 pr.2) b) bufs l.1.ueID

/-- The buffers after a report's two loops. -/
def collectReport (bufs : List UeBuffer) (msg : IndMsgFormat1) : List UeBuffer :=
  (neighLists msg).foldl addNeighbors ((servingSamples msg).foldl addServing bufs)

/-- The send loop `for (i = 0; i < num_active_ues; i++)`: every buffer with a sample takes
its sequence from `assign_sequence_timestamp` and goes to `check_and_send_ue_data`. -/
def sendUeData (c : BurstClock) : List UeBuffer → BurstClock × List TrilatRecord
  | [] => (c, [])
  | b :: bs =>
    if 0 < b.historyCount then
      ((sendUeData (assignSequenceTimestamp c b.ueID).1 bs).1,
        (checkAndSendUeData b (assignSequenceTimestamp c b.ueID).2).toList ++
          (sendUeData (assignSequenceTimestamp c b.ueID).1 bs).2)
    else sendUeData c bs

/-- The program's state: `ue_buffers[0..num_active_ues)` and the burst clock. -/
structure TrilatState where
  ueBuffers : List UeBuffer
  clock : BurstClock

/-- The state at start-up. -/
def TrilatState.init : TrilatState := ⟨[], BurstClock.init⟩

/-- `log_kpm_measurements` of the trilateration program: the state after, and the records
written. -/
def logKpmMeasurements (s : TrilatState) (msg : IndMsgFormat1) : TrilatState × List TrilatRecord :=
  if msg.lenOk then
    (⟨collectReport s.ueBuffers msg, (sendUeData s.clock (collectReport s.ueBuffers msg)).1⟩,
      (sendUeData s.clock (collectReport s.ueBuffers msg)).2)
  else (s, [])

/-- `sm_cb_kpm`: the UE reports in turn. -/
def smCbKpm (s : TrilatState) : List IndMsgFormat1 → TrilatState × List TrilatRecord
  | [] => (s, [])
  | r :: rs =>
    ((smCbKpm (logKpmMeasurements s r).1 rs).1,
      (logKpmMeasurements s r).2 ++ (smCbKpm (logKpmMeasurements s r).1 rs).2)

/-! ## The send loop -/

/-- The UEs whose buffers hold a sample, in table order: the ids the send loop passes to
`assign_sequence_timestamp`. -/
def activeIds (bufs : List UeBuffer) : List Nat :=
  (bufs.filter (0 < ·.historyCount)).map (·.ueID)

theorem activeIds_cons (b : UeBuffer) (bs : List UeBuffer) :
    activeIds (b :: bs) = if 0 < b.historyCount then b.ueID :: activeIds bs else activeIds bs := by
  by_cases h : 0 < b.historyCount <;> simp [activeIds, h]

/-- The send loop moves the clock by one call per active id, in table order. -/
theorem sendUeData_clock (c : BurstClock) (bs : List UeBuffer) :
    (sendUeData c bs).1 = (activeIds bs).foldl (fun c u => (assignSequenceTimestamp c u).1) c := by
  induction bs generalizing c with
  | nil => rfl
  | cons b bs ih => by_cases hb : 0 < b.historyCount <;> simp [sendUeData, activeIds_cons, hb, ih]

/-- The clock the send loop has reached at the first buffer of UE `u`: after the calls of
the buffers with a sample before it. -/
def clockAt (c : BurstClock) (bufs : List UeBuffer) (u : Nat) : BurstClock :=
  (activeIds (bufs.takeWhile (·.ueID ≠ u))).foldl (fun c v => (assignSequenceTimestamp c v).1) c

/-- The first buffer of UE `u`, when it holds a sample, is sent under the sequence its call
returns on the clock the loop has reached. -/
theorem sent_at {u : Nat} {b : UeBuffer} (hc : 0 < b.historyCount) {bs : List UeBuffer}
    (hb : findUe (·.ueID) bs u = some b) (c : BurstClock) {r : TrilatRecord}
    (hr : checkAndSendUeData b (assignSequenceTimestamp (clockAt c bs u) u).2 = some r) :
    r ∈ (sendUeData c bs).2 := by
  induction bs generalizing c with
  | nil => simp [findUe] at hb
  | cons b' bs ih =>
    rw [findUe_cons] at hb
    by_cases hu : b'.ueID = u
    · rw [if_pos hu, Option.some.injEq] at hb
      subst hb hu
      simp only [sendUeData, if_pos hc, List.mem_append, Option.mem_toList]
      exact .inl (by simpa [clockAt, activeIds] using hr)
    · rw [if_neg hu] at hb
      by_cases ha : 0 < b'.historyCount <;>
        simp [sendUeData, ha, ih hb _ (by simpa [clockAt, hu, ha, activeIds_cons] using hr)]

/-! ## What a report leaves alone -/

theorem findUe_foldl_updateUe {α : Type} (step : List UeBuffer → α → List UeBuffer)
    (key : α → Nat) (g : α → UeBuffer → UeBuffer) (hg : ∀ a b, (g a b).ueID = b.ueID)
    (hstep : ∀ bufs x, step bufs x = updateUe (·.ueID) maxUeBuffers UeBuffer.init (g x) bufs (key x))
    {u : Nat} : ∀ (xs : List α) (bufs : List UeBuffer), (∀ x ∈ xs, key x ≠ u) →
      findUe (·.ueID) (xs.foldl step bufs) u = findUe (·.ueID) bufs u
  | [], _, _ => rfl
  | x :: xs, bufs, h => by
    rw [List.foldl_cons, findUe_foldl_updateUe step key g hg hstep xs _
      fun y hy => h y (List.mem_cons_of_mem _ hy), hstep,
      findUe_updateUe_ne (fun _ => rfl) (hg x) _ (Ne.symm (h x (List.mem_cons_self _ _)))]

/-- A report with no sample of UE `u` leaves `u`'s buffer as it was. -/
theorem findUe_collectReport {bufs : List UeBuffer} {msg : IndMsgFormat1} {u : Nat}
    (hs : ∀ x ∈ servingSamples msg, x.1.ueID ≠ u) (hn : ∀ x ∈ neighLists msg, x.1.ueID ≠ u) :
    findUe (·.ueID) (collectReport bufs msg) u = findUe (·.ueID) bufs u :=
  (findUe_foldl_updateUe addNeighbors (·.1.ueID) _ (fun _ _ => foldl_addNeighborSample_ueID _ _)
    (fun _ _ => rfl) _ _ hn).trans
    (findUe_foldl_updateUe addServing (·.1.ueID) (fun s b => addServingSample b s.1.cellID s.2)
      (fun _ _ => rfl) (fun _ _ => rfl) _ _ hs)

/-- A well-formed report that carries nothing of UE `u` leaves `u`'s buffer as it was, and
writes it again, under the sequence its call returns on the clock the send loop has reached:
a UE's sample is written once more for every report that follows it. -/
theorem report_resends {s : TrilatState} {msg : IndMsgFormat1} (hm : msg.lenOk = true) {u : Nat}
    (hs : ∀ x ∈ servingSamples msg, x.1.ueID ≠ u) (hn : ∀ x ∈ neighLists msg, x.1.ueID ≠ u)
    {b : UeBuffer} (hb : findUe (·.ueID) s.ueBuffers u = some b) (hc : 0 < b.historyCount) :
    findUe (·.ueID) (logKpmMeasurements s msg).1.ueBuffers u = some b ∧
      ∀ r, checkAndSendUeData b
          (assignSequenceTimestamp (clockAt s.clock (collectReport s.ueBuffers msg) u) u).2 =
            some r → r ∈ (logKpmMeasurements s msg).2 := by
  have hb' := (findUe_collectReport hs hn).trans hb
  refine ⟨by simpa [logKpmMeasurements, hm] using hb', fun r hr => ?_⟩
  simpa [logKpmMeasurements, hm] using sent_at hc hb' s.clock hr

/-! ## A cohort's first tick -/

/-- The report of UE `ue` in cell 2: serving SINR 10, cells 3, 4, 5 at SINRs 5, 4, 3. -/
def cohortReport (ue : Nat) : IndMsgFormat1 :=
  IndMsgFormat1.ofSamples ue 2 10 [(5, 3), (4, 4), (3, 5)]

/-- The buffer `cohortReport ue` leaves for its UE. -/
def cohortBuffer (ue : Nat) : UeBuffer := ⟨ue, 2, ⟨num 10, [(3, num 5), (4, num 4), (5, num 3)]⟩, 1⟩

/-- The record of `cohortReport ue` under sequence `seq`. -/
def cohortRecord (ue seq : Nat) : TrilatRecord :=
  ⟨seq, ue, 2, 800, 800, num 10, [neighborData (3, num 5), neighborData (4, num 4),
    neighborData (5, num 3)]⟩

/-- At start-up, UE 0 then UE 1 report their first samples: whatever follows, UE 0's sample
is written twice, once for each report. -/
theorem tick_zero_sample_sent_twice (rest : List IndMsgFormat1) :
    (smCbKpm TrilatState.init (cohortReport 0 :: cohortReport 1 :: rest)).2.take 3 =
      [cohortRecord 0 0, cohortRecord 0 0, cohortRecord 1 0] := by
  have h₀ : (logKpmMeasurements TrilatState.init (cohortReport 0)).2 = [cohortRecord 0 0] := by
    decide
  have h₁ : (logKpmMeasurements (logKpmMeasurements TrilatState.init (cohortReport 0)).1
      (cohortReport 1)).2 = [cohortRecord 0 0, cohortRecord 1 0] := by
    decide
  simp [smCbKpm, h₀, h₁]

/-- UE 0's buffer, left by its report at start-up, is written again for UE 1's report. -/
theorem report_resends_cohort :
    (cohortReport 1).lenOk = true ∧ (∀ x ∈ servingSamples (cohortReport 1), x.1.ueID ≠ 0) ∧
      (∀ x ∈ neighLists (cohortReport 1), x.1.ueID ≠ 0) ∧
      findUe (·.ueID) (logKpmMeasurements TrilatState.init (cohortReport 0)).1.ueBuffers 0 =
        some (cohortBuffer 0) ∧ 0 < (cohortBuffer 0).historyCount ∧
      findUe (·.ueID) (logKpmMeasurements (logKpmMeasurements TrilatState.init (cohortReport 0)).1
          (cohortReport 1)).1.ueBuffers 0 = some (cohortBuffer 0) ∧
      ∀ r, checkAndSendUeData (cohortBuffer 0) (assignSequenceTimestamp
          (clockAt (logKpmMeasurements TrilatState.init (cohortReport 0)).1.clock
            (collectReport (logKpmMeasurements TrilatState.init (cohortReport 0)).1.ueBuffers
              (cohortReport 1)) 0) 0).2 = some r →
        r ∈ (logKpmMeasurements (logKpmMeasurements TrilatState.init (cohortReport 0)).1
          (cohortReport 1)).2 :=
  have hm : (cohortReport 1).lenOk = true := rfl
  have hs : ∀ x ∈ servingSamples (cohortReport 1), x.1.ueID ≠ 0 := by decide
  have hn : ∀ x ∈ neighLists (cohortReport 1), x.1.ueID ≠ 0 := by decide
  have hb : findUe (·.ueID) (logKpmMeasurements TrilatState.init (cohortReport 0)).1.ueBuffers 0 =
      some (cohortBuffer 0) := by decide
  ⟨hm, hs, hn, hb, Nat.one_pos, report_resends hm hs hn hb Nat.one_pos⟩

/-! ## Array bounds -/

/-- Every call of the send loop keeps to the arrays. -/
def SendInBounds : BurstClock → List UeBuffer → Prop
  | _, [] => True
  | c, b :: bs =>
    if 0 < b.historyCount then
      InBounds c b.ueID ∧ SendInBounds (assignSequenceTimestamp c b.ueID).1 bs
    else SendInBounds c bs

/-- `get_or_create_ue_buffer` takes UE 28, and the send loop of its report at start-up reads
entry 28 of `burst_sequence_assigned`. -/
theorem ue_28_report_out_of_bounds :
    (getOrCreateUeBuffer TrilatState.init.ueBuffers 28).isSome ∧
      ¬ SendInBounds TrilatState.init.clock
        (collectReport TrilatState.init.ueBuffers (cohortReport 28)) := by
  have h : collectReport TrilatState.init.ueBuffers (cohortReport 28) = [cohortBuffer 28] := by
    decide
  refine ⟨rfl, ?_⟩
  rw [h]
  simpa [SendInBounds, TrilatState.init, cohortBuffer] using assign_ue_28_out_of_bounds

/-! ## The program's clock -/

/-- A report's UE ids, serving and neighbor, are below 28. -/
def ReportIdsLt (msg : IndMsgFormat1) : Prop :=
  (∀ x ∈ servingSamples msg, x.1.ueID < totalUes) ∧ ∀ x ∈ neighLists msg, x.1.ueID < totalUes

theorem ids_foldl_updateUe {α : Type} (step : List UeBuffer → α → List UeBuffer)
    (key : α → Nat) (g : α → UeBuffer → UeBuffer) (hg : ∀ a b, (g a b).ueID = b.ueID)
    (hstep : ∀ bufs x, step bufs x = updateUe (·.ueID) maxUeBuffers UeBuffer.init (g x) bufs (key x))
    {P : Nat → Prop} : ∀ (xs : List α) (bufs : List UeBuffer), (∀ b ∈ bufs, P b.ueID) →
      (∀ x ∈ xs, P (key x)) → ∀ b ∈ xs.foldl step bufs, P b.ueID
  | [], _, hb, _ => hb
  | x :: xs, bufs, hb, hx => by
    refine ids_foldl_updateUe step key g hg hstep xs _ (fun b h => ?_)
      fun y hy => hx y (List.mem_cons_of_mem _ hy)
    rw [hstep] at h
    rcases mem_updateUe (fun _ => rfl) (hg x) h with h | h
    exacts [hb b h, h ▸ hx x (List.mem_cons_self _ _)]

/-- A report keeps the buffers' UE ids below 28 when its own are. -/
theorem ids_collectReport {bufs : List UeBuffer} (hb : ∀ b ∈ bufs, b.ueID < totalUes)
    {msg : IndMsgFormat1} (hm : ReportIdsLt msg) :
    ∀ b ∈ collectReport bufs msg, b.ueID < totalUes :=
  ids_foldl_updateUe (P := (· < totalUes)) addNeighbors (·.1.ueID) _
    (fun _ _ => foldl_addNeighborSample_ueID _ _) (fun _ _ => rfl) _ _
    (ids_foldl_updateUe (P := (· < totalUes)) addServing (·.1.ueID)
      (fun s b => addServingSample b s.1.cellID s.2)
      (fun _ _ => rfl) (fun _ _ => rfl) _ _ hb hm.1) hm.2

theorem seqs_checkAndSendUeData (b : UeBuffer) (seq : Nat) :
    ((checkAndSendUeData b seq).toList.map (·.sequenceTimestamp)).Sublist [seq] := by
  cases hr : checkAndSendUeData b seq with
  | none => exact List.nil_sublist _
  | some r => simp [(checkAndSendUeData_some hr).1]

/-- The send loop's records take their sequences from the loop's calls: after the calls so
far, they are a subsequence of what the calls return. -/
theorem sendUeData_seqs (c : BurstClock) (evs : List AssignEvent) (bs : List UeBuffer) :
    (evs.map (·.seq) ++ (sendUeData c bs).2.map (·.sequenceTimestamp)).Sublist
      (((activeIds bs).foldl assignStep (c, evs)).2.map (·.seq)) := by
  induction bs generalizing c evs with
  | nil => simp [sendUeData, activeIds]
  | cons b bs ih =>
    by_cases hb : 0 < b.historyCount
    · have h := ih (assignSequenceTimestamp c b.ueID).1
        (evs ++ [⟨b.ueID, !c.burstSequenceAssigned b.ueID, (assignSequenceTimestamp c b.ueID).2⟩])
      have hs := ((seqs_checkAndSendUeData b (assignSequenceTimestamp c b.ueID).2).append_right
        ((sendUeData (assignSequenceTimestamp c b.ueID).1 bs).2.map (·.sequenceTimestamp))).append_left
        (evs.map (·.seq))
      simp only [sendUeData, hb, if_true, activeIds_cons, List.foldl_cons, assignStep,
        List.map_append] at h ⊢
      exact hs.trans (by simpa using h)
    · simpa [sendUeData, hb, activeIds_cons] using ih c evs

/-- What a run of the program keeps, with the calls of `assign_sequence_timestamp` so far
and the records written: the calls' burst-clock invariant, every buffer's UE below 28, and
the records' sequences a subsequence of the calls' returns. -/
structure ProgInv (s : TrilatState) (evs : List AssignEvent) (recs : List TrilatRecord) : Prop where
  run : RunInv (s.clock, evs)
  ids_lt : ∀ b ∈ s.ueBuffers, b.ueID < totalUes
  seqs : (recs.map (·.sequenceTimestamp)).Sublist (evs.map (·.seq))

theorem ProgInv.init : ProgInv TrilatState.init [] [] :=
  ⟨RunInv.init, fun _ h => absurd h (List.not_mem_nil _), List.Sublist.slnil⟩

theorem ProgInv.step {s : TrilatState} {evs : List AssignEvent} {recs : List TrilatRecord}
    (h : ProgInv s evs recs) {msg : IndMsgFormat1} (hm : ReportIdsLt msg) :
    ∃ evs', ProgInv (logKpmMeasurements s msg).1 evs' (recs ++ (logKpmMeasurements s msg).2) := by
  unfold logKpmMeasurements
  split
  · have hids := ids_collectReport h.ids_lt hm
    have hact : ∀ u ∈ activeIds (collectReport s.ueBuffers msg), u < totalUes := fun u hu => by
      obtain ⟨b, hb, rfl⟩ := List.mem_map.mp hu
      exact hids b (List.mem_filter.mp hb).1
    have hrun : RunInv ((sendUeData s.clock (collectReport s.ueBuffers msg)).1,
        ((activeIds (collectReport s.ueBuffers msg)).foldl assignStep (s.clock, evs)).2) := by
      rw [sendUeData_clock, ← foldl_assignStep_fst _ (s.clock, evs)]
      exact assignRun_inv h.run hact
    refine ⟨_, hrun, hids, ?_⟩
    rw [List.map_append]
    exact (h.seqs.append_right _).trans (sendUeData_seqs _ _ _)
  · exact ⟨evs, by simpa using h⟩

theorem ProgInv.run_smCbKpm {s : TrilatState} {evs : List AssignEvent} {recs : List TrilatRecord}
    (h : ProgInv s evs recs) {rs : List IndMsgFormat1} (hrs : ∀ r ∈ rs, ReportIdsLt r) :
    ∃ evs', ProgInv (smCbKpm s rs).1 evs' (recs ++ (smCbKpm s rs).2) := by
  induction rs generalizing s evs recs with
  | nil => exact ⟨evs, by simpa [smCbKpm] using h⟩
  | cons r rs ih =>
    obtain ⟨evs₁, h₁⟩ := h.step (hrs r (List.mem_cons_self _ _))
    obtain ⟨evs₂, h₂⟩ := ih h₁ fun r' hr' => hrs r' (List.mem_cons_of_mem _ hr')
    exact ⟨evs₂, by simpa [smCbKpm] using h₂⟩

/-- On reports whose UE ids are below 28, the program's clock keeps the burst clock's
invariant, and the sequences of the records it writes never decrease. -/
theorem record_sequences_monotone (rs : List IndMsgFormat1) (hrs : ∀ r ∈ rs, ReportIdsLt r) :
    ClockInv (smCbKpm TrilatState.init rs).1.clock ∧
      ((smCbKpm TrilatState.init rs).2.map (·.sequenceTimestamp)).Sorted (· ≤ ·) := by
  obtain ⟨evs, h⟩ := ProgInv.init.run_smCbKpm hrs
  exact ⟨h.run.clock, List.Pairwise.sublist (by simpa using h.seqs) h.run.sorted⟩

theorem record_sequences_monotone_cohort :
    (∀ r ∈ [cohortReport 0, cohortReport 1], ReportIdsLt r) ∧
      ((smCbKpm TrilatState.init [cohortReport 0, cohortReport 1]).2.map
        (·.sequenceTimestamp)).Sorted (· ≤ ·) :=
  have hrs : ∀ r ∈ [cohortReport 0, cohortReport 1], ReportIdsLt r := by
    simp only [List.mem_cons, List.not_mem_nil, or_false]
    rintro r (rfl | rfl) <;> exact ⟨by decide, by decide⟩
  ⟨hrs, (record_sequences_monotone _ hrs).2⟩

end UeLoc.Trilat
