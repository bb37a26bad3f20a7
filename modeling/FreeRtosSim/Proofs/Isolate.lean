import FreeRtosSim.Job.History
import FreeRtosSim.Proofs.Lines
import FreeRtosSim.Proofs.Dispatch

/-!
# BWP keeps skippable tasks out of the way

A task with constraint 1 owes nothing, so each of its jobs carries bit 30 in
its key and stands behind every job of a hard task as long as deadlines stay
below `2 ^ 30`. Adding such tasks to a hard task set, in whatever places of
the creation order, leaves the hard tasks in the same order in both lines,
and the head of the line is the one they would have alone.
-/

namespace FreeRtosSim

variable {sys sys' : ClosedSystem} {t u : Nat} {st st' : State} {i j : Nat}
  {f : Nat → Nat}

/-- The bits every key of a skippable job has. -/
theorem high_bits_le (d : Nat) : bit31 + bit30 ≤ d ||| bit31 ||| bit30 := by
  have hsum : bit31 + bit30 = bit31 ||| bit30 := by decide
  rw [hsum, Nat.or_assoc]
  exact Nat.right_le_or

/-- `sys'` is `sys` with tasks of constraint 1 created among its tasks, which
are hard; task `i` of `sys` is task `f i` of `sys'`. -/
structure AddsSkippable (sys sys' : ClosedSystem) (f : Nat → Nat) : Prop where
  alg : sys.alg = .bwp
  alg' : sys'.alg = .bwp
  mono : ∀ i j, i < j → j < sys.taskCnt → f i < f j
  below : ∀ i < sys.taskCnt, f i < sys'.taskCnt
  same : ∀ i < sys.taskCnt, sys'.task (f i) = sys.task i
  hard : ∀ i < sys.taskCnt, (sys.task i).weaklyHardConstraint = 0
  added : ∀ j < sys'.taskCnt, (∀ i < sys.taskCnt, f i ≠ j) →
    (sys'.task j).weaklyHardConstraint = 1
  due : ∀ u < sys.hiperperiod, u < sys'.hiperperiod → ∀ st,
    sys.run u = .ok st → ∀ i ∈ st.items (.ready 1), st.deadline i < 2 ^ 30

/-- Task `j` is a task of `sys`. -/
def ClosedSystem.reaches (sys : ClosedSystem) (f : Nat → Nat) (j : Nat) : Bool :=
  (List.range sys.taskCnt).any fun i => f i = j

theorem reaches_iff : sys.reaches f j = true ↔ ∃ i < sys.taskCnt, f i = j := by
  simp only [ClosedSystem.reaches, List.any_eq_true, List.mem_range,
    decide_eq_true_eq]

theorem reaches_eq_false : sys.reaches f j = false ↔
    ∀ i < sys.taskCnt, f i ≠ j := by
  rw [← Bool.not_eq_true, reaches_iff]
  simp only [not_exists, not_and, ne_eq]

theorem allStart_of_bwp (halg : sys.alg = .bwp) : sys.AllStart :=
  fun _ _ hs => Algorithm.noConfusion (halg.symm.trans hs.1)

namespace AddsSkippable

variable (h : AddsSkippable sys sys' f)

include h

theorem params (hi : i < sys.taskCnt) : sys'.params (f i) = sys.params i :=
  congrArg TaskParams.toJob (h.same i hi)

theorem embeds : Embeds sys.taskCnt sys'.taskCnt f (sys.reaches f) sys.params
    sys'.params where
  mono := h.mono
  below := h.below
  params _ hi := h.params hi
  old_iff _ := reaches_iff

theorem jobKey (hi : i < sys.taskCnt) (b : Job) :
    sys'.jobKey (f i) b = sys.jobKey i b := by
  rw [ClosedSystem.jobKey, ClosedSystem.jobKey, h.alg, h.alg', h.params hi]

theorem hard_skip (hi : i < sys.taskCnt) : (sys.params i).skip = 0 := by
  show (sys.task i).weaklyHardConstraint % 2 ^ 8 = 0
  rw [h.hard i hi]
  exact Nat.zero_mod _

theorem added_skip (hj : j < sys'.taskCnt) (hnew : sys.reaches f j = false) :
    (sys'.params j).skip = 1 := by
  show (sys'.task j).weaklyHardConstraint % 2 ^ 8 = 1
  rw [h.added j hj (reaches_eq_false.mp hnew)]
  exact Nat.mod_eq_of_lt (by decide)

/-- The deadline of the job a hard task has at tick `u`, as the tick that
released it shows. -/
theorem due_lt (hu : u < sys.hiperperiod) (hu' : u < sys'.hiperperiod)
    (hi : i < sys.taskCnt) :
    u / (sys.params i).period * (sys.params i).period + (sys.params i).period <
      2 ^ 30 := by
  have hle := Nat.div_mul_le_self u (sys.params i).period
  generalize u / (sys.params i).period = k at *
  obtain ⟨st, hrun, hf⟩ := run_follows sys (Nat.lt_of_le_of_lt hle hu)
  have hready : (sys.jobAt i (k * (sys.params i).period)).ready = true := by
    refine (released_iff sys.alg (sys.params i) (sys.running i)
      (Nat.le_refl _)).mpr fun hc => ?_
    exact Algorithm.noConfusion (h.alg.symm.trans hc.1)
  have hmem := (hf.mem_ready_iff hi).mpr hready
  have hlt := h.due _ (Nat.lt_of_le_of_lt hle hu) (Nat.lt_of_le_of_lt hle hu')
    st hrun i hmem
  rwa [deadline_eq hf.shape hi, hf.job i hi, (sys.fitsAt i _).start_eq,
    Nat.mul_div_cancel _ (sys.params i).period_pos] at hlt

theorem oldFirst (hu : u < sys.hiperperiod) (hu' : u < sys'.hiperperiod) :
    OldFirst sys'.jobKey (sys.reaches f) (sys'.queueAt u) := by
  intro a ha b hb hold hnew
  obtain ⟨i, hi, rfl⟩ := reaches_iff.mp hold
  have hbelow := queueAt_below sys'.alg sys'.params sys'.jobKey sys'.taskCnt u
  have hstart : ((sys'.queueAt u).job (f i)).start =
      u / (sys'.params (f i)).period * (sys'.params (f i)).period :=
    queueAt_start sys'.alg sys'.params sys'.jobKey sys'.taskCnt u (f i)
  rw [h.params hi] at hstart
  have hd := h.due_lt hu hu' hi
  rw [← hstart] at hd
  have hkeyA : sys'.jobKey (f i) ((sys'.queueAt u).job (f i)) =
      ((sys'.queueAt u).job (f i)).start + (sys.params i).period + bit31 := by
    have hred : ((sys'.queueAt u).job (f i)).red (sys.params i) :=
      Or.inl (h.hard_skip hi)
    rw [ClosedSystem.jobKey, h.alg', h.params hi, readyKey, if_pos hred]
    exact or_bit31 (by omega)
  have hskip := h.added_skip (hbelow b (List.mem_append_left _ hb)) hnew
  have hblue : ¬ ((sys'.queueAt u).job b).red (sys'.params b) := by
    rw [Job.red, Job.owes, hskip]
    omega
  have hkeyB : bit31 + bit30 ≤ sys'.jobKey b ((sys'.queueAt u).job b) := by
    rw [ClosedSystem.jobKey, h.alg', readyKey, if_neg hblue]
    exact high_bits_le _
  have hbit : bit30 = 2 ^ 30 := rfl
  omega

theorem lines (ht : t < sys.hiperperiod) (ht' : t < sys'.hiperperiod) :
    Queue.Extends sys.taskCnt f (sys.reaches f) (sys.queueAt t)
      (sys'.queueAt t) := by
  have hext : Queue.Extends sys.taskCnt f (sys.reaches f)
      (FreeRtosSim.queueAt .bwp sys.params sys.jobKey sys.taskCnt t)
      (FreeRtosSim.queueAt .bwp sys'.params sys'.jobKey sys'.taskCnt t) := by
    refine queueAt_extends h.embeds (jobKey_keyOf sys')
      (fun i hi b => h.jobKey hi b) fun u hu => ?_
    have hfirst := h.oldFirst (show u < _ by omega) (show u < _ by omega)
    rwa [ClosedSystem.queueAt, h.alg'] at hfirst
  rw [ClosedSystem.queueAt, ClosedSystem.queueAt, h.alg, h.alg']
  exact hext

end AddsSkippable

/-- Task `i` in `st` is as task `j` in `st'`. -/
structure SameTask (st st' : State) (i j : TaskHandle) : Prop where
  ready : j ∈ st'.items (.ready 1) ↔ i ∈ st.items (.ready 1)
  wait : j ∈ st'.items .wait ↔ i ∈ st.items .wait
  remaining : (st'.tcb j).xRemainingTicks = (st.tcb i).xRemainingTicks
  start : (st'.tcb j).startTime = (st.tcb i).startTime
  current : st'.pxCurrentTCB = some j ↔ st.pxCurrentTCB = some i
  report : (st'.sim.taskSet j).report = (st.sim.taskSet i).report
  killed : (st'.sim.taskSet j).timesKilled = (st.sim.taskSet i).timesKilled

/-- Under BWP always-skippable tasks do not disturb hard ones. -/
theorem bwp_isolates (sys sys' : ClosedSystem) (f : Nat → Nat)
    (h : AddsSkippable sys sys' f) :
    ∀ t, t < sys.hiperperiod → t < sys'.hiperperiod →
      ∃ st st', sys.run t = .ok st ∧ sys'.run t = .ok st' ∧
        ∀ i < sys.taskCnt, SameTask st st' i (f i) := by
  intro t ht ht'
  obtain ⟨st, hrun, hin⟩ := run_inLines (allStart_of_bwp h.alg) ht
  obtain ⟨st', hrun', hin'⟩ := run_inLines (allStart_of_bwp h.alg') ht'
  have hlines := h.lines ht ht'
  refine ⟨st, st', hrun, hrun', fun i hi => ?_⟩
  have hfi := h.below i hi
  have hjob : st'.job (f i) = st.job i := by
    rw [hin'.job (f i) hfi, hin.job i hi, ← hin'.queueJob (f i) hfi,
      ← hin.queueJob i hi, hlines.job i hi]
  have hruns : sys'.running (f i) t = sys.running i t := by
    rw [← hin'.runs hrun' hfi, ← hin.runs hrun hi]
    exact hlines.runs h.embeds
      (queueAt_below sys.alg sys.params sys.jobKey sys.taskCnt t)
      (queueAt_sorted sys'.alg sys'.params sys'.jobKey sys'.taskCnt
        (jobKey_keyOf sys') t)
      (h.oldFirst ht ht') hi
  exact
    { ready := by rw [← job_ready_iff, ← job_ready_iff, hjob]
      wait := by rw [hin'.shape.wait_iff hfi, hin.shape.wait_iff hi, hjob]
      remaining := congrArg Job.remaining hjob
      start := congrArg Job.start hjob
      current := by rw [← running_iff hrun', ← running_iff hrun, hruns]
      report := congrArg Job.report hjob
      killed := congrArg Job.killed hjob }

theorem addsSkippable_hardTask :
    AddsSkippable hardTask hardBehindSkippable fun i => i + 1 where
  alg := rfl
  alg' := rfl
  mono _ _ hij _ := Nat.succ_lt_succ hij
  below i hi := Nat.succ_lt_succ hi
  same i hi := by
    rw [Nat.lt_one_iff.mp hi]
    rfl
  hard i hi := by
    rw [Nat.lt_one_iff.mp hi]
    rfl
  added j hj hnew := by
    have hne := hnew 0 (by decide)
    have hj : j < 2 := hj
    rw [show j = 0 by omega]
    rfl
  due _ hu _ _ hrun _ hi :=
    Nat.lt_of_le_of_lt (deadline_le_hiperperiod hu hrun hi) (by decide)

theorem bwp_isolates_hardTask :
    ∃ st st', hardTask.run 3 = .ok st ∧ hardBehindSkippable.run 3 = .ok st' ∧
      ∀ i < 1, SameTask st st' i (i + 1) :=
  bwp_isolates hardTask hardBehindSkippable (fun i => i + 1)
    addsSkippable_hardTask 3 (by decide) (by decide)

end FreeRtosSim
