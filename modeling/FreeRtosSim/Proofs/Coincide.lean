import FreeRtosSim.Proofs.Lines
import FreeRtosSim.Proofs.Dispatch

/-!
# Hard task sets do not see the algorithm

When no job may be missed, RTO leaves nothing out, every job is red, and a
BWP key is the deadline with the same high bits in each. So keys compare as
deadlines do under all three algorithms, the lines of the three runs are the
same lines, and with them everything a run decides.
-/

namespace FreeRtosSim

variable {sys sys' : ClosedSystem} {t : Nat} {st st' : State} {i : Nat}

/-- The two states agree on the `n` tasks and on who runs. -/
structure Alike (n : Nat) (st st' : State) : Prop where
  current : st'.pxCurrentTCB = st.pxCurrentTCB
  ready : st'.items (.ready 1) = st.items (.ready 1)
  wait : st'.items .wait = st.items .wait
  remaining : ∀ i < n,
    (st'.tcb i).xRemainingTicks = (st.tcb i).xRemainingTicks
  start : ∀ i < n, (st'.tcb i).startTime = (st.tcb i).startTime
  killed : ∀ i < n,
    (st'.sim.taskSet i).timesKilled = (st.sim.taskSet i).timesKilled
  report : ∀ i < n, (st'.sim.taskSet i).report = (st.sim.taskSet i).report
  flag : st'.sim.weaklyHard = st.sim.weaklyHard

theorem alike_of_job {n : Nat} (hcur : st'.pxCurrentTCB = st.pxCurrentTCB)
    (hready : st'.items (.ready 1) = st.items (.ready 1))
    (hwait : st'.items .wait = st.items .wait)
    (hjob : ∀ i < n, st'.job i = st.job i)
    (hflag : st'.sim.weaklyHard = st.sim.weaklyHard) : Alike n st st' where
  current := hcur
  ready := hready
  wait := hwait
  remaining i hi := congrArg Job.remaining (hjob i hi)
  start i hi := congrArg Job.start (hjob i hi)
  killed i hi := congrArg Job.killed (hjob i hi)
  report i hi := congrArg Job.report (hjob i hi)
  flag := hflag

/-! ## The lines -/

/-- Two systems of the same hard tasks. -/
structure SameHardTasks (sys sys' : ClosedSystem) : Prop where
  tasks : sys'.tasks = sys.tasks
  hiperperiod : sys'.hiperperiod = sys.hiperperiod
  hard : ∀ p ∈ sys.tasks, p.weaklyHardConstraint = 0

namespace SameHardTasks

variable (h : SameHardTasks sys sys')

include h

theorem params : sys'.params = sys.params := by
  funext i
  rw [ClosedSystem.params, ClosedSystem.params, ClosedSystem.task,
    ClosedSystem.task, h.tasks]

theorem taskCnt : sys'.taskCnt = sys.taskCnt := congrArg List.length h.tasks

theorem skip_zero (i : Nat) : (sys.params i).skip = 0 := by
  have hzero : (sys.task i).weaklyHardConstraint = 0 := by
    rw [ClosedSystem.task, List.getD_eq_getElem?_getD]
    cases hget : sys.tasks[i]? with
    | none => rfl
    | some p => exact h.hard p (List.mem_of_getElem? hget)
  show (sys.task i).weaklyHardConstraint % 2 ^ 8 = 0
  rw [hzero]
  exact Nat.zero_mod _

theorem symm : SameHardTasks sys' sys :=
  ⟨h.tasks.symm, h.hiperperiod.symm, fun p hp => h.hard p (h.tasks ▸ hp)⟩

theorem allStart : sys.AllStart := fun i _ hs => hs.2 (Or.inl (h.skip_zero i))

omit h in
/-- The key of a hard job is its deadline, under BWP with the same bits set
in every key. -/
theorem readyKey_hard {alg : Algorithm} {p : JobParams} {j : Job}
    (hs : p.skip = 0) (hd : j.start + p.period < 2 ^ 31) :
    readyKey alg p j =
      j.start + p.period + if alg = .bwp then bit31 else 0 := by
  cases alg with
  | edf => rfl
  | rto => rfl
  | bwp =>
      rw [readyKey, if_pos (show j.red p from Or.inl hs), or_bit31 hd, if_pos rfl]

theorem queueAt (ht : t < sys.hiperperiod) : sys'.queueAt t = sys.queueAt t := by
  have hH := sys.hiperperiod_lt
  rw [ClosedSystem.queueAt, ClosedSystem.queueAt, h.params, h.taskCnt]
  refine queueAt_hard (B := sys.hiperperiod) h.skip_zero ?_ ?_
  · intro i _ j _ a b ha hb
    rw [ClosedSystem.jobKey, ClosedSystem.jobKey, ClosedSystem.jobKey,
      ClosedSystem.jobKey, h.params]
    rw [readyKey_hard (h.skip_zero i) (by omega),
      readyKey_hard (h.skip_zero j) (by omega),
      readyKey_hard (h.skip_zero i) (by omega),
      readyKey_hard (h.skip_zero j) (by omega)]
    omega
  · exact fun u hu i hi => sys.due_le hi (Nat.lt_of_le_of_lt hu ht)

end SameHardTasks

/-! ## The runs -/

section Runs

variable (h : SameHardTasks sys sys') (ht : t < sys.hiperperiod)

include h ht

/-- The two runs at the end of tick `t`. -/
theorem SameHardTasks.inLines : ∃ st st', sys.run t = .ok st ∧
    sys'.run t = .ok st' ∧ InLines sys t st ∧ InLines sys' t st' := by
  obtain ⟨st, hrun, hin⟩ := run_inLines h.allStart ht
  obtain ⟨st', hrun', hin'⟩ := run_inLines h.symm.allStart
    (show t < sys'.hiperperiod by rw [h.hiperperiod]; exact ht)
  exact ⟨st, st', hrun, hrun', hin, hin'⟩

theorem SameHardTasks.jobAt (hi : i < sys.taskCnt) :
    sys'.jobAt i t = sys.jobAt i t := by
  obtain ⟨st, st', hrun, hrun', hin, hin'⟩ := h.inLines ht
  rw [← hin.queueJob i hi, ← hin'.queueJob i (by rw [h.taskCnt]; exact hi),
    h.queueAt ht]

theorem SameHardTasks.running (hi : i < sys.taskCnt) :
    sys'.running i t = sys.running i t := by
  obtain ⟨st, st', hrun, hrun', hin, hin'⟩ := h.inLines ht
  rw [← hin.runs hrun hi, ← hin'.runs hrun' (by rw [h.taskCnt]; exact hi),
    h.queueAt ht]

theorem SameHardTasks.accountedAt (hi : i < sys.taskCnt) :
    sys'.accountedAt i t = sys.accountedAt i t := by
  rw [sys.accountedAt_eq, sys'.accountedAt_eq, h.jobAt ht hi, h.running ht hi,
    h.params]

theorem SameHardTasks.breaksAt_iff (hi : i < sys.taskCnt) :
    sys'.breaksAt i t ↔ sys.breaksAt i t := by
  rw [ClosedSystem.breaksAt, ClosedSystem.breaksAt, ClosedSystem.lateAt,
    ClosedSystem.lateAt, h.accountedAt ht hi, h.params]

theorem SameHardTasks.flag (hf : st.sim.weaklyHard ≤ 1)
    (hf' : st'.sim.weaklyHard ≤ 1)
    (hiff : st.sim.weaklyHard = 1 ↔
      ∀ u < t, ∀ i < sys.taskCnt, ¬ sys.breaksAt i u)
    (hiff' : st'.sim.weaklyHard = 1 ↔
      ∀ u < t, ∀ i < sys'.taskCnt, ¬ sys'.breaksAt i u) :
    st'.sim.weaklyHard = st.sim.weaklyHard := by
  have hsame : (∀ u < t, ∀ i < sys'.taskCnt, ¬ sys'.breaksAt i u) ↔
      ∀ u < t, ∀ i < sys.taskCnt, ¬ sys.breaksAt i u := by
    rw [h.taskCnt]
    refine forall₂_congr fun u hu => forall₂_congr fun i hi => ?_
    rw [h.breaksAt_iff (Nat.lt_trans hu ht) hi]
  rw [hsame, ← hiff] at hiff'
  omega

theorem SameHardTasks.alike : ∃ st st', sys.run t = .ok st ∧
    sys'.run t = .ok st' ∧ Alike sys.taskCnt st st' := by
  obtain ⟨st, st', hrun, hrun', hin, hin'⟩ := h.inLines ht
  have hready : st'.items (.ready 1) = st.items (.ready 1) := by
    rw [hin.ready, hin'.ready, h.queueAt ht]
  refine ⟨st, st', hrun, hrun', alike_of_job ?_ hready ?_ (fun i hi => ?_) ?_⟩
  · rw [hin.current, hin'.current, headOrIdle, headOrIdle, hready, h.taskCnt]
  · rw [hin.wait, hin'.wait, h.queueAt ht]
  · rw [hin.job i hi, hin'.job i (by rw [h.taskCnt]; exact hi), h.jobAt ht hi]
  · exact h.flag ht hin.shape.flag hin'.shape.flag hin.flagIff hin'.flagIff

end Runs

/-- The two processes end alike. -/
theorem SameHardTasks.exit_alike (h : SameHardTasks sys sys') :
    ∃ st st', sys.run sys.hiperperiod = .error (.exit st) ∧
      sys'.run sys.hiperperiod = .error (.exit st') ∧
      Alike sys.taskCnt st st' := by
  have hpos := sys.hiperperiod_pos
  have ht : sys.hiperperiod - 1 < sys.hiperperiod := by omega
  obtain ⟨st, hrun, hfin, hs⟩ := run_exitState h.allStart
  obtain ⟨st', hrun', hfin', hs'⟩ := run_exitState h.symm.allStart
  rw [h.hiperperiod] at hrun' hs'
  have hflag' := hfin'.flagIff
  rw [h.hiperperiod] at hflag'
  have hbelow := queueAt_below sys.alg sys.params sys.jobKey sys.taskCnt
    (sys.hiperperiod - 1)
  have hacc : ∀ i ∈ (sys.queueAt (sys.hiperperiod - 1)).ready,
      (sys'.accountedAt i (sys.hiperperiod - 1)).ready =
        (sys.accountedAt i (sys.hiperperiod - 1)).ready := fun i hi => by
    rw [h.accountedAt ht (hbelow i (List.mem_append_left _ hi))]
  refine ⟨st, st', hrun, hrun', alike_of_job ?_ ?_ ?_ (fun i hi => ?_) ?_⟩
  · rw [hs.current, hs'.current, h.queueAt ht, h.taskCnt]
  · rw [hs.ready, hs'.ready, h.queueAt ht]
    exact List.filter_congr hacc
  · rw [hs.wait, hs'.wait, h.queueAt ht]
    congr 1
    exact List.filter_congr fun i hi => by rw [hacc i hi]
  · rw [hs.job i hi, hs'.job i (by rw [h.taskCnt]; exact hi), h.accountedAt ht hi]
  · exact h.flag ht hfin.flag hfin'.flag hfin.flagIff hflag'

/-- On hard task sets the three algorithms make the same run. -/
theorem hard_sets_coincide (sys sys' : ClosedSystem)
    (htasks : sys'.tasks = sys.tasks)
    (hH : sys'.hiperperiod = sys.hiperperiod)
    (hhard : ∀ p ∈ sys.tasks, p.weaklyHardConstraint = 0) :
    (∀ t < sys.hiperperiod, ∃ st st', sys.run t = .ok st ∧
      sys'.run t = .ok st' ∧ Alike sys.taskCnt st st') ∧
    ∃ st st', sys.run sys.hiperperiod = .error (.exit st) ∧
      sys'.run sys.hiperperiod = .error (.exit st') ∧
      Alike sys.taskCnt st st' := by
  have h : SameHardTasks sys sys' := ⟨htasks, hH, hhard⟩
  exact ⟨fun t ht => h.alike ht, h.exit_alike⟩

theorem hard_sets_coincide_threeTasks :
    (∀ t < 2, ∃ st st', (threeTasks .edf).run t = .ok st ∧
      (threeTasks .bwp).run t = .ok st' ∧ Alike 3 st st') ∧
    ∃ st st', (threeTasks .edf).run 2 = .error (.exit st) ∧
      (threeTasks .bwp).run 2 = .error (.exit st') ∧ Alike 3 st st' :=
  hard_sets_coincide (threeTasks .edf) (threeTasks .bwp) rfl rfl (by decide)

end FreeRtosSim
