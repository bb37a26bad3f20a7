import FreeRtosSim.Proofs.Start

/-!
# The run refines the task machines

`sys.running i t` reads off the run which task holds the processor at the end
of tick `t`; with it every task of the run is the machine of `Job.Machine`,
charged when it runs. `Stage` states this for one point of a tick, and the
passes take one stage to the next. By induction the run neither stops nor
fails an assertion before the hyperperiod, and there it ends in
`exit_function` with the reports of the machines.
-/

namespace FreeRtosSim

namespace ClosedSystem

variable (sys : ClosedSystem)

/-- Task `i` holds the processor at the end of tick `t`. -/
def running (i t : Nat) : Bool :=
  match sys.run t with
  | .ok st => st.pxCurrentTCB = some i
  | .error _ => false

/-- Task `i` at the end of tick `t`, as the machine has it. -/
abbrev jobAt (i t : Nat) : Job :=
  FreeRtosSim.jobAt sys.alg (sys.params i) (sys.running i) t

/-- Task `i` in tick `t + 1` after the accounting. -/
abbrev accountedAt (i t : Nat) : Job :=
  accounted sys.alg (sys.params i) (sys.running i) t

/-- Task `i` in tick `t + 1` after the cull. -/
abbrev culledAt (i t : Nat) : Job :=
  culled sys.alg (sys.params i) (sys.running i) t

theorem fitsAt (i t : Nat) :
    Job.Fits (sys.params i) (t / (sys.params i).period) t (sys.jobAt i t) :=
  fits_jobAt sys.alg (sys.params i) (sys.running i) t

theorem fitsCulledAt (i t : Nat) :
    Job.Fits (sys.params i) (t / (sys.params i).period) (t + 1)
      (sys.culledAt i t) :=
  fits_culled sys.alg (sys.params i) (sys.running i) t

theorem jobAt_succ (i t : Nat) : sys.jobAt i (t + 1) =
    (sys.culledAt i t).wake sys.alg (sys.params i) (t + 1) := rfl

theorem culledAt_eq (i t : Nat) : sys.culledAt i t =
    (sys.accountedAt i t).cull (sys.params i) (t + 1) := rfl

theorem accountedAt_eq (i t : Nat) : sys.accountedAt i t =
    (sys.jobAt i t).account (sys.params i) (sys.running i t) := rfl

/-- In tick `t + 1` task `i` has a late job left by the accounting. -/
def lateAt (i t : Nat) : Prop :=
  (sys.accountedAt i t).ready = true ∧
    (sys.accountedAt i t).late (sys.params i) (t + 1)

/-- In tick `t + 1` the late job of task `i` is one that had to be met. -/
def breaksAt (i t : Nat) : Prop :=
  sys.lateAt i t ∧ (sys.accountedAt i t).red (sys.params i)

end ClosedSystem

variable {sys : ClosedSystem} {t : Nat} {st st' : State} {i : Nat}

/-- A late job was not charged the tick that makes it late. -/
theorem late_idle (hlate : sys.lateAt i t) :
    ¬ sys.running i t = true ∧ sys.accountedAt i t = sys.jobAt i t := by
  obtain ⟨hr, hl⟩ := hlate
  have hnot : ¬ sys.running i t = true := by
    intro hrun
    have hold := Job.account_ready hr
    have hacc : sys.accountedAt i t = (sys.jobAt i t).charge (sys.params i) := by
      rw [sys.accountedAt_eq, hrun, Job.account_charged hold]
    rw [hacc] at hr hl
    exact (sys.fitsAt i t).charge_not_late hold hr hl
  exact ⟨hnot, (sys.accountedAt_eq i t).trans
    (Job.account_idle fun hc => hnot hc.1)⟩

/-- The state has the shape of time `t` and its tasks are in the states `f`. -/
structure Stage (sys : ClosedSystem) (t : Nat) (f : Nat → Job) (st : State) :
    Prop where
  shape : Shape sys t st
  job : ∀ i < sys.taskCnt, st.job i = f i
  console : st.console = []

/-- What holds at the end of tick `t`. -/
structure Follows (sys : ClosedSystem) (t : Nat) (st : State) : Prop extends
    Stage sys t (fun i => sys.jobAt i t) st where
  current : st.pxCurrentTCB = some (headOrIdle sys st)
  flagIff : st.sim.weaklyHard = 1 ↔
    ∀ u < t, ∀ i < sys.taskCnt, ¬ sys.breaksAt i u

theorem running_iff (hrun : sys.run t = .ok st) :
    sys.running i t = true ↔ st.pxCurrentTCB = some i := by
  simp only [ClosedSystem.running, hrun, decide_eq_true_eq]

/-! ## From the accounting to the release -/

section Tick

variable (hrun : sys.run t = .ok st) (h : Follows sys t st)
  (ht : t < sys.hiperperiod)

include h in
theorem headOrIdle_cases :
    (headOrIdle sys st ∈ st.items (.ready 1) ∧ headOrIdle sys st < sys.taskCnt) ∨
    (st.items (.ready 1) = [] ∧ headOrIdle sys st = sys.taskCnt) := by
  rcases hl : st.items (.ready 1) with _ | ⟨c, l⟩
  · exact Or.inr ⟨rfl, by simp [headOrIdle, hl]⟩
  · have hc : c ∈ st.items (.ready 1) := by simp [hl]
    have hhead : headOrIdle sys st = c := by simp [headOrIdle, hl]
    rw [hhead]
    exact Or.inl ⟨by simp, h.shape.lt_of_ready hc⟩

/-- The running task's job can take the tick. -/
theorem chargeable (h : Follows sys t st) (hi : i < sys.taskCnt)
    (hready : i ∈ st.items (.ready 1)) :
    Chargeable (sys.params i) (t + 1) (st.job i) := by
  have hr := job_ready_iff.mpr hready
  rw [h.job i hi] at hr ⊢
  have hfit := sys.fitsAt i t
  have hpos := hfit.remaining_pos hr
  have hfin := hfit.finish_le hr
  exact ⟨hr, hpos, by omega⟩

include hrun h ht

theorem charged_stage :
    Stage sys (t + 1) (fun i => sys.accountedAt i t)
      (chargeCurrent st.advance) ∧
    (chargeCurrent st.advance).sim.weaklyHard = st.sim.weaklyHard := by
  have hcur : st.advance.pxCurrentTCB = some (headOrIdle sys st) := h.current
  have hbit : ∀ i, sys.running i t = true ↔ headOrIdle sys st = i := fun i => by
    rw [running_iff hrun, h.current, Option.some_inj]
  rcases headOrIdle_cases h with ⟨hmem, hlt⟩ | ⟨hnil, hidle⟩
  · generalize headOrIdle sys st = c at *
    have hch : Chargeable (sys.params c) (t + 1) (st.advance.job c) := by
      have hch := chargeable h hlt hmem
      exact hch
    rw [chargeCurrent_eq h.shape.advance ht hcur hlt hch]
    refine ⟨⟨h.shape.advance.chargeState hlt hch, fun i hi => ?_, ?_⟩,
      chargeState_quiet.2⟩
    · by_cases hic : i = c
      · subst hic
        have hr : (sys.jobAt i t).ready = true := by
          rw [← h.job i hi]
          exact hch.ready
        rw [chargeState_job h.shape.advance hlt hch]
        show (st.job i).charge (sys.params i) =
          (sys.jobAt i t).account (sys.params i) (sys.running i t)
        rw [(hbit i).mpr rfl, Job.account_charged hr, h.job i hi]
      · have hno : ¬ (sys.running i t = true ∧ (sys.jobAt i t).ready = true) :=
          fun hc => hic ((hbit i).mp hc.1).symm
        rw [chargeState_job_other hic]
        exact (h.job i hi).trans (Job.account_idle hno).symm
    · exact chargeState_quiet.1.console.trans h.console
  · have hper : (st.advance.tcb (headOrIdle sys st)).xTaskPeriod = 0 := by
      rw [hidle]
      exact h.shape.idle
    rw [chargeCurrent_idle hcur hper]
    refine ⟨⟨h.shape.advance, fun i hi => ?_, h.console⟩, rfl⟩
    have hno : ¬ (sys.running i t = true ∧ (sys.jobAt i t).ready = true) :=
      fun hc => by
        have hself : sys.taskCnt = i := hidle.symm.trans ((hbit i).mp hc.1)
        exact Nat.lt_irrefl _ (hself ▸ hi)
    exact (h.job i hi).trans (Job.account_idle hno).symm

theorem afterCharge_eq :
    sys.afterCharge t = .ok (chargeCurrent st.advance) := by
  simp only [ClosedSystem.afterCharge, hrun, tickPrologue_eq h.shape ht, bind,
    Except.bind]
  rfl

theorem killed_stage :
    Stage sys (t + 1) (fun i => sys.culledAt i t)
      (killTasks (chargeCurrent st.advance)) := by
  obtain ⟨hs, -⟩ := charged_stage hrun h ht
  refine ⟨hs.shape.killTasks ht, fun i hi => ?_,
    (killTasks_quiet hs.shape ht).console.trans hs.console⟩
  rw [killTasks_job hs.shape ht, hs.job i hi]
  rfl

theorem afterKill_eq :
    sys.afterKill t = .ok (killTasks (chargeCurrent st.advance)) := by
  simp only [ClosedSystem.afterKill, afterCharge_eq hrun h ht, bind,
    Except.bind]
  rfl

theorem killed_flag :
    (killTasks (chargeCurrent st.advance)).sim.weaklyHard = 1 ↔
      ∀ u < t + 1, ∀ i < sys.taskCnt, ¬ sys.breaksAt i u := by
  obtain ⟨hs, hflag⟩ := charged_stage hrun h ht
  rw [killTasks_flag hs.shape ht, hflag, h.flagIff]
  constructor
  · rintro ⟨hold, hnew⟩ u hu i hi ⟨⟨hr, hl⟩, hred⟩
    rcases Nat.lt_succ_iff_lt_or_eq.mp hu with hlt | rfl
    · exact hold u hlt i hi ⟨⟨hr, hl⟩, hred⟩
    · rw [← hs.job i hi] at hr hl hred
      exact hnew i (job_ready_iff.mp hr) ⟨hl, hred⟩
  · intro hall
    refine ⟨fun u hu => hall u (Nat.lt_succ_of_lt hu), fun i hi hbad => ?_⟩
    have hlt := hs.shape.lt_of_ready hi
    have hr := job_ready_iff.mpr hi
    rw [hs.job i hlt] at hbad hr
    exact hall t (Nat.lt_succ_self t) i hlt ⟨⟨hr, hbad.1⟩, hbad.2⟩

theorem woken_stage :
    Stage sys (t + 1) (fun i => sys.jobAt i (t + 1))
      (wakeTasks sys.alg (killTasks (chargeCurrent st.advance))) := by
  have hs := killed_stage hrun h ht
  refine ⟨hs.shape.wakeTasks ht, fun i hi => ?_,
    (wakeTasks_quiet hs.shape ht).1.console.trans hs.console⟩
  rw [wakeTasks_job hs.shape ht hi, hs.job i hi]
  rfl

theorem afterWake_eq : sys.afterWake t =
    .ok (wakeTasks sys.alg (killTasks (chargeCurrent st.advance))) := by
  simp only [ClosedSystem.afterWake, afterKill_eq hrun h ht, bind, Except.bind]
  rfl

/-- A tick before the hyperperiod runs all passes and the switch. -/
theorem run_succ_eq (hlast : t + 1 ≠ sys.hiperperiod) :
    sys.run (t + 1) = .ok (switched sys
      (wakeTasks sys.alg (killTasks (chargeCurrent st.advance)))) := by
  have hs := (charged_stage hrun h ht).1.shape
  have hnot : ¬ atHiperPeriod (chargeCurrent st.advance) = true := fun hc =>
    hlast ((atHiperPeriod_iff hs).mp hc)
  have hw := (woken_stage hrun h ht).shape
  simp only [ClosedSystem.run, hrun, vPortSystemTickHandler, xTaskIncrementTick,
    h.shape.notSuspended, tickPrologue_eq h.shape ht, bind, Except.bind, if_true,
    if_neg hnot, pure, Except.pure]
  exact vTaskSwitchContext_eq hw

/-- The tick of the hyperperiod stops at `exit_function`, after the
accounting and before the passes. -/
theorem run_exit_eq (hlast : t + 1 = sys.hiperperiod) :
    sys.run (t + 1) = exitFunction (chargeCurrent st.advance) := by
  have hs := (charged_stage hrun h ht).1.shape
  have hat : atHiperPeriod (chargeCurrent st.advance) = true :=
    (atHiperPeriod_iff hs).mpr hlast
  simp only [ClosedSystem.run, hrun, vPortSystemTickHandler, xTaskIncrementTick,
    h.shape.notSuspended, tickPrologue_eq h.shape ht, bind, Except.bind, if_true,
    if_pos hat, exitFunction]

theorem follows_succ : Follows sys (t + 1) (switched sys
    (wakeTasks sys.alg (killTasks (chargeCurrent st.advance)))) := by
  have hs := woken_stage hrun h ht
  refine
    { shape := hs.shape.switched
      job := fun i hi => (hs.job i hi)
      console := hs.console
      current := rfl
      flagIff := ?_ }
  show (wakeTasks sys.alg _).sim.weaklyHard = 1 ↔ _
  rw [(wakeTasks_quiet (killed_stage hrun h ht).shape ht).2]
  exact killed_flag hrun h ht

end Tick

/-! ## The run -/

theorem follows_zero (sys : ClosedSystem) :
    ∃ st, sys.run 0 = .ok st ∧ Follows sys 0 st := by
  obtain ⟨st, st', hc, hb, hrun⟩ := boot_ok sys
  have hs := hb.shape hc
  rw [vTaskSwitchContext_eq hs] at hrun
  refine ⟨_, hrun, ?_⟩
  exact
    { shape := hs.switched
      job := fun i hi => (hb.job hi).trans (hc.job i hi)
      console := hb.console.trans hc.console
      current := rfl
      flagIff := by
        have hsim : st'.sim = sys.simulator.setWeaklyHard := hb.sim.trans hc.sim
        show st'.sim.weaklyHard = 1 ↔ _
        rw [hsim]
        exact ⟨fun _ u hu => absurd hu (Nat.not_lt_zero u), fun _ => rfl⟩ }

/-- Before the hyperperiod every tick ends, in a state that follows the
machines. -/
theorem run_follows (sys : ClosedSystem) {t : Nat} (ht : t < sys.hiperperiod) :
    ∃ st, sys.run t = .ok st ∧ Follows sys t st := by
  induction t with
  | zero => exact follows_zero sys
  | succ t ih =>
      obtain ⟨st, hrun, h⟩ := ih (by omega)
      exact ⟨_, run_succ_eq hrun h (by omega) (by omega),
        follows_succ hrun h (by omega)⟩

/-- The states inside tick `t + 1`. -/
structure TickStates (sys : ClosedSystem) (t : Nat)
    (st st₁ st₂ st₃ : State) : Prop where
  run : sys.run t = .ok st
  afterCharge : sys.afterCharge t = .ok st₁
  afterKill : sys.afterKill t = .ok st₂
  afterWake : sys.afterWake t = .ok st₃
  follows : Follows sys t st
  charged : Stage sys (t + 1) (fun i => sys.accountedAt i t) st₁
  killed : Stage sys (t + 1) (fun i => sys.culledAt i t) st₂
  woken : Stage sys (t + 1) (fun i => sys.jobAt i (t + 1)) st₃
  killTasks : st₂ = killTasks st₁
  wakeTasks : st₃ = wakeTasks sys.alg st₂

theorem tick_states (sys : ClosedSystem) {t : Nat} (ht : t < sys.hiperperiod) :
    ∃ st st₁ st₂ st₃, TickStates sys t st st₁ st₂ st₃ := by
  obtain ⟨st, hrun, h⟩ := run_follows sys ht
  exact ⟨st, _, _, _, hrun, afterCharge_eq hrun h ht, afterKill_eq hrun h ht,
    afterWake_eq hrun h ht, h, (charged_stage hrun h ht).1,
    killed_stage hrun h ht, woken_stage hrun h ht, rfl, rfl⟩

theorem follows_of_run (ht : t < sys.hiperperiod) (hrun : sys.run t = .ok st) :
    Follows sys t st := by
  obtain ⟨s, hs, h⟩ := run_follows sys ht
  cases hrun.symm.trans hs
  exact h

theorem tick_states_of_run (ht : t < sys.hiperperiod)
    (hrun : sys.run t = .ok st) :
    ∃ st₁ st₂ st₃, TickStates sys t st st₁ st₂ st₃ := by
  obtain ⟨s, st₁, st₂, st₃, h⟩ := tick_states sys ht
  cases hrun.symm.trans h.run
  exact ⟨st₁, st₂, st₃, h⟩

/-- Before the hyperperiod the tick goes on to the context switch. -/
theorem TickStates.run_succ {st₁ st₂ st₃ : State}
    (h : TickStates sys t st st₁ st₂ st₃) (ht : t + 1 < sys.hiperperiod) :
    sys.run (t + 1) = vTaskSwitchContext st₃ := by
  have hw := afterWake_eq h.run h.follows (by omega)
  rw [run_succ_eq h.run h.follows (by omega) (by omega),
    vTaskSwitchContext_eq h.woken.shape]
  rw [h.afterWake] at hw
  injection hw with hw
  rw [hw]

theorem Stage.mem_ready_iff {f : Nat → Job} (h : Stage sys t f st)
    (hi : i < sys.taskCnt) : i ∈ st.items (.ready 1) ↔ (f i).ready = true := by
  rw [← h.job i hi]
  exact job_ready_iff.symm

theorem Stage.mem_wait_iff {f : Nat → Job} (h : Stage sys t f st)
    (hi : i < sys.taskCnt) : i ∈ st.items .wait ↔ (f i).ready = false := by
  rw [← h.job i hi]
  exact h.shape.wait_iff hi

theorem Stage.start {f : Nat → Job} (h : Stage sys t f st)
    (hi : i < sys.taskCnt) : (st.tcb i).startTime = (f i).start :=
  congrArg Job.start (h.job i hi)

theorem Stage.remaining {f : Nat → Job} (h : Stage sys t f st)
    (hi : i < sys.taskCnt) : (st.tcb i).xRemainingTicks = (f i).remaining :=
  congrArg Job.remaining (h.job i hi)

theorem Stage.met {f : Nat → Job} (h : Stage sys t f st)
    (hi : i < sys.taskCnt) : (st.tcb i).previousDeadlineMet = (f i).met :=
  congrArg Job.met (h.job i hi)

/-- The state the process ends with. -/
structure Final (sys : ClosedSystem) (st : State) : Prop where
  left : ∀ i, i ∈ st.items (.ready 1) ↔
    i < sys.taskCnt ∧ (sys.accountedAt i (sys.hiperperiod - 1)).ready = true
  taskCnt : st.sim.taskCnt = sys.taskCnt
  report : ∀ i < sys.taskCnt, (st.sim.taskSet i).report =
    (sys.accountedAt i (sys.hiperperiod - 1)).report
  entry : ∀ i < sys.taskCnt,
    Entry (sys.task i) sys.hiperperiod (st.sim.taskSet i)
  missed : ∀ i < sys.taskCnt, (st.sim.taskSet i).missedDeadlines =
    Simulator.countMissed (st.sim.taskSet i)
  broken : ∀ i < sys.taskCnt, (st.sim.taskSet i).weaklyHardBroken =
    Simulator.countBroken (st.sim.taskSet i)
  flag : st.sim.weaklyHard ≤ 1
  flagIff : st.sim.weaklyHard = 1 ↔
    ∀ u < sys.hiperperiod - 1, ∀ i < sys.taskCnt, ¬ sys.breaksAt i u

theorem run_exits (sys : ClosedSystem) :
    ∃ st, sys.run sys.hiperperiod = .error (.exit st) ∧ Final sys st := by
  have hpos := sys.hiperperiod_pos
  obtain ⟨st, hrun, h⟩ := run_follows sys
    (show sys.hiperperiod - 1 < sys.hiperperiod by omega)
  have hlast : sys.hiperperiod - 1 + 1 = sys.hiperperiod := by omega
  have hexit := run_exit_eq hrun h (by omega) hlast
  obtain ⟨hs, hflag⟩ := charged_stage hrun h (by omega)
  rw [hlast] at hexit
  refine ⟨_, hexit, ?_⟩
  generalize chargeCurrent st.advance = s at *
  have hcnt := hs.shape.simCnt
  simp only [Simulator.countMissedDeadlines, Simulator.countWeaklyHardBroken,
    Simulator.forEachTask_eq]
  exact
    { left := fun i => by
        refine ⟨fun hi => ?_, fun hi => (hs.mem_ready_iff hi.1).mpr hi.2⟩
        have hlt := hs.shape.lt_of_ready hi
        exact ⟨hlt, (hs.mem_ready_iff hlt).mp hi⟩
      taskCnt := hcnt
      report := fun i hi => by
        simp only [hcnt, if_pos hi]
        exact congrArg Job.report (hs.job i hi)
      entry := fun i hi => by
        obtain ⟨h1, h2, h3, h4⟩ := hs.shape.entry i hi
        simp only [hcnt, if_pos hi]
        exact ⟨h1, h2, h3, h4⟩
      missed := fun i hi => by
        simp only [hcnt, if_pos hi]
        rfl
      broken := fun i hi => by
        simp only [hcnt, if_pos hi]
        rfl
      flag := hs.shape.flag
      flagIff := by
        rw [← h.flagIff, ← hflag] }

theorem final_of_exit (hrun : sys.run sys.hiperperiod = .error (.exit st)) :
    Final sys st := by
  obtain ⟨s, hs, h⟩ := run_exits sys
  cases hrun.symm.trans hs
  exact h

end FreeRtosSim
