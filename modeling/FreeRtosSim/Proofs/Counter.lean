import FreeRtosSim.Proofs.Edf

/-!
# What the history counter counts

`previous_deadline_met` is raised by every completion and cleared by every
kill, so under EDF and BWP, which never leave a job out, it is the number of
jobs completed since the last kill, as far as eight bits can hold it. Red or
blue is a comparison of the counter with the constraint, and it says the same
about the number until the number no longer fits.
-/

namespace FreeRtosSim

variable {sys : ClosedSystem} {t : Nat} {st st₁ st₂ st₃ : State} {i : Nat}

/-! ## One task -/

/-- The counter of a task that completed `c` jobs since it last lost one. -/
def counted (p : JobParams) (c : Nat) : Nat :=
  if p.skip = 0 then 0 else c % 2 ^ 8

namespace Job

variable {p : JobParams} {j : Job} {c : Nat}

theorem account_counted {b : Bool} (h : j.met = counted p c) :
    (j.account p b).met = counted p
      (c + if j.ready = true ∧ (j.account p b).ready = false then 1 else 0) := by
  have hsame : ¬ (j.ready = true ∧ j.ready = false) := fun hc =>
    Bool.noConfusion (hc.1.symm.trans hc.2)
  by_cases hc : b = true ∧ j.ready = true
  · obtain ⟨rfl, hr⟩ := hc
    rw [account_charged hr]
    by_cases hdone : j.remaining - 1 = 0
    · rw [charge_done hdone]
      show (if p.skip ≠ 0 then (j.met + 1) % 2 ^ 8 else j.met) =
        counted p (c + if j.ready = true ∧ false = false then 1 else 0)
      rw [if_pos (show j.ready = true ∧ false = false from ⟨hr, rfl⟩), h,
        counted, counted]
      by_cases hs : p.skip = 0
      · rw [if_neg (not_not.mpr hs), if_pos hs, if_pos hs]
      · rw [if_pos hs, if_neg hs, if_neg hs]
        omega
    · rw [charge_more hdone, if_neg hsame]
      exact h
  · rw [account_idle hc, if_neg hsame]
    exact h

theorem cull_counted {u : Nat} (h : j.met = counted p c) :
    (j.cull p u).met = counted p
      (if j.ready = true ∧ (j.cull p u).ready = false then 0 else c) := by
  by_cases hlate : j.ready = true ∧ j.late p u
  · rw [cull_dropped hlate, if_pos ⟨hlate.1, rfl⟩, counted]
    show 0 = _
    split <;> rfl
  · rw [cull_kept hlate, if_neg]
    · exact h
    · exact fun hc => Bool.noConfusion (hc.1.symm.trans hc.2)

theorem wake_met {alg : Algorithm} {u : Nat} (halg : alg ≠ .rto) :
    (j.wake alg p u).met = j.met := by
  unfold wake
  split
  · rw [release, if_neg fun hc => halg hc.1]
  · rfl

end Job

/-! ## Along the run -/

namespace ClosedSystem

variable (sys : ClosedSystem)

/-- The accounting of tick `t + 1` completes the job of task `i`. -/
def completesAt (i t : Nat) : Bool :=
  match sys.run t, sys.afterCharge t with
  | .ok st, .ok st₁ => i ∈ st.items (.ready 1) ∧ i ∉ st₁.items (.ready 1)
  | _, _ => false

/-- `killTasks` of tick `t + 1` kills the job of task `i`. -/
def killedAt (i t : Nat) : Bool :=
  match sys.afterCharge t, sys.afterKill t with
  | .ok st₁, .ok st₂ => i ∈ st₁.items (.ready 1) ∧ i ∉ st₂.items (.ready 1)
  | _, _ => false

/-- The jobs task `i` has completed by the end of tick `t` since its last
killed job, or since its creation. -/
def completedSince (i : Nat) : Nat → Nat
  | 0 => 0
  | t + 1 =>
      if sys.killedAt i t = true then 0
      else completedSince i t + if sys.completesAt i t = true then 1 else 0

/-- The same in tick `t + 1`, between the accounting and `killTasks`. -/
def completedIn (i t : Nat) : Nat :=
  sys.completedSince i t + if sys.completesAt i t = true then 1 else 0

end ClosedSystem

theorem TickStates.completesAt_iff (h : TickStates sys t st st₁ st₂ st₃)
    (hi : i < sys.taskCnt) : sys.completesAt i t = true ↔
      (sys.jobAt i t).ready = true ∧ (sys.accountedAt i t).ready = false := by
  simp only [ClosedSystem.completesAt, h.run, h.afterCharge, decide_eq_true_eq]
  rw [h.follows.mem_ready_iff hi, h.charged.mem_ready_iff hi,
    Bool.not_eq_true]

theorem TickStates.killedAt_iff (h : TickStates sys t st st₁ st₂ st₃)
    (hi : i < sys.taskCnt) : sys.killedAt i t = true ↔
      (sys.accountedAt i t).ready = true ∧ (sys.culledAt i t).ready = false := by
  simp only [ClosedSystem.killedAt, h.afterCharge, h.afterKill,
    decide_eq_true_eq]
  rw [h.charged.mem_ready_iff hi, h.killed.mem_ready_iff hi,
    Bool.not_eq_true]

section Step

variable (h : TickStates sys t st st₁ st₂ st₃) (hi : i < sys.taskCnt)
  (hmet : (sys.jobAt i t).met = counted (sys.params i) (sys.completedSince i t))

include h hi hmet

theorem TickStates.accounted_met : (sys.accountedAt i t).met =
    counted (sys.params i) (sys.completedIn i t) := by
  have hacc := Job.account_counted (b := sys.running i t) hmet
  rw [ClosedSystem.completedIn, sys.accountedAt_eq, hacc]
  simp only [h.completesAt_iff hi, sys.accountedAt_eq]

theorem TickStates.culled_met : (sys.culledAt i t).met =
    counted (sys.params i) (sys.completedSince i (t + 1)) := by
  have hcull := Job.cull_counted (u := t + 1) (h.accounted_met hi hmet)
  rw [ClosedSystem.completedSince, sys.culledAt_eq, hcull]
  simp only [h.killedAt_iff hi, sys.culledAt_eq]
  rfl

end Step

/-- Without RTO the counter is the number of jobs completed since the last
kill, modulo 256. -/
theorem jobAt_met (halg : sys.alg ≠ .rto) (ht : t ≤ sys.hiperperiod)
    (hi : i < sys.taskCnt) : (sys.jobAt i t).met =
      counted (sys.params i) (sys.completedSince i t) := by
  induction t with
  | zero =>
      have hfresh : (sys.jobAt i 0).met = 0 := by
        show (Job.blank.release sys.alg (sys.params i) 0).met = 0
        rw [Job.release, if_neg fun hc => halg hc.1]
        rfl
      rw [hfresh, counted]
      split <;> rfl
  | succ t ih =>
      obtain ⟨st, st₁, st₂, st₃, h⟩ := tick_states sys (show t < _ by omega)
      rw [sys.jobAt_succ, Job.wake_met halg, h.culled_met hi (ih (by omega))]

/-! ## Red or blue -/

/-- Eight bits say about the number `c` and the constraint `s` what the
number itself says. -/
def counterHolds (s c : Nat) : Prop := c < s - 1 ∨ s ≤ 255 ∧ s - 1 ≤ c % 2 ^ 8

/-- The counter of task `i` compares with its constraint as `c` does. -/
def ClosedSystem.Truthful (sys : ClosedSystem) (st : State) (i c : Nat) : Prop :=
  (sys.task i).weaklyHardConstraint - 1 ≤ (st.tcb i).previousDeadlineMet ↔
    (sys.task i).weaklyHardConstraint - 1 ≤ c

theorem counted_truthful {p : TaskParams} {c : Nat}
    (hs : 1 ≤ p.weaklyHardConstraint) :
    (p.weaklyHardConstraint - 1 ≤ counted p.toJob c ↔
      p.weaklyHardConstraint - 1 ≤ c) ↔
      counterHolds p.weaklyHardConstraint c := by
  have hskip : p.toJob.skip = p.weaklyHardConstraint % 2 ^ 8 := rfl
  have hc := Nat.mod_lt c (show 2 ^ 8 > 0 by decide)
  rw [counted, counterHolds, hskip]
  generalize p.weaklyHardConstraint = s at *
  by_cases hfit : s ≤ 255
  · have hmod : s % 2 ^ 8 = s := Nat.mod_eq_of_lt (by omega)
    rw [hmod, if_neg (by omega)]
    omega
  · split <;> omega

theorem Stage.truthful_iff {f : Nat → Job} {c : Nat} (h : Stage sys t f st)
    (hi : i < sys.taskCnt) (hs : 1 ≤ (sys.task i).weaklyHardConstraint)
    (hmet : (f i).met = counted (sys.params i) c) :
    sys.Truthful st i c ↔ counterHolds (sys.task i).weaklyHardConstraint c := by
  rw [ClosedSystem.Truthful, h.met hi, hmet]
  exact counted_truthful hs

/-- When the history counter tells the truth, at every point of every tick. -/
theorem counter_truthful_iff (sys : ClosedSystem) (halg : sys.alg ≠ .rto) :
    (∀ t < sys.hiperperiod, ∃ st st₁, sys.run t = .ok st ∧
      sys.afterCharge t = .ok st₁ ∧
      ∀ i < sys.taskCnt, 1 ≤ (sys.task i).weaklyHardConstraint →
        (sys.Truthful st i (sys.completedSince i t) ↔
          counterHolds (sys.task i).weaklyHardConstraint
            (sys.completedSince i t)) ∧
        (sys.Truthful st₁ i (sys.completedIn i t) ↔
          counterHolds (sys.task i).weaklyHardConstraint
            (sys.completedIn i t))) ∧
    ∀ t, t + 1 < sys.hiperperiod → ∃ st₂ st₃, sys.afterKill t = .ok st₂ ∧
      sys.afterWake t = .ok st₃ ∧
      ∀ i < sys.taskCnt, 1 ≤ (sys.task i).weaklyHardConstraint →
        (sys.Truthful st₂ i (sys.completedSince i (t + 1)) ↔
          counterHolds (sys.task i).weaklyHardConstraint
            (sys.completedSince i (t + 1))) ∧
        (sys.Truthful st₃ i (sys.completedSince i (t + 1)) ↔
          counterHolds (sys.task i).weaklyHardConstraint
            (sys.completedSince i (t + 1))) := by
  constructor
  · intro t ht
    obtain ⟨st, st₁, st₂, st₃, h⟩ := tick_states sys ht
    refine ⟨st, st₁, h.run, h.afterCharge, fun i hi hs => ?_⟩
    have hmet := jobAt_met halg (Nat.le_of_lt ht) hi
    exact ⟨h.follows.truthful_iff hi hs hmet,
      h.charged.truthful_iff hi hs (h.accounted_met hi hmet)⟩
  · intro t ht
    obtain ⟨st, st₁, st₂, st₃, h⟩ := tick_states sys (show t < _ by omega)
    refine ⟨st₂, st₃, h.afterKill, h.afterWake, fun i hi hs => ?_⟩
    have hmet := jobAt_met halg (show t ≤ _ by omega) hi
    exact ⟨h.killed.truthful_iff hi hs (h.culled_met hi hmet),
      h.woken.truthful_iff hi hs (jobAt_met halg (Nat.le_of_lt ht) hi)⟩

theorem counter_truthful_iff_twoTasks :
    (∀ t < 4, ∃ st st₁, (twoTasks .bwp).run t = .ok st ∧
      (twoTasks .bwp).afterCharge t = .ok st₁ ∧
      ∀ i < 2, 1 ≤ ((twoTasks .bwp).task i).weaklyHardConstraint →
        ((twoTasks .bwp).Truthful st i ((twoTasks .bwp).completedSince i t) ↔
          counterHolds ((twoTasks .bwp).task i).weaklyHardConstraint
            ((twoTasks .bwp).completedSince i t)) ∧
        ((twoTasks .bwp).Truthful st₁ i ((twoTasks .bwp).completedIn i t) ↔
          counterHolds ((twoTasks .bwp).task i).weaklyHardConstraint
            ((twoTasks .bwp).completedIn i t))) ∧
    ∀ t, t + 1 < 4 → ∃ st₂ st₃, (twoTasks .bwp).afterKill t = .ok st₂ ∧
      (twoTasks .bwp).afterWake t = .ok st₃ ∧
      ∀ i < 2, 1 ≤ ((twoTasks .bwp).task i).weaklyHardConstraint →
        ((twoTasks .bwp).Truthful st₂ i
            ((twoTasks .bwp).completedSince i (t + 1)) ↔
          counterHolds ((twoTasks .bwp).task i).weaklyHardConstraint
            ((twoTasks .bwp).completedSince i (t + 1))) ∧
        ((twoTasks .bwp).Truthful st₃ i
            ((twoTasks .bwp).completedSince i (t + 1)) ↔
          counterHolds ((twoTasks .bwp).task i).weaklyHardConstraint
            ((twoTasks .bwp).completedSince i (t + 1))) :=
  counter_truthful_iff (twoTasks .bwp) (by decide)

/-! ## A run long enough -/

/-- A task that is never late loses no job. -/
theorem completedSince_mono (hlate : ∀ v < sys.hiperperiod, ¬ sys.lateAt i v)
    (hi : i < sys.taskCnt) {u : Nat} (hut : u ≤ t) (ht : t ≤ sys.hiperperiod) :
    sys.completedSince i u ≤ sys.completedSince i t := by
  induction t, hut using Nat.le_induction with
  | base => exact Nat.le_refl _
  | succ t _ ih =>
      obtain ⟨st, st₁, st₂, st₃, h⟩ := tick_states sys (show t < _ by omega)
      have hkeep : ¬ sys.killedAt i t = true := by
        rw [h.killedAt_iff hi]
        rintro ⟨hr, hw⟩
        refine hlate t (by omega) ⟨hr, ?_⟩
        by_contra hl
        rw [sys.culledAt_eq, Job.cull_kept fun hc => hl hc.2, hr] at hw
        exact Bool.noConfusion hw
      rw [ClosedSystem.completedSince, if_neg hkeep]
      exact Nat.le_trans (ih (by omega)) (Nat.le_add_right _ _)

theorem streak_all_met {row : Nat → Bool} {k : Nat}
    (h : ∀ m < k, row m = true) : streak row k = k := by
  induction k with
  | zero => rfl
  | succ k ih =>
      rw [streak_succ_of_met (h k (Nat.lt_succ_self k)),
        ih fun m hm => h m (Nat.lt_succ_of_lt hm)]

/-- A task of EDF that is never late has met every period that is over. -/
theorem met_of_never_late (halg : sys.alg = .edf)
    (hlate : ∀ v < sys.hiperperiod, ¬ sys.lateAt i v)
    (hs : (sys.params i).skip ≠ 0) {k : Nat}
    (hk : k < sys.hiperperiod / (sys.params i).period) :
    (sys.jobAt i (k * (sys.params i).period)).met = k % 2 ^ 8 := by
  have hready : ∀ m ≤ k, (sys.jobAt i (m * (sys.params i).period)).ready = true := by
    intro m hm
    rw [released_row_iff (Nat.lt_of_le_of_lt hm hk), halg]
    exact fun hc => Algorithm.noConfusion hc.1
  have hmet := met_of_ready hs (hready k (Nat.le_refl k)) (release_le hk)
  rw [Nat.mul_div_cancel _ (sys.params i).period_pos] at hmet
  rw [hmet]
  congr 1
  refine streak_all_met fun m hm => ?_
  exact row_of_never_late (Nat.lt_trans hm hk) (hready m (Nat.le_of_lt hm))
    fun v hv _ => hlate v hv

/-- Having met 256 deadlines in a row, the task is taken for one that has met
none. -/
theorem counter_lies :
    ∃ st, (longTasks .edf).run 5120 = .ok st ∧
      (st.tcb 0).previousDeadlineMet = 0 ∧
      1 ≤ (longTasks .edf).completedSince 0 5120 ∧
      ¬ (longTasks .edf).Truthful st 0 ((longTasks .edf).completedSince 0 5120) := by
  have hutil : (longTasks .edf).utilization ≤ 1 := by decide +kernel
  have hlate : ∀ v < (longTasks .edf).hiperperiod, ¬ (longTasks .edf).lateAt 0 v :=
    fun v hv => edf_not_late rfl hutil hv (by decide)
  have hmet : ∀ k < 385, ((longTasks .edf).jobAt 0 (k * 20)).met = k % 2 ^ 8 :=
    fun k hk => met_of_never_late rfl hlate (by decide) hk
  obtain ⟨st, hrun, h⟩ := run_follows (longTasks .edf) (show 5120 < 7700 by decide)
  have hzero : (st.tcb 0).previousDeadlineMet = 0 :=
    (h.met (by decide)).trans (hmet 256 (by decide))
  have hone : 1 ≤ (longTasks .edf).completedSince 0 20 := by
    have hfirst := hmet 1 (by decide)
    rw [Nat.one_mul, jobAt_met (by decide) (show 20 ≤ 7700 by decide) (by decide)] at hfirst
    by_contra hnone
    rw [Nat.lt_one_iff.mp (Nat.not_le.mp hnone)] at hfirst
    exact absurd hfirst (by decide)
  have hmany : 1 ≤ (longTasks .edf).completedSince 0 5120 :=
    Nat.le_trans hone (completedSince_mono hlate (by decide)
      (show 20 ≤ 5120 by decide) (show 5120 ≤ 7700 by decide))
  refine ⟨st, hrun, hzero, hmany, fun htrue => ?_⟩
  have hback : 1 ≤ (st.tcb 0).previousDeadlineMet := htrue.mpr hmany
  omega

end FreeRtosSim
