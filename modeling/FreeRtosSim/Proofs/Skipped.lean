import FreeRtosSim.Job.Skipping
import FreeRtosSim.Proofs.Conserved

/-!
# The skipping rule of RTO in a run

The decision of `Job.Skipping` for the tasks of a run. A job is skipped when
its task spends the whole period on the wait list; the release decides that,
for job 0 the creation, and the task is in the ready list after the release
of every other job. Which jobs were completed and which were killed is read
off the run.
-/

namespace FreeRtosSim

variable {sys : ClosedSystem} {i k m s : Nat}

namespace ClosedSystem

variable (sys : ClosedSystem)

/-- Task `i` stays on the wait list for the whole of period `k`. -/
def skippedJob (i k : Nat) : Prop :=
  ∀ t, k * (sys.task i).period ≤ t → t < (k + 1) * (sys.task i).period →
    ∃ st, sys.run t = .ok st ∧ i ∈ st.items .wait

/-- A tick of period `k` completes job `k` of task `i`. -/
def completedJob (i k : Nat) : Prop :=
  ∃ u, u / (sys.task i).period = k ∧ sys.completesAt i u = true

/-- A tick of period `k` kills job `k` of task `i`. -/
def killedJob (i k : Nat) : Prop :=
  ∃ u, u / (sys.task i).period = k ∧ sys.killedAt i u = true

end ClosedSystem

/-- A period that begins before the hyperperiod ends with it at the latest. -/
theorem period_end_le (hi : i < sys.taskCnt)
    (hk : k * (sys.params i).period < sys.hiperperiod) :
    (k + 1) * (sys.params i).period ≤ sys.hiperperiod := by
  obtain ⟨n, hn⟩ := sys.params_period_dvd hi
  rw [Nat.mul_comm] at hn
  rw [hn] at hk ⊢
  exact Nat.mul_le_mul_right _ (Nat.lt_of_mul_lt_mul_right hk)

/-- The release decides about the whole period. -/
theorem skippedJob_iff (hi : i < sys.taskCnt)
    (hk : k * (sys.params i).period < sys.hiperperiod) :
    sys.skippedJob i k ↔
      (sys.jobAt i (k * (sys.params i).period)).ready = false := by
  have hP := (sys.params i).period_pos
  have hend := period_end_le hi hk
  have hmul : (k + 1) * (sys.params i).period =
      k * (sys.params i).period + (sys.params i).period := Nat.succ_mul _ _
  constructor
  · intro hskip
    obtain ⟨st, hrun, hmem⟩ := hskip (k * (sys.params i).period)
      (Nat.le_refl _) (show _ < (k + 1) * (sys.params i).period by omega)
    exact ((follows_of_run hk hrun).mem_wait_iff hi).mp hmem
  · intro hw t hlo hhi
    have hlo' : k * (sys.params i).period ≤ t := hlo
    have hhi' : t < (k + 1) * (sys.params i).period := hhi
    obtain ⟨st, hrun, h⟩ := run_follows sys (show t < sys.hiperperiod by omega)
    refine ⟨st, hrun, (h.mem_wait_iff hi).mpr ?_⟩
    by_contra hr
    rw [Bool.not_eq_false] at hr
    have hstart : t / (sys.params i).period * (sys.params i).period =
        k * (sys.params i).period := by
      congr 1
      rw [Nat.div_eq_iff hP]
      omega
    have hsince := ready_since sys.alg (sys.params i) (sys.running i) hr
      (k * (sys.params i).period) (Nat.le_of_eq hstart) hlo'
    exact Bool.noConfusion (hw.symm.trans hsince)

/-- A job that is not skipped is released. -/
theorem skipped_or_released (hi : i < sys.taskCnt)
    (hk : k * (sys.params i).period < sys.hiperperiod) :
    sys.skippedJob i k ∨ ∃ st,
      sys.run (k * (sys.params i).period) = .ok st ∧ i ∈ st.items (.ready 1) := by
  obtain ⟨st, hrun, h⟩ := run_follows sys hk
  rw [skippedJob_iff hi hk]
  cases hr : (sys.jobAt i (k * (sys.params i).period)).ready with
  | false => exact Or.inl rfl
  | true => exact Or.inr ⟨st, hrun, (h.mem_ready_iff hi).mpr hr⟩

/-- A tick of a period that is over is a tick of the run. -/
theorem lt_of_div_lt {u : Nat} (hk : k * (sys.params i).period < sys.hiperperiod)
    (hu : u / (sys.params i).period < k) : u < sys.hiperperiod :=
  Nat.lt_trans ((Nat.div_lt_iff_lt_mul (sys.params i).period_pos).mp hu) hk

theorem completedJob_iff (hi : i < sys.taskCnt) (hmk : m < k)
    (hk : k * (sys.params i).period < sys.hiperperiod) :
    sys.completedJob i m ↔ ∃ u, u / (sys.params i).period = m ∧
      doneIn sys.alg (sys.params i) (sys.running i) u := by
  refine exists_congr fun u => and_congr_right fun hu => ?_
  have hu' : u / (sys.params i).period = m := hu
  exact completesAt_done (lt_of_div_lt hk (by omega)) hi

section Rto

variable (halg : sys.alg = .rto) (hi : i < sys.taskCnt)
  (hs : (sys.params i).skip = s) (hpos : 1 ≤ s)

include halg hi hs hpos

theorem skipped_iff_completed
    (hk : k * (sys.params i).period < sys.hiperperiod) :
    sys.skippedJob i k ↔ s - 1 ≤ k ∧
      ∀ m, k - (s - 1) ≤ m → m < k → sys.completedJob i m := by
  have hne : (sys.params i).skip ≠ 0 := by omega
  rw [skippedJob_iff hi hk, ClosedSystem.jobAt, halg, leftOut_iff_done hne, hs]
  refine and_congr_right fun _ => forall_congr' fun m => ?_
  refine forall_congr' fun _ => forall_congr' fun hm => ?_
  rw [completedJob_iff hi hm hk, halg]

theorem skipped_apart (hmk : m < k)
    (hk : k * (sys.params i).period < sys.hiperperiod)
    (hm : sys.skippedJob i m) (hk' : sys.skippedJob i k) : m + s ≤ k := by
  have hne : (sys.params i).skip ≠ 0 := by omega
  have hmul := Nat.mul_le_mul_right (sys.params i).period (Nat.le_of_lt hmk)
  rw [skippedJob_iff hi (by omega), ClosedSystem.jobAt, halg] at hm
  rw [skippedJob_iff hi hk, ClosedSystem.jobAt, halg] at hk'
  rw [← hs]
  exact leftOut_apart hne hmk hm hk'

theorem skipped_iff_mod
    (hk : k * (sys.params i).period < sys.hiperperiod)
    (hkill : ∀ m < k, ¬ sys.killedJob i m) :
    sys.skippedJob i k ↔ k % s = s - 1 := by
  have hne : (sys.params i).skip ≠ 0 := by omega
  rw [skippedJob_iff hi hk, ClosedSystem.jobAt, halg, ← hs]
  refine leftOut_iff_mod hne fun u hu hlate => ?_
  rw [← halg] at hlate
  have hkilled := (killedAt_late (lt_of_div_lt hk hu) hi).mpr hlate
  exact hkill _ hu ⟨u, rfl, hkilled⟩

end Rto

/-- The skipping rule: a task of constraint `s` skips a job exactly when it
has completed the `s - 1` jobs before it. -/
theorem rto_skips (sys : ClosedSystem) (halg : sys.alg = .rto)
    (i : Nat) (hi : i < sys.taskCnt) :
    let s := (sys.task i).weaklyHardConstraint
    let P := (sys.task i).period
    (1 ≤ s → s ≤ 255 →
      (∀ k, k * P < sys.hiperperiod → (sys.skippedJob i k ↔ s - 1 ≤ k ∧
        ∀ m, k - (s - 1) ≤ m → m < k → sys.completedJob i m)) ∧
      (∀ k k', k < k' → k' * P < sys.hiperperiod → sys.skippedJob i k →
        sys.skippedJob i k' → k + s ≤ k') ∧
      ∀ k, k * P < sys.hiperperiod → (∀ m < k, ¬ sys.killedJob i m) →
        (sys.skippedJob i k ↔ k % s = s - 1)) ∧
    (s = 0 → ∀ k, k * P < sys.hiperperiod → ¬ sys.skippedJob i k) ∧
    ∀ k, k * P < sys.hiperperiod → sys.skippedJob i k ∨
      ∃ st, sys.run (k * P) = .ok st ∧ i ∈ st.items (.ready 1) := by
  refine ⟨fun hpos hle => ?_, fun hzero k hk hskip => ?_,
    fun k hk => skipped_or_released hi hk⟩
  · have hs : (sys.params i).skip = (sys.task i).weaklyHardConstraint :=
      Nat.mod_eq_of_lt (Nat.lt_succ_of_le hle)
    exact ⟨fun k hk => skipped_iff_completed halg hi hs hpos hk,
      fun k k' hkk hk' => skipped_apart halg hi hs hpos hkk hk',
      fun k hk hkill => skipped_iff_mod halg hi hs hpos hk hkill⟩
  · have hs : (sys.params i).skip = 0 := congrArg (· % 2 ^ 8) hzero
    rw [skippedJob_iff hi hk] at hskip
    have hiff := released_iff sys.alg (sys.params i) (sys.running i)
      (Nat.le_refl (k * (sys.params i).period))
    have hready := hiff.mpr fun hc => hc.2.1 hs
    exact Bool.noConfusion (hskip.symm.trans hready)

theorem rto_skips_twoTasks :
    let s := ((twoTasks .rto).task 1).weaklyHardConstraint
    let P := ((twoTasks .rto).task 1).period
    (1 ≤ s → s ≤ 255 →
      (∀ k, k * P < (twoTasks .rto).hiperperiod →
        ((twoTasks .rto).skippedJob 1 k ↔ s - 1 ≤ k ∧
        ∀ m, k - (s - 1) ≤ m → m < k → (twoTasks .rto).completedJob 1 m)) ∧
      (∀ k k', k < k' → k' * P < (twoTasks .rto).hiperperiod →
        (twoTasks .rto).skippedJob 1 k → (twoTasks .rto).skippedJob 1 k' →
        k + s ≤ k') ∧
      ∀ k, k * P < (twoTasks .rto).hiperperiod →
        (∀ m < k, ¬ (twoTasks .rto).killedJob 1 m) →
        ((twoTasks .rto).skippedJob 1 k ↔ k % s = s - 1)) ∧
    (s = 0 → ∀ k, k * P < (twoTasks .rto).hiperperiod →
      ¬ (twoTasks .rto).skippedJob 1 k) ∧
    ∀ k, k * P < (twoTasks .rto).hiperperiod → (twoTasks .rto).skippedJob 1 k ∨
      ∃ st, (twoTasks .rto).run (k * P) = .ok st ∧ 1 ∈ st.items (.ready 1) :=
  rto_skips (twoTasks .rto) rfl 1 (by decide)

end FreeRtosSim
