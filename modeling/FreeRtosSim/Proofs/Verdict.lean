import FreeRtosSim.Job.History
import FreeRtosSim.Proofs.Refine

/-!
# Verdicts in a run

The verdict lemmas of `Job.History` for the tasks of a run, over the report
the run ends with. A missed period was left out by RTO at its release or its
job was found late in some tick of the period, and both are decided by how
long the streak before it was.
-/

namespace FreeRtosSim

variable {sys : ClosedSystem} {i k v : Nat}

namespace ClosedSystem

variable (sys)

/-- The report of task `i` when the process ends. -/
def row (i : Nat) : Nat → Bool :=
  (sys.accountedAt i (sys.hiperperiod - 1)).report

end ClosedSystem

theorem lastTick_le (hk : k < sys.hiperperiod / (sys.params i).period) :
    lastTick (sys.params i) k ≤ sys.hiperperiod - 1 := by
  have hle : (k + 1) * (sys.params i).period ≤ sys.hiperperiod :=
    (Nat.le_div_iff_mul_le (sys.params i).period_pos).mp hk
  rw [← lastTick_succ] at hle
  omega

theorem release_le (hk : k < sys.hiperperiod / (sys.params i).period) :
    k * (sys.params i).period ≤ sys.hiperperiod - 1 := by
  have hlast := lastTick_succ (sys.params i) k
  have hle := lastTick_le hk
  have hP := (sys.params i).period_pos
  rw [Nat.succ_mul] at hlast
  omega

/-- A missed period was left out or its job was found late. -/
theorem row_false_iff (hk : k < sys.hiperperiod / (sys.params i).period) :
    sys.row i k = false ↔
      (sys.jobAt i (k * (sys.params i).period)).ready = false ∨
      ∃ v < sys.hiperperiod, v / (sys.params i).period = k ∧ sys.lateAt i v := by
  have hpos := sys.hiperperiod_pos
  have hiff := rowAt_eq_false_iff sys.alg (sys.params i) (sys.running i)
    (lastTick_le hk)
  refine hiff.trans (or_congr_right (exists_congr fun v => ?_))
  exact and_congr_left fun _ => by omega

theorem row_of_late (hk : v / (sys.params i).period <
      sys.hiperperiod / (sys.params i).period) (hlate : sys.lateAt i v) :
    sys.row i (v / (sys.params i).period) = false :=
  rowAt_of_late hlate (lastTick_le hk)

/-- A job was left out exactly when RTO had nothing to ask of it. -/
theorem released_row_iff (hk : k < sys.hiperperiod / (sys.params i).period) :
    (sys.jobAt i (k * (sys.params i).period)).ready = true ↔
      ¬ (sys.alg = .rto ∧ (sys.params i).skip ≠ 0 ∧
        (sys.params i).skip ≤ streak (sys.row i) k % 2 ^ 8 + 1) :=
  released_iff sys.alg (sys.params i) (sys.running i) (release_le hk)

/-- A ready job is required while the streak before it is short of the
constraint. -/
theorem red_row_iff {t : Nat} (ht : t < sys.hiperperiod)
    (hr : (sys.jobAt i t).ready = true) :
    (sys.jobAt i t).red (sys.params i) ↔ (sys.params i).skip = 0 ∨
      streak (sys.row i) (t / (sys.params i).period) % 2 ^ 8 + 1 <
        (sys.params i).skip := by
  by_cases hs : (sys.params i).skip = 0
  · simp only [Job.red, hs, true_or]
  · have hmet := met_of_ready hs hr (show t ≤ sys.hiperperiod - 1 by omega)
    rw [Job.red, Job.owes, ClosedSystem.row, ← hmet]

theorem late_red_iff {t : Nat} (ht : t < sys.hiperperiod)
    (hlate : sys.lateAt i t) :
    (sys.accountedAt i t).red (sys.params i) ↔ (sys.params i).skip = 0 ∨
      streak (sys.row i) (t / (sys.params i).period) % 2 ^ 8 + 1 <
        (sys.params i).skip := by
  rw [← red_row_iff ht (Job.account_ready hlate.1), Job.red, Job.red, Job.owes,
    Job.owes, sys.accountedAt_eq, (Job.account_same hlate.1).2]

/-- A task whose jobs are never left out and never late meets them all. -/
theorem row_of_never_late (hk : k < sys.hiperperiod / (sys.params i).period)
    (hr : (sys.jobAt i (k * (sys.params i).period)).ready = true)
    (hlate : ∀ v < sys.hiperperiod, v / (sys.params i).period = k →
      ¬ sys.lateAt i v) : sys.row i k = true := by
  rw [← Bool.not_eq_false, row_false_iff hk]
  rintro (hw | ⟨v, hv, hdiv, hl⟩)
  · exact Bool.noConfusion (hw.symm.trans hr)
  · exact hlate v hv hdiv hl

end FreeRtosSim
