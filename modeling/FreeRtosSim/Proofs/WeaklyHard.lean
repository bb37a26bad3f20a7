import FreeRtosSim.Proofs.Demand
import FreeRtosSim.Proofs.Verdict

/-!
# The weakly-hard guarantee of BWP and RTO

A job with constraint `s` is mandatory only while the streak before it is
short of `s - 1`, and a mandatory job that is met makes the streak one
longer. So of `m` jobs in a row at least `m / s` are not mandatory, which
bounds the mandatory demand of a window. If that demand fits into every
window no mandatory job is ever late; the argument is an induction over
time, since the colours up to a tick depend on nobody having been late
before it.
-/

namespace FreeRtosSim

/-- The mandatory work of a task in any window of `L` ticks. -/
def TaskParams.demand (p : TaskParams) (L : Nat) : Nat :=
  if p.weaklyHardConstraint = 0 then L / p.period * p.duration
  else (L / p.period - L / (p.period * p.weaklyHardConstraint)) * p.duration

variable {sys : ClosedSystem} {t i k : Nat}

namespace ClosedSystem

variable (sys)

/-- The mandatory work fits into every window of the run. -/
def DemandFits : Prop :=
  ∀ L, 1 ≤ L → L ≤ sys.hiperperiod →
    ∑ i ∈ Finset.range sys.taskCnt, (sys.task i).demand L ≤ L

/-- The constraints survive the conversion to `uint8_t`. -/
def ConstraintsFit : Prop :=
  ∀ i < sys.taskCnt, (sys.task i).weaklyHardConstraint ≤ 255

end ClosedSystem

theorem ClosedSystem.ConstraintsFit.skip_eq (h : sys.ConstraintsFit)
    (hi : i < sys.taskCnt) :
    (sys.params i).skip = (sys.task i).weaklyHardConstraint :=
  Nat.mod_eq_of_lt (Nat.lt_succ_of_le (h i hi))

theorem mandatory_iff_red (halg : sys.alg ≠ .edf) {j : Job} :
    sys.mandatory i j ↔ j.red (sys.params i) :=
  ⟨fun h => h.resolve_left halg, Or.inr⟩

/-! ## Mandatory jobs of a window -/

theorem sub_div_mono {m M s : Nat} (hs : 0 < s) (h : m ≤ M) :
    m - m / s ≤ M - M / s := by
  obtain ⟨e, rfl⟩ := Nat.exists_eq_add_of_le h
  have hle : m + e ≤ m + e * s :=
    Nat.add_le_add_left (Nat.le_mul_of_pos_right e hs) m
  have hdiv : (m + e) / s ≤ m / s + e :=
    calc (m + e) / s ≤ (m + e * s) / s := Nat.div_le_div_right hle
      _ = m / s + e := Nat.add_mul_div_right m e hs
  have := Nat.div_le_self m s
  omega

section Window

variable (halg : sys.alg ≠ .edf) (hfit : sys.ConstraintsFit)
  (hi : i < sys.taskCnt) (hs : (sys.task i).weaklyHardConstraint ≠ 0)

include halg hfit hi hs

/-- A mandatory job comes after a short streak. -/
theorem short_streak_of_due {d : Nat}
    (hk : k * (sys.params i).period < sys.hiperperiod)
    (hdue : sys.dueAt i (k * (sys.params i).period) d) :
    streak (sys.row i) k % 2 ^ 8 + 1 < (sys.task i).weaklyHardConstraint := by
  have hskip := hfit.skip_eq hi
  have hred := (red_row_iff hk hdue.1).mp ((mandatory_iff_red halg).mp hdue.2.1)
  rw [Nat.mul_div_cancel _ (sys.params i).period_pos, hskip] at hred
  exact hred.resolve_left hs

/-- A mandatory job that nobody finds late is met. -/
theorem met_of_due {d : Nat}
    (hk : (k + 1) * (sys.params i).period ≤ t) (ht : t < sys.hiperperiod)
    (hnone : ∀ v < t, sys.lateAt i v →
      ¬ sys.mandatory i (sys.accountedAt i v))
    (hdue : sys.dueAt i (k * (sys.params i).period) d) :
    sys.row i k = true := by
  have hP := (sys.params i).period_pos
  have hskip := hfit.skip_eq hi
  have hle : k * (sys.params i).period ≤ (k + 1) * (sys.params i).period :=
    Nat.mul_le_mul_right _ (Nat.le_succ k)
  have hkN : k < sys.hiperperiod / (sys.params i).period :=
    (Nat.le_div_iff_mul_le hP).mpr
      (show (k + 1) * (sys.params i).period ≤ sys.hiperperiod by omega)
  have hshort := short_streak_of_due halg hfit hi hs (by omega) hdue
  refine row_of_never_late hkN hdue.1 fun v hv hdiv hlate => ?_
  have hvt : v < t := by
    have := (period_bounds (sys.params i) v).2
    rw [hdiv] at this
    omega
  refine hnone v hvt hlate (Or.inr ((late_red_iff hv hlate).mpr (Or.inr ?_)))
  rw [hdiv, hskip]
  exact hshort

/-- The mandatory jobs among those of a window. -/
theorem count_due_le (t₀ d : Nat) (ht : t < sys.hiperperiod)
    (hnone : ∀ v < t, sys.lateAt i v →
      ¬ sys.mandatory i (sys.accountedAt i v)) :
    Nat.count (fun j => sys.dueAt i ((windowStart (sys.params i).period t₀ + j)
        * (sys.params i).period) d)
      (windowCount (sys.params i).period t₀ t d) +
      windowCount (sys.params i).period t₀ t d /
        (sys.task i).weaklyHardConstraint ≤
      windowCount (sys.params i).period t₀ t d := by
  have hspos := Nat.pos_of_ne_zero hs
  have hin : ∀ k, windowStart (sys.params i).period t₀ ≤ k →
      k < windowStart (sys.params i).period t₀ +
        windowCount (sys.params i).period t₀ t d →
      k * (sys.params i).period ≤ t := by
    intro k hlo hhi
    have hwin : k - windowStart (sys.params i).period t₀ <
        windowCount (sys.params i).period t₀ t d := by omega
    have hle := windowStart_add_le hwin
    rwa [Nat.add_sub_cancel' hlo] at hle
  refine count_required_add_div_le
    (Q := fun k => sys.dueAt i (k * (sys.params i).period) d)
    (c := fun k => streak (sys.row i) k % 2 ^ 8) hspos _ _ (Nat.le_refl _) ?_ ?_
  · intro k hlo hhi hdue
    have := hin k hlo hhi
    exact short_streak_of_due halg hfit hi hs (by omega) hdue
  · intro k hlo hhi hdue
    have hnext := hin (k + 1) (by omega) hhi
    have hmul : (k + 1) * (sys.params i).period =
        k * (sys.params i).period + (sys.params i).period := Nat.succ_mul _ _
    have hshort := short_streak_of_due halg hfit hi hs (by omega) hdue
    have hmet := met_of_due halg hfit hi hs hnext ht hnone hdue
    have := hfit i hi
    simp only [streak_succ_of_met hmet]
    omega

end Window

/-! ## No mandatory job is late -/

section Fits

variable (halg : sys.alg ≠ .edf) (hfit : sys.ConstraintsFit)
  (hkeys : sys.KeysFit) (hdemand : sys.DemandFits)

include halg hfit hkeys hdemand

theorem mandatory_not_late : ∀ t < sys.hiperperiod, ∀ i < sys.taskCnt,
    sys.lateAt i t → ¬ sys.mandatory i (sys.accountedAt i t) := by
  intro t
  induction t using Nat.strong_induction_on with
  | _ t ih =>
      intro ht i hi hlate hman
      refine not_late_of_demand hkeys ht (fun i => (sys.task i).demand)
        hdemand ?_ hi hman hlate
      intro i hi t₀ ht₀ d hdH htd
      have hP := (sys.params i).period_pos
      have hwin : windowCount (sys.params i).period t₀ t d ≤
          (d - t₀) / (sys.params i).period := windowCount_le_div hP
      rw [TaskParams.demand, Nat.mul_comm]
      refine Nat.le_trans (Nat.mul_le_mul_right _ (m :=
        if (sys.task i).weaklyHardConstraint = 0 then
          (d - t₀) / (sys.task i).period
        else (d - t₀) / (sys.task i).period - (d - t₀) /
          ((sys.task i).period * (sys.task i).weaklyHardConstraint)) ?_) ?_
      · split
        · exact Nat.le_trans (Nat.count_le _) hwin
        · next hs =>
            have hcount := count_due_le halg hfit hi hs t₀ d ht
              fun v hv hlate => ih v hv (by omega) i hi hlate
            have hmono := sub_div_mono (Nat.pos_of_ne_zero hs) hwin
            rw [← Nat.div_div_eq_div_mul]
            exact Nat.le_trans (Nat.le_sub_of_add_le hcount) hmono
      · split <;> exact Nat.le_refl _

/-- The flag survives every tick. -/
theorem never_broken (ht : t < sys.hiperperiod) (hi : i < sys.taskCnt) :
    ¬ sys.breaksAt i t := fun hbreak =>
  mandatory_not_late halg hfit hkeys hdemand t ht i hi hbreak.1 (Or.inr hbreak.2)

/-- A missed period of a task with a constraint had a long enough streak
before it. -/
theorem long_streak_of_missed (hi : i < sys.taskCnt)
    (hk : k < sys.hiperperiod / (sys.params i).period)
    (hmiss : sys.row i k = false) :
    (sys.task i).weaklyHardConstraint ≠ 0 ∧
      (sys.task i).weaklyHardConstraint ≤ streak (sys.row i) k % 2 ^ 8 + 1 := by
  have hskip := hfit.skip_eq hi
  rcases (row_false_iff hk).mp hmiss with hw | ⟨v, hv, rfl, hlate⟩
  · have hleft := mt (released_row_iff hk).mpr (by simp [hw])
    rw [not_not, hskip] at hleft
    exact hleft.2
  · have hnot := mandatory_not_late halg hfit hkeys hdemand v hv i hi hlate
    rw [mandatory_iff_red halg, late_red_iff hv hlate, hskip, not_or,
      not_lt] at hnot
    exact hnot

/-- RTO lets no released job miss. -/
theorem rto_missed_iff (hrto : sys.alg = .rto) (hi : i < sys.taskCnt)
    (hs : (sys.task i).weaklyHardConstraint ≠ 0)
    (hk : k < sys.hiperperiod / (sys.params i).period) :
    sys.row i k = false ↔
      (sys.task i).weaklyHardConstraint ≤ streak (sys.row i) k % 2 ^ 8 + 1 := by
  refine ⟨fun hmiss => (long_streak_of_missed halg hfit hkeys hdemand hi hk
    hmiss).2, fun hle => (row_false_iff hk).mpr (Or.inl ?_)⟩
  have hskip := hfit.skip_eq hi
  rw [← Bool.not_eq_true, released_row_iff hk, not_not, hskip]
  exact ⟨hrto, hs, hle⟩

end Fits

/-- The weakly-hard guarantee: if the mandatory work fits into every window,
BWP and RTO break no constraint, RTO misses exactly every `s`-th job and BWP
no more than that. -/
theorem weakly_hard_guarantee (sys : ClosedSystem) (halg : sys.alg ≠ .edf)
    (hfit : ∀ i < sys.taskCnt, (sys.task i).weaklyHardConstraint ≤ 255)
    (hlt : sys.hiperperiod < 2 ^ 30)
    (hdemand : ∀ L, 1 ≤ L →
      ∑ i ∈ Finset.range sys.taskCnt, (sys.task i).demand L ≤ L) :
    (∀ t < sys.hiperperiod, ∃ st, sys.run t = .ok st ∧
      st.sim.weaklyHard = 1) ∧
    ∃ st, sys.run sys.hiperperiod = .error (.exit st) ∧
      st.sim.weaklyHard = 1 ∧
      ∀ i < sys.taskCnt,
        let s := (sys.task i).weaklyHardConstraint
        let N := sys.hiperperiod / (sys.task i).period
        let misses := missCount (st.sim.taskSet i).report N
        (s = 0 → misses = 0) ∧
        (s ≠ 0 → misses ≤ N / s) ∧
        (s ≠ 0 → sys.alg = .rto → misses = N / s) := by
  have hkeys : sys.KeysFit := fun _ => hlt
  have hd : sys.DemandFits := fun L hL _ => hdemand L hL
  refine ⟨fun t ht => ?_, ?_⟩
  · obtain ⟨st, hrun, h⟩ := run_follows sys ht
    refine ⟨st, hrun, h.flagIff.mpr fun u hu i hi => ?_⟩
    exact never_broken halg hfit hkeys hd (by omega) hi
  · obtain ⟨st, hrun, hfin⟩ := run_exits sys
    refine ⟨st, hrun, hfin.flagIff.mpr fun u hu i hi => ?_, fun i hi => ?_⟩
    · exact never_broken halg hfit hkeys hd (by omega) hi
    · have hmissed := fun k hk =>
        long_streak_of_missed (k := k) halg hfit hkeys hd hi hk
      dsimp only
      rw [hfin.report i hi]
      refine ⟨fun hs => ?_, fun hs => ?_, fun hs hrto => ?_⟩
      · rw [missCount, Nat.count_iff_forall_not]
        exact fun k hk hmiss => (hmissed k hk hmiss).1 hs
      · refine missCount_le_div (Nat.pos_of_ne_zero hs) fun k hk hmiss => ?_
        have hmod := Nat.mod_le (streak (sys.row i) k) (2 ^ 8)
        exact Nat.le_trans (hmissed k hk hmiss).2 (Nat.succ_le_succ hmod)
      · refine missCount_eq_div (Nat.pos_of_ne_zero hs)
          (Nat.lt_succ_of_le (hfit i hi)) fun k hk => ?_
        exact rto_missed_iff halg hfit hkeys hd hrto hi hs hk

theorem weakly_hard_guarantee_twoTasks :
    (∀ t < 4, ∃ st, (twoTasks .rto).run t = .ok st ∧
      st.sim.weaklyHard = 1) ∧
    ∃ st, (twoTasks .rto).run 4 = .error (.exit st) ∧
      st.sim.weaklyHard = 1 ∧
      ∀ i < 2,
        let s := ((twoTasks .rto).task i).weaklyHardConstraint
        let N := 4 / ((twoTasks .rto).task i).period
        let misses := missCount (st.sim.taskSet i).report N
        (s = 0 → misses = 0) ∧
        (s ≠ 0 → misses ≤ N / s) ∧
        (s ≠ 0 → (twoTasks .rto).alg = .rto → misses = N / s) := by
  refine weakly_hard_guarantee (twoTasks .rto) (by decide) (by decide)
    (by decide) fun L _ => ?_
  show ∑ i ∈ Finset.range 2, ((twoTasks .rto).task i).demand L ≤ L
  rw [Finset.sum_range_succ, Finset.sum_range_one]
  show L / 4 * 2 + (L / 2 - L / (2 * 2)) * 1 ≤ L
  omega

end FreeRtosSim
