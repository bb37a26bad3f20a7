import Mathlib.Algebra.Order.BigOperators.Group.Finset
import FreeRtosSim.Lib.Backlog
import FreeRtosSim.Lib.Periodic
import FreeRtosSim.Proofs.Dispatch
import FreeRtosSim.Proofs.Necessary

/-!
# The demand argument

All three algorithms serve the mandatory jobs, those that must not be missed,
in the order of their deadlines and before all others; under EDF every job is
mandatory. So up to any deadline `d` the mandatory work due by `d` is a
backlog the processor works off without pause, and a mandatory job that is
late leaves a window in which more mandatory work was released and due than
the window has ticks. Excluding such a window is all a schedulability theorem
has to do.
-/

namespace FreeRtosSim

variable {sys : ClosedSystem} {t d i : Nat}

namespace ClosedSystem

variable (sys)

/-- The job must not be missed. -/
def mandatory (i : Nat) (j : Job) : Prop :=
  sys.alg = .edf ∨ j.red (sys.params i)

instance (i : Nat) (j : Job) : Decidable (sys.mandatory i j) :=
  inferInstanceAs (Decidable (_ ∨ _))

/-- Task `i` has a mandatory job at the end of tick `t` that is due by `d`. -/
def dueAt (i t d : Nat) : Prop :=
  (sys.jobAt i t).ready = true ∧ sys.mandatory i (sys.jobAt i t) ∧
    (sys.jobAt i t).start + (sys.params i).period ≤ d

instance (i t d : Nat) : Decidable (sys.dueAt i t d) :=
  inferInstanceAs (Decidable (_ ∧ _ ∧ _))

/-- The mandatory work due by `d` that task `i` has left. -/
def pending (i t d : Nat) : Nat :=
  if sys.dueAt i t d then (sys.jobAt i t).remaining else 0

/-- The mandatory work due by `d` that task `i` releases at `t`. -/
def arriving (i t d : Nat) : Nat :=
  if t % (sys.params i).period = 0 ∧ sys.dueAt i t d then
    (sys.params i).duration else 0

/-- Keys have room for the deadlines. -/
def KeysFit : Prop := sys.alg = .bwp → sys.hiperperiod < 2 ^ 30

end ClosedSystem

/-! ## Who runs -/

/-- Under RTO only red jobs are ready. -/
theorem rto_ready_red (halg : sys.alg = .rto) :
    (sys.jobAt i t).ready = true → (sys.jobAt i t).red (sys.params i) := by
  induction t with
  | zero =>
      intro hr
      by_contra hred
      have hskip : skips sys.alg (sys.params i) Job.blank := by
        refine ⟨halg, fun hb => hred ?_⟩
        show Job.red _ (Job.initial _ _)
        unfold Job.initial Job.release
        split
        · exact hb
        · exact hb
      have hinit : sys.jobAt i 0 = Job.initial sys.alg (sys.params i) := rfl
      rw [hinit, Job.initial, Job.release_ready rfl] at hr
      exact hr hskip
  | succ t ih =>
      intro hr
      rw [sys.jobAt_succ] at hr ⊢
      by_cases hw : (sys.culledAt i t).ready = false ∧
          (t + 1) % (sys.params i).period = 0
      · rw [Job.wake, if_pos hw] at hr ⊢
        have hskip := (Job.release_ready hw.1).mp hr
        rw [Job.release, if_neg hskip]
        by_contra hred
        exact hskip ⟨halg, hred⟩
      · rw [Job.wake, if_neg hw] at hr ⊢
        have hacc : (sys.accountedAt i t).ready = true :=
          (Job.cull_ready.mp hr).1
        have hmet : (sys.accountedAt i t).met = (sys.jobAt i t).met :=
          (Job.account_same hacc).2
        have hsame : sys.culledAt i t = sys.accountedAt i t := Job.cull_same hr
        have hold := ih (Job.account_ready hacc)
        rw [hsame]
        rw [Job.red, Job.owes] at hold ⊢
        rwa [hmet]

/-- Whenever a mandatory job is ready, the running task has a mandatory job
that is due no later. -/
theorem running_mandatory (hkeys : sys.KeysFit) (ht : t < sys.hiperperiod)
    (hi : i < sys.taskCnt) (hdue : sys.dueAt i t d) :
    ∃ c < sys.taskCnt, sys.running c t = true ∧ sys.dueAt c t d := by
  obtain ⟨st, hrun, h⟩ := run_inOrder sys ht
  obtain ⟨hready, hman, hle⟩ := hdue
  have hmem := (h.mem_ready_iff hi).mpr hready
  have hd : sys.alg = .bwp →
      ∀ x ∈ st.items (.ready 1), st.deadline x < 2 ^ 30 := fun halg x hx =>
    Nat.lt_of_le_of_lt (deadline_le_hiperperiod ht hrun hx) (hkeys halg)
  obtain ⟨c, hcur, hc⟩ := h.dispatched hd (List.ne_nil_of_mem hmem)
  have hclt := h.shape.lt_of_ready hc.ready
  have hcr := (h.mem_ready_iff hclt).mp hc.ready
  have hdeadline : ∀ x < sys.taskCnt, st.deadline x =
      (sys.jobAt x t).start + (sys.params x).period := fun x hx => by
    rw [deadline_eq h.shape hx, h.job x hx]
  have hred : ∀ x < sys.taskCnt,
      (st.isRed x ↔ (sys.jobAt x t).red (sys.params x)) := fun x hx => by
    rw [isRed_iff h.shape hx, h.job x hx]
  refine ⟨c, hclt, (running_iff hrun).mpr hcur, hcr, ?_⟩
  by_cases halg : sys.alg = .bwp
  · have hired : st.isRed i := by
      rw [hred i hi]
      refine hman.resolve_left ?_
      rw [halg]
      decide
    have hcred := hc.redFirst halg ⟨i, hmem, hired⟩
    have hleast := hc.leastOfColour halg i hmem (iff_of_true hired hcred)
    rw [hdeadline c hclt, hdeadline i hi] at hleast
    exact ⟨Or.inr ((hred c hclt).mp hcred), Nat.le_trans hleast hle⟩
  · have hleast := hc.least halg i hmem
    rw [hdeadline c hclt, hdeadline i hi] at hleast
    refine ⟨?_, Nat.le_trans hleast hle⟩
    by_cases hedf : sys.alg = .edf
    · exact Or.inl hedf
    · refine Or.inr (rto_ready_red ?_ hcr)
      generalize sys.alg = alg at *
      cases alg with
      | edf => exact absurd rfl hedf
      | bwp => exact absurd rfl halg
      | rto => rfl

/-! ## The backlog -/

theorem mandatory_congr {j j' : Job} (h : j'.met = j.met) :
    sys.mandatory i j' ↔ sys.mandatory i j := by
  rw [ClosedSystem.mandatory, ClosedSystem.mandatory, Job.red, Job.red,
    Job.owes, Job.owes, h]

/-- Without a release, a job that is due at the end of the tick was due at its
start, and has lost the tick if it ran. -/
theorem pending_kept (hp : (t + 1) % (sys.params i).period ≠ 0) :
    sys.pending i (t + 1) d +
      (if sys.running i t = true ∧ sys.dueAt i t d then 1 else 0) ≤
      sys.pending i t d := by
  have hnext : sys.jobAt i (t + 1) = sys.culledAt i t :=
    (sys.jobAt_succ i t).trans (Job.wake_kept hp)
  by_cases hdue' : sys.dueAt i (t + 1) d
  · obtain ⟨hr, hman, hle⟩ := hdue'
    have hpend : sys.pending i (t + 1) d = (sys.jobAt i (t + 1)).remaining :=
      if_pos ⟨hr, hman, hle⟩
    rw [hnext] at hr hman hle
    have hacc : (sys.accountedAt i t).ready = true :=
      (Job.cull_ready.mp hr).1
    obtain ⟨hstart, hmet⟩ := Job.account_same hacc
    have hsame : sys.culledAt i t = sys.accountedAt i t := Job.cull_same hr
    have hold := Job.account_ready hacc
    have hdue : sys.dueAt i t d := by
      refine ⟨hold, ?_, ?_⟩
      · rw [hsame] at hman
        exact (mandatory_congr hmet).mp hman
      · rw [hsame] at hle
        rwa [show (sys.accountedAt i t).start = (sys.jobAt i t).start
          from hstart] at hle
    have hpend' : sys.pending i t d = (sys.jobAt i t).remaining := if_pos hdue
    rw [hpend, hpend', hnext, hsame]
    by_cases hrun : sys.running i t = true
    · rw [if_pos ⟨hrun, hdue⟩]
      rw [sys.accountedAt_eq, hrun, Job.account_charged hold] at hacc ⊢
      have hpos := (sys.fitsAt i t).remaining_pos hold
      by_cases hdone : (sys.jobAt i t).remaining - 1 = 0
      · rw [Job.charge_done hdone] at hacc
        exact absurd hacc (by simp)
      · rw [Job.charge_more hdone]
        show (sys.jobAt i t).remaining - 1 + 1 ≤ (sys.jobAt i t).remaining
        omega
    · rw [if_neg fun hc => hrun hc.1]
      exact Job.account_remaining_le _
  · have hpend : sys.pending i (t + 1) d = 0 := if_neg hdue'
    rw [hpend]
    split
    · next hc =>
        have hpend' : sys.pending i t d = (sys.jobAt i t).remaining :=
          if_pos hc.2
        have hpos := (sys.fitsAt i t).remaining_pos hc.2.1
        rw [hpend']
        omega
    · exact Nat.zero_le _

theorem pending_succ_le (sys : ClosedSystem) (i t d : Nat) :
    sys.pending i (t + 1) d +
      (if sys.running i t = true ∧ sys.dueAt i t d then 1 else 0) ≤
      sys.pending i t d + sys.arriving i (t + 1) d := by
  by_cases hp : (t + 1) % (sys.params i).period = 0
  · have hserved : (if sys.running i t = true ∧ sys.dueAt i t d then 1 else 0) ≤
        sys.pending i t d := by
      split
      · next hc =>
          have hpend : sys.pending i t d = (sys.jobAt i t).remaining := if_pos hc.2
          rw [hpend]
          exact (sys.fitsAt i t).remaining_pos hc.2.1
      · exact Nat.zero_le _
    have hnew : sys.pending i (t + 1) d ≤ sys.arriving i (t + 1) d := by
      unfold ClosedSystem.pending ClosedSystem.arriving
      by_cases hdue : sys.dueAt i (t + 1) d
      · rw [if_pos hdue, if_pos ⟨hp, hdue⟩]
        exact (sys.fitsAt i (t + 1)).remaining_le
      · rw [if_neg hdue]
        exact Nat.zero_le _
    omega
  · have := pending_kept (d := d) hp
    omega

/-- The work of all tasks together is a backlog one server works off. -/
theorem backlog_succ_le (hkeys : sys.KeysFit) (ht : t < sys.hiperperiod) :
    ∑ i ∈ Finset.range sys.taskCnt, sys.pending i (t + 1) d ≤
      (∑ i ∈ Finset.range sys.taskCnt, sys.pending i t d) - 1 +
        ∑ i ∈ Finset.range sys.taskCnt, sys.arriving i (t + 1) d := by
  have hsum := Finset.sum_le_sum fun i (_ : i ∈ Finset.range sys.taskCnt) =>
    pending_succ_le sys i t d
  rw [Finset.sum_add_distrib, Finset.sum_add_distrib] at hsum
  rcases Nat.eq_zero_or_pos
    (∑ i ∈ Finset.range sys.taskCnt, sys.pending i t d) with hz | hpos
  · omega
  · -- some task has work left, so the running one is served
    have hserved : 1 ≤ ∑ i ∈ Finset.range sys.taskCnt,
        if sys.running i t = true ∧ sys.dueAt i t d then 1 else 0 := by
      obtain ⟨i, hi, hne⟩ := Finset.exists_ne_zero_of_sum_ne_zero
        (Nat.ne_of_gt hpos)
      have hdue : sys.dueAt i t d := by
        by_contra hc
        exact hne (if_neg hc)
      obtain ⟨c, hc, hrun, hcd⟩ := running_mandatory hkeys ht
        (Finset.mem_range.mp hi) hdue
      refine Nat.le_trans ?_ (Finset.single_le_sum
        (f := fun i => if sys.running i t = true ∧ sys.dueAt i t d then 1 else 0)
        (fun _ _ => Nat.zero_le _) (Finset.mem_range.mpr hc))
      show 1 ≤ if sys.running c t = true ∧ sys.dueAt c t d then 1 else 0
      rw [if_pos ⟨hrun, hcd⟩]
    omega

/-- A late job would have needed every tick up to its deadline. -/
theorem late_remaining (hlate : sys.lateAt i t) :
    t + (sys.jobAt i t).remaining =
      (sys.jobAt i t).start + (sys.params i).period := by
  have hold := Job.account_ready hlate.1
  have hl := hlate.2
  have hfin := (sys.fitsAt i t).finish_le hold
  rw [(late_idle hlate).2, Job.late] at hl
  omega

/-- The late job and the one that runs instead are more than the ticks left
can do. -/
theorem late_pending (hkeys : sys.KeysFit) (ht : t < sys.hiperperiod)
    (hi : i < sys.taskCnt) (hlate : sys.lateAt i t) (hdue : sys.dueAt i t d) :
    (sys.jobAt i t).remaining + 1 ≤
      ∑ i ∈ Finset.range sys.taskCnt, sys.pending i t d := by
  obtain ⟨c, hc, hrun, hcdue⟩ := running_mandatory hkeys ht hi hdue
  have hne : i ≠ c := fun he => (late_idle hlate).1 (he ▸ hrun)
  have hpi : sys.pending i t d = (sys.jobAt i t).remaining := if_pos hdue
  have hpc : sys.pending c t d = (sys.jobAt c t).remaining := if_pos hcdue
  have hpos := (sys.fitsAt c t).remaining_pos hcdue.1
  have hsum := Finset.add_le_sum (f := fun i => sys.pending i t d)
    (fun _ _ => Nat.zero_le _) (Finset.mem_range.mpr hi) (Finset.mem_range.mpr hc)
    hne
  simp only [hpi, hpc] at hsum
  omega

theorem pending_zero_le (sys : ClosedSystem) (i d : Nat) :
    sys.pending i 0 d ≤ sys.arriving i 0 d := by
  unfold ClosedSystem.pending ClosedSystem.arriving
  by_cases hdue : sys.dueAt i 0 d
  · rw [if_pos hdue, if_pos ⟨Nat.zero_mod _, hdue⟩]
    exact (sys.fitsAt i 0).remaining_le
  · rw [if_neg hdue]
    exact Nat.zero_le _

/-- A late mandatory job leaves an overfull window. -/
theorem late_window (hkeys : sys.KeysFit) (ht : t < sys.hiperperiod)
    (hi : i < sys.taskCnt) (hlate : sys.lateAt i t)
    (hman : sys.mandatory i (sys.accountedAt i t)) :
    ∃ d ≤ sys.hiperperiod, t < d ∧ ∃ t₀ ≤ t,
      d - t₀ < ∑ u ∈ Finset.Icc t₀ t,
        ∑ i ∈ Finset.range sys.taskCnt, sys.arriving i u d := by
  have hold := Job.account_ready hlate.1
  obtain ⟨d, hd⟩ : ∃ d, d = (sys.jobAt i t).start + (sys.params i).period :=
    ⟨_, rfl⟩
  have hrem := late_remaining hlate
  have hpos := (sys.fitsAt i t).remaining_pos hold
  have hdue : sys.dueAt i t d := by
    rw [(late_idle hlate).2] at hman
    exact ⟨hold, hman, Nat.le_of_eq hd.symm⟩
  have hdH : d ≤ sys.hiperperiod := by
    obtain ⟨st, hrun, h⟩ := run_follows sys ht
    have hle := deadline_le_hiperperiod ht hrun ((h.mem_ready_iff hi).mpr hold)
    rw [deadline_eq h.shape hi, h.job i hi] at hle
    omega
  have hback := late_pending hkeys ht hi hlate hdue
  obtain ⟨t₀, hle, hbusy⟩ := @backlog_busy_interval
    (fun u => ∑ i ∈ Finset.range sys.taskCnt, sys.pending i u d)
    (fun u => ∑ i ∈ Finset.range sys.taskCnt, sys.arriving i u d) t
    (Finset.sum_le_sum fun x _ => pending_zero_le sys x d)
    (fun u hu => backlog_succ_le hkeys (Nat.lt_trans hu ht)) t (Nat.le_refl t)
  exact ⟨d, hdH, by omega, t₀, hle, by omega⟩

/-- What a task releases in a window, by the number of its releases. -/
theorem arriving_window_le (sys : ClosedSystem) (i t₀ t d : Nat) :
    ∑ u ∈ Finset.Icc t₀ t, sys.arriving i u d ≤
      (sys.params i).duration *
        Nat.count (fun j => sys.dueAt i ((windowStart (sys.params i).period t₀ + j)
          * (sys.params i).period) d)
          (windowCount (sys.params i).period t₀ t d) := by
  have hP := (sys.params i).period_pos
  have hsum : ∑ u ∈ Finset.Icc t₀ t, sys.arriving i u d =
      (sys.params i).duration * ((Finset.Icc t₀ t).filter (fun u =>
        u % (sys.params i).period = 0 ∧
        sys.dueAt i (u / (sys.params i).period * (sys.params i).period) d ∧
        u + (sys.params i).period ≤ d)).card := by
    rw [Finset.card_filter, Finset.mul_sum]
    refine Finset.sum_congr rfl fun u _ => ?_
    unfold ClosedSystem.arriving
    by_cases hdvd : u % (sys.params i).period = 0
    · have hmul : u / (sys.params i).period * (sys.params i).period = u :=
        Nat.div_mul_cancel (Nat.dvd_of_mod_eq_zero hdvd)
      rw [hmul]
      by_cases hdue : sys.dueAt i u d
      · have hstart : (sys.jobAt i u).start = u := by
          rw [(sys.fitsAt i u).start_eq, hmul]
        have hle := hdue.2.2
        rw [hstart] at hle
        rw [if_pos ⟨hdvd, hdue⟩, if_pos ⟨hdvd, hdue, hle⟩, Nat.mul_one]
      · rw [if_neg fun hc => hdue hc.2, if_neg fun hc => hdue hc.2.1]
        rfl
    · rw [if_neg fun hc => hdvd hc.1, if_neg fun hc => hdvd hc.1]
      rfl
  rw [hsum]
  exact Nat.mul_le_mul_left _ (card_window_le (Q := fun k =>
    sys.dueAt i (k * (sys.params i).period) d) hP)

/-- If the mandatory work of every window is bounded by a demand that fits,
no mandatory job is late. -/
theorem not_late_of_demand (hkeys : sys.KeysFit) (ht : t < sys.hiperperiod)
    (demand : Nat → Nat → Nat)
    (hfit : ∀ L, 1 ≤ L → L ≤ sys.hiperperiod →
      ∑ i ∈ Finset.range sys.taskCnt, demand i L ≤ L)
    (hbound : ∀ i < sys.taskCnt, ∀ t₀ ≤ t, ∀ d ≤ sys.hiperperiod, t < d →
      (sys.params i).duration *
        Nat.count (fun j => sys.dueAt i ((windowStart (sys.params i).period t₀ + j)
          * (sys.params i).period) d)
          (windowCount (sys.params i).period t₀ t d) ≤ demand i (d - t₀))
    (hi : i < sys.taskCnt) (hman : sys.mandatory i (sys.accountedAt i t)) :
    ¬ sys.lateAt i t := by
  intro hlate
  obtain ⟨d, hdH, htd, t₀, ht₀, hover⟩ := late_window hkeys ht hi hlate hman
  rw [Finset.sum_comm] at hover
  have hdemand : ∑ i ∈ Finset.range sys.taskCnt,
      ∑ u ∈ Finset.Icc t₀ t, sys.arriving i u d ≤
      ∑ i ∈ Finset.range sys.taskCnt, demand i (d - t₀) := by
    refine Finset.sum_le_sum fun i hi => ?_
    exact Nat.le_trans (arriving_window_le sys i t₀ t d)
      (hbound i (Finset.mem_range.mp hi) t₀ ht₀ d hdH htd)
  have := hfit (d - t₀) (by omega) (by omega)
  omega

end FreeRtosSim
