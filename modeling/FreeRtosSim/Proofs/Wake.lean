import FreeRtosSim.Proofs.Kill

/-!
# `wakeTasks`

The pass over the wait list releases every task whose period starts, or under
RTO leaves its job out. As for `killTasks` the walk is a fold that acts on
each task by itself. The fold also says in which order jobs end up in the
ready list: by key, and among equal keys those that were there first in
front, then the newly released ones in the order of the wait list.
-/

namespace FreeRtosSim

variable {sys : ClosedSystem} {t : Nat} {st : State} {x i : TaskHandle}

/-! ## Keys -/

theorem readyKey_le {alg : Algorithm} {p : JobParams} {j : Job}
    (h : j.start + p.period < 2 ^ 64) : readyKey alg p j ≤ portMaxDelay := by
  have h31 : bit31 < 2 ^ 64 := by decide
  have h30 : bit30 < 2 ^ 64 := by decide
  have hor := Nat.or_lt_two_pow h h31
  have hor' := Nat.or_lt_two_pow hor h30
  rw [portMaxDelay]
  cases alg with
  | edf => simp only [readyKey]; omega
  | rto => simp only [readyKey]; omega
  | bwp =>
      simp only [readyKey]
      split <;> omega

theorem Shape.key_le (h : Shape sys t st) (ht : t ≤ sys.hiperperiod)
    (hx : x ∈ st.items (.ready 1)) : (st.tcb x).xItemValue ≤ portMaxDelay := by
  have hlt := h.lt_of_ready hx
  have hper := sys.params_period_le hlt
  have hH := sys.hiperperiod_lt
  have hstart : (st.job x).start ≤ t := (h.bounds x hlt).start_le
  rw [h.key x hx]
  exact readyKey_le (by omega)

/-! ## One visit -/

/-- What a release writes to the control block. -/
def releaseWrite (t : Nat) (b : TCB) : TCB :=
  { b with xRemainingTicks := b.xTaskDuration, startTime := t }

/-- What leaving a job out writes to the control block. -/
def skipWrite (t : Nat) (b : TCB) : TCB :=
  { releaseWrite t b with previousDeadlineMet := 0 }

theorem release_static {p : JobParams} {b : TCB} (h : Static p x b) :
    Static p x (releaseWrite t b) :=
  ⟨h.priority, h.id, h.period, h.duration, h.skip⟩

theorem skip_static {p : JobParams} {b : TCB} (h : Static p x b) :
    Static p x (skipWrite t b) :=
  ⟨h.priority, h.id, h.period, h.duration, h.skip⟩

theorem release_bounds {p : JobParams} {b : TCB} (h : Static p x b) :
    Bounds p t (releaseWrite t b) :=
  ⟨Nat.le_refl t, by
    show b.xTaskDuration ≤ p.period
    rw [h.duration]
    exact p.duration_le⟩

theorem wakeBody_eq (h : Shape sys t st) (ht : t ≤ sys.hiperperiod)
    (hx : x ∈ st.items .wait) :
    wakeBody sys.alg x st =
      if t % (sys.params x).period = 0 then
        if skips sys.alg (sys.params x) (st.job x) then
          st.modifyTcb x (skipWrite t)
        else toReady x (releaseWrite t)
          (readyKey sys.alg (sys.params x)
            ((st.job x).release sys.alg (sys.params x) t)) st
      else st := by
  have hlt := h.lt_of_wait hx
  have hs := h.static x hlt
  have hper := sys.params_period_le hlt
  have hH := sys.hiperperiod_lt
  rw [wakeBody, if_pos (by rw [hs.priority]; exact Nat.one_pos), hs.period,
    h.tick]
  split
  · next hdvd =>
      have hskip : (sys.alg = .rto ∧
          ((st.modifyTcb x (releaseWrite t)).tcb x).weaklyHardConstraint ≠ 0 ∧
          (((st.modifyTcb x (releaseWrite t)).tcb x).previousDeadlineMet : Int) ≥
            (((st.modifyTcb x (releaseWrite t)).tcb x).weaklyHardConstraint : Int)
              - 1) ↔ skips sys.alg (sys.params x) (st.job x) := by
        have hsk : (releaseWrite t (st.tcb x)).weaklyHardConstraint =
            (sys.params x).skip := hs.skip
        have hmet : (releaseWrite t (st.tcb x)).previousDeadlineMet =
            (st.job x).met := rfl
        simp only [State.modifyTcb_tcb, Function.update_self, hsk, hmet, skips,
          Job.red, Job.owes]
        refine and_congr_right fun _ => ?_
        omega
      show (if _ then _ else _) = _
      by_cases hsk : skips sys.alg (sys.params x) (st.job x)
      · rw [if_pos hsk]
        refine (if_pos (hskip.mpr hsk)).trans ?_
        simp [State.modifyTcb, skipWrite, releaseWrite]
      · rw [if_neg hsk]
        refine (if_neg fun hc => hsk (hskip.mp hc)).trans ?_
        have hrel : (st.job x).release sys.alg (sys.params x) t =
            { st.job x with
              ready := true, remaining := (sys.params x).duration, start := t } :=
          if_neg hsk
        refine addTaskToReadyList_eq (release_static hs) (h.inWait x hx) ?_ ?_
          ?_ ?_ ?_
        · rw [hrel, h.tick]
        · rw [hrel]
          rfl
        · rw [h.tick]
          exact hdvd
        · rw [h.tick]
          omega
        · intro halg
          rw [hrel]
          by_contra hred
          exact hsk ⟨halg, hred⟩
  · rfl

/-- The state after `x` was released in place of `st`. -/
abbrev releaseState (sys : ClosedSystem) (t : Nat) (x : TaskHandle)
    (st : State) : State :=
  toReady x (releaseWrite t) (readyKey sys.alg (sys.params x)
    ((st.job x).release sys.alg (sys.params x) t)) st

theorem releaseState_job (h : Shape sys t st) (ht : t ≤ sys.hiperperiod)
    (hx : x ∈ st.items .wait)
    (hskip : ¬ skips sys.alg (sys.params x) (st.job x)) :
    (releaseState sys t x st).job x =
      (st.job x).release sys.alg (sys.params x) t := by
  have hs := h.static x (h.lt_of_wait hx)
  rw [releaseState, toReady_job_self, Job.release, if_neg hskip]
  · simp only [releaseWrite, hs.duration]
    rfl
  · intro y hy hmax
    rw [hmax]
    exact h.key_le ht hy

theorem Shape.releaseState (h : Shape sys t st) (ht : t ≤ sys.hiperperiod)
    (hx : x ∈ st.items .wait)
    (hskip : ¬ skips sys.alg (sys.params x) (st.job x)) :
    Shape sys t (releaseState sys t x st) := by
  have hs := h.static x (h.lt_of_wait hx)
  refine h.toReady hx (fun p => release_static) (release_bounds hs) ?_ ?_
  · intro y hy hmax
    rw [hmax]
    exact h.key_le ht hy
  · have hjob := releaseState_job h ht hx hskip
    rw [FreeRtosSim.releaseState] at hjob
    rw [hjob]

theorem Shape.skipState (h : Shape sys t st) (hx : x ∈ st.items .wait) :
    Shape sys t (st.modifyTcb x (skipWrite t)) := by
  have hs := h.static x (h.lt_of_wait hx)
  refine h.modifyTcb (h.lt_of_wait hx) (fun p => skip_static)
    ⟨Nat.le_refl t, (release_bounds (t := t) hs).remaining_le⟩ rfl ?_
  intro hr
  exact absurd hx (h.not_wait_of_ready hr)

theorem skipState_job (h : Shape sys t st) (hx : x ∈ st.items .wait)
    (hskip : skips sys.alg (sys.params x) (st.job x)) :
    (st.modifyTcb x (skipWrite t)).job x =
      (st.job x).release sys.alg (sys.params x) t := by
  have hs := h.static x (h.lt_of_wait hx)
  rw [modifyTcb_job_self, Job.release, if_pos hskip]
  simp only [skipWrite, releaseWrite, hs.duration]

/-! ## The pass -/

/-- One visit as the walk makes it, cursor on the task. -/
abbrev wakeVisit (alg : Algorithm) (st : State) (x : TaskHandle) : State :=
  visit (fun st => st.lists .wait) (fun st l => st.setList .wait l)
    (wakeBody alg) st x

/-- The three outcomes of a visit. -/
theorem wakeVisit_cases (h : Shape sys t st) (ht : t ≤ sys.hiperperiod)
    (hx : x ∈ st.items .wait) :
    ∃ st', st' = st.setList .wait ((st.lists .wait).setIndex (some x)) ∧
      Shape sys t st' ∧ x ∈ st'.items .wait ∧ (∀ i, st'.job i = st.job i) ∧
      ((t % (sys.params x).period ≠ 0 ∧ wakeVisit sys.alg st x = st') ∨
       (t % (sys.params x).period = 0 ∧
          skips sys.alg (sys.params x) (st'.job x) ∧
          wakeVisit sys.alg st x = st'.modifyTcb x (skipWrite t)) ∨
       (t % (sys.params x).period = 0 ∧
          ¬ skips sys.alg (sys.params x) (st'.job x) ∧
          wakeVisit sys.alg st x = releaseState sys t x st')) := by
  have hx' := hx
  rw [← setIndex_items st .wait .wait (some x)] at hx'
  have h' := h.setIndex .wait (some x)
  have heq : wakeVisit sys.alg st x = wakeBody sys.alg x
      (st.setList .wait ((st.lists .wait).setIndex (some x))) := rfl
  rw [wakeBody_eq h' ht hx'] at heq
  refine ⟨_, rfl, h', hx', fun i => setIndex_job _ _, ?_⟩
  by_cases hdvd : t % (sys.params x).period = 0
  · rw [if_pos hdvd] at heq
    by_cases hskip : skips sys.alg (sys.params x) ((st.setList .wait
        ((st.lists .wait).setIndex (some x))).job x)
    · rw [if_pos hskip] at heq
      exact Or.inr (Or.inl ⟨hdvd, hskip, heq⟩)
    · rw [if_neg hskip] at heq
      exact Or.inr (Or.inr ⟨hdvd, hskip, heq⟩)
  · rw [if_neg hdvd] at heq
    exact Or.inl ⟨hdvd, heq⟩

section Visit

variable (h : Shape sys t st) (ht : t ≤ sys.hiperperiod)
  (hx : x ∈ st.items .wait)

include h ht hx

theorem Shape.wakeVisit : Shape sys t (wakeVisit sys.alg st x) := by
  obtain ⟨st', -, h', hx', -, hcase⟩ := wakeVisit_cases h ht hx
  rcases hcase with ⟨-, heq⟩ | ⟨-, -, heq⟩ | ⟨-, hskip, heq⟩
  · rw [heq]
    exact h'
  · rw [heq]
    exact h'.skipState hx'
  · rw [heq]
    exact h'.releaseState ht hx' hskip

theorem wakeVisit_job : (wakeVisit sys.alg st x).job x =
    (st.job x).wake sys.alg (sys.params x) t := by
  have hr := (h.wait_iff (h.lt_of_wait hx)).mp hx
  obtain ⟨st', -, h', hx', hjob, hcase⟩ := wakeVisit_cases h ht hx
  rcases hcase with ⟨hdvd, heq⟩ | ⟨hdvd, hskip, heq⟩ | ⟨hdvd, hskip, heq⟩
  · rw [heq, hjob, Job.wake_kept hdvd]
  · rw [heq, skipState_job h' hx' hskip, hjob, Job.wake_released hr hdvd]
  · rw [heq, releaseState_job h' ht hx' hskip, hjob, Job.wake_released hr hdvd]

theorem wakeVisit_job_other (hi : i ≠ x) :
    (wakeVisit sys.alg st x).job i = st.job i := by
  obtain ⟨st', -, h', hx', hjob, hcase⟩ := wakeVisit_cases h ht hx
  rcases hcase with ⟨-, heq⟩ | ⟨-, -, heq⟩ | ⟨-, hskip, heq⟩
  · rw [heq, hjob]
  · rw [heq, modifyTcb_job_other hi, hjob]
  · rw [heq, releaseState, toReady_job_other _ hi, hjob]
    intro y hy hmax
    rw [hmax]
    exact h'.key_le ht hy

theorem wakeVisit_quiet : Quiet st (FreeRtosSim.wakeVisit sys.alg st x) ∧
    (FreeRtosSim.wakeVisit sys.alg st x).sim = st.sim := by
  obtain ⟨st', hst', -, -, -, hcase⟩ := wakeVisit_cases h ht hx
  subst hst'
  rcases hcase with ⟨-, heq⟩ | ⟨-, -, heq⟩ | ⟨-, -, heq⟩ <;>
  · rw [heq]
    exact ⟨⟨rfl, rfl⟩, rfl⟩

end Visit

/-- The waiting tasks visited one after the other. -/
def wakeFold (alg : Algorithm) (st : State) : State :=
  (st.items .wait).foldl (wakeVisit alg) st

/-- The pass is the fold, and it leaves the cursor on the first task that
still waits. -/
theorem wakeTasks_fold (h : Shape sys t st) (ht : t ≤ sys.hiperperiod) :
    wakeTasks sys.alg st = (wakeFold sys.alg st).setList .wait
      (((wakeFold sys.alg st).lists .wait).setIndex
        ((wakeFold sys.alg st).items .wait).head?) := by
  refine walk_eq_foldl (I := Shape sys t) (s := st) ?_ ?_ ?_ ?_ h h.wait_nodup ?_
  · intro s l
    simp
  · intro s l l'
    simp [State.setList]
  · intro s
    simp [State.setList]
  · intro s c hs _
    exact hs.setIndex _ _
  · intro y s hs hidx hy
    have hvisit : s.setList .wait
        ((s.lists .wait).setIndex (some y)) = s := by
      rw [← hidx, CursorList.setIndex_index]
      simp [State.setList]
    have hshape := hs.wakeVisit ht hy
    rw [FreeRtosSim.wakeVisit, visit, hvisit] at hshape
    refine ⟨hshape, ?_⟩
    rw [wakeBody_eq hs ht hy]
    split
    · split
      · exact Or.inl rfl
      · exact Or.inr (by simp [toReady])
    · exact Or.inl rfl

theorem wakeTasks_eq (h : Shape sys t st) (ht : t ≤ sys.hiperperiod) :
    ∃ c, wakeTasks sys.alg st = (wakeFold sys.alg st).setList .wait
      (((wakeFold sys.alg st).lists .wait).setIndex c) :=
  ⟨_, wakeTasks_fold h ht⟩

/-- A waiting task is what a visit of the pass is made to. -/
theorem Shape.wait_of_waiting (h : Shape sys t st)
    (hx : x < sys.taskCnt ∧ (st.job x).ready = false) :
    x ∈ st.items .wait := (h.wait_iff hx.1).mpr hx.2

theorem wakeVisit_pointwise (sys : ClosedSystem) {t : Nat}
    (ht : t ≤ sys.hiperperiod) :
    PointwiseStep State.job (wakeVisit sys.alg)
      (fun i => Job.wake sys.alg (sys.params i) t) (Shape sys t)
      (fun i j => i < sys.taskCnt ∧ j.ready = false) where
  inv _ _ hs hx := hs.wakeVisit ht (hs.wait_of_waiting hx)
  self _ _ hs hx := wakeVisit_job hs ht (hs.wait_of_waiting hx)
  other _ _ _ hs hx hy := wakeVisit_job_other hs ht (hs.wait_of_waiting hx) hy

theorem Shape.all_waiting (h : Shape sys t st) : ∀ x ∈ st.items .wait,
    x < sys.taskCnt ∧ (st.job x).ready = false :=
  fun _ hx => ⟨h.lt_of_wait hx, (h.wait_iff (h.lt_of_wait hx)).mp hx⟩

section Pass

variable (h : Shape sys t st) (ht : t ≤ sys.hiperperiod)

include h ht

theorem Shape.wakeTasks : Shape sys t (wakeTasks sys.alg st) := by
  obtain ⟨c, hc⟩ := wakeTasks_eq h ht
  rw [hc]
  exact ((wakeVisit_pointwise sys ht).foldl_inv _ st h.wait_nodup h
    h.all_waiting).setIndex _ _

theorem wakeTasks_job (hi : i < sys.taskCnt) :
    (wakeTasks sys.alg st).job i =
      (st.job i).wake sys.alg (sys.params i) t := by
  obtain ⟨c, hc⟩ := wakeTasks_eq h ht
  rw [hc, setIndex_job, wakeFold, (wakeVisit_pointwise sys ht).foldl_obs _ st
    h.wait_nodup h h.all_waiting]
  split
  · rfl
  · next hw =>
      have hr : ¬ (st.job i).ready = false := fun hr =>
        hw ((h.wait_iff hi).mpr hr)
      rw [Job.wake, if_neg fun hc => hr hc.1]

theorem wakeTasks_quiet : Quiet st (wakeTasks sys.alg st) ∧
    (wakeTasks sys.alg st).sim = st.sim := by
  obtain ⟨c, hc⟩ := wakeTasks_eq h ht
  have hq : Quiet st (wakeFold sys.alg st) ∧
      (wakeFold sys.alg st).sim = st.sim :=
    (wakeVisit_pointwise sys ht).foldl_rel
      (R := fun s s' => Quiet s s' ∧ s'.sim = s.sim)
      (fun s => ⟨Quiet.refl s, rfl⟩)
      (fun hab hbc => ⟨hab.1.trans hbc.1, hbc.2.trans hab.2⟩)
      (fun s x hs hx => wakeVisit_quiet hs ht (hs.wait_of_waiting hx))
      _ st h.wait_nodup h h.all_waiting
  rw [hc]
  exact ⟨⟨hq.1.current, hq.1.console⟩, hq.2⟩

end Pass

end FreeRtosSim
