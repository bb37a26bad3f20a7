import FreeRtosSim.Proofs.Moves
import FreeRtosSim.Lib.Fold

/-!
# `killTasks`

The pass over ready list 1 culls every job once. Its body leaves a task
where it is or moves it to the wait list, so the walk is a fold over the
list as it was, and the fold acts on each task by itself.
-/

namespace FreeRtosSim

variable {sys : ClosedSystem} {t : Nat} {st : State} {x i : TaskHandle}

/-- What no pass of a tick touches. -/
structure Quiet (st st' : State) : Prop where
  current : st'.pxCurrentTCB = st.pxCurrentTCB
  console : st'.console = st.console

theorem Quiet.refl (st : State) : Quiet st st := ⟨rfl, rfl⟩

theorem Quiet.trans {a b c : State} (h : Quiet a b) (h' : Quiet b c) :
    Quiet a c :=
  ⟨h'.current.trans h.current, h'.console.trans h.console⟩

/-! ## One visit -/

/-- The bookkeeping of a kill in the simulator's globals. -/
def recordKill (p : JobParams) (j : Job) (x : Nat) (sim : Simulator) :
    Simulator :=
  if j.red p then (sim.incrementTimesKilled x).weaklyHardBroken
  else sim.incrementTimesKilled x

theorem recordKill_taskSet {p : JobParams} {j : Job} {sim : Simulator} :
    (recordKill p j x sim).taskSet = Function.update sim.taskSet x
      { sim.taskSet x with timesKilled := (sim.taskSet x).timesKilled + 1 } := by
  unfold recordKill
  split <;> rfl

theorem recordKill_keeps {p : JobParams} {j : Job} {sim : Simulator} :
    sim.Keeps x (recordKill p j x sim) := by
  refine ⟨?_, ?_, fun i hi => ?_, fun q H he => ?_, ?_⟩
  · unfold recordKill
    split <;> rfl
  · unfold recordKill
    split <;> rfl
  · rw [recordKill_taskSet, Function.update_of_ne hi]
  · rw [recordKill_taskSet, Function.update_self]
    exact ⟨he.period, he.duration, he.constraint, he.numOfPeriods⟩
  · unfold recordKill
    split
    · exact Nat.zero_le _
    · exact Nat.le_refl _

theorem killBody_eq (h : Shape sys t st) (hx : x ∈ st.items (.ready 1)) :
    killBody x st =
      if hopeless st x = true then
        toWait x (fun b => { b with previousDeadlineMet := 0 })
          (recordKill (sys.params x) (st.job x) x) st
      else st := by
  have hs := h.static x (h.lt_of_ready hx)
  have hmust : mustMeet (st.tcb x) = true ↔ (st.job x).owes (sys.params x) := by
    rw [mustMeet_iff, hs.skip]
    rfl
  rw [killBody, if_pos (by rw [hs.priority]; exact Nat.one_pos)]
  split
  · have hred : checkWeaklyHard x { st with
          sim := st.sim.incrementTimesKilled (st.tcb x).xTaskId } =
        { st with sim := recordKill (sys.params x) (st.job x) x st.sim } := by
      simp only [checkWeaklyHard, recordKill, hs.skip, hs.id, hmust, Job.red]
      by_cases h0 : (sys.params x).skip = 0
      · simp only [h0, if_true, true_or]
      · simp only [h0, if_false, false_or]
        split <;> rfl
    rw [← addTaskToWaitList_eq (h.inReady x hx)]
    dsimp only
    rw [hred]
    rfl
  · rfl

theorem ClosedSystem.params_period_dvd (sys : ClosedSystem)
    (hi : i < sys.taskCnt) : (sys.params i).period ∣ sys.hiperperiod := by
  show (sys.tasks.getD i default).period ∣ sys.hiperperiod
  have hget : sys.tasks.getD i default = sys.tasks[i] := by
    simp [List.getD_eq_getElem?_getD, hi]
  rw [hget]
  exact sys.period_dvd _ (List.getElem_mem hi)

theorem ClosedSystem.params_period_le (sys : ClosedSystem)
    (hi : i < sys.taskCnt) : (sys.params i).period ≤ sys.hiperperiod :=
  Nat.le_of_dvd sys.hiperperiod_pos (sys.params_period_dvd hi)

/-- A period that starts before the exit ends by then. -/
theorem ClosedSystem.due_le (sys : ClosedSystem) (hi : i < sys.taskCnt)
    {u : Nat} (hu : u < sys.hiperperiod) :
    u / (sys.params i).period * (sys.params i).period + (sys.params i).period ≤
      sys.hiperperiod := by
  obtain ⟨m, hm⟩ := sys.params_period_dvd hi
  have hpos := (sys.params i).period_pos
  have hdiv : u / (sys.params i).period < m := by
    rw [Nat.div_lt_iff_lt_mul hpos, Nat.mul_comm, ← hm]
    exact hu
  rw [← Nat.succ_mul, hm, Nat.mul_comm _ m]
  exact Nat.mul_le_mul_right _ hdiv

/-- In range the unsigned laxity test is the one on plain naturals. -/
theorem hopeless_iff (h : Shape sys t st) (ht : t ≤ sys.hiperperiod)
    (hi : i < sys.taskCnt) :
    hopeless st i = true ↔ (st.job i).late (sys.params i) t := by
  have hs := h.static i hi
  have hb := h.bounds i hi
  have hle := hb.start_le
  have hrem := hb.remaining_le
  have hper := sys.params_period_le hi
  have hH := sys.hiperperiod_lt
  simp only [hopeless, h.tick, hs.period, decide_eq_true_eq, Job.late,
    State.job]
  rw [tickSub_of_le (by omega) hle, tickAdd_of_lt (by omega)]
  omega

/-! ## The pass -/

/-- One visit as the walk makes it, cursor on the task. -/
abbrev killVisit (st : State) (x : TaskHandle) : State :=
  visit (fun st => st.lists (.ready 1)) (fun st l => st.setList (.ready 1) l)
    killBody st x

theorem killVisit_eq (h : Shape sys t st) (hx : x ∈ st.items (.ready 1)) :
    killVisit st x =
      let st' := st.setList (.ready 1) ((st.lists (.ready 1)).setIndex (some x))
      if hopeless st x = true then
        toWait x (fun b => { b with previousDeadlineMet := 0 })
          (recordKill (sys.params x) (st.job x) x) st'
      else st' := by
  have hx' := hx
  rw [← setIndex_items st (.ready 1) (.ready 1) (some x)] at hx'
  show killBody x _ = _
  rw [killBody_eq (h.setIndex _ _) hx', setIndex_job]
  rfl

theorem kill_static {p : JobParams} {b : TCB} (h : Static p x b) :
    Static p x { b with previousDeadlineMet := 0 } :=
  ⟨h.priority, h.id, h.period, h.duration, h.skip⟩

theorem Shape.killVisit (h : Shape sys t st) (hx : x ∈ st.items (.ready 1)) :
    Shape sys t (killVisit st x) := by
  have hb := h.bounds x (h.lt_of_ready hx)
  rw [killVisit_eq h hx]
  dsimp only
  split
  · refine (h.setIndex _ _).toWait ?_ (fun p => kill_static)
      ⟨hb.start_le, hb.remaining_le⟩ recordKill_keeps
    rwa [setIndex_items]
  · exact h.setIndex _ _

theorem killVisit_quiet (h : Shape sys t st) (hx : x ∈ st.items (.ready 1)) :
    Quiet st (FreeRtosSim.killVisit st x) := by
  rw [killVisit_eq h hx]
  dsimp only
  split <;> exact ⟨rfl, rfl⟩

theorem killVisit_job (h : Shape sys t st) (ht : t ≤ sys.hiperperiod)
    (hx : x ∈ st.items (.ready 1)) :
    (killVisit st x).job x = (st.job x).cull (sys.params x) t := by
  have hlate := hopeless_iff h ht (h.lt_of_ready hx)
  rw [killVisit_eq h hx]
  dsimp only
  split
  · next hh =>
      rw [toWait_job_self (by rw [setIndex_items]; exact h.ready_nodup),
        recordKill_taskSet, Job.cull_dropped ⟨job_ready_iff.mpr hx, hlate.mp hh⟩]
      simp [Job.drop, State.job]
  · next hh =>
      rw [setIndex_job, Job.cull_kept fun hc => hh (hlate.mpr hc.2)]

theorem killVisit_job_other (h : Shape sys t st)
    (hx : x ∈ st.items (.ready 1)) (hi : i ≠ x) :
    (killVisit st x).job i = st.job i := by
  rw [killVisit_eq h hx]
  dsimp only
  split
  · rw [toWait_job_other hi (recordKill_keeps.others i hi), setIndex_job]
  · exact setIndex_job _ _

theorem killVisit_flag (h : Shape sys t st) (ht : t ≤ sys.hiperperiod)
    (hx : x ∈ st.items (.ready 1)) :
    (killVisit st x).sim.weaklyHard = 1 ↔ st.sim.weaklyHard = 1 ∧
      ¬ ((st.job x).late (sys.params x) t ∧ (st.job x).red (sys.params x)) := by
  have hlate := hopeless_iff h ht (h.lt_of_ready hx)
  rw [killVisit_eq h hx]
  dsimp only
  split
  · next hh =>
      simp only [toWait, recordKill, hlate.mp hh, true_and, State.setList]
      split
      · next hred => simp [Simulator.weaklyHardBroken, hred]
      · next hred =>
          simp [Simulator.incrementTimesKilled, Simulator.modify, hred]
  · next hh =>
      have hnot : ¬ (st.job x).late (sys.params x) t := fun hc =>
        hh (hlate.mpr hc)
      simp [hnot, State.setList]

/-- The ready list keeps its order and loses at most the task visited. -/
theorem killVisit_items (h : Shape sys t st) (hx : x ∈ st.items (.ready 1)) :
    List.Sublist ((killVisit st x).items (.ready 1)) (st.items (.ready 1)) := by
  rw [killVisit_eq h hx]
  dsimp only
  split
  · rw [toWait_items_ready, setIndex_items]
    exact List.erase_sublist
  · rw [setIndex_items]

/-- The ready tasks visited one after the other. -/
def killFold (st : State) : State := (st.items (.ready 1)).foldl killVisit st

theorem killTasks_eq (h : Shape sys t st) :
    ∃ c, killTasks st = (killFold st).setList (.ready 1)
      (((killFold st).lists (.ready 1)).setIndex c) := by
  refine ⟨_, walk_eq_foldl (I := Shape sys t) (s := st) ?_ ?_ ?_ ?_ h
    h.ready_nodup ?_⟩
  · intro s l
    simp
  · intro s l l'
    simp [State.setList]
  · intro s
    simp [State.setList]
  · intro s c hs _
    exact hs.setIndex _ _
  · intro y s hs hidx hy
    have hvisit : s.setList (.ready 1)
        ((s.lists (.ready 1)).setIndex (some y)) = s := by
      rw [← hidx, CursorList.setIndex_index]
      simp [State.setList]
    have hshape := hs.killVisit hy
    rw [FreeRtosSim.killVisit, visit, hvisit] at hshape
    refine ⟨hshape, ?_⟩
    rw [killBody_eq hs hy]
    split
    · exact Or.inr (by simp [toWait])
    · exact Or.inl rfl

/-- The visits of the pass are independent of each other. -/
theorem killVisit_pointwise (sys : ClosedSystem) {t : Nat}
    (ht : t ≤ sys.hiperperiod) :
    PointwiseStep State.job killVisit (fun i => Job.cull (sys.params i) t)
      (Shape sys t) (fun _ j => j.ready = true) where
  inv _ _ hs hx := hs.killVisit (job_ready_iff.mp hx)
  self _ _ hs hx := killVisit_job hs ht (job_ready_iff.mp hx)
  other _ _ _ hs hx hy := killVisit_job_other hs (job_ready_iff.mp hx) hy

theorem all_ready : ∀ x ∈ st.items (.ready 1), (st.job x).ready = true :=
  fun _ hx => job_ready_iff.mpr hx

section Pass

variable (h : Shape sys t st) (ht : t ≤ sys.hiperperiod)

include h ht in
theorem Shape.killTasks : Shape sys t (killTasks st) := by
  obtain ⟨c, hc⟩ := killTasks_eq h
  rw [hc]
  exact ((killVisit_pointwise sys ht).foldl_inv _ st h.ready_nodup h
    all_ready).setIndex _ _

include h ht in
theorem killTasks_job (i : TaskHandle) :
    (killTasks st).job i = (st.job i).cull (sys.params i) t := by
  obtain ⟨c, hc⟩ := killTasks_eq h
  rw [hc, setIndex_job, killFold, (killVisit_pointwise sys ht).foldl_obs _ st h.ready_nodup h
    all_ready]
  split
  · rfl
  · next hi => rw [Job.cull_kept fun hc => hi (job_ready_iff.mp hc.1)]

include h ht in
theorem killTasks_flag :
    (killTasks st).sim.weaklyHard = 1 ↔ st.sim.weaklyHard = 1 ∧
      ∀ i ∈ st.items (.ready 1), ¬ ((st.job i).late (sys.params i) t ∧
        (st.job i).red (sys.params i)) := by
  obtain ⟨c, hc⟩ := killTasks_eq h
  rw [hc]
  exact (killVisit_pointwise sys ht).foldl_flag
    (Q := fun s => s.sim.weaklyHard = 1)
    (G := fun i j => ¬ (j.late (sys.params i) t ∧ j.red (sys.params i)))
    (fun s x hs hx => killVisit_flag hs ht (job_ready_iff.mp hx))
    _ st h.ready_nodup h all_ready

include h ht in
theorem killTasks_items :
    List.Sublist ((killTasks st).items (.ready 1)) (st.items (.ready 1)) := by
  obtain ⟨c, hc⟩ := killTasks_eq h
  rw [hc, setIndex_items]
  exact (killVisit_pointwise sys ht).foldl_rel
    (R := fun s s' => List.Sublist (s'.items (.ready 1)) (s.items (.ready 1)))
    (fun s => List.Sublist.refl _) (fun hab hbc => hbc.trans hab)
    (fun s x hs hx => killVisit_items hs (job_ready_iff.mp hx))
    _ st h.ready_nodup h all_ready

include h ht in
theorem killTasks_quiet : Quiet st (killTasks st) := by
  obtain ⟨c, hc⟩ := killTasks_eq h
  have hq : Quiet st (killFold st) :=
    (killVisit_pointwise sys ht).foldl_rel
      (R := Quiet) Quiet.refl Quiet.trans
      (fun s x hs hx => killVisit_quiet hs (job_ready_iff.mp hx))
      _ st h.ready_nodup h all_ready
  rw [hc]
  exact ⟨hq.current, hq.console⟩

end Pass

/-! ## A pass that kills nobody -/

/-- The lists, the blocks and the simulator's globals are what they were. -/
structure Untouched (st st' : State) : Prop where
  items : ∀ id, st'.items id = st.items id
  tcb : st'.tcb = st.tcb
  sim : st'.sim = st.sim
  tick : st'.xTickCount = st.xTickCount

theorem Untouched.refl (st : State) : Untouched st st :=
  ⟨fun _ => rfl, rfl, rfl, rfl⟩

theorem Untouched.trans {a b c : State} (h : Untouched a b)
    (h' : Untouched b c) : Untouched a c :=
  ⟨fun id => (h'.items id).trans (h.items id), h'.tcb.trans h.tcb,
    h'.sim.trans h.sim, h'.tick.trans h.tick⟩

theorem Untouched.setIndex (st : State) (id : ListId) (c : Option TaskHandle) :
    Untouched st (st.setList id ((st.lists id).setIndex c)) :=
  ⟨fun l => setIndex_items st l id c, rfl, rfl, rfl⟩

theorem Untouched.hopeless {a b : State} (h : Untouched a b) (x : TaskHandle) :
    hopeless b x = hopeless a x := by
  unfold FreeRtosSim.hopeless
  rw [h.tcb, h.tick]

theorem killVisit_untouched (h : Shape sys t st) (hx : x ∈ st.items (.ready 1))
    (hkeep : hopeless st x = false) : Untouched st (killVisit st x) := by
  rw [killVisit_eq h hx]
  dsimp only
  rw [if_neg (by simp [hkeep])]
  exact Untouched.setIndex _ _ _

/-- Without a hopeless job the pass only moves the cursor. -/
theorem killTasks_untouched (h : Shape sys t st) (ht : t ≤ sys.hiperperiod)
    (hnone : ∀ x ∈ st.items (.ready 1), hopeless st x = false) :
    Untouched st (killTasks st) := by
  have hfold := (killVisit_pointwise sys ht).foldl_rel
    (R := fun a b => (∀ x ∈ a.items (.ready 1), hopeless a x = false) →
      Untouched a b)
    (fun s _ => Untouched.refl s)
    (fun hab hbc ha => (hab ha).trans (hbc fun x hx => by
      rw [(hab ha).hopeless x]
      rw [(hab ha).items] at hx
      exact ha x hx))
    (fun s x hs hx ha => killVisit_untouched hs (job_ready_iff.mp hx)
      (ha x (job_ready_iff.mp hx)))
    _ st h.ready_nodup h all_ready hnone
  obtain ⟨c, hc⟩ := killTasks_eq h
  rw [hc]
  exact hfold.trans (Untouched.setIndex _ _ _)

end FreeRtosSim
