import FreeRtosSim.Proofs.TwinBoot
import FreeRtosSim.Proofs.Refine
import FreeRtosSim.Proofs.Charged
import FreeRtosSim.Proofs.Spared

/-!
# What a run reads before it is written

`xTaskCreatePeriodic` leaves one field of the control block as the allocator
handed it out, `start_time`, and the first tick reads it: the accounting when
the job is done, `killTasks` for the jobs still in the ready list. RTO sends a
task that need not meet its first deadline to the wait list, where `start_time`
is written before it is read. `xTaskCreateStatic` leaves `xTaskPeriod`, and the
idle task is charged like a periodic one if its buffer holds a period. Two
memories that hold none there give the same run exactly when they have to agree
on the `start_time` of every task that starts in the ready list.

That is for a run of more than one tick. When the hyperperiod is 1 the process
ends in the first tick before `killTasks`, and only the task that runs counts.
-/

namespace FreeRtosSim

variable {set : TaskSet} {alg : Algorithm} {known : TaskHandle → Prop}
  {heap heap' : TaskHandle → TCB} {st₀ st st' : State} {i x : TaskHandle}

/-! ## The start in zeroed memory -/

theorem zeroed_run (t : Nat) : (set.zeroed alg).run t = set.run alg (fun _ => zeroTcb) t := by
  induction t with
  | zero => rfl
  | succ t ih =>
      rw [ClosedSystem.run, TaskSet.run, ih]
      rfl

/-- The same start in zeroed memory and in the given one. -/
structure Beside (set : TaskSet) (alg : Algorithm) (heap : TaskHandle → TCB)
    (st₀ st : State) : Prop where
  zeroed : set.run alg (fun _ => zeroTcb) 0 = .ok st₀
  follows : Follows (set.zeroed alg) 0 st₀
  run : set.run alg heap 0 = .ok st
  underway : Underway set (fun _ => False) (fun _ => zeroTcb) heap st₀ st

theorem starts_beside (set : TaskSet) (alg : Algorithm) (hz : set.StaticZero heap) :
    ∃ st₀ st, Beside set alg heap st₀ st := by
  obtain ⟨st₀, hrun, hf⟩ := follows_zero (set.zeroed alg)
  rw [zeroed_run] at hrun
  have hpair : Paired (Underway set (fun _ => False) (fun _ => zeroTcb) heap) _ _ :=
    run_zero_underway alg ⟨rfl, rfl⟩ hz fun _ hk => hk.elim
  rw [hrun] at hpair
  generalize hst : set.run alg heap 0 = r at hpair
  cases hpair with
  | ok h => exact ⟨st₀, _, hrun, hf, hst, h⟩

/-- A task is created ready unless RTO lets it skip its first job. -/
theorem initial_ready_iff {p : JobParams} :
    (Job.initial alg p).ready = true ↔ alg ≠ .rto ∨ p.skip ≠ 1 := by
  have hred : (Job.blank).red p ↔ p.skip ≠ 1 := by
    simp only [Job.red, Job.owes, Job.blank]
    omega
  rw [Job.initial, Job.release]
  by_cases h : alg = .rto ∧ ¬ (Job.blank).red p
  · rw [if_pos h]
    obtain ⟨ha, hr⟩ := h
    rw [hred] at hr
    simp [Job.blank, ha, hr]
  · rw [if_neg h]
    rw [hred] at h
    simpa [← not_and_or] using h

section Beside

variable (h : Beside set alg heap st₀ st)

include h

theorem Beside.block (hx : x ∈ set.allTasks) : (st₀.tcb x).Alike False (st.tcb x) :=
  h.underway.twin.blocks x hx

theorem Beside.mem_ready (hi : i < set.taskCnt) :
    i ∈ st.items (.ready 1) ↔ set.StartsReady alg i := by
  rw [h.underway.twin.items]
  exact (h.follows.mem_ready_iff hi).trans initial_ready_iff

/-- A periodic task that is in a ready list after the start began there. -/
theorem Beside.startsReady (hx : x ∈ set.allTasks) (hr : (st.tcb x).IsReady)
    (hp : (st.tcb x).xTaskPeriod ≠ 0) : x < set.taskCnt ∧ set.StartsReady alg x := by
  have hs := h.follows.shape
  have hb := h.block hx
  obtain ⟨p, hc⟩ := hr
  rw [hb.container] at hc
  rw [hb.period] at hp
  have hmem : x ∈ st₀.items (.ready p) :=
    (h.underway.twin.linked.linked _ (by simp) x).mpr ⟨hx, hc⟩
  match p with
  | 0 =>
      rw [hs.idleList] at hmem
      rw [List.mem_singleton.mp hmem] at hp
      exact absurd hs.idle hp
  | 1 =>
      have hlt : x < set.taskCnt := hs.lt_of_ready hmem
      refine ⟨hlt, (h.mem_ready hlt).mp ?_⟩
      rw [h.underway.twin.items]
      exact hmem
  | p + 2 =>
      rw [hs.upper _ (by omega)] at hmem
      exact absurd hmem List.not_mem_nil

end Beside

/-! ## Contents that agree on what is read -/

/-- One side of `Underway` runs in the first memory, the other in the second. -/
theorem Underway.all (h : Underway set known heap heap' st st')
    (hk : ∀ x ∈ set.allTasks, (st.tcb x).IsReady → (st.tcb x).xTaskPeriod ≠ 0 → known x) :
    Between set.allTasks allKnown st st' where
  twin := { h.twin with
    blocks := fun x hx =>
      have ha := h.twin.blocks x hx
      { ha with start := fun _ hp hr => ha.start (hk x hx hr hp) hp hr } }
  undelayed := h.undelayed
  running := h.running

theorem run_paired {created : List TaskHandle} (h : Paired (Between created allKnown)
      (set.run alg heap 0) (set.run alg heap' 0)) (t : Nat) :
    Paired (Between created allKnown) (set.run alg heap t) (set.run alg heap' t) := by
  induction t with
  | zero => exact h
  | succ t ih => exact ih.bind fun _ _ hb => hb.tick

theorem decisions_paired {created : List TaskHandle} {r r' : Exec State}
    (h : Paired (Between created allKnown) r r') : decisions alg r' = decisions alg r := by
  cases h with
  | ok hb => exact hb.decisions
  | stop e e' => rfl

/-- A run that has stopped makes no more decisions. -/
theorem run_stopped {e : Stop} (h : set.run alg heap 1 = .error e) (t : Nat) :
    set.run alg heap (t + 1) = .error e := by
  induction t with
  | zero => exact h
  | succ t ih =>
      rw [TaskSet.run, ih]
      rfl

theorem quietTick_tick (h : st.xTickCount = 0) : (quietTick st).xTickCount = 1 :=
  (countTick_spec st).tick.trans (by rw [h]; rfl)

/-- Only with hyperperiod 1 the first tick is the last. -/
theorem first_exits_iff (htick : st.xTickCount = 0)
    (hsim : st.sim = set.simulator.setWeaklyHard)
    (hl : WellLinked set.allTasks (quietTick st)) :
    atHiperPeriod (chargeCurrent (quietTick st)) = true ↔ set.hiperperiod = 1 := by
  obtain ⟨-, hg, -⟩ := chargeCurrent_pass hl
  have hnow : (chargeCurrent (quietTick st)).xTickCount = 1 :=
    hg.tick.trans (quietTick_tick htick)
  have hq : (quietTick st).sim = set.simulator.setWeaklyHard :=
    (countTick_spec st).sim.trans hsim
  have hend : (chargeCurrent (quietTick st)).sim.hiperperiod = set.hiperperiod := by
    rw [chargeCurrent_hiperperiod, hq]
    exact @simulator_hiperperiod (set.zeroed .edf)
  have hlt := set.hiperperiod_lt
  simp only [atHiperPeriod, hnow, hend, decide_eq_true_eq]
  omega

theorem same_decisions (h : set.Agree known heap heap')
    (hreads : ∀ i, set.ReadsStart alg i → known i) : set.SameDecisions alg heap heap' := by
  obtain ⟨st₀, st, hb⟩ := starts_beside set alg h.static
  have hpair := run_zero_underway alg h.static h.static' h.start
  rw [hb.run] at hpair
  generalize hst' : set.run alg heap' 0 = r at hpair
  cases hpair with
  | ok hu =>
      next st' =>
      by_cases hone : set.hiperperiod = 1
      · have hrun : KnowsRunning known st := fun c hc hp => by
          have hcm : c ∈ set.allTasks := hu.twin.linked.current c hc
          obtain ⟨hlt, hs⟩ := hb.startsReady hcm (hu.running c hc) hp
          exact hreads c ⟨hlt, hs, fun _ =>
            ⟨st₀, hb.zeroed, hb.underway.twin.current.symm.trans hc⟩⟩
        obtain ⟨hd, e, e', he, he'⟩ := hu.between.last hrun
          ((first_exits_iff hu.tick hu.sim (hu.between.prologue alg).2.2.linked).mpr hone)
        intro t
        cases t with
        | zero =>
            rw [hb.run, hst']
            exact hd.symm
        | succ t =>
            have hstop : set.run alg heap 1 = .error e := by
              rw [TaskSet.run, hb.run]
              exact he
            have hstop' : set.run alg heap' 1 = .error e' := by
              rw [TaskSet.run, hst']
              exact he'
            rw [run_stopped hstop, run_stopped hstop']
            rfl
      · have hall := hu.all fun x hx hr hp => by
          obtain ⟨hlt, hs⟩ := hb.startsReady hx hr hp
          exact hreads x ⟨hlt, hs, fun h => absurd h hone⟩
        intro t
        have hzero : Paired (Between set.allTasks allKnown) (set.run alg heap 0)
            (set.run alg heap' 0) := by
          rw [hb.run, hst']
          exact .ok hall
        exact (decisions_paired (run_paired hzero t)).symm

/-! ## Contents that differ where it is read -/

/-- Zeroed memory but for the `start_time` of one block. -/
def startingAt (i : TaskHandle) (v : Nat) : TaskHandle → TCB :=
  Function.update (fun _ => zeroTcb) i { zeroTcb with startTime := v }

theorem startingAt_static (i : TaskHandle) (v : Nat) : set.StaticZero (startingAt i v) := by
  have hzero : ∀ x, (startingAt i v x).xTaskPeriod = 0 := fun x => by
    by_cases hx : x = i
    · subst hx
      simp [startingAt, zeroTcb]
    · simp [startingAt, zeroTcb, hx]
  exact ⟨hzero _, hzero _⟩

/-- What the first tick finds in the block of a task that starts ready. -/
structure FirstBlock (p : JobParams) (v : Nat) (b : TCB) : Prop where
  period : b.xTaskPeriod = p.period
  remaining : b.xRemainingTicks = p.duration
  priority : b.uxPriority = 1
  start : b.startTime = v
  container : b.pxContainer = some (.ready 1)

theorem initial_remaining {p : JobParams} : (Job.initial alg p).remaining = p.duration := by
  rw [Job.initial, Job.release]
  split <;> rfl

theorem mem_allTasks (hi : i < set.taskCnt) : i ∈ set.allTasks :=
  List.mem_cons_of_mem _ (List.mem_cons_of_mem _ (mem_createdTasks.mpr hi))

variable {v : Nat}

theorem Beside.firstBlock (h : Beside set alg (startingAt i v) st₀ st)
    (hi : i < set.taskCnt) (hs : set.StartsReady alg i) :
    FirstBlock ((set.zeroed alg).params i) v (st.tcb i) := by
  have hb := h.block (mem_allTasks hi)
  have hstatic := h.follows.shape.static i hi
  have hp : (st₀.tcb i).xTaskPeriod ≠ 0 := by
    rw [hstatic.period]
    exact Nat.ne_of_gt ((set.zeroed alg).params i).period_pos
  have hmem : i ∈ st₀.items (.ready 1) := by
    rw [← h.underway.twin.items]
    exact (h.mem_ready hi).mpr hs
  refine
    { period := hb.period.trans hstatic.period
      remaining := (hb.job hp).remaining.trans
        ((h.follows.remaining hi).trans initial_remaining)
      priority := hb.priority.trans hstatic.priority
      start := (h.underway.start i (mem_allTasks hi)).2.trans ?_
      container := hb.container.trans (h.follows.shape.inReady i hmem) }
  simp [startingAt]

theorem Beside.prologue (h : Beside set alg (startingAt i v) st₀ st) :
    ∃ b, tickPrologue alg st = .ok (b, quietTick st) ∧
    WellLinked set.allTasks (quietTick st) ∧ (quietTick st).xTickCount = 1 ∧
    (quietTick st).tcb = st.tcb ∧ (quietTick st).pxCurrentTCB = st.pxCurrentTCB := by
  obtain ⟨-, hp, ht⟩ := h.underway.between.prologue alg
  exact ⟨_, hp, ht.linked', quietTick_tick (h.underway.twin.tick.trans h.underway.tick),
    quietTick_tcb, (countTick_spec st).current⟩

/-- A job of one tick that is charged in the first tick is reported, if the
memory does not make it late. -/
theorem Beside.reports {p : JobParams} (h : Beside set alg (startingAt i v) st₀ st)
    (hb : FirstBlock p v (st.tcb i))
    (hcur : st.pxCurrentTCB = some i) (hone : p.duration = 1) :
    (tickReports alg st = []) ↔ p.period < tickSub 1 v := by
  obtain ⟨b, hp, -, ht, htcb, hc⟩ := h.prologue
  have hpos := p.period_pos
  simp only [tickReports, hp, reportLog, hc, hcur, htcb, ht, hb.period, hb.remaining,
    hb.start, hone]
  rw [← Nat.not_le]
  by_cases hle : tickSub 1 v ≤ p.period
  · simp [hle, Nat.ne_of_gt hpos]
  · simp [hle]

theorem FirstBlock.charged {p : JobParams} {b : TCB} (hb : FirstBlock p v b)
    (hmore : 1 < p.duration) (t : Nat) :
    chargeBlock t b = { b with xRemainingTicks := p.duration - 1 } := by
  have hp : b.xTaskPeriod ≠ 0 := by
    rw [hb.period]
    exact Nat.ne_of_gt p.period_pos
  have hrest : p.duration - 1 ≠ 0 := by omega
  rw [chargeBlock, if_pos hp]
  dsimp only
  rw [hb.remaining, if_neg hrest]

/-- A job that the first tick leaves unfinished is killed, if the memory makes
it late. -/
theorem Beside.killed {p : JobParams} (h : Beside set alg (startingAt i v) st₀ st)
    (hx : i ∈ set.allTasks) (hb : FirstBlock p v (st.tcb i))
    (hne : set.hiperperiod ≠ 1) (hmore : st.pxCurrentTCB = some i → 1 < p.duration) :
    i ∈ tickKills alg st ↔ p.period < tickAdd (tickSub 1 v)
      (if st.pxCurrentTCB = some i then p.duration - 1 else p.duration) := by
  obtain ⟨b, hp, hl, ht, htcb, hc⟩ := h.prologue
  obtain ⟨hl', hg, hblock⟩ := chargeCurrent_pass hl
  have hat : ¬ atHiperPeriod (chargeCurrent (quietTick st)) = true := fun hat =>
    hne ((first_exits_iff (h.underway.twin.tick.trans h.underway.tick)
      (h.underway.twin.sim.trans h.underway.sim) hl).mp hat)
  have hb' : FirstBlock p v ((quietTick st).block i) := by
    rw [State.block, htcb]
    exact ⟨hb.period, hb.remaining, hb.priority, hb.start, hb.container⟩
  have hafter : (chargeCurrent (quietTick st)).block i = { (quietTick st).block i with
      xRemainingTicks :=
        if st.pxCurrentTCB = some i then p.duration - 1 else p.duration } := by
    rw [hblock, hc]
    by_cases hcur : st.pxCurrentTCB = some i
    · rw [if_pos hcur, if_pos hcur, hb'.charged (hmore hcur)]
    · rw [if_neg hcur, if_neg hcur, ← hb'.remaining]
  have hmem : i ∈ (chargeCurrent (quietTick st)).items (.ready 1) := by
    refine (hl'.linked _ (by simp) i).mpr ⟨hx, ?_⟩
    have hcont := congrArg TCB.pxContainer hafter
    exact hcont.trans hb'.container
  simp only [tickKills, hp]
  rw [if_neg hat, mem_killLog hl', isHopeless, hafter, hg.tick, ht]
  dsimp only
  rw [hb'.priority, hb'.start, hb'.period]
  exact ⟨fun hk => hk.2.2, fun hlate => ⟨hmem, by decide, hlate⟩⟩

/-! ## Both directions -/

/-- A `start_time` that the first tick finds in the past, and one it finds in
the future. -/
theorem startingAt_differ (h : set.ReadsStart alg i) :
    ¬ set.SameDecisions alg (startingAt i 1) (startingAt i (2 ^ 63)) := by
  obtain ⟨hi, hs, hfirst⟩ := h
  obtain ⟨st₀, st, h⟩ := starts_beside set alg (startingAt_static i 1)
  obtain ⟨st₀', st', h'⟩ := starts_beside set alg (startingAt_static i (2 ^ 63))
  have hcur : st'.pxCurrentTCB = st.pxCurrentTCB := by
    have heq : st₀' = st₀ := by
      have := h'.zeroed.symm.trans h.zeroed
      injection this
    rw [h'.underway.twin.current, h.underway.twin.current, heq]
  have hb := h.firstBlock hi hs
  have hb' := h'.firstBlock hi hs
  have hle := ((set.zeroed alg).params i).duration_le
  have hlt : ((set.zeroed alg).params i).period < 2 ^ 31 :=
    Nat.lt_of_le_of_lt ((set.zeroed alg).params_period_le hi) set.hiperperiod_lt
  have hpos := ((set.zeroed alg).params i).duration_pos
  have hdvd := (set.zeroed alg).params_period_dvd hi
  generalize (set.zeroed alg).params i = p at *
  intro hsame
  have hzero := hsame 0
  rw [h.run, h'.run] at hzero
  simp only [decisions, Option.some.injEq, Decisions.mk.injEq] at hzero
  obtain ⟨-, hreports, hkills, -⟩ := hzero
  by_cases hdone : st.pxCurrentTCB = some i ∧ p.duration = 1
  · obtain ⟨hc, hone⟩ := hdone
    have hlate : tickReports alg st' = [] := by
      refine (h'.reports hb' (hcur.trans hc) hone).mpr ?_
      rw [tickSub]
      omega
    have hmet := (h.reports hb hc hone).mp (hreports.trans hlate)
    rw [tickSub] at hmet
    omega
  · have hmore : st.pxCurrentTCB = some i → 1 < p.duration := fun hc => by
      have : p.duration ≠ 1 := fun hone => hdone ⟨hc, hone⟩
      omega
    have hne : set.hiperperiod ≠ 1 := by
      intro hone
      obtain ⟨s, hs₀, hsc⟩ := hfirst hone
      have heq : s = st₀ := by
        have hok := hs₀.symm.trans h.zeroed
        injection hok
      have hc : st.pxCurrentTCB = some i := by
        rw [h.underway.twin.current, ← heq]
        exact hsc
      have hp : p.period ≤ 1 := Nat.le_of_dvd Nat.one_pos (hone ▸ hdvd)
      have hd := hmore hc
      omega
    have hkill := h.killed (mem_allTasks hi) hb hne hmore
    have hkill' := h'.killed (mem_allTasks hi) hb' hne fun hc => hmore (hcur.symm.trans hc)
    rw [hcur, ← hkills, hkill] at hkill'
    have hrest : (if st.pxCurrentTCB = some i then p.duration - 1 else p.duration) ≤
        p.period := by
      split <;> omega
    generalize (if st.pxCurrentTCB = some i then p.duration - 1 else p.duration) = r at *
    have hlate : p.period < tickAdd (tickSub 1 (2 ^ 63)) r := by
      rw [tickAdd, tickSub]
      omega
    have hspared := hkill'.mpr hlate
    rw [tickAdd, tickSub] at hspared
    omega

/-- Contents that hold no period for the idle and the timer task, and agree on
the `start_time` of the tasks in `known`, make the same decisions, in all such
pairs, exactly if `known` covers every `start_time` that is read before it is
written. -/
theorem same_decisions_iff (set : TaskSet) (alg : Algorithm) (known : TaskHandle → Prop) :
    (∀ heap heap' : TaskHandle → TCB, set.Agree known heap heap' →
      set.SameDecisions alg heap heap') ↔
    ∀ i, set.ReadsStart alg i → known i := by
  constructor
  · intro h i hi
    by_contra hk
    refine startingAt_differ hi (h _ _
      { static := startingAt_static i 1
        static' := startingAt_static i (2 ^ 63)
        start := fun x hx => ?_ })
    have hne : x ≠ i := fun he => hk (he ▸ hx)
    simp [startingAt, hne]
  · intro hreads heap heap' h
    exact same_decisions h hreads

/-- The task set of `hardTask`: period 4, duration 2. -/
def halfTask : TaskSet where
  tasks := hardTask.tasks
  hiperperiod := hardTask.hiperperiod
  tasks_pos := hardTask.tasks_pos
  tasks_le := hardTask.tasks_le
  hiperperiod_pos := hardTask.hiperperiod_pos
  hiperperiod_lt := hardTask.hiperperiod_lt
  period_dvd := hardTask.period_dvd

/-- Zeroed memory, but the buffer of the idle task of `halfTask` holds a period of
4 and one remaining tick. -/
def periodicIdle : TaskHandle → TCB :=
  Function.update (fun _ => zeroTcb) 1 { zeroTcb with xTaskPeriod := 4, xRemainingTicks := 1 }

/-- The task is killed at its first tick if its block happens to hold 5; and the
idle task is charged, reported as task 0 and taken off the ready list if its
buffer happens to hold a period, and then there is nothing left to run. -/
theorem dirty_block_killed :
    (decisions .edf (halfTask.run .edf (fun _ => zeroTcb) 0)).map Decisions.kills =
      some [] ∧
    (decisions .edf (halfTask.run .edf (startingAt 0 5) 0)).map Decisions.kills =
      some [0] ∧
    (decisions .edf (halfTask.run .edf (fun _ => zeroTcb) 2)).map Decisions.reports =
      some [] ∧
    (decisions .edf (halfTask.run .edf periodicIdle 2)).map Decisions.reports =
      some [(0, 0)] ∧
    decisions .edf (halfTask.run .edf periodicIdle 3) = none ∧
    ¬ ∀ heap heap' : TaskHandle → TCB, halfTask.SameDecisions .edf heap heap' := by
  have hkept : (decisions .edf (halfTask.run .edf (fun _ => zeroTcb) 0)).map
      Decisions.kills = some [] := by rfl
  have hkilled : (decisions .edf (halfTask.run .edf (startingAt 0 5) 0)).map
      Decisions.kills = some [0] := by rfl
  refine ⟨hkept, hkilled, by rfl, by rfl, by rfl, fun hall => ?_⟩
  rw [← hall (fun _ => zeroTcb) (startingAt 0 5) 0, hkept] at hkilled
  exact absurd hkilled (by decide)

end FreeRtosSim
