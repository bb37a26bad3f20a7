import FreeRtosSim.Proofs.Passage
import FreeRtosSim.Proofs.Spared

/-!
# Delays are exact

In a run whose tasks block for waits the port can represent the delayed lists
and the tick count belong together in every state and at every tick. So the
assertion of `taskSWITCH_DELAYED_LISTS` holds whenever the tick count wraps, the
loop in the tick wakes exactly the tasks whose time it is, and a task without a
period that blocks for `n` ticks is asleep for `n` ticks, also when the tick
count wraps meanwhile, when ticks are pended and caught up on, and whatever the
other tasks do.
-/

namespace FreeRtosSim

variable {created new : List TaskHandle} {alg : Algorithm} {st st₁ st₂ : State}
  {x y : TaskHandle} {n r : Nat} {s s' : System} {c : Call} {l : List State}
  {heap : TaskHandle → TCB} {sim : Simulator} {hist later : List (System × Call)}
  {sw : Bool}

/-! ## Every state of a timely run -/

theorem Run.clocked (h : Run alg heap sim hist s) (ht : ∀ e ∈ hist, e.2.Timely e.1) :
    Clocked s.kernel := by
  induction h with
  | boot =>
      exact .of_vacant (boot_settled heap sim).linked (fun _ _ => rfl) (Nat.two_pow_pos 64)
  | @call hist s c st hrun hal hok ih =>
      have hc := ih fun e he => ht e (List.mem_cons_of_mem _ he)
      have htime := ht (s, c) (List.mem_cons_self ..)
      exact ((exec_passage alg hrun.settled hc hal htime).2 st hok).clocked hc

/-- The ticks of a call that can be made now. -/
theorem Run.clocked_tick (h : Run alg heap sim hist s) (ht : ∀ e ∈ hist, e.2.Timely e.1)
    (hal : c.Allowed s) (hc : c.Timely s) (hst : st ∈ c.ticks alg s.kernel) :
    Clocked st ∧ Ticking s.created st := by
  obtain ⟨l₁, l₂, hsplit⟩ := List.append_of_mem hst
  have hcl := h.clocked ht
  obtain ⟨hp, htick⟩ := (exec_passage alg h.settled hcl hal hc).1 l₁ st l₂ hsplit
  exact ⟨hp.clocked hcl, htick⟩

theorem asleep_iff_block (hw : WellLinked created st) :
    Asleep x st ↔ x ∈ created ∧
      ∃ id : ListId, id.IsDelayed ∧ (st.block x).pxContainer = some id := by
  rw [asleep_iff]
  constructor
  · rintro ⟨id, hid, hx⟩
    obtain ⟨hc, hcont⟩ := (hw.linked id hid.ne_pendingReady x).mp hx
    exact ⟨hc, id, hid, hcont⟩
  · rintro ⟨hc, id, hid, hcont⟩
    exact ⟨id, hid, (hw.linked id hid.ne_pendingReady x).mpr ⟨hc, hcont⟩⟩

theorem chargeCurrent_asleep (hw : WellLinked created st) :
    Asleep x (chargeCurrent st) ↔ Asleep x st ∧
      ¬ (st.pxCurrentTCB = some x ∧ completesAt st.xTickCount (st.block x)) := by
  obtain ⟨hw₁, -, hb⟩ := chargeCurrent_pass hw
  rw [asleep_iff_block hw₁, asleep_iff_block hw, hb]
  by_cases hc : st.pxCurrentTCB = some x
  · rw [if_pos hc, chargeBlock_list]
    by_cases hd : completesAt st.xTickCount (st.block x)
    · rw [if_pos hd]
      refine iff_of_false ?_ fun h => h.2 ⟨hc, hd⟩
      rintro ⟨-, id, hid, heq⟩
      exact hid.ne_wait (Option.some_inj.mp heq).symm
    · rw [if_neg hd]
      exact (and_iff_left fun h => hd h.2).symm
  · rw [if_neg hc]
    exact (and_iff_left fun h => hc h.1).symm

/-- `killTasks` takes tasks from a ready list to the wait list. -/
theorem killTasks_asleep (hw : WellLinked created st) :
    Asleep x (killTasks st) ↔ Asleep x st := by
  obtain ⟨hw₁, -, hb⟩ := killTasks_pass hw
  rw [asleep_iff_block hw₁, asleep_iff_block hw, hb]
  split
  · next hm =>
      have hc : (st.block x).pxContainer = some (.ready 1) :=
        ((hw.linked _ (by simp) x).mp hm).2
      refine iff_of_false ?_ ?_
      · rintro ⟨-, id, hid, heq⟩
        rw [killBlock_list, hc] at heq
        split at heq
        · exact hid.ne_wait (Option.some_inj.mp heq).symm
        · exact hid.ne_ready 1 (Option.some_inj.mp heq).symm
      · rintro ⟨-, id, hid, heq⟩
        exact hid.ne_ready 1 (Option.some_inj.mp (heq.symm.trans hc))
  · exact Iff.rfl

/-- `wakeTasks` takes tasks from the wait list to a ready list. -/
theorem wakeTasks_asleep (hw : WellLinked created st) :
    Asleep x (wakeTasks alg st) ↔ Asleep x st := by
  obtain ⟨hw₁, -, hb⟩ := wakeTasks_pass hw alg
  rw [asleep_iff_block hw₁, asleep_iff_block hw, hb]
  split
  · next hm =>
      have hc : (st.block x).pxContainer = some .wait :=
        ((hw.linked _ (by simp) x).mp hm).2
      refine iff_of_false ?_ ?_
      · rintro ⟨-, id, hid, heq⟩
        rw [wakeBlock_list, hc] at heq
        split at heq
        · exact hid.ne_ready _ (Option.some_inj.mp heq).symm
        · exact hid.ne_wait (Option.some_inj.mp heq).symm
      · rintro ⟨-, id, hid, heq⟩
        exact hid.ne_wait (Option.some_inj.mp (heq.symm.trans hc))
  · exact Iff.rfl

/-- Whenever a tick comes, the assertion of `taskSWITCH_DELAYED_LISTS` holds,
and the loop takes those tasks off the delayed lists whose time it is. The rest
of the tick takes off one more task at most: a running one that is asleep
already, in a tick that was held back, when it is charged the last tick of its
job. -/
theorem tick_wakes_due (h : Run alg heap sim hist s) (ht : ∀ e ∈ hist, e.2.Timely e.1)
    (hal : c.Allowed s) (hc : c.Timely s) (hst : st ∈ c.ticks alg s.kernel) :
    ∃ b st', tickPrologue alg st = .ok (b, st') ∧
      st'.xTickCount = tickAdd st.xTickCount 1 ∧
      (∀ x, Asleep x st' ↔ Asleep x st ∧ (st.tcb x).xItemValue ≠ st'.xTickCount) ∧
      ∀ sw st₁, xTaskIncrementTick alg st = .ok (sw, st₁) →
        ∀ x, Asleep x st₁ ↔ Asleep x st ∧ (st.tcb x).xItemValue ≠ st₁.xTickCount ∧
          ¬ (st.pxCurrentTCB = some x ∧ completesAt st₁.xTickCount (st.tcb x)) := by
  obtain ⟨hcl, htick⟩ := h.clocked_tick ht hal hc hst
  have hok := tickPrologue_succeeds hcl alg
  generalize unblockDue alg (countTick st) = r at hok
  obtain ⟨b, st'⟩ := r
  have hpro := tickPrologue_ok htick.linked htick.nonePending hok
  have hwakes := prologue_wakes hcl htick.linked htick.nonePending hok
  have hsame : ∀ id, (countTick st).items id = st.items id := fun id => by
    rw [State.items, (countTick_spec st).lists]
  have hloop : ∀ x, Asleep x st' ↔
      Asleep x st ∧ (st.tcb x).xItemValue ≠ tickAdd st.xTickCount 1 := fun x => by
    constructor
    · intro hx
      obtain ⟨id, hid, hm⟩ := asleep_iff.mp hx
      have hbefore : Asleep x st :=
        asleep_iff.mpr ⟨id, hid, hsame id ▸ (hwakes.sublist id hid).subset hm⟩
      refine ⟨hbefore, fun hv => ?_⟩
      have hdue := (mem_dueTasks hcl htick.linked).mpr ⟨hbefore, hv⟩
      exact awake_iff.mp (hpro.awake hdue) hx
    · rintro ⟨hx, hv⟩
      obtain ⟨id, hid, hm⟩ := asleep_iff.mp hx
      refine asleep_iff.mpr ⟨id, hid, hwakes.stays id hid x ((hsame id).symm ▸ hm) fun hd => ?_⟩
      exact hv ((mem_dueTasks hcl htick.linked).mp hd).2
  refine ⟨b, st', hok, hpro.tick, fun x => by rw [hpro.tick, hloop],
    fun sw st₁ hend x => ?_⟩
  obtain ⟨st₂, hk, rfl⟩ := xTaskIncrementTick_ok htick.suspended hend
  have hst₂ : st₂ = chargeCurrent st' := by
    rw [killEntry, hok] at hk
    dsimp only at hk
    split at hk
    · exact absurd hk (by simp)
    · exact (Option.some_inj.mp hk).symm
  subst hst₂
  obtain ⟨hw₁, hg₁, -⟩ := chargeCurrent_pass hpro.linked
  obtain ⟨hw₂, hg₂, -⟩ := killTasks_pass hw₁
  obtain ⟨-, hg₃, -⟩ := wakeTasks_pass hw₂ alg
  have hnow := hg₃.tick.trans (hg₂.tick.trans hg₁.tick)
  have hjob : completesAt st'.xTickCount (st'.block x) ↔
      completesAt st'.xTickCount (st.tcb x) := by
    show completesAt _ (st'.tcb x).core ↔ completesAt _ (st.tcb x).core
    rw [hpro.core]
  rw [wakeTasks_asleep hw₂, killTasks_asleep hw₁, chargeCurrent_asleep hpro.linked,
    hnow, hpro.current, hjob, hloop x, hpro.tick, and_assoc]

/-- The second tick after a delay of two. -/
theorem tick_wakes_due_second : ∃ hist s,
    sampleRun .edf [.create 0 2, .startScheduler 1 2, .placeOnEventList portMaxDelay,
      .yield, .delay 2, .tick] = some (hist, s) ∧
    ∃ b st', tickPrologue .edf s.kernel = .ok (b, st') ∧
      st'.xTickCount = tickAdd s.kernel.xTickCount 1 ∧
      (∀ x, Asleep x st' ↔
        Asleep x s.kernel ∧ (s.kernel.tcb x).xItemValue ≠ st'.xTickCount) ∧
      ∀ sw st₁, xTaskIncrementTick .edf s.kernel = .ok (sw, st₁) →
        ∀ x, Asleep x st₁ ↔
          Asleep x s.kernel ∧ (s.kernel.tcb x).xItemValue ≠ st₁.xTickCount ∧
          ¬ (s.kernel.pxCurrentTCB = some x ∧
            completesAt st₁.xTickCount (s.kernel.tcb x)) := by
  have hrun : (sampleRun .edf [.create 0 2, .startScheduler 1 2,
      .placeOnEventList portMaxDelay, .yield, .delay 2, .tick]).map (fun r =>
        (decide (∀ e ∈ r.1, e.2.Timely e.1), r.2.kernel.uxSchedulerSuspended)) =
      some (true, 0) := by rfl
  obtain ⟨⟨hist, s⟩, hs, heq⟩ := Option.map_eq_some_iff.mp hrun
  simp only [Prod.mk.injEq, decide_eq_true_eq] at heq
  obtain ⟨htime, hz⟩ := heq
  refine ⟨hist, s, hs, tick_wakes_due (c := .tick) (sampleRun_run hs) htime trivial ?_ ?_⟩
  · intro n hn
    exact absurd hn (by simp [Call.blocksFor])
  · rw [show Call.tick.ticks .edf s.kernel = [s.kernel] from if_pos hz]
    exact List.mem_singleton.mpr rfl

/-! ## Periods along a call -/

theorem increment_period (ht : Ticking created st)
    (hok : xTaskIncrementTick alg st = .ok (sw, st₁)) :
    (st₁.tcb x).xTaskPeriod = (st.tcb x).xTaskPeriod := by
  obtain ⟨st₂, hk, heq⟩ := xTaskIncrementTick_ok ht.suspended hok
  obtain ⟨st₀, hpro, rfl⟩ := killEntry_cases hk ht.linked ht.nonePending
  obtain ⟨hw₁, -, hb₁⟩ := chargeCurrent_pass hpro.linked
  obtain ⟨hw₂, -, hb₂⟩ := killTasks_pass hw₁
  obtain ⟨-, -, hb₃⟩ := wakeTasks_pass hw₂ alg
  have hcore := congrArg TCB.xTaskPeriod (hpro.core x)
  have h₁ : ((chargeCurrent st₀).block x).xTaskPeriod = (st₀.tcb x).xTaskPeriod := by
    rw [hb₁]
    split
    · exact chargeBlock_period ..
    · rfl
  have h₂ : ((killTasks (chargeCurrent st₀)).block x).xTaskPeriod =
      (st₀.tcb x).xTaskPeriod := by
    rw [hb₂]
    split
    · exact (killBlock_period ..).trans h₁
    · exact h₁
  have h₃ : ((wakeTasks alg (killTasks (chargeCurrent st₀))).block x).xTaskPeriod =
      (st₀.tcb x).xTaskPeriod := by
    rw [hb₃]
    split
    · exact (wakeBlock_period ..).trans h₂
    · exact h₂
  rw [heq]
  exact h₃.trans hcore

theorem Advance.period (h : Advance alg created new st l st₁) (hx : x ∉ new) :
    (st₁.tcb x).xTaskPeriod = (st.tcb x).xTaskPeriod := by
  induction h with
  | refl => rfl
  | carry _ hc ih => exact (congrArg TCB.xTaskPeriod (hc.core x hx)).trans ih
  | tick _ ht hok ih => exact (increment_period ht hok).trans ih

/-- No call changes the period of a task that exists. -/
theorem exec_period (alg : Algorithm) (h : Settled s.created s.kernel) (hal : c.Allowed s)
    (hx : x ∈ s.created) :
    (∀ e ∈ c.ticks alg s.kernel, (e.tcb x).xTaskPeriod = (s.kernel.tcb x).xTaskPeriod) ∧
    ∀ st, c.exec alg s.kernel = .ok st →
      (st.tcb x).xTaskPeriod = (s.kernel.tcb x).xTaskPeriod := by
  have hnew : x ∉ c.newPeriodic := fun hn => newPeriodic_fresh hal hn hx
  refine ⟨fun e he => ?_, fun st hok => ((exec_advance h hal).2 st hok).period hnew⟩
  obtain ⟨l₁, l₂, hsplit⟩ := List.append_of_mem he
  exact ((exec_advance h hal).1 l₁ e l₂ hsplit).1.period hnew

/-! ## Sleeping for `n` ticks -/

/-- The states in which the ticks of a run began, oldest first. -/
def runTicks (alg : Algorithm) : List (System × Call) → List State
  | [] => []
  | e :: hist => runTicks alg hist ++ e.2.ticks alg e.1.kernel

/-- What is known of an ordinary task where a tick begins. -/
structure Counting (x : TaskHandle) (r : Nat) (st : State) : Prop where
  countdown : Countdown x r st
  clocked : Clocked st
  ticking : ∃ created, Ticking created st
  ordinary : (st.tcb x).xTaskPeriod = 0

/-- A task that was due is made ready, and no pass takes it away: it has no
period, and its list is not the one that `killTasks` goes through. -/
theorem Counting.ready (h : Counting x 1 st) (hp : (st.tcb x).uxPriority ≠ 1)
    (hok : xTaskIncrementTick alg st = .ok (sw, st₁)) :
    (st₁.tcb x).pxContainer = some (.ready (st₁.tcb x).uxPriority) := by
  obtain ⟨created, ht⟩ := h.ticking
  obtain ⟨st₂, hk, heq⟩ := xTaskIncrementTick_ok ht.suspended hok
  obtain ⟨st₀, hpro, rfl⟩ := killEntry_cases hk ht.linked ht.nonePending
  obtain ⟨hw₁, -, hb₁⟩ := chargeCurrent_pass hpro.linked
  obtain ⟨hw₂, -, hb₂⟩ := killTasks_pass hw₁
  obtain ⟨-, -, hb₃⟩ := wakeTasks_pass hw₂ alg
  have hb := hpro.block x
  rw [if_pos ((h.countdown.due h.clocked ht.linked).mpr rfl)] at hb
  have hready : readyTarget alg st₀.xTickCount (st.block x) =
      some (.ready (st.tcb x).uxPriority) := if_pos (Or.inr (Or.inl h.ordinary))
  have hcont : (st₀.block x).pxContainer = some (.ready (st.tcb x).uxPriority) := by
    rw [hb]
    exact hready
  have hprio : (st₀.block x).uxPriority = (st.tcb x).uxPriority := by rw [hb]; rfl
  have h₁ : (chargeCurrent st₀).block x = st₀.block x := by
    have hord : (st₀.block x).xTaskPeriod = 0 := by
      rw [hb]
      exact h.ordinary
    rw [hb₁]
    split
    · exact chargeBlock_of_ordinary hord
    · rfl
  have h₂ : (killTasks (chargeCurrent st₀)).block x = st₀.block x := by
    rw [hb₂, if_neg, h₁]
    intro hm
    have hc : ((chargeCurrent st₀).block x).pxContainer = some (.ready 1) :=
      ((hw₁.linked _ (by simp) x).mp hm).2
    rw [h₁, hcont, Option.some.injEq, ListId.ready.injEq] at hc
    exact hp hc
  have h₃ : (wakeTasks alg (killTasks (chargeCurrent st₀))).block x = st₀.block x := by
    rw [hb₃, if_neg, h₂]
    intro hm
    have hc : ((killTasks (chargeCurrent st₀)).block x).pxContainer = some .wait :=
      ((hw₂.linked _ (by simp) x).mp hm).2
    rw [h₂, hcont] at hc
    exact absurd hc (by simp)
  have hcont' : (st₁.block x).pxContainer = some (.ready (st₁.block x).uxPriority) := by
    rw [heq, h₃, hcont, hprio]
  exact hcont'

section Asleep

variable (hs : Settled s.created s.kernel) (hcl : Clocked s.kernel)
  (hal : c.Allowed s) (ht : c.Timely s) (hx : x ∈ s.created)
  (hord : (s.kernel.tcb x).xTaskPeriod = 0)

include hs hcl hal ht hx hord

/-- A call that neither names the sleeper nor is made by it. -/
theorem exec_countdown (alg : Algorithm) (hr : Countdown x r s.kernel) (hT : ¬ c.Rouses x)
    (hB : ¬ c.Blocks s x) :
    (∀ l₁ e l₂, c.ticks alg s.kernel = l₁ ++ e :: l₂ → Counting x (r - l₁.length) e) ∧
    ∀ st, c.exec alg s.kernel = .ok st →
      Countdown x (r - (c.ticks alg s.kernel).length) st := by
  obtain ⟨hticks, hend⟩ := exec_passage alg hs hcl hal ht
  obtain ⟨hperiod, -⟩ := exec_period alg hs hal hx
  have hzero : ∀ e ∈ c.ticks alg s.kernel, (e.tcb x).xTaskPeriod = 0 := fun e he =>
    (hperiod e he).trans hord
  refine ⟨fun l₁ e l₂ hsplit => ?_, fun st hok => ?_⟩
  · obtain ⟨hp, htick⟩ := hticks l₁ e l₂ hsplit
    refine ⟨hp.countdown hcl hr hT hB fun a ha => hzero a ?_, hp.clocked hcl, ⟨_, htick⟩,
      hzero e ?_⟩
    · rw [hsplit]
      exact List.mem_append_left _ ha
    · rw [hsplit]
      exact List.mem_append_right _ (List.mem_cons_self ..)
  · exact (hend st hok).countdown hcl hr hT hB hzero

/-- The call with which the task falls asleep. -/
theorem exec_blocks (hcur : s.kernel.pxCurrentTCB = some x)
    (hb : c.blocksFor = some n) (hlt : n < portMaxDelay) :
    (∀ l₁ e l₂, c.ticks alg s.kernel = l₁ ++ e :: l₂ → Counting x (n - l₁.length) e) ∧
    ∀ st, c.exec alg s.kernel = .ok st →
      Countdown x (n - (c.ticks alg s.kernel).length) st := by
  obtain ⟨hrun, hn, -⟩ := ht n hb
  obtain ⟨hperiod, -⟩ := exec_period alg hs hal hx
  have hzero : ∀ e ∈ c.ticks alg s.kernel, (e.tcb x).xTaskPeriod = 0 := fun e he =>
    (hperiod e he).trans hord
  have hnone : s.kernel.uxSchedulerSuspended = 0 → x ∉ s.kernel.items .pendingReady :=
    fun hz hm => by
      rw [hs.pending hz] at hm
      exact List.not_mem_nil hm
  have hblock : ∀ {m : Nat} {st : State}, 1 ≤ m → m < portMaxDelay →
      vTaskDelayBlock m s.kernel = .ok st →
      Clocked st ∧ Countdown x m st ∧ Settled s.created st := by
    intro m st hm hmlt hok
    obtain ⟨hs₂, -, hz, -⟩ := delayBlock_settled hs hok
    have hp : Passage alg (fun _ => False) (fun _ => True) s.kernel [] st :=
      delayBlock_passage hs (fun _ _ => trivial) hrun hm (Nat.le_of_lt hmlt) hok
    have hsusp : OnlyWakes (fun _ => False) s.kernel (vTaskSuspendAll s.kernel) :=
      .of_globals hs.linked rfl rfl ⟨rfl, rfl, rfl, rfl, rfl⟩
    have hcl₁ := hsusp.clocked hs.linked hcl
    simp only [vTaskDelayBlock, configAssert, hz, decide_true, if_true, bind,
      Except.bind, pure, Except.pure, Except.ok.injEq] at hok
    refine ⟨hp.clocked hcl, ?_, hs₂⟩
    rw [← hok]
    exact hcl₁.countdown (suspendAll_settled hs).linked hcur hm hmlt (hnone hz)
  cases c with
  | delay m =>
      have hm : m > 0 := by
        by_contra h0
        simp [Call.blocksFor, h0] at hb
      have hmn : m = n := by simpa [Call.blocksFor, hm] using hb
      subst hmn
      rw [Call.exec, vTaskDelay, if_pos hm]
      cases hok₂ : vTaskDelayBlock m s.kernel with
      | error e =>
          have hnil : (Call.delay m).ticks alg s.kernel = [] := by rw [Call.ticks, hok₂]
          rw [hnil]
          refine ⟨fun l₁ e l₂ hsp => absurd hsp (by simp), fun st hok => ?_⟩
          exact absurd hok (by simp [bind, Except.bind])
      | ok st₂ =>
          have hticks : (Call.delay m).ticks alg s.kernel = resumeAllTicks alg st₂ := by
            rw [Call.ticks, hok₂]
            exact if_pos hm
          rw [hticks] at hzero ⊢
          obtain ⟨hcl₂, hcd, hs₂⟩ := hblock hm hlt hok₂
          have hstart : Passage alg (fun _ => False) (fun _ => False) st₂ [] st₂ := .refl
          refine ⟨fun l₁ e l₂ hsplit => ?_, fun st hok => ?_⟩
          · obtain ⟨hp, htick⟩ := (resumeAll_passage hs₂ hstart).1 l₁ e l₂ hsplit
            refine ⟨hp.countdown hcl₂ hcd id id fun a ha => hzero a ?_, hp.clocked hcl₂,
              ⟨_, htick⟩, hzero e ?_⟩
            · rw [hsplit]
              exact List.mem_append_left _ ha
            · rw [hsplit]
              exact List.mem_append_right _ (List.mem_cons_self ..)
          · exact (delayYield_passage hs₂ hstart hok).countdown hcl₂ hcd id id hzero
  | delayBlock m =>
      have hmn : m = n := Option.some_inj.mp hb
      subst hmn
      exact ⟨fun l₁ e l₂ hsp => absurd hsp (by simp [Call.ticks]),
        fun st hok => (hblock hn hlt hok).2.1⟩
  | placeOnEventList m =>
      have hmn : m = n := Option.some_inj.mp hb
      subst hmn
      refine ⟨fun l₁ e l₂ hsp => absurd hsp (by simp [Call.ticks]), fun st hok => ?_⟩
      cases hok
      have hev := blockOnEvent_moved hs.linked (c := x)
      have hmark : OnlyWakes (fun _ => False) s.kernel (s.kernel.modifyTcb x fun b =>
          { b with inEventList := true }) := modifyTcb_onlyWakes hs.linked rfl
      have hfree : x ∉ s.kernel.items .pendingReady := fun hm => by
        have hin := (hs.linked.pending x hm).2
        rw [hal x hcur] at hin
        exact absurd hin (by simp)
      have hcd := (hmark.clocked hs.linked hcl).countdown (b := true) hev.linked hcur hn hlt
        hfree
      rw [vTaskPlaceOnEventList, hcur]
      exact hcd
  | _ => exact absurd hb (by simp [Call.blocksFor])

end Asleep

/-- A split of the ticks of a run lies before the last call or in it. -/
theorem split_append {l l' l₁ l₂ : List State} {e : State} (h : l ++ l' = l₁ ++ e :: l₂) :
    (∃ m, l = l₁ ++ e :: m) ∨ ∃ m, l₁ = l ++ m ∧ l' = m ++ e :: l₂ := by
  rcases List.append_eq_append_iff.mp h with ⟨m, h₁, h₂⟩ | ⟨m, h₁, h₂⟩
  · exact Or.inr ⟨m, h₁, h₂⟩
  · cases m with
    | nil => exact Or.inr ⟨[], by simpa using h₁.symm, by simpa using h₂.symm⟩
    | cons a m =>
        rw [List.cons_append, List.cons.injEq] at h₂
        exact Or.inl ⟨m, by rw [h₁, h₂.1]⟩

theorem Run.slept (hb : c.blocksFor = some n) (hlt : n < portMaxDelay)
    (hcur : s.kernel.pxCurrentTCB = some x) (hord : (s.kernel.tcb x).xTaskPeriod = 0) :
    ∀ {later : List (System × Call)} {s' : System},
      Run alg heap sim (later ++ (s, c) :: hist) s' →
      (∀ e ∈ later ++ (s, c) :: hist, e.2.Timely e.1) →
      (∀ e ∈ later, ¬ e.2.Rouses x ∧ ¬ e.2.Blocks e.1 x) →
      (∀ l₁ e l₂, runTicks alg (later ++ [(s, c)]) = l₁ ++ e :: l₂ →
        Counting x (n - l₁.length) e) ∧
      Countdown x (n - (runTicks alg (later ++ [(s, c)])).length) s'.kernel ∧
      x ∈ s'.created ∧ (s'.kernel.tcb x).xTaskPeriod = 0 := by
  intro later
  induction later with
  | nil =>
      intro s' h ht _
      cases h with
      | @call _ _ _ st hrun hal hok =>
          have hx := hrun.settled.linked.current x hcur
          have hcl := hrun.clocked fun e he => ht e (List.mem_cons_of_mem _ he)
          obtain ⟨hall, hend⟩ := exec_blocks hrun.settled hcl hal
            (ht (s, c) (List.mem_cons_self ..)) hx hord hcur hb hlt
          obtain ⟨-, hperiod⟩ := exec_period alg hrun.settled hal hx
          simp only [List.nil_append, runTicks]
          exact ⟨hall, hend st hok, mem_createdAfter.mpr (Or.inr (Or.inr hx)),
            (hperiod st hok).trans hord⟩
  | cons e later ih =>
      intro s' h ht hleave
      rw [List.cons_append] at h ht
      cases h with
      | @call _ s₂ c₂ st hrun hal hok =>
          obtain ⟨hbefore, hcd, hx, hord₂⟩ := ih hrun
            (fun a ha => ht a (List.mem_cons_of_mem _ ha))
            (fun a ha => hleave a (List.mem_cons_of_mem _ ha))
          have hcl := hrun.clocked fun a ha => ht a (List.mem_cons_of_mem _ ha)
          have htime := ht (s₂, c₂) (List.mem_cons_self ..)
          obtain ⟨hT, hB⟩ := hleave (s₂, c₂) (List.mem_cons_self ..)
          obtain ⟨hall, hend⟩ := exec_countdown hrun.settled hcl hal htime hx hord₂
            alg hcd hT hB
          obtain ⟨-, hperiod⟩ := exec_period alg hrun.settled hal hx
          rw [List.cons_append, runTicks]
          refine ⟨fun l₁ a l₂ hsplit => ?_, ?_, mem_createdAfter.mpr (Or.inr (Or.inr hx)),
            (hperiod st hok).trans hord₂⟩
          · rcases split_append hsplit with ⟨m, hm⟩ | ⟨m, rfl, hm⟩
            · exact hbefore l₁ a m hm
            · rw [List.length_append, ← Nat.sub_sub]
              exact hall m a l₂ hm
          · rw [List.length_append, ← Nat.sub_sub]
            exact hend st hok

/-- An ordinary task that blocks for `n` ticks, and that no other call takes off
the delayed lists, has one tick less to sleep at each tick of the run. It is
ready when the `n`-th tick is over, unless it is in the list `killTasks` sees to.
-/
theorem delay_exact (h : Run alg heap sim (later ++ (s, c) :: hist) s')
    (ht : ∀ e ∈ later ++ (s, c) :: hist, e.2.Timely e.1) (hb : c.blocksFor = some n)
    (hlt : n < portMaxDelay) (hcur : s.kernel.pxCurrentTCB = some x)
    (hord : (s.kernel.tcb x).xTaskPeriod = 0)
    (hleave : ∀ e ∈ later, ¬ e.2.Rouses x ∧ ¬ e.2.Blocks e.1 x) :
    (∀ l₁ e l₂, runTicks alg (later ++ [(s, c)]) = l₁ ++ e :: l₂ →
      Countdown x (n - l₁.length) e ∧
      (l₁.length + 1 = n → (e.tcb x).uxPriority ≠ 1 → ∀ sw st,
        xTaskIncrementTick alg e = .ok (sw, st) →
        (st.tcb x).pxContainer = some (.ready (st.tcb x).uxPriority))) ∧
    Countdown x (n - (runTicks alg (later ++ [(s, c)])).length) s'.kernel := by
  obtain ⟨hall, hend, -⟩ := Run.slept hb hlt hcur hord h ht hleave
  refine ⟨fun l₁ e l₂ hsplit => ?_, hend⟩
  have hc := hall l₁ e l₂ hsplit
  refine ⟨hc.countdown, fun hlast hp sw st hok => ?_⟩
  rw [show n - l₁.length = 1 by omega] at hc
  exact hc.ready hp hok

theorem delay_exact_two_ticks : ∃ later hist s s',
    Run .edf (fun _ => zeroTcb) hardTask.simulator (later ++ (s, .delay 2) :: hist) s' ∧
    later.map Prod.snd = [.tick, .tick] ∧
    (∀ l₁ e l₂, runTicks .edf (later ++ [(s, .delay 2)]) = l₁ ++ e :: l₂ →
      Countdown 0 (2 - l₁.length) e ∧
      (l₁.length + 1 = 2 → (e.tcb 0).uxPriority ≠ 1 → ∀ sw st,
        xTaskIncrementTick .edf e = .ok (sw, st) →
        (st.tcb 0).pxContainer = some (.ready (st.tcb 0).uxPriority))) ∧
    Countdown 0 (2 - (runTicks .edf (later ++ [(s, .delay 2)])).length) s'.kernel := by
  have hrun : (sampleRun .edf [.create 0 2, .startScheduler 1 2,
      .placeOnEventList portMaxDelay, .yield, .delay 2, .tick, .tick]).map (fun r =>
        (r.1.map Prod.snd, decide (∀ e ∈ r.1, e.2.Timely e.1),
          (r.1.drop 2).head?.map fun e =>
            (e.1.kernel.pxCurrentTCB, (e.1.kernel.tcb 0).xTaskPeriod))) =
      some ([.tick, .tick, .delay 2, .yield, .placeOnEventList portMaxDelay,
        .startScheduler 1 2, .create 0 2], true, some (some 0, 0)) := by rfl
  obtain ⟨⟨hist, s'⟩, hs, heq⟩ := Option.map_eq_some_iff.mp hrun
  simp only [Prod.mk.injEq, decide_eq_true_eq] at heq
  obtain ⟨hcalls, htime, hfirst⟩ := heq
  obtain ⟨⟨s₁, c₁⟩, hist, rfl, hc₁, hcalls⟩ := List.map_eq_cons_iff.mp hcalls
  obtain ⟨⟨s₂, c₂⟩, hist, rfl, hc₂, hcalls⟩ := List.map_eq_cons_iff.mp hcalls
  obtain ⟨⟨s₃, c₃⟩, hist, rfl, hc₃, -⟩ := List.map_eq_cons_iff.mp hcalls
  cases hc₁
  cases hc₂
  cases hc₃
  simp only [List.drop_succ_cons, List.drop_zero, List.head?_cons, Option.map_some,
    Option.some.injEq, Prod.mk.injEq] at hfirst
  have h : Run .edf (fun _ => zeroTcb) hardTask.simulator
      ([(s₁, .tick), (s₂, .tick)] ++ (s₃, .delay 2) :: hist) s' := sampleRun_run hs
  refine ⟨[(s₁, .tick), (s₂, .tick)], hist, s₃, s', h, rfl,
    delay_exact h htime rfl (by decide) hfirst.1 hfirst.2 fun e he => ?_⟩
  simp only [List.mem_cons, List.not_mem_nil, or_false] at he
  rcases he with rfl | rfl <;> exact ⟨id, fun hb => hb.1 rfl⟩

end FreeRtosSim
