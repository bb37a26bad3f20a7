import FreeRtosSim.Proofs.Sound

/-!
# No task is lost

Every existing task is on exactly one list after every call, as long as no
call hands a task to `prvAddTaskToReadyList` that the macro has no branch
for. Under RTO that is a task that may miss its deadline, at any tick but 0:
it was taken off its list and goes nowhere.
-/

namespace FreeRtosSim

variable {created : List TaskHandle} {alg : Algorithm} {st : State}
  {heap : TaskHandle → TCB} {sim : Simulator} {hist : List (System × Call)}
  {s : System}

/-- The task is once on exactly one of the state lists, and that list's count
is its length. -/
def Tracked (x : TaskHandle) (st : State) : Prop :=
  ∃ id : ListId, id.IsState ∧ (st.items id).count x = 1 ∧
    (∀ id' : ListId, id'.IsState → x ∈ st.items id' → id' = id) ∧
    (st.lists id).count = (st.items id).length

theorem Settled.tracked (h : Settled created st) {x : TaskHandle}
    (hx : x ∈ created) (hkept : (st.tcb x).pxContainer ≠ none) : Tracked x st := by
  obtain ⟨id, hid⟩ := Option.ne_none_iff_exists'.mp hkept
  have hstate := h.linked.container x hx id hid
  have hmem : x ∈ st.items id :=
    (h.linked.linked id hstate.ne_pendingReady x).mpr ⟨hx, hid⟩
  have hwf := h.linked.wellFormed id
  refine ⟨id, hstate, List.count_eq_one_of_mem hwf.nodup hmem, fun id' hs' hx' => ?_,
    hwf.counted⟩
  obtain ⟨-, hid'⟩ := (h.linked.linked id' hs'.ne_pendingReady x).mp hx'
  rw [hid, Option.some.injEq] at hid'
  exact hid'.symm

theorem Settled.not_tracked (h : Settled created st) {x : TaskHandle}
    (hnone : (st.tcb x).pxContainer = none) : ¬ Tracked x st := by
  rintro ⟨id, hstate, hone, -⟩
  have hmem : x ∈ st.items id := List.count_pos_iff.mp (hone ▸ Nat.one_pos)
  obtain ⟨-, hid⟩ := (h.linked.linked id hstate.ne_pendingReady x).mp hmem
  rw [hnone] at hid
  exact absurd hid (by simp)

/-- One call: whoever was on a list still is, and so is every new task. -/
theorem Run.kept (h : Run alg heap sim hist s)
    (hk : ∀ e ∈ hist, e.2.Keeps alg e.1.kernel) : Kept s.created s.kernel := by
  induction h with
  | boot => exact fun x hx => absurd hx List.not_mem_nil
  | call hrun hal hok ih =>
      obtain ⟨hlast, hbefore⟩ := List.forall_mem_cons.mp hk
      exact (exec_survived hrun.settled hal hok).kept hlast (ih hbefore)

/-- In a run whose calls all find a branch for the tasks they hand to the
macro, no task is ever lost. -/
theorem tasks_tracked (h : Run alg heap sim hist s)
    (hk : ∀ e ∈ hist, e.2.Keeps alg e.1.kernel) :
    ∀ x ∈ s.created, Tracked x s.kernel := fun x hx =>
  h.settled.tracked hx (h.kept hk x hx)

/-- A task that may miss every other deadline is suspended and resumed. -/
theorem tasks_tracked_resumed : ∃ hist s,
    sampleRun .rto [.createPeriodic 0 0 1 4 1 2, .startScheduler 1 2, .suspend 0,
      .tick, .resume 0, .tick] = some (hist, s) ∧
    ∀ x ∈ s.created, Tracked x s.kernel := by
  have hrun : (sampleRun .rto [.createPeriodic 0 0 1 4 1 2, .startScheduler 1 2,
      .suspend 0, .tick, .resume 0, .tick]).map
        (fun r => decide (∀ e ∈ r.1, e.2.Keeps .rto e.1.kernel)) = some true := by rfl
  obtain ⟨⟨hist, s⟩, hs, hk⟩ := Option.map_eq_some_iff.mp hrun
  exact ⟨hist, s, hs, tasks_tracked (sampleRun_run hs) (of_decide_eq_true hk)⟩

/-- A periodic task that may miss every deadline, created in the second tick
under RTO, is on no list. -/
theorem new_task_lost : ∃ hist s,
    Run .rto (fun _ => zeroTcb) hardTask.simulator hist s ∧
    hist.map Prod.snd =
      [.createPeriodic 0 0 1 4 1 1, .tick, .startScheduler 1 2] ∧
    0 ∈ s.created ∧ ¬ Tracked 0 s.kernel := by
  have hrun : (sampleRun .rto
      [.startScheduler 1 2, .tick, .createPeriodic 0 0 1 4 1 1]).map
        (fun r => (r.1.map Prod.snd, r.2.created, (r.2.kernel.tcb 0).pxContainer)) =
      some ([.createPeriodic 0 0 1 4 1 1, .tick, .startScheduler 1 2], [0, 2, 1],
        none) := by rfl
  obtain ⟨⟨hist, s⟩, hs, heq⟩ := Option.map_eq_some_iff.mp hrun
  simp only [Prod.mk.injEq] at heq
  obtain ⟨hcalls, hcreated, hnone⟩ := heq
  have h := sampleRun_run hs
  exact ⟨hist, s, h, hcalls, hcreated ▸ List.mem_cons_self ..,
    h.settled.not_tracked hnone⟩

end FreeRtosSim
