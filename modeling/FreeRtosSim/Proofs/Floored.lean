import FreeRtosSim.Proofs.Excluded

/-!
# A loan is never a loss, but for one call

A task that has borrowed a priority has at least its own. Taking, giving,
waiting and giving up keep that, and so do the calls that leave priorities
alone. `vTaskPrioritySet` leaves a lent priority as it is and sets the base
priority whatever, so a task that is raised above what it has borrowed stays
below its own priority until it gives its last mutex back. Nothing else can
bring that about.
-/

namespace FreeRtosSim

variable {created : List TaskHandle} {alg : Algorithm} {x y h c : TaskHandle}
  {p : Nat} {k k' : MutexKernel} {m : MutexHandle} {mutexes : Finset MutexHandle}
  {recursive : MutexHandle → Bool}

namespace MutexKernel

/-- No task is below its own priority. -/
def Floored (created : List TaskHandle) (k : MutexKernel) : Prop :=
  ∀ x ∈ created, (k.fields x).uxBasePriority ≤ (k.st.tcb x).uxPriority

namespace Floored

/-- Neither the priorities nor the base priorities differ. -/
theorem same (hf : Floored created k) (hp : SamePriorities k.st k'.st)
    (hb : ∀ x ∈ created,
      (k'.fields x).uxBasePriority = (k.fields x).uxBasePriority) :
    Floored created k' := by
  intro x hx
  rw [hb x hx, hp x]
  exact hf x hx

/-- Only `x` differs. -/
theorem touch (hf : Floored created k) (ht : Touches created x k k')
    (hx : (k'.fields x).uxBasePriority ≤ (k'.st.tcb x).uxPriority) :
    Floored created k' := by
  intro y hy
  by_cases hyx : y = x
  · subst hyx
    exact hx
  · rw [ht.fields y hyx, ht.priority y hyx]
    exact hf y hy

theorem take (hf : Floored created k) (hcur : k.st.pxCurrentTCB = some x)
    (hok : k.takeSection m = some k') : Floored created k' := by
  obtain ⟨-, queue, -, -, -, -, rfl⟩ := takeSection_eq hcur hok
  refine hf.same (fun _ => rfl) fun y _ => ?_
  rw [setMutex_fields]
  by_cases hyx : y = x
  · subst hyx
    rw [modifyFields_self]
  · rw [modifyFields_of_ne hyx]

end Floored

theorem placeOnEventList_st {n : Nat} :
    (k.placeOnEventList n m).st = vTaskPlaceOnEventList n k.st := by
  rw [placeOnEventList]
  cases k.st.pxCurrentTCB <;> rfl

theorem placeOnEventList_fields {n : Nat} :
    (k.placeOnEventList n m).fields = k.fields := by
  rw [placeOnEventList]
  cases k.st.pxCurrentTCB <;> rfl

theorem unblockReceiver_fields :
    (k.unblockReceiver alg m).fields = k.fields := by
  rw [unblockReceiver]
  cases k.waiting m <;> rfl

namespace Accounted

variable (hk : Accounted mutexes created k) (hf : Floored created k)

include hk hf

theorem wait_floored {n : Nat} (hm : m ∈ mutexes)
    (hcur : k.st.pxCurrentTCB = some c)
    (hholder : (k.mutex m).xMutexHolder = some h) :
    Floored created (k.waitSection alg n m).2 := by
  have hh := (hk.count_of_holder hm hholder).2
  have hl := inherit_lends hk.settled hk.homed alg hh hcur
  have hlent : Floored created (k.xTaskPriorityInherit alg (some h)).2 := by
    refine hf.touch hl.toTouches ?_
    rw [hl.base, hl.lent]
    exact Nat.le_trans (hf h hh) (Nat.le_max_left ..)
  rw [waitSection, hholder]
  refine hlent.same (fun y => ?_) fun y _ => ?_
  · rw [placeOnEventList_st]
    exact placeOnEventList_grade n y
  · rw [placeOnEventList_fields]

theorem timeout_floored (hm : m ∈ mutexes)
    (hok : k.timeoutSection alg m = some k') : Floored created k' := by
  have hitems := hk.lent_lt hm
  rw [timeoutSection] at hok
  cases hholder : (k.mutex m).xMutexHolder with
  | none =>
      rw [hholder] at hok
      cases hok
      exact hf
  | some h =>
      rw [hholder] at hok
      have hh := (hk.count_of_holder hm hholder).2
      have hl := timeout_lends hk.settled hk.homed hh (hk.base h hh) hitems hok
      refine hf.touch hl.toTouches ?_
      rw [hl.base, hl.lent]
      split
      · exact Nat.le_max_left ..
      · exact hf h hh

theorem send_floored {sent : Bool} (hm : m ∈ mutexes)
    (hholder : (k.mutex m).xMutexHolder = some x)
    (hok : k.xQueueGenericSend alg m = some (sent, k')) :
    Floored created k' := by
  have hx := (hk.count_of_holder hm hholder).2
  rw [xQueueGenericSend] at hok
  split at hok
  · rw [Option.map_eq_some_iff] at hok
    obtain ⟨⟨b, k₁⟩, hcopy, heq⟩ := hok
    obtain ⟨-, rfl⟩ := Prod.mk.inj heq
    have hk₁ := (hk.copy hm hholder hcopy).1
    rw [prvCopyDataToQueue, hholder, Option.map_eq_some_iff] at hcopy
    obtain ⟨⟨b', k₂⟩, hdis, heq⟩ := hcopy
    obtain ⟨-, rfl⟩ := Prod.mk.inj heq
    obtain ⟨ht, -, -, hbase, hprio, -⟩ :=
      disinherit_spec hk.settled hk.homed (hk.base x hx) hdis
    have hdone : Floored created k₂ := by
      refine hf.touch ht ?_
      rw [hbase, hprio]
      split
      · exact Nat.le_refl _
      · exact hf x hx
    refine hdone.same (hk₁.unblock_grade alg hm) fun y _ => ?_
    rw [unblockReceiver_fields, setMutex_fields]
  · cases hok
    exact hf

/-- `vTaskPrioritySet` keeps it if and only if the task has nothing borrowed or
borrowed as much. -/
theorem prioritySet_floored (hx : x ∈ created)
    (hok : k.vTaskPrioritySet alg x p = .ok k') :
    Floored created k' ↔ (k.fields x).uxBasePriority = (k.st.tcb x).uxPriority ∨
      p ≤ (k.st.tcb x).uxPriority := by
  obtain ⟨hp, ⟨hbase, rfl⟩ | ⟨st, hst, rfl⟩⟩ := vTaskPrioritySet_cases hok
  · exact iff_of_true hf (Or.inr (hbase ▸ hf x hx))
  · obtain ⟨ht, hbase, -, hprio, -⟩ :=
      prioritySet_spec hk.settled hk.homed alg hx hp
    have hst : SamePriorities (k.prioritySetLists alg x p).st st := by
      rcases hst with rfl | hsw
      · exact .refl _
      · exact switchContext_grade hsw
    have hself : (st.tcb x).uxPriority =
        if (k.fields x).uxBasePriority = (k.st.tcb x).uxPriority then p
        else (k.st.tcb x).uxPriority := (hst x).trans hprio
    constructor
    · intro hall
      have hle := hall x hx
      dsimp only at hle
      rw [hbase, hself] at hle
      split at hle
      · next hsame => exact Or.inl hsame
      · exact Or.inr hle
    · intro hor
      have hset : Floored created (k.prioritySetLists alg x p) := by
        refine hf.touch ht ?_
        rw [hbase, hprio]
        split
        · exact Nat.le_refl p
        · next hne => exact hor.resolve_left hne
      exact hset.same hst fun _ _ => rfl

/-- A new task has its own priority. -/
theorem call_floored {c : Call} {st : State} (hc : c.setsPriority = false)
    (hallowed : c.Allowed ⟨k.st, created⟩) (hok : c.exec alg k.st = .ok st) :
    Floored (c.createdAfter ⟨k.st, created⟩)
      (k.afterCall created (c.createdAfter ⟨k.st, created⟩) st) := by
  intro x hx
  by_cases hxc : x ∈ created
  · have hfields : (k.afterCall created (c.createdAfter ⟨k.st, created⟩) st).fields x =
        k.fields x := if_neg fun hn => hn.2 hxc
    rw [hfields]
    exact (hf x hxc).trans_eq (exec_grade hk.settled hallowed hc hok hxc).symm
  · have hfields : (k.afterCall created (c.createdAfter ⟨k.st, created⟩) st).fields x =
        newFields (st.tcb x) := if_pos ⟨hx, hxc⟩
    rw [hfields]
    exact Nat.le_refl _

end Accounted

end MutexKernel

/-! ## Runs -/

namespace MutexSystem

open MutexKernel

variable {s s' : MutexSystem} {e : MutexEvent}

/-- The base priority of a task is not raised above what the task has
borrowed. -/
def KeepsFloor (s : MutexSystem) : MutexEvent → Prop
  | .prioritySet x p =>
      (s.kernel.fields x).uxBasePriority = (s.kernel.st.tcb x).uxPriority ∨
        p ≤ (s.kernel.st.tcb x).uxPriority
  | _ => True

theorem Orderly.floored (h : s.Orderly mutexes recursive)
    (hf : Floored s.created s.kernel)
    (hstep : Step alg mutexes recursive s e s') :
    Floored s'.created s'.kernel ↔ s.KeepsFloor e := by
  cases hstep with
  | call hc hallowed hok =>
      exact iff_of_true (h.kept.call_floored hf hc hallowed hok) trivial
  | prioritySet hx hok => exact h.kept.prioritySet_floored hf hx hok
  | succeed hrun hphase hsection =>
      exact iff_of_true (hf.take hrun hsection) trivial
  | @wait x m inherited xTicksToWait hrun hphase hsuspended hempty =>
      have hm := h.mem_of_seeks (x := x) (m := m) (hphase ▸ rfl)
      obtain ⟨y, hholder⟩ := h.held_of_empty hm hempty
      exact iff_of_true (h.kept.wait_floored hf hm hrun hholder) trivial
  | @giveUp x m k hrun hphase hsection =>
      have hm := h.mem_of_seeks (x := x) (m := m) (hphase ▸ rfl)
      exact iff_of_true (h.kept.timeout_floored hf hm hsection) trivial
  | @send x m k sent hrun hphase hsection =>
      have hp : (s.phase x).Has m := hphase ▸ rfl
      obtain ⟨⟨rfl, hholder, -⟩ | ⟨rfl, rfl⟩, -⟩ := h.send hrun hphase hsection
      · exact iff_of_true (h.kept.send_floored hf (h.mem_of_has hp) hholder hsection)
          trivial
      · exact iff_of_true hf trivial
  | _ => exact iff_of_true hf trivial

end MutexSystem

open MutexSystem in
/-- No task is ever below its own priority, in all states of a run, if and only
if no `vTaskPrioritySet` of the run raises the base priority of a task above a
priority that the task has borrowed. -/
theorem mutex_floor {heap : TaskHandle → TCB} {sim : Simulator}
    {mutex : MutexHandle → Mutex} {hist : List (MutexSystem × MutexEvent)}
    {s : MutexSystem} (hfresh : Fresh mutexes mutex)
    (hr : Reached alg mutexes recursive (start heap sim mutex) hist s) :
    ((∀ r ∈ hist, MutexKernel.Floored r.1.created r.1.kernel) ∧
      MutexKernel.Floored s.created s.kernel) ↔
    ∀ r ∈ hist, r.1.KeepsFloor r.2 := by
  induction hr with
  | refl =>
      exact iff_of_true ⟨fun r hr => absurd hr List.not_mem_nil,
        fun x hx => absurd hx List.not_mem_nil⟩ fun r hr => absurd hr List.not_mem_nil
  | @step hist s s' e hprev hstep ih =>
      have horder := hprev.orderly hfresh
      simp only [List.forall_mem_cons]
      constructor
      · intro hall
        obtain ⟨⟨hs, hrest⟩, hs'⟩ := hall
        exact ⟨(horder.floored hs hstep).mp hs', ih.mp ⟨hrest, hs⟩⟩
      · intro hall
        obtain ⟨hkeep, hkeeps⟩ := hall
        obtain ⟨hrest, hs⟩ := ih.mpr hkeeps
        exact ⟨⟨hs, hrest⟩, (horder.floored hs hstep).mpr hkeep⟩

open MutexSystem in
/-- Task 1 has borrowed priority 2 when its own is set to 3. -/
theorem mutex_floor_raised : ∃ hist s,
    Reached .edf {0} (fun _ => false) sampleStart hist s ∧
    (hist.head?.map Prod.snd) = some (.prioritySet 1 3) ∧
    (s.kernel.st.tcb 1).uxPriority = 2 ∧
    ¬ ((∀ r ∈ hist, MutexKernel.Floored r.1.created r.1.kernel) ∧
      MutexKernel.Floored s.created s.kernel) := by
  have hrun : (sampleSteps (sampleWait ++ [.wait 2 1, .prioritySet 1 3])).map
      (fun r => (r.1.head?.map fun r' => (r'.2, (r'.1.kernel.st.tcb 1).uxPriority,
        (r'.1.kernel.fields 1).uxBasePriority), (r.2.kernel.st.tcb 1).uxPriority)) =
      some (some (.prioritySet 1 3, 2, 1), 2) := by decide +kernel
  obtain ⟨⟨hist, s⟩, hs, heq⟩ := Option.map_eq_some_iff.mp hrun
  simp only [Prod.mk.injEq] at heq
  obtain ⟨hhead, hprio⟩ := heq
  have hr := sampleSteps_reached hs
  obtain ⟨r, hfirst, hr'⟩ := Option.map_eq_some_iff.mp hhead
  simp only [Prod.mk.injEq] at hr'
  obtain ⟨hevent, hlent, hbase⟩ := hr'
  refine ⟨hist, s, hr, by rw [hfirst, Option.map_some, hevent], hprio, fun hall => ?_⟩
  have hkeep := (mutex_floor sampleMutex_fresh hr).mp hall r (List.mem_of_head? hfirst)
  rw [hevent, KeepsFloor, hlent, hbase] at hkeep
  omega

end FreeRtosSim
