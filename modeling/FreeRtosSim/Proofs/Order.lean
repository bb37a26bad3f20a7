import FreeRtosSim.Proofs.Refine

/-!
# The order of the ready list

Ready list 1 is sorted by key, and among equal keys by who became ready
first. The accounting and `killTasks` only take tasks out; `wakeTasks` links
each task it releases behind the keys that are not larger, in the order of
the wait list. Who became ready first is read off the run itself: a smaller
`start_time`, or for two tasks released at the same tick their places in the
wait list `wakeTasks` walked.
-/

namespace FreeRtosSim

variable {sys : ClosedSystem} {t : Nat} {st : State} {x i : TaskHandle}

/-- The key of a task in the ready list. -/
abbrev State.key (st : State) (i : TaskHandle) : Nat := (st.tcb i).xItemValue

/-- The tasks of ready list 1 in their order, ties broken by `b`. -/
def State.Ordered (b : TaskHandle → TaskHandle → Prop) (st : State) : Prop :=
  CursorList.StableSorted st.key b (st.items (.ready 1))

/-! ## One visit of `wakeTasks` -/

theorem toReady_items_sorted {f : TCB → TCB} {v : Nat}
    (hv : ∀ y ∈ st.items (.ready 1),
      v = portMaxDelay → (st.tcb y).xItemValue ≤ v) :
    (toReady x f v st).items (.ready 1) =
      (st.items (.ready 1)).orderedInsert
        (fun a b => (toReady x f v st).key a < (toReady x f v st).key b) x := by
  have hkey : ∀ a, (toReady x f v st).key a =
      if a = x then v else (st.tcb a).xItemValue := by
    intro a
    by_cases ha : a = x
    · subst ha
      rw [if_pos rfl]
      simp [State.key, toReady]
    · rw [if_neg ha, State.key, toReady_tcb_other ha]
  rw [toReady_items_ready hv, linkReady]
  simp only [hkey]

theorem wakeVisit_order (h : Shape sys t st) (ht : t ≤ sys.hiperperiod)
    (hx : x ∈ st.items .wait) :
    (∀ i, i ≠ x → (wakeVisit sys.alg st x).key i = st.key i) ∧
    (wakeVisit sys.alg st x).items .wait ⊆ st.items .wait ∧
    (∀ y ∈ st.items .wait, y ≠ x → y ∈ (wakeVisit sys.alg st x).items .wait) ∧
    ((wakeVisit sys.alg st x).items (.ready 1) = st.items (.ready 1) ∨
     (t % (sys.params x).period = 0 ∧
      (wakeVisit sys.alg st x).items (.ready 1) =
        (st.items (.ready 1)).orderedInsert
          (fun a b => (wakeVisit sys.alg st x).key a <
            (wakeVisit sys.alg st x).key b) x)) := by
  obtain ⟨st', hst', h', hx', -, hcase⟩ := wakeVisit_cases h ht hx
  have hitems : ∀ l, st'.items l = st.items l := by
    intro l
    rw [hst']
    exact setIndex_items st l .wait (some x)
  have htcb : ∀ i, st'.tcb i = st.tcb i := fun i => by rw [hst']; rfl
  rcases hcase with ⟨-, heq⟩ | ⟨-, -, heq⟩ | ⟨hdvd, -, heq⟩
  · rw [heq]
    refine ⟨fun i _ => by rw [State.key, htcb], ?_, fun y hy _ => ?_,
      Or.inl (hitems _)⟩
    · rw [hitems]
      exact List.Subset.refl _
    · rwa [hitems]
  · rw [heq]
    have hitems' : ∀ l, (st'.modifyTcb x (skipWrite t)).items l = st.items l :=
      hitems
    refine ⟨fun i hi => ?_, ?_, fun y hy _ => ?_, Or.inl (hitems' _)⟩
    · rw [State.key, modifyTcb_tcb_other hi, htcb]
    · rw [hitems']
      exact List.Subset.refl _
    · rwa [hitems']
  · rw [heq]
    have hmax : ∀ y ∈ st'.items (.ready 1),
        readyKey sys.alg (sys.params x)
          ((st'.job x).release sys.alg (sys.params x) t) = portMaxDelay →
        (st'.tcb y).xItemValue ≤ readyKey sys.alg (sys.params x)
          ((st'.job x).release sys.alg (sys.params x) t) := by
      intro y hy hmax
      rw [hmax]
      exact h'.key_le ht hy
    refine ⟨fun i hi => ?_, ?_, fun y hy hyx => ?_, Or.inr ⟨hdvd, ?_⟩⟩
    · rw [State.key, toReady_tcb_other hi, htcb]
    · rw [toReady_items_wait, hitems]
      exact List.erase_subset
    · rw [toReady_items_wait, hitems]
      exact (List.mem_erase_of_ne hyx).mpr hy
    · rw [← hitems]
      exact toReady_items_sorted hmax

/-! ## The pass -/

/-- The order through the rest `l` of a `wakeTasks` pass: what is ready
already goes before what is still to be released, and that in list order. -/
theorem wakeFold_ordered {b : TaskHandle → TaskHandle → Prop}
    (ht : t ≤ sys.hiperperiod) :
    ∀ (l : List TaskHandle) (s : State), Shape sys t s → l.Nodup →
      (∀ y ∈ l, y ∈ s.items .wait) →
      l.Pairwise (fun y z => t % (sys.params y).period = 0 →
        t % (sys.params z).period = 0 → b y z) →
      (∀ i ∈ s.items (.ready 1), ∀ y ∈ l,
        t % (sys.params y).period = 0 → b i y) →
      s.Ordered b → (l.foldl (wakeVisit sys.alg) s).Ordered b := by
  intro l
  induction l with
  | nil =>
      intro s _ _ _ _ _ hs
      exact hs
  | cons x l ih =>
      intro s h hnd hw hpair hready hs
      have hx := hw x (by simp)
      obtain ⟨hxl, hnd⟩ := List.nodup_cons.mp hnd
      obtain ⟨hxb, hpair⟩ := List.pairwise_cons.mp hpair
      obtain ⟨hkey, -, hwait, hitems⟩ := wakeVisit_order h ht hx
      have hne : ∀ i ∈ s.items (.ready 1), i ≠ x := fun i hi he =>
        h.not_wait_of_ready (he ▸ hi) hx
      have hold : CursorList.StableSorted (wakeVisit sys.alg s x).key b
          (s.items (.ready 1)) :=
        hs.congr (fun i hi => hkey i (hne i hi)) fun _ _ _ _ hb => hb
      refine ih _ (h.wakeVisit ht hx) hnd (fun y hy => ?_) hpair
        (fun i hi y hy hyp => ?_) ?_
      · exact hwait y (hw y (List.mem_cons_of_mem x hy))
          fun he => hxl (he ▸ hy)
      · rcases hitems with heq | ⟨hxp, heq⟩
        · rw [heq] at hi
          exact hready i hi y (List.mem_cons_of_mem x hy) hyp
        · rw [heq, (List.perm_orderedInsert _ x _).mem_iff,
            List.mem_cons] at hi
          rcases hi with rfl | hi
          · exact hxb y hy hxp hyp
          · exact hready i hi y (List.mem_cons_of_mem x hy) hyp
      · rcases hitems with heq | ⟨hxp, heq⟩
        · rw [State.Ordered, heq]
          exact hold
        · rw [State.Ordered, heq]
          exact hold.orderedInsert fun i hi => hready i hi x (by simp) hxp

theorem wakeTasks_ordered {b : TaskHandle → TaskHandle → Prop}
    (h : Shape sys t st) (ht : t ≤ sys.hiperperiod)
    (hpair : (st.items .wait).Pairwise (fun y z =>
      t % (sys.params y).period = 0 → t % (sys.params z).period = 0 → b y z))
    (hready : ∀ i ∈ st.items (.ready 1), ∀ y ∈ st.items .wait,
      t % (sys.params y).period = 0 → b i y)
    (hs : st.Ordered b) : (wakeTasks sys.alg st).Ordered b := by
  obtain ⟨c, hc⟩ := wakeTasks_eq h ht
  have hfold := wakeFold_ordered ht _ st h h.wait_nodup (fun _ hy => hy) hpair
    hready hs
  rw [hc, State.Ordered, setIndex_items]
  exact hfold

/-! ## Along the run -/

/-- Of two tasks released at tick `u`, `i` is the one that was put in the
ready list first: tasks are created in the order of their indices, and
`wakeTasks` walks the wait list in its order. -/
def ClosedSystem.listedBefore (sys : ClosedSystem) (u : Nat)
    (i j : TaskHandle) : Prop :=
  match u with
  | 0 => i < j
  | u + 1 => ∃ st, sys.afterKill u = .ok st ∧
      List.Sublist [i, j] (st.items .wait)

/-- The job of `i` became ready before the job of `j`. -/
def ClosedSystem.readyFirst (sys : ClosedSystem) (st : State)
    (i j : TaskHandle) : Prop :=
  (st.tcb i).startTime < (st.tcb j).startTime ∨
    (st.tcb i).startTime = (st.tcb j).startTime ∧
      sys.listedBefore (st.tcb i).startTime i j

theorem readyFirst_congr {st' : State} {j : TaskHandle}
    (hi : (st'.tcb i).startTime = (st.tcb i).startTime)
    (hj : (st'.tcb j).startTime = (st.tcb j).startTime) :
    sys.readyFirst st' i j ↔ sys.readyFirst st i j := by
  rw [ClosedSystem.readyFirst, ClosedSystem.readyFirst, hi, hj]

theorem sublist_pair_asymm {l : List TaskHandle} (hnd : l.Nodup) {i j : TaskHandle}
    (h : List.Sublist [i, j] l) : ¬ List.Sublist [j, i] l := by
  induction l with
  | nil => intro h'; cases h'
  | cons a l ih =>
      obtain ⟨ha, hnd⟩ := List.nodup_cons.mp hnd
      intro h'
      cases h with
      | cons _ h =>
          cases h' with
          | cons _ h' => exact ih hnd h h'
          | cons_cons _ h' => exact ha (h.subset (by simp))
      | cons_cons _ h =>
          cases h' with
          | cons _ h' => exact ha (h'.subset (by simp))
          | cons_cons _ h' => exact ha (h.subset (by simp))

theorem listedBefore_asymm {u : Nat} (hu : u ≤ sys.hiperperiod) {i j : TaskHandle}
    (h : sys.listedBefore u i j) : ¬ sys.listedBefore u j i := by
  cases u with
  | zero => exact Nat.lt_asymm h
  | succ u =>
      rintro ⟨s', hs', h'⟩
      obtain ⟨s, hs, h⟩ := h
      obtain ⟨st, st₁, st₂, st₃, ht⟩ := tick_states sys (show u < _ by omega)
      cases ht.afterKill.symm.trans hs
      cases hs.symm.trans hs'
      exact sublist_pair_asymm ht.killed.shape.wait_nodup h h'

theorem readyFirst_asymm {j : TaskHandle}
    (hu : (st.tcb i).startTime ≤ sys.hiperperiod)
    (h : sys.readyFirst st i j) : ¬ sys.readyFirst st j i := by
  rcases h with hlt | ⟨heq, hl⟩
  · rintro (hlt' | ⟨heq', -⟩) <;> omega
  · rintro (hlt' | ⟨-, hl'⟩)
    · omega
    · rw [heq] at hl
      exact listedBefore_asymm (by omega) hl hl'

/-- The ready list is in order at the end of tick `t`. -/
structure InOrder (sys : ClosedSystem) (t : Nat) (st : State) : Prop extends
    Follows sys t st where
  ordered : st.Ordered (sys.readyFirst st)

section Step

variable {st₁ st₂ st₃ : State} (h : TickStates sys t st st₁ st₂ st₃)

include h

/-- A task ready after the cull is the job it was at the end of the last
tick, in the key and in the start. -/
theorem TickStates.same_job (hi : i ∈ st₂.items (.ready 1)) :
    i ∈ st.items (.ready 1) ∧ st₂.key i = st.key i ∧
    (st₂.tcb i).startTime = (st.tcb i).startTime := by
  have hlt := h.killed.shape.lt_of_ready hi
  have hr := (h.killed.mem_ready_iff hlt).mp hi
  have hr' := (Job.cull_ready.mp hr).1
  have hold := Job.account_ready hr'
  have hmem := (h.follows.mem_ready_iff hlt).mpr hold
  obtain ⟨hstart, hmet⟩ := Job.account_same hr'
  have hsame : sys.culledAt i t = sys.accountedAt i t := Job.cull_same hr
  refine ⟨hmem, ?_, ?_⟩
  · rw [State.key, State.key, h.killed.shape.key i hi, h.follows.shape.key i hmem,
      h.killed.job i hlt, h.follows.job i hlt, hsame]
    exact readyKey_congr hstart hmet
  · rw [h.killed.start hlt, h.follows.start hlt, hsame]
    exact hstart

theorem TickStates.charged_eq (ht : t < sys.hiperperiod) :
    st₁ = chargeCurrent st.advance := by
  have heq := afterCharge_eq h.run h.follows ht
  rw [h.afterCharge] at heq
  injection heq

theorem TickStates.charged_sublist (ht : t < sys.hiperperiod) :
    List.Sublist (st₁.items (.ready 1)) (st.items (.ready 1)) := by
  rw [h.charged_eq ht]
  rcases headOrIdle_cases h.follows with ⟨hmem, hlt⟩ | ⟨-, hidle⟩
  · rw [chargeCurrent_eq h.follows.shape.advance ht h.follows.current hlt
      (show Chargeable _ _ (st.job _) from chargeable h.follows hlt hmem)]
    exact chargeState_items
  · have hcur : st.advance.pxCurrentTCB = _ := h.follows.current
    rw [chargeCurrent_idle hcur]
    · exact List.Sublist.refl _
    · rw [hidle]
      exact h.follows.shape.idle

theorem TickStates.killed_sublist (ht : t < sys.hiperperiod) :
    List.Sublist (st₂.items (.ready 1)) (st.items (.ready 1)) := by
  have h₂ : List.Sublist (st₂.items (.ready 1)) (st₁.items (.ready 1)) := by
    rw [h.killTasks]
    exact killTasks_items h.charged.shape ht
  exact h₂.trans (h.charged_sublist ht)

/-- A task ready after the cull is not touched by the release. -/
theorem TickStates.woken_start (hi : i ∈ st₂.items (.ready 1)) :
    i ∈ st₃.items (.ready 1) ∧
    (st₃.tcb i).startTime = (st₂.tcb i).startTime ∧
    (st₃.tcb i).startTime ≤ t := by
  have hlt := h.killed.shape.lt_of_ready hi
  have hr := (h.killed.mem_ready_iff hlt).mp hi
  have hwake : sys.jobAt i (t + 1) = sys.culledAt i t := by
    rw [sys.jobAt_succ, Job.wake, if_neg]
    rw [hr]
    exact fun hc => Bool.noConfusion hc.1
  have hstart : (st₃.tcb i).startTime = (st₂.tcb i).startTime := by
    rw [h.woken.start hlt, hwake, h.killed.start hlt]
  refine ⟨(h.woken.mem_ready_iff hlt).mpr (by rw [hwake]; exact hr), hstart, ?_⟩
  rw [hstart, (h.same_job hi).2.2]
  exact (h.follows.shape.bounds i hlt).start_le

/-- A task that becomes ready starts its job in this tick. -/
theorem TickStates.woken_new (hi : i ∈ st₃.items (.ready 1))
    (hnew : i ∉ st₂.items (.ready 1)) : (st₃.tcb i).startTime = t + 1 := by
  have hlt := h.woken.shape.lt_of_ready hi
  have hw : (sys.culledAt i t).ready = false := by
    rw [← Bool.not_eq_true]
    exact fun hc => hnew ((h.killed.mem_ready_iff hlt).mpr hc)
  have hr := (h.woken.mem_ready_iff hlt).mp hi
  rw [h.woken.start hlt, sys.jobAt_succ] at *
  by_cases hp : (t + 1) % (sys.params i).period = 0
  · rw [Job.wake_released hw hp, Job.release]
    split <;> rfl
  · rw [Job.wake_kept hp, hw] at hr
    exact Bool.noConfusion hr

theorem TickStates.ordered (ht : t < sys.hiperperiod)
    (ho : st.Ordered (sys.readyFirst st)) :
    st₃.Ordered (sys.readyFirst st₃) := by
  have hstart : ∀ y ∈ st₂.items .wait, (t + 1) % (sys.params y).period = 0 →
      (st₃.tcb y).startTime = t + 1 := by
    intro y hy hp
    have hlt := h.killed.shape.lt_of_wait hy
    rw [h.woken.start hlt, sys.jobAt_succ,
      Job.wake_released ((h.killed.mem_wait_iff hlt).mp hy) hp, Job.release]
    split <;> rfl
  have hord₂ : st₂.Ordered (sys.readyFirst st₃) := by
    refine (CursorList.StableSorted.sublist ho (h.killed_sublist ht)).congr
      (fun i hi => (h.same_job hi).2.1) fun i hi j hj hb => ?_
    refine (readyFirst_congr ?_ ?_).mp hb
    · rw [(h.woken_start hi).2.1, (h.same_job hi).2.2]
    · rw [(h.woken_start hj).2.1, (h.same_job hj).2.2]
  rw [h.wakeTasks] at *
  refine wakeTasks_ordered h.killed.shape ht ?_ (fun i hi y hy hp => ?_) hord₂
  · refine List.pairwise_iff_forall_sublist.mpr fun {y z} hsub hy hz => ?_
    have hys := hstart y (hsub.subset (by simp)) hy
    have hzs := hstart z (hsub.subset (by simp)) hz
    refine Or.inr ⟨hys.trans hzs.symm, ?_⟩
    rw [hys]
    exact ⟨st₂, h.afterKill, hsub⟩
  · have hlt := (h.woken_start hi).2.2
    have hy := hstart y hy hp
    exact Or.inl (by omega)

end Step

theorem run_inOrder (sys : ClosedSystem) {t : Nat} (ht : t < sys.hiperperiod) :
    ∃ st, sys.run t = .ok st ∧ InOrder sys t st := by
  induction t with
  | zero =>
      obtain ⟨st, st', hc, hb, hrun⟩ := boot_ok sys
      obtain ⟨s, hs, hfollows⟩ := follows_zero sys
      rw [vTaskSwitchContext_eq (hb.shape hc)] at hrun
      cases hrun.symm.trans hs
      refine ⟨_, hrun, hfollows, ?_⟩
      have hord : st'.Ordered (sys.readyFirst st') := by
        have hitems := hb.ready
        rw [State.Ordered, hitems]
        refine hc.sorted.congr (fun i hi => ?_) fun i hi j hj hb' => ?_
        · rw [State.key, hb.tcb i (hc.ready_lt hi)]
        · have hzero : ∀ y ∈ st.items (.ready 1), (st'.tcb y).startTime = 0 := by
            intro y hy
            exact Nat.le_zero.mp
              ((hb.shape hc).bounds y (hc.ready_lt hy)).start_le
          refine Or.inr ⟨by rw [hzero i hi, hzero j hj], ?_⟩
          rw [hzero i hi]
          exact hb'
      exact hord
  | succ t ih =>
      obtain ⟨st, hrun, ho⟩ := ih (by omega)
      obtain ⟨st₁, st₂, st₃, h⟩ := tick_states_of_run (by omega) hrun
      have hnext := h.run_succ ht
      rw [vTaskSwitchContext_eq h.woken.shape] at hnext
      exact ⟨_, hnext, follows_of_run ht hnext, h.ordered (by omega) ho.ordered⟩

end FreeRtosSim
