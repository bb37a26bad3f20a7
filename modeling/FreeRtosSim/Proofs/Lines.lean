import FreeRtosSim.Job.Queue
import FreeRtosSim.Proofs.Order

/-!
# The two lists are the two lines

The ready list and the wait list of a run are the lines of `Job.Queue`. The
accounting and `killTasks` put the tasks whose jobs end in front of the
member the wait list's cursor is on, which is where the last `wakeTasks` left
it, at the head; `wakeTasks` takes the wait list in its order and inserts
what it releases by key. Only the very first wait list, when RTO leaves out
first jobs, has its cursor elsewhere.
-/

namespace FreeRtosSim

variable {sys : ClosedSystem} {t : Nat} {st st₁ st₂ st₃ : State}
  {i x : TaskHandle}

/-- The key of a job of task `i`. -/
def ClosedSystem.jobKey (sys : ClosedSystem) (i : Nat) (j : Job) : Nat :=
  readyKey sys.alg (sys.params i) j

/-- The lines of the system's tasks at the end of tick `t`. -/
def ClosedSystem.queueAt (sys : ClosedSystem) (t : Nat) : Queue :=
  FreeRtosSim.queueAt sys.alg sys.params sys.jobKey sys.taskCnt t

theorem jobKey_keyOf (sys : ClosedSystem) : Queue.KeyOf sys.jobKey :=
  fun _ _ _ hs hm => readyKey_congr hs hm

/-! ## The accounting -/

section Charge

variable (h : TickStates sys t st st₁ st₂ st₃)

include h

/-- Only the head of the ready list can leave it. -/
theorem TickStates.charged_ready (hi : i ∈ (st.items (.ready 1)).tail) :
    (sys.accountedAt i t).ready = true := by
  have hmem := List.mem_of_mem_tail hi
  have hlt := h.follows.shape.lt_of_ready hmem
  have hr := (h.follows.mem_ready_iff hlt).mp hmem
  have hnd := h.follows.shape.ready_nodup
  have hidle : ¬ sys.running i t = true := by
    rw [running_iff h.run, h.follows.current, Option.some_inj, headOrIdle]
    cases hl : st.items (.ready 1) with
    | nil =>
        rw [hl] at hmem
        exact absurd hmem List.not_mem_nil
    | cons c l =>
        rw [hl] at hi hnd
        rintro rfl
        exact (List.nodup_cons.mp hnd).1 hi
  rw [sys.accountedAt_eq, Job.account_idle fun hc => hidle hc.1]
  exact hr

variable (ht : t < sys.hiperperiod)

include ht

theorem TickStates.charged_items : st₁.items (.ready 1) =
    (st.items (.ready 1)).filter fun i => (sys.accountedAt i t).ready := by
  refine eq_filter_of_sublist h.follows.shape.ready_nodup
    (h.charged_sublist ht) fun i hi => ?_
  exact h.charged.mem_ready_iff (h.follows.shape.lt_of_ready hi)

/-- The job that completed goes to the wait list. -/
theorem TickStates.charged_wait : st₁.lists .wait =
    ((st.items (.ready 1)).filter fun i => !(sys.accountedAt i t).ready).foldl
      CursorList.insertEnd (st.lists .wait) := by
  rw [h.charged_eq ht]
  rcases headOrIdle_cases h.follows with ⟨hmem, hlt⟩ | ⟨hnil, hidle⟩
  · have hch := chargeable h.follows hlt hmem
    rw [chargeCurrent_eq h.follows.shape.advance ht h.follows.current hlt
      (show Chargeable _ _ (st.job _) from hch), chargeState]
    obtain ⟨c, l, hl⟩ := List.exists_cons_of_ne_nil (List.ne_nil_of_mem hmem)
    have hhead : headOrIdle sys st = c := by simp [headOrIdle, hl]
    rw [hhead] at hlt hch ⊢
    have hrest : ∀ x ∈ l, (sys.accountedAt x t).ready = true := by
      intro x hx
      refine h.charged_ready ?_
      rw [hl]
      exact hx
    have hnone : l.filter (fun i => !(sys.accountedAt i t).ready) = [] := by
      rw [List.filter_eq_nil_iff]
      intro x hx
      simp [hrest x hx]
    have hrun : sys.running c t = true := by
      rw [running_iff h.run, h.follows.current, hhead]
    have hr := hch.ready
    rw [h.follows.job c hlt] at hr
    have hacc : sys.accountedAt c t = (sys.jobAt c t).charge (sys.params c) := by
      rw [sys.accountedAt_eq, hrun, Job.account_charged hr]
    have hrem : (st.advance.job c).remaining = (sys.jobAt c t).remaining :=
      congrArg Job.remaining (h.follows.job c hlt)
    rw [hl, hrem]
    by_cases hdone : (sys.jobAt c t).remaining - 1 = 0
    · have hout : (sys.accountedAt c t).ready = false := by
        rw [hacc, Job.charge_done hdone]
      rw [if_pos hdone, List.filter_cons_of_pos (by simp [hout]), hnone]
      simp only [toWait, Function.update_self]
      rfl
    · have hin : (sys.accountedAt c t).ready = true := by
        rw [hacc, Job.charge_more hdone]
        exact hr
      rw [if_neg hdone, List.filter_cons_of_neg (by simp [hin]), hnone]
      rfl
  · have hcur : st.advance.pxCurrentTCB = _ := h.follows.current
    rw [chargeCurrent_idle hcur, hnil]
    · rfl
    · rw [hidle]
      exact h.follows.shape.idle

end Charge

theorem TickStates.charged_current (h : TickStates sys t st st₁ st₂ st₃)
    (ht : t < sys.hiperperiod) : st₁.pxCurrentTCB = st.pxCurrentTCB := by
  rw [h.charged_eq ht]
  rcases headOrIdle_cases h.follows with ⟨hmem, hlt⟩ | ⟨-, hidle⟩
  · rw [chargeCurrent_eq h.follows.shape.advance ht h.follows.current hlt
      (show Chargeable _ _ (st.job _) from chargeable h.follows hlt hmem)]
    exact chargeState_quiet.1.current
  · have hcur : st.advance.pxCurrentTCB = _ := h.follows.current
    rw [chargeCurrent_idle hcur]
    · rfl
    · rw [hidle]
      exact h.follows.shape.idle

/-! ## `killTasks` -/

theorem killVisit_wait (h : Shape sys t st) (hx : x ∈ st.items (.ready 1)) :
    (killVisit st x).lists .wait =
      if hopeless st x = true then (st.lists .wait).insertEnd x
      else st.lists .wait := by
  rw [killVisit_eq h hx]
  dsimp only
  split
  · simp [toWait]
  · simp

theorem killFold_wait (ht : t ≤ sys.hiperperiod) :
    ∀ (l : List TaskHandle) (s : State), Shape sys t s → l.Nodup →
      (∀ y ∈ l, y ∈ s.items (.ready 1)) →
      (l.foldl killVisit s).lists .wait =
        (l.filter fun y => (s.job y).late (sys.params y) t).foldl
          CursorList.insertEnd (s.lists .wait) := by
  intro l
  induction l with
  | nil => intro s _ _ _; rfl
  | cons x l ih =>
      intro s h hnd hin
      have hx := hin x (by simp)
      obtain ⟨hxl, hnd⟩ := List.nodup_cons.mp hnd
      have hother : ∀ y ∈ l, (killVisit s x).job y = s.job y := fun y hy =>
        killVisit_job_other h hx fun he => hxl (he ▸ hy)
      have hlate := hopeless_iff h ht (h.lt_of_ready hx)
      rw [List.foldl_cons, ih _ (h.killVisit hx) hnd fun y hy => ?_,
        killVisit_wait h hx]
      · have hsame : (l.filter fun y =>
              ((killVisit s x).job y).late (sys.params y) t) =
            l.filter fun y => (s.job y).late (sys.params y) t :=
          List.filter_congr fun y hy => by rw [hother y hy]
        rw [hsame]
        by_cases hl : (s.job x).late (sys.params x) t
        · rw [if_pos (hlate.mpr hl), List.filter_cons_of_pos (by simpa using hl)]
          rfl
        · rw [if_neg fun hc => hl (hlate.mp hc),
            List.filter_cons_of_neg (by simpa using hl)]
      · rw [← job_ready_iff, hother y hy, job_ready_iff]
        exact hin y (List.mem_cons_of_mem x hy)

theorem killTasks_wait (h : Shape sys t st) (ht : t ≤ sys.hiperperiod) :
    (killTasks st).lists .wait =
      ((st.items (.ready 1)).filter fun y =>
        (st.job y).late (sys.params y) t).foldl
        CursorList.insertEnd (st.lists .wait) := by
  obtain ⟨c, hc⟩ := killTasks_eq h
  rw [hc, ← killFold_wait ht _ st h h.ready_nodup fun _ hy => hy]
  simp [killFold]

theorem TickStates.killed_items (h : TickStates sys t st st₁ st₂ st₃)
    (ht : t < sys.hiperperiod) : st₂.items (.ready 1) =
      (st.items (.ready 1)).filter fun i => (sys.culledAt i t).ready := by
  refine eq_filter_of_sublist h.follows.shape.ready_nodup
    (h.killed_sublist ht) fun i hi => ?_
  exact h.killed.mem_ready_iff (h.follows.shape.lt_of_ready hi)

/-- What leaves a list through two filters, when the first can only catch
the head. -/
theorem filter_leaves {l : List Nat} {a b : Nat → Bool}
    (h : ∀ x ∈ l.tail, a x = true) :
    l.filter (fun x => !a x) ++ (l.filter a).filter b =
      l.filter fun x => !a x || b x := by
  cases l with
  | nil => rfl
  | cons c l =>
      have hall : l.filter a = l := List.filter_eq_self.mpr h
      have hnone : l.filter (fun x => !a x) = [] := by
        rw [List.filter_eq_nil_iff]
        intro x hx
        simp [h x hx]
      have hsame : l.filter (fun x => !a x || b x) = l.filter b :=
        List.filter_congr fun x hx => by simp [h x hx]
      cases hc : a c with
      | true =>
          rw [List.filter_cons_of_neg (by simp [hc]), List.filter_cons_of_pos hc,
            hnone, hall, List.nil_append, List.filter_cons, List.filter_cons,
            hsame]
          simp [hc]
      | false =>
          rw [List.filter_cons_of_pos (by simp [hc]),
            List.filter_cons_of_neg (by simp [hc]),
            List.filter_cons_of_pos (by simp [hc]), hnone, hall, hsame]
          rfl

/-- The jobs that ended stand in front of those that waited. -/
theorem TickStates.killed_wait (h : TickStates sys t st st₁ st₂ st₃)
    (ht : t < sys.hiperperiod)
    (hcur : (st.lists .wait).index = (st.items .wait).head?) :
    st₁.items .wait =
      (st.items (.ready 1)).filter (fun i => !(sys.accountedAt i t).ready) ++
        st.items .wait ∧
    st₂.items .wait =
      (st.items (.ready 1)).filter (fun i => !(sys.culledAt i t).ready) ++
        st.items .wait := by
  have hwait : st.lists .wait = ⟨[] ++ st.items .wait,
      (st.items .wait).head?, (st.lists .wait).count⟩ := by
    rw [← hcur]
    rfl
  have hlate : (st₁.items (.ready 1)).filter (fun i =>
        (st₁.job i).late (sys.params i) (t + 1)) =
      (st₁.items (.ready 1)).filter fun i =>
        (sys.accountedAt i t).late (sys.params i) (t + 1) :=
    List.filter_congr fun i hi => by
      rw [h.charged.job i (h.charged.shape.lt_of_ready hi)]
  have hleft := filter_leaves (l := st.items (.ready 1))
    (a := fun i => (sys.accountedAt i t).ready)
    (b := fun i => (sys.accountedAt i t).late (sys.params i) (t + 1))
    fun i hi => h.charged_ready hi
  have hculled : (st.items (.ready 1)).filter (fun i =>
        !(sys.accountedAt i t).ready ||
          decide ((sys.accountedAt i t).late (sys.params i) (t + 1))) =
      (st.items (.ready 1)).filter fun i => !(sys.culledAt i t).ready := by
    refine List.filter_congr fun i _ => ?_
    rw [Bool.eq_iff_iff, Bool.or_eq_true, Bool.not_eq_true', Bool.not_eq_true',
      decide_eq_true_eq, ← Bool.not_eq_true, ← Bool.not_eq_true,
      sys.culledAt_eq, Job.cull_ready]
    tauto
  rw [hculled] at hleft
  have hnd : ((st.items (.ready 1)).filter (fun i =>
      !(sys.culledAt i t).ready) ++ st.items .wait).Nodup :=
    h.follows.shape.nodup.sublist (List.filter_sublist.append_right _)
  have hnd₁ : ([] ++ (st.items (.ready 1)).filter (fun i =>
      !(sys.accountedAt i t).ready) ++ st.items .wait).Nodup := by
    rw [List.nil_append]
    exact h.follows.shape.nodup.sublist (List.filter_sublist.append_right _)
  have h₁ : st₁.lists .wait = _ := h.charged_wait ht
  rw [hwait, CursorList.foldl_insertEnd_front hnd₁, List.nil_append] at h₁
  refine ⟨congrArg CursorList.items h₁, ?_⟩
  rw [State.items, h.killTasks, killTasks_wait h.charged.shape ht, hlate, h₁,
    h.charged_items ht, CursorList.foldl_insertEnd_front, hleft]
  rw [hleft]
  exact hnd

/-! ## `wakeTasks` -/

/-- What is left of the wait list keeps its order. -/
theorem wakeVisit_wait (h : Shape sys t st) (ht : t ≤ sys.hiperperiod)
    (hx : x ∈ st.items .wait) :
    List.Sublist ((wakeVisit sys.alg st x).items .wait) (st.items .wait) := by
  obtain ⟨st', hst', -, -, -, hcase⟩ := wakeVisit_cases h ht hx
  have hitems : st'.items .wait = st.items .wait := by
    rw [hst']
    exact setIndex_items st .wait .wait (some x)
  rw [← hitems]
  rcases hcase with ⟨-, heq⟩ | ⟨-, -, heq⟩ | ⟨-, -, heq⟩
  · rw [heq]
  · rw [heq]
    exact List.Sublist.refl _
  · rw [heq, toReady_items_wait]
    exact List.erase_sublist

theorem wakeTasks_wait (h : Shape sys t st) (ht : t ≤ sys.hiperperiod) :
    List.Sublist ((wakeTasks sys.alg st).items .wait) (st.items .wait) ∧
    ((wakeTasks sys.alg st).lists .wait).index =
      ((wakeTasks sys.alg st).items .wait).head? := by
  have hfold : List.Sublist ((wakeFold sys.alg st).items .wait)
      (st.items .wait) :=
    (wakeVisit_pointwise sys ht).foldl_rel
      (R := fun s s' => List.Sublist (s'.items .wait) (s.items .wait))
      (fun s => List.Sublist.refl _) (fun hab hbc => hbc.trans hab)
      (fun s x hs hx => wakeVisit_wait hs ht (hs.wait_of_waiting hx))
      _ st h.wait_nodup h h.all_waiting
  rw [wakeTasks_fold h ht, setIndex_items]
  exact ⟨hfold, by simp⟩

/-- One release: the job as it will be at the end of the pass decides whether
and where the task is inserted. -/
theorem wakeVisit_ready (h : Shape sys t st) (ht : t ≤ sys.hiperperiod)
    (hx : x ∈ st.items .wait) {F : Nat → Job}
    (hF : F x = (st.job x).wake sys.alg (sys.params x) t)
    (hold : ∀ y ∈ st.items (.ready 1), F y = st.job y) :
    (wakeVisit sys.alg st x).items (.ready 1) =
      if (F x).ready = true then
        insertByKey (fun y => sys.jobKey y (F y)) (st.items (.ready 1)) x
      else st.items (.ready 1) := by
  have hs := h.wakeVisit ht hx
  have hself := wakeVisit_job h ht hx
  have hnot : x ∉ st.items (.ready 1) := fun hr => h.not_wait_of_ready hr hx
  have hmem : x ∈ (wakeVisit sys.alg st x).items (.ready 1) ↔
      (F x).ready = true := by
    rw [hF, ← hself, job_ready_iff]
  obtain ⟨-, -, -, hitems⟩ := wakeVisit_order h ht hx
  rcases hitems with heq | ⟨-, heq⟩
  · rw [heq] at hmem ⊢
    rw [if_neg fun hc => hnot (hmem.mpr hc)]
  · have hin : ∀ y ∈ x :: st.items (.ready 1),
        (wakeVisit sys.alg st x).key y = sys.jobKey y (F y) := by
      intro y hy
      have hy' : y ∈ (wakeVisit sys.alg st x).items (.ready 1) := by
        rw [heq]
        exact (List.perm_orderedInsert _ x _).mem_iff.mpr hy
      rw [State.key, hs.key y hy', ClosedSystem.jobKey]
      rcases List.mem_cons.mp hy with rfl | hy
      · rw [hF, hself]
      · have hne : y ≠ x := fun he => hnot (he ▸ hy)
        rw [wakeVisit_job_other h ht hx hne, hold y hy]
    rw [if_pos (hmem.mp (by rw [heq]; exact (List.mem_orderedInsert _).mpr (Or.inl rfl))),
      heq]
    refine insertByKey_congr fun y hy => ?_
    rw [hin x (by simp), hin y (List.mem_cons_of_mem x hy)]

theorem wakeFold_ready (ht : t ≤ sys.hiperperiod) {F : Nat → Job} :
    ∀ (l : List TaskHandle) (s : State), Shape sys t s → l.Nodup →
      (∀ y ∈ l, y ∈ s.items .wait) →
      (∀ y ∈ l, F y = (s.job y).wake sys.alg (sys.params y) t) →
      (∀ y ∈ s.items (.ready 1), F y = s.job y) →
      (l.foldl (wakeVisit sys.alg) s).items (.ready 1) =
        insertAllByKey (fun y => sys.jobKey y (F y)) (s.items (.ready 1))
          (l.filter fun y => (F y).ready) := by
  intro l
  induction l with
  | nil => intro s _ _ _ _ _; rfl
  | cons x l ih =>
      intro s h hnd hw hF hold
      have hx := hw x (by simp)
      obtain ⟨hxl, hnd⟩ := List.nodup_cons.mp hnd
      have hvisit := wakeVisit_ready h ht hx (hF x (by simp)) hold
      have hne : ∀ y ∈ l, y ≠ x := fun y hy he => hxl (he ▸ hy)
      rw [List.foldl_cons, ih _ (h.wakeVisit ht hx) hnd (fun y hy => ?_)
        (fun y hy => ?_) fun y hy => ?_, hvisit]
      · cases hr : (F x).ready with
        | true =>
            rw [if_pos rfl, List.filter_cons, if_pos hr]
            rfl
        | false =>
            rw [if_neg Bool.false_ne_true, List.filter_cons, if_neg (by simp [hr])]
      · exact (wakeVisit_order h ht hx).2.2.1 y
          (hw y (List.mem_cons_of_mem x hy)) (hne y hy)
      · rw [wakeVisit_job_other h ht hx (hne y hy)]
        exact hF y (List.mem_cons_of_mem x hy)
      · by_cases hyx : y = x
        · rw [hyx, wakeVisit_job h ht hx, ← hF x (by simp)]
        · rw [wakeVisit_job_other h ht hx hyx]
          refine hold y ?_
          rw [hvisit] at hy
          split at hy
          · exact (mem_insertByKey.mp hy).resolve_left hyx
          · exact hy

/-! ## Along the run -/

/-- At the end of tick `t` the lists are the lines. -/
structure InLines (sys : ClosedSystem) (t : Nat) (st : State) : Prop extends
    Follows sys t st where
  ready : st.items (.ready 1) = (sys.queueAt t).ready
  wait : st.items .wait = (sys.queueAt t).wait
  cursor : (st.lists .wait).index = (st.items .wait).head?
  queueJob : ∀ i < sys.taskCnt, (sys.queueAt t).job i = sys.jobAt i t

theorem InLines.runs (h : InLines sys t st) (hrun : sys.run t = .ok st)
    (hi : i < sys.taskCnt) : (sys.queueAt t).runs i = sys.running i t := by
  rw [Bool.eq_iff_iff, running_iff hrun, h.current, Option.some_inj, headOrIdle,
    h.ready, Queue.runs, decide_eq_true_eq]
  cases (sys.queueAt t).ready.head? with
  | none =>
      refine iff_of_false (by simp) fun hc => ?_
      exact Nat.lt_irrefl _ (hc ▸ hi)
  | some c => exact Option.some_inj

section Step

variable (h : TickStates sys t st st₁ st₂ st₃) (hin : InLines sys t st)

include h hin

theorem InLines.accounted (hi : i < sys.taskCnt) :
    (sys.queueAt t).accounted sys.params i = sys.accountedAt i t := by
  rw [Queue.accounted, hin.queueJob i hi, hin.runs h.run hi]
  rfl

theorem InLines.culled (hi : i < sys.taskCnt) :
    (sys.queueAt t).culled sys.params (t + 1) i = sys.culledAt i t := by
  rw [Queue.culled, hin.accounted h hi]
  rfl

theorem InLines.woken (hi : i < sys.taskCnt) :
    (sys.queueAt t).woken sys.alg sys.params (t + 1) i = sys.jobAt i (t + 1) := by
  rw [Queue.woken, hin.culled h hi]
  rfl

variable (ht : t < sys.hiperperiod)

include ht

theorem InLines.waiting : st₂.items .wait =
    (sys.queueAt t).waiting sys.params (t + 1) := by
  refine (h.killed_wait ht hin.cursor).2.trans ?_
  rw [Queue.waiting, ← hin.ready, ← hin.wait]
  show _ ++ _ = _
  congr 1
  refine List.filter_congr fun i hi => ?_
  rw [hin.culled h (h.follows.shape.lt_of_ready hi)]

theorem InLines.woken_ready :
    st₃.items (.ready 1) = (sys.queueAt (t + 1)).ready := by
  have hfold := wakeFold_ready ht (F := fun i => sys.jobAt i (t + 1)) _ st₂
    h.killed.shape h.killed.shape.wait_nodup (fun _ hy => hy)
    (fun y hy => ?_) fun y hy => ?_
  · rw [h.wakeTasks, wakeTasks_fold h.killed.shape ht, setIndex_items, wakeFold,
      hfold, hin.waiting h ht, h.killed_items ht]
    show _ = insertAllByKey _ _ _
    have hready : (sys.queueAt t).ready.filter (fun i =>
          ((sys.queueAt t).culled sys.params (t + 1) i).ready) =
        (st.items (.ready 1)).filter fun i => (sys.culledAt i t).ready := by
      rw [← hin.ready]
      refine List.filter_congr fun i hi => ?_
      rw [hin.culled h (h.follows.shape.lt_of_ready hi)]
    have hlt : ∀ i ∈ (sys.queueAt t).waiting sys.params (t + 1),
        i < sys.taskCnt := by
      rw [← hin.waiting h ht]
      exact fun i hi => h.killed.shape.lt_of_wait hi
    have hnew : ((sys.queueAt t).waiting sys.params (t + 1)).filter (fun i =>
          ((sys.queueAt t).woken sys.alg sys.params (t + 1) i).ready) =
        ((sys.queueAt t).waiting sys.params (t + 1)).filter fun i =>
          (sys.jobAt i (t + 1)).ready := by
      refine List.filter_congr fun i hi => ?_
      rw [hin.woken h (hlt i hi)]
    rw [← ClosedSystem.queueAt, hready, hnew]
    have hkeys : ∀ i, i < sys.taskCnt → sys.jobKey i
        ((sys.queueAt t).woken sys.alg sys.params (t + 1) i) =
        sys.jobKey i (sys.jobAt i (t + 1)) := fun i hi => by
      rw [hin.woken h hi]
    refine insertAllByKey_congr fun a ha b hb => ?_
    have hmem : ∀ c ∈ ((sys.queueAt t).waiting sys.params (t + 1)).filter
          (fun i => (sys.jobAt i (t + 1)).ready) ++
        (st.items (.ready 1)).filter (fun i => (sys.culledAt i t).ready),
        c < sys.taskCnt := by
      intro c hc
      rcases List.mem_append.mp hc with hc | hc
      · exact hlt c (List.mem_filter.mp hc).1
      · exact h.follows.shape.lt_of_ready (List.mem_filter.mp hc).1
    rw [hkeys a (hmem a ha), hkeys b (hmem b hb)]
  · rw [h.killed.job y (h.killed.shape.lt_of_wait hy)]
    rfl
  · have hlt := h.killed.shape.lt_of_ready hy
    have hr := (h.killed.mem_ready_iff hlt).mp hy
    rw [h.killed.job y hlt, sys.jobAt_succ, Job.wake, if_neg]
    rw [hr]
    exact fun hc => Bool.noConfusion hc.1

theorem InLines.woken_wait : st₃.items .wait = (sys.queueAt (t + 1)).wait ∧
    (st₃.lists .wait).index = (st₃.items .wait).head? := by
  obtain ⟨hsub, hcursor⟩ := wakeTasks_wait h.killed.shape ht
  rw [← h.wakeTasks] at hsub hcursor
  refine ⟨?_, hcursor⟩
  have hfil := eq_filter_of_sublist
    (p := fun i => !(sys.jobAt i (t + 1)).ready) h.killed.shape.wait_nodup hsub
    fun i hi => ?_
  · rw [hfil, hin.waiting h ht]
    show _ = List.filter _ _
    refine List.filter_congr fun i hi => ?_
    rw [← hin.waiting h ht] at hi
    rw [← ClosedSystem.queueAt, hin.woken h (h.killed.shape.lt_of_wait hi)]
  · rw [h.woken.mem_wait_iff (h.killed.shape.lt_of_wait hi), Bool.not_eq_true']

/-- The lists stay the lines from one tick to the next. -/
theorem InLines.succ (hnext : sys.run (t + 1) = .ok (switched sys st₃))
    (hlast : t + 1 < sys.hiperperiod) :
    InLines sys (t + 1) (switched sys st₃) := by
  have hready := hin.woken_ready h ht
  obtain ⟨hwait, hcursor⟩ := hin.woken_wait h ht
  exact
    { follows_of_run hlast hnext with
      ready := hready
      wait := hwait
      cursor := hcursor
      queueJob := fun i hi => hin.woken h hi }

end Step

/-- RTO leaves out no first job: then every task starts in the ready list. -/
def ClosedSystem.AllStart (sys : ClosedSystem) : Prop :=
  ∀ i < sys.taskCnt, ¬ skips sys.alg (sys.params i) Job.blank

theorem initial_ready (hall : sys.AllStart) (hi : i < sys.taskCnt) :
    (Job.initial sys.alg (sys.params i)).ready = true :=
  (Job.release_ready rfl).mpr (hall i hi)

theorem inLines_zero (hall : sys.AllStart) :
    ∃ st, sys.run 0 = .ok st ∧ InLines sys 0 st := by
  obtain ⟨st, hc, hrun⟩ := run_zero_eq sys
  have hb := booted hc
  have hcursor := booted_cursor hc
  have hs := hb.shape hc
  rw [vTaskSwitchContext_eq hs] at hrun
  have hf := follows_of_run sys.hiperperiod_pos hrun
  generalize vTaskPlaceOnEventListRestricted 0 true (started sys st) = st' at *
  have hready : (List.range sys.taskCnt).filter (fun i =>
      (Job.initial sys.alg (sys.params i)).ready) = List.range sys.taskCnt :=
    List.filter_eq_self.mpr fun i hi => initial_ready hall (List.mem_range.mp hi)
  have hnowait : st'.items .wait = [] := by
    rw [List.eq_nil_iff_forall_not_mem]
    intro i hi
    have hw := (hf.mem_wait_iff (hs.lt_of_wait hi)).mp hi
    exact Bool.noConfusion (hw.symm.trans (initial_ready hall (hs.lt_of_wait hi)))
  refine ⟨_, hrun, hf, ?_, ?_, ?_, fun i _ => rfl⟩
  · show st'.items (.ready 1) = insertAllByKey _ _ _
    rw [hready]
    have hkeys : ∀ i ∈ st'.items (.ready 1), sys.jobKey i
        (Job.initial sys.alg (sys.params i)) = st'.key i := by
      intro i hi
      rw [State.key, hs.key i hi]
      exact congrArg _ (hf.job i (hs.lt_of_ready hi)).symm
    have hsorted : CursorList.StableSorted (fun i => sys.jobKey i
        (Job.initial sys.alg (sys.params i))) createdFirst
        (st'.items (.ready 1)) := by
      have hold := hc.sorted
      rw [← hb.ready] at hold
      refine hold.congr (fun i hi => ?_) fun _ _ _ _ hij => hij
      rw [hkeys i hi, State.key, hb.tcb i (hs.lt_of_ready hi)]
    have hnew : CursorList.StableSorted (fun i => sys.jobKey i
        (Job.initial sys.alg (sys.params i))) createdFirst
        (insertAllByKey (fun i => sys.jobKey i
          (Job.initial sys.alg (sys.params i))) [] (List.range sys.taskCnt)) :=
      CursorList.StableSorted.insertAllByKey List.Pairwise.nil
        List.pairwise_lt_range fun _ hi => absurd hi List.not_mem_nil
    refine hsorted.unique hnew (fun i j hij hji => Nat.lt_asymm hij hji) ?_
    have hperm := hc.perm
    rw [← hb.ready, ← hb.wait, hnowait, List.append_nil] at hperm
    have hrange := perm_insertAllByKey (fun i => sys.jobKey i
      (Job.initial sys.alg (sys.params i))) [] (List.range sys.taskCnt)
    rw [List.append_nil] at hrange
    exact hperm.trans hrange.symm
  · show st'.items .wait = List.filter _ _
    rw [hnowait]
    refine (List.filter_eq_nil_iff.mpr fun i hi => ?_).symm
    simp [initial_ready hall (List.mem_range.mp hi)]
  · show (st'.lists .wait).index = (st'.items .wait).head?
    rw [hnowait, hcursor]
    rfl

theorem run_inLines (hall : sys.AllStart) (ht : t < sys.hiperperiod) :
    ∃ st, sys.run t = .ok st ∧ InLines sys t st := by
  induction t with
  | zero => exact inLines_zero hall
  | succ t ih =>
      obtain ⟨st, hrun, hin⟩ := ih (by omega)
      obtain ⟨st₁, st₂, st₃, h⟩ := tick_states_of_run (by omega) hrun
      have hnext := h.run_succ ht
      rw [vTaskSwitchContext_eq h.woken.shape] at hnext
      exact ⟨_, hnext, hin.succ h (by omega) hnext ht⟩

/-- What the process leaves behind: `exit_function` comes after the accounting
of its last tick. -/
structure ExitState (sys : ClosedSystem) (T : Nat) (st : State) : Prop where
  current : st.pxCurrentTCB =
    some ((sys.queueAt T).ready.head?.getD sys.taskCnt)
  ready : st.items (.ready 1) =
    (sys.queueAt T).ready.filter fun i => (sys.accountedAt i T).ready
  wait : st.items .wait =
    (sys.queueAt T).ready.filter (fun i => !(sys.accountedAt i T).ready) ++
      (sys.queueAt T).wait
  job : ∀ i < sys.taskCnt, st.job i = sys.accountedAt i T

/-- The counts of `exit_function` are no part of a job. -/
theorem exit_job (st : State) (i : TaskHandle) :
    ({ st with sim :=
      st.sim.countMissedDeadlines.countWeaklyHardBroken } : State).job i =
      st.job i := by
  simp only [State.job, Simulator.countMissedDeadlines,
    Simulator.countWeaklyHardBroken, Simulator.forEachTask_eq]
  by_cases hi : i < st.sim.taskCnt
  · simp only [if_pos hi]
  · simp only [if_neg hi]

theorem run_exitState (hall : sys.AllStart) :
    ∃ st, sys.run sys.hiperperiod = .error (.exit st) ∧ Final sys st ∧
      ExitState sys (sys.hiperperiod - 1) st := by
  have hpos := sys.hiperperiod_pos
  have hlast : sys.hiperperiod - 1 + 1 = sys.hiperperiod := by omega
  obtain ⟨st, hrun, hin⟩ := run_inLines hall
    (show sys.hiperperiod - 1 < sys.hiperperiod by omega)
  obtain ⟨st₁, st₂, st₃, h⟩ := tick_states_of_run (by omega) hrun
  have hexit := run_exit_eq hrun h.follows (by omega) hlast
  rw [← h.charged_eq (by omega), hlast] at hexit
  refine ⟨_, hexit, final_of_exit hexit, ?_⟩
  have hwait := (h.killed_wait (by omega) hin.cursor).1
  exact
    { current := by
        rw [← hin.ready]
        exact (h.charged_current (by omega)).trans hin.current
      ready := by
        rw [← hin.ready]
        exact h.charged_items (by omega)
      wait := by
        rw [← hin.ready, ← hin.wait]
        exact hwait
      job := fun i hi => by
        rw [← h.charged.job i hi]
        exact exit_job st₁ i }

end FreeRtosSim
