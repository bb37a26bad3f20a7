import FreeRtosSim.Proofs.Sound

/-!
# What the queries know

The queries go through the ready, the delayed and the suspended lists, and a
round of each list meets every member once. So they know a task exactly if it
is on one of these lists; of a task in `xWaitTaskList` the enumerations know
nothing, and `eTaskGetState` takes it for ready.

A query changes no list but for the cursors. As calls of a run it is
`suspendAll`, some `nextEntry` and `resumeAll`.
-/

namespace FreeRtosSim

variable {created : List TaskHandle} {alg : Algorithm} {st st₁ st₂ : State}
  {heap : TaskHandle → TCB} {sim : Simulator} {hist : List (System × Call)}
  {s : System} {x y : TaskHandle} {id : ListId}
  {pcTaskName : TaskHandle → List Char} {notified : TaskHandle → Bool}

/-! ## Moving cursors -/

/-- Some cursors were stepped on, and nothing else happened. -/
inductive Looked : State → State → Prop
  | refl (st : State) : Looked st st
  | next {st st₁ : State} (id : ListId) : Looked st st₁ → Looked st (nextEntry id st₁)

theorem Looked.trans (h : Looked st st₁) (h' : Looked st₁ st₂) : Looked st st₂ := by
  induction h' with
  | refl => exact h
  | next id _ ih => exact ih.next id

/-- What a query does not change. -/
structure SameMembers (st st' : State) : Prop where
  tcb : st'.tcb = st.tcb
  items : ∀ id, st'.items id = st.items id
  current : st'.pxCurrentTCB = st.pxCurrentTCB

theorem Looked.same (h : Looked st st₁) : SameMembers st st₁ := by
  induction h with
  | refl => exact ⟨rfl, fun _ => rfl, rfl⟩
  | next id _ ih =>
      exact ⟨ih.tcb, fun l => (setIndex_items _ l id _).trans (ih.items l), ih.current⟩

theorem Looked.linked (h : Looked st st₁) (hl : WellLinked created st) :
    WellLinked created st₁ := by
  induction h with
  | refl => exact hl
  | next id _ ih => exact (nextEntry_moved ih id).linked

theorem goRound_looked (stop : TaskHandle → Bool) (id : ListId) (st : State) :
    Looked st (st.setList id ((st.lists id).goRound stop).2) := by
  obtain ⟨k, hk⟩ := @CursorList.goRound_steps _ _ stop (st.lists id)
  rw [hk]
  clear hk
  induction k with
  | zero =>
      have hself : st.setList id (CursorList.advance^[0] (st.lists id)) = st := by
        simp [State.setList]
      rw [hself]
      exact .refl st
  | succ k ih =>
      have hnext : st.setList id (CursorList.advance^[k + 1] (st.lists id)) =
          nextEntry id (st.setList id (CursorList.advance^[k] (st.lists id))) := by
        rw [Function.iterate_succ_apply']
        simp [nextEntry, State.setList]
      rw [hnext]
      exact ih.next id

/-! ## One list -/

theorem count_pos_iff (h : WellLinked created st) :
    (st.lists id).count > 0 ↔ st.items id ≠ [] := by
  rw [(h.wellFormed id).counted, gt_iff_lt, List.length_pos_iff]

theorem prvListTasks_looked (eState : ETaskState) : Looked st
    (prvListTasksWithinSingleList pcTaskName notified id eState st).2 := by
  rw [prvListTasksWithinSingleList]
  split
  · exact goRound_looked _ id st
  · exact .refl st

theorem prvListTasks_handles (h : WellLinked created st) (eState : ETaskState) :
    ((prvListTasksWithinSingleList pcTaskName notified id eState st).1.map
      TaskStatus.xHandle).Perm (st.items id) := by
  rw [prvListTasksWithinSingleList]
  split
  · have hmap : ∀ l : List TaskHandle,
        (l.map fun x => vTaskGetInfo pcTaskName notified x eState st).map
          TaskStatus.xHandle = l := fun l => by
      rw [List.map_map]
      exact List.map_id l
    rw [hmap]
    exact CursorList.goRound_perm (h.wellFormed id)
  · next hc =>
      rw [count_pos_iff h, not_not] at hc
      rw [hc]
      exact .refl []

theorem prvSearch_looked (pcNameToQuery : List Char) : Looked st
    (prvSearchForNameWithinSingleList pcTaskName id pcNameToQuery st).2 := by
  rw [prvSearchForNameWithinSingleList]
  split
  · exact goRound_looked _ id st
  · exact .refl st

/-- `x` is the one task of that name. -/
def NamedOnly (pcTaskName : TaskHandle → List Char) (created : List TaskHandle)
    (x : TaskHandle) (pcNameToQuery : List Char) : Prop :=
  ∀ y ∈ created,
    nameMatches configMaxTaskNameLen (pcTaskName y) pcNameToQuery = true ↔ y = x

theorem prvSearch_found {pcNameToQuery : List Char} (h : WellLinked created st)
    (hid : id ≠ .pendingReady) (hname : NamedOnly pcTaskName created x pcNameToQuery) :
    (prvSearchForNameWithinSingleList pcTaskName id pcNameToQuery st).1 =
      if x ∈ st.items id then some x else none := by
  rw [prvSearchForNameWithinSingleList]
  split
  · dsimp only
    rw [CursorList.goRound_find]
    have hperm := CursorList.goRound_perm (h.wellFormed id)
    have hcreated : ∀ y ∈ ((st.lists id).goRound fun _ => false).1, y ∈ created :=
      fun y hy => ((h.linked id hid y).mp (hperm.mem_iff.mp hy)).1
    split
    · next hx =>
        have hx' := hperm.mem_iff.mpr hx
        cases hfind : ((st.lists id).goRound fun _ => false).1.find? fun y =>
            nameMatches configMaxTaskNameLen (pcTaskName y) pcNameToQuery with
        | none =>
            have hno := List.find?_eq_none.mp hfind x hx'
            exact absurd ((hname x (hcreated x hx')).mpr rfl) hno
        | some y =>
            have hy := hcreated y (List.mem_of_find?_eq_some hfind)
            have hmatch := List.find?_some hfind
            rw [(hname y hy).mp hmatch]
    · next hx =>
        refine List.find?_eq_none.mpr fun y hy hmatch => hx ?_
        rw [← (hname y (hcreated y hy)).mp hmatch]
        exact hperm.mem_iff.mp hy
  · next hc =>
      rw [count_pos_iff h, not_not] at hc
      rw [hc]
      rfl

/-! ## All lists -/

theorem listTasks_looked (ls : List (ListId × ETaskState)) (st : State) :
    Looked st (listTasks pcTaskName notified ls st).2 := by
  induction ls generalizing st with
  | nil => exact .refl st
  | cons e ls ih => exact (prvListTasks_looked e.2).trans (ih _)

theorem listTasks_handles (ls : List (ListId × ETaskState))
    (h : WellLinked created st) :
    ((listTasks pcTaskName notified ls st).1.map TaskStatus.xHandle).Perm
      (ls.flatMap fun e => st.items e.1) := by
  induction ls generalizing st with
  | nil => exact .refl []
  | cons e ls ih =>
      have hlook : Looked st (prvListTasksWithinSingleList pcTaskName notified
        e.1 e.2 st).2 := prvListTasks_looked e.2
      have hrest := ih (hlook.linked h)
      simp only [hlook.same.items] at hrest
      rw [listTasks, List.map_append, List.flatMap_cons]
      exact (prvListTasks_handles h e.2).append hrest

theorem searchLists_looked (pcNameToQuery : List Char) (ids : List ListId)
    (st : State) : Looked st (searchLists pcTaskName pcNameToQuery ids st).2 := by
  induction ids generalizing st with
  | nil => exact .refl st
  | cons id ids ih =>
      have hlook := @prvSearch_looked st id pcTaskName pcNameToQuery
      rw [searchLists]
      cases hfound : (prvSearchForNameWithinSingleList pcTaskName id pcNameToQuery
          st).1 with
      | some x => exact hlook
      | none => exact hlook.trans (ih _)

/-- The search finds the task if it is on one of the lists. -/
theorem searchLists_found {pcNameToQuery : List Char} {ids : List ListId}
    (hids : ∀ id ∈ ids, id ≠ .pendingReady) (h : WellLinked created st)
    (hname : NamedOnly pcTaskName created x pcNameToQuery) (hx : ∃ id ∈ ids, x ∈ st.items id) :
    (searchLists pcTaskName pcNameToQuery ids st).1 = some x := by
  induction ids generalizing st with
  | nil =>
      obtain ⟨id, hid, -⟩ := hx
      exact absurd hid List.not_mem_nil
  | cons id ids ih =>
      obtain ⟨hid, hids⟩ := List.forall_mem_cons.mp hids
      have hone := prvSearch_found h hid hname
      have hlook := @prvSearch_looked st id pcTaskName pcNameToQuery
      rw [searchLists]
      by_cases hmem : x ∈ st.items id
      · rw [if_pos hmem] at hone
        rw [hone]
      · rw [if_neg hmem] at hone
        rw [hone]
        refine ih hids (hlook.linked h) ?_
        obtain ⟨k, hk, hxk⟩ := hx
        have hne : k ≠ id := fun he => hmem (he ▸ hxk)
        exact ⟨k, (List.mem_cons.mp hk).resolve_left hne, hlook.same.items k ▸ hxk⟩

/-! ## The lists they look into -/

/-- What the queries overlook: a task in `xWaitTaskList` or on no list. -/
def Overlooked (x : TaskHandle) (st : State) : Prop :=
  x ∈ st.items .wait ∨ (st.tcb x).pxContainer = none

theorem mem_searchedLists (h : WellLinked created st) :
    id ∈ searchedLists st ↔ id.IsState ∧ id ≠ .wait := by
  have hready : id ∈ readyLists ↔ ∃ p < configMaxPriorities, .ready p = id := by
    simp [readyLists]
  rw [searchedLists, List.mem_append, hready]
  rcases h.delayed with ⟨hd, ho⟩ | ⟨hd, ho⟩ <;> rw [hd, ho] <;>
    cases id <;> simp [ListId.IsState]

theorem overlooked_iff (h : WellLinked created st) (hx : x ∈ created) :
    Overlooked x st ↔ ¬ ∃ id ∈ searchedLists st, x ∈ st.items id := by
  have hwait := h.linked .wait (by simp) x
  constructor
  · rintro hover ⟨id, hid, hmem⟩
    obtain ⟨hstate, hne⟩ := (mem_searchedLists h).mp hid
    have hc := ((h.linked id hstate.ne_pendingReady x).mp hmem).2
    rcases hover with hw | hnone
    · exact hne (Option.some_inj.mp (hc.symm.trans (hwait.mp hw).2))
    · rw [hnone] at hc
      exact absurd hc (by simp)
  · intro hno
    cases hc : (st.tcb x).pxContainer with
    | none => exact Or.inr hc
    | some id =>
        refine Or.inl (Classical.byContradiction fun hw => hno ?_)
        have hstate := h.container x hx id hc
        have hne : id ≠ .wait := by
          rintro rfl
          exact hw (hwait.mpr ⟨hx, hc⟩)
        exact ⟨id, (mem_searchedLists h).mpr ⟨hstate, hne⟩,
          (h.linked id hstate.ne_pendingReady x).mpr ⟨hx, hc⟩⟩

theorem listedLists_ids (st : State) :
    (listedLists st).map Prod.fst = searchedLists st := by
  rw [listedLists, List.map_append, List.map_map]
  exact congrArg (· ++ _) (List.map_id readyLists)

theorem searchedLists_nodup (h : WellLinked created st) : (searchedLists st).Nodup := by
  rcases h.delayed with ⟨hd, ho⟩ | ⟨hd, ho⟩ <;> rw [searchedLists, hd, ho] <;> decide

/-- No task is met twice. -/
theorem listed_nodup (h : WellLinked created st) :
    ((listedLists st).flatMap fun e => st.items e.1).Nodup := by
  have hids : (listedLists st).flatMap (fun e => st.items e.1) =
      (searchedLists st).flatMap st.items := by
    rw [← listedLists_ids, List.flatMap_map]
  rw [hids, List.nodup_flatMap]
  refine ⟨fun id _ => (h.wellFormed id).nodup, ?_⟩
  refine (searchedLists_nodup h).imp_of_mem fun {id k} hid hk hne => ?_
  intro x hx hx'
  have hlink : ∀ l ∈ searchedLists st, x ∈ st.items l →
      (st.tcb x).pxContainer = some l := fun l hl hxl =>
    ((h.linked l ((mem_searchedLists h).mp hl).1.ne_pendingReady x).mp hxl).2
  exact hne (Option.some_inj.mp ((hlink id hid hx).symm.trans (hlink k hk hx')))

/-! ## Names -/

/-- Two names that both end in time match exactly if they are equal. -/
theorem nameMatches_iff {n : Nat} {name query : List Char} (hname : name.length < n)
    (hquery : query.length < n) (hn : nul ∉ name) (hq : nul ∉ query) :
    nameMatches n name query = true ↔ name = query := by
  induction n generalizing name query with
  | zero => exact absurd hname (Nat.not_lt_zero _)
  | succ n ih =>
      rw [nameMatches]
      cases name with
      | nil =>
          cases query with
          | nil => simp
          | cons b query =>
              have hb : nul ≠ b := fun he => hq (he ▸ List.mem_cons_self ..)
              simp [hb]
      | cons a name =>
          have ha : a ≠ nul := fun he => hn (he ▸ List.mem_cons_self ..)
          cases query with
          | nil => simp [ha]
          | cons b query =>
              simp only [List.length_cons, Nat.add_lt_add_iff_right] at hname hquery
              have hrest := ih hname hquery (fun h => hn (List.mem_cons_of_mem a h))
                fun h => hq (List.mem_cons_of_mem b h)
              by_cases hab : a = b
              · simp [hab, hab ▸ ha, hrest]
              · simp [hab]

/-- Names as the callers of the create functions choose them: distinct, C
strings, and short enough not to be cut. -/
structure ProperNames (created : List TaskHandle) (pcName : TaskHandle → List Char) :
    Prop where
  distinct : ∀ x ∈ created, ∀ y ∈ created, pcName x = pcName y → x = y
  short : ∀ x ∈ created, (pcName x).length < configMaxTaskNameLen
  string : ∀ x ∈ created, nul ∉ pcName x

theorem ProperNames.named {pcName : TaskHandle → List Char}
    (h : ProperNames created pcName) (hx : x ∈ created) :
    NamedOnly (fun y => storedName (pcName y)) created x (pcName x) := by
  intro y hy
  have hstored : storedName (pcName y) = pcName y :=
    List.take_of_length_le (Nat.le_of_lt_succ (h.short y hy))
  dsimp only
  rw [hstored, nameMatches_iff (h.short y hy) (h.short x hx) (h.string y hy)
    (h.string x hx)]
  exact ⟨h.distinct y hy x hx, fun he => by rw [he]⟩

/-! ## The three queries -/

/-- The queries know every task: one entry each in the array, each found under
its name, and none called ready that is not. -/
structure KnowsAll (s : System) : Prop where
  listed : ∀ (pcTaskName : TaskHandle → List Char) (notified : TaskHandle → Bool)
    (uxArraySize : Nat), s.kernel.uxCurrentNumberOfTasks ≤ uxArraySize →
      ((fillStatusArray pcTaskName notified uxArraySize
        (vTaskSuspendAll s.kernel)).1.map TaskStatus.xHandle).Perm s.created
  found : ∀ pcName : TaskHandle → List Char, ProperNames s.created pcName →
    ∀ x ∈ s.created, (searchForName (fun y => storedName (pcName y)) (pcName x)
      (vTaskSuspendAll s.kernel)).1 = some x
  ready : ∀ (notified : TaskHandle → Bool), ∀ x ∈ s.created,
    s.kernel.pxCurrentTCB ≠ some x →
      eTaskGetState notified x s.kernel = .eReady →
        (∃ p < configMaxPriorities, x ∈ s.kernel.items (.ready p)) ∨
          x ∈ s.kernel.items .pendingReady

/-- The array gets the members of the lists looked into. -/
theorem fillStatusArray_handles {uxArraySize : Nat} (h : WellLinked created st)
    (hn : st.uxCurrentNumberOfTasks ≤ uxArraySize) :
    ((fillStatusArray pcTaskName notified uxArraySize st).1.map
      TaskStatus.xHandle).Perm ((listedLists st).flatMap fun e => st.items e.1) := by
  rw [fillStatusArray, if_pos hn]
  exact listTasks_handles _ h

theorem mem_listed :
    x ∈ (listedLists st).flatMap (fun e => st.items e.1) ↔
      ∃ id ∈ searchedLists st, x ∈ st.items id := by
  rw [← listedLists_ids]
  simp

theorem eTaskGetState_ready_iff : eTaskGetState notified x st = .eReady ↔
    st.pxCurrentTCB ≠ some x ∧ ∃ id, (st.tcb x).pxContainer = some id ∧
      id ≠ st.pxDelayedTaskList ∧ id ≠ st.pxOverflowDelayedTaskList ∧
        id ≠ .suspended := by
  rw [eTaskGetState]
  by_cases hcur : st.pxCurrentTCB = some x
  · simp [hcur]
  cases hc : (st.tcb x).pxContainer with
  | none => simp [hcur]
  | some id =>
      by_cases hd : id = st.pxDelayedTaskList ∨ id = st.pxOverflowDelayedTaskList
      · simp only [hcur, if_false, Option.some.injEq, hd, if_true]
        grind
      · by_cases hs : id = .suspended
        · subst hs
          simp only [hcur, if_false, Option.some.injEq, hd, if_true]
          grind
        · simp only [hcur, if_false, Option.some.injEq, hd, hs]
          grind

theorem eTaskGetState_ready (h : WellLinked created st) (hx : x ∈ created)
    (hover : ¬ Overlooked x st) (hready : eTaskGetState notified x st = .eReady) :
    ∃ p < configMaxPriorities, x ∈ st.items (.ready p) := by
  obtain ⟨-, id, hc, hd, ho, hs⟩ := eTaskGetState_ready_iff.mp hready
  have hstate := h.container x hx id hc
  have hmem : x ∈ st.items id :=
    (h.linked id hstate.ne_pendingReady x).mpr ⟨hx, hc⟩
  cases id with
  | ready p => exact ⟨p, hstate, hmem⟩
  | wait => exact absurd (Or.inl hmem) hover
  | pendingReady => exact absurd hstate (fun hf => hf)
  | suspended => exact absurd rfl hs
  | delayed1 =>
      rcases h.delayed with ⟨he, -⟩ | ⟨-, he⟩
      · exact absurd he.symm hd
      · exact absurd he.symm ho
  | delayed2 =>
      rcases h.delayed with ⟨-, he⟩ | ⟨he, -⟩
      · exact absurd he.symm ho
      · exact absurd he.symm hd

theorem suspendAll_linked (h : WellLinked created st) :
    WellLinked created (vTaskSuspendAll st) :=
  h.congr ⟨rfl, fun _ => rfl, fun _ => rfl, fun _ => rfl, rfl, rfl, rfl⟩

theorem Settled.knowsAll (h : Settled s.created s.kernel) (hnd : s.created.Nodup)
    (hall : ∀ x ∈ s.created, ¬ Overlooked x s.kernel) : KnowsAll s where
  listed pcTaskName notified uxArraySize hn := by
    have hl := suspendAll_linked h.linked
    refine (fillStatusArray_handles hl hn).trans ?_
    rw [List.perm_ext_iff_of_nodup (listed_nodup hl) hnd]
    intro x
    rw [mem_listed]
    constructor
    · rintro ⟨id, hid, hmem⟩
      have hstate := ((mem_searchedLists hl).mp hid).1
      exact ((hl.linked id hstate.ne_pendingReady x).mp hmem).1
    · intro hx
      exact not_not.mp fun hno => hall x hx ((overlooked_iff hl hx).mpr hno)
  found pcName hnames x hx := by
    have hl := suspendAll_linked h.linked
    exact searchLists_found
      (fun id hid => ((mem_searchedLists hl).mp hid).1.ne_pendingReady) hl (hnames.named hx)
      (not_not.mp fun hno => hall x hx ((overlooked_iff hl hx).mpr hno))
  ready _ x hx _ hready := Or.inl (eTaskGetState_ready h.linked hx (hall x hx) hready)

/-- An overlooked task gets no entry. -/
theorem KnowsAll.not_overlooked (h : KnowsAll s) (hs : Settled s.created s.kernel)
    (hx : x ∈ s.created) : ¬ Overlooked x s.kernel := by
  intro hover
  have hl := suspendAll_linked hs.linked
  have hlisted := h.listed (fun _ => []) (fun _ => false) _ (Nat.le_refl _)
  have hmem := (fillStatusArray_handles hl (Nat.le_refl _)).mem_iff.mp
    (hlisted.mem_iff.mpr hx)
  exact (overlooked_iff hl hx).mp hover (mem_listed.mp hmem)

/-- In every reachable state the queries know every task exactly if no task is
in `xWaitTaskList` or on no list at all. -/
theorem knows_all_iff (h : Run alg heap sim hist s) :
    KnowsAll s ↔ ∀ x ∈ s.created, ¬ Overlooked x s.kernel :=
  ⟨fun hk _ hx => hk.not_overlooked h.settled hx, h.settled.knowsAll h.created_nodup⟩

/-- After its first tick the task has used its only tick of computation; the
kernel's queries have lost sight of it. -/
theorem waiting_task_overlooked : ∃ hist s,
    Run .edf (fun _ => zeroTcb) hardTask.simulator hist s ∧
    hist.map Prod.snd = [.tick, .yield, .placeOnEventList portMaxDelay,
      .startScheduler 1 2, .createPeriodic 0 0 1 4 1 0] ∧
    0 ∈ s.created ∧ s.kernel.items .wait = [0] ∧
    s.kernel.pxCurrentTCB = some 1 ∧
    eTaskGetState (fun _ => false) 0 s.kernel = .eReady ∧ ¬ KnowsAll s := by
  have hrun : (sampleRun .edf [.createPeriodic 0 0 1 4 1 0, .startScheduler 1 2,
      .placeOnEventList portMaxDelay, .yield, .tick]).map (fun r =>
        (r.1.map Prod.snd, r.2.created, eTaskGetState (fun _ => false) 0 r.2.kernel,
          r.2.kernel.items .wait, r.2.kernel.pxCurrentTCB)) =
      some ([.tick, .yield, .placeOnEventList portMaxDelay, .startScheduler 1 2,
        .createPeriodic 0 0 1 4 1 0], [2, 1, 0], .eReady, [0], some 1) := by rfl
  obtain ⟨⟨hist, s⟩, hs, heq⟩ := Option.map_eq_some_iff.mp hrun
  simp only [Prod.mk.injEq] at heq
  obtain ⟨hcalls, hcreated, hstate, hwait, hcur⟩ := heq
  have h := sampleRun_run hs
  have hmem : 0 ∈ s.created := by
    rw [hcreated]
    decide
  have hover : Overlooked 0 s.kernel := Or.inl (hwait ▸ List.mem_singleton.mpr rfl)
  exact ⟨hist, s, h, hcalls, hmem, hwait, hcur, hstate,
    fun hk => hk.not_overlooked h.settled hmem hover⟩

/-- Right after the scheduler has started the queries know all three tasks. -/
theorem knows_all_started : ∃ hist s,
    sampleRun .edf [.createPeriodic 0 0 1 4 1 0, .startScheduler 1 2] =
      some (hist, s) ∧
    KnowsAll s := by
  have hrun : (sampleRun .edf [.createPeriodic 0 0 1 4 1 0, .startScheduler 1 2]).map
      (fun r => decide (∀ x ∈ r.2.created, x ∉ r.2.kernel.items .wait ∧
        (r.2.kernel.tcb x).pxContainer ≠ none)) = some true := by rfl
  obtain ⟨⟨hist, s⟩, hs, hall⟩ := Option.map_eq_some_iff.mp hrun
  refine ⟨hist, s, hs, (knows_all_iff (sampleRun_run hs)).mpr fun x hx => ?_⟩
  obtain ⟨hwait, hnone⟩ := of_decide_eq_true hall x hx
  exact fun hover => hover.elim hwait hnone

/-! ## A query as calls of a run -/

theorem Run.looked (h : Run alg heap sim hist s) (hl : Looked s.kernel st) :
    ∃ hist', Run alg heap sim hist' ⟨st, s.created⟩ := by
  induction hl with
  | refl => exact ⟨hist, h⟩
  | next id _ ih =>
      obtain ⟨hist', h'⟩ := ih
      exact ⟨_, h'.call (c := .nextEntry id) trivial rfl⟩

theorem Run.query {b : Bool} (h : Run alg heap sim hist s)
    (hl : Looked (vTaskSuspendAll s.kernel) st)
    (hok : xTaskResumeAll alg st = .ok (b, st₁)) :
    ∃ hist', Run alg heap sim hist' ⟨st₁, s.created⟩ := by
  have hsuspend : Run alg heap sim ((s, .suspendAll) :: hist)
      ⟨vTaskSuspendAll s.kernel, s.created⟩ := h.call trivial rfl
  obtain ⟨hist', h'⟩ := hsuspend.looked hl
  refine ⟨_, h'.call (c := .resumeAll) trivial ?_⟩
  simp only [Call.exec, hok, bind, Except.bind, pure, Except.pure]

/-- A call of `uxTaskGetSystemState` is a run, and what it reports is what it
read before it resumed the scheduler. -/
theorem uxTaskGetSystemState_run {n : Nat} {entries : List TaskStatus}
    (h : Run alg heap sim hist s)
    (hok : uxTaskGetSystemState pcTaskName notified alg n s.kernel =
      .ok (entries, st)) :
    entries = (fillStatusArray pcTaskName notified n (vTaskSuspendAll s.kernel)).1 ∧
    ∃ hist', Run alg heap sim hist' ⟨st, s.created⟩ := by
  simp only [uxTaskGetSystemState, bind, Except.bind] at hok
  cases hres : xTaskResumeAll alg (fillStatusArray pcTaskName notified n
      (vTaskSuspendAll s.kernel)).2 with
  | error e =>
      rw [hres] at hok
      exact absurd hok (by simp)
  | ok r =>
      rw [hres] at hok
      cases hok
      refine ⟨rfl, h.query ?_ hres⟩
      rw [fillStatusArray]
      split
      · exact listTasks_looked _ _
      · exact .refl _

theorem xTaskGetHandle_run {pcNameToQuery : List Char} {found : Option TaskHandle}
    (h : Run alg heap sim hist s)
    (hok : xTaskGetHandle pcTaskName alg pcNameToQuery s.kernel = .ok (found, st)) :
    found = (searchForName pcTaskName pcNameToQuery (vTaskSuspendAll s.kernel)).1 ∧
    ∃ hist', Run alg heap sim hist' ⟨st, s.created⟩ := by
  simp only [xTaskGetHandle, configAssert, bind, Except.bind] at hok
  split at hok
  · exact absurd hok (by simp)
  · cases hres : xTaskResumeAll alg (searchForName pcTaskName pcNameToQuery
        (vTaskSuspendAll s.kernel)).2 with
    | error e =>
        rw [hres] at hok
        exact absurd hok (by simp)
    | ok r =>
        rw [hres] at hok
        cases hok
        exact ⟨rfl, h.query (searchLists_looked _ _ _) hres⟩

end FreeRtosSim
