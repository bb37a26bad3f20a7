import FreeRtosSim.Proofs.Linked
import FreeRtosSim.Lib.Fold

/-!
# The passes of a tick in any system

What the accounting, `killTasks` and `wakeTasks` do to each task block when
all that is known is `WellLinked`. The two passes share `walkList`, so there
is one lemma for a body that keeps the lists linked and writes only the task
in hand: the pass writes every member of the list once, by the same function.
-/

namespace FreeRtosSim

variable {created : List TaskHandle} {alg : Algorithm} {st st₁ : State}
  {x y : TaskHandle} {id : ListId} {t : Nat}

/-- A task's block but for the key its list is sorted by. -/
def State.block (st : State) (x : TaskHandle) : TCB :=
  { st.tcb x with xItemValue := 0 }

/-- What no part of a tick after the prologue touches. -/
structure SameTick (st st' : State) : Prop extends SameGlobals st st' where
  pendingReady : st'.lists .pendingReady = st.lists .pendingReady

theorem SameTick.refl (st : State) : SameTick st st :=
  ⟨SameGlobals.refl st, rfl⟩

theorem SameTick.trans {a b c : State} (h : SameTick a b) (h' : SameTick b c) :
    SameTick a c :=
  ⟨h.toSameGlobals.trans h'.toSameGlobals, h'.pendingReady.trans h.pendingReady⟩

/-- What one visit of a pass over list `id` may do, acting on the block of
the task in hand by `f`. -/
structure Visited (created : List TaskHandle) (id : ListId) (f : TCB → TCB)
    (x : TaskHandle) (st st' : State) : Prop where
  linked : WellLinked created st'
  self : st'.block x = f (st.block x)
  others : ∀ y, y ≠ x → st'.tcb y = st.tcb y
  globals : SameTick st st'
  ring : st'.lists id = st.lists id ∨ st'.lists id = (st.lists id).remove x

def PassBody (created : List TaskHandle) (id : ListId) (t : Nat)
    (body : TaskHandle → State → State) (f : TCB → TCB) : Prop :=
  ∀ st x, WellLinked created st → st.xTickCount = t → x ∈ st.items id →
    Visited created id f x st (body x st)

theorem WellLinked.setIndex (h : WellLinked created st) {i : Option TaskHandle}
    (hi : ∀ x, i = some x → x ∈ st.items id) :
    WellLinked created (st.setList id ((st.lists id).setIndex i)) := by
  have hitems := fun k => setIndex_items st k id i
  refine
    { wellFormed := fun k => ?_
      linked := fun k hk x => by rw [hitems]; exact h.linked k hk x
      container := h.container
      pending := fun x hx => h.pending x (hitems _ ▸ hx)
      priority := h.priority
      current := h.current
      delayed := h.delayed }
  by_cases hk : k = id
  · subst hk
    simpa using (h.wellFormed k).setIndex hi
  · simpa [hk] using h.wellFormed k

/-- One visit as the walk makes it, cursor on the task. -/
abbrev visitList (id : ListId) (body : TaskHandle → State → State) (st : State)
    (x : TaskHandle) : State :=
  visit (fun st => st.lists id) (fun st l => st.setList id l) body st x

section Pass

variable {body : TaskHandle → State → State} {f : TCB → TCB}

theorem PassBody.visit (hb : PassBody created id t body f)
    (h : WellLinked created st) (ht : st.xTickCount = t) (hx : x ∈ st.items id) :
    Visited created id f x (st.setList id ((st.lists id).setIndex (some x)))
      (visitList id body st x) :=
  hb _ x (h.setIndex fun _ hy => Option.some_inj.mp hy ▸ hx) ht
    (by rw [setIndex_items]; exact hx)

/-- The visits of a pass are independent of each other. -/
theorem PassBody.pointwise (hb : PassBody created id t body f)
    (hid : id ≠ .pendingReady) :
    PointwiseStep State.block (visitList id body) (fun _ => f)
      (fun s => WellLinked created s ∧ s.xTickCount = t)
      (fun x b => x ∈ created ∧ b.pxContainer = some id) where
  inv s x hs hx := by
    have hv := hb.visit hs.1 hs.2 ((hs.1.linked id hid x).mpr hx)
    exact ⟨hv.linked, hv.globals.tick.trans hs.2⟩
  self s x hs hx := (hb.visit hs.1 hs.2 ((hs.1.linked id hid x).mpr hx)).self
  other s x y hs hx hy := by
    have hv := (hb.visit hs.1 hs.2 ((hs.1.linked id hid x).mpr hx)).others y hy
    rw [State.block, hv]
    rfl

/-- What a walk asks of its body. -/
theorem PassBody.walkBody (hb : PassBody created id t body f) :
    WalkBody (fun st => st.lists id)
      (fun s => WellLinked created s ∧ s.xTickCount = t) body := by
  intro y s hs _ hy
  have hv := hb s y hs.1 hs.2 hy
  exact ⟨⟨hv.linked, hv.globals.tick.trans hs.2⟩, hv.ring⟩

theorem walkList_eq_foldl (hb : PassBody created id t body f)
    (h : WellLinked created st) (ht : st.xTickCount = t) :
    let s := (st.items id).foldl (visitList id body) st
    walkList id body st = s.setList id ((s.lists id).setIndex (s.items id).head?) :=
  walk_eq_foldl (fun s l => by simp) (fun s l l' => by simp [State.setList])
    (fun s => by simp [State.setList]) (fun s i hs hi => ⟨hs.1.setIndex hi, hs.2⟩)
    ⟨h, ht⟩ (h.wellFormed id).nodup hb.walkBody

/-- The tasks the pass visits. -/
theorem PassBody.members (hb : PassBody created id t body f)
    (h : WellLinked created st) (ht : st.xTickCount = t) :
    walkLog (fun st => st.lists id) (fun st l => st.setList id l) body
      (fun x _ => [x]) st = st.items id :=
  walkLog_members (fun s l => by simp) (fun s l l' => by simp [State.setList])
    (fun s => by simp [State.setList]) (fun s i hs hi => ⟨hs.1.setIndex hi, hs.2⟩)
    ⟨h, ht⟩ (h.wellFormed id).nodup hb.walkBody

theorem walkList_pass (hb : PassBody created id t body f)
    (hid : id ≠ .pendingReady) (h : WellLinked created st)
    (ht : st.xTickCount = t) :
    WellLinked created (walkList id body st) ∧
    SameTick st (walkList id body st) ∧
    ∀ y, (walkList id body st).block y =
      if y ∈ st.items id then f (st.block y) else st.block y := by
  have hpre : ∀ x ∈ st.items id, x ∈ created ∧
      (st.block x).pxContainer = some id := fun x hx => (h.linked id hid x).mp hx
  have hnd := (h.wellFormed id).nodup
  have hpoint := hb.pointwise hid
  rw [walkList_eq_foldl hb h ht]
  have hinv := hpoint.foldl_inv _ st hnd ⟨h, ht⟩ hpre
  refine ⟨hinv.1.setIndex fun x hx => List.mem_of_head? hx, ?_, fun y => ?_⟩
  · have hcursor : ∀ (s : State) (i : Option TaskHandle),
        SameTick s (s.setList id ((s.lists id).setIndex i)) := fun s i =>
      ⟨⟨rfl, rfl, rfl, rfl, rfl⟩, by simp [hid.symm]⟩
    have hrel := hpoint.foldl_rel (R := SameTick) SameTick.refl SameTick.trans
      (fun s x hs hx => (hcursor s (some x)).trans
        (hb.visit hs.1 hs.2 ((hs.1.linked id hid x).mpr hx)).globals)
      _ st hnd ⟨h, ht⟩ hpre
    exact hrel.trans (hcursor _ _)
  · exact hpoint.foldl_obs _ st hnd ⟨h, ht⟩ hpre y

end Pass

/-! ## The blocks after a move -/

/-- Two blocks of one task that differ in the links. -/
theorem unkeyed_eq {b b' : TCB} {c : Option ListId} (hcore : b'.core = b.core)
    (hc : b'.pxContainer = c) (he : b'.inEventList = b.inEventList)
    (hp : b'.uxPriority = b.uxPriority) :
    { b' with xItemValue := 0 } = { b with xItemValue := 0, pxContainer := c } := by
  rcases b with ⟨⟩
  rcases b' with ⟨⟩
  simp only [TCB.core, TCB.mk.injEq] at hcore hc he hp ⊢
  tauto

theorem Readied.block (h : Readied alg x st st₁) :
    st₁.block x = { st.block x with
      pxContainer := readyTarget alg st.xTickCount (st.tcb x) } :=
  unkeyed_eq (h.jobs.core x) h.container (h.event x) (h.priority x)

theorem block_congr (h : st₁.tcb y = st.tcb y) : st₁.block y = st.block y := by
  rw [State.block, h]
  rfl

/-! ## `killTasks` -/

/-- The laxity test on a block. -/
def isHopeless (tick : Nat) (b : TCB) : Prop :=
  b.uxPriority > 0 ∧
    tickAdd (tickSub tick b.startTime) b.xRemainingTicks > b.xTaskPeriod

instance (tick : Nat) (b : TCB) : Decidable (isHopeless tick b) := by
  unfold isHopeless
  infer_instance

/-- What `killTasks` does to the block of a task in ready list 1. -/
def killBlock (tick : Nat) (b : TCB) : TCB :=
  if isHopeless tick b then
    { b with previousDeadlineMet := 0, pxContainer := some .wait }
  else b

theorem killBlock_list (tick : Nat) (b : TCB) :
    (killBlock tick b).pxContainer =
      if isHopeless tick b then some .wait else b.pxContainer := by
  rw [killBlock]
  split <;> rfl

theorem killBlock_priority (tick : Nat) (b : TCB) :
    (killBlock tick b).uxPriority = b.uxPriority := by
  rw [killBlock]
  split <;> rfl

theorem killBlock_period (tick : Nat) (b : TCB) :
    (killBlock tick b).xTaskPeriod = b.xTaskPeriod := by
  rw [killBlock]
  split <;> rfl

theorem killBlock_event (tick : Nat) (b : TCB) :
    (killBlock tick b).inEventList = b.inEventList := by
  rw [killBlock]
  split <;> rfl

theorem checkWeaklyHard_eq (x : TaskHandle) (st : State) :
    ∃ sim, checkWeaklyHard x st = { st with sim := sim } := by
  rw [checkWeaklyHard]
  split
  · exact ⟨_, rfl⟩
  · split
    · exact ⟨_, rfl⟩
    · exact ⟨_, rfl⟩

theorem killBody_kept (h : ¬ isHopeless st.xTickCount (st.tcb x)) :
    killBody x st = st := by
  rw [killBody]
  split
  · next hp =>
      rw [if_neg]
      intro hh
      exact h ⟨hp, by simpa [hopeless] using hh⟩
  · rfl

theorem killBody_killed (h : isHopeless st.xTickCount (st.tcb x)) :
    ∃ sim, killBody x st = addTaskToWaitList x
      ({ st with sim := sim }.modifyTcb x fun b =>
        { b with previousDeadlineMet := 0 }) := by
  have hh : hopeless st x = true := by simpa [hopeless] using h.2
  obtain ⟨sim, hsim⟩ := checkWeaklyHard_eq x
    { st with sim := st.sim.incrementTimesKilled (st.tcb x).xTaskId }
  refine ⟨sim, ?_⟩
  rw [killBody, if_pos h.1, if_pos hh]
  dsimp only
  rw [hsim]

theorem killBody_pass : PassBody created (.ready 1) t killBody (killBlock t) := by
  intro st x h ht hx
  obtain ⟨hxc, hcont⟩ := (h.linked _ (by simp) x).mp hx
  by_cases hh : isHopeless st.xTickCount (st.tcb x)
  · obtain ⟨sim, heq⟩ := killBody_killed hh
    rw [heq]
    have hlinks : SameLinks st ({ st with sim := sim }.modifyTcb x fun b =>
        { b with previousDeadlineMet := 0 }) := by
      refine ⟨rfl, fun y => ?_, fun y => ?_, fun y => ?_, rfl, rfl, rfl⟩ <;>
        by_cases hy : y = x <;> simp [hy]
    have h₁ := h.congr hlinks
    refine
      { linked := h₁.addTaskToWaitList hxc
        self := ?_
        others := fun y hy => by
          rw [addTaskToWaitList_tcb_other hy]
          simp [hy]
        globals := ⟨{ (addTaskToWaitList_sameJobs h₁ hxc).toSameGlobals with },
          addTaskToWaitList_pendingReady (h₁.not_pendingReady hxc)⟩
        ring := Or.inr ?_ }
    · rw [killBlock, if_pos (show isHopeless t (st.block x) from ht ▸ hh),
        State.block, addTaskToWaitList_tcb h₁ hxc]
      simp [State.block]
    · rw [addTaskToWaitList_lists (by simp)
        ((hlinks.container x).trans hcont)]
      rfl
  · rw [killBody_kept hh]
    refine
      { linked := h
        self := ?_
        others := fun _ _ => rfl
        globals := SameTick.refl st
        ring := Or.inl rfl }
    rw [killBlock, if_neg]
    exact fun hc => hh (ht.symm ▸ hc)

/-- The whole of `killTasks`. -/
theorem killTasks_pass (h : WellLinked created st) :
    WellLinked created (killTasks st) ∧ SameTick st (killTasks st) ∧
    ∀ y, (killTasks st).block y =
      if y ∈ st.items (.ready 1) then killBlock st.xTickCount (st.block y)
      else st.block y :=
  walkList_pass killBody_pass (by simp) h rfl

/-! ## `wakeTasks` -/

/-- RTO releases a job that may be missed only to leave it out. -/
def passedOver (alg : Algorithm) (b : TCB) : Prop :=
  alg = .rto ∧ b.weaklyHardConstraint ≠ 0 ∧
    (b.previousDeadlineMet : Int) ≥ (b.weaklyHardConstraint : Int) - 1

instance (alg : Algorithm) (b : TCB) : Decidable (passedOver alg b) := by
  unfold passedOver
  infer_instance

/-- A period of the task begins. -/
def isDue (tick : Nat) (b : TCB) : Prop :=
  b.uxPriority > 0 ∧ tick % b.xTaskPeriod = 0

instance (tick : Nat) (b : TCB) : Decidable (isDue tick b) := by
  unfold isDue
  infer_instance

/-- What `wakeTasks` does to the block of a waiting task. -/
def wakeBlock (alg : Algorithm) (tick : Nat) (b : TCB) : TCB :=
  if isDue tick b then
    if passedOver alg b then
      { b with
        xRemainingTicks := b.xTaskDuration, startTime := tick
        previousDeadlineMet := 0 }
    else
      { b with
        xRemainingTicks := b.xTaskDuration, startTime := tick
        pxContainer := some (.ready b.uxPriority) }
  else b

theorem wakeBlock_list (tick : Nat) (b : TCB) :
    (wakeBlock alg tick b).pxContainer =
      if isDue tick b ∧ ¬ passedOver alg b then some (.ready b.uxPriority)
      else b.pxContainer := by
  rw [wakeBlock]
  by_cases hd : isDue tick b
  · rw [if_pos hd]
    by_cases ho : passedOver alg b
    · rw [if_pos ho, if_neg fun h => h.2 ho]
    · rw [if_neg ho, if_pos ⟨hd, ho⟩]
  · rw [if_neg hd, if_neg fun h => hd h.1]

theorem wakeBlock_priority (tick : Nat) (b : TCB) :
    (wakeBlock alg tick b).uxPriority = b.uxPriority := by
  rw [wakeBlock]
  split
  · split <;> rfl
  · rfl

theorem wakeBlock_period (tick : Nat) (b : TCB) :
    (wakeBlock alg tick b).xTaskPeriod = b.xTaskPeriod := by
  rw [wakeBlock]
  split
  · split <;> rfl
  · rfl

theorem wakeBlock_event (tick : Nat) (b : TCB) :
    (wakeBlock alg tick b).inEventList = b.inEventList := by
  rw [wakeBlock]
  split
  · split <;> rfl
  · rfl

/-- The block with a new job in it. -/
def renewed (x : TaskHandle) (st : State) : State :=
  st.modifyTcb x fun b =>
    { b with xRemainingTicks := b.xTaskDuration, startTime := st.xTickCount }

theorem renewed_links : SameLinks st (renewed x st) := by
  refine ⟨rfl, fun y => ?_, fun y => ?_, fun y => ?_, rfl, rfl, rfl⟩ <;>
    by_cases hy : y = x <;> simp [renewed, hy]

theorem wakeBody_eq_cases (alg : Algorithm) (x : TaskHandle) (st : State) :
    wakeBody alg x st =
      if isDue st.xTickCount (st.tcb x) then
        if passedOver alg (st.tcb x) then
          (renewed x st).modifyTcb x fun b => { b with previousDeadlineMet := 0 }
        else addTaskToReadyList alg x (renewed x st)
      else st := by
  by_cases hd : isDue st.xTickCount (st.tcb x)
  · rw [if_pos hd, wakeBody, if_pos hd.1, if_pos hd.2]
    simp only [State.modifyTcb_tcb, Function.update_self]
    rfl
  · rw [if_neg hd, wakeBody]
    split
    · next hp => rw [if_neg fun hc => hd ⟨hp, hc⟩]
    · rfl

/-- What is not left out the macro puts into a ready list. -/
theorem readyTarget_of_released {tick : Nat} {b : TCB}
    (h : ¬ passedOver alg b) : readyTarget alg tick b = some (.ready b.uxPriority) := by
  rw [readyTarget, if_pos]
  by_cases halg : alg = .rto
  · by_cases h0 : b.weaklyHardConstraint = 0
    · exact Or.inr (Or.inr (Or.inl h0))
    · refine Or.inr (Or.inr (Or.inr ?_))
      rw [mustMeet, decide_eq_true_eq]
      by_contra hm
      exact h ⟨halg, h0, Int.not_lt.mp hm⟩
  · exact Or.inl halg

theorem wakeBody_pass :
    PassBody created .wait t (wakeBody alg) (wakeBlock alg t) := by
  intro st x h ht hx
  obtain ⟨hxc, hcont⟩ := (h.linked _ (by simp) x).mp hx
  have h₁ := h.congr (renewed_links (x := x))
  rw [wakeBody_eq_cases]
  by_cases hd : isDue st.xTickCount (st.tcb x)
  · rw [if_pos hd]
    have hd' : isDue t (st.block x) := ht ▸ hd
    by_cases hl : passedOver alg (st.tcb x)
    · have hl' : passedOver alg (st.block x) := hl
      rw [if_pos hl]
      refine
        { linked := h₁.congr ?_
          self := ?_
          others := fun y hy => by simp [renewed, hy]
          globals := ⟨⟨rfl, rfl, rfl, rfl, rfl⟩, rfl⟩
          ring := Or.inl rfl }
      · refine ⟨rfl, fun y => ?_, fun y => ?_, fun y => ?_, rfl, rfl, rfl⟩ <;>
          by_cases hy : y = x <;> simp [hy]
      · rw [wakeBlock, if_pos hd', if_pos hl']
        simp [State.block, renewed, ht]
    · have hl' : ¬ passedOver alg (st.block x) := hl
      have htarget : readyTarget alg (renewed x st).xTickCount
          ((renewed x st).tcb x) = some (.ready (st.tcb x).uxPriority) := by
        rw [readyTarget_of_released]
        · rw [renewed_links.priority]
        · simpa [renewed, passedOver] using hl
      have hcont₁ : ((renewed x st).tcb x).pxContainer = some .wait :=
        (renewed_links.container x).trans hcont
      have hr := addTaskToReadyList_readied alg h₁ hxc
      rw [if_neg hl]
      refine
        { linked := h₁.addTaskToReadyList hxc
          self := ?_
          others := fun y hy => (hr.others y hy).trans (by simp [renewed, hy])
          globals := ⟨{ hr.jobs.toSameGlobals with }, hr.pendingReady⟩
          ring := Or.inr ?_ }
      · rw [hr.block, htarget, wakeBlock, if_pos hd', if_neg hl']
        simp [State.block, renewed, ht]
      · rw [addTaskToReadyList_lists h₁ hxc hcont₁ (by rw [htarget]; simp)]
        rfl
  · rw [if_neg hd]
    refine
      { linked := h
        self := ?_
        others := fun _ _ => rfl
        globals := SameTick.refl st
        ring := Or.inl rfl }
    rw [wakeBlock, if_neg]
    exact fun hc => hd (ht.symm ▸ hc)

/-- The whole of `wakeTasks`. -/
theorem wakeTasks_pass (h : WellLinked created st) (alg : Algorithm) :
    WellLinked created (wakeTasks alg st) ∧ SameTick st (wakeTasks alg st) ∧
    ∀ y, (wakeTasks alg st).block y =
      if y ∈ st.items .wait then wakeBlock alg st.xTickCount (st.block y)
      else st.block y :=
  walkList_pass wakeBody_pass (by simp) h rfl

/-! ## The accounting -/

/-- The block of a job that has been charged its last tick. -/
def completeBlock (tick : Nat) (b : TCB) : TCB :=
  if tickSub tick b.startTime ≤ b.xTaskPeriod then
    { b with
      previousDeadlineMet :=
        if b.weaklyHardConstraint ≠ 0 then (b.previousDeadlineMet + 1) % 2 ^ 8
        else b.previousDeadlineMet
      pxContainer := some .wait }
  else b

/-- What the accounting does to the block of the running task. -/
def chargeBlock (tick : Nat) (b : TCB) : TCB :=
  if b.xTaskPeriod ≠ 0 then
    let b := { b with xRemainingTicks := b.xRemainingTicks - 1 }
    if b.xRemainingTicks = 0 then completeBlock tick b else b
  else b

theorem chargeBlock_of_ordinary {tick : Nat} {b : TCB} (h : b.xTaskPeriod = 0) :
    chargeBlock tick b = b := by
  rw [chargeBlock, if_neg (not_not_intro h)]

theorem completeBlock_list (tick : Nat) (b : TCB) :
    (completeBlock tick b).pxContainer =
      if tickSub tick b.startTime ≤ b.xTaskPeriod then some .wait
      else b.pxContainer := by
  rw [completeBlock]
  split <;> rfl

/-- The accounting of tick `t` takes the job out of the ready list. -/
def completesAt (t : Nat) (b : TCB) : Prop :=
  b.xTaskPeriod ≠ 0 ∧ b.xRemainingTicks ≤ 1 ∧
    tickSub t b.startTime ≤ b.xTaskPeriod

instance (t : Nat) (b : TCB) : Decidable (completesAt t b) :=
  inferInstanceAs (Decidable (_ ∧ _ ∧ _))

theorem chargeBlock_list (tick : Nat) (b : TCB) :
    (chargeBlock tick b).pxContainer =
      if completesAt tick b then some .wait else b.pxContainer := by
  by_cases hp : b.xTaskPeriod = 0
  · rw [chargeBlock_of_ordinary hp, if_neg fun h => h.1 hp]
  · rw [chargeBlock, if_pos hp]
    dsimp only
    by_cases h0 : b.xRemainingTicks - 1 = 0
    · rw [if_pos h0, completeBlock_list]
      refine if_congr ?_ rfl rfl
      exact ⟨fun hle => ⟨hp, by omega, hle⟩, fun h => h.2.2⟩
    · rw [if_neg h0, if_neg fun h => h0 (Nat.sub_eq_zero_of_le h.2.1)]

theorem chargeBlock_priority (tick : Nat) (b : TCB) :
    (chargeBlock tick b).uxPriority = b.uxPriority := by
  rw [chargeBlock]
  split
  · dsimp only
    split
    · rw [completeBlock]
      split <;> rfl
    · rfl
  · rfl

theorem chargeBlock_period (tick : Nat) (b : TCB) :
    (chargeBlock tick b).xTaskPeriod = b.xTaskPeriod := by
  rw [chargeBlock]
  split
  · dsimp only
    split
    · rw [completeBlock]
      split <;> rfl
    · rfl
  · rfl

/-- The report and the credit of a job that is done in time. -/
def creditState (x : TaskHandle) (st : State) : State :=
  let st' := { st with
    sim := st.sim.setReport (st.tcb x).xTaskId
      ((st.tcb x).startTime / (st.tcb x).xTaskPeriod) }
  if (st.tcb x).weaklyHardConstraint ≠ 0 then
    st'.modifyTcb x fun b =>
      { b with previousDeadlineMet := (b.previousDeadlineMet + 1) % 2 ^ 8 }
  else st'

theorem creditState_links : SameLinks st (creditState x st) := by
  rw [creditState]
  split
  · refine ⟨rfl, fun y => ?_, fun y => ?_, fun y => ?_, rfl, rfl, rfl⟩ <;>
      by_cases hy : y = x <;> simp [hy]
  · exact ⟨rfl, fun _ => rfl, fun _ => rfl, fun _ => rfl, rfl, rfl, rfl⟩

theorem creditState_globals : SameTick st (creditState x st) := by
  rw [creditState]
  split <;> exact ⟨⟨rfl, rfl, rfl, rfl, rfl⟩, rfl⟩

theorem creditState_tcb_other (hy : y ≠ x) :
    (creditState x st).tcb y = st.tcb y := by
  rw [creditState]
  split
  · simp [hy]
  · rfl

theorem creditState_tcb : (creditState x st).tcb x =
    { st.tcb x with
      previousDeadlineMet :=
        if (st.tcb x).weaklyHardConstraint ≠ 0 then
          ((st.tcb x).previousDeadlineMet + 1) % 2 ^ 8
        else (st.tcb x).previousDeadlineMet } := by
  rw [creditState]
  split <;> simp

theorem completeJob_pass (h : WellLinked created st) (hx : x ∈ created) :
    WellLinked created (completeJob x st) ∧ SameTick st (completeJob x st) ∧
    (completeJob x st).block x = completeBlock st.xTickCount (st.block x) ∧
    ∀ y, y ≠ x → (completeJob x st).tcb y = st.tcb y := by
  by_cases hlate : tickSub st.xTickCount (st.tcb x).startTime ≤ (st.tcb x).xTaskPeriod
  · have heq : completeJob x st = addTaskToWaitList x (creditState x st) :=
      if_pos hlate
    have h₁ := h.congr (creditState_links (x := x))
    rw [heq]
    have hmoved : SameTick (creditState x st)
        (addTaskToWaitList x (creditState x st)) :=
      ⟨(addTaskToWaitList_sameJobs h₁ hx).toSameGlobals,
        addTaskToWaitList_pendingReady (h₁.not_pendingReady hx)⟩
    refine ⟨h₁.addTaskToWaitList hx, creditState_globals.trans hmoved, ?_,
      fun y hy => ?_⟩
    · have hblock : completeBlock st.xTickCount (st.block x) = _ := if_pos hlate
      rw [hblock, State.block, addTaskToWaitList_tcb h₁ hx, creditState_tcb]
      rfl
    · rw [addTaskToWaitList_tcb_other hy, creditState_tcb_other hy]
  · have heq : completeJob x st =
        { st with console := st.console ++ veryBadMessages st x } := if_neg hlate
    have hblock : completeBlock st.xTickCount (st.block x) = _ := if_neg hlate
    rw [heq, hblock]
    exact ⟨h.congr ⟨rfl, fun _ => rfl, fun _ => rfl, fun _ => rfl, rfl, rfl, rfl⟩,
      ⟨⟨rfl, rfl, rfl, rfl, rfl⟩, rfl⟩, rfl, fun _ _ => rfl⟩

/-- The tick taken from the running job. -/
def workedState (c : TaskHandle) (st : State) : State :=
  st.modifyTcb c fun b => { b with xRemainingTicks := b.xRemainingTicks - 1 }

theorem workedState_links : SameLinks st (workedState x st) := by
  refine ⟨rfl, fun y => ?_, fun y => ?_, fun y => ?_, rfl, rfl, rfl⟩ <;>
    by_cases hy : y = x <;> simp [workedState, hy]

theorem chargeCurrent_working (hc : st.pxCurrentTCB = some x)
    (hp : (st.tcb x).xTaskPeriod ≠ 0) :
    chargeCurrent st =
      if ((workedState x st).tcb x).xRemainingTicks = 0 then
        completeJob x (workedState x st)
      else workedState x st := by
  have hworked : (if (st.tcb x).xRemainingTicks > 0 then
        st.modifyTcb x fun b => { b with xRemainingTicks := b.xRemainingTicks - 1 }
      else st) = workedState x st := by
    split
    · rfl
    · next h0 =>
        have hsame : { st.tcb x with
            xRemainingTicks := (st.tcb x).xRemainingTicks - 1 } = st.tcb x := by
          rw [show (st.tcb x).xRemainingTicks - 1 = (st.tcb x).xRemainingTicks by
            omega]
        rw [workedState, State.modifyTcb, hsame, Function.update_eq_self]
  rw [chargeCurrent, hc]
  dsimp only
  rw [if_pos hp, hworked]

theorem chargeCurrent_pass (h : WellLinked created st) :
    WellLinked created (chargeCurrent st) ∧ SameTick st (chargeCurrent st) ∧
    ∀ y, (chargeCurrent st).block y =
      if st.pxCurrentTCB = some y then chargeBlock st.xTickCount (st.block y)
      else st.block y := by
  cases hc : st.pxCurrentTCB with
  | none =>
      have heq : chargeCurrent st = st := by rw [chargeCurrent, hc]
      rw [heq]
      exact ⟨h, SameTick.refl st, fun y => by rw [if_neg (by simp)]⟩
  | some c =>
      by_cases hp : (st.tcb c).xTaskPeriod ≠ 0
      · have h₁ := h.congr (workedState_links (x := c))
        have hself : (workedState c st).block c =
            { st.block c with xRemainingTicks := (st.tcb c).xRemainingTicks - 1 } := by
          simp [workedState, State.block]
        have hother : ∀ y, y ≠ c → (workedState c st).tcb y = st.tcb y :=
          fun y hy => by simp [workedState, hy]
        have hg : SameTick st (workedState c st) := ⟨⟨rfl, rfl, rfl, rfl, rfl⟩, rfl⟩
        have hcharge : chargeBlock st.xTickCount (st.block c) =
            if ((workedState c st).tcb c).xRemainingTicks = 0 then
              completeBlock st.xTickCount ((workedState c st).block c)
            else (workedState c st).block c := by
          have hrem : ((workedState c st).tcb c).xRemainingTicks =
              (st.tcb c).xRemainingTicks - 1 := by simp [workedState]
          rw [hself, hrem, chargeBlock,
            if_pos (show (st.block c).xTaskPeriod ≠ 0 from hp)]
          rfl
        rw [chargeCurrent_working hc hp]
        split
        · next hdone =>
            obtain ⟨hw, hgl, hblock, htcb⟩ :=
              completeJob_pass h₁ (h.current c hc)
            refine ⟨hw, hg.trans hgl, fun y => ?_⟩
            by_cases hy : c = y
            · subst hy
              rw [if_pos rfl, hblock, hcharge, if_pos hdone]
              rfl
            · have hyc : y ≠ c := fun he => hy he.symm
              rw [if_neg (by simpa using hy)]
              exact block_congr ((htcb y hyc).trans (hother y hyc))
        · next hmore =>
            refine ⟨h₁, hg, fun y => ?_⟩
            by_cases hy : c = y
            · subst hy
              rw [if_pos rfl, hcharge, if_neg hmore]
            · rw [if_neg (by simpa using hy)]
              exact block_congr (hother y fun he => hy he.symm)
      · have heq : chargeCurrent st = st := by
          rw [chargeCurrent, hc]
          exact if_neg hp
        rw [heq]
        refine ⟨h, SameTick.refl st, fun y => ?_⟩
        split
        · next hy =>
            rw [Option.some_inj] at hy
            subst hy
            exact (if_neg hp : chargeBlock _ (st.block c) = st.block c).symm
        · rfl

end FreeRtosSim
