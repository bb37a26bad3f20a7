import FreeRtosSim.Proofs.Heads

/-!
# When a tick asks for a switch

`xTaskIncrementTick` sets `xSwitchRequired` in two places only: where a
delayed task of at least the running task's priority is unblocked, and where
a yield is pending. The parts of a tick that this program adds never set it:
the running job may be completed or killed and another job released in front
of it, and the tick still returns `pdFALSE`.

`switchSeen` is the condition under which nothing is missed: one of the two
places applies, or the running task keeps the processor. The latter is stated
about the state before the tick: its job does not end, and no task that waits
by the time of `wakeTasks` comes out in front of it.
-/

namespace FreeRtosSim

variable {created : List TaskHandle} {alg : Algorithm} {st st₁ st₂ : State}
  {x y c : TaskHandle} {id : ListId} {t p q : Nat} {b : TCB}

/-! ## The condition -/

/-- The block once the tick is charged. -/
def chargedTcb (b : TCB) : TCB :=
  if b.xTaskPeriod ≠ 0 then { b with xRemainingTicks := b.xRemainingTicks - 1 } else b

/-- Tick `t` ends the running job, because it completes or because it is
killed. -/
def endsAt (t : Nat) (b : TCB) : Prop :=
  completesAt t b ∨ (b.uxPriority = 1 ∧ isHopeless t (chargedTcb b))

/-- A task with the block `b` waits when `wakeTasks` runs in tick `t`: it did
before, or `killTasks` has just put it there. -/
def waitsAs (t : Nat) (st : State) (x : TaskHandle) (b : TCB) : Prop :=
  (x ∈ st.items .wait ∧ b = st.tcb x) ∨
    (x ∈ st.items (.ready 1) ∧ isHopeless t (st.tcb x) ∧ b = killBlock t (st.tcb x))

/-- A task released in tick `t` is put in front of the task with block `bc`. -/
def aheadOf (alg : Algorithm) (t : Nat) (b bc : TCB) : Prop :=
  isDue t b ∧ ¬ passedOver alg b ∧
    (bc.uxPriority < b.uxPriority ∨
      (b.uxPriority = bc.uxPriority ∧ macroKey alg t b < bc.xItemValue ∧
        macroKey alg t b ≠ portMaxDelay))

/-- The running task keeps the processor through the tick. -/
structure KeepsProcessor (alg : Algorithm) (st : State) (c : TaskHandle) : Prop where
  goesOn : ¬ endsAt (tickAdd st.xTickCount 1) (st.tcb c)
  first : ∀ x, x ≠ c → ∀ b, waitsAs (tickAdd st.xTickCount 1) st x b →
    ¬ aheadOf alg (tickAdd st.xTickCount 1) b (st.tcb c)

/-- The tick looks at what matters, or nothing that matters happens. -/
def switchSeen (alg : Algorithm) (st : State) (c : TaskHandle) : Prop :=
  st.xYieldPending = true ∨ (∃ x ∈ dueTasks st, outranksCurrent x st = true) ∨
    KeepsProcessor alg st c

/-- The job ends, and the next job of the same task is released in the same
tick. -/
def startsOver (st : State) (c : TaskHandle) : Prop :=
  endsAt (tickAdd st.xTickCount 1) (st.tcb c) ∧
    tickAdd st.xTickCount 1 % (st.tcb c).xTaskPeriod = 0

/-! ## The accounting -/

theorem workedState_tcb (hp : (st.tcb x).xTaskPeriod ≠ 0) :
    (workedState x st).tcb x = chargedTcb (st.tcb x) := by
  rw [chargedTcb, if_pos hp]
  simp [workedState]

/-- A job that goes on stays where it is. -/
theorem chargeCurrent_goesOn (hc : st.pxCurrentTCB = some c)
    (h : ¬ completesAt st.xTickCount (st.tcb c)) :
    (chargeCurrent st).lists = st.lists ∧
    (chargeCurrent st).tcb c = chargedTcb (st.tcb c) ∧
    ∀ y, y ≠ c → (chargeCurrent st).tcb y = st.tcb y := by
  have hother : ∀ y, y ≠ c → (workedState c st).tcb y = st.tcb y :=
    fun y hy => by simp [workedState, hy]
  by_cases hp : (st.tcb c).xTaskPeriod ≠ 0
  · have hself : (workedState c st).tcb c = chargedTcb (st.tcb c) := workedState_tcb hp
    rw [chargeCurrent_working hc hp]
    split
    · next hdone =>
        -- out of ticks but late: the job is only reported
        have hrem : (st.tcb c).xRemainingTicks ≤ 1 := by
          rw [hself, chargedTcb, if_pos hp] at hdone
          have hdone : (st.tcb c).xRemainingTicks - 1 = 0 := hdone
          omega
        have hlate : ¬ tickSub (workedState c st).xTickCount
            ((workedState c st).tcb c).startTime ≤ ((workedState c st).tcb c).xTaskPeriod := by
          rw [hself, chargedTcb, if_pos hp]
          intro hle
          exact h ⟨hp, hrem, hle⟩
        rw [completeJob]
        dsimp only
        rw [if_neg hlate]
        exact ⟨rfl, hself, hother⟩
    · exact ⟨rfl, hself, hother⟩
  · have heq : chargeCurrent st = st := by
      rw [chargeCurrent, hc]
      exact if_neg hp
    rw [heq, chargedTcb, if_neg hp]
    exact ⟨rfl, rfl, fun _ _ => rfl⟩

/-- A job that is complete waits. -/
theorem chargeBlock_completes (h : completesAt t b) :
    (chargeBlock t b).pxContainer = some .wait := by
  rw [chargeBlock_list, if_pos h]

/-! ## `killTasks` -/

theorem killBody_items (h : WellLinked created st) (hx : x ∈ st.items (.ready 1)) :
    (killBody x st).items (.ready 1) = st.items (.ready 1) ∨
      (isHopeless st.xTickCount (st.tcb x) ∧
        (killBody x st).items (.ready 1) = (st.items (.ready 1)).erase x) := by
  by_cases hh : isHopeless st.xTickCount (st.tcb x)
  · rcases (killBody_pass st x h rfl hx).ring with heq | heq
    · exact Or.inl (congrArg CursorList.items heq)
    · exact Or.inr ⟨hh, congrArg CursorList.items heq⟩
  · rw [killBody_kept hh]
    exact Or.inl rfl

/-- A kill behind the head leaves the head alone. -/
theorem killBody_isTop (h : WellLinked created st) (hx : x ∈ st.items (.ready 1))
    (htop : IsTop st c p)
    (hc : x = c → p = 1 → ¬ isHopeless st.xTickCount (st.tcb x)) :
    IsTop (killBody x st) c p := by
  have hcont := ((h.linked _ (by simp) x).mp hx).2
  have hsame : ∀ q, q ≠ 1 → (killBody x st).items (.ready q) = st.items (.ready q) := by
    intro q hq
    refine congrArg CursorList.items (killBody_lists ?_ (by simp))
    rw [hcont]
    intro he
    exact hq (ListId.ready.inj (Option.some_inj.mp he)).symm
  have hone := killBody_items h hx
  constructor
  · by_cases hp : p = 1
    · subst hp
      rcases hone with heq | ⟨hh, heq⟩
      · rw [heq]
        exact htop.head
      · have hxc : c ≠ x := fun he => hc he.symm rfl hh
        obtain ⟨l, hl⟩ := List.head?_eq_some_iff.mp htop.head
        rw [heq, hl, List.erase_cons_tail (by simpa using hxc)]
        rfl
    · rw [hsame p hp]
      exact htop.head
  · intro q hlo hhi
    by_cases hq : q = 1
    · subst hq
      have hnil := htop.upper 1 hlo hhi
      rw [hnil] at hx
      exact absurd hx List.not_mem_nil
    · rw [hsame q hq]
      exact htop.upper q hlo hhi

theorem IsTop.setIndex (h : IsTop st c p) (i : Option TaskHandle) :
    IsTop (st.setList id ((st.lists id).setIndex i)) c p :=
  h.congr fun _ _ => setIndex_items st _ id i

/-- The kills behind the head leave the head alone. -/
theorem killTasks_isTop (h : WellLinked created st) (htop : IsTop st c p)
    (hc : p = 1 → ¬ isHopeless st.xTickCount (st.tcb c)) :
    IsTop (killTasks st) c p := by
  have hpass : PassBody created (.ready 1) st.xTickCount killBody
    (killBlock st.xTickCount) := killBody_pass
  have hstep := (hpass.pointwise (by simp)).also (J := fun s => IsTop s c p)
    (Q := fun x b => x = c → p = 1 → ¬ isHopeless st.xTickCount b)
    fun s x hs htop hx hno => by
      have hmem := (hs.1.linked (.ready 1) (by simp) x).mpr hx
      have htick : (s.setList (.ready 1)
        ((s.lists (.ready 1)).setIndex (some x))).xTickCount = st.xTickCount := hs.2
      refine killBody_isTop (hs.1.setIndex fun _ hy => Option.some_inj.mp hy ▸ hmem)
        (by rw [setIndex_items]; exact hmem) (htop.setIndex _) ?_
      rw [htick]
      exact hno
  have hfold := hstep.foldl_inv _ st (h.wellFormed (.ready 1)).nodup
    ⟨⟨h, rfl⟩, htop⟩ fun x hx => ⟨(h.linked _ (by simp) x).mp hx, fun he => he ▸ hc⟩
  rw [killTasks, walkList_eq_foldl hpass h rfl]
  exact hfold.2.setIndex _

/-! ## `wakeTasks` -/

/-- Whether an insertion displaces the head of the list. -/
theorem keyedList_head {v : Nat} (hx : c ≠ x) :
    (keyedList st p v x).items.head? = some c ↔
      (st.items (.ready p)).head? = some c ∧
        ¬ (v < (st.tcb c).xItemValue ∧ v ≠ portMaxDelay) := by
  have hxc : ¬ x = c := fun he => hx he.symm
  rw [keyedList, State.items]
  cases hitems : (st.lists (.ready p)).items with
  | nil =>
      split
      · simp [CursorList.append, hitems, hxc]
      · simp [CursorList.insertSorted, hitems, hxc]
  | cons a l =>
      split
      · next hv => simp [CursorList.append, hitems, hv]
      · next hv =>
          rw [CursorList.insertSorted, hitems, List.orderedInsert_cons]
          by_cases hac : a = c
          · subst hac
            by_cases hlt : v < (st.tcb a).xItemValue
            · simp [hx, hlt, hxc, hv]
            · simp [hx, hlt]
          · dsimp only
            rw [if_pos rfl]
            generalize (if a = x then v else (st.tcb a).xItemValue) = k
            split
            · simp [hxc, hac]
            · simp [hac]

/-- A release displaces the head if it is put in front of it. -/
theorem keyedState_isTop {v : Nat} (hx : c ≠ x)
    (hmax : (st.tcb x).uxPriority < configMaxPriorities) :
    IsTop (keyedState x v st) c p ↔ IsTop st c p ∧
      ¬ (p < (st.tcb x).uxPriority ∨ ((st.tcb x).uxPriority = p ∧
        v < (st.tcb c).xItemValue ∧ v ≠ portMaxDelay)) := by
  have hself : (keyedState x v st).lists (.ready (st.tcb x).uxPriority) =
      keyedList st (st.tcb x).uxPriority v x := keyedState_lists
  have hother : ∀ q, q ≠ (st.tcb x).uxPriority →
      (keyedState x v st).items (.ready q) = st.items (.ready q) := by
    intro q hq
    refine congrArg CursorList.items (keyedState_lists_other ?_)
    exact fun he => hq (ListId.ready.inj he)
  have hmem : x ∈ (keyedList st (st.tcb x).uxPriority v x).items := by
    rw [keyedList]
    split
    · simp [CursorList.append]
    · simp [CursorList.insertSorted]
  rcases Nat.lt_trichotomy p (st.tcb x).uxPriority with hlt | heq | hgt
  · -- a higher list is no longer empty
    refine ⟨fun h => ?_, fun h => absurd (Or.inl hlt) h.2⟩
    have hnil := h.upper _ hlt hmax
    rw [State.items, hself] at hnil
    rw [hnil] at hmem
    exact absurd hmem List.not_mem_nil
  · have hhead : (keyedList st p v x).items.head? = some c ↔ _ := keyedList_head hx
    have hupper : (∀ q, p < q → q < configMaxPriorities →
          (keyedState x v st).items (.ready q) = []) ↔
        ∀ q, p < q → q < configMaxPriorities → st.items (.ready q) = [] := by
      refine forall_congr' fun q => forall_congr' fun hlo => ?_
      rw [hother q (heq ▸ Nat.ne_of_gt hlo)]
    rw [← heq] at hself
    constructor
    · intro h
      have h₁ := h.head
      rw [State.items, hself, hhead] at h₁
      refine ⟨⟨h₁.1, hupper.mp h.upper⟩, ?_⟩
      rintro (hlt | ⟨-, hv⟩)
      · exact absurd hlt (by omega)
      · exact h₁.2 hv
    · rintro ⟨h, hno⟩
      refine ⟨?_, hupper.mpr h.upper⟩
      rw [State.items, hself, hhead]
      exact ⟨h.head, fun hv => hno (Or.inr ⟨heq.symm, hv⟩)⟩
  · have hsame : ∀ q, p ≤ q →
        (keyedState x v st).items (.ready q) = st.items (.ready q) :=
      fun q hq => hother q (Nat.ne_of_gt (Nat.lt_of_lt_of_le hgt hq))
    refine ⟨fun h => ⟨h.congr fun q hq => (hsame q hq).symm, ?_⟩,
      fun h => h.1.congr hsame⟩
    rintro (hlt | ⟨he, -⟩) <;> omega

/-- One visit of `wakeTasks`. -/
theorem wakeBody_isTop (h : WellLinked created st) (hx : x ∈ st.items .wait)
    (hc : c ≠ x) (hp : (st.tcb c).uxPriority = p) :
    IsTop (wakeBody alg x st) c p ↔
      IsTop st c p ∧ ¬ aheadOf alg st.xTickCount (st.tcb x) (st.tcb c) := by
  obtain ⟨hxc, hcont⟩ := (h.linked _ (by simp) x).mp hx
  by_cases hd : isDue st.xTickCount (st.tcb x)
  · by_cases hl : passedOver alg (st.tcb x)
    · have hlists : (wakeBody alg x st).lists = st.lists := by
        rw [wakeBody_eq_cases, if_pos hd, if_pos hl]
        rfl
      have hitems : ∀ q, (wakeBody alg x st).items (.ready q) = st.items (.ready q) :=
        fun q => congrArg CursorList.items (congrFun hlists _)
      refine ⟨fun htop => ⟨htop.congr fun q _ => (hitems q).symm, ?_⟩,
        fun htop => htop.1.congr fun q _ => hitems q⟩
      exact fun hahead => hahead.2.1 hl
    · have hout : ∀ q, (uxListRemove x (renewed x st)).items (.ready q) =
          st.items (.ready q) := by
        intro q
        refine congrArg CursorList.items ?_
        rw [uxListRemove_lists]
        · rfl
        · rw [renewed_links.container, hcont]
          simp
      have hprio : ((uxListRemove x (renewed x st)).tcb x).uxPriority =
          (st.tcb x).uxPriority := by
        rw [uxListRemove_tcb]
        simp [renewed]
      have hkeep : (uxListRemove x (renewed x st)).tcb c = st.tcb c := by
        rw [uxListRemove_tcb_other hc]
        simp [renewed, hc]
      rw [wakeBody_released hd hl, keyedState_isTop hc (by rw [hprio]; exact h.priority x hxc),
        hprio, hkeep]
      refine and_congr ?_ (not_congr ?_)
      · exact ⟨fun htop => htop.congr fun q _ => (hout q).symm,
          fun htop => htop.congr fun q _ => hout q⟩
      · rw [aheadOf, hp]
        exact ⟨fun hv => ⟨hd, hl, hv⟩, fun hv => hv.2.2⟩
  · rw [wakeBody_eq_cases, if_neg hd]
    exact ⟨fun htop => ⟨htop, fun hahead => hd hahead.1⟩, fun htop => htop.1⟩

/-- The head after `wakeTasks`. -/
theorem wakeTasks_isTop (h : WellLinked created st) (hc : c ∉ st.items .wait)
    (hp : (st.tcb c).uxPriority = p) :
    IsTop (wakeTasks alg st) c p ↔ IsTop st c p ∧
      ∀ x ∈ st.items .wait, ¬ aheadOf alg st.xTickCount (st.tcb x) (st.tcb c) := by
  have hpass : PassBody created .wait st.xTickCount (wakeBody alg)
    (wakeBlock alg st.xTickCount) := wakeBody_pass
  have htcb : TcbBody created .wait st.xTickCount (wakeBody alg)
      (wokenTcb alg st.xTickCount) := by
    intro s x _ ht _
    rw [wakeBody_tcb, ht]
  have hpoint := (hpass.pointwise_tcb htcb (by simp)).freeze c (st.tcb c)
  have hflag := hpoint.foldl_flag (Q := fun s => IsTop s c p)
    (G := fun _ b => ¬ aheadOf alg st.xTickCount b (st.tcb c))
    (by
      intro s x hs hx
      have hmem := (hs.1.1.linked .wait (by simp) x).mpr hx.1
      have hl : WellLinked created
          (s.setList .wait ((s.lists .wait).setIndex (some x))) :=
        hs.1.1.setIndex fun _ hy => Option.some_inj.mp hy ▸ hmem
      have hprio : ((s.setList .wait ((s.lists .wait).setIndex (some x))).tcb
          c).uxPriority = p := by
        show (s.tcb c).uxPriority = p
        rw [hs.2, hp]
      have hbody : IsTop (wakeBody alg x
          (s.setList .wait ((s.lists .wait).setIndex (some x)))) c p ↔ _ :=
        wakeBody_isTop hl (by rw [setIndex_items]; exact hmem) hx.2 hprio
      rw [← hs.2, ← hs.1.2]
      refine hbody.trans (and_congr_left' ?_)
      exact ⟨fun htop => htop.congr fun _ _ => (setIndex_items s _ .wait _).symm,
        fun htop => htop.setIndex _⟩)
    _ st (h.wellFormed .wait).nodup ⟨⟨h, rfl⟩, rfl⟩
    fun x hx => ⟨(h.linked _ (by simp) x).mp hx, fun he => hc (he ▸ hx)⟩
  rw [wakeTasks, walkList_eq_foldl hpass h rfl]
  rw [← hflag]
  exact ⟨fun htop => htop.congr fun _ _ => (setIndex_items _ _ .wait _).symm,
    fun htop => htop.setIndex _⟩

/-- A waiting task heads a ready list after `wakeTasks` only if it is due. -/
theorem wakeTasks_due (h : WellLinked created st) (hx : c ∈ created)
    (hc : (st.tcb c).pxContainer = some .wait)
    (htop : IsTop (wakeTasks alg st) c p) : isDue st.xTickCount (st.tcb c) := by
  obtain ⟨hw, -, hb⟩ := wakeTasks_pass h alg
  have hin : c ∈ (wakeTasks alg st).items (.ready p) := List.mem_of_head? htop.head
  have hcont := ((hw.linked _ (by simp) c).mp hin).2
  have hmem : c ∈ st.items .wait := (h.linked _ (by simp) c).mpr ⟨hx, hc⟩
  have hblock := hb c
  rw [if_pos hmem] at hblock
  by_contra hd
  rw [wakeBlock, if_neg (show ¬ isDue _ (st.block c) from hd)] at hblock
  have hsame : ((wakeTasks alg st).block c).pxContainer = (st.block c).pxContainer := by
    rw [hblock]
  rw [show (st.block c).pxContainer = some .wait from hc] at hsame
  rw [show ((wakeTasks alg st).block c).pxContainer = some (.ready p) from hcont] at hsame
  exact absurd hsame (by simp)

/-- The tasks that wait when `wakeTasks` runs, for a task that the tick has
not touched before `killTasks`. -/
theorem waitsAs_iff (h : WellLinked created st) (h₁ : WellLinked created st₁)
    (hx : x ∈ created) (hsame : st₁.tcb x = st.tcb x) :
    (x ∈ (killTasks st₁).items .wait ∧ b = (killTasks st₁).tcb x) ↔
      waitsAs st₁.xTickCount st x b := by
  obtain ⟨h₂, -, -⟩ := killTasks_pass h₁
  have htcb := killTasks_tcb h₁ x
  have hlink := h₂.linked .wait (by simp) x
  have hready := h₁.linked (.ready 1) (by simp) x
  have hready' := h.linked (.ready 1) (by simp) x
  have hwait' := h.linked .wait (by simp) x
  rw [hsame] at htcb hready
  rw [waitsAs, hlink, hready', hwait']
  by_cases hr : x ∈ st₁.items (.ready 1)
  · have hcont := (hready.mp hr).2
    rw [if_pos hr] at htcb
    rw [htcb, hcont]
    by_cases hh : isHopeless st₁.xTickCount (st.tcb x)
    · simp [killBlock, hh, hx]
    · simp [killBlock, hh, hcont]
  · rw [if_neg hr] at htcb
    have hno : (st.tcb x).pxContainer ≠ some (.ready 1) := fun hc =>
      hr (hready.mpr ⟨hx, hc⟩)
    rw [htcb]
    simp [hno, hx]

/-- What waits that way has not been unblocked by the tick. -/
theorem waitsAs.idle (hw : waitsAs t st x b) (h : WellLinked created st) :
    x ∈ created ∧ x ∉ dueTasks st := by
  have hcont : x ∈ created ∧ ((st.tcb x).pxContainer = some .wait ∨
      (st.tcb x).pxContainer = some (.ready 1)) := by
    rcases hw with ⟨hin, -⟩ | ⟨hin, -, -⟩
    · have hc := (h.linked _ (by simp) x).mp hin
      exact ⟨hc.1, Or.inl hc.2⟩
    · have hc := (h.linked _ (by simp) x).mp hin
      exact ⟨hc.1, Or.inr hc.2⟩
  refine ⟨hcont.1, fun hdue => ?_⟩
  rcases h.due_container hdue with hd | hd <;> rw [hd] at hcont <;> simp at hcont

/-! ## The whole tick -/

theorem xTaskIncrementTick_stages {sw : Bool} (hs : st.uxSchedulerSuspended = 0)
    (hok : xTaskIncrementTick alg st = .ok (sw, st₁)) :
    ∃ st₀, tickPrologue alg st = .ok (sw, st₀) ∧
      st₁ = wakeTasks alg (killTasks (chargeCurrent st₀)) := by
  rw [xTaskIncrementTick, if_pos hs] at hok
  cases hpro : tickPrologue alg st with
  | error e =>
      rw [hpro] at hok
      exact absurd hok (by simp [bind, Except.bind])
  | ok r =>
      rw [hpro] at hok
      simp only [bind, Except.bind] at hok
      split at hok
      · exact absurd hok (by simp [exitFunction])
      · simp only [pure, Except.pure, Except.ok.injEq, Prod.mk.injEq] at hok
        exact ⟨r.2, by rw [← hok.1], hok.2.symm⟩

/-- A tick that unblocks nothing of the running task's priority, from the
running task `c` at the head. -/
structure QuietStart (created : List TaskHandle) (c : TaskHandle) (p : Nat)
    (st st₀ : State) : Prop where
  housed : Housed created st
  current : st.pxCurrentTCB = some c
  top : IsTop st c p
  low : ∀ x ∈ dueTasks st, (st.tcb x).uxPriority < p
  quiet : QuietPrologue p st st₀

namespace QuietStart

variable {st₀ : State}

theorem running (h : QuietStart created c p st st₀) : c ∈ created ∧
    (st.tcb c).pxContainer = some (.ready p) ∧ (st.tcb c).uxPriority = p := by
  have hin : c ∈ st.items (.ready p) := List.mem_of_head? h.top.head
  obtain ⟨hx, hc⟩ := (h.housed.ticking.linked.linked _ (by simp) c).mp hin
  exact ⟨hx, hc, h.housed.homed c hx p hc⟩

theorem running_tcb (h : QuietStart created c p st st₀) : st₀.tcb c = st.tcb c := by
  refine h.quiet.others c fun hdue => ?_
  exact h.housed.ticking.linked.due_not_ready hdue p h.running.2.1

theorem isTop (h : QuietStart created c p st st₀) : IsTop st₀ c p :=
  h.top.congr fun q hq => congrArg CursorList.items (h.quiet.lists q hq)

/-- What the tick unblocks stays below the running task. -/
theorem due_low (h : QuietStart created c p st st₀) (hpro : Prologue created alg st st₀)
    (hx : x ∈ dueTasks st) (hxc : x ≠ c) :
    ((killTasks (chargeCurrent st₀)).tcb x).uxPriority < p := by
  obtain ⟨h₁, -, hb₁⟩ := chargeCurrent_pass hpro.linked
  obtain ⟨-, -, hb₂⟩ := killTasks_pass h₁
  have hcur : st₀.pxCurrentTCB = some c := hpro.current.trans h.current
  have hno : st₀.pxCurrentTCB ≠ some x := by
    rw [hcur]
    exact fun he => hxc (Option.some_inj.mp he).symm
  have hprio : ((killTasks (chargeCurrent st₀)).block x).uxPriority =
      (st.block x).uxPriority := by
    rw [hb₂, hb₁, if_neg hno, hpro.block, if_pos hx]
    split
    · rw [killBlock_priority]
      rfl
    · rfl
  exact hprio.trans_lt (h.low x hx)

/-- The job ends in this tick: if the task is at the head again, it has been
released again. -/
theorem ended (h : QuietStart created c p st st₀) (hpro : Prologue created alg st st₀)
    (hend : endsAt (tickAdd st.xTickCount 1) (st.tcb c))
    (htop : IsTop (wakeTasks alg (killTasks (chargeCurrent st₀))) c q) :
    startsOver st c := by
  obtain ⟨hx, hcont, hp⟩ := h.running
  obtain ⟨h₁, hg₁, hb₁⟩ := chargeCurrent_pass hpro.linked
  obtain ⟨h₂, hg₂, hb₂⟩ := killTasks_pass h₁
  have hcur : st₀.pxCurrentTCB = some c := hpro.current.trans h.current
  have hsame : st₀.block c = st.block c := block_congr h.running_tcb
  have ht₁ : (chargeCurrent st₀).xTickCount = tickAdd st.xTickCount 1 :=
    hg₁.tick.trans hpro.tick
  have ht₂ : (killTasks (chargeCurrent st₀)).xTickCount = tickAdd st.xTickCount 1 :=
    hg₂.tick.trans ht₁
  have hcharge : (chargeCurrent st₀).block c =
      chargeBlock (tickAdd st.xTickCount 1) (st.block c) := by
    rw [hb₁, if_pos hcur, hsame, hpro.tick]
  have hwaits : ((killTasks (chargeCurrent st₀)).tcb c).pxContainer = some .wait := by
    show ((killTasks (chargeCurrent st₀)).block c).pxContainer = some .wait
    rw [hb₂]
    rcases Classical.em (completesAt (tickAdd st.xTickCount 1) (st.tcb c)) with hdone | hmore
    · have hwait : ((chargeCurrent st₀).block c).pxContainer = some .wait := by
        rw [hcharge]
        exact chargeBlock_completes hdone
      rw [if_neg, hwait]
      intro hr
      have hc : ((chargeCurrent st₀).block c).pxContainer = some (.ready 1) :=
        ((h₁.linked _ (by simp) c).mp hr).2
      rw [hwait] at hc
      exact absurd hc (by simp)
    · obtain ⟨hone, hh⟩ := hend.resolve_left hmore
      have hmore' : ¬ completesAt st₀.xTickCount (st₀.tcb c) := by
        rw [hpro.tick, h.running_tcb]
        exact hmore
      obtain ⟨hlists, htcb, -⟩ := chargeCurrent_goesOn hcur hmore'
      rw [h.running_tcb] at htcb
      have hin : c ∈ (chargeCurrent st₀).items (.ready 1) := by
        rw [State.items, hlists]
        have hhead := h.isTop.head
        rw [← hp, hone] at hhead
        exact List.mem_of_head? hhead
      have hh' : isHopeless (chargeCurrent st₀).xTickCount
          ((chargeCurrent st₀).block c) := by
        rw [State.block, htcb, ht₁]
        exact hh
      rw [if_pos hin, killBlock, if_pos hh']
  have hdue := wakeTasks_due h₂ hx hwaits htop
  have hperiod : ((killTasks (chargeCurrent st₀)).block c).xTaskPeriod =
      (st.block c).xTaskPeriod := by
    rw [hb₂, ← chargeBlock_period (tickAdd st.xTickCount 1) (st.block c), ← hcharge]
    split
    · exact killBlock_period _ _
    · rfl
  refine ⟨hend, ?_⟩
  rw [← ht₂]
  rw [isDue, show ((killTasks (chargeCurrent st₀)).tcb c).xTaskPeriod =
    (st.tcb c).xTaskPeriod from hperiod] at hdue
  exact hdue.2

/-- The job goes on: the task stays at the head unless a release is put in
front of it. -/
theorem went_on (h : QuietStart created c p st st₀) (hpro : Prologue created alg st st₀)
    (hmore : ¬ endsAt (tickAdd st.xTickCount 1) (st.tcb c)) :
    topTask (wakeTasks alg (killTasks (chargeCurrent st₀))) = some c ↔
      KeepsProcessor alg st c := by
  obtain ⟨hx, hcont, hp⟩ := h.running
  have hl := h.housed.ticking.linked
  obtain ⟨h₁, hg₁, hb₁⟩ := chargeCurrent_pass hpro.linked
  obtain ⟨h₂, hg₂, hb₂⟩ := killTasks_pass h₁
  obtain ⟨h₃, -, hb₃⟩ := wakeTasks_pass h₂ alg
  have hcur : st₀.pxCurrentTCB = some c := hpro.current.trans h.current
  have ht₁ : (chargeCurrent st₀).xTickCount = tickAdd st.xTickCount 1 :=
    hg₁.tick.trans hpro.tick
  have ht₂ : (killTasks (chargeCurrent st₀)).xTickCount = tickAdd st.xTickCount 1 :=
    hg₂.tick.trans ht₁
  have hcompl : ¬ completesAt st₀.xTickCount (st₀.tcb c) := by
    rw [hpro.tick, h.running_tcb]
    exact fun hdone => hmore (Or.inl hdone)
  obtain ⟨hlists, htcb, hother⟩ := chargeCurrent_goesOn hcur hcompl
  rw [h.running_tcb] at htcb
  have hnot : p = 1 → ¬ isHopeless (chargeCurrent st₀).xTickCount
      ((chargeCurrent st₀).tcb c) := by
    intro hone hh
    rw [htcb, ht₁] at hh
    exact hmore (Or.inr ⟨hp.trans hone, hh⟩)
  have htop₁ : IsTop (chargeCurrent st₀) c p :=
    h.isTop.congr fun q _ => congrArg CursorList.items (congrFun hlists _)
  have htop₂ := killTasks_isTop h₁ htop₁ hnot
  -- the block of the running task, as far as its rank goes
  have htcb₂ : (killTasks (chargeCurrent st₀)).tcb c = chargedTcb (st.tcb c) := by
    rw [killTasks_tcb h₁ c, htcb]
    split
    · next hin =>
        have hc := ((h₁.linked _ (by simp) c).mp hin).2
        have hready := ((h₁.linked _ (by simp) c).mp (List.mem_of_head? htop₁.head)).2
        rw [hc, Option.some_inj, ListId.ready.injEq] at hready
        rw [killBlock, if_neg]
        rw [← htcb]
        exact hnot hready.symm
    · rfl
  have hrank : ∀ b, aheadOf alg (tickAdd st.xTickCount 1) b (chargedTcb (st.tcb c)) ↔
      aheadOf alg (tickAdd st.xTickCount 1) b (st.tcb c) := by
    intro b
    rw [chargedTcb]
    split <;> rfl
  have hready₂ := (h₂.linked _ (by simp) c).mp (List.mem_of_head? htop₂.head)
  have hnowait : c ∉ (killTasks (chargeCurrent st₀)).items .wait := by
    intro hw
    have hc := ((h₂.linked _ (by simp) c).mp hw).2
    rw [hready₂.2] at hc
    exact absurd hc (by simp)
  have hend : ((wakeTasks alg (killTasks (chargeCurrent st₀))).tcb c).pxContainer =
      some (.ready p) := by
    show ((wakeTasks alg (killTasks (chargeCurrent st₀))).block c).pxContainer = _
    rw [hb₃, if_neg hnowait]
    exact hready₂.2
  have hmax : p < configMaxPriorities := hp ▸ hl.priority c hx
  have hprio₂ : ((killTasks (chargeCurrent st₀)).tcb c).uxPriority = p := by
    rw [htcb₂, ← hp, chargedTcb]
    split <;> rfl
  rw [h₃.topTask_iff hmax hend, wakeTasks_isTop h₂ hnowait hprio₂, ht₂, htcb₂]
  simp only [hrank]
  -- what waits for `wakeTasks` is what waits before the tick, or has been killed
  have huntouched : ∀ x, x ∉ dueTasks st → x ≠ c →
      (chargeCurrent st₀).tcb x = st.tcb x :=
    fun x hdue hxc => (hother x hxc).trans (h.quiet.others x hdue)
  constructor
  · rintro ⟨-, hfirst⟩
    refine ⟨hmore, fun x hxc b hw => ?_⟩
    have hidle := hw.idle hl
    have hwaits := (waitsAs_iff (b := b) hl h₁ hidle.1 (huntouched x hidle.2 hxc)).mpr
      (by rw [ht₁]; exact hw)
    rw [hwaits.2]
    exact hfirst x hwaits.1
  · rintro ⟨-, hfirst⟩
    refine ⟨htop₂, fun x hw => ?_⟩
    have hxc : x ≠ c := fun he => hnowait (he ▸ hw)
    have hxcr := ((h₂.linked _ (by simp) x).mp hw).1
    by_cases hdue : x ∈ dueTasks st
    · have hlow := h.due_low hpro hdue hxc
      rintro ⟨-, -, hlt | ⟨heq, -⟩⟩ <;> omega
    · have hwaits := (waitsAs_iff hl h₁ hxcr (huntouched x hdue hxc)).mp ⟨hw, rfl⟩
      rw [ht₁] at hwaits
      exact hfirst x hxc _ hwaits

end QuietStart

theorem outranksCurrent_iff (hc : st.pxCurrentTCB = some c) :
    outranksCurrent x st = true ↔ (st.tcb c).uxPriority ≤ (st.tcb x).uxPriority := by
  simp [outranksCurrent, hc]

/-- One tick, from the running task at the head. -/
theorem increment_announces {sw : Bool} (hh : Housed created st)
    (hc : st.pxCurrentTCB = some c) (htop : topTask st = some c)
    (hok : xTaskIncrementTick alg st = .ok (sw, st₁)) :
    (switchSeen alg st c → topTask st₁ ≠ some c → sw = true) ∧
    ((topTask st₁ ≠ some c → sw = true) → switchSeen alg st c ∨ startsOver st c) := by
  have hl := hh.ticking.linked
  have hn := hh.ticking.nonePending
  obtain ⟨st₀, hpro, rfl⟩ := xTaskIncrementTick_stages hh.ticking.suspended hok
  have hsw := tickPrologue_switch hl hn hpro
  obtain ⟨p, -, htop⟩ := topTask_eq_some.mp htop
  cases sw with
  | true =>
      refine ⟨fun _ _ => rfl, fun _ => Or.inl ?_⟩
      rcases Bool.or_eq_true _ _ ▸ hsw.symm with hany | hyield
      · exact Or.inr (Or.inl (List.any_eq_true.mp hany))
      · exact Or.inl hyield
  | false =>
      obtain ⟨hany, hyield⟩ := Bool.or_eq_false_iff.mp hsw.symm
      rw [List.any_eq_false] at hany
      have hp : (st.tcb c).uxPriority = p := by
        obtain ⟨hx, hcont⟩ :=
          (hl.linked _ (by simp) c).mp (List.mem_of_head? htop.head)
        exact hh.homed c hx p hcont
      have hlow : ∀ x ∈ dueTasks st, (st.tcb x).uxPriority < p := by
        intro x hx
        have hno := hany x hx
        rw [outranksCurrent_iff hc, hp] at hno
        omega
      have hstart : QuietStart created c p st st₀ :=
        ⟨hh, hc, htop, hlow, tickPrologue_quiet_lists hl hn hpro hlow⟩
      have hstage := tickPrologue_ok hl hn hpro
      constructor
      · rintro (hy | ⟨x, hx, hrank⟩ | hkeeps) hchanged
        · rw [hyield] at hy
          exact absurd hy (by simp)
        · exact absurd hrank (hany x hx)
        · exact absurd ((hstart.went_on hstage hkeeps.goesOn).mpr hkeeps) hchanged
      · intro hprop
        have hstays : topTask (wakeTasks alg (killTasks (chargeCurrent st₀))) = some c := by
          by_contra hchanged
          exact absurd (hprop hchanged) (by simp)
        by_cases hend : endsAt (tickAdd st.xTickCount 1) (st.tcb c)
        · obtain ⟨q, -, htop'⟩ := topTask_eq_some.mp hstays
          exact Or.inr (hstart.ended hstage hend htop')
        · exact Or.inl (Or.inr (Or.inr ((hstart.went_on hstage hend).mp hstays)))

/-! ## Runs -/

section Run

variable {heap : TaskHandle → TCB} {sim : Simulator}
  {hist : List (System × Call)} {s : System} {call : Call} {sw : Bool}

/-- Every tick of every run, also those a call replays: where `switchSeen`
holds the tick does not keep a new head to itself, and but for a job that
ends and starts over at once it does so only where `switchSeen` holds. -/
theorem tick_announces (h : Run alg heap sim hist s) (hst : st ∈ call.ticks alg s.kernel)
    (hc : st.pxCurrentTCB = some c) (htop : topTask st = some c)
    (hok : xTaskIncrementTick alg st = .ok (sw, st₁)) :
    (switchSeen alg st c → topTask st₁ ≠ some c → sw = true) ∧
    ((topTask st₁ ≠ some c → sw = true) → switchSeen alg st c ∨ startsOver st c) :=
  increment_announces (h.housed call st hst) hc htop hok

/-- The timer task delays itself for a tick, and the tick that brings it back
tells so. -/
theorem tick_announces_timer : ∃ hist s st₁,
    sampleRun .edf [.createPeriodic 0 0 1 4 1 0, .startScheduler 1 2, .delay 1] =
      some (hist, s) ∧
    s.kernel.pxCurrentTCB = some 0 ∧ topTask s.kernel = some 0 ∧
    topTask st₁ = some 2 ∧ xTaskIncrementTick .edf s.kernel = .ok (true, st₁) := by
  have hrun : (sampleRun .edf [.createPeriodic 0 0 1 4 1 0, .startScheduler 1 2,
      .delay 1]).map (fun r => (r.2.kernel.uxSchedulerSuspended, r.2.kernel.pxCurrentTCB,
        topTask r.2.kernel, (xTaskIncrementTick .edf r.2.kernel).toOption.map
          fun t => topTask t.2, dueTasks r.2.kernel, outranksCurrent 2 r.2.kernel)) =
      some (0, some 0, some 0, some (some 2), [2], true) := by rfl
  obtain ⟨⟨hist, s⟩, hs, heq⟩ := Option.map_eq_some_iff.mp hrun
  simp only [Prod.mk.injEq] at heq
  obtain ⟨hsus, hcur, htop, htick, hdue, hrank⟩ := heq
  obtain ⟨⟨sw, st₁⟩, hopt, hnew⟩ := Option.map_eq_some_iff.mp htick
  have hok := ok_of_toOption hopt
  have hst : s.kernel ∈ Call.tick.ticks .edf s.kernel := by
    rw [Call.ticks, if_pos hsus]
    exact List.mem_cons_self ..
  have hsw := (tick_announces (sampleRun_run hs) hst hcur htop hok).1
    (Or.inr (Or.inl ⟨2, hdue ▸ List.mem_cons_self .., hrank⟩))
    (by
      show topTask st₁ ≠ some 0
      rw [hnew]
      simp)
  exact ⟨hist, s, st₁, hs, hcur, htop, hnew, hsw ▸ hok⟩

/-- The job of task 0 completes in the first tick and nothing is reported:
`xTaskCatchUpTicks` leaves it running. -/
theorem completion_not_announced : ∃ hist s st₁ st₂,
    Run .edf (fun _ => zeroTcb) hardTask.simulator hist s ∧
    hist.map Prod.snd = [.yield, .placeOnEventList portMaxDelay, .startScheduler 1 2,
      .createPeriodic 0 0 1 4 1 0] ∧
    s.kernel.xSchedulerRunning = true ∧ s.kernel.uxSchedulerSuspended = 0 ∧
    s.kernel.pxCurrentTCB = some 0 ∧ topTask s.kernel = some 0 ∧
    xTaskIncrementTick .edf s.kernel = .ok (false, st₁) ∧ topTask st₁ = some 1 ∧
    xTaskCatchUpTicks .edf 1 s.kernel = .ok (false, st₂) ∧
    st₂.pxCurrentTCB = some 0 ∧ topTask st₂ = some 1 := by
  have hrun : (sampleRun .edf [.createPeriodic 0 0 1 4 1 0, .startScheduler 1 2,
      .placeOnEventList portMaxDelay, .yield]).map (fun r =>
        (r.1.map Prod.snd, r.2.kernel.xSchedulerRunning, r.2.kernel.uxSchedulerSuspended,
          r.2.kernel.pxCurrentTCB, topTask r.2.kernel,
          (xTaskIncrementTick .edf r.2.kernel).toOption.map fun t => (t.1, topTask t.2),
          (xTaskCatchUpTicks .edf 1 r.2.kernel).toOption.map fun t =>
            (t.1, t.2.pxCurrentTCB, topTask t.2))) =
      some ([.yield, .placeOnEventList portMaxDelay, .startScheduler 1 2,
        .createPeriodic 0 0 1 4 1 0], true, 0, some 0, some 0, some (false, some 1),
        some (false, some 0, some 1)) := by rfl
  obtain ⟨⟨hist, s⟩, hs, heq⟩ := Option.map_eq_some_iff.mp hrun
  simp only [Prod.mk.injEq] at heq
  obtain ⟨hcalls, hgoing, hsus, hcur, htop, htick, hcatch⟩ := heq
  obtain ⟨⟨sw, st₁⟩, hok₁, hnew₁⟩ := Option.map_eq_some_iff.mp htick
  obtain ⟨⟨b, st₂⟩, hok₂, hnew₂⟩ := Option.map_eq_some_iff.mp hcatch
  simp only [Prod.mk.injEq] at hnew₁ hnew₂
  obtain ⟨rfl, hnew₁⟩ := hnew₁
  obtain ⟨rfl, hcur₂, hnew₂⟩ := hnew₂
  exact ⟨hist, s, st₁, st₂, sampleRun_run hs, hcalls, hgoing, hsus, hcur, htop,
    ok_of_toOption hok₁, hnew₁, ok_of_toOption hok₂, hcur₂, hnew₂⟩

end Run

end FreeRtosSim
