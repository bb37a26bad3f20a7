import FreeRtosSim.Proofs.Advance
import FreeRtosSim.Sim.Observe

/-!
# Ordinary tasks next to periodic ones

`killTasks` tests the priority of a task where the rest of the tick tests its
period, so it takes an ordinary task in ready list 1 for a periodic one whose
deadline is over. Everything else a tick does leaves ordinary tasks alone. A
run spares them at every tick exactly if none of its ticks comes to
`killTasks` with an ordinary task there that fails the laxity test.
-/

namespace FreeRtosSim

variable {created new ord : List TaskHandle} {alg : Algorithm} {st st₁ st₂ : State}
  {x y : TaskHandle} {id : ListId} {t : Nat} {heap : TaskHandle → TCB}
  {sim : Simulator} {hist : List (System × Call)} {s : System} {c : Call}

/-! ## The notes of a pass -/

theorem walkListLog_eq {β : Type} {body : TaskHandle → State → State}
    {f : TCB → TCB} (hb : PassBody created id t body f) (hid : id ≠ .pendingReady)
    (h : WellLinked created st) (ht : st.xTickCount = t)
    {log : TaskHandle → State → List β} {g : TaskHandle → TCB → List β}
    (hlog : ∀ s x, s.xTickCount = t → log x s = g x (s.block x)) :
    walkListLog id body log st = (st.items id).flatMap fun x => g x (st.block x) := by
  have hpre : ∀ x ∈ st.items id, x ∈ created ∧
      (st.block x).pxContainer = some id := fun x hx => (h.linked id hid x).mp hx
  have hfold : walkListLog id body log st = _ :=
    walkLog_eq_foldl
      (fun s l => by simp) (fun s l l' => by simp [State.setList])
      (fun s => by simp [State.setList]) (fun s i hs hi => ⟨hs.1.setIndex hi, hs.2⟩)
      ⟨h, ht⟩ (h.wellFormed id).nodup hb.walkBody
  have hnote : ∀ s x, WellLinked created s ∧ s.xTickCount = t →
      x ∈ created ∧ (s.block x).pxContainer = some id →
      (fun x (s : State) => log x (s.setList id ((s.lists id).setIndex (some x)))) x s =
        g x (s.block x) := fun s x hs _ => hlog _ x hs.2
  rw [hfold]
  exact (hb.pointwise hid).foldl_log hnote _ st [] (h.wellFormed id).nodup ⟨h, ht⟩ hpre

/-- The tasks killed are the hopeless ones of ready list 1. -/
theorem killLog_eq (h : WellLinked created st) :
    killLog st = (st.items (.ready 1)).flatMap
      fun x => if isHopeless st.xTickCount (st.block x) then [x] else [] := by
  refine walkListLog_eq
    (g := fun x b => if isHopeless st.xTickCount b then [x] else [])
    killBody_pass (by simp) h rfl fun s x ht => ?_
  have hh : hopeless s x = true ↔ tickAdd (tickSub st.xTickCount (s.block x).startTime)
      (s.block x).xRemainingTicks > (s.block x).xTaskPeriod := by
    rw [← ht]
    exact decide_eq_true_iff
  by_cases hp : (s.tcb x).uxPriority > 0
  · rw [if_pos hp]
    exact if_congr (hh.trans ⟨fun hc => ⟨hp, hc⟩, fun hc => hc.2⟩) rfl rfl
  · rw [if_neg hp, if_neg fun hc => hp hc.1]

theorem mem_killLog (h : WellLinked created st) : x ∈ killLog st ↔
    x ∈ st.items (.ready 1) ∧ isHopeless st.xTickCount (st.block x) := by
  rw [killLog_eq h, List.mem_flatMap]
  constructor
  · rintro ⟨y, hy, hx⟩
    split at hx
    · next hh =>
        rw [List.mem_singleton.mp hx]
        exact ⟨hy, hh⟩
    · exact absurd hx List.not_mem_nil
  · rintro ⟨hx, hh⟩
    refine ⟨x, hx, ?_⟩
    rw [if_pos hh]
    exact List.mem_singleton_self x

/-- What `wakeTasks` divides by when it visits a task. -/
def wakeNote (alg : Algorithm) (tick : Nat) (b : TCB) : List Nat :=
  if b.uxPriority > 0 then
    b.xTaskPeriod ::
      if tick % b.xTaskPeriod = 0 then
        if alg = .rto ∧ b.weaklyHardConstraint ≠ 0 ∧
            (b.previousDeadlineMet : Int) ≥ (b.weaklyHardConstraint : Int) - 1 then []
        else macroDivisors alg b
      else []
  else []

theorem wakeDivisors_eq (h : WellLinked created st) :
    wakeDivisors alg st = (st.items .wait).flatMap
      fun x => wakeNote alg st.xTickCount (st.block x) := by
  refine walkListLog_eq (g := fun _ b => wakeNote alg st.xTickCount b)
    wakeBody_pass (by simp) h rfl fun s x ht => ?_
  rw [← ht]
  rfl

theorem macroDivisors_ne_zero (alg : Algorithm) (b : TCB) :
    0 ∉ macroDivisors alg b := by
  intro h0
  have hmem : ∀ {p : Prop} [Decidable p] {l : List Nat}, (p → b.xTaskPeriod ≠ 0) →
      0 ∉ l → 0 ∉ if p then [b.xTaskPeriod] else l := by
    intro p _ l hp hl
    split
    · next h => exact fun h' => hp h (List.mem_singleton.mp h').symm
    · exact hl
  cases alg with
  | edf => exact hmem id List.not_mem_nil h0
  | bwp => exact hmem id List.not_mem_nil h0
  | rto => exact hmem And.right (hmem And.right List.not_mem_nil) h0

/-- `wakeTasks` divides by the periods of the waiting tasks. -/
theorem wakeDivisors_ne_zero (h : WellLinked created st)
    (hperiod : ∀ x ∈ st.items .wait, (st.tcb x).xTaskPeriod ≠ 0) :
    0 ∉ wakeDivisors alg st := by
  rw [wakeDivisors_eq h, List.mem_flatMap]
  rintro ⟨x, hx, h0⟩
  have hp : 0 ≠ (st.block x).xTaskPeriod := (hperiod x hx).symm
  rw [wakeNote] at h0
  split at h0
  · rcases List.mem_cons.mp h0 with h0 | h0
    · exact hp h0
    · split at h0
      · split at h0
        · exact absurd h0 List.not_mem_nil
        · exact macroDivisors_ne_zero alg _ h0
      · exact absurd h0 List.not_mem_nil
  · exact absurd h0 List.not_mem_nil

/-! ## The two kinds -/

/-- Ordinary tasks have no period, periodic ones have one, and only these
wait. -/
structure Apart (ord created : List TaskHandle) (st : State) : Prop where
  ordinary : ∀ x ∈ ord, (st.tcb x).xTaskPeriod = 0
  periodic : ∀ x ∈ created, x ∉ ord → (st.tcb x).xTaskPeriod ≠ 0
  waiting : ∀ x ∈ created, (st.tcb x).pxContainer = some .wait →
    (st.tcb x).xTaskPeriod ≠ 0

/-- Nobody gets into `xWaitTaskList` in a step that leaves the periods
alone, but a task with a period. -/
theorem Apart.step (h : Apart ord created st)
    (hp : ∀ x, (st₁.tcb x).xTaskPeriod = (st.tcb x).xTaskPeriod)
    (hw : ∀ x ∈ created, (st₁.tcb x).pxContainer = some .wait →
      (st.tcb x).pxContainer = some .wait ∨ (st.tcb x).xTaskPeriod ≠ 0) :
    Apart ord created st₁ where
  ordinary x hx := (hp x).trans (h.ordinary x hx)
  periodic x hx hno := by
    rw [hp]
    exact h.periodic x hx hno
  waiting x hx hc := by
    rw [hp]
    exact (hw x hx hc).elim (h.waiting x hx) id

/-- A part of a tick that acts on blocks. -/
theorem Apart.blocks (h : Apart ord created st) {f : TaskHandle → TCB → TCB}
    (hb : ∀ x, st₁.block x = f x (st.block x))
    (hp : ∀ x b, (f x b).xTaskPeriod = b.xTaskPeriod)
    (hw : ∀ x ∈ created, (f x (st.block x)).pxContainer = some .wait →
      (st.block x).pxContainer = some .wait ∨ (st.block x).xTaskPeriod ≠ 0) :
    Apart ord created st₁ :=
  h.step (fun x => (congrArg TCB.xTaskPeriod (hb x)).trans (hp x _))
    fun x hx hc => hw x hx ((congrArg TCB.pxContainer (hb x)).symm.trans hc)

/-! ## The stages of a tick -/

theorem Apart.prologue (h : Apart ord created st) (hp : Prologue created alg st st₁) :
    Apart ord created st₁ := by
  refine h.blocks (f := fun x b =>
    if x ∈ dueTasks st then unblockBlock alg st₁.xTickCount b else b) hp.block
    (fun x b => ?_) fun x _ hw => ?_
  · split <;> rfl
  · split at hw
    · exact Or.inr (readyTarget_wait hw)
    · exact Or.inl hw

theorem Apart.charge (h : Apart ord created st) (hl : WellLinked created st) :
    Apart ord created (chargeCurrent st) := by
  obtain ⟨-, -, hb⟩ := chargeCurrent_pass hl
  refine h.blocks (f := fun x b =>
    if st.pxCurrentTCB = some x then chargeBlock st.xTickCount b else b) hb
    (fun x b => ?_) fun x _ hw => ?_
  · split
    · exact chargeBlock_period _ b
    · rfl
  · by_cases hp : (st.block x).xTaskPeriod = 0
    · split at hw
      · rw [chargeBlock_of_ordinary hp] at hw
        exact Or.inl hw
      · exact Or.inl hw
    · exact Or.inr hp

theorem Apart.kill (h : Apart ord created st) (hl : WellLinked created st)
    (hno : ∀ x ∈ ord, x ∉ killLog st) : Apart ord created (killTasks st) := by
  obtain ⟨-, -, hb⟩ := killTasks_pass hl
  refine h.blocks (f := fun x b =>
    if x ∈ st.items (.ready 1) then killBlock st.xTickCount b else b) hb
    (fun x b => ?_) fun x hx hw => ?_
  · split
    · exact killBlock_period _ b
    · rfl
  · split at hw
    · next hin =>
        rw [killBlock_list] at hw
        split at hw
        · next hh =>
            exact Or.inr (h.periodic x hx fun hord =>
              hno x hord ((mem_killLog hl).mpr ⟨hin, hh⟩))
        · exact Or.inl hw
    · exact Or.inl hw

theorem Apart.wake (h : Apart ord created st) (hl : WellLinked created st) :
    Apart ord created (wakeTasks alg st) := by
  obtain ⟨-, -, hb⟩ := wakeTasks_pass hl alg
  refine h.blocks (f := fun x b =>
    if x ∈ st.items .wait then wakeBlock alg st.xTickCount b else b) hb
    (fun x b => ?_) fun x hx hw => ?_
  · split
    · exact wakeBlock_period _ b
    · rfl
  · split at hw
    · next hin => exact Or.inl ((hl.linked _ (by simp) x).mp hin).2
    · exact Or.inl hw

theorem Apart.not_waiting (h : Apart ord created st) (hl : WellLinked created st)
    (hx : x ∈ ord) : x ∉ st.items .wait := by
  intro hw
  obtain ⟨hxc, hc⟩ := (hl.linked _ (by simp) x).mp hw
  exact h.waiting x hxc hc (h.ordinary x hx)

theorem Apart.divisors (h : Apart ord created st) (hl : WellLinked created st) :
    0 ∉ wakeDivisors alg st :=
  wakeDivisors_ne_zero hl fun x hx =>
    have hx' := (hl.linked _ (by simp) x).mp hx
    h.waiting x hx'.1 hx'.2

theorem chargeDivisors_ne_zero (st : State) : 0 ∉ chargeDivisors st := by
  rw [chargeDivisors]
  split
  · exact List.not_mem_nil
  · dsimp only
    split
    · next hp => exact fun h0 => hp.1 (List.mem_singleton.mp h0).symm
    · exact List.not_mem_nil

/-! ## One tick -/

/-- The tick divides by no zero, kills no ordinary task, and at no point leaves
one in `xWaitTaskList`. -/
structure Spares (alg : Algorithm) (ord : List TaskHandle) (st : State) : Prop where
  divisors : 0 ∉ tickDivisors alg st
  killed : ∀ x ∈ ord, x ∉ tickKills alg st
  waiting : ∀ st' ∈ tickStages alg st, ∀ x ∈ ord, x ∉ st'.items .wait

/-- Of the ordinary tasks in ready list 1, those that come there in this tick
included, none fails the laxity test, if the tick gets to it. -/
def NoneHopeless (alg : Algorithm) (ord : List TaskHandle) (st : State) : Prop :=
  killEntry alg st ≠ none → ∀ x ∈ ord,
    (x ∈ st.items (.ready 1) ∨ x ∈ dueTasks st ∧ (st.tcb x).uxPriority = 1) →
    ¬ isHopeless (tickAdd st.xTickCount 1) (st.tcb x)

/-- What `killTasks` finds of an ordinary task. -/
theorem ordinary_at_kill (hl : WellLinked created st) (hx : (st.tcb x).xTaskPeriod = 0)
    (hp : Prologue created alg st st₁) :
    (x ∈ (chargeCurrent st₁).items (.ready 1) ↔
      x ∈ st.items (.ready 1) ∨ x ∈ dueTasks st ∧ (st.tcb x).uxPriority = 1) ∧
    (isHopeless (chargeCurrent st₁).xTickCount ((chargeCurrent st₁).block x) ↔
      isHopeless (tickAdd st.xTickCount 1) (st.tcb x)) := by
  obtain ⟨hl₂, hg, hb⟩ := chargeCurrent_pass hp.linked
  have hperiod : (st₁.block x).xTaskPeriod = 0 :=
    (congrArg TCB.xTaskPeriod (hp.core x)).trans hx
  have hblock : (chargeCurrent st₁).block x = st₁.block x := by
    rw [hb x]
    split
    · exact chargeBlock_of_ordinary hperiod
    · rfl
  have htick : (chargeCurrent st₁).xTickCount = tickAdd st.xTickCount 1 :=
    hg.tick.trans hp.tick
  have hcont : ((chargeCurrent st₁).tcb x).pxContainer = (st₁.block x).pxContainer :=
    (congrArg TCB.pxContainer hblock :
      ((chargeCurrent st₁).block x).pxContainer = _)
  rw [hl₂.linked _ (by simp) x, hl.linked (.ready 1) (by simp) x, hcont, hblock, htick,
    hp.block x]
  by_cases hdue : x ∈ dueTasks st
  · rw [if_pos hdue]
    have hxc := (dueTasks_created hl).2 x hdue
    have htarget : readyTarget alg st₁.xTickCount (st.block x) =
        some (.ready (st.tcb x).uxPriority) := if_pos (Or.inr (Or.inl hx))
    have hdelayed : (st.tcb x).pxContainer ≠ some (.ready 1) := by
      obtain ⟨id, hid, hsub⟩ := dueTasks_sublist st
      have hid' : id = .delayed1 ∨ id = .delayed2 := by
        rcases hid with rfl | rfl
        · exact hl.delayed_either.1
        · exact hl.delayed_either.2
      have hne : id ≠ .pendingReady := by rcases hid' with rfl | rfl <;> simp
      rw [((hl.linked id hne x).mp (hsub.subset hdue)).2]
      rcases hid' with rfl | rfl <;> simp
    refine ⟨?_, Iff.rfl⟩
    rw [show (unblockBlock alg st₁.xTickCount (st.block x)).pxContainer = _ from htarget]
    simp [hxc, hdue, hdelayed]
  · rw [if_neg hdue]
    refine ⟨?_, Iff.rfl⟩
    simp only [hdue, false_and, or_false]
    rfl

theorem spares_tick_iff (ht : Ticking created st) (h : Apart ord created st) :
    Spares alg ord st ↔ NoneHopeless alg ord st := by
  cases hpro : tickPrologue alg st with
  | error e =>
      have hkill : killEntry alg st = none := by rw [killEntry, hpro]
      refine iff_of_true ?_ fun hk => absurd hkill hk
      refine ⟨?_, fun x _ => ?_, fun st' hst' => ?_⟩
      · rw [tickDivisors, hpro, List.append_nil, List.mem_flatMap]
        rintro ⟨x, -, h0⟩
        exact macroDivisors_ne_zero alg _ h0
      · rw [tickKills, hpro]
        exact List.not_mem_nil
      · rw [tickStages, hpro] at hst'
        exact absurd hst' List.not_mem_nil
  | ok r =>
      obtain ⟨sw, st₁⟩ := r
      have hp := tickPrologue_ok ht.linked ht.nonePending hpro
      obtain ⟨hl₂, -, -⟩ := chargeCurrent_pass hp.linked
      have h₁ := h.prologue hp
      have h₂ := h₁.charge hp.linked
      have hmacro : ∀ {l : List Nat}, 0 ∉ l →
          0 ∉ (dueTasks st).flatMap (fun x => macroDivisors alg (st.tcb x)) ++
            (chargeDivisors st₁ ++ l) := by
        intro l hl h0
        rcases List.mem_append.mp h0 with h0 | h0
        · obtain ⟨x, -, h0⟩ := List.mem_flatMap.mp h0
          exact macroDivisors_ne_zero alg _ h0
        · exact (List.mem_append.mp h0).elim (chargeDivisors_ne_zero st₁) hl
      by_cases hexit : atHiperPeriod (chargeCurrent st₁)
      · have hkill : killEntry alg st = none := by
          rw [killEntry, hpro]
          exact if_pos hexit
        refine iff_of_true ?_ fun hk => absurd hkill hk
        refine ⟨?_, fun x _ => ?_, fun st' hst' x hx => ?_⟩
        · rw [tickDivisors, hpro]
          dsimp only
          rw [if_pos hexit]
          exact hmacro List.not_mem_nil
        · rw [tickKills, hpro]
          dsimp only
          rw [if_pos hexit]
          exact List.not_mem_nil
        · rw [tickStages, hpro] at hst'
          dsimp only at hst'
          rw [if_pos hexit] at hst'
          rcases List.mem_cons.mp hst' with rfl | hst'
          · exact h₁.not_waiting hp.linked hx
          · rw [List.mem_singleton.mp hst']
            exact h₂.not_waiting hl₂ hx
      · have hkill : killEntry alg st = some (chargeCurrent st₁) := by
          rw [killEntry, hpro]
          exact if_neg hexit
        have hkills : tickKills alg st = killLog (chargeCurrent st₁) := by
          rw [tickKills, hpro]
          exact if_neg hexit
        have hiff : (∀ x ∈ ord, x ∉ tickKills alg st) ↔ NoneHopeless alg ord st := by
          rw [hkills, NoneHopeless, hkill]
          refine ⟨fun hno _ x hx hin hh => ?_, fun hno x hx hin => ?_⟩
          · obtain ⟨hready, hhope⟩ := ordinary_at_kill ht.linked (h.ordinary x hx) hp
            exact hno x hx ((mem_killLog hl₂).mpr ⟨hready.mpr hin, hhope.mpr hh⟩)
          · obtain ⟨hready, hhope⟩ := ordinary_at_kill ht.linked (h.ordinary x hx) hp
            obtain ⟨hin, hh⟩ := (mem_killLog hl₂).mp hin
            exact hno (by simp) x hx (hready.mp hin) (hhope.mp hh)
        refine ⟨fun hs => hiff.mp hs.killed, fun hno => ?_⟩
        have hnone := hiff.mpr hno
        have h₃ := h₂.kill hl₂ (hkills ▸ hnone)
        obtain ⟨hl₃, -, -⟩ := killTasks_pass hl₂
        obtain ⟨hl₄, -, -⟩ := wakeTasks_pass hl₃ alg
        refine ⟨?_, hnone, fun st' hst' x hx => ?_⟩
        · rw [tickDivisors, hpro]
          dsimp only
          rw [if_neg hexit]
          exact hmacro (h₃.divisors hl₃)
        · rw [tickStages, hpro] at hst'
          dsimp only at hst'
          rw [if_neg hexit] at hst'
          simp only [List.mem_cons, List.not_mem_nil, or_false] at hst'
          rcases hst' with rfl | rfl | rfl | rfl
          · exact h₁.not_waiting hp.linked hx
          · exact h₂.not_waiting hl₂ hx
          · exact h₃.not_waiting hl₃ hx
          · exact (h₃.wake hl₃).not_waiting hl₄ hx

theorem Apart.tick {sw : Bool} (h : Apart ord created st) (ht : Ticking created st)
    (hs : Spares alg ord st) (hok : xTaskIncrementTick alg st = .ok (sw, st₁)) :
    Apart ord created st₁ := by
  obtain ⟨st₂, hk, heq⟩ := xTaskIncrementTick_ok ht.suspended hok
  obtain ⟨st₀, hp, rfl⟩ := killEntry_cases hk ht.linked ht.nonePending
  obtain ⟨hl₂, -, -⟩ := chargeCurrent_pass hp.linked
  obtain ⟨hl₃, -, -⟩ := killTasks_pass hl₂
  have h₂ := (h.prologue hp).charge hp.linked
  have hnone : ∀ x ∈ ord, x ∉ killLog (chargeCurrent st₀) := by
    have hno := (spares_tick_iff ht h).mp hs
    intro x hx hkill
    obtain ⟨hready, hhope⟩ := ordinary_at_kill ht.linked (h.ordinary x hx) hp
    obtain ⟨hin, hh⟩ := (mem_killLog hl₂).mp hkill
    exact hno (by simp [hk]) x hx (hready.mp hin) (hhope.mp hh)
  rw [heq]
  exact (h₂.kill hl₂ hnone).wake hl₃

/-! ## Runs -/

theorem Apart.advance {l : List State} (h : Apart ord created st)
    (hnew : ∀ x ∈ new, x ∉ ord ∧ x ∉ created) (ha : Advance alg created new st l st₁)
    (hs : ∀ e ∈ l, Apart ord created e → Ticking created e → Spares alg ord e) :
    Apart ord created st₁ := by
  induction ha with
  | refl => exact h
  | @carry l a b _ hcar ih =>
      have ha := ih hs
      have hcore : ∀ x, x ∉ new → (b.tcb x).xTaskPeriod = (a.tcb x).xTaskPeriod :=
        fun x hx => (congrArg TCB.xTaskPeriod (hcar.core x hx) :
          (b.tcb x).core.xTaskPeriod = _)
      have hold : ∀ x ∈ created, x ∉ new := fun x hx hn => (hnew x hn).2 hx
      refine ⟨fun x hx => ?_, fun x hx hno => ?_, fun x hx hw => ?_⟩
      · rw [hcore x fun hn => (hnew x hn).1 hx]
        exact ha.ordinary x hx
      · rw [hcore x (hold x hx)]
        exact ha.periodic x hx hno
      · rw [hcore x (hold x hx)]
        exact (hcar.waiting x (hold x hx) hw).elim (ha.waiting x hx) id
  | @tick l sw a b _ ht hok ih =>
      have ha := ih fun e he => hs e (List.mem_append_left _ he)
      have hlast := hs a (List.mem_append_right _ (List.mem_singleton_self a)) ha ht
      exact ha.tick ht hlast hok

/-- Whoever is created is put into `xWaitTaskList` only with a period, and
`xTaskCreatePeriodic` gives it one. -/
theorem newTask_period (h : Settled s.created s.kernel) (hal : c.Allowed s)
    (hok : c.exec alg s.kernel = .ok st) :
    (∀ x ∈ c.newPeriodic, (st.tcb x).xTaskPeriod ≠ 0) ∧
    ∀ x ∈ c.newOrdinary, (st.tcb x).pxContainer = some .wait →
      (st.tcb x).xTaskPeriod ≠ 0 := by
  have hstatic : ∀ {created : List TaskHandle} {x : TaskHandle} {p : Nat}
      {a b : State}, Settled created a → x ∉ created →
      xTaskCreateStatic alg x p a = .ok b →
      (b.tcb x).pxContainer = some .wait → (b.tcb x).xTaskPeriod ≠ 0 := by
    intro created x p a b ha hx hok hw
    rw [xTaskCreateStatic, ← modifyTcb_id a x] at hok
    have he := create_enrolled ha.linked ha.number hx hok
    rw [he.container] at hw
    have hcore := congrArg TCB.xTaskPeriod (he.core x)
    exact fun h0 => readyTarget_wait hw (hcore.symm.trans h0)
  cases c with
  | create y p =>
      refine ⟨fun x hx => absurd hx List.not_mem_nil, fun x hx => ?_⟩
      rw [List.mem_singleton.mp hx]
      exact hstatic h hal hok
  | createPeriodic y id p period duration constraint =>
      refine ⟨fun x hx => ?_, fun x hx => absurd hx List.not_mem_nil⟩
      rw [List.mem_singleton.mp hx]
      have he := create_enrolled h.linked h.number hal.1 hok
      have hcore := congrArg TCB.xTaskPeriod (he.core y)
      have hpos := hal.2
      intro h0
      rw [show (st.tcb y).core.xTaskPeriod = 0 from h0] at hcore
      simp [TCB.core] at hcore
      omega
  | startScheduler idle timer =>
      obtain ⟨hi, ht, hne, -⟩ := hal
      obtain ⟨st₂, st₃, hidle, htimer, rfl⟩ := startScheduler_ok hok
      obtain ⟨h₂, -, -⟩ := createStatic_survived h hi hidle
      have hfresh := not_mem_cons_of_ne ht hne
      obtain ⟨-, -, hother⟩ := createStatic_survived h₂.settled hfresh htimer
      refine ⟨fun x hx => absurd hx List.not_mem_nil, fun x hx => ?_⟩
      rcases List.mem_cons.mp hx with rfl | hx
      · rw [show ({ st₃ with
            xNextTaskUnblockTime := portMaxDelay
            xSchedulerRunning := true
            xTickCount := 0 } : State).tcb x = st₂.tcb x from hother x hne]
        exact hstatic h hi hidle
      · rw [List.mem_singleton.mp hx]
        have htimer' := hstatic h₂.settled hfresh htimer
        exact htimer'
  | _ =>
      exact ⟨fun x hx => absurd hx List.not_mem_nil,
        fun x hx => absurd hx List.not_mem_nil⟩

/-- The division into kinds agrees with a call. -/
def Call.Sorts (ord : List TaskHandle) (c : Call) : Prop :=
  (∀ x ∈ c.newOrdinary, x ∈ ord) ∧ ∀ x ∈ c.newPeriodic, x ∉ ord

theorem Call.newPeriodic_ne_newOrdinary (hx : x ∈ c.newPeriodic) :
    x ∉ c.newOrdinary := by
  cases c with
  | createPeriodic y id p period duration constraint => exact List.not_mem_nil
  | _ => exact absurd hx List.not_mem_nil

/-- A call that processes ticks creates nobody. -/
theorem Call.sorts_of_ticks (h : c.ticks alg st ≠ []) : c.Sorts ord := by
  cases c with
  | create y p => exact absurd rfl h
  | createPeriodic y id p period duration constraint => exact absurd rfl h
  | startScheduler idle timer => exact absurd rfl h
  | _ =>
      exact ⟨fun x hx => absurd hx List.not_mem_nil,
        fun x hx => absurd hx List.not_mem_nil⟩

theorem Run.kinds (h : Run alg heap sim hist s) :
    (∀ x ∈ ordinaryTasks hist, x ∈ s.created) ∧
    ∀ e ∈ hist, e.2.Sorts (ordinaryTasks hist) ∧
      ∀ x ∈ e.2.newPeriodic, x ∈ s.created := by
  induction h with
  | boot => exact ⟨fun x hx => absurd hx List.not_mem_nil,
      fun e he => absurd he List.not_mem_nil⟩
  | @call hist s c st _ hal _ ih =>
      obtain ⟨hold, hsorts⟩ := ih
      have hmem : ∀ x, x ∈ ordinaryTasks ((s, c) :: hist) ↔
          x ∈ c.newOrdinary ∨ x ∈ ordinaryTasks hist := fun x => by
        rw [ordinaryTasks, List.flatMap_cons, List.mem_append, ← ordinaryTasks]
      refine ⟨fun x hx => ?_, fun e he => ?_⟩
      · rcases (hmem x).mp hx with hx | hx
        · exact mem_createdAfter.mpr (Or.inr (Or.inl hx))
        · exact mem_createdAfter.mpr (Or.inr (Or.inr (hold x hx)))
      · rcases List.mem_cons.mp he with rfl | he
        · refine ⟨⟨fun x hx => (hmem x).mpr (Or.inl hx), fun x hx hno => ?_⟩,
            fun x hx => mem_createdAfter.mpr (Or.inl hx)⟩
          rcases (hmem x).mp hno with hno | hno
          · exact Call.newPeriodic_ne_newOrdinary hx hno
          · exact newPeriodic_fresh hal hx (hold x hno)
        · obtain ⟨⟨hord, hper⟩, hcreated⟩ := hsorts e he
          refine ⟨⟨fun x hx => (hmem x).mpr (Or.inr (hord x hx)), fun x hx hno => ?_⟩,
            fun x hx => mem_createdAfter.mpr (Or.inr (Or.inr (hcreated x hx)))⟩
          rcases (hmem x).mp hno with hno | hno
          · exact newOrdinary_fresh hal hno (hcreated x hx)
          · exact hper x hx hno

/-- A tick of a call begins with the kinds apart. -/
theorem Apart.pending (h : Apart ord s.created s.kernel)
    (hs : Settled s.created s.kernel) (hal : c.Allowed s) (hsort : c.Sorts ord)
    (hgood : ∀ e ∈ c.ticks alg s.kernel, Apart ord s.created e →
      Ticking s.created e → Spares alg ord e) :
    ∀ e ∈ c.ticks alg s.kernel, Apart ord s.created e ∧ Ticking s.created e := by
  intro e he
  obtain ⟨l₁, l₂, hsplit⟩ := List.append_of_mem he
  obtain ⟨hadv, htick⟩ := (exec_advance hs hal).1 l₁ e l₂ hsplit
  refine ⟨h.advance (fun x hx => ⟨hsort.2 x hx, newPeriodic_fresh hal hx⟩) hadv
    fun t ht => hgood t ?_, htick⟩
  rw [hsplit]
  exact List.mem_append_left _ ht

theorem Apart.exec (h : Apart ord s.created s.kernel)
    (hs : Settled s.created s.kernel) (hal : c.Allowed s) (hsort : c.Sorts ord)
    (hgood : ∀ e ∈ c.ticks alg s.kernel, Apart ord s.created e →
      Ticking s.created e → Spares alg ord e)
    (hok : c.exec alg s.kernel = .ok st) : Apart ord (c.createdAfter s) st := by
  have hold := h.advance (fun x hx => ⟨hsort.2 x hx, newPeriodic_fresh hal hx⟩)
    ((exec_advance hs hal).2 st hok) hgood
  obtain ⟨hper, hwait⟩ := newTask_period hs hal hok
  refine ⟨hold.ordinary, fun x hx hno => ?_, fun x hx hw => ?_⟩
  · rcases mem_createdAfter.mp hx with hx | hx | hx
    · exact hper x hx
    · exact absurd (hsort.1 x hx) hno
    · exact hold.periodic x hx hno
  · rcases mem_createdAfter.mp hx with hx | hx | hx
    · exact hper x hx
    · exact hwait x hx hw
    · exact hold.waiting x hx hw

/-- As long as the ticks of a run are good, they begin with the kinds apart. -/
theorem Run.apart (h : Run alg heap sim hist s) (hsort : ∀ e ∈ hist, e.2.Sorts ord)
    (hheap : ∀ x ∈ ord, (heap x).xTaskPeriod = 0)
    (hgood : ∀ e ∈ hist, ∀ t ∈ e.2.ticks alg e.1.kernel, Apart ord e.1.created t →
      Ticking e.1.created t → Spares alg ord t) :
    Apart ord s.created s.kernel ∧
    ∀ e ∈ hist, ∀ t ∈ e.2.ticks alg e.1.kernel,
      Apart ord e.1.created t ∧ Ticking e.1.created t := by
  induction h with
  | boot =>
      exact ⟨⟨hheap, fun x hx => absurd hx List.not_mem_nil,
        fun x hx => absurd hx List.not_mem_nil⟩, fun e he => absurd he List.not_mem_nil⟩
  | @call hist s c st hrun hal hok ih =>
      obtain ⟨hgc, hgh⟩ := List.forall_mem_cons.mp hgood
      obtain ⟨hsc, hsh⟩ := List.forall_mem_cons.mp hsort
      obtain ⟨hap, hticks⟩ := ih hsh hgh
      exact ⟨hap.exec hrun.settled hal hsc hgc hok, List.forall_mem_cons.mpr
        ⟨hap.pending hrun.settled hal hsc hgc, hticks⟩⟩

/-- The ordinary tasks, created in zeroed blocks, are spared at every tick if
and only if no tick comes to `killTasks` with one of them in ready list 1 that
fails the laxity test. -/
theorem ordinary_spared_iff (h : Run alg heap sim hist s)
    (hheap : ∀ x ∈ ordinaryTasks hist, (heap x).xTaskPeriod = 0) :
    (∀ t, RunTick alg hist s t → Spares alg (ordinaryTasks hist) t) ↔
    ∀ t, RunTick alg hist s t → NoneHopeless alg (ordinaryTasks hist) t := by
  have hkinds := h.kinds
  have hsort := fun e he => (hkinds.2 e he).1
  -- either side of the equivalence makes every tick of the run a good one
  have hreach : (∀ t, RunTick alg hist s t →
      Spares alg (ordinaryTasks hist) t ∨ NoneHopeless alg (ordinaryTasks hist) t) →
      ∀ t, RunTick alg hist s t → ∃ created, Apart (ordinaryTasks hist) created t ∧
        Ticking created t := by
    intro hor t ht
    have hgood : ∀ {created : List TaskHandle} {t : State}, RunTick alg hist s t →
        Apart (ordinaryTasks hist) created t → Ticking created t →
        Spares alg (ordinaryTasks hist) t := fun ht hap htick =>
      (hor _ ht).elim id (spares_tick_iff htick hap).mpr
    obtain ⟨hap, hticks⟩ := h.apart hsort hheap fun e he t ht =>
      hgood (Or.inl ⟨e, he, ht⟩)
    rcases ht with ⟨e, he, ht⟩ | ⟨c, hal, ht⟩
    · exact ⟨_, hticks e he t ht⟩
    · by_cases hnil : c.ticks alg s.kernel = []
      · rw [hnil] at ht
        exact absurd ht List.not_mem_nil
      · have hsc : c.Sorts (ordinaryTasks hist) := Call.sorts_of_ticks hnil
        exact ⟨_, hap.pending h.settled hal hsc
          (fun t ht => hgood (Or.inr ⟨c, hal, ht⟩)) t ht⟩
  constructor
  · intro hall t ht
    obtain ⟨created, hap, htick⟩ := hreach (fun t ht => Or.inl (hall t ht)) t ht
    exact (spares_tick_iff htick hap).mp (hall t ht)
  · intro hall t ht
    obtain ⟨created, hap, htick⟩ := hreach (fun t ht => Or.inr (hall t ht)) t ht
    exact (spares_tick_iff htick hap).mpr (hall t ht)

/-- A periodic task, and an ordinary one of priority 2. -/
theorem ordinary_spared_iff_mixed : ∃ hist s,
    sampleRun .bwp [.createPeriodic 0 0 1 4 2 0, .create 3 2, .startScheduler 1 2,
      .tick] = some (hist, s) ∧
    ((∀ t, RunTick .bwp hist s t → Spares .bwp (ordinaryTasks hist) t) ↔
      ∀ t, RunTick .bwp hist s t → NoneHopeless .bwp (ordinaryTasks hist) t) := by
  have hrun : (sampleRun .bwp [.createPeriodic 0 0 1 4 2 0, .create 3 2,
      .startScheduler 1 2, .tick]).isSome = true := by rfl
  obtain ⟨⟨hist, s⟩, hs⟩ := Option.isSome_iff_exists.mp hrun
  exact ⟨hist, s, hs, ordinary_spared_iff (sampleRun_run hs) fun _ _ => rfl⟩

/-- An ordinary task of priority 1 is killed in the first tick, and `wakeTasks`
takes the tick modulo its period. -/
theorem ordinary_task_killed : ∃ hist s,
    Run .edf (fun _ => zeroTcb) hardTask.simulator hist s ∧
    hist.map Prod.snd =
      [.startScheduler 1 2, .create 3 1, .createPeriodic 0 0 1 4 2 0] ∧
    RunTick .edf hist s s.kernel ∧ 3 ∈ ordinaryTasks hist ∧
    tickKills .edf s.kernel = [3] ∧ 0 ∈ tickDivisors .edf s.kernel := by
  have hrun : (sampleRun .edf [.createPeriodic 0 0 1 4 2 0, .create 3 1,
      .startScheduler 1 2]).map (fun r =>
        (r.1.map Prod.snd, r.2.kernel.uxSchedulerSuspended,
          decide (3 ∈ ordinaryTasks r.1), tickKills .edf r.2.kernel,
          decide (0 ∈ tickDivisors .edf r.2.kernel))) =
      some ([.startScheduler 1 2, .create 3 1, .createPeriodic 0 0 1 4 2 0], 0,
        true, [3], true) := by rfl
  obtain ⟨⟨hist, s⟩, hs, heq⟩ := Option.map_eq_some_iff.mp hrun
  simp only [Prod.mk.injEq, decide_eq_true_eq] at heq
  obtain ⟨hcalls, hz, hord, hkills, hdiv⟩ := heq
  refine ⟨hist, s, sampleRun_run hs, hcalls, Or.inr ⟨.tick, trivial, ?_⟩, hord, hkills,
    hdiv⟩
  rw [show Call.tick.ticks .edf s.kernel = [s.kernel] from if_pos hz]
  exact List.mem_singleton_self _

end FreeRtosSim
