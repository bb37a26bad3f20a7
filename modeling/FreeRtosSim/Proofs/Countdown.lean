import FreeRtosSim.Proofs.Clocked

/-!
# A sleeper counts the ticks

A task that blocks for `n` ticks is put on a delayed list with the tick count
at which its time comes, modulo `2 ^ 64`. `Countdown x r` says how many ticks
`x` has left, none if it is awake: a tick takes one off, and what does not
wake `x` leaves it as it is.
-/

namespace FreeRtosSim

variable {created : List TaskHandle} {alg : Algorithm} {st st₁ st₂ : State}
  {x y : TaskHandle} {id : ListId} {T : TaskHandle → Prop} {sw : Bool} {n r v : Nat}

/-! ## Going to sleep -/

/-- `x` leaves its list, and is asleep afterwards or suspended. -/
structure FallsAsleep (x : TaskHandle) (st st' : State) : Prop where
  tick : st'.xTickCount = st.xTickCount
  mem : ∀ id : ListId, id.IsDelayed → ∀ y, y ≠ x → (y ∈ st'.items id ↔ y ∈ st.items id)
  value : ∀ y, y ≠ x → (st'.tcb y).xItemValue = (st.tcb y).xItemValue
  pending : st'.items .pendingReady = st.items .pendingReady

theorem FallsAsleep.trans (h : FallsAsleep x st st₁) (h' : FallsAsleep x st₁ st₂) :
    FallsAsleep x st st₂ where
  tick := h'.tick.trans h.tick
  mem id hid y hy := (h'.mem id hid y hy).trans (h.mem id hid y hy)
  value y hy := (h'.value y hy).trans (h.value y hy)
  pending := h'.pending.trans h.pending

theorem OnlyWakes.fallsAsleep (h : OnlyWakes (· = x) st st₁)
    (hv : ∀ y, y ≠ x → (st₁.tcb y).xItemValue = (st.tcb y).xItemValue)
    (hp : st₁.items .pendingReady = st.items .pendingReady) : FallsAsleep x st st₁ where
  tick := h.tick
  mem id hid y hy := ⟨fun hm => (h.sublist id hid).subset hm,
    fun hm => h.stays id hid y hm hy⟩
  value := hv
  pending := hp

theorem uxListRemove_fallsAsleep (hw : WellLinked created st) (hx : x ∈ created) :
    FallsAsleep x st (uxListRemove x st) :=
  (uxListRemove_onlyWakes hw hx).fallsAsleep (fun _ _ => uxListRemove_value)
    (by rw [State.items, uxListRemove_lists (hw.not_pendingReady hx)])

/-- An insertion by value into a list of such values. -/
structure Inserted (id : ListId) (x : TaskHandle) (st st' : State) : Prop where
  sorted : (st'.items id).Pairwise fun y z => (st.tcb y).xItemValue ≤ (st.tcb z).xItemValue
  mem : ∀ y, y ∈ st'.items id ↔ y = x ∨ y ∈ st.items id
  others : ∀ k, k ≠ id → st'.items k = st.items k
  value : ∀ y, (st'.tcb y).xItemValue = (st.tcb y).xItemValue

theorem vListInsert_inserted
    (hs : (st.items id).Pairwise fun y z => (st.tcb y).xItemValue ≤ (st.tcb z).xItemValue)
    (hle : ∀ y ∈ st.items id, (st.tcb y).xItemValue ≤ portMaxDelay) :
    Inserted id x st (vListInsert id x st) where
  sorted := by
    simp only [vListInsert, State.items, State.modifyTcb_lists, State.setList_lists,
      Function.update_self]
    split
    · next hmax =>
        refine List.pairwise_append.mpr ⟨hs, List.pairwise_singleton _ _, fun y hy z hz => ?_⟩
        rw [List.mem_singleton.mp hz, hmax]
        exact hle y hy
    · have hst : CursorList.StableSorted (fun y => (st.tcb y).xItemValue) (fun _ _ => True)
          (st.items id) := hs.imp fun h => ⟨h, fun _ => trivial⟩
      exact (hst.orderedInsert fun _ _ => trivial).imp fun h => h.1
  mem y := by
    simp only [vListInsert, State.items, State.modifyTcb_lists, State.setList_lists,
      Function.update_self]
    split
    · rw [CursorList.append, List.mem_append, List.mem_singleton, or_comm]
    · exact (List.perm_orderedInsert _ x _).mem_iff.trans List.mem_cons
  others k hk := by simp [vListInsert, State.items, hk]
  value y := by
    by_cases hy : y = x
    · subst hy
      simp [vListInsert]
    · simp [vListInsert, hy]

/-- The list for times ahead, or the one for times behind. -/
def wakeList (v : Nat) (st : State) : ListId :=
  if v < st.xTickCount then st.pxOverflowDelayedTaskList else st.pxDelayedTaskList

/-- The task goes to sleep until the tick count is `v`. -/
def sleepUntil (x : TaskHandle) (v : Nat) (st : State) : State :=
  let st' := vListInsert (wakeList v st) x (setItemValue x v st)
  { st' with xNextTaskUnblockTime :=
      if v < st.xTickCount then st.xNextTaskUnblockTime
      else min v st.xNextTaskUnblockTime }

theorem delayedList_sleeps {c : TaskHandle} {b : Bool} (hc : st.pxCurrentTCB = some c)
    (hn : ¬ (n = portMaxDelay ∧ b = true)) :
    prvAddCurrentTaskToDelayedList n b st =
      sleepUntil c (tickAdd st.xTickCount n) (uxListRemove c st) := by
  have htick : (uxListRemove c st).xTickCount = st.xTickCount := uxListRemove_sameJobs.tick
  rw [prvAddCurrentTaskToDelayedList, hc]
  dsimp only
  rw [if_neg hn, sleepUntil, wakeList, htick]
  generalize uxListRemove c st = s at *
  have hs : (setItemValue c (tickAdd st.xTickCount n) s).xTickCount = st.xTickCount := htick
  rw [hs]
  split
  · rfl
  · split
    · next hlt =>
        have hlt' : tickAdd st.xTickCount n < s.xNextTaskUnblockTime := hlt
        rw [Nat.min_eq_left (Nat.le_of_lt hlt')]
        rfl
    · next hge =>
        have hge' : ¬ tickAdd st.xTickCount n < s.xNextTaskUnblockTime := hge
        rw [Nat.min_eq_right (Nat.not_lt.mp hge')]
        rfl

theorem WellLinked.wakeList_isDelayed (hw : WellLinked created st) :
    (wakeList v st).IsDelayed := by
  rw [wakeList]
  split
  · exact hw.isDelayed.2
  · exact hw.isDelayed.1

theorem Clocked.value_lt (h : Clocked st) (hw : WellLinked created st)
    (hid : id.IsDelayed) (hx : x ∈ st.items id) : (st.tcb x).xItemValue < 2 ^ 64 := by
  rcases hw.delayed_cases hid with rfl | rfl
  · exact (h.ahead x hx).2
  · exact Nat.lt_trans (h.behind x hx) h.tick_lt

section Sleep

variable (h : Clocked st) (hw : WellLinked created st) (hx : Awake x st)

include h hw hx

theorem sleepUntil_inserted :
    Inserted (wakeList v st) x (setItemValue x v st) (sleepUntil x v st) := by
  have hset : OnlyWakes (fun _ => False) st (setItemValue x v st) :=
    setItemValue_onlyWakes hw hx v
  have hc := hset.clocked hw h
  have hid : (wakeList v st).IsDelayed := hw.wakeList_isDelayed
  have hl : WellLinked created (setItemValue x v st) := hw.congr (setItemValue_links v)
  have hins := vListInsert_inserted (x := x) (hc.sorted _ hid) fun y hy =>
    Nat.le_sub_one_of_lt (hc.value_lt hl hid hy)
  exact ⟨hins.sorted, hins.mem, hins.others, hins.value⟩

theorem sleepUntil_value (y : TaskHandle) :
    ((sleepUntil x v st).tcb y).xItemValue = if y = x then v else (st.tcb y).xItemValue := by
  rw [(sleepUntil_inserted h hw hx).value]
  by_cases hy : y = x
  · subst hy
    simp [setItemValue]
  · simp [setItemValue, hy]

theorem sleepUntil_fallsAsleep : FallsAsleep x st (sleepUntil x v st) where
  tick := rfl
  mem id hid y hy := by
    have hins : Inserted (wakeList v st) x (setItemValue x v st) (sleepUntil x v st) :=
      sleepUntil_inserted h hw hx
    by_cases hk : id = wakeList v st
    · rw [hk, hins.mem]
      exact or_iff_right hy
    · rw [hins.others id hk]
      exact Iff.rfl
  value y hy := by rw [sleepUntil_value h hw hx, if_neg hy]
  pending := by
    rw [(sleepUntil_inserted h hw hx).others _ hw.wakeList_isDelayed.ne_pendingReady.symm]
    rfl

/-- A time other than now has its place in the two lists. -/
theorem Clocked.sleepUntil (hrun : st.xSchedulerRunning = true) (hv : v < 2 ^ 64)
    (hne : v ≠ st.xTickCount) : Clocked (FreeRtosSim.sleepUntil x v st) := by
  have hins : Inserted (wakeList v st) x (setItemValue x v st)
      (FreeRtosSim.sleepUntil x v st) := sleepUntil_inserted h hw hx
  have hset : OnlyWakes (fun _ => False) st (setItemValue x v st) :=
    setItemValue_onlyWakes hw hx v
  have hc := hset.clocked hw h
  have hval : ((setItemValue x v st).tcb x).xItemValue = v := by simp [setItemValue]
  have hahead : ∀ y ∈ (FreeRtosSim.sleepUntil x v st).items st.pxDelayedTaskList,
      (y = x ∧ ¬ v < st.xTickCount) ∨ y ∈ (setItemValue x v st).items st.pxDelayedTaskList := by
    intro y hy
    by_cases hlt : v < st.xTickCount
    · have hlist : wakeList v st = st.pxOverflowDelayedTaskList := if_pos hlt
      rw [hins.others _ (hlist ▸ hw.current_ne_overflow)] at hy
      exact Or.inr hy
    · have hlist : wakeList v st = st.pxDelayedTaskList := if_neg hlt
      rw [← hlist, hins.mem] at hy
      rw [← hlist]
      exact hy.imp_left fun he => ⟨he, hlt⟩
  have hbehind : ∀ y ∈ (FreeRtosSim.sleepUntil x v st).items st.pxOverflowDelayedTaskList,
      (y = x ∧ v < st.xTickCount) ∨
        y ∈ (setItemValue x v st).items st.pxOverflowDelayedTaskList := by
    intro y hy
    by_cases hlt : v < st.xTickCount
    · have hlist : wakeList v st = st.pxOverflowDelayedTaskList := if_pos hlt
      rw [← hlist, hins.mem] at hy
      rw [← hlist]
      exact hy.imp_left fun he => ⟨he, hlt⟩
    · have hlist : wakeList v st = st.pxDelayedTaskList := if_neg hlt
      rw [hins.others _ (hlist ▸ hw.current_ne_overflow.symm)] at hy
      exact Or.inr hy
  refine
    { tick_lt := h.tick_lt
      sorted := fun id hid => ?_
      ahead := fun y hy => ?_
      behind := fun y hy => ?_
      next := fun y hy => ?_
      started := fun hno => absurd (hrun.symm.trans hno) (by simp) }
  · by_cases hk : id = wakeList v st
    · rw [hk]
      refine hins.sorted.imp fun hle => ?_
      rw [hins.value, hins.value]
      exact hle
    · rw [hins.others id hk]
      refine (hc.sorted id hid).imp fun hle => ?_
      rw [hins.value, hins.value]
      exact hle
  · show st.xTickCount < _ ∧ _
    rw [hins.value]
    rcases hahead y hy with ⟨rfl, hge⟩ | hy
    · rw [hval]
      omega
    · exact hc.ahead y hy
  · show _ < st.xTickCount
    rw [hins.value]
    rcases hbehind y hy with ⟨rfl, hlt⟩ | hy
    · rw [hval]
      exact hlt
    · exact hc.behind y hy
  · show (if v < st.xTickCount then st.xNextTaskUnblockTime
      else min v st.xNextTaskUnblockTime) ≤ _
    rw [hins.value]
    rcases hahead y hy with ⟨rfl, hge⟩ | hy
    · rw [if_neg hge, hval]
      exact Nat.min_le_left _ _
    · have hfit : st.xNextTaskUnblockTime ≤ ((setItemValue x v st).tcb y).xItemValue :=
        hc.next y hy
      split
      · exact hfit
      · exact Nat.le_trans (Nat.min_le_right _ _) hfit

end Sleep

/-! ## `prvAddCurrentTaskToDelayedList` -/

/-- A wait of at least one tick ends at another tick count than now. -/
theorem tickAdd_ne {t : Nat} (ht : t < 2 ^ 64) (hn : 1 ≤ n) (hmax : n ≤ portMaxDelay) :
    tickAdd t n ≠ t := by
  intro he
  have hsub := Clock.sub_add ht (Nat.lt_of_le_sub_one (by decide) hmax)
  rw [← tickAdd_eq, he, (Clock.sub_eq_zero ht ht).mpr rfl] at hsub
  omega

section Block

variable {c : TaskHandle} {b : Bool} (h : Clocked st) (hw : WellLinked created st)
  (hc : st.pxCurrentTCB = some c)

include h hw hc

theorem awake_of_removed : Clocked (uxListRemove c st) ∧
    WellLinked created (uxListRemove c st) ∧ Awake c (uxListRemove c st) := by
  have hx := hw.current c hc
  have hw₁ := hw.uxListRemove hx
  refine ⟨(uxListRemove_onlyWakes hw hx).clocked hw h, hw₁, hw₁.awake fun id _ => ?_⟩
  rw [uxListRemove_container]
  simp

theorem delayedList_fallsAsleep :
    FallsAsleep c st (prvAddCurrentTaskToDelayedList n b st) := by
  obtain ⟨h₁, hw₁, ha⟩ := awake_of_removed h hw hc
  have hout := uxListRemove_fallsAsleep hw (hw.current c hc)
  by_cases hn : n = portMaxDelay ∧ b = true
  · have heq : prvAddCurrentTaskToDelayedList n b st =
        listInsertEnd .suspended c (uxListRemove c st) := by
      rw [prvAddCurrentTaskToDelayedList, hc]
      exact if_pos hn
    have hput : OnlyWakes (· = c) (uxListRemove c st)
        (listInsertEnd .suspended c (uxListRemove c st)) :=
      listInsertEnd_onlyWakes hw₁ not_isDelayed_suspended (by simp)
    rw [heq]
    refine hout.trans (hput.fallsAsleep (fun y hy => ?_) ?_)
    · simp [listInsertEnd, hy]
    · simp [listInsertEnd, State.items]
  · rw [delayedList_sleeps hc hn]
    exact hout.trans (sleepUntil_fallsAsleep h₁ hw₁ ha)

theorem Clocked.delayedList (hrun : st.xSchedulerRunning = true) (hn : 1 ≤ n)
    (hmax : n ≤ portMaxDelay) : Clocked (prvAddCurrentTaskToDelayedList n b st) := by
  obtain ⟨h₁, hw₁, ha⟩ := awake_of_removed h hw hc
  by_cases hinf : n = portMaxDelay ∧ b = true
  · have heq : prvAddCurrentTaskToDelayedList n b st =
        listInsertEnd .suspended c (uxListRemove c st) := by
      rw [prvAddCurrentTaskToDelayedList, hc]
      exact if_pos hinf
    have hput : OnlyWakes (· = c) (uxListRemove c st)
        (listInsertEnd .suspended c (uxListRemove c st)) :=
      listInsertEnd_onlyWakes hw₁ not_isDelayed_suspended (by simp)
    rw [heq]
    exact hput.clocked hw₁ h₁
  · rw [delayedList_sleeps hc hinf]
    refine h₁.sleepUntil hw₁ ha ?_ (Clock.add_lt (by decide)) ?_
    · rw [uxListRemove_sameJobs.running]
      exact hrun
    · rw [uxListRemove_sameJobs.tick]
      exact tickAdd_ne h.tick_lt hn hmax

end Block

/-! ## The countdown -/

/-- `x` is asleep for another `r` ticks. -/
structure Sleeps (x : TaskHandle) (r : Nat) (st : State) : Prop where
  asleep : ∃ id : ListId, id.IsDelayed ∧ x ∈ st.items id
  left : tickSub (st.tcb x).xItemValue st.xTickCount = r
  free : x ∉ st.items .pendingReady

/-- The ticks `x` has left to sleep. -/
def Countdown (x : TaskHandle) : Nat → State → Prop
  | 0, st => Awake x st
  | r + 1, st => Sleeps x (r + 1) st

theorem Awake.sublist (h : Awake x st)
    (hs : ∀ id : ListId, id.IsDelayed → (st₁.items id).Sublist (st.items id)) :
    Awake x st₁ := fun id hid hx => h id hid ((hs id hid).subset hx)

theorem Sleeps.wakes (h : Sleeps x r st) (ho : OnlyWakes T st st₁) (hT : ¬ T x) :
    Sleeps x r st₁ := by
  obtain ⟨id, hid, hx⟩ := h.asleep
  have hstay := ho.stays id hid x hx hT
  refine ⟨⟨id, hid, hstay⟩, ?_, fun hp => ?_⟩
  · rw [ho.value id hid x hstay, ho.tick]
    exact h.left
  · rcases ho.pending x hp with hp | ht | hno
    · exact h.free hp
    · exact hT ht
    · exact hno id hid hx

/-- Only who is among those that may be woken can lose count. -/
theorem Countdown.wakes (h : Countdown x r st)
    (ho : OnlyWakes (fun y => T y ∨ y ∈ st.items .pendingReady) st st₁)
    (hT : T x → r = 0) : Countdown x r st₁ := by
  cases r with
  | zero => exact Awake.sublist h ho.sublist
  | succ r =>
      have hs : Sleeps x (r + 1) st := h
      refine hs.wakes ho fun hx => ?_
      rcases hx with ht | hp
      · exact absurd (hT ht) (by simp)
      · exact hs.free hp

/-- Somebody else goes to sleep. -/
theorem Countdown.fallsAsleep (h : Countdown x r st) (hf : FallsAsleep y st st₁)
    (hne : x ≠ y) : Countdown x r st₁ := by
  cases r with
  | zero => exact fun id hid hx => h id hid ((hf.mem id hid x hne).mp hx)
  | succ r =>
      have hs : Sleeps x (r + 1) st := h
      obtain ⟨id, hid, hx⟩ := hs.asleep
      refine ⟨⟨id, hid, (hf.mem id hid x hne).mpr hx⟩, ?_, ?_⟩
      · rw [hf.value x hne, hf.tick]
        exact hs.left
      · rw [hf.pending]
        exact hs.free

/-- Whoever falls asleep for `n` ticks has `n` ticks to go. -/
theorem Clocked.countdown {c : TaskHandle} {b : Bool} (h : Clocked st)
    (hw : WellLinked created st) (hc : st.pxCurrentTCB = some c) (hn : 1 ≤ n)
    (hlt : n < portMaxDelay) (hfree : c ∉ st.items .pendingReady) :
    Countdown c n (prvAddCurrentTaskToDelayedList n b st) := by
  obtain ⟨h₁, hw₁, ha⟩ := awake_of_removed h hw hc
  have hpend := (delayedList_fallsAsleep (n := n) (b := b) h hw hc).pending
  have hinf : ¬ (n = portMaxDelay ∧ b = true) := fun he => by omega
  rw [delayedList_sleeps hc hinf] at hpend ⊢
  have hins := sleepUntil_inserted (v := tickAdd st.xTickCount n) h₁ hw₁ ha
  have hval := sleepUntil_value (v := tickAdd st.xTickCount n) h₁ hw₁ ha c
  rw [if_pos rfl] at hval
  have hsleep : Sleeps c n
      (FreeRtosSim.sleepUntil c (tickAdd st.xTickCount n) (uxListRemove c st)) := by
    refine ⟨⟨_, hw₁.wakeList_isDelayed, (hins.mem c).mpr (Or.inl rfl)⟩, ?_, ?_⟩
    · have htick : (FreeRtosSim.sleepUntil c (tickAdd st.xTickCount n)
          (uxListRemove c st)).xTickCount = st.xTickCount := uxListRemove_sameJobs.tick
      rw [hval, htick, tickAdd_eq, tickSub_eq]
      exact Clock.sub_add h.tick_lt (Nat.lt_of_lt_of_le hlt (by decide))
    · rw [hpend]
      exact hfree
  cases n with
  | zero => omega
  | succ n => exact hsleep

section Tick

variable (h : Countdown x r st) (hc : Clocked st)

include h hc

/-- The task is due at its last tick. -/
theorem Countdown.due (hw : WellLinked created st) : x ∈ dueTasks st ↔ r = 1 := by
  rw [mem_dueTasks hc hw]
  cases r with
  | zero => exact iff_of_false (fun hx => awake_iff.mp h hx.1) (by simp)
  | succ r =>
      have hs : Sleeps x (r + 1) st := h
      obtain ⟨id, hid, hx⟩ := hs.asleep
      have hv := hc.value_lt hw hid hx
      have hleft := hs.left
      rw [tickSub_eq] at hleft
      rw [and_iff_right (asleep_iff.mpr hs.asleep)]
      constructor
      · intro he
        rw [he, tickAdd_eq, Clock.sub_add hc.tick_lt (by decide)] at hleft
        exact hleft.symm
      · intro hr
        rw [← Clock.add_sub hv hc.tick_lt, hleft, hr, tickAdd_eq]

/-- A tick takes one off. -/
theorem Countdown.increment (ht : Ticking created st)
    (hord : st.pxCurrentTCB = some x → (st.tcb x).xTaskPeriod = 0)
    (hok : xTaskIncrementTick alg st = .ok (sw, st₁)) : Countdown x (r - 1) st₁ := by
  obtain ⟨st₀, b, hp, hpro, hwakes⟩ := increment_wakes ht hok
  have hdue := h.due hc ht.linked
  have hfirst := prologue_wakes hc ht.linked ht.nonePending hp
  have hspec := countTick_spec st
  cases r with
  | zero =>
      have ha : Awake x (countTick st) := fun id hid hx => by
        rw [State.items, hspec.lists] at hx
        exact h id hid hx
      exact (ha.sublist hfirst.sublist).sublist hwakes.sublist
  | succ r =>
      have hs : Sleeps x (r + 1) st := h
      obtain ⟨id, hid, hx⟩ := hs.asleep
      have hv := hc.value_lt ht.linked hid hx
      cases r with
      | zero =>
          have ha := hpro.awake (hdue.mpr rfl)
          exact ha.sublist hwakes.sublist
      | succ r =>
          have hcount : Sleeps x (r + 1) (countTick st) := by
            refine ⟨⟨id, hid, ?_⟩, ?_, ?_⟩
            · rw [State.items, hspec.lists]
              exact hx
            · have hleft := hs.left
              rw [hspec.tick, hspec.tcb, tickSub_eq, tickAdd_eq]
              rw [tickSub_eq] at hleft
              have hstep := Clock.sub_tick hv hc.tick_lt (by omega)
              omega
            · rw [State.items, hspec.lists]
              exact hs.free
          refine (hcount.wakes hfirst fun hd => ?_).wakes hwakes fun hcur => ?_
          · exact absurd (hdue.mp hd) (by omega)
          · exact hcur.2 (hord hcur.1)

end Tick

end FreeRtosSim
