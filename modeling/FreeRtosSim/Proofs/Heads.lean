import FreeRtosSim.Proofs.Homed
import FreeRtosSim.Proofs.Keyed

/-!
# The head of the ready lists during a tick

Which task heads the highest ready list that is not empty, followed through
the stages of a tick for the running task `c` of priority `p`. As long as
only tasks of lower priority are unblocked, the prologue does not touch the
lists that matter; the accounting takes out nobody but `c`; `killTasks` takes
out others, behind `c`; and `wakeTasks` puts tasks in, which displaces `c`
exactly if one of them outranks it or is inserted in front of it.
-/

namespace FreeRtosSim

variable {created : List TaskHandle} {alg : Algorithm} {st st₁ st₂ : State}
  {x y c : TaskHandle} {id : ListId} {t p q : Nat} {b : TCB}

/-- The first task of the highest list that is not empty, from list `p`
downwards. -/
def topFrom (st : State) : Nat → Option TaskHandle
  | 0 => (st.items (.ready 0)).head?
  | p + 1 => (st.items (.ready (p + 1))).head?.or (topFrom st p)

/-- The head of the highest-priority ready list that is not empty. -/
def topTask (st : State) : Option TaskHandle :=
  topFrom st (configMaxPriorities - 1)

/-- `c` heads ready list `p`, and the lists above are empty. -/
structure IsTop (st : State) (c : TaskHandle) (p : Nat) : Prop where
  head : (st.items (.ready p)).head? = some c
  upper : ∀ q, p < q → q < configMaxPriorities → st.items (.ready q) = []

theorem topFrom_eq_some {n : Nat} : topFrom st n = some c ↔
    ∃ p ≤ n, (st.items (.ready p)).head? = some c ∧
      ∀ q, p < q → q ≤ n → st.items (.ready q) = [] := by
  induction n with
  | zero =>
      rw [topFrom]
      constructor
      · intro h
        exact ⟨0, Nat.le_refl 0, h, fun q hlo hhi => absurd hlo (by omega)⟩
      · rintro ⟨p, hp, h, -⟩
        rwa [Nat.le_zero.mp hp] at h
  | succ n ih =>
      rw [topFrom, Option.or_eq_some_iff, ih]
      constructor
      · rintro (h | ⟨hnone, p, hp, h, hupper⟩)
        · exact ⟨n + 1, Nat.le_refl _, h, fun q hlo hhi => absurd hlo (by omega)⟩
        · refine ⟨p, by omega, h, fun q hlo hhi => ?_⟩
          rcases Nat.eq_or_lt_of_le hhi with rfl | hlt
          · exact List.head?_eq_none_iff.mp hnone
          · exact hupper q hlo (by omega)
      · rintro ⟨p, hp, h, hupper⟩
        rcases Nat.eq_or_lt_of_le hp with rfl | hlt
        · exact Or.inl h
        · refine Or.inr ⟨?_, p, by omega, h, fun q hlo hhi => hupper q hlo (by omega)⟩
          rw [hupper (n + 1) hlt (Nat.le_refl _)]
          rfl

theorem topTask_eq_some : topTask st = some c ↔
    ∃ p < configMaxPriorities, IsTop st c p := by
  have hmax : ∀ p, p ≤ configMaxPriorities - 1 ↔ p < configMaxPriorities := by
    intro p
    rw [configMaxPriorities]
    omega
  rw [topTask, topFrom_eq_some]
  simp only [hmax]
  exact exists_congr fun p => and_congr_right fun _ =>
    ⟨fun h => ⟨h.1, h.2⟩, fun h => ⟨h.head, h.upper⟩⟩

/-- A task that is in ready list `p` can only be the top of that list. -/
theorem WellLinked.topTask_iff (h : WellLinked created st) (hp : p < configMaxPriorities)
    (hc : (st.tcb c).pxContainer = some (.ready p)) :
    topTask st = some c ↔ IsTop st c p := by
  rw [topTask_eq_some]
  refine ⟨fun ⟨q, hq, htop⟩ => ?_, fun htop => ⟨p, hp, htop⟩⟩
  have hmem : c ∈ st.items (.ready q) := List.mem_of_head? htop.head
  have hc' := ((h.linked (.ready q) (by simp) c).mp hmem).2
  rw [hc, Option.some_inj, ListId.ready.injEq] at hc'
  exact hc' ▸ htop

theorem IsTop.congr (h : IsTop st c p)
    (hl : ∀ q, p ≤ q → st₁.items (.ready q) = st.items (.ready q)) :
    IsTop st₁ c p where
  head := by rw [hl p (Nat.le_refl p)]; exact h.head
  upper q hlo hhi := by rw [hl q (Nat.le_of_lt hlo)]; exact h.upper q hlo hhi

/-! ## The prologue -/

theorem prvAddTaskToReadyList_yieldPending (alg : Algorithm) (x : TaskHandle)
    (st : State) :
    (prvAddTaskToReadyList alg x st).xYieldPending = st.xYieldPending := by
  cases alg with
  | edf =>
      simp only [prvAddTaskToReadyList, prvAddTaskToReadyListEdf]
      split <;> rfl
  | bwp =>
      simp only [prvAddTaskToReadyList, prvAddTaskToReadyListBwp]
      split
      · rfl
      · split
        · rfl
        · split <;> rfl
  | rto =>
      simp only [prvAddTaskToReadyList, prvAddTaskToReadyListRto]
      split
      · rfl
      · split
        · rfl
        · split
          · rfl
          · split <;> rfl

theorem unblock_yieldPending :
    (unblock alg st x).xYieldPending = st.xYieldPending := by
  rw [unblock, prvAddTaskToReadyList_yieldPending]
  show (uxListRemove x st).xYieldPending = st.xYieldPending
  rw [uxListRemove]
  split <;> rfl

theorem unblock_lists (h : WellLinked created st) (hx : x ∈ created)
    (hn : NonePending st) (hc : (st.tcb x).pxContainer ≠ some (.ready q))
    (hq : (st.tcb x).uxPriority ≠ q) :
    (unblock alg st x).lists (.ready q) = st.lists (.ready q) := by
  rw [unblock, prvAddTaskToReadyList_lists]
  · exact uxListRemove_lists hc
  · exact (h.unblocked hx hn).wellFormed
  · intro htarget
    rcases readyTarget_cases htarget with he | he
    · refine hq ?_
      have hp : ((unblocked x st).tcb x).uxPriority = (st.tcb x).uxPriority := by
        rw [unblocked_tcb]
      rw [← hp]
      exact (ListId.ready.inj he).symm
    · exact absurd he (by simp)

/-- The prologue of a tick that unblocks no task of priority `p` or more. -/
structure QuietPrologue (p : Nat) (st st₁ : State) : Prop where
  others : ∀ y, y ∉ dueTasks st → st₁.tcb y = st.tcb y
  lists : ∀ q, p ≤ q → st₁.lists (.ready q) = st.lists (.ready q)

/-- A task that is due is on a delayed list. -/
theorem WellLinked.due_container (h : WellLinked created st) (hx : x ∈ dueTasks st) :
    (st.tcb x).pxContainer = some .delayed1 ∨
      (st.tcb x).pxContainer = some .delayed2 := by
  obtain ⟨id, hid, hsub⟩ := dueTasks_sublist st
  have hmem := hsub.subset hx
  have hne : id = .delayed1 ∨ id = .delayed2 := by
    rcases h.delayed with ⟨hd, ho⟩ | ⟨hd, ho⟩ <;> rw [hd, ho] at hid
    · exact hid
    · exact hid.symm
  rcases hne with rfl | rfl
  · exact Or.inl ((h.linked _ (by simp) x).mp hmem).2
  · exact Or.inr ((h.linked _ (by simp) x).mp hmem).2

theorem WellLinked.due_not_ready (h : WellLinked created st) (hx : x ∈ dueTasks st)
    (q : Nat) : (st.tcb x).pxContainer ≠ some (.ready q) := by
  rcases h.due_container hx with hc | hc <;> rw [hc] <;> simp

section Prologue

variable {sw : Bool} (h : WellLinked created st) (hn : NonePending st)
  (hok : tickPrologue alg st = .ok (sw, st₁))

include h hn hok

/-- What the tick returns: whether a due task outranks the running one or a
yield is pending. -/
theorem tickPrologue_switch :
    sw = (((dueTasks st).any fun x => outranksCurrent x st) || st.xYieldPending) := by
  obtain ⟨v, hv⟩ := unblockDue_eq alg h hn
  have heq := (tickPrologue_cases alg st).resolve_left (by rw [hok]; simp)
  rw [hok, Except.ok.injEq, hv, Prod.mk.injEq] at heq
  have hspec := countTick_spec st
  have hn' : NonePending (countTick st) := by
    rw [NonePending, State.items, hspec.lists]
    exact hn
  obtain ⟨hnd, hcreated⟩ := dueTasks_created h
  have hyield := (unblock_pointwise created alg (countTick st).xTickCount).foldl_rel
    (R := fun a b => b.xYieldPending = a.xYieldPending) (fun _ => rfl)
    (fun ha hb => hb.trans ha) (fun _ _ _ _ => unblock_yieldPending) _
    (countTick st) hnd ⟨h.countTick, hn', rfl⟩ hcreated
  have hrank : ∀ x, outranksCurrent x (countTick st) = outranksCurrent x st :=
    fun x => outranksCurrent_congr hspec.current (fun y => by rw [hspec.tcb]) x
  rw [heq.1, hyield, countTick_yieldPending]
  simp only [hrank]

theorem tickPrologue_quiet_lists (hlow : ∀ x ∈ dueTasks st, (st.tcb x).uxPriority < p) :
    QuietPrologue p st st₁ := by
  obtain ⟨v, hv⟩ := unblockDue_eq alg h hn
  have heq := (tickPrologue_cases alg st).resolve_left (by rw [hok]; simp)
  rw [hok, Except.ok.injEq, hv, Prod.mk.injEq] at heq
  have hspec := countTick_spec st
  have hn' : NonePending (countTick st) := by
    rw [NonePending, State.items, hspec.lists]
    exact hn
  obtain ⟨hnd, hcreated⟩ := dueTasks_created h
  have hpoint := unblock_pointwise created alg (countTick st).xTickCount
  rw [heq.2]
  constructor
  · intro y hy
    have hrel := (hpoint.strengthen (fun x _ => x ∈ created ∧ y ≠ x)
      fun x b hb => hb.1).foldl_rel (R := fun a b => b.tcb y = a.tcb y)
      (fun _ => rfl) (fun ha hb => hb.trans ha)
      (fun s x hs hx => unblock_tcb_other hs.1 hx.1 hs.2.1 hx.2)
      _ (countTick st) hnd ⟨h.countTick, hn', rfl⟩
      fun x hx => ⟨hcreated x hx, fun he => hy (he ▸ hx)⟩
    exact hrel.trans (by rw [hspec.tcb])
  · intro q hq
    have hpre : ∀ x ∈ dueTasks st, x ∈ created ∧
        (State.block (countTick st) x).uxPriority < p ∧
        (State.block (countTick st) x).pxContainer ≠ some (.ready q) := by
      intro x hx
      have hsame : (countTick st).tcb x = st.tcb x := by rw [hspec.tcb]
      rw [State.block, hsame]
      exact ⟨hcreated x hx, hlow x hx, h.due_not_ready hx q⟩
    have hrel := (hpoint.strengthen (fun x b => x ∈ created ∧
        b.uxPriority < p ∧ b.pxContainer ≠ some (.ready q)) fun x b hb => hb.1).foldl_rel
      (R := fun a b => b.lists (.ready q) = a.lists (.ready q))
      (fun _ => rfl) (fun ha hb => hb.trans ha)
      (fun s x hs hx => unblock_lists hs.1 hx.1 hs.2.1 hx.2.2
        (Nat.ne_of_lt (Nat.lt_of_lt_of_le hx.2.1 hq)))
      _ (countTick st) hnd ⟨h.countTick, hn', rfl⟩ hpre
    exact hrel.trans (by rw [hspec.lists])

end Prologue

end FreeRtosSim
