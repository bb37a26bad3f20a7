import FreeRtosSim.Proofs.Orderly

/-!
# No wake-up is lost

The danger of blocking is the gap between finding the queue empty and being
on the event list. `prvLockQueue` closes it: what interrupts do in the gap is
counted in the lock, and the loops of `prvUnlockQueue` wake as many tasks. So
while a task waits for an item, or is about to, there are no more items than
tasks on their way to take one and wake-ups the lock still owes; and the same
holds of room for an item. When all tasks have settled, nobody waits for what
is there.
-/

namespace FreeRtosSim

variable {α : Type} {q q' : QueueDefinition α}

/-- Most of `R` is in `R'`, and the list is new there. -/
theorem card_add_length_le {R R' lost : Finset TaskHandle}
    {woken : List TaskHandle} (hkeep : ∀ y ∈ R, y ∉ lost → y ∈ R')
    (hnodup : woken.Nodup) (hnew : ∀ y ∈ woken, y ∈ R' ∧ y ∉ R) :
    R.card + woken.length ≤ R'.card + lost.card := by
  have hdisjoint : Disjoint (R \ lost) woken.toFinset :=
    Finset.disjoint_left.mpr fun y hy hw =>
      (hnew y (List.mem_toFinset.mp hw)).2 (Finset.mem_sdiff.mp hy).1
  have hsub : (R \ lost) ∪ woken.toFinset ⊆ R' := by
    intro y hy
    rcases Finset.mem_union.mp hy with hy | hy
    · obtain ⟨hR, hlost⟩ := Finset.mem_sdiff.mp hy
      exact hkeep y hR hlost
    · exact (hnew y (List.mem_toFinset.mp hy)).1
  have hcard := Finset.card_le_card hsub
  rw [Finset.card_union_of_disjoint hdisjoint,
    List.toFinset_card_of_nodup hnodup] at hcard
  have hsdiff := Finset.card_le_card_sdiff_add_card (s := R) (t := lost)
  omega

/-- The task has locked what counts the wake-ups of the side. -/
def Phase.Locks (side : Side) : Phase α → Prop
  | .locked _ | .mustWait _ | .unlockTx .. => True
  | .unlockRx .. => side = .sender
  | _ => False

theorem Phase.Locks.suspending {side : Side} {p : Phase α} (h : p.Locks side) :
    p.Suspending := by
  cases p with
  | locked | mustWait | unlockTx | unlockRx => trivial
  | _ => exact h.elim

namespace QueueSystem

open QueueDefinition

variable {s s' : QueueSystem α} {xTaskPeriod uxPriority : TaskHandle → Nat}
  {tasks : Finset TaskHandle} {es : List (QueueEvent α)} {side : Side}
  {x : TaskHandle}

open Classical in
/-- The tasks of a side that are going to try again without being woken. -/
noncomputable def retrying (side : Side) (tasks : Finset TaskHandle)
    (s : QueueSystem α) : Finset TaskHandle :=
  tasks.filter fun x => (s.phase x).Retries side (s.queue.waiting side) x

theorem mem_retrying : x ∈ s.retrying side tasks ↔
    x ∈ tasks ∧ (s.phase x).Retries side (s.queue.waiting side) x := by
  classical
  exact Finset.mem_filter

/-- A task of the side is on the event list or about to be. -/
def Watched (side : Side) (s : QueueSystem α) : Prop :=
  s.queue.waiting side ≠ [] ∨ ∃ x, (s.phase x).Looking side

theorem Watched.nonempty (h : s.Watched side)
    (hlook : ∀ y, ¬ (s.phase y).Looking side) : s.queue.waiting side ≠ [] := by
  rcases h with hne | ⟨y, hy⟩
  · exact hne
  · exact absurd hy (hlook y)

/-- As long as anybody waits, there is a task on its way, or a wake-up to
come, for everything there is. -/
def Covered (side : Side) (tasks : Finset TaskHandle) (s : QueueSystem α) :
    Prop :=
  s.Watched side → s.queue.available side ≤
    (s.retrying side tasks).card + (s.queue.lock side).toNat

theorem Orderly.not_looking (h : s.Orderly uxPriority tasks)
    (hsusp : s.suspender = some x ∨ s.suspender = none)
    (hx : ¬ (s.phase x).Looking side) (y : TaskHandle) :
    ¬ (s.phase y).Looking side := fun hlook => by
  by_cases hy : y = x
  · exact hx (hy ▸ hlook)
  · exact h.alone hsusp hy hlook.holding

/-- What `x` does when it moves does not keep the others from trying. -/
theorem retries_update {p : Phase α} {l l' : List TaskHandle}
    (hx : (s.phase x).Retries side l x → p.Retries side l' x)
    (hl : ∀ y, y ≠ x → y ∈ l' → y ∈ l) (y : TaskHandle)
    (hy : (s.phase y).Retries side l y) :
    (Function.update s.phase x p y).Retries side l' y := by
  by_cases hne : y = x
  · subst hne
    rw [Function.update_self]
    exact hx hy
  · rw [Function.update_of_ne hne]
    exact hy.mono (hl y hne)

theorem not_looking_update {p : Phase α} (hp : ¬ p.Looking side)
    (h : ∀ y, ¬ (s.phase y).Looking side) (y : TaskHandle) :
    ¬ (Function.update s.phase x p y).Looking side := by
  by_cases hne : y = x
  · subst hne
    rw [Function.update_self]
    exact hp
  · rw [Function.update_of_ne hne]
    exact h y

namespace Covered

/-- Nothing is there, or nobody waits. -/
theorem of_zero (h : s'.Watched side → s'.queue.available side = 0) :
    s'.Covered side tasks := fun hw => by
  rw [h hw]
  exact Nat.zero_le _

variable (h : s.Covered side tasks)

include h

/-- Nothing new is there, and everybody on the way still is. -/
theorem mono (hwatch : s'.Watched side → s.Watched side)
    (havail : s'.queue.available side ≤ s.queue.available side)
    (hlock : (s.queue.lock side).toNat ≤ (s'.queue.lock side).toNat)
    (hkeep : ∀ y, (s.phase y).Retries side (s.queue.waiting side) y →
      (s'.phase y).Retries side (s'.queue.waiting side) y) :
    s'.Covered side tasks := fun hw => by
  have hcard : (s.retrying side tasks).card ≤ (s'.retrying side tasks).card :=
    Finset.card_le_card fun y hy => by
      obtain ⟨hmem, hretry⟩ := mem_retrying.mp hy
      exact mem_retrying.mpr ⟨hmem, hkeep y hretry⟩
  have hold := h (hwatch hw)
  omega

/-- `x` moves on, and those who wait see nothing of it. -/
theorem moved {pxQueue : QueueDefinition α} {p₀ p : Phase α}
    {o : Option TaskHandle} (hphase : s.phase x = p₀)
    (hlook : p.Looking side → p₀.Looking side)
    (hx : p₀.Retries side (s.queue.waiting side) x →
      p.Retries side (s.queue.waiting side) x)
    (hwaiting : pxQueue.waiting side = s.queue.waiting side)
    (havail : pxQueue.available side = s.queue.available side)
    (hlock : (pxQueue.lock side).toNat = (s.queue.lock side).toNat) :
    Covered side tasks ⟨pxQueue, Function.update s.phase x p, o⟩ := by
  subst hphase
  refine h.mono (fun hw => ?_) (Nat.le_of_eq havail) (Nat.le_of_eq hlock.symm)
    (retries_update (fun hretry => ?_) fun _ _ hy => hwaiting ▸ hy)
  · rcases hw with hw | ⟨y, hy⟩
    · exact Or.inl (hwaiting ▸ hw)
    · by_contra hnot
      exact not_looking_update (fun hp => hnot (Or.inr ⟨x, hlook hp⟩))
        (fun y hy => hnot (Or.inr ⟨y, hy⟩)) y hy
  · rw [show waiting side pxQueue = _ from hwaiting]
    exact hx hretry

/-- `x` moves on, and the queue is as it was. -/
theorem turn {p₀ p : Phase α} {o : Option TaskHandle}
    (hphase : s.phase x = p₀) (hlook : p.Looking side → p₀.Looking side)
    (hx : p₀.Retries side (s.queue.waiting side) x →
      p.Retries side (s.queue.waiting side) x) :
    Covered side tasks ⟨s.queue, Function.update s.phase x p, o⟩ :=
  h.moved hphase hlook hx rfl rfl rfl

/-- The tasks at the head of the event list are woken, and those in `lost`
have had what they were after. -/
theorem wake (woken : List TaskHandle) (lost : Finset TaskHandle)
    (horder : s.Orderly uxPriority tasks)
    (hwatch : s'.Watched side → s.Watched side)
    (hwaiting : s.queue.waiting side = woken ++ s'.queue.waiting side)
    (hplaced : ∀ y ∈ woken, (s'.phase y).Placed side)
    (hkeep : ∀ y, y ∉ lost → (s.phase y).Retries side
      (s.queue.waiting side) y →
        (s'.phase y).Retries side (s'.queue.waiting side) y)
    (hamount : s'.queue.available side + (s.queue.lock side).toNat + lost.card ≤
      s.queue.available side + (s'.queue.lock side).toNat + woken.length ∨
      s'.queue.available side = 0) :
    s'.Covered side tasks := fun hw => by
  have hnodup := horder.nodup side
  rw [hwaiting] at hnodup
  obtain ⟨hwoken, -, hdisjoint⟩ := List.nodup_append'.mp hnodup
  have hmem : ∀ y ∈ woken, y ∈ s.queue.waiting side := fun y hy =>
    hwaiting ▸ List.mem_append_left _ hy
  have hcard : (s.retrying side tasks).card + woken.length ≤
      (s'.retrying side tasks).card + lost.card := by
    refine card_add_length_le (fun y hy hlost => ?_) hwoken fun y hy => ⟨?_, ?_⟩
    · obtain ⟨hmem, hretry⟩ := mem_retrying.mp hy
      exact mem_retrying.mpr ⟨hmem, hkeep y hlost hretry⟩
    · have hplace := horder.placed side y (hmem y hy)
      refine mem_retrying.mpr ⟨horder.mem rfl fun hout => ?_,
        (hplaced y hy).retries fun hin => hdisjoint hy hin⟩
      rw [hout] at hplace
      exact hplace
    · exact fun hretry => (horder.placed side y (hmem y hy)).not_retries
        (hmem y hy) (mem_retrying.mp hretry).2
  have hold := h (hwatch hw)
  omega

/-- The first task on the event list is woken, if there is one. -/
theorem wakeFirst (lost : Finset TaskHandle)
    (horder : s.Orderly uxPriority tasks)
    (hlook : ∀ y, ¬ (s'.phase y).Looking side)
    (hwaiting : s'.queue.waiting side = (s.queue.waiting side).tail)
    (hplaced : ∀ y ∈ s.queue.waiting side, (s'.phase y).Placed side)
    (hkeep : ∀ y, y ∉ lost → (s.phase y).Retries side
      (s.queue.waiting side) y →
        (s'.phase y).Retries side (s'.queue.waiting side) y)
    (hamount : s'.queue.available side + lost.card ≤
      s.queue.available side + 1)
    (hlock : s'.queue.lock side = s.queue.lock side) :
    s'.Covered side tasks := by
  cases hold : s.queue.waiting side with
  | nil =>
      rw [hold] at hwaiting
      exact .of_zero fun hw => absurd hwaiting (hw.nonempty hlook)
  | cons y ys =>
      rw [hold] at hwaiting hplaced
      refine h.wake [y] lost horder (fun _ => Or.inl ?_) ?_
        (fun z hz => hplaced z ?_) hkeep (Or.inl ?_)
      · rw [hold]
        exact List.cons_ne_nil _ _
      · rw [hold, hwaiting]
        rfl
      · rw [List.mem_singleton.mp hz]
        exact List.mem_cons_self
      · rw [hlock, List.length_singleton]
        omega

/-- `x` gets through the critical section. -/
theorem succeed {call : QueueCall α} {mayBlock : Bool}
    {e : QueueEvent α} {pxQueue : QueueDefinition α} {o : Option TaskHandle}
    (horder : s.Orderly uxPriority tasks) (hassert : call.Asserts s.queue)
    (hnone : s.suspender = none) (hphase : s.phase x = .attempt call mayBlock)
    (hsection : call.criticalSection s.queue = some (pxQueue, e)) :
    Covered side tasks ⟨pxQueue, Function.update s.phase x .outside, o⟩ := by
  have hlook : ∀ y, ¬ (Function.update s.phase x .outside y).Looking side :=
    not_looking_update id (horder.not_looking (Or.inr hnone) fun hp => by
      rw [hphase] at hp
      exact hp)
  have hplaced : ∀ y ∈ s.queue.waiting side,
      (Function.update s.phase x .outside y).Placed side := fun y hy => by
    have hplace := horder.placed side y hy
    have hne : y ≠ x := by
      rintro rfl
      rw [hphase] at hplace
      exact hplace
    rwa [Function.update_of_ne hne]
  have hothers : (pxQueue.waiting side).Sublist (s.queue.waiting side) →
      ∀ y, y ∉ ({x} : Finset TaskHandle) →
      (s.phase y).Retries side (s.queue.waiting side) y →
        (Function.update s.phase x .outside y).Retries side
          (pxQueue.waiting side) y := fun hsub y hy hretry => by
    rw [Function.update_of_ne fun heq => hy (Finset.mem_singleton.mpr heq)]
    exact hretry.mono fun hin => hsub.subset hin
  have hall : side = call.side.other →
      (pxQueue.waiting side).Sublist (s.queue.waiting side) →
      ∀ y, (s.phase y).Retries side (s.queue.waiting side) y →
        (Function.update s.phase x .outside y).Retries side
          (pxQueue.waiting side) y := fun hside hsub =>
    retries_update (fun hretry => by
      rw [hphase, hside] at hretry
      exact absurd hretry.symm call.side.other_ne) fun _ _ hin => hsub.subset hin
  have hsides : side = call.side ∨ side = call.side.other := by
    cases side <;> cases call.side <;> simp [Side.other]
  have hlists := (criticalSection_lists hassert hsection side).1
  rcases criticalSection_effect hassert hsection with
    ⟨huses, hwakes⟩ | ⟨hpass, hkeep⟩
  · rcases hsides with rfl | hother
    · refine h.wake [] {x} horder (fun hw => ?_) huses.waiting.symm (List.forall_mem_nil _)
        (hothers hlists) ?_
      · exact Or.inl (huses.waiting ▸ hw.nonempty hlook)
      · have havail := huses.available
        have hlock := huses.lock
        simp only [Finset.card_singleton, List.length_nil] at *
        rw [hlock]
        omega
    · have hkeep := hall hother hlists
      subst hother
      refine h.wakeFirst ∅ horder hlook hwakes.waiting hplaced
        (fun y _ => hkeep y) ?_ hwakes.lock
      rw [Finset.card_empty]
      exact hwakes.available
  · rcases hsides with rfl | hother
    · refine h.wakeFirst {x} horder hlook hpass.waiting hplaced (hothers hlists) ?_
        hpass.lock
      rw [Finset.card_singleton]
      exact Nat.add_le_add_right hpass.available 1
    · have hretry := hall hother hlists
      subst hother
      refine h.mono (fun hw => ?_) hkeep.available
        (Nat.le_of_eq (congrArg Int.toNat hkeep.lock.symm)) hretry
      exact Or.inl (hkeep.waiting ▸ hw.nonempty hlook)

/-- No task moves. -/
theorem interrupted {pxQueue : QueueDefinition α}
    (horder : s.Orderly uxPriority tasks)
    (hint : Interrupts s.queue pxQueue) :
    Covered side tasks { s with queue := pxQueue } := by
  have hkeep : ∀ y, (s.phase y).Retries side (s.queue.waiting side) y →
      (s.phase y).Retries side (pxQueue.waiting side) y :=
    fun y hretry => hretry.mono fun hin => (hint.sublist side).subset hin
  rcases hint side with hsame | ⟨hwakes, hlock⟩ | hnotes
  · refine h.mono (fun hw => hw.imp_left fun hne => ?_) hsame.available
      (Nat.le_of_eq (congrArg Int.toNat hsame.lock.symm)) hkeep
    exact hsame.waiting ▸ hne
  · refine h.wakeFirst ∅ horder (fun y hlook => ?_) hwakes.waiting
      (horder.placed side) (fun y _ => hkeep y) ?_ hwakes.lock
    · -- The queue is locked while a task looks.
      have hge := horder.holding y (Phase.Looking.holding hlook) side
      rw [hlock] at hge
      exact absurd hge (by decide)
    · rw [Finset.card_empty]
      exact hwakes.available
  · refine h.wake [] ∅ horder
      (fun hw => hw.imp_left fun hne => ?_) hnotes.waiting.symm (List.forall_mem_nil _)
      (fun y _ => hkeep y) (Or.inl ?_)
    · exact hnotes.waiting ▸ hne
    · have hge := horder.lock_ge side
      have havail := hnotes.available
      have hnoted := hnotes.lock
      have hne := hnotes.locked
      unfold queueUnlocked at hge hne
      simp only [Finset.card_empty, List.length_nil] at *
      omega

/-- `x` wakes as many tasks as the lock has counted. -/
theorem unlock {pxQueue : QueueDefinition α} {p : Phase α}
    {o : Option TaskHandle} (horder : s.Orderly uxPriority tasks)
    (hsome : s.suspender = some x) (hlook : ¬ (s.phase x).Looking side)
    (hp : ¬ p.Looking side)
    (hplaced : (s.phase x).Placed side → p.Placed side)
    (hretry : ∀ l, (s.phase x).Retries side l x → p.Retries side l x)
    (havail : pxQueue.available side = s.queue.available side)
    (hwaiting : pxQueue.waiting side =
      unblockLoop (s.queue.lock side).toNat (s.queue.waiting side)) :
    Covered side tasks ⟨pxQueue, Function.update s.phase x p, o⟩ := by
  have hnobody := not_looking_update (x := x) hp
    (horder.not_looking (Or.inl hsome) hlook)
  rw [unblockLoop_eq] at hwaiting
  by_cases hlen : (s.queue.lock side).toNat ≤ (s.queue.waiting side).length
  · refine h.wake ((s.queue.waiting side).take (s.queue.lock side).toNat) ∅
      horder (fun hw => Or.inl fun hnil => ?_) ?_ (fun y hy => ?_)
      (fun y _ => retries_update (fun hx => ?_) (fun y _ hin => ?_) y)
      (Or.inl ?_)
    · refine (hw.nonempty hnobody) ?_
      rw [hwaiting, hnil, List.drop_nil]
    · rw [hwaiting, List.take_append_drop]
    · have hplace := horder.placed side y (List.mem_of_mem_take hy)
      show (Function.update s.phase x p y).Placed side
      by_cases hne : y = x
      · subst hne
        rw [Function.update_self]
        exact hplaced hplace
      · rwa [Function.update_of_ne hne]
    · rw [hwaiting]
      exact (hretry _ hx).mono fun hin => List.mem_of_mem_drop hin
    · rw [hwaiting] at hin
      exact List.mem_of_mem_drop hin
    · rw [havail, List.length_take, Nat.min_eq_left hlen, Finset.card_empty]
      omega
  · refine .of_zero fun hw => absurd ?_ (hw.nonempty hnobody)
    rw [hwaiting]
    exact List.drop_eq_nil_of_le (Nat.le_of_not_le hlen)

end Covered

theorem Covered.step (h : ∀ side, s.Covered side tasks)
    (horder : s.Orderly uxPriority tasks) (hcalls : s.Asserted)
    (hstep : Step xTaskPeriod uxPriority tasks s es s') (side : Side) :
    s'.Covered side tasks := by
  have hside := h side
  cases hstep with
  | @call x call mayBlock hx hrun hphase hassert =>
      exact hside.turn hphase False.elim fun hp => hp.elim
  | @succeed x call mayBlock pxQueue e hrun hphase hsection =>
      exact hside.succeed horder (hcalls _ _ (congrArg Phase.call hphase))
        (horder.free hrun hphase id) hphase hsection
  | @fail x call mayBlock hrun hphase hsection =>
      by_cases hc : call.side = side
      · exact .of_zero fun _ => hc ▸ available_of_fail hsection
      · refine hside.turn hphase (fun hp => ?_) fun hretry => absurd hretry hc
        split at hp <;> exact hp
  | @suspendAll x call hrun hphase =>
      exact hside.turn hphase False.elim fun hp => hp.elim
  | @lock x call hrun hphase =>
      have hlock := (lock_prvLockQueue horder.lock_ge side).2
      cases side with
      | sender =>
          exact hside.moved hphase False.elim (fun hp => hp.elim) rfl rfl hlock
      | receiver =>
          exact hside.moved hphase False.elim (fun hp => hp.elim) rfl rfl hlock
  | @timeUp x call hrun hphase =>
      exact hside.turn hphase False.elim fun hp => hp.elim
  | @look x call hrun hphase =>
      by_cases hc : s.queue.mustWait call.side = true
      · rw [if_pos hc]
        by_cases hown : call.side = side
        · exact .of_zero fun _ => hown ▸ available_of_mustWait hc
        · exact hside.turn hphase (fun hp => absurd hp hown) fun hp => hp.elim
      · rw [if_neg hc]
        exact hside.turn hphase False.elim fun hp => hp.elim
  | @place x call hrun hphase =>
      have hwaiting := waiting_setWaiting s.queue call.side side
        (placeOnEventList uxPriority x (s.queue.waiting call.side))
      have hlock := lock_setWaiting s.queue call.side side
        (placeOnEventList uxPriority x (s.queue.waiting call.side))
      have havail := available_setWaiting s.queue call.side side
        (placeOnEventList uxPriority x (s.queue.waiting call.side))
      by_cases hown : side = call.side
      · refine hside.mono (fun _ => Or.inr ⟨x, hphase ▸ hown.symm⟩)
          (Nat.le_of_eq havail) (Nat.le_of_eq (congrArg Int.toNat hlock.symm))
          (retries_update (fun hretry => ?_) fun y hne hy => ?_)
        · rw [hphase] at hretry
          exact hretry.elim
        · rw [if_pos hown] at hwaiting
          rw [hwaiting] at hy
          exact hown ▸ (mem_insertByKey.mp hy).resolve_left hne
      · rw [if_neg hown] at hwaiting
        exact hside.moved hphase False.elim (fun hp => hp.elim) hwaiting havail
          (congrArg Int.toNat hlock)
  | @unlockTx x call next hrun hphase =>
      have hsome := horder.holds hphase trivial
      cases side with
      | sender => exact hside.moved hphase False.elim id rfl rfl rfl
      | receiver =>
          exact hside.unlock horder hsome (hphase ▸ id) id
            (hphase ▸ id) (fun _ => hphase ▸ id) rfl rfl
  | @unlockRx x call next hrun hphase =>
      have hsome := horder.holds hphase trivial
      cases side with
      | sender =>
          exact hside.unlock horder hsome (hphase ▸ id) id
            (hphase ▸ id) (fun _ => hphase ▸ id) rfl rfl
      | receiver => exact hside.moved hphase False.elim id rfl rfl rfl
  | @resumeAll x call next hrun hphase =>
      refine hside.turn hphase (fun hp => ?_) ?_
      · exact absurd (Phase.Looking.holding hp) (next.not_suspending call).2
      · rintro ⟨hown, rfl | ⟨rfl, hout⟩⟩
        · exact hown
        · exact ⟨hown, hout⟩
  | @goOn x call hrun hphase =>
      exact hside.turn hphase False.elim fun hretry => hretry.1
  | @lookAgain x call hrun hphase =>
      refine hside.turn hphase (fun hp => ?_) fun hp => hp.elim
      split at hp <;> exact hp
  | @timeout x call hrun hphase =>
      have herase : ((s.queue.waiting call.side).erase x).Sublist
          (s.queue.waiting call.side) := List.erase_sublist
      have hsub := sublist_setWaiting s.queue herase side
      refine hside.mono (fun hw => hw.imp_left fun hne hnil => hne ?_)
        (Nat.le_of_eq (available_setWaiting ..))
        (Nat.le_of_eq (congrArg Int.toNat (lock_setWaiting ..)).symm)
        fun y hretry => hretry.mono fun hin => hsub.subset hin
      exact List.sublist_nil.mp (hnil ▸ hsub)
  | sendFromISR hisr => exact hside.interrupted horder (interrupts_send hisr)
  | giveFromISR hisr => exact hside.interrupted horder (interrupts_give hisr)
  | receiveFromISR hisr =>
      exact hside.interrupted horder (interrupts_receive hisr)
  | peekFromISR hisr => exact hside.interrupted horder (interrupts_peek hisr)

/-! ## The locks -/

/-- A queue is locked only while a task has it locked. -/
def Unlocked (s : QueueSystem α) : Prop :=
  ∀ side, (∀ x, ¬ (s.phase x).Locks side) →
    s.queue.lock side = queueUnlocked

namespace Unlocked

variable (h : s.Unlocked)

include h

theorem move {pxQueue : QueueDefinition α} {p₀ p : Phase α}
    {o : Option TaskHandle} (hphase : s.phase x = p₀)
    (hlock : ∀ side, p.Locks side ∨ pxQueue.lock side = queueUnlocked ∨
      pxQueue.lock side = s.queue.lock side ∧ ¬ p₀.Locks side) :
    Unlocked ⟨pxQueue, Function.update s.phase x p, o⟩ := by
  intro side hnone
  have hnone : ∀ y, ¬ (Function.update s.phase x p y).Locks side := hnone
  rcases hlock side with hp | heq | ⟨heq, hp₀⟩
  · have hself := hnone x
    rw [Function.update_self] at hself
    exact absurd hp hself
  · exact heq
  · refine Eq.trans heq (h side fun y hy => ?_)
    by_cases hne : y = x
    · exact hp₀ (hphase ▸ hne ▸ hy)
    · have hother := hnone y
      rw [Function.update_of_ne hne] at hother
      exact hother hy

theorem turn {p₀ p : Phase α} {o : Option TaskHandle}
    (hphase : s.phase x = p₀)
    (hp : ∀ side, p.Locks side ∨ ¬ p₀.Locks side) :
    Unlocked ⟨s.queue, Function.update s.phase x p, o⟩ :=
  h.move hphase fun side => (hp side).imp_right fun hp₀ => Or.inr ⟨rfl, hp₀⟩

theorem interrupted {pxQueue : QueueDefinition α}
    (hint : Interrupts s.queue pxQueue) :
    Unlocked { s with queue := pxQueue } := by
  intro side hnone
  have hfree := h side hnone
  rcases hint side with hsame | ⟨hwakes, -⟩ | hnotes
  · exact hsame.lock.trans hfree
  · exact hwakes.lock.trans hfree
  · exact absurd hfree hnotes.locked

theorem step (hcalls : s.Asserted)
    (hstep : Step xTaskPeriod uxPriority tasks s es s') : s'.Unlocked := by
  cases hstep with
  | @call x call mayBlock hx hrun hphase =>
      exact h.turn hphase fun _ => Or.inr id
  | @succeed x call mayBlock pxQueue e hrun hphase hsection =>
      have hassert := hcalls _ _ (congrArg Phase.call hphase)
      exact h.move hphase fun side => Or.inr (Or.inr
        ⟨(criticalSection_lists hassert hsection side).2, id⟩)
  | @fail x call mayBlock hrun hphase =>
      exact h.turn hphase fun _ => Or.inr id
  | @suspendAll x call hrun hphase => exact h.turn hphase fun _ => Or.inr id
  | @lock x call hrun hphase => exact h.move hphase fun _ => Or.inl trivial
  | @timeUp x call hrun hphase => exact h.turn hphase fun _ => Or.inl trivial
  | @look x call hrun hphase =>
      refine h.turn hphase fun _ => Or.inl ?_
      split <;> trivial
  | @place x call hrun hphase => exact h.move hphase fun _ => Or.inl trivial
  | @unlockTx x call next hrun hphase =>
      refine h.move hphase fun side => ?_
      cases side with
      | sender => exact Or.inl rfl
      | receiver => exact Or.inr (Or.inl rfl)
  | @unlockRx x call next hrun hphase =>
      refine h.move hphase fun side => ?_
      cases side with
      | sender => exact Or.inr (Or.inl rfl)
      | receiver => exact Or.inr (Or.inr ⟨rfl, nofun⟩)
  | @resumeAll x call next hrun hphase =>
      exact h.turn hphase fun _ => Or.inr id
  | @goOn x call hrun hphase => exact h.turn hphase fun _ => Or.inr id
  | @lookAgain x call hrun hphase => exact h.turn hphase fun _ => Or.inr id
  | @timeout x call hrun hphase =>
      exact fun side hnone => (lock_setWaiting ..).trans (h side hnone)
  | sendFromISR hisr => exact h.interrupted (interrupts_send hisr)
  | giveFromISR hisr => exact h.interrupted (interrupts_give hisr)
  | receiveFromISR hisr => exact h.interrupted (interrupts_receive hisr)
  | peekFromISR hisr => exact h.interrupted (interrupts_peek hisr)

end Unlocked

/-! ## The runs -/

/-- A new queue: nobody waits, and it is not locked. -/
def Untouched (q : QueueDefinition α) : Prop :=
  ∀ side, q.waiting side = [] ∧ q.lock side = queueUnlocked

theorem untouched_create {sizeOfQueue uxQueueLength uxItemSize : Nat}
    (hcreate : xQueueGenericCreate sizeOfQueue uxQueueLength uxItemSize q =
      some q') : Untouched q' := by
  simp only [xQueueGenericCreate, prvInitialiseNewQueue,
    xQueueGenericReset] at hcreate
  split at hcreate
  · split at hcreate
    · cases hcreate
      intro side
      cases side <;> exact ⟨rfl, rfl⟩
    · cases hcreate
  · cases hcreate

theorem untouched_semaphore {sizeOfQueue uxMaxCount uxInitialCount : Nat}
    (hcreate : xQueueCreateCountingSemaphore sizeOfQueue uxMaxCount
      uxInitialCount q = some q') : Untouched q' := by
  unfold xQueueCreateCountingSemaphore at hcreate
  split at hcreate
  · obtain ⟨q₁, hq₁, heq⟩ := Option.map_eq_some_iff.mp hcreate
    cases heq
    intro side
    have hfresh := untouched_create hq₁ side
    cases side <;> exact hfresh
  · cases hcreate

theorem orderly_start (hfresh : Untouched q) :
    (start q).Orderly uxPriority tasks where
  outside := fun _ _ => rfl
  placed := fun side x hx => by
    rw [show (start q).queue.waiting side = [] from (hfresh side).1] at hx
    cases hx
  nodup := fun side => by
    rw [show (start q).queue.waiting side = [] from (hfresh side).1]
    exact List.nodup_nil
  sorted := fun side => by
    rw [show (start q).queue.waiting side = [] from (hfresh side).1]
    exact List.Pairwise.nil
  suspending := fun _ => iff_of_false id nofun
  lock_ge := fun side => Int.le_of_eq (hfresh side).2.symm
  holding := fun _ hp => hp.elim

theorem Runs.kept (hfresh : Untouched q)
    (hplain : ∀ x ∈ tasks, xTaskPeriod x = 0)
    (hrun : Runs xTaskPeriod uxPriority tasks (start q) es s) :
    s.Orderly uxPriority tasks ∧ (∀ side, s.Covered side tasks) ∧
      s.Unlocked := by
  induction hrun with
  | refl =>
      refine ⟨orderly_start hfresh, fun side hw => ?_, fun side _ =>
        (hfresh side).2⟩
      rcases hw with hne | ⟨x, hx⟩
      · exact absurd (hfresh side).1 hne
      · exact hx.elim
  | step hprev hstep ih =>
      obtain ⟨horder, hcover, hfree⟩ := ih
      have hcalls := hprev.asserted (asserted_start q)
      exact ⟨horder.step hcalls hplain hstep,
        Covered.step hcover horder hcalls hstep, hfree.step hcalls hstep⟩

end QueueSystem

open QueueDefinition in
/-- Whatever tasks without a period and interrupts do at a queue or a
semaphore, whenever the scheduler is not suspended: the queue is not locked;
the tasks on an event list are blocked in a call of its side, and they are in
order of their priorities; and if there are any, there is a task on its way
for everything they could have. -/
theorem no_lost_wakeup {sizeOfQueue : Nat}
    {xTaskPeriod uxPriority : TaskHandle → Nat}
    {tasks : Finset TaskHandle} {es : List (QueueEvent α)} {s : QueueSystem α}
    (hcreate : (∃ uxQueueLength uxItemSize, xQueueGenericCreate sizeOfQueue
        uxQueueLength uxItemSize q = some q') ∨
      ∃ uxMaxCount uxInitialCount, xQueueCreateCountingSemaphore sizeOfQueue
        uxMaxCount uxInitialCount q = some q')
    (hprio : ∀ x, uxPriority x < configMaxPriorities)
    (hplain : ∀ x ∈ tasks, xTaskPeriod x = 0)
    (hrun : QueueSystem.Runs xTaskPeriod uxPriority tasks (.start q') es s)
    (hnone : s.suspender = none) (side : Side) :
    s.queue.lock side = queueUnlocked ∧
    (∀ x ∈ s.queue.waiting side,
      ∃ call, s.phase x = .waiting call ∧ call.side = side) ∧
    (s.queue.waiting side).Pairwise (fun x y => uxPriority y ≤ uxPriority x) ∧
    (s.queue.waiting side ≠ [] →
      s.queue.available side ≤ (s.retrying side tasks).card) := by
  have hfresh : QueueSystem.Untouched q' := by
    rcases hcreate with ⟨_, _, hcreate⟩ | ⟨_, _, hcreate⟩
    · exact QueueSystem.untouched_create hcreate
    · exact QueueSystem.untouched_semaphore hcreate
  obtain ⟨horder, hcover, hfree⟩ := hrun.kept hfresh hplain
  have hcalm : ∀ x, ¬ (s.phase x).Suspending := fun x hx => by
    have hsome := (horder.suspending x).mp hx
    rw [hnone] at hsome
    cases hsome
  have hlock := hfree side fun x hx => hcalm x hx.suspending
  refine ⟨hlock, fun x hx => ?_, ?_, fun hne => ?_⟩
  · have hplace := horder.placed side x hx
    have hnot := hcalm x
    cases hphase : s.phase x with
    | waiting call =>
        rw [hphase] at hplace
        exact ⟨call, rfl, hplace⟩
    | _ =>
        rw [hphase] at hplace hnot
        first
          | exact hplace.elim
          | exact absurd trivial hnot
  · refine (horder.sorted side).imp fun {x y} hkey => ?_
    have hkey : configMaxPriorities - uxPriority x ≤
      configMaxPriorities - uxPriority y := hkey
    have hx := hprio x
    have hy := hprio y
    omega
  · have hle := hcover side (Or.inl hne)
    rw [hlock] at hle
    exact hle

/-- A binary semaphore with nothing to take. -/
def heldSemaphore : QueueDefinition Unit where
  pcHead := fun _ => ()
  pcWriteTo := 0
  pcReadFrom := 0
  xTasksWaitingToSend := []
  xTasksWaitingToReceive := []
  uxMessagesWaiting := 0
  uxLength := 1
  uxItemSize := 0
  cRxLock := queueUnlocked
  cTxLock := queueUnlocked

/-- Task 0 is about to wait for a semaphore when an interrupt gives it. -/
theorem no_lost_wakeup_given :
    ∃ s : QueueSystem Unit, s.queue.uxMessagesWaiting = 1 ∧
      s.queue.lock .receiver = queueUnlocked ∧
      (∀ x ∈ s.queue.waiting .receiver,
        ∃ call, s.phase x = .waiting call ∧ call.side = .receiver) ∧
      (s.queue.waiting .receiver).Pairwise (fun _ _ => 1 ≤ 1) ∧
      (s.queue.waiting .receiver ≠ [] → s.queue.available .receiver ≤
        (s.retrying .receiver {0}).card) := by
  have hrun : ∃ s : QueueSystem Unit, s.queue.uxMessagesWaiting = 1 ∧
      s.suspender = none ∧
      QueueSystem.Runs (fun _ => 0) (fun _ => 1) {0} (.start heldSemaphore)
        ([] ++ [] ++ [] ++ [] ++ [] ++ [.sent () .sendToBack] ++
          [] ++ [] ++ [] ++ []) s := by
    refine ⟨_, ?_, ?_, .step (.step (.step (.step (.step (.step (.step (.step
      (.step (.step .refl
      (@QueueSystem.Step.call Unit _ _ _ _ 0 .semaphoreTake true
        (Finset.mem_singleton_self 0) rfl rfl rfl))
      (@QueueSystem.Step.fail Unit _ _ _ _ 0 .semaphoreTake true
        (Or.inl rfl) rfl rfl))
      (@QueueSystem.Step.suspendAll Unit _ _ _ _ 0 .semaphoreTake rfl rfl))
      (@QueueSystem.Step.lock Unit _ _ _ _ 0 .semaphoreTake (Or.inr rfl) rfl))
      (@QueueSystem.Step.look Unit _ _ _ _ 0 .semaphoreTake (Or.inr rfl) rfl))
      (@QueueSystem.Step.giveFromISR Unit _ _ _ _ () true _ rfl))
      (@QueueSystem.Step.place Unit _ _ _ _ 0 .semaphoreTake (Or.inr rfl) rfl))
      (@QueueSystem.Step.unlockTx Unit _ _ _ _ 0 .semaphoreTake .block
        (Or.inr rfl) rfl))
      (@QueueSystem.Step.unlockRx Unit _ _ _ _ 0 .semaphoreTake .block
        (Or.inr rfl) rfl))
      (@QueueSystem.Step.resumeAll Unit _ _ _ _ 0 .semaphoreTake .block
        (Or.inr rfl) rfl)⟩
    · rfl
    · rfl
  obtain ⟨s, hcount, hnone, hrun⟩ := hrun
  exact ⟨s, hcount, @no_lost_wakeup Unit heldSemaphore heldSemaphore 0 _ _ _ _ _
    (Or.inr ⟨1, 0, rfl⟩) (fun _ => by decide) (fun _ _ => rfl) hrun hnone
    .receiver⟩

end FreeRtosSim
