import FreeRtosSim.Proofs.Keyed
import FreeRtosSim.Lib.KeyInsert

/-!
# The passes as filters

What the two passes leave of the list they walk is that list filtered, and
what they take out arrives in the other list in the order of the walk:
`killTasks` puts it in front of the task the cursor of the wait list is on,
`wakeTasks` inserts it by key.
-/

namespace FreeRtosSim

variable {created : List TaskHandle} {alg : Algorithm} {st st₁ : State}
  {x y : TaskHandle} {id : ListId} {t : Nat}

/-- A pass only takes members out of the list it walks. -/
theorem walkList_sublist {body : TaskHandle → State → State} {f : TCB → TCB}
    (hb : PassBody created id t body f) (hid : id ≠ .pendingReady)
    (h : WellLinked created st) (ht : st.xTickCount = t) :
    List.Sublist ((walkList id body st).items id) (st.items id) := by
  rw [walkList_eq_foldl hb h ht, setIndex_items]
  refine (hb.pointwise hid).foldl_rel
    (R := fun a b => List.Sublist (b.items id) (a.items id))
    (fun a => List.Sublist.refl _) (fun ha hb => hb.trans ha) (fun s x hs hx => ?_) _ st
    (h.wellFormed id).nodup ⟨h, ht⟩ fun x hx => (h.linked id hid x).mp hx
  have hmem := (hs.1.linked id hid x).mpr hx
  have hv := hb.visit hs.1 hs.2 hmem
  have hsame := setIndex_items s id id (some x)
  rcases hv.ring with heq | heq
  · rw [State.items, heq, ← hsame]
  · rw [State.items, heq, ← hsame]
    exact List.erase_sublist

/-! ## `killTasks` -/

theorem killTasks_ready_items (h : WellLinked created st) :
    (killTasks st).items (.ready 1) = (st.items (.ready 1)).filter fun x =>
      !decide (isHopeless st.xTickCount (st.tcb x)) := by
  obtain ⟨hl, -, -⟩ := killTasks_pass h
  refine eq_filter_of_sublist (h.wellFormed _).nodup
    (walkList_sublist killBody_pass (by simp) h rfl) fun x hx => ?_
  obtain ⟨hxc, hcont⟩ := (h.linked _ (by simp) x).mp hx
  rw [hl.linked _ (by simp) x, killTasks_tcb h, if_pos hx, killBlock]
  by_cases hh : isHopeless st.xTickCount (st.tcb x)
  · simp [hh]
  · simp [hh, hxc, hcont]

/-- One visit, seen from the wait list. -/
theorem killBody_wait (hc : (st.tcb x).pxContainer = some (.ready 1)) :
    (killBody x st).lists .wait =
      if decide (isHopeless st.xTickCount (st.tcb x)) = true then
        (st.lists .wait).insertEnd x
      else st.lists .wait := by
  by_cases hh : isHopeless st.xTickCount (st.tcb x)
  · obtain ⟨sim, heq⟩ := killBody_killed hh
    rw [if_pos (by simpa using hh), heq, addTaskToWaitList, listInsertEnd,
      State.modifyTcb_lists, State.setList_lists, Function.update_self,
      uxListRemove_lists]
    · rfl
    · simp [hc]
  · rw [if_neg (by simpa using hh), killBody_kept hh]

/-- Some of the ready tasks and the waiting ones. -/
theorem WellLinked.killed_nodup (h : WellLinked created st) (p : TaskHandle → Bool) :
    ((st.items (.ready 1)).filter p ++ st.items .wait).Nodup := by
  refine List.nodup_append.mpr ⟨(h.wellFormed (.ready 1)).nodup.filter p,
    (h.wellFormed .wait).nodup, fun x hx y hy he => ?_⟩
  subst he
  have hr := ((h.linked _ (by simp) x).mp (List.mem_filter.mp hx).1).2
  have hw := ((h.linked _ (by simp) x).mp hy).2
  rw [hr] at hw
  exact absurd hw (by simp)

/-- The killed tasks go to the wait list in front of the task its cursor is
on. -/
theorem killTasks_wait_items (h : WellLinked created st) {pre post : List TaskHandle}
    (hitems : st.items .wait = pre ++ post)
    (hindex : (st.lists .wait).index = post.head?) :
    (killTasks st).items .wait = pre ++ ((st.items (.ready 1)).filter fun x =>
      decide (isHopeless st.xTickCount (st.tcb x))) ++ post := by
  have hpass : PassBody created (.ready 1) st.xTickCount killBody
    (killBlock st.xTickCount) := killBody_pass
  have htcb : TcbBody created (.ready 1) st.xTickCount killBody
      (killBlock st.xTickCount) := by
    intro s x hs ht hx
    rw [killBody_tcb hs ((hs.linked _ (by simp) x).mp hx).1, ht]
  have hview := (hpass.pointwise_tcb htcb (by simp)).foldl_view
    (fun s => s.lists .wait) CursorList.insertEnd
    (fun _ b => decide (isHopeless st.xTickCount b))
    (fun s x hs hx => by
      have hvisit : (killBody x (s.setList (.ready 1)
          ((s.lists (.ready 1)).setIndex (some x)))).lists .wait = _ :=
        killBody_wait hx.2
      have htick : (s.setList (.ready 1)
        ((s.lists (.ready 1)).setIndex (some x))).xTickCount = st.xTickCount := hs.2
      have hsame : (s.setList (.ready 1)
          ((s.lists (.ready 1)).setIndex (some x))).lists .wait = s.lists .wait := by
        simp
      rw [htick, hsame] at hvisit
      exact hvisit)
    _ st (h.wellFormed (.ready 1)).nodup ⟨h, rfl⟩
    fun x hx => (h.linked _ (by simp) x).mp hx
  have hwait : st.lists .wait = ⟨pre ++ post, post.head?, (st.lists .wait).count⟩ := by
    rw [← hitems, ← hindex]
  have hnd := h.killed_nodup (fun x => decide (isHopeless st.xTickCount (st.tcb x)))
  rw [hitems] at hnd
  have hnd' := List.perm_append_comm_assoc pre _ post |>.nodup_iff.mpr hnd
  rw [← List.append_assoc] at hnd'
  have hfold := hview.trans (by rw [hwait, CursorList.foldl_insertEnd_front hnd'])
  rw [killTasks, walkList_eq_foldl hpass h rfl, setIndex_items]
  exact congrArg CursorList.items hfold

/-! ## `wakeTasks` -/

/-- The task begins a job that `wakeTasks` puts into a ready list. -/
def isReleased (alg : Algorithm) (tick : Nat) (b : TCB) : Prop :=
  isDue tick b ∧ ¬ passedOver alg b

instance (alg : Algorithm) (tick : Nat) (b : TCB) :
    Decidable (isReleased alg tick b) := by
  unfold isReleased
  infer_instance

theorem wakeTasks_tcb (h : WellLinked created st) (y : TaskHandle) :
    (wakeTasks alg st).tcb y = if y ∈ st.items .wait then
      wokenTcb alg st.xTickCount (st.tcb y) else st.tcb y := by
  refine walkList_tcb wakeBody_pass (fun s x _ ht _ => ?_) (by simp) h rfl y
  rw [wakeBody_tcb, ht]

theorem wokenTcb_released {tick : Nat} {b : TCB} (h : isReleased alg tick b) :
    wokenTcb alg tick b = { b with
      xRemainingTicks := b.xTaskDuration, startTime := tick
      xItemValue := macroKey alg tick b
      pxContainer := some (.ready b.uxPriority) } := by
  rw [wokenTcb, if_pos h.1, if_neg h.2]

theorem wokenTcb_container {tick : Nat} {b : TCB} (h : ¬ isReleased alg tick b) :
    (wokenTcb alg tick b).pxContainer = b.pxContainer := by
  rw [wokenTcb]
  split
  · next hd => rw [if_pos (by_contra fun hl => h ⟨hd, hl⟩)]
  · rfl

theorem wokenTcb_value_le {tick : Nat} {b : TCB} (h : b.xItemValue ≤ portMaxDelay) :
    (wokenTcb alg tick b).xItemValue ≤ portMaxDelay := by
  rw [wokenTcb]
  split
  · split
    · exact h
    · exact macroKey_le h
  · exact h

theorem wakeTasks_wait_items (h : WellLinked created st) (alg : Algorithm) :
    (wakeTasks alg st).items .wait = (st.items .wait).filter fun x =>
      !decide (isReleased alg st.xTickCount (st.tcb x)) := by
  obtain ⟨hl, -, -⟩ := wakeTasks_pass h alg
  refine eq_filter_of_sublist (h.wellFormed _).nodup
    (walkList_sublist wakeBody_pass (by simp) h rfl) fun x hx => ?_
  obtain ⟨hxc, hcont⟩ := (h.linked _ (by simp) x).mp hx
  rw [hl.linked _ (by simp) x, wakeTasks_tcb h, if_pos hx]
  by_cases hr : isReleased alg st.xTickCount (st.tcb x)
  · rw [wokenTcb_released hr]
    simp [hr]
  · rw [wokenTcb_container hr, hcont]
    simp [hr, hxc]

/-- An insertion at the back, for `portMAX_DELAY`, is one by key as well. -/
theorem keyedList_items {p v : Nat} {key : TaskHandle → Nat}
    (hle : ∀ y ∈ st.items (.ready p), key y ≤ portMaxDelay)
    (hx : x ∉ st.items (.ready p)) (hv : key x = v)
    (hkey : ∀ y ∈ st.items (.ready p), key y = (st.tcb y).xItemValue) :
    (keyedList st p v x).items = insertByKey key (st.items (.ready p)) x := by
  rw [keyedList]
  split
  · next hmax =>
      refine (CursorList.orderedInsert_eq_append fun y hy => ?_).symm
      rw [hv, hmax]
      exact Nat.not_lt.mpr (hle y hy)
  · refine insertByKey_congr fun y hy => ?_
    have hyx : y ≠ x := fun he => hx (he ▸ hy)
    rw [if_pos rfl, if_neg hyx, hv, hkey y hy]

/-- One visit, seen from the ready list. -/
theorem wakeBody_ready (h : WellLinked created st) (hw : x ∈ st.items .wait)
    (hp : (st.tcb x).uxPriority = 1) {key : TaskHandle → Nat}
    (hle : ∀ y ∈ st.items (.ready 1), key y ≤ portMaxDelay)
    (hv : isReleased alg st.xTickCount (st.tcb x) →
      key x = macroKey alg st.xTickCount (st.tcb x))
    (hkey : ∀ y ∈ st.items (.ready 1), key y = (st.tcb y).xItemValue) :
    (wakeBody alg x st).items (.ready 1) =
      if decide (isReleased alg st.xTickCount (st.tcb x)) = true then
        insertByKey key (st.items (.ready 1)) x
      else st.items (.ready 1) := by
  obtain ⟨-, hcont⟩ := (h.linked _ (by simp) x).mp hw
  by_cases hr : isReleased alg st.xTickCount (st.tcb x)
  · have hout : (uxListRemove x (renewed x st)).items (.ready 1) =
        st.items (.ready 1) := by
      refine congrArg CursorList.items ?_
      rw [uxListRemove_lists]
      · rfl
      · rw [renewed_links.container, hcont]
        simp
    have hprio : ((uxListRemove x (renewed x st)).tcb x).uxPriority = 1 := by
      rw [uxListRemove_tcb]
      simpa [renewed] using hp
    have hx : x ∉ st.items (.ready 1) := by
      intro hx
      have hc := ((h.linked _ (by simp) x).mp hx).2
      rw [hcont] at hc
      exact absurd hc (by simp)
    have hlist : (keyedState x (macroKey alg st.xTickCount (st.tcb x))
        (uxListRemove x (renewed x st))).lists _ = _ := keyedState_lists
    rw [hprio] at hlist
    rw [if_pos (by simpa using hr), wakeBody_released hr.1 hr.2, State.items, hlist,
      keyedList_items (by rwa [hout]) (by rwa [hout]) (hv hr) ?_, hout]
    intro y hy
    rw [hout] at hy
    have hyx : y ≠ x := fun he => hx (he ▸ hy)
    rw [hkey y hy, uxListRemove_tcb_other hyx]
    simp [renewed, hyx]
  · rw [if_neg (by simpa using hr), wakeBody_eq_cases]
    split
    · next hd =>
        rw [if_pos (by_contra fun hl => hr ⟨hd, hl⟩)]
        rfl
    · rfl

/-- The keys the pass ends with are those it inserts by. -/
structure KeysKnown (key : TaskHandle → Nat) (st : State) : Prop where
  same : ∀ y ∈ st.items (.ready 1), key y = (st.tcb y).xItemValue
  bound : ∀ y ∈ st.items (.ready 1), key y ≤ portMaxDelay

/-- What the pass asks of a task it finds waiting. -/
structure Releasable (alg : Algorithm) (t : Nat) (key : TaskHandle → Nat)
    (x : TaskHandle) (b : TCB) : Prop where
  priority : b.uxPriority = 1
  keyed : isReleased alg t b → key x = macroKey alg t b
  bound : key x ≤ portMaxDelay

theorem wakeVisit_known {key : TaskHandle → Nat} (h : WellLinked created st)
    (hw : x ∈ st.items .wait) (hk : KeysKnown key st)
    (hr : Releasable alg st.xTickCount key x (st.tcb x)) :
    KeysKnown key (wakeBody alg x st) := by
  have hready := wakeBody_ready h hw hr.priority hk.bound hr.keyed hk.same
  have hv : Visited created .wait _ x st (wakeBody alg x st) :=
    wakeBody_pass st x h rfl hw
  have hcases : ∀ y ∈ (wakeBody alg x st).items (.ready 1),
      (y = x ∧ isReleased alg st.xTickCount (st.tcb x)) ∨
        (y ≠ x ∧ y ∈ st.items (.ready 1)) := by
    intro y hy
    have hyx : y ∈ st.items (.ready 1) → y ≠ x := by
      rintro hmem rfl
      have hc := ((h.linked _ (by simp) y).mp hmem).2
      rw [((h.linked _ (by simp) y).mp hw).2] at hc
      exact absurd hc (by simp)
    rw [hready] at hy
    split at hy
    · next hrel =>
        rcases mem_insertByKey.mp hy with rfl | hy
        · exact Or.inl ⟨rfl, by simpa using hrel⟩
        · exact Or.inr ⟨hyx hy, hy⟩
    · exact Or.inr ⟨hyx hy, hy⟩
  constructor
  · intro y hy
    rcases hcases y hy with ⟨rfl, hrel⟩ | ⟨hne, hmem⟩
    · rw [wakeBody_tcb, wokenTcb_released hrel]
      exact hr.keyed hrel
    · rw [hv.others y hne]
      exact hk.same y hmem
  · intro y hy
    rcases hcases y hy with ⟨rfl, -⟩ | ⟨-, hmem⟩
    · exact hr.bound
    · exact hk.bound y hmem

/-- The released tasks are inserted by key, in the order they waited in. -/
theorem wakeTasks_ready_items (h : WellLinked created st) (alg : Algorithm)
    (hp : ∀ x ∈ st.items .wait, (st.tcb x).uxPriority = 1)
    (hle : ∀ x ∈ created, (st.tcb x).xItemValue ≤ portMaxDelay) :
    (wakeTasks alg st).items (.ready 1) =
      insertAllByKey (fun y => ((wakeTasks alg st).tcb y).xItemValue)
        (st.items (.ready 1)) ((st.items .wait).filter fun x =>
          decide (isReleased alg st.xTickCount (st.tcb x))) := by
  generalize hkey : (fun y => ((wakeTasks alg st).tcb y).xItemValue) = key
  have hfinal : ∀ y, key y = (if y ∈ st.items .wait then
      wokenTcb alg st.xTickCount (st.tcb y) else st.tcb y).xItemValue := by
    intro y
    rw [← hkey, ← wakeTasks_tcb h]
  have hpass : PassBody created .wait st.xTickCount (wakeBody alg)
    (wakeBlock alg st.xTickCount) := wakeBody_pass
  have htcb : TcbBody created .wait st.xTickCount (wakeBody alg)
      (wokenTcb alg st.xTickCount) := by
    intro s x _ ht _
    rw [wakeBody_tcb, ht]
  have hvisit : ∀ s x, WellLinked created s ∧ s.xTickCount = st.xTickCount →
      KeysKnown key s → x ∈ created ∧ (s.tcb x).pxContainer = some .wait →
      Releasable alg st.xTickCount key x (s.tcb x) →
      KeysKnown key (visitList .wait (wakeBody alg) s x) ∧
        (visitList .wait (wakeBody alg) s x).items (.ready 1) =
          if decide (isReleased alg st.xTickCount (s.tcb x)) = true then
            insertByKey key (s.items (.ready 1)) x
          else s.items (.ready 1) := by
    intro s x hs hk hx hrel
    have hmem := (hs.1.linked .wait (by simp) x).mpr hx
    have hl : WellLinked created (s.setList .wait ((s.lists .wait).setIndex (some x))) :=
      hs.1.setIndex fun _ hy => Option.some_inj.mp hy ▸ hmem
    have htick : (s.setList .wait
      ((s.lists .wait).setIndex (some x))).xTickCount = st.xTickCount := hs.2
    have hready := setIndex_items s (.ready 1) .wait (some x)
    have hk' : KeysKnown key (s.setList .wait ((s.lists .wait).setIndex (some x))) :=
      ⟨by rw [hready]; exact hk.same, by rw [hready]; exact hk.bound⟩
    have hin : x ∈ (s.setList .wait ((s.lists .wait).setIndex (some x))).items .wait := by
      rw [setIndex_items]
      exact hmem
    have hrel' : Releasable alg (s.setList .wait
        ((s.lists .wait).setIndex (some x))).xTickCount key x (s.tcb x) := by
      rw [htick]
      exact hrel
    refine ⟨wakeVisit_known hl hin hk' hrel', ?_⟩
    have hbody := wakeBody_ready hl hin hrel'.priority hk'.bound hrel'.keyed hk'.same
    rw [hready, htick] at hbody
    exact hbody
  have hpoint := (hpass.pointwise_tcb htcb (by simp)).also
    (J := KeysKnown key) (Q := Releasable alg st.xTickCount key)
    fun s x hs hk hx hrel => (hvisit s x hs hk hx hrel).1
  have hold : ∀ y ∈ st.items (.ready 1), key y = (st.tcb y).xItemValue := by
    intro y hy
    have hc := ((h.linked _ (by simp) y).mp hy).2
    rw [hfinal, if_neg]
    intro hw
    rw [((h.linked _ (by simp) y).mp hw).2] at hc
    exact absurd hc (by simp)
  have hstart : KeysKnown key st := by
    refine ⟨hold, fun y hy => ?_⟩
    rw [hold y hy]
    exact hle y ((h.linked _ (by simp) y).mp hy).1
  have hall : ∀ x ∈ st.items .wait, Releasable alg st.xTickCount key x (st.tcb x) := by
    intro x hx
    have hval := hle x ((h.linked _ (by simp) x).mp hx).1
    have hkx := hfinal x
    rw [if_pos hx] at hkx
    refine ⟨hp x hx, fun hrel => ?_, ?_⟩
    · rw [hkx, wokenTcb_released hrel]
    · rw [hkx]
      exact wokenTcb_value_le hval
  have hview := hpoint.foldl_view (fun s => s.items (.ready 1)) (insertByKey key)
    (fun _ b => decide (isReleased alg st.xTickCount b))
    (fun s x hs hx => (hvisit s x hs.1 hs.2 hx.1 hx.2).2)
    _ st (h.wellFormed .wait).nodup ⟨⟨h, rfl⟩, hstart⟩
    fun x hx => ⟨(h.linked _ (by simp) x).mp hx, hall x hx⟩
  rw [wakeTasks, walkList_eq_foldl hpass h rfl, setIndex_items]
  exact hview

end FreeRtosSim
