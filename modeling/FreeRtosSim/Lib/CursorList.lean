import Mathlib.Data.List.Sort

/-!
# Ring lists with a cursor

A circular list with an end marker, a counter and one cursor, seen as the
sequence of its members in order. Linking and unlinking keep the counter. The
cursor stands on a member or, as `none`, on the end marker. Removing the
member under the cursor moves the cursor back one place, which is what makes
it possible to walk such a list while members of it are being unlinked:
`walk_eq_foldl` below says that a walk visits every member once, in list
order, whatever subset of them leaves during the walk.

Nothing here knows what the members are or what the walk does to them.
-/

namespace FreeRtosSim

/-- The members of a ring in order from the end marker, the cursor, and the
counter of members. -/
structure CursorList (α : Type*) where
  items : List α
  index : Option α
  count : Nat

namespace CursorList

variable {α : Type*}

/-- A freshly initialised ring: no members, cursor on the end marker. -/
def empty : CursorList α := ⟨[], none, 0⟩

/-- Link `x` in behind the members whose key is at most its own. -/
def insertSorted (key : α → Nat) (l : CursorList α) (x : α) : CursorList α :=
  { l with
    items := l.items.orderedInsert (fun a b => key a < key b) x
    count := l.count + 1 }

/-- Link `x` in as the last member before the end marker. -/
def append (l : CursorList α) (x : α) : CursorList α :=
  { l with items := l.items ++ [x], count := l.count + 1 }

/-- Put the cursor somewhere. -/
def setIndex (l : CursorList α) (i : Option α) : CursorList α :=
  { l with index := i }

@[simp] theorem items_setIndex (l : CursorList α) (i : Option α) :
    (l.setIndex i).items = l.items := rfl

@[simp] theorem index_setIndex (l : CursorList α) (i : Option α) :
    (l.setIndex i).index = i := rfl

@[simp] theorem setIndex_setIndex (l : CursorList α) (i j : Option α) :
    (l.setIndex i).setIndex j = l.setIndex j := rfl

@[simp] theorem setIndex_index (l : CursorList α) :
    l.setIndex l.index = l := rfl

/-- Nothing in the list is to come after `x`, so `x` goes to the back. -/
theorem orderedInsert_eq_append {r : α → α → Prop} [DecidableRel r] {x : α} {l : List α}
    (h : ∀ y ∈ l, ¬ r x y) : l.orderedInsert r x = l ++ [x] := by
  induction l with
  | nil => rfl
  | cons a l ih =>
      rw [List.orderedInsert_cons, if_neg (h a (by simp)),
        ih fun y hy => h y (List.mem_cons_of_mem a hy)]
      rfl

/-- Sorted by key, and among equal keys by `b`. -/
def StableSorted (key : α → Nat) (b : α → α → Prop) (l : List α) : Prop :=
  l.Pairwise fun i j => key i ≤ key j ∧ (key i = key j → b i j)

/-- An insertion behind equal keys keeps the order if everything already
there goes before the newcomer. -/
theorem StableSorted.orderedInsert {key : α → Nat} {b : α → α → Prop} {x : α}
    {l : List α} (hl : StableSorted key b l) (hx : ∀ i ∈ l, b i x) :
    StableSorted key b (l.orderedInsert (fun i j => key i < key j) x) := by
  induction l with
  | nil => simp [StableSorted]
  | cons a l ih =>
      obtain ⟨ha, hl⟩ := List.pairwise_cons.mp hl
      rw [List.orderedInsert_cons]
      split
      · next hlt =>
          refine List.pairwise_cons.mpr ⟨fun y hy => ?_,
            List.pairwise_cons.mpr ⟨ha, hl⟩⟩
          have hle : key a ≤ key y := by
            rcases List.mem_cons.mp hy with rfl | hy
            · exact Nat.le_refl _
            · exact (ha y hy).1
          exact ⟨by omega, fun he => by omega⟩
      · next hge =>
          refine List.pairwise_cons.mpr ⟨fun y hy => ?_,
            ih hl fun i hi => hx i (List.mem_cons_of_mem a hi)⟩
          rcases List.mem_cons.mp ((List.perm_orderedInsert _ x l).mem_iff.mp hy)
            with rfl | hy
          · exact ⟨by omega, fun _ => hx a (by simp)⟩
          · exact ha y hy

theorem StableSorted.sublist {key : α → Nat} {b : α → α → Prop}
    {l l' : List α} (hl : StableSorted key b l) (h : List.Sublist l' l) :
    StableSorted key b l' := List.Pairwise.sublist h hl

/-- Only the members' keys and their mutual order matter. -/
theorem StableSorted.congr {key key' : α → Nat} {b b' : α → α → Prop}
    {l : List α} (hl : StableSorted key b l) (hk : ∀ i ∈ l, key' i = key i)
    (hb : ∀ i ∈ l, ∀ j ∈ l, b i j → b' i j) : StableSorted key' b' l := by
  refine List.Pairwise.imp_of_mem (fun hi hj h => ?_) hl
  rw [hk _ hi, hk _ hj]
  exact ⟨h.1, fun he => hb _ hi _ hj (h.2 he)⟩

/-- Only the keys of the members and of the newcomer matter. -/
theorem insertSorted_congr {key key' : α → Nat} {l : CursorList α} {x : α}
    (hl : ∀ y ∈ l.items, key' y = key y) (hx : key' x = key x) :
    l.insertSorted key' x = l.insertSorted key x := by
  have hitems : ∀ items : List α, (∀ y ∈ items, key' y = key y) →
      items.orderedInsert (fun a b => key' a < key' b) x =
        items.orderedInsert (fun a b => key a < key b) x := by
    intro items
    induction items with
    | nil => intro _; rfl
    | cons a items ih =>
        intro hall
        obtain ⟨ha, hall⟩ := List.forall_mem_cons.mp hall
        simp only [List.orderedInsert_cons, hx, ha, ih hall]
  rw [insertSorted, insertSorted, hitems l.items hl]

/-- The counter tells the number of members. -/
def Counted (l : CursorList α) : Prop := l.count = l.items.length

theorem Counted.append {l : CursorList α} (h : l.Counted) (x : α) :
    (l.append x).Counted := by
  rw [Counted, CursorList.append, h, List.length_append]
  rfl

theorem Counted.insertSorted {l : CursorList α} (h : l.Counted) (key : α → Nat)
    (x : α) : (l.insertSorted key x).Counted := by
  rw [Counted, CursorList.insertSorted, h, List.orderedInsert_length]

variable [DecidableEq α]

/-- The member after `x`, `none` when `x` is the last one. -/
def after : List α → α → Option α
  | [], _ => none
  | a :: l, x => if a = x then l.head? else after l x

/-- The member before `x`, `none` when `x` is the first one. -/
def before : List α → α → Option α
  | [], _ => none
  | [_], _ => none
  | a :: b :: l, x => if b = x then some a else before (b :: l) x

/-- The list with `x` put in front of `y`. -/
def insertBefore (x y : α) : List α → List α
  | [] => [x]
  | a :: l => if a = y then x :: a :: l else a :: insertBefore x y l

/-- Move the cursor to the next member, stepping over the end marker. -/
def advance (l : CursorList α) : CursorList α :=
  { l with index :=
      match l.index with
      | none => l.items.head?
      | some x => (after l.items x).or l.items.head? }

/-- Unlink `x`; a cursor standing on it retreats to the member before. -/
def remove (l : CursorList α) (x : α) : CursorList α :=
  { items := l.items.erase x
    index := if l.index = some x then before l.items x else l.index
    count := if x ∈ l.items then l.count - 1 else l.count }

/-- Link `x` in as the last member the cursor would reach. -/
def insertEnd (l : CursorList α) (x : α) : CursorList α :=
  { l with
    items :=
      match l.index with
      | none => l.items ++ [x]
      | some y => insertBefore x y l.items
    count := l.count + 1 }

@[simp] theorem items_advance (l : CursorList α) :
    l.advance.items = l.items := rfl

@[simp] theorem items_remove (l : CursorList α) (x : α) :
    (l.remove x).items = l.items.erase x := rfl

@[simp] theorem index_insertEnd (l : CursorList α) (x : α) :
    (l.insertEnd x).index = l.index := rfl

/-! ## Neighbours -/

/-- Removing what is not there changes nothing. -/
theorem remove_of_notMem {l : CursorList α} {x : α} (hx : x ∉ l.items)
    (hi : l.index = none) : l.remove x = l := by
  rcases l with ⟨items, index, count⟩
  simp only at hx hi
  subst hi
  simp [remove, List.erase_of_not_mem hx, hx]

theorem after_append {pre : List α} {x : α} {post : List α} (hx : x ∉ pre) :
    after (pre ++ x :: post) x = post.head? := by
  induction pre with
  | nil => simp [after]
  | cons a pre ih =>
      have ha : a ≠ x := fun h => hx (by simp [h])
      simp only [List.cons_append, after, if_neg ha]
      exact ih fun h => hx (List.mem_cons_of_mem _ h)

theorem before_append {pre : List α} {x : α} {post : List α}
    (hx : x ∉ pre) (hnd : x ∉ post) :
    before (pre ++ x :: post) x = pre.getLast? := by
  induction pre with
  | nil =>
      cases post with
      | nil => rfl
      | cons b post =>
          have hb : b ≠ x := fun h => hnd (by simp [h])
          have hrest : ∀ l : List α, x ∉ l → before l x = none := by
            intro l
            induction l with
            | nil => intro _; rfl
            | cons c l ih =>
                intro hl
                cases l with
                | nil => rfl
                | cons d l =>
                    have hd : d ≠ x := fun h => hl (by simp [h])
                    simp only [before, if_neg hd]
                    exact ih fun h => hl (List.mem_cons_of_mem _ h)
          simp only [List.nil_append, before, if_neg hb]
          exact hrest _ hnd
  | cons a pre ih =>
      have hpre : x ∉ pre := fun h => hx (List.mem_cons_of_mem _ h)
      cases pre with
      | nil => simp [before]
      | cons b pre =>
          have hb : b ≠ x := fun h => hx (by simp [h])
          simp only [List.cons_append, before, if_neg hb]
          simpa using ih hpre

theorem perm_insertBefore (x y : α) (l : List α) :
    (insertBefore x y l).Perm (x :: l) := by
  induction l with
  | nil => exact List.Perm.refl _
  | cons a l ih =>
      rw [insertBefore]
      split
      · exact List.Perm.refl _
      · exact (List.Perm.cons a ih).trans (List.Perm.swap x a l)

theorem perm_insertEnd (l : CursorList α) (x : α) :
    (l.insertEnd x).items.Perm (x :: l.items) := by
  rcases l with ⟨items, index, count⟩
  cases index with
  | none => exact List.perm_append_singleton x items
  | some y => exact perm_insertBefore x y items

/-! ## The counter -/

theorem Counted.insertEnd {l : CursorList α} (h : l.Counted) (x : α) :
    (l.insertEnd x).Counted := by
  rw [Counted, (perm_insertEnd l x).length_eq, List.length_cons, ← h]
  rfl

theorem Counted.remove {l : CursorList α} (h : l.Counted) (x : α) :
    (l.remove x).Counted := by
  rw [Counted, items_remove]
  by_cases hx : x ∈ l.items
  · rw [List.length_erase_of_mem hx, ← h]
    exact if_pos hx
  · rw [List.erase_of_not_mem hx, ← h]
    exact if_neg hx

/-! ## Well-formed rings -/

/-- What `list.c` keeps true of a ring: no member twice, the counter right,
and the cursor on the end marker or on a member. -/
structure WellFormed (l : CursorList α) : Prop where
  nodup : l.items.Nodup
  counted : l.Counted
  cursor : ∀ x, l.index = some x → x ∈ l.items

namespace WellFormed

variable {l : CursorList α} {x : α}

omit [DecidableEq α] in
theorem empty : (CursorList.empty : CursorList α).WellFormed where
  nodup := List.nodup_nil
  counted := rfl
  cursor _ h := absurd h (by simp [CursorList.empty])

omit [DecidableEq α] in
theorem append (h : l.WellFormed) (hx : x ∉ l.items) : (l.append x).WellFormed where
  nodup := (List.perm_append_singleton x l.items).nodup_iff.mpr
    (List.nodup_cons.mpr ⟨hx, h.nodup⟩)
  counted := h.counted.append x
  cursor y hy := List.mem_append_left _ (h.cursor y hy)

omit [DecidableEq α] in
theorem insertSorted (h : l.WellFormed) (hx : x ∉ l.items) (key : α → Nat) :
    (l.insertSorted key x).WellFormed where
  nodup := (List.perm_orderedInsert _ x l.items).nodup_iff.mpr
    (List.nodup_cons.mpr ⟨hx, h.nodup⟩)
  counted := h.counted.insertSorted key x
  cursor y hy := (List.perm_orderedInsert _ x l.items).mem_iff.mpr
    (List.mem_cons_of_mem x (h.cursor y hy))

theorem insertEnd (h : l.WellFormed) (hx : x ∉ l.items) :
    (l.insertEnd x).WellFormed where
  nodup := (perm_insertEnd l x).nodup_iff.mpr (List.nodup_cons.mpr ⟨hx, h.nodup⟩)
  counted := h.counted.insertEnd x
  cursor y hy := (perm_insertEnd l x).mem_iff.mpr
    (List.mem_cons_of_mem x (h.cursor y hy))

/-- The member before a removed one stays. -/
theorem before_mem_erase (hnd : l.items.Nodup) (hx : x ∈ l.items) {y : α}
    (hy : before l.items x = some y) : y ∈ l.items.erase x := by
  obtain ⟨pre, post, hitems⟩ := List.append_of_mem hx
  rw [hitems] at hnd hy ⊢
  have hpre : x ∉ pre := fun h => List.disjoint_of_nodup_append hnd h (by simp)
  have hpost : x ∉ post := (List.nodup_cons.mp (List.Nodup.of_append_right hnd)).1
  rw [before_append hpre hpost] at hy
  rw [List.erase_append_right _ hpre]
  exact List.mem_append_left _ (List.mem_of_getLast? hy)

theorem remove (h : l.WellFormed) (x : α) : (l.remove x).WellFormed where
  nodup := h.nodup.erase x
  counted := h.counted.remove x
  cursor y hy := by
    by_cases hidx : l.index = some x
    · have hbefore : before l.items x = some y := by
        rw [← hy, CursorList.remove, if_pos hidx]
      exact before_mem_erase h.nodup (h.cursor x hidx) hbefore
    · have hkeep : l.index = some y := by
        rw [← hy, CursorList.remove, if_neg hidx]
      have hne : y ≠ x := fun he => hidx (he ▸ hkeep)
      exact (List.mem_erase_of_ne hne).mpr (h.cursor y hkeep)

omit [DecidableEq α] in
theorem setIndex (h : l.WellFormed) {i : Option α}
    (hi : ∀ x, i = some x → x ∈ l.items) : (l.setIndex i).WellFormed where
  nodup := h.nodup
  counted := h.counted
  cursor := hi

end WellFormed

theorem mem_of_after {items : List α} {x y : α} (h : after items y = some x) :
    x ∈ items := by
  induction items with
  | nil => exact absurd h (by simp [after])
  | cons a items ih =>
      rw [after] at h
      split at h
      · exact List.mem_cons_of_mem a (List.mem_of_head? h)
      · exact List.mem_cons_of_mem a (ih h)

/-- The step onto a member, wherever the cursor was. -/
theorem advance_mem {l : CursorList α} {x : α} (h : l.advance.index = some x) :
    x ∈ l.items := by
  rw [advance] at h
  cases hidx : l.index with
  | none =>
      simp only [hidx] at h
      exact List.mem_of_head? h
  | some y =>
      simp only [hidx] at h
      rcases Option.or_eq_some_iff.mp h with hy | ⟨-, hy⟩
      · exact mem_of_after hy
      · exact List.mem_of_head? hy

theorem WellFormed.advance {l : CursorList α} (h : l.WellFormed) :
    l.advance.WellFormed where
  nodup := h.nodup
  counted := h.counted
  cursor _ hx := advance_mem (l := l) hx

/-! ## Insertion at the cursor -/

theorem insertBefore_append {pre post : List α} {x y : α} (hy : y ∉ pre) :
    insertBefore x y (pre ++ y :: post) = pre ++ x :: y :: post := by
  induction pre with
  | nil => simp [insertBefore]
  | cons a pre ih =>
      have ha : a ≠ y := fun he => hy (by simp [he])
      rw [List.cons_append, insertBefore, if_neg ha,
        ih fun hm => hy (List.mem_cons_of_mem a hm)]
      rfl

/-- With the cursor on the first of `olds`, a newcomer stands right before
it, behind the newcomers of before. -/
theorem insertEnd_front {news olds : List α} {x : α} {n : Nat}
    (h : (news ++ olds).Nodup) :
    (CursorList.mk (news ++ olds) olds.head? n).insertEnd x =
      ⟨news ++ x :: olds, olds.head?, n + 1⟩ := by
  cases olds with
  | nil => simp [insertEnd]
  | cons y olds =>
      have hy : y ∉ news := fun hm =>
        List.disjoint_of_nodup_append h hm (by simp)
      simp only [insertEnd, List.head?_cons, insertBefore_append hy]

theorem foldl_insertEnd_front {xs news olds : List α} {n : Nat}
    (h : (news ++ xs ++ olds).Nodup) :
    xs.foldl insertEnd ⟨news ++ olds, olds.head?, n⟩ =
      ⟨news ++ xs ++ olds, olds.head?, n + xs.length⟩ := by
  induction xs generalizing news n with
  | nil => rw [List.append_nil]; rfl
  | cons x xs ih =>
      have hsub : List.Sublist (news ++ olds) (news ++ x :: xs ++ olds) := by
        rw [List.append_assoc]
        exact (List.sublist_append_right (x :: xs) olds).append_left news
      have hnext : news ++ [x] ++ xs ++ olds = news ++ x :: xs ++ olds := by simp
      rw [List.foldl_cons, insertEnd_front (h.sublist hsub)]
      have ih := @ih (news ++ [x]) (n + 1) (by rw [hnext]; exact h)
      rw [hnext, Nat.add_assoc, Nat.add_comm 1] at ih
      rw [List.length_cons, ← ih, List.append_assoc]
      rfl

/-- The cursor after a removal, one step on: the member that followed the
removed one, or the first member when it was the last. -/
theorem advance_remove {pre post : List α} {x : α} {n : Nat}
    (hnd : (pre ++ x :: post).Nodup) :
    ((CursorList.mk (pre ++ x :: post) (some x) n).remove x).advance =
      ⟨pre ++ post, post.head?.or (pre ++ post).head?, n - 1⟩ := by
  have hpre : x ∉ pre := fun h =>
    (List.disjoint_of_nodup_append hnd) h (by simp)
  have hpost : x ∉ post := (List.nodup_cons.mp (List.Nodup.of_append_right hnd)).1
  have hitems : (pre ++ x :: post).erase x = pre ++ post := by
    rw [List.erase_append_right _ hpre, List.erase_cons_head]
  have hmem : x ∈ pre ++ x :: post := by simp
  simp only [remove, advance, if_true, hitems, before_append hpre hpost, hmem]
  rcases List.eq_nil_or_concat pre with rfl | ⟨init, y, rfl⟩
  · cases post <;> simp
  · have hy : y ∉ init := by
      have h := List.Nodup.of_append_left hnd
      simp only [List.concat_eq_append] at h
      exact fun hm => (List.disjoint_of_nodup_append h) hm (by simp)
    simp only [List.concat_eq_append, List.getLast?_append, List.getLast?_singleton,
      List.append_assoc, List.singleton_append, Option.some_or, after_append hy]

/-- The cursor of an untouched ring, one step on. -/
theorem advance_keep {pre post : List α} {x : α} {n : Nat} (hpre : x ∉ pre) :
    (CursorList.mk (pre ++ x :: post) (some x) n).advance =
      ⟨pre ++ x :: post, post.head?.or (pre ++ x :: post).head?, n⟩ := by
  simp only [advance, after_append hpre]

end CursorList

/-! ## Walking a ring while members leave it

The walk is written over any state that holds a ring, through an accessor
pair. Its shape is the usual one: put the cursor on the end marker, step it
to the first member, read the length once, and repeat that many times
"visit the member under the cursor, step the cursor". -/

section Walk

variable {α σ : Type*} [DecidableEq α]
variable (get : σ → CursorList α) (set : σ → CursorList α → σ)

/-- Step the cursor and read the member it lands on. -/
def walkNext (s : σ) : Option α × σ :=
  ((get s).advance.index, set s (get s).advance)

/-- `n` rounds of visiting the member in hand and fetching the next one. -/
def walkLoop (body : α → σ → σ) : Nat → Option α → σ → σ
  | 0, _, s => s
  | n + 1, item, s =>
      let s := match item with
        | some x => body x s
        | none => s
      let next := walkNext get set s
      walkLoop body n next.1 next.2

/-- The whole walk; the number of rounds is the length before any removal. -/
def walk (body : α → σ → σ) (s : σ) : σ :=
  let s := set s ((get s).setIndex none)
  let first := walkNext get set s
  walkLoop get set body (get first.2).items.length first.1 first.2

/-- One visit with the cursor on the member visited. -/
def visit (body : α → σ → σ) (s : σ) (x : α) : σ :=
  body x (set s ((get s).setIndex (some x)))

/-- What the visits of a walk note down, each before its body runs. -/
def walkLog {β : Type*} (body : α → σ → σ) (log : α → σ → List β) (s : σ) : List β :=
  (walk (fun p : σ × List β => get p.1) (fun p l => (set p.1 l, p.2))
    (fun x p => (body x p.1, p.2 ++ log x p.1)) (s, [])).2

variable {get set}
/-- What neither the cursor nor a visit touches a walk does not touch. -/
theorem walk_keeps {β : Type*} {g : σ → β} {body : α → σ → σ}
    (hset : ∀ s l, g (set s l) = g s) (hbody : ∀ x s, g (body x s) = g s) (s : σ) :
    g (walk get set body s) = g s := by
  have hloop : ∀ (n : Nat) (item : Option α) (s : σ),
      g (walkLoop get set body n item s) = g s := by
    intro n
    induction n with
    | zero => exact fun _ _ => rfl
    | succ n ih =>
        intro item s
        simp only [walkLoop, ih, walkNext, hset]
        cases item with
        | none => rfl
        | some x => exact hbody x s
  rw [walk, hloop, walkNext, hset, hset]

variable (hgs : ∀ s l, get (set s l) = l)
variable (hss : ∀ s l l', set (set s l) l' = set s l')
variable (hsg : ∀ s, set s (get s) = s)

/-- What a walk asks of its body: from a state of the invariant `I` with the
cursor on `y`, the body leaves the ring alone or unlinks `y`, and stays in
`I`. -/
def WalkBody (get : σ → CursorList α) (I : σ → Prop) (body : α → σ → σ) :
    Prop :=
  ∀ y s, I s → (get s).index = some y → y ∈ (get s).items →
    I (body y s) ∧
      (get (body y s) = get s ∨ get (body y s) = (get s).remove y)

variable {I : σ → Prop}
variable (hI : ∀ s i, I s → (∀ x, i = some x → x ∈ (get s).items) →
  I (set s ((get s).setIndex i)))

include hgs hss hsg hI

theorem walkLoop_eq_foldl {body : α → σ → σ} (hbody : WalkBody get I body) :
    ∀ (post pre : List α) (x : α) (s : σ), I s →
      (get s).items = pre ++ x :: post → (pre ++ x :: post).Nodup →
      (get s).index = some x →
      let s' := (x :: post).foldl (visit get set body) s
      walkLoop get set body (post.length + 1) (some x) s =
        set s' ((get s').setIndex (get s').items.head?) := by
  intro post
  induction post with
  | nil =>
      intro pre x s hs hitems hnd hidx
      have hvisit : visit get set body s x = body x s := by
        have : (get s).setIndex (some x) = get s := by rw [← hidx]; rfl
        rw [visit, this, hsg]
      have hpre : x ∉ pre := fun h =>
        (List.disjoint_of_nodup_append hnd) h (by simp)
      have hget : get s = ⟨pre ++ [x], some x, (get s).count⟩ := by
        rw [← hitems, ← hidx]
      simp only [List.length_nil, walkLoop, walkNext,
        List.foldl_cons, List.foldl_nil, hvisit]
      rcases (hbody x s hs hidx (by rw [hitems]; simp)).2 with hb | hb
      · rw [hb, hget, CursorList.advance_keep hpre]
        simp [CursorList.setIndex]
      · rw [hb, hget, CursorList.advance_remove hnd]
        have : (pre ++ [x]).erase x = pre := by
          rw [List.erase_append_right _ hpre]; simp
        simp [CursorList.setIndex, CursorList.remove, this]
  | cons y post ih =>
      intro pre x s hs hitems hnd hidx
      have hvisit : visit get set body s x = body x s := by
        have : (get s).setIndex (some x) = get s := by rw [← hidx]; rfl
        rw [visit, this, hsg]
      have hpre : x ∉ pre := fun h =>
        (List.disjoint_of_nodup_append hnd) h (by simp)
      have hget : get s = ⟨pre ++ x :: y :: post, some x, (get s).count⟩ := by
        rw [← hitems, ← hidx]
      -- whatever the visit does to the ring, the cursor lands on `y`
      obtain ⟨pre', n, hnext, hnd'⟩ : ∃ pre' n, (get (body x s)).advance =
          ⟨pre' ++ y :: post, some y, n⟩ ∧ (pre' ++ y :: post).Nodup := by
        rcases (hbody x s hs hidx (by rw [hitems]; simp)).2 with hb | hb
        · refine ⟨pre ++ [x], (get s).count, ?_, by simpa using hnd⟩
          rw [hb, hget, CursorList.advance_keep hpre]
          simp
        · refine ⟨pre, (get s).count - 1, ?_, ?_⟩
          · rw [hb, hget, CursorList.advance_remove hnd]
            simp
          · have := List.Nodup.erase x hnd
            rwa [List.erase_append_right _ hpre, List.erase_cons_head] at this
      have hs2 : get (set (body x s) (get (body x s)).advance) =
          ⟨pre' ++ y :: post, some y, n⟩ := by rw [hgs, hnext]
      have hI2 : I (set (body x s) (get (body x s)).advance) := by
        refine hI _ (get (body x s)).advance.index
          (hbody x s hs hidx (by rw [hitems]; simp)).1 fun z hz => ?_
        rw [hnext] at hz
        rw [← CursorList.items_advance, hnext, ← Option.some_inj.mp hz]
        exact List.mem_append_right _ (List.mem_cons_self ..)
      have hih := ih pre' y (set (body x s) (get (body x s)).advance) hI2
        (by rw [hs2]) hnd' (by rw [hs2])
      -- the fold does not see where the cursor stood between two visits
      have hy : visit get set body
            (set (body x s) (get (body x s)).advance) y =
          visit get set body (body x s) y := by
        rw [visit, visit, hss, hgs]
        rfl
      simp only [List.foldl_cons] at hih ⊢
      rw [hy] at hih
      rw [hvisit, ← hih]
      simp only [List.length_cons, walkLoop, walkNext]
      rw [hnext]

/-- The walk is one pass: it visits the members the ring had at the start,
each once and in order, and leaves the cursor on the first one remaining. -/
theorem walk_eq_foldl {body : α → σ → σ} {s : σ} (hs : I s)
    (hnd : (get s).items.Nodup) (hbody : WalkBody get I body) :
    let s' := (get s).items.foldl (visit get set body) s
    walk get set body s =
      set s' ((get s').setIndex (get s').items.head?) := by
  rcases hitems : (get s).items with _ | ⟨x, post⟩
  · have hadv : ((get s).setIndex none).advance = (get s).setIndex none := by
      simp [CursorList.advance, CursorList.setIndex, hitems]
    simp only [walk, walkNext, hgs, hadv, hss, CursorList.items_setIndex, hitems,
      List.length_nil, walkLoop, List.foldl_nil, List.head?_nil]
  · have hadv : ((get s).setIndex none).advance =
        (get s).setIndex (some x) := by
      simp [CursorList.advance, CursorList.setIndex, hitems]
    have hloop := walkLoop_eq_foldl hgs hss hsg hI hbody post [] x
      (set s ((get s).setIndex (some x)))
      (hI s (some x) hs fun y hy => by
        rw [hitems, ← Option.some_inj.mp hy]
        exact List.mem_cons_self ..)
      (by rw [hgs, CursorList.items_setIndex, hitems]; rfl)
      (by simpa [hitems] using hnd) (by rw [hgs]; rfl)
    have hfirst : visit get set body (set s ((get s).setIndex (some x))) x =
        visit get set body s x := by
      simp only [visit, hss, hgs, CursorList.setIndex_setIndex]
    simp only [List.foldl_cons, hfirst] at hloop ⊢
    rw [← hloop]
    simp only [walk, walkNext, hgs, hadv, hss, CursorList.items_setIndex, hitems,
      List.length_cons, CursorList.index_setIndex]

/-- The notes of a walk are those of the visits. -/
theorem walkLog_eq_foldl {β : Type*} {body : α → σ → σ} {log : α → σ → List β}
    {s : σ} (hs : I s) (hnd : (get s).items.Nodup) (hbody : WalkBody get I body) :
    walkLog get set body log s =
      ((get s).items.foldl (fun (p : σ × List β) x =>
        (visit get set body p.1 x,
          p.2 ++ log x (set p.1 ((get p.1).setIndex (some x))))) (s, [])).2 := by
  have hwalk := @walk_eq_foldl α (σ × List β) _ (fun p => get p.1)
    (fun p l => (set p.1 l, p.2)) (fun p l => hgs p.1 l)
    (fun p l l' => by rw [hss]) (fun p => by rw [hsg]) (fun p => I p.1)
    (fun p i hp hi => hI p.1 i hp hi)
    (fun x p => (body x p.1, p.2 ++ log x p.1)) (s, []) hs hnd
    (fun y p hp hidx hy => hbody y p.1 hp hidx hy)
  rw [walkLog, hwalk]
  rfl

/-- The members a walk visits, in the order of the visits. -/
theorem walkLog_members {body : α → σ → σ} {s : σ} (hs : I s)
    (hnd : (get s).items.Nodup) (hbody : WalkBody get I body) :
    walkLog get set body (fun x _ => [x]) s = (get s).items := by
  have hfold : ∀ (l : List α) (p : σ × List α),
      (l.foldl (fun (p : σ × List α) x => (visit get set body p.1 x, p.2 ++ [x])) p).2 =
        p.2 ++ l := by
    intro l
    induction l with
    | nil => intro p; exact (List.append_nil _).symm
    | cons x l ih =>
        intro p
        rw [List.foldl_cons, ih, List.append_assoc]
        rfl
  rw [walkLog_eq_foldl hgs hss hsg hI hs hnd hbody, hfold]
  rfl

end Walk

/-! ## Two walks side by side -/

section Pair

variable {α σ τ : Type*} [DecidableEq α]

/-- A relation between the states of two walks under which their rings are
equal, and which survives the cursors being put on the same place. -/
structure WalkPair (getS : σ → CursorList α) (setS : σ → CursorList α → σ)
    (getT : τ → CursorList α) (setT : τ → CursorList α → τ) (R : σ → τ → Prop) :
    Prop where
  ring : ∀ s t, R s t → getT t = getS s
  get_set : ∀ s l, getS (setS s l) = l
  setIndex : ∀ s t i, R s t → (∀ x, i = some x → x ∈ (getS s).items) →
    R (setS s ((getS s).setIndex i)) (setT t ((getS s).setIndex i))

variable {getS : σ → CursorList α} {setS : σ → CursorList α → σ}
  {getT : τ → CursorList α} {setT : τ → CursorList α → τ} {R : σ → τ → Prop}
  {bodyS : α → σ → σ} {bodyT : α → τ → τ} {s : σ} {t : τ}

theorem WalkPair.advance (h : WalkPair getS setS getT setT R) (hR : R s t) :
    R (setS s (getS s).advance) (setT t (getS s).advance) :=
  h.setIndex s t (getS s).advance.index hR
    fun _ hx => CursorList.advance_mem (l := getS s) hx

/-- The rounds keep the relation if the two bodies do, on a member of the
ring. -/
theorem WalkPair.walkLoop (h : WalkPair getS setS getT setT R)
    (hbody : ∀ x s t, R s t → x ∈ (getS s).items → R (bodyS x s) (bodyT x t))
    (n : Nat) (hR : R s t) {item : Option α}
    (hitem : ∀ x, item = some x → x ∈ (getS s).items) :
    R (FreeRtosSim.walkLoop getS setS bodyS n item s)
      (FreeRtosSim.walkLoop getT setT bodyT n item t) := by
  induction n generalizing s t item with
  | zero => exact hR
  | succ n ih =>
      -- after the visit both cursors are stepped to the same member
      have hnext : ∀ s t, R s t →
          R (FreeRtosSim.walkLoop getS setS bodyS n (walkNext getS setS s).1
              (walkNext getS setS s).2)
            (FreeRtosSim.walkLoop getT setT bodyT n (walkNext getT setT t).1
              (walkNext getT setT t).2) := by
        intro s t hR
        have hadv : getT t = getS s := h.ring s t hR
        rw [walkNext, walkNext, hadv]
        refine ih (h.advance hR) fun x hx => ?_
        rw [h.get_set]
        exact CursorList.advance_mem (l := getS s) hx
      cases item with
      | none => exact hnext s t hR
      | some x => exact hnext _ _ (hbody x s t hR (hitem x rfl))

theorem WalkPair.walk (h : WalkPair getS setS getT setT R)
    (hbody : ∀ x s t, R s t → x ∈ (getS s).items → R (bodyS x s) (bodyT x t))
    (hR : R s t) :
    R (FreeRtosSim.walk getS setS bodyS s) (FreeRtosSim.walk getT setT bodyT t) := by
  have hreset := h.setIndex s t none hR fun _ hx => absurd hx (by simp)
  have hring := h.ring _ _ hreset
  have hstep := h.advance hreset
  have hlast := h.ring _ _ hstep
  rw [FreeRtosSim.walk, FreeRtosSim.walk, h.ring s t hR]
  simp only [walkNext]
  rw [hring, hlast]
  refine h.walkLoop hbody _ hstep fun x hx => ?_
  rw [h.get_set] at hx ⊢
  rw [h.get_set]
  exact CursorList.advance_mem (l := (getS s).setIndex none) hx

/-- Two walks that note down the same at every visit. -/
theorem WalkPair.walkLog {β : Type*} {logS : α → σ → List β} {logT : α → τ → List β}
    (h : WalkPair getS setS getT setT R)
    (hbody : ∀ x s t, R s t → x ∈ (getS s).items → R (bodyS x s) (bodyT x t))
    (hlog : ∀ x s t, R s t → x ∈ (getS s).items → logT x t = logS x s)
    (hR : R s t) :
    FreeRtosSim.walkLog getT setT bodyT logT t =
      FreeRtosSim.walkLog getS setS bodyS logS s := by
  have hpair : WalkPair (fun p : σ × List β => getS p.1) (fun p l => (setS p.1 l, p.2))
      (fun p : τ × List β => getT p.1) (fun p l => (setT p.1 l, p.2))
      (fun p q => R p.1 q.1 ∧ q.2 = p.2) :=
    { ring := fun p q hpq => h.ring p.1 q.1 hpq.1
      get_set := fun p l => h.get_set p.1 l
      setIndex := fun p q i hpq hi => ⟨h.setIndex p.1 q.1 i hpq.1 hi, hpq.2⟩ }
  have hwalk := @WalkPair.walk α (σ × List β) (τ × List β) _ _ _ _ _ _
    (fun x p => (bodyS x p.1, p.2 ++ logS x p.1))
    (fun x q => (bodyT x q.1, q.2 ++ logT x q.1)) (s, []) (t, []) hpair
    (fun x p q hpq hx => ⟨hbody x p.1 q.1 hpq.1 hx, by
      rw [hpq.2, hlog x p.1 q.1 hpq.1 hx]⟩) ⟨hR, rfl⟩
  exact hwalk.2

end Pair

end FreeRtosSim
