import FreeRtosSim.Lib.CursorList

/-!
# Ring lists in memory

The circular doubly linked lists that `CursorList` is the sequence of: items
with a link to either neighbour, one end marker for each ring, a cursor that
points to a member or to the marker, and a counter. The operations are
sequences of single assignments. `Ring` says that the memory holds a given
`CursorList`, and each operation then does to the memory what the operation
of the same name does to the sequence, and leaves the other rings alone.

The cursor is advanced by following links, with the marker stepped over by a
special case; that this reaches every member once, also when the member in
hand is unlinked on the way, is carried over from the sequence at the end.
-/

namespace FreeRtosSim

/-- What a link can point to: the end marker of a ring, or an item. -/
inductive RingNode (κ ι : Type*) where
  | marker (k : κ)
  | item (x : ι)
  deriving DecidableEq

/-- The links of all markers and items, and the cursor and the counter of
each ring. -/
structure RingMemory (κ ι : Type*) where
  next : RingNode κ ι → RingNode κ ι
  prev : RingNode κ ι → RingNode κ ι
  index : κ → RingNode κ ι
  count : κ → Nat

namespace RingMemory

open RingNode

variable {κ ι : Type*}

/-! ## Segments -/

/-- From `a` over the items `xs` to `b`, the links of neighbours are inverse
to each other. -/
def Linked (m : RingMemory κ ι) : RingNode κ ι → List ι → RingNode κ ι → Prop
  | a, [], b => m.next a = b ∧ m.prev b = a
  | a, x :: xs, b => m.next a = item x ∧ m.prev (item x) = a ∧ Linked m (item x) xs b

/-- The node a segment begins with, after its left end. -/
def firstNode (xs : List ι) (b : RingNode κ ι) : RingNode κ ι :=
  match xs with
  | [] => b
  | x :: _ => item x

/-- The node a segment ends with, before its right end. -/
def lastNode (a : RingNode κ ι) : List ι → RingNode κ ι
  | [] => a
  | x :: xs => lastNode (item x) xs

/-- The nodes of a ring. -/
def OnRing (k : κ) (xs : List ι) (n : RingNode κ ι) : Prop :=
  n = marker k ∨ ∃ x ∈ xs, n = item x

section Segments

variable {m m' : RingMemory κ ι} {a b c d n : RingNode κ ι} {k k' : κ}
  {xs ys pre post : List ι} {x : ι}

theorem firstNode_eq (xs : List ι) (b : RingNode κ ι) :
    firstNode xs b = b ∨ ∃ x ∈ xs, firstNode xs b = item x := by
  cases xs with
  | nil => exact Or.inl rfl
  | cons x xs => exact Or.inr ⟨x, List.mem_cons_self .., rfl⟩

theorem lastNode_eq (a : RingNode κ ι) (xs : List ι) :
    lastNode a xs = a ∨ ∃ x ∈ xs, lastNode a xs = item x := by
  induction xs generalizing a with
  | nil => exact Or.inl rfl
  | cons x xs ih =>
      refine Or.inr ?_
      rcases ih (item x) with h | ⟨y, hy, h⟩
      · exact ⟨x, List.mem_cons_self .., h⟩
      · exact ⟨y, List.mem_cons_of_mem x hy, h⟩

theorem lastNode_append (a : RingNode κ ι) (xs : List ι) (x : ι) :
    lastNode a (xs ++ [x]) = item x := by
  induction xs generalizing a with
  | nil => rfl
  | cons y xs ih => exact ih (item y)

theorem onRing_firstNode (h : ∀ y ∈ post, y ∈ xs) : OnRing k xs (firstNode post (marker k)) := by
  rcases firstNode_eq post (marker k) with he | ⟨y, hy, he⟩
  · exact Or.inl he
  · exact Or.inr ⟨y, h y hy, he⟩

theorem onRing_lastNode (h : ∀ y ∈ pre, y ∈ xs) : OnRing k xs (lastNode (marker k) pre) := by
  rcases lastNode_eq (marker k) pre with he | ⟨y, hy, he⟩
  · exact Or.inl he
  · exact Or.inr ⟨y, h y hy, he⟩

/-- Rings with no member in common have no node in common. -/
theorem OnRing.ne (h : OnRing k xs n) (h' : OnRing k' ys a) (hk : k ≠ k')
    (hd : ∀ x ∈ xs, x ∉ ys) : n ≠ a := by
  rintro rfl
  rcases h with rfl | ⟨x, hx, rfl⟩
  · rcases h' with he | ⟨y, -, he⟩
    · exact hk (marker.inj he)
    · exact absurd he (by simp)
  · rcases h' with he | ⟨y, hy, he⟩
    · exact absurd he (by simp)
    · exact hd x hx (item.inj he ▸ hy)

theorem OnRing.ne_item (h : OnRing k xs n) (hx : x ∉ xs) : n ≠ item x := by
  rintro rfl
  rcases h with he | ⟨y, hy, he⟩
  · exact absurd he (by simp)
  · exact hx (item.inj he ▸ hy)

/-- Where two segments meet. -/
theorem linked_append : Linked m a (xs ++ ys) b ↔
    Linked m a xs (firstNode ys b) ∧ Linked m (lastNode a xs) ys b := by
  induction xs generalizing a with
  | nil =>
      refine ⟨fun h => ⟨?_, h⟩, fun h => h.2⟩
      cases ys with
      | nil => exact h
      | cons y ys => exact ⟨h.1, h.2.1⟩
  | cons x xs ih =>
      simp only [List.cons_append, Linked, ih, lastNode, and_assoc]

/-- The links at the ends of a segment. -/
theorem Linked.next_left (h : Linked m a xs b) : m.next a = firstNode xs b := by
  cases xs with
  | nil => exact h.1
  | cons x xs => exact h.1

theorem Linked.prev_right (h : Linked m a xs b) : m.prev b = lastNode a xs := by
  induction xs generalizing a with
  | nil => exact h.2
  | cons x xs ih => exact ih h.2.2

/-- A segment does not see what is written elsewhere. -/
theorem Linked.congr (h : Linked m a xs b)
    (hnext : ∀ n, (n = a ∨ ∃ x ∈ xs, n = item x) → m'.next n = m.next n)
    (hprev : ∀ n, (n = b ∨ ∃ x ∈ xs, n = item x) → m'.prev n = m.prev n) :
    Linked m' a xs b := by
  induction xs generalizing a with
  | nil =>
      obtain ⟨h₁, h₂⟩ := h
      exact ⟨(hnext a (Or.inl rfl)).trans h₁, (hprev b (Or.inl rfl)).trans h₂⟩
  | cons x xs ih =>
      obtain ⟨h₁, h₂, h₃⟩ := h
      refine ⟨(hnext a (Or.inl rfl)).trans h₁,
        (hprev _ (Or.inr ⟨x, List.mem_cons_self .., rfl⟩)).trans h₂, ih h₃ ?_ ?_⟩
      · rintro n (rfl | ⟨y, hy, rfl⟩)
        · exact hnext _ (Or.inr ⟨x, List.mem_cons_self .., rfl⟩)
        · exact hnext _ (Or.inr ⟨y, List.mem_cons_of_mem x hy, rfl⟩)
      · rintro n (rfl | ⟨y, hy, rfl⟩)
        · exact hprev _ (Or.inl rfl)
        · exact hprev _ (Or.inr ⟨y, List.mem_cons_of_mem x hy, rfl⟩)

/-- The right end of a segment is moved to `d`. -/
theorem Linked.relink_right (h : Linked m a xs c) (hnd : xs.Nodup)
    (ha : ∀ x ∈ xs, a ≠ item x)
    (hnext : ∀ n, (n = a ∨ ∃ x ∈ xs, n = item x) → n ≠ lastNode a xs →
      m'.next n = m.next n)
    (hprev : ∀ x ∈ xs, m'.prev (item x) = m.prev (item x))
    (hlast : m'.next (lastNode a xs) = d) (hd : m'.prev d = lastNode a xs) :
    Linked m' a xs d := by
  induction xs generalizing a with
  | nil => exact ⟨hlast, hd⟩
  | cons x xs ih =>
      obtain ⟨h₁, h₂, h₃⟩ := h
      obtain ⟨hx, hnd⟩ := List.nodup_cons.mp hnd
      have hne : a ≠ lastNode (item x) xs := by
        rcases lastNode_eq (item x : RingNode κ ι) xs with he | ⟨y, hy, he⟩
        · rw [he]
          exact ha x (List.mem_cons_self ..)
        · rw [he]
          exact ha y (List.mem_cons_of_mem x hy)
      refine ⟨(hnext a (Or.inl rfl) hne).trans h₁,
        (hprev x (List.mem_cons_self ..)).trans h₂, ?_⟩
      refine ih h₃ hnd (fun y hy he => hx (item.inj he ▸ hy)) ?_
        (fun y hy => hprev y (List.mem_cons_of_mem x hy)) hlast hd
      rintro n (rfl | ⟨y, hy, rfl⟩) hn
      · exact hnext _ (Or.inr ⟨x, List.mem_cons_self .., rfl⟩) hn
      · exact hnext _ (Or.inr ⟨y, List.mem_cons_of_mem x hy, rfl⟩) hn

/-- The left end of a segment is moved to `d`. -/
theorem Linked.relink_left (h : Linked m a xs b) (hnd : xs.Nodup)
    (hb : ∀ x ∈ xs, b ≠ item x)
    (hnext : ∀ x ∈ xs, m'.next (item x) = m.next (item x))
    (hprev : ∀ n, (n = b ∨ ∃ x ∈ xs, n = item x) → n ≠ firstNode xs b →
      m'.prev n = m.prev n)
    (hd : m'.next d = firstNode xs b) (hfirst : m'.prev (firstNode xs b) = d) :
    Linked m' d xs b := by
  cases xs with
  | nil => exact ⟨hd, hfirst⟩
  | cons x xs =>
      obtain ⟨-, -, h⟩ := h
      obtain ⟨hx, -⟩ := List.nodup_cons.mp hnd
      refine ⟨hd, hfirst, h.congr ?_ ?_⟩
      · rintro n (rfl | ⟨y, hy, rfl⟩)
        · exact hnext x (List.mem_cons_self ..)
        · exact hnext y (List.mem_cons_of_mem x hy)
      · rintro n (rfl | ⟨y, hy, rfl⟩)
        · exact hprev _ (Or.inl rfl) (hb x (List.mem_cons_self ..))
        · refine hprev _ (Or.inr ⟨y, List.mem_cons_of_mem x hy, rfl⟩) fun he => hx ?_
          exact item.inj he ▸ hy

end Segments

/-! ## The ring of a sequence -/

/-- The node a cursor stands on. -/
def cursorNode (k : κ) : Option ι → RingNode κ ι
  | none => marker k
  | some x => item x

/-- The memory holds the ring `k` as the sequence `l`. -/
structure Ring (m : RingMemory κ ι) (k : κ) (l : CursorList ι) : Prop where
  linked : Linked m (marker k) l.items (marker k)
  index : m.index k = cursorNode k l.index
  count : m.count k = l.count

section Ring

variable {m m' : RingMemory κ ι} {k k' : κ} {l l' : CursorList ι}
  {xs pre post : List ι} {x : ι} {n : RingNode κ ι}

theorem cursorNode_head? (k : κ) (xs : List ι) :
    cursorNode k xs.head? = firstNode xs (marker k) := by
  cases xs <;> rfl

theorem cursorNode_getLast? (k : κ) (xs : List ι) :
    cursorNode k xs.getLast? = lastNode (marker k) xs := by
  rcases List.eq_nil_or_concat xs with rfl | ⟨ys, y, rfl⟩
  · rfl
  · rw [List.concat_eq_append, lastNode_append, List.getLast?_append]
    rfl

/-- The neighbours of a member. -/
theorem Linked.neighbours (h : Linked m (marker k) (pre ++ x :: post) (marker k)) :
    m.next (item x) = firstNode post (marker k) ∧
      m.prev (item x) = lastNode (marker k) pre := by
  obtain ⟨-, -, hprev, hrest⟩ := linked_append.mp h
  exact ⟨hrest.next_left, hprev⟩

/-- The links of a ring are inverse to each other. -/
theorem Linked.inverse (h : Linked m (marker k) xs (marker k)) (hn : OnRing k xs n) :
    m.prev (m.next n) = n ∧ m.next (m.prev n) = n := by
  obtain ⟨pre, post, hxs, hnode⟩ : ∃ pre post, xs = pre ++ post ∧
      n = lastNode (marker k) pre := by
    rcases hn with rfl | ⟨x, hx, rfl⟩
    · exact ⟨[], xs, rfl, rfl⟩
    · obtain ⟨pre, post, rfl⟩ := List.append_of_mem hx
      exact ⟨pre ++ [x], post, by simp, (lastNode_append _ pre x).symm⟩
  obtain ⟨pre', post', hxs', hnode'⟩ : ∃ pre post, xs = pre ++ post ∧
      n = firstNode post (marker k) := by
    rcases hn with rfl | ⟨x, hx, rfl⟩
    · exact ⟨xs, [], by simp, rfl⟩
    · obtain ⟨pre, post, rfl⟩ := List.append_of_mem hx
      exact ⟨pre, x :: post, rfl, rfl⟩
  constructor
  · obtain ⟨hleft, hright⟩ := linked_append.mp (hxs ▸ h)
    rw [hnode, hright.next_left, hleft.prev_right]
  · obtain ⟨hleft, hright⟩ := linked_append.mp (hxs' ▸ h)
    rw [hnode', hleft.prev_right, hright.next_left]

/-- From `m` to `m'` the item `x` is linked in between `u` and `w`. -/
structure LinksIn (m m' : RingMemory κ ι) (u : RingNode κ ι) (x : ι)
    (w : RingNode κ ι) : Prop where
  next_item : m'.next (item x) = w
  next_left : m'.next u = item x
  next_other : ∀ n, n ≠ u → n ≠ item x → m'.next n = m.next n
  prev_item : m'.prev (item x) = u
  prev_right : m'.prev w = item x
  prev_other : ∀ n, n ≠ w → n ≠ item x → m'.prev n = m.prev n

/-- From `m` to `m'` what was between `u` and `w` is linked out. -/
structure LinksOut (m m' : RingMemory κ ι) (u w : RingNode κ ι) : Prop where
  next_left : m'.next u = w
  next_other : ∀ n, n ≠ u → m'.next n = m.next n
  prev_right : m'.prev w = u
  prev_other : ∀ n, n ≠ w → m'.prev n = m.prev n

theorem firstNode_ne (hx : x ∉ post) : firstNode post (marker k) ≠ item x :=
  (onRing_firstNode fun _ hy => hy).ne_item hx

theorem lastNode_ne (hx : x ∉ pre) : lastNode (marker k) pre ≠ item x :=
  (onRing_lastNode fun _ hy => hy).ne_item hx

theorem Linked.link_in (h : Linked m (marker k) (pre ++ post) (marker k))
    (hnd : (pre ++ x :: post).Nodup)
    (hl : LinksIn m m' (lastNode (marker k) pre) x (firstNode post (marker k))) :
    Linked m' (marker k) (pre ++ x :: post) (marker k) := by
  obtain ⟨hpre, hpost⟩ := linked_append.mp h
  have hd := List.disjoint_of_nodup_append hnd
  have hxpre : x ∉ pre := fun hx => hd hx (List.mem_cons_self ..)
  obtain ⟨hxpost, hndpost⟩ := List.nodup_cons.mp hnd.of_append_right
  have hdisj : ∀ y ∈ pre, y ∉ post := fun y hy hy' =>
    hd hy (List.mem_cons_of_mem x hy')
  refine linked_append.mpr ⟨?_, hl.next_left, hl.prev_item, ?_⟩
  · refine hpre.relink_right hnd.of_append_left (by simp) (fun n hon hne => ?_)
      (fun y hy => ?_) hl.next_left hl.prev_item
    · exact hl.next_other n hne (OnRing.ne_item hon hxpre)
    · exact hl.prev_other _ (firstNode_ne (hdisj y hy)).symm
        fun he => hxpre (item.inj he ▸ hy)
  · refine hpost.relink_left hndpost (by simp) (fun y hy => ?_)
      (fun n hon hne => ?_) hl.next_item hl.prev_right
    · exact hl.next_other _ (lastNode_ne fun hy' => hdisj y hy' hy).symm
        fun he => hxpost (item.inj he ▸ hy)
    · exact hl.prev_other n hne (OnRing.ne_item hon hxpost)

theorem Linked.link_out (h : Linked m (marker k) (pre ++ x :: post) (marker k))
    (hnd : (pre ++ x :: post).Nodup)
    (hl : LinksOut m m' (lastNode (marker k) pre) (firstNode post (marker k))) :
    Linked m' (marker k) (pre ++ post) (marker k) := by
  obtain ⟨hpre, -, -, hpost⟩ := linked_append.mp h
  have hd := List.disjoint_of_nodup_append hnd
  have hndpost := (List.nodup_cons.mp hnd.of_append_right).2
  have hdisj : ∀ y ∈ pre, y ∉ post := fun y hy hy' =>
    hd hy (List.mem_cons_of_mem x hy')
  refine linked_append.mpr ⟨?_, ?_⟩
  · exact hpre.relink_right hnd.of_append_left (by simp)
      (fun n _ hne => hl.next_other n hne)
      (fun y hy => hl.prev_other _ (firstNode_ne (hdisj y hy)).symm)
      hl.next_left hl.prev_right
  · exact hpost.relink_left hndpost (by simp)
      (fun y hy => hl.next_other _ (lastNode_ne fun hy' => hdisj y hy' hy).symm)
      (fun n _ hne => hl.prev_other n hne) hl.next_left hl.prev_right

/-- A ring does not see what is written elsewhere. -/
theorem Ring.congr (h : Ring m k l)
    (hnext : ∀ n, OnRing k l.items n → m'.next n = m.next n)
    (hprev : ∀ n, OnRing k l.items n → m'.prev n = m.prev n)
    (hindex : m'.index k = m.index k) (hcount : m'.count k = m.count k) :
    Ring m' k l where
  linked := h.linked.congr hnext hprev
  index := hindex.trans h.index
  count := hcount.trans h.count

end Ring

/-! ## The operations -/

section Operations

variable [DecidableEq κ] [DecidableEq ι]

def setNext (m : RingMemory κ ι) (n v : RingNode κ ι) : RingMemory κ ι :=
  { m with next := Function.update m.next n v }

def setPrev (m : RingMemory κ ι) (n v : RingNode κ ι) : RingMemory κ ι :=
  { m with prev := Function.update m.prev n v }

def setIndex (m : RingMemory κ ι) (k : κ) (n : RingNode κ ι) : RingMemory κ ι :=
  { m with index := Function.update m.index k n }

def setCount (m : RingMemory κ ι) (k : κ) (n : Nat) : RingMemory κ ι :=
  { m with count := Function.update m.count k n }

/-- Link `x` in behind the node `it`. -/
def insertAfter (m : RingMemory κ ι) (k : κ) (it : RingNode κ ι) (x : ι) :
    RingMemory κ ι :=
  let m := m.setNext (item x) (m.next it)
  let m := m.setPrev (m.next (item x)) (item x)
  let m := m.setPrev (item x) it
  let m := m.setNext it (item x)
  m.setCount k (m.count k + 1)

/-- Link `x` in in front of the node the cursor is on. -/
def insertEnd (m : RingMemory κ ι) (k : κ) (x : ι) : RingMemory κ ι :=
  let i := m.index k
  let m := m.setNext (item x) i
  let m := m.setPrev (item x) (m.prev i)
  let m := m.setNext (m.prev i) (item x)
  let m := m.setPrev i (item x)
  m.setCount k (m.count k + 1)

/-- Unlink `x`; a cursor standing on it goes to the node before. -/
def remove (m : RingMemory κ ι) (k : κ) (x : ι) : RingMemory κ ι :=
  let m := m.setPrev (m.next (item x)) (m.prev (item x))
  let m := m.setNext (m.prev (item x)) (m.next (item x))
  let m := if m.index k = item x then m.setIndex k (m.prev (item x)) else m
  m.setCount k (m.count k - 1)

/-- Step the cursor, over the marker, and return the node it is on. -/
def nextEntry (m : RingMemory κ ι) (k : κ) : RingNode κ ι × RingMemory κ ι :=
  let m := m.setIndex k (m.next (m.index k))
  let m := if m.index k = marker k then m.setIndex k (m.next (m.index k)) else m
  (m.index k, m)

omit [DecidableEq κ] [DecidableEq ι] in
/-- Go on from `it` while the next node's value is at most `v`. -/
def findPlace (m : RingMemory κ ι) (value : RingNode κ ι → Nat) (v : Nat) :
    Nat → RingNode κ ι → RingNode κ ι
  | 0, it => it
  | n + 1, it =>
      if value (m.next it) ≤ v then findPlace m value v n (m.next it) else it

/-! ### What the operations assign -/

section Assignments

variable {m : RingMemory κ ι} {k : κ} {x : ι} {it : RingNode κ ι}

theorem insertAfter_links (hit : it ≠ item x) (hnext : m.next it ≠ item x) :
    LinksIn m (m.insertAfter k it x) it x (m.next it) := by
  have hn : (m.insertAfter k it x).next =
      Function.update (Function.update m.next (item x) (m.next it)) it (item x) := rfl
  have hp : (m.insertAfter k it x).prev =
      Function.update (Function.update m.prev (m.next it) (item x)) (item x) it := by
    simp [insertAfter, setNext, setPrev, setCount]
  refine ⟨?_, ?_, fun n hu hx => ?_, ?_, ?_, fun n hw hx => ?_⟩
  · rw [hn, Function.update_of_ne hit.symm, Function.update_self]
  · rw [hn, Function.update_self]
  · rw [hn, Function.update_of_ne hu, Function.update_of_ne hx]
  · rw [hp, Function.update_self]
  · rw [hp, Function.update_of_ne hnext, Function.update_self]
  · rw [hp, Function.update_of_ne hx, Function.update_of_ne hw]

theorem insertEnd_links (hi : m.index k ≠ item x) (hprev : m.prev (m.index k) ≠ item x) :
    LinksIn m (m.insertEnd k x) (m.prev (m.index k)) x (m.index k) := by
  have hn : (m.insertEnd k x).next = Function.update
      (Function.update m.next (item x) (m.index k)) (m.prev (m.index k)) (item x) := by
    simp [insertEnd, setNext, setPrev, setCount, Function.update_of_ne hi]
  have hp : (m.insertEnd k x).prev = Function.update
      (Function.update m.prev (item x) (m.prev (m.index k))) (m.index k) (item x) := rfl
  refine ⟨?_, ?_, fun n hu hx => ?_, ?_, ?_, fun n hw hx => ?_⟩
  · rw [hn, Function.update_of_ne hprev.symm, Function.update_self]
  · rw [hn, Function.update_self]
  · rw [hn, Function.update_of_ne hu, Function.update_of_ne hx]
  · rw [hp, Function.update_of_ne hi.symm, Function.update_self]
  · rw [hp, Function.update_self]
  · rw [hp, Function.update_of_ne hw, Function.update_of_ne hx]

/-- The assignments of a removal, the cursor's apart. -/
theorem remove_fields (hnext : m.next (item x) ≠ item x) :
    (m.remove k x).next = Function.update m.next (m.prev (item x)) (m.next (item x)) ∧
    (m.remove k x).prev = Function.update m.prev (m.next (item x)) (m.prev (item x)) ∧
    (m.remove k x).index = (if m.index k = item x then
      Function.update m.index k (m.prev (item x)) else m.index) ∧
    (m.remove k x).count = Function.update m.count k (m.count k - 1) := by
  have hself : Function.update m.prev (m.next (item x)) (m.prev (item x)) (item x) =
      m.prev (item x) := Function.update_of_ne hnext.symm ..
  by_cases hi : m.index k = item x <;>
    simp [remove, setPrev, setNext, setIndex, setCount, hi, hself]

theorem remove_links (hnext : m.next (item x) ≠ item x) :
    LinksOut m (m.remove k x) (m.prev (item x)) (m.next (item x)) := by
  obtain ⟨hn, hp, -, -⟩ := remove_fields (k := k) hnext
  refine ⟨?_, fun n hne => ?_, ?_, fun n hne => ?_⟩
  · rw [hn, Function.update_self]
  · rw [hn, Function.update_of_ne hne]
  · rw [hp, Function.update_self]
  · rw [hp, Function.update_of_ne hne]

end Assignments

/-! ### The operations on the ring they are about -/

namespace Ring

variable {m : RingMemory κ ι} {k k' : κ} {l l' : CursorList ι} {x y : ι}
  {value : RingNode κ ι → Nat} {v : Nat}

omit [DecidableEq ι] in
theorem setIndex (h : Ring m k l) (i : Option ι) :
    Ring (m.setIndex k (cursorNode k i)) k (l.setIndex i) where
  linked := h.linked.congr (fun _ _ => rfl) fun _ _ => rfl
  index := Function.update_self ..
  count := h.count

omit [DecidableEq κ] in
/-- Following the link behind the cursor. -/
theorem next_index (h : Ring m k l) (hl : l.WellFormed) :
    m.next (m.index k) =
      cursorNode k (match l.index with
        | none => l.items.head?
        | some y => CursorList.after l.items y) := by
  rw [h.index]
  cases hi : l.index with
  | none =>
      rw [cursorNode_head?]
      exact h.linked.next_left
  | some y =>
      obtain ⟨pre, post, hitems⟩ := List.append_of_mem (hl.cursor y hi)
      have hlink := h.linked
      have hnd := hl.nodup
      rw [hitems] at hlink hnd
      have hy : y ∉ pre := fun hy =>
        List.disjoint_of_nodup_append hnd hy (List.mem_cons_self ..)
      dsimp only
      rw [hitems, CursorList.after_append hy, cursorNode_head?]
      exact hlink.neighbours.1

/-- `listGET_OWNER_OF_NEXT_ENTRY`. -/
theorem nextEntry (h : Ring m k l) (hl : l.WellFormed) :
    (m.nextEntry k).1 = cursorNode k l.advance.index ∧
      Ring (m.nextEntry k).2 k l.advance := by
  have hnext := h.next_index hl
  have hfirst : m.next (marker k) = cursorNode k l.items.head? := by
    rw [cursorNode_head?]
    exact h.linked.next_left
  -- what the cursor is on after the marker has been stepped over
  have hindex : (m.nextEntry k).1 = cursorNode k l.advance.index := by
    simp only [RingMemory.nextEntry, RingMemory.setIndex, Function.update_self, hnext]
    cases hi : l.index with
    | none =>
        simp only [CursorList.advance, hi]
        cases hh : l.items.head? with
        | none => simp [cursorNode, hfirst, hh]
        | some z => simp [cursorNode]
    | some y =>
        simp only [CursorList.advance, hi]
        cases ha : CursorList.after l.items y with
        | none => simp [cursorNode, hfirst]
        | some z => simp [cursorNode]
  have hrest : (m.nextEntry k).2 = m.setIndex k (m.nextEntry k).1 := by
    simp only [RingMemory.nextEntry, RingMemory.setIndex, Function.update_self]
    split
    · simp
    · simp
  refine ⟨hindex, ?_⟩
  rw [hrest, hindex]
  exact h.setIndex l.advance.index

omit [DecidableEq κ] in
/-- The place in front of the cursor. -/
theorem index_place (h : Ring m k l) (hl : l.WellFormed) (x : ι) :
    ∃ pre post, l.items = pre ++ post ∧ m.index k = firstNode post (marker k) ∧
      m.prev (m.index k) = lastNode (marker k) pre ∧
      (l.insertEnd x).items = pre ++ x :: post := by
  obtain ⟨pre, post, hitems, hnode, hins⟩ : ∃ pre post, l.items = pre ++ post ∧
      m.index k = firstNode post (marker k) ∧
      (l.insertEnd x).items = pre ++ x :: post := by
    rw [h.index]
    cases hi : l.index with
    | none => exact ⟨l.items, [], by simp, rfl, by simp [CursorList.insertEnd, hi]⟩
    | some y =>
        obtain ⟨pre, post, hitems⟩ := List.append_of_mem (hl.cursor y hi)
        have hnd := hl.nodup
        rw [hitems] at hnd
        have hy : y ∉ pre := fun hy =>
          List.disjoint_of_nodup_append hnd hy (List.mem_cons_self ..)
        refine ⟨pre, y :: post, hitems, rfl, ?_⟩
        simp only [CursorList.insertEnd, hi, hitems,
          CursorList.insertBefore_append hy]
  refine ⟨pre, post, hitems, hnode, ?_, hins⟩
  have hlink := h.linked
  rw [hitems] at hlink
  rw [hnode]
  exact (linked_append.mp hlink).1.prev_right

/-- Where `insertEnd` links the newcomer in. -/
theorem insertEnd_place (h : Ring m k l) (hl : l.WellFormed) (hx : x ∉ l.items) :
    ∃ pre post, l.items = pre ++ post ∧ (l.insertEnd x).items = pre ++ x :: post ∧
      LinksIn m (m.insertEnd k x) (lastNode (marker k) pre) x (firstNode post (marker k)) := by
  obtain ⟨pre, post, hitems, hnode, hprev, hins⟩ := h.index_place hl x
  rw [hitems, List.mem_append, not_or] at hx
  have hspec := insertEnd_links (m := m) (k := k) (x := x)
    (by rw [hnode]; exact firstNode_ne hx.2) (by rw [hprev]; exact lastNode_ne hx.1)
  rw [hprev, hnode] at hspec
  exact ⟨pre, post, hitems, hins, hspec⟩

theorem insertEnd (h : Ring m k l) (hl : l.WellFormed) (hx : x ∉ l.items) :
    Ring (m.insertEnd k x) k (l.insertEnd x) := by
  obtain ⟨pre, post, hitems, hins, hspec⟩ := h.insertEnd_place hl hx
  have hlink := h.linked
  have hnd := (hl.insertEnd hx).nodup
  rw [hitems] at hlink
  rw [hins] at hnd
  exact
    { linked := hins ▸ hlink.link_in hnd hspec
      index := h.index
      count := by
        show Function.update m.count k (m.count k + 1) k = l.count + 1
        rw [Function.update_self, h.count] }

/-- What `remove` links out. -/
theorem remove_place (h : Ring m k l) (hl : l.WellFormed) (hx : x ∈ l.items) :
    ∃ pre post, l.items = pre ++ x :: post ∧ m.next (item x) ≠ item x ∧
      m.prev (item x) = lastNode (marker k) pre ∧
      LinksOut m (m.remove k x) (lastNode (marker k) pre) (firstNode post (marker k)) := by
  obtain ⟨pre, post, hitems⟩ := List.append_of_mem hx
  have hlink := h.linked
  have hnd := hl.nodup
  rw [hitems] at hlink hnd
  have hpost := (List.nodup_cons.mp hnd.of_append_right).1
  obtain ⟨hnext, hprev⟩ := hlink.neighbours
  have hne : m.next (item x) ≠ item x := by
    rw [hnext]
    exact firstNode_ne hpost
  have hspec := remove_links (k := k) hne
  rw [hnext, hprev] at hspec
  exact ⟨pre, post, hitems, hne, hprev, hspec⟩

theorem remove (h : Ring m k l) (hl : l.WellFormed) (hx : x ∈ l.items) :
    Ring (m.remove k x) k (l.remove x) := by
  obtain ⟨pre, post, hitems, hne, hprev, hspec⟩ := h.remove_place hl hx
  have hlink := h.linked
  have hnd := hl.nodup
  rw [hitems] at hlink hnd
  have hpre : x ∉ pre := fun hy =>
    List.disjoint_of_nodup_append hnd hy (List.mem_cons_self ..)
  have hpost := (List.nodup_cons.mp hnd.of_append_right).1
  obtain ⟨-, -, hindex, hcount⟩ := remove_fields (k := k) hne
  have herase : (pre ++ x :: post).erase x = pre ++ post := by
    rw [List.erase_append_right _ hpre, List.erase_cons_head]
  refine ⟨?_, ?_, ?_⟩
  · rw [CursorList.items_remove, hitems, herase]
    exact hlink.link_out hnd hspec
  · rw [hindex, h.index, CursorList.remove]
    dsimp only
    by_cases hi : l.index = some x
    · have hic : cursorNode k l.index = item x := by rw [hi]; rfl
      rw [if_pos hic, if_pos hi, Function.update_self, hprev, hitems,
        CursorList.before_append hpre hpost, cursorNode_getLast?]
    · have hic : cursorNode k l.index ≠ item x := by
        cases hidx : l.index with
        | none => simp [cursorNode]
        | some y =>
            intro he
            exact hi (by rw [hidx, item.inj he])
      rw [if_neg hic, if_neg hi, h.index]
  · rw [hcount, Function.update_self, h.count, CursorList.remove]
    exact (if_pos hx).symm

theorem insertAfter_place {pre post : List ι} (h : Ring m k l)
    (hitems : l.items = pre ++ post) (hx : x ∉ l.items) :
    LinksIn m (m.insertAfter k (lastNode (marker k) pre) x) (lastNode (marker k) pre) x
      (firstNode post (marker k)) := by
  have hlink := h.linked
  rw [hitems] at hlink
  rw [hitems, List.mem_append, not_or] at hx
  have hnext : m.next (lastNode (marker k) pre) = firstNode post (marker k) :=
    (linked_append.mp hlink).2.next_left
  have hspec := insertAfter_links (k := k) (lastNode_ne (k := k) hx.1)
    (by rw [hnext]; exact firstNode_ne hx.2)
  rwa [hnext] at hspec

/-- Linking in behind a node of the ring. -/
theorem insertAfter {pre post : List ι} (h : Ring m k l) (hitems : l.items = pre ++ post)
    (hx : x ∉ l.items) (hl' : l'.WellFormed) (hins : l'.items = pre ++ x :: post)
    (hi : l'.index = l.index) (hc : l'.count = l.count + 1) :
    Ring (m.insertAfter k (lastNode (marker k) pre) x) k l' := by
  have hspec := h.insertAfter_place hitems hx
  have hlink := h.linked
  have hnd := hl'.nodup
  rw [hitems] at hlink
  rw [hins] at hnd
  exact
    { linked := hins ▸ hlink.link_in hnd hspec
      index := h.index.trans (by rw [hi])
      count := by
        show Function.update m.count k (m.count k + 1) k = l'.count
        rw [Function.update_self, h.count, hc] }

omit [DecidableEq κ] [DecidableEq ι] in
/-- The search stops behind the last member whose value is at most `v`, after
at most as many steps as there are members. -/
theorem findPlace (pre : List ι) (h : Linked m (marker k) (pre ++ post) (marker k))
    (hmark : v < value (marker k)) {n : Nat} (hn : post.length ≤ n) :
    m.findPlace value v (n + 1) (lastNode (marker k) pre) = lastNode (marker k)
      (pre ++ post.takeWhile fun y => decide (value (item y) ≤ v)) := by
  have hnext := (linked_append.mp h).2.next_left
  induction post generalizing pre n with
  | nil =>
      have hstop : ¬ value (m.next (lastNode (marker k) pre)) ≤ v := by
        rw [hnext]
        exact Nat.not_le.mpr hmark
      rw [RingMemory.findPlace, if_neg hstop, List.takeWhile_nil, List.append_nil]
  | cons y post ih =>
      have hon : m.next (lastNode (marker k) pre) = item y := hnext
      by_cases hy : value (item y) ≤ v
      · rw [RingMemory.findPlace, hon, if_pos hy,
          List.takeWhile_cons_of_pos (by simpa using hy)]
        obtain ⟨n, rfl⟩ : ∃ n', n = n' + 1 := ⟨n - 1, by
          rw [List.length_cons] at hn
          omega⟩
        have hsnoc : pre ++ [y] ++ post = pre ++ y :: post := by simp
        have hih := ih (pre ++ [y]) (hsnoc ▸ h)
          (show post.length ≤ n by rw [List.length_cons] at hn; omega)
          (linked_append.mp (hsnoc ▸ h)).2.next_left
        rw [lastNode_append] at hih
        rw [hih, List.append_assoc]
        rfl
      · rw [RingMemory.findPlace, hon, if_neg hy,
          List.takeWhile_cons_of_neg (by simpa using hy), List.append_nil]

omit [DecidableEq κ] [DecidableEq ι] in
/-- The node `insertSorted` links the newcomer in behind. -/
theorem findPlace_start (h : Ring m k l) (hmark : v < value (marker k)) {n : Nat}
    (hn : l.items.length ≤ n) :
    m.findPlace value v (n + 1) (marker k) = lastNode (marker k)
      (l.items.takeWhile fun y => decide (value (item y) ≤ v)) := by
  have hplace := findPlace [] h.linked hmark hn
  rwa [List.nil_append] at hplace

omit [DecidableEq κ] [DecidableEq ι] in
theorem insertSorted_items (value : RingNode κ ι → Nat) (l : CursorList ι) (x : ι) :
    (l.insertSorted (fun y => value (item y)) x).items =
      (l.items.takeWhile fun y => decide (value (item y) ≤ value (item x))) ++
        x :: l.items.dropWhile fun y => decide (value (item y) ≤ value (item x)) := by
  have hcmp : (fun y => decide (¬ value (item x) < value (item y))) =
      fun y => decide (value (item y) ≤ value (item x)) :=
    funext fun y => decide_eq_decide.mpr Nat.not_lt
  show l.items.orderedInsert (fun a b => value (item a) < value (item b)) x = _
  rw [List.orderedInsert_eq_take_drop, hcmp]

/-! ### The other rings -/

section Frame

variable (h' : Ring m k' l') (hk : k' ≠ k)

include h' hk

omit [DecidableEq ι] in
theorem setIndex_other (n : RingNode κ ι) : Ring (m.setIndex k n) k' l' where
  linked := h'.linked.congr (fun _ _ => rfl) fun _ _ => rfl
  index := (Function.update_of_ne hk ..).trans h'.index
  count := h'.count

theorem nextEntry_other : Ring (m.nextEntry k).2 k' l' := by
  simp only [RingMemory.nextEntry]
  split
  · exact (h'.setIndex_other hk _).setIndex_other hk _
  · exact h'.setIndex_other hk _

variable (h : Ring m k l) (hl : l.WellFormed) (hd : ∀ y ∈ l'.items, y ∉ l.items)

include h hl hd

theorem insertEnd_other (hx : x ∉ l.items) (hx' : x ∉ l'.items) :
    Ring (m.insertEnd k x) k' l' := by
  obtain ⟨pre, post, hitems, -, hspec⟩ := h.insertEnd_place hl hx
  have hu : OnRing k l.items (lastNode (marker k) pre) :=
    onRing_lastNode fun y hy => hitems ▸ List.mem_append_left _ hy
  have hw : OnRing k l.items (firstNode post (marker k)) :=
    onRing_firstNode fun y hy => hitems ▸ List.mem_append_right _ hy
  exact h'.congr
    (fun n hn => hspec.next_other n (hn.ne hu hk hd) (hn.ne_item hx'))
    (fun n hn => hspec.prev_other n (hn.ne hw hk hd) (hn.ne_item hx'))
    rfl (Function.update_of_ne hk ..)

theorem remove_other (hx : x ∈ l.items) : Ring (m.remove k x) k' l' := by
  obtain ⟨pre, post, hitems, hne, -, hspec⟩ := h.remove_place hl hx
  obtain ⟨-, -, hindex, hcount⟩ := remove_fields (k := k) hne
  have hu : OnRing k l.items (lastNode (marker k) pre) :=
    onRing_lastNode fun y hy => hitems ▸ List.mem_append_left _ hy
  have hw : OnRing k l.items (firstNode post (marker k)) :=
    onRing_firstNode fun y hy =>
      hitems ▸ List.mem_append_right _ (List.mem_cons_of_mem x hy)
  refine h'.congr (fun n hn => hspec.next_other n (hn.ne hu hk hd))
    (fun n hn => hspec.prev_other n (hn.ne hw hk hd)) ?_ ?_
  · rw [hindex]
    split
    · exact Function.update_of_ne hk ..
    · rfl
  · rw [hcount]
    exact Function.update_of_ne hk ..

omit hl in
theorem insertAfter_other {pre post : List ι} (hitems : l.items = pre ++ post)
    (hx : x ∉ l.items) (hx' : x ∉ l'.items) :
    Ring (m.insertAfter k (lastNode (marker k) pre) x) k' l' := by
  have hspec := h.insertAfter_place hitems hx
  have hu : OnRing k l.items (lastNode (marker k) pre) :=
    onRing_lastNode fun y hy => hitems ▸ List.mem_append_left _ hy
  have hw : OnRing k l.items (firstNode post (marker k)) :=
    onRing_firstNode fun y hy => hitems ▸ List.mem_append_right _ hy
  exact h'.congr
    (fun n hn => hspec.next_other n (hn.ne hu hk hd) (hn.ne_item hx'))
    (fun n hn => hspec.prev_other n (hn.ne hw hk hd) (hn.ne_item hx'))
    rfl (Function.update_of_ne hk ..)

end Frame

end Ring

/-! ## Several rings -/

/-- The memory holds the rings `K` as the sequences `L`. -/
structure Holds (m : RingMemory κ ι) (K : κ → Prop) (L : κ → CursorList ι) : Prop where
  ring : ∀ k, K k → Ring m k (L k)
  wellFormed : ∀ k, K k → (L k).WellFormed
  disjoint : ∀ k k', K k → K k' → k ≠ k' → ∀ x ∈ (L k).items, x ∉ (L k').items

namespace Holds

variable {m m' : RingMemory κ ι} {K : κ → Prop} {L : κ → CursorList ι} {k : κ}
  {l : CursorList ι} {x : ι}

omit [DecidableEq ι] in
/-- One ring changes, and what is new in it was in none. -/
theorem update (h : Holds m K L) (hr : Ring m' k l) (hl : l.WellFormed)
    (hother : ∀ k', K k' → k' ≠ k → Ring m' k' (L k'))
    (hnew : ∀ k', K k' → k' ≠ k → ∀ y ∈ l.items, y ∉ (L k').items) :
    Holds m' K (Function.update L k l) where
  ring k' hk' := by
    by_cases he : k' = k
    · subst he
      rwa [Function.update_self]
    · rw [Function.update_of_ne he]
      exact hother k' hk' he
  wellFormed k' hk' := by
    by_cases he : k' = k
    · subst he
      rwa [Function.update_self]
    · rw [Function.update_of_ne he]
      exact h.wellFormed k' hk'
  disjoint k₁ k₂ h₁ h₂ hne y hy hy' := by
    by_cases he₁ : k₁ = k
    · subst he₁
      rw [Function.update_self] at hy
      rw [Function.update_of_ne hne.symm] at hy'
      exact hnew k₂ h₂ hne.symm y hy hy'
    · rw [Function.update_of_ne he₁] at hy
      by_cases he₂ : k₂ = k
      · subst he₂
        rw [Function.update_self] at hy'
        exact hnew k₁ h₁ he₁ y hy' hy
      · rw [Function.update_of_ne he₂] at hy'
        exact h.disjoint k₁ k₂ h₁ h₂ hne y hy hy'

variable (h : Holds m K L) (hk : K k)

include h hk

omit [DecidableEq ι] in
theorem setIndex {i : Option ι} (hi : ∀ y, i = some y → y ∈ (L k).items) :
    Holds (m.setIndex k (cursorNode k i)) K
      (Function.update L k ((L k).setIndex i)) :=
  h.update ((h.ring k hk).setIndex i) ((h.wellFormed k hk).setIndex hi)
    (fun k' hk' hne => (h.ring k' hk').setIndex_other hne _)
    fun k' hk' hne y hy => h.disjoint k k' hk hk' hne.symm y hy

theorem nextEntry : (m.nextEntry k).1 = cursorNode k (L k).advance.index ∧
    Holds (m.nextEntry k).2 K (Function.update L k (L k).advance) := by
  obtain ⟨hnode, hring⟩ := (h.ring k hk).nextEntry (h.wellFormed k hk)
  refine ⟨hnode, h.update hring (h.wellFormed k hk).advance
    (fun k' hk' hne => (h.ring k' hk').nextEntry_other hne)
    fun k' hk' hne y hy => h.disjoint k k' hk hk' hne.symm y hy⟩

theorem remove (hx : x ∈ (L k).items) :
    Holds (m.remove k x) K (Function.update L k ((L k).remove x)) :=
  h.update ((h.ring k hk).remove (h.wellFormed k hk) hx) ((h.wellFormed k hk).remove x)
    (fun k' hk' hne => (h.ring k' hk').remove_other hne (h.ring k hk)
      (h.wellFormed k hk) (h.disjoint k' k hk' hk hne) hx)
    fun k' hk' hne y hy => h.disjoint k k' hk hk' hne.symm y (List.mem_of_mem_erase hy)

variable (hx : ∀ k', K k' → x ∉ (L k').items)

include hx

theorem insertEnd :
    Holds (m.insertEnd k x) K (Function.update L k ((L k).insertEnd x)) := by
  refine h.update ((h.ring k hk).insertEnd (h.wellFormed k hk) (hx k hk))
    ((h.wellFormed k hk).insertEnd (hx k hk))
    (fun k' hk' hne => (h.ring k' hk').insertEnd_other hne (h.ring k hk)
      (h.wellFormed k hk) (h.disjoint k' k hk' hk hne) (hx k hk) (hx k' hk'))
    fun k' hk' hne y hy => ?_
  rcases List.mem_cons.mp ((CursorList.perm_insertEnd (L k) x).mem_iff.mp hy) with rfl | hy
  · exact hx k' hk'
  · exact h.disjoint k k' hk hk' hne.symm y hy

/-- Linking in behind a node of the ring. -/
theorem insertAfter {pre post : List ι} (hitems : (L k).items = pre ++ post)
    (hl : l.WellFormed) (hins : l.items = pre ++ x :: post)
    (hi : l.index = (L k).index) (hc : l.count = (L k).count + 1) :
    Holds (m.insertAfter k (lastNode (marker k) pre) x) K (Function.update L k l) := by
  refine h.update ((h.ring k hk).insertAfter hitems (hx k hk) hl hins hi hc) hl
    (fun k' hk' hne => (h.ring k' hk').insertAfter_other hne (h.ring k hk)
      (h.disjoint k' k hk' hk hne) hitems (hx k hk) (hx k' hk'))
    fun k' hk' hne y hy => ?_
  have hperm : l.items.Perm (x :: (L k).items) := by
    rw [hins, hitems]
    exact List.perm_middle
  rcases List.mem_cons.mp (hperm.mem_iff.mp hy) with rfl | hy
  · exact hx k' hk'
  · exact h.disjoint k k' hk hk' hne.symm y hy

theorem append : Holds (m.insertAfter k (m.prev (marker k)) x) K
    (Function.update L k ((L k).append x)) := by
  rw [(h.ring k hk).linked.prev_right]
  exact h.insertAfter hk hx (List.append_nil _).symm
    ((h.wellFormed k hk).append (hx k hk)) rfl rfl rfl

theorem insertSorted {value : RingNode κ ι → Nat}
    (hmark : value (item x) < value (marker k)) {n : Nat} (hn : (L k).items.length ≤ n) :
    Holds (m.insertAfter k (m.findPlace value (value (item x)) (n + 1) (marker k)) x) K
      (Function.update L k ((L k).insertSorted (fun y => value (item y)) x)) := by
  rw [(h.ring k hk).findPlace_start hmark hn]
  exact h.insertAfter hk hx (List.takeWhile_append_dropWhile ..).symm
    ((h.wellFormed k hk).insertSorted (hx k hk) _)
    (Ring.insertSorted_items value (L k) x) rfl rfl

end Holds

/-! ## Walking a ring -/

section Walk

variable {σ τ : Type*} (get : σ → RingMemory κ ι) (set : σ → RingMemory κ ι → σ)
  (k : κ)

def ringNext (s : σ) : RingNode κ ι × σ :=
  (((get s).nextEntry k).1, set s ((get s).nextEntry k).2)

/-- One round, up to the next entry. An end marker has no owner. -/
def ringVisit (body : ι → σ → σ) (node : RingNode κ ι) (s : σ) : σ :=
  match node with
  | item x => body x s
  | marker _ => s

def ringLoop (body : ι → σ → σ) : Nat → RingNode κ ι → σ → σ
  | 0, _, s => s
  | n + 1, node, s =>
      let next := ringNext get set k (ringVisit body node s)
      ringLoop body n next.1 next.2

/-- The nodes the rounds have in hand, first to last. -/
def ringLoopNodes (body : ι → σ → σ) : Nat → RingNode κ ι → σ → List (RingNode κ ι)
  | 0, _, _ => []
  | n + 1, node, s =>
      let next := ringNext get set k (ringVisit body node s)
      node :: ringLoopNodes body n next.1 next.2

/-- The first entry of a walk: cursor on the marker, one step. -/
def ringFirst (s : σ) : RingNode κ ι × σ :=
  ringNext get set k (set s ((get s).setIndex k (marker k)))

def ringWalk (body : ι → σ → σ) (s : σ) : σ :=
  let first := ringFirst get set k s
  ringLoop get set k body ((get first.2).count k) first.1 first.2

def ringNodes (body : ι → σ → σ) (s : σ) : List (RingNode κ ι) :=
  let first := ringFirst get set k s
  ringLoopNodes get set k body ((get first.2).count k) first.1 first.2

/-- A relation between a memory and a state that holds the sequence, under
which the cursor steps are the same. -/
structure WalkRefines (getT : τ → CursorList ι) (setT : τ → CursorList ι → τ)
    (R : σ → τ → Prop) : Prop where
  ring : ∀ s t, R s t → Ring (get s) k (getT t)
  wellFormed : ∀ s t, R s t → (getT t).WellFormed
  get_set : ∀ t l, getT (setT t l) = l
  reset : ∀ s t, R s t → R (set s ((get s).setIndex k (marker k)))
    (setT t ((getT t).setIndex none))
  advance : ∀ s t, R s t → R (ringNext get set k s).2 (setT t (getT t).advance)

variable {get set k}
variable {getT : τ → CursorList ι} {setT : τ → CursorList ι → τ} {R : σ → τ → Prop}
  {bodyS : ι → σ → σ} {bodyT : ι → τ → τ} {s : σ} {t : τ}

theorem WalkRefines.next (h : WalkRefines get set k getT setT R) (hR : R s t) :
    (ringNext get set k s).1 = cursorNode k (walkNext getT setT t).1 ∧
      R (ringNext get set k s).2 (walkNext getT setT t).2 :=
  ⟨((h.ring s t hR).nextEntry (h.wellFormed s t hR)).1, h.advance s t hR⟩

/-- The rounds after a visit, whatever it was. -/
theorem WalkRefines.rounds (h : WalkRefines get set k getT setT R) {n : Nat}
    (ih : ∀ {s t} {i : Option ι}, R s t → (∀ x, i = some x → x ∈ (getT t).items) →
      R (ringLoop get set k bodyS n (cursorNode k i) s) (walkLoop getT setT bodyT n i t))
    (hR : R s t) :
    R (ringLoop get set k bodyS n (ringNext get set k s).1 (ringNext get set k s).2)
      (walkLoop getT setT bodyT n (walkNext getT setT t).1 (walkNext getT setT t).2) := by
  obtain ⟨hnode, hnext⟩ := h.next hR
  rw [hnode]
  refine ih hnext fun x hx => ?_
  rw [walkNext, h.get_set]
  exact CursorList.advance_mem (l := getT t) hx

theorem WalkRefines.loop (h : WalkRefines get set k getT setT R)
    (hbody : ∀ x s t, R s t → x ∈ (getT t).items → R (bodyS x s) (bodyT x t))
    (n : Nat) {s : σ} {t : τ} {i : Option ι} (hR : R s t)
    (hi : ∀ x, i = some x → x ∈ (getT t).items) :
    R (ringLoop get set k bodyS n (cursorNode k i) s)
      (walkLoop getT setT bodyT n i t) := by
  induction n generalizing s t i with
  | zero => exact hR
  | succ n ih =>
      cases i with
      | none => exact h.rounds ih hR
      | some x => exact h.rounds ih (hbody x s t hR (hi x rfl))

/-- The first entry of the two walks. -/
theorem WalkRefines.first (h : WalkRefines get set k getT setT R) (hR : R s t) :
    (ringFirst get set k s).1 =
        cursorNode k (walkNext getT setT (setT t ((getT t).setIndex none))).1 ∧
      R (ringFirst get set k s).2
        (walkNext getT setT (setT t ((getT t).setIndex none))).2 :=
  h.next (h.reset s t hR)

theorem WalkRefines.walk (h : WalkRefines get set k getT setT R)
    (hbody : ∀ x s t, R s t → x ∈ (getT t).items → R (bodyS x s) (bodyT x t))
    (hR : R s t) :
    R (ringWalk get set k bodyS s) (FreeRtosSim.walk getT setT bodyT t) := by
  obtain ⟨hnode, hfirst⟩ := h.first hR
  have hcount := (h.ring _ _ hfirst).count
  rw [(h.wellFormed _ _ hfirst).counted] at hcount
  simp only [ringWalk, FreeRtosSim.walk]
  rw [hnode, hcount]
  refine h.loop hbody _ hfirst fun x hx => ?_
  rw [walkNext, h.get_set]
  exact CursorList.advance_mem (l := getT (setT t ((getT t).setIndex none))) hx

/-! ### The nodes a walk has in hand -/

/-- `pvOwner` of an item. -/
def owner : RingNode κ ι → Option ι
  | item x => some x
  | marker _ => none

omit [DecidableEq κ] [DecidableEq ι] in
/-- As many nodes as there are owners: none of them is a marker. -/
theorem eq_map_item {ns : List (RingNode κ ι)} {xs : List ι}
    (h : ns.filterMap owner = xs) (hlen : ns.length = xs.length) :
    ns = xs.map item := by
  induction ns generalizing xs with
  | nil =>
      rw [← h]
      rfl
  | cons n ns ih =>
      cases n with
      | item x =>
          have hown : owner (item x : RingNode κ ι) = some x := rfl
          rw [List.filterMap_cons_some hown] at h
          subst h
          rw [List.map_cons, ← ih rfl (Nat.succ.inj hlen)]
      | marker k =>
          have hown : owner (marker k : RingNode κ ι) = none := rfl
          rw [List.filterMap_cons_none hown] at h
          have hle := List.length_filterMap_le owner ns
          rw [h] at hle
          rw [List.length_cons] at hlen
          omega

theorem ringLoopNodes_length (body : ι → σ → σ) (n : Nat) (node : RingNode κ ι) (s : σ) :
    (ringLoopNodes get set k body n node s).length = n := by
  induction n generalizing node s with
  | zero => rfl
  | succ n ih => rw [ringLoopNodes, List.length_cons, ih]

/-- The rounds note the owners of the nodes. -/
theorem WalkRefines.loop_nodes (h : WalkRefines get set k getT setT R)
    (hbody : ∀ x s t, R s t → x ∈ (getT t).items → R (bodyS x s) (bodyT x t))
    (n : Nat) {s : σ} {t : τ} {i : Option ι} (acc : List ι) (hR : R s t)
    (hi : ∀ x, i = some x → x ∈ (getT t).items) :
    (walkLoop (fun p : τ × List ι => getT p.1) (fun p l => (setT p.1 l, p.2))
      (fun x p => (bodyT x p.1, p.2 ++ [x])) n i (t, acc)).2 =
      acc ++ (ringLoopNodes get set k bodyS n (cursorNode k i) s).filterMap owner := by
  induction n generalizing s t i acc with
  | zero => exact (List.append_nil acc).symm
  | succ n ih =>
      have hround : ∀ s t acc, R s t →
          (walkLoop (fun p : τ × List ι => getT p.1) (fun p l => (setT p.1 l, p.2))
            (fun x p => (bodyT x p.1, p.2 ++ [x])) n (walkNext getT setT t).1
            ((walkNext getT setT t).2, acc)).2 =
          acc ++ (ringLoopNodes get set k bodyS n (ringNext get set k s).1
            (ringNext get set k s).2).filterMap owner := by
        intro s t acc hR
        obtain ⟨hnode, hnext⟩ := h.next hR
        rw [hnode]
        refine ih acc hnext fun x hx => ?_
        rw [walkNext, h.get_set]
        exact CursorList.advance_mem (l := getT t) hx
      cases i with
      | none => exact hround s t acc hR
      | some x =>
          have hx := hround _ _ (acc ++ [x]) (hbody x s t hR (hi x rfl))
          rw [List.append_assoc] at hx
          exact hx

/-- A walk has every member in hand once, in order, and never a marker. -/
theorem WalkRefines.nodes (h : WalkRefines get set k getT setT R)
    (hbody : ∀ x s t, R s t → x ∈ (getT t).items → R (bodyS x s) (bodyT x t))
    (hR : R s t)
    (hlog : walkLog getT setT bodyT (fun x _ => [x]) t = (getT t).items) :
    ringNodes get set k bodyS s = (getT t).items.map item := by
  obtain ⟨hnode, hfirst⟩ := h.first hR
  have hcount := (h.ring _ _ hfirst).count
  rw [(h.wellFormed _ _ hfirst).counted] at hcount
  have hlen : (getT (walkNext getT setT (setT t ((getT t).setIndex none))).2).items =
      (getT t).items := by
    rw [walkNext, h.get_set, h.get_set]
    rfl
  refine eq_map_item ?_ ?_
  · have hnodes := h.loop_nodes hbody ((get (ringFirst get set k s).2).count k) []
      (i := (walkNext getT setT (setT t ((getT t).setIndex none))).1) hfirst fun x hx => by
        rw [walkNext, h.get_set]
        exact CursorList.advance_mem (l := getT (setT t ((getT t).setIndex none))) hx
    rw [List.nil_append, ← hnode, hcount] at hnodes
    rw [← hlog, walkLog, FreeRtosSim.walk]
    simp only [ringNodes]
    rw [hcount]
    exact hnodes.symm
  · rw [ringNodes, ringLoopNodes_length, hcount, hlen]

end Walk

end Operations

end RingMemory

end FreeRtosSim
