import Mathlib.Data.List.Nodup
import FreeRtosSim.Lib.CursorList

/-!
# Insertion behind equal keys

Inserting a batch of newcomers, one after the other, into a list sorted by a
natural key, each behind the members whose key is not larger. The outcome
depends on the keys only through how they compare, it commutes with an
injection of the members, and what it does to the members of one kind is what
it would do to them alone.
-/

namespace FreeRtosSim

variable {α β : Type*}

/-- `x` behind the members whose key is at most its own. -/
def insertByKey (key : α → Nat) (l : List α) (x : α) : List α :=
  l.orderedInsert (fun a b => key a < key b) x

/-- The newcomers `xs` one after the other. -/
def insertAllByKey (key : α → Nat) (l xs : List α) : List α :=
  xs.foldl (insertByKey key) l

/-- In order of the keys. -/
def SortedByKey (key : α → Nat) (l : List α) : Prop :=
  l.Pairwise fun a b => key a ≤ key b

@[simp] theorem insertAllByKey_nil (key : α → Nat) (l : List α) :
    insertAllByKey key l [] = l := rfl

@[simp] theorem insertAllByKey_cons (key : α → Nat) (l xs : List α) (x : α) :
    insertAllByKey key l (x :: xs) =
      insertAllByKey key (insertByKey key l x) xs := rfl

@[simp] theorem mem_insertByKey {key : α → Nat} {l : List α} {a x : α} :
    a ∈ insertByKey key l x ↔ a = x ∨ a ∈ l := List.mem_orderedInsert _

@[simp] theorem mem_insertAllByKey {key : α → Nat} {l xs : List α} {a : α} :
    a ∈ insertAllByKey key l xs ↔ a ∈ xs ∨ a ∈ l := by
  induction xs generalizing l with
  | nil => simp
  | cons x xs ih =>
      rw [insertAllByKey_cons, ih, mem_insertByKey, List.mem_cons]
      tauto

theorem perm_insertAllByKey (key : α → Nat) (l xs : List α) :
    (insertAllByKey key l xs).Perm (xs ++ l) := by
  induction xs generalizing l with
  | nil => exact List.Perm.refl _
  | cons x xs ih =>
      rw [insertAllByKey_cons, List.cons_append]
      exact (ih _).trans (((List.perm_orderedInsert _ x l).append_left xs).trans
        List.perm_middle)

/-- What was there keeps its order. -/
theorem sublist_insertAllByKey (key : α → Nat) (l xs : List α) :
    List.Sublist l (insertAllByKey key l xs) := by
  induction xs generalizing l with
  | nil => exact List.Sublist.refl _
  | cons x xs ih =>
      rw [insertAllByKey_cons]
      exact (List.sublist_orderedInsert x l).trans (ih _)

/-! ## Only the comparisons count -/

theorem insertByKey_congr {key key' : α → Nat} {l : List α} {x : α}
    (h : ∀ a ∈ l, key x < key a ↔ key' x < key' a) :
    insertByKey key l x = insertByKey key' l x := by
  induction l with
  | nil => rfl
  | cons a l ih =>
      have ih := ih fun b hb => h b (List.mem_cons_of_mem a hb)
      have ha := h a (by simp)
      simp only [insertByKey, List.orderedInsert_cons] at ih ⊢
      rw [ih]
      exact if_congr ha rfl rfl

theorem insertAllByKey_congr {key key' : α → Nat} {l xs : List α}
    (h : ∀ a ∈ xs ++ l, ∀ b ∈ xs ++ l, key a < key b ↔ key' a < key' b) :
    insertAllByKey key l xs = insertAllByKey key' l xs := by
  induction xs generalizing l with
  | nil => rfl
  | cons x xs ih =>
      rw [insertAllByKey_cons, insertAllByKey_cons,
        insertByKey_congr fun a ha => h x (by simp) a (by simp [ha])]
      refine ih fun a ha b hb => h a ?_ b ?_
      · rw [List.mem_append, mem_insertByKey] at ha
        simp only [List.cons_append, List.mem_cons, List.mem_append]
        tauto
      · rw [List.mem_append, mem_insertByKey] at hb
        simp only [List.cons_append, List.mem_cons, List.mem_append]
        tauto

/-! ## Order -/

namespace SortedByKey

variable {key key' : α → Nat} {l l' xs : List α} {x : α}

theorem sublist (h : SortedByKey key l) (hl : List.Sublist l' l) :
    SortedByKey key l' := List.Pairwise.sublist hl h

theorem congr (h : SortedByKey key l) (hk : ∀ a ∈ l, key' a = key a) :
    SortedByKey key' l := by
  refine List.Pairwise.imp_of_mem (fun ha hb hab => ?_) h
  rw [hk _ ha, hk _ hb]
  exact hab

theorem insertByKey (h : SortedByKey key l) :
    SortedByKey key (insertByKey key l x) := by
  induction l with
  | nil => exact List.pairwise_singleton _ _
  | cons a l ih =>
      obtain ⟨ha, hl⟩ := List.pairwise_cons.mp h
      rw [FreeRtosSim.insertByKey, List.orderedInsert_cons]
      split
      · next hlt =>
          refine List.pairwise_cons.mpr ⟨fun b hb => ?_, h⟩
          rcases List.mem_cons.mp hb with rfl | hb
          · exact Nat.le_of_lt hlt
          · exact Nat.le_trans (Nat.le_of_lt hlt) (ha b hb)
      · next hge =>
          refine List.pairwise_cons.mpr ⟨fun b hb => ?_, ih hl⟩
          rcases mem_insertByKey.mp hb with rfl | hb
          · exact Nat.not_lt.mp hge
          · exact ha b hb

theorem insertAllByKey (h : SortedByKey key l) :
    SortedByKey key (insertAllByKey key l xs) := by
  induction xs generalizing l with
  | nil => exact h
  | cons x xs ih => exact ih h.insertByKey

end SortedByKey

/-- Newcomers that line up after everything already there and in their own
order keep a list stable. -/
theorem CursorList.StableSorted.insertAllByKey {key : α → Nat}
    {b : α → α → Prop} {l xs : List α} (hl : CursorList.StableSorted key b l)
    (hb : xs.Pairwise b) (hlx : ∀ i ∈ l, ∀ x ∈ xs, b i x) :
    CursorList.StableSorted key b (insertAllByKey key l xs) := by
  induction xs generalizing l with
  | nil => exact hl
  | cons x xs ih =>
      obtain ⟨hx, hb⟩ := List.pairwise_cons.mp hb
      refine ih (hl.orderedInsert fun i hi => hlx i hi x (by simp)) hb
        fun i hi y hy => ?_
      rcases mem_insertByKey.mp hi with rfl | hi
      · exact hx y hy
      · exact hlx i hi y (List.mem_cons_of_mem x hy)

/-- The keys and the order among equal keys leave no choice. -/
theorem CursorList.StableSorted.unique {key : α → Nat} {b : α → α → Prop}
    {l l' : List α} (h : CursorList.StableSorted key b l)
    (h' : CursorList.StableSorted key b l') (hb : ∀ i j, b i j → ¬ b j i)
    (hp : l.Perm l') : l = l' := by
  refine hp.eq_of_pairwise (fun i j _ _ hij hji => ?_) h h'
  have heq : key i = key j := Nat.le_antisymm hij.1 hji.1
  exact absurd (hji.2 heq.symm) (hb i j (hij.2 heq))

/-! ## The members of one kind -/

theorem filter_insertByKey {key : α → Nat} {l : List α} {x : α}
    (p : α → Bool) (hl : SortedByKey key l) :
    (insertByKey key l x).filter p =
      if p x = true then insertByKey key (l.filter p) x else l.filter p := by
  induction l with
  | nil =>
      show [x].filter p = _
      cases hx : p x with
      | true => simp [hx, insertByKey]
      | false => simp [hx]
  | cons a l ih =>
      obtain ⟨ha, hl⟩ := List.pairwise_cons.mp hl
      have ih := ih hl
      simp only [insertByKey, List.orderedInsert_cons] at ih ⊢
      by_cases hlt : key x < key a
      · -- everything kept from here on comes after `x` as well
        have hall : ∀ b ∈ (a :: l).filter p, key x < key b := by
          intro b hb
          rcases List.mem_cons.mp (List.mem_filter.mp hb).1 with rfl | hb
          · exact hlt
          · exact Nat.lt_of_lt_of_le hlt (ha b hb)
        rw [if_pos hlt, List.filter_cons]
        refine if_congr Iff.rfl ?_ rfl
        cases hf : (a :: l).filter p with
        | nil => rfl
        | cons b m =>
            rw [List.orderedInsert_cons, if_pos (hall b (by simp [hf]))]
      · rw [if_neg hlt]
        cases hpa : p a with
        | true =>
            rw [List.filter_cons_of_pos hpa, List.filter_cons_of_pos hpa, ih]
            split
            · rw [List.orderedInsert_cons, if_neg hlt]
            · rfl
        | false =>
            rw [List.filter_cons_of_neg (by simp [hpa]),
              List.filter_cons_of_neg (by simp [hpa]), ih]

theorem filter_insertAllByKey {key : α → Nat} {l xs : List α}
    (p : α → Bool) (hl : SortedByKey key l) :
    (insertAllByKey key l xs).filter p =
      insertAllByKey key (l.filter p) (xs.filter p) := by
  induction xs generalizing l with
  | nil => rfl
  | cons x xs ih =>
      rw [insertAllByKey_cons, ih hl.insertByKey, filter_insertByKey p hl,
        List.filter_cons]
      split <;> rfl

/-! ## Renaming the members -/

theorem map_insertByKey {f : α → β} {key : α → Nat} {key' : β → Nat}
    {l : List α} {x : α} (h : ∀ a ∈ x :: l, key' (f a) = key a) :
    insertByKey key' (l.map f) (f x) = (insertByKey key l x).map f := by
  refine (List.map_orderedInsert _ _ f l x (fun a ha => ?_) fun a ha => ?_).symm
  · rw [h x (by simp), h a (List.mem_cons_of_mem x ha)]
  · rw [h x (by simp), h a (List.mem_cons_of_mem x ha)]

theorem map_insertAllByKey {f : α → β} {key : α → Nat} {key' : β → Nat}
    {l xs : List α} (h : ∀ a ∈ xs ++ l, key' (f a) = key a) :
    insertAllByKey key' (l.map f) (xs.map f) =
      (insertAllByKey key l xs).map f := by
  induction xs generalizing l with
  | nil => rfl
  | cons x xs ih =>
      rw [List.map_cons, insertAllByKey_cons, insertAllByKey_cons,
        map_insertByKey fun a ha => h a ?_, ih fun a ha => h a ?_]
      · rw [List.mem_append, mem_insertByKey] at ha
        simp only [List.cons_append, List.mem_cons, List.mem_append]
        tauto
      · simp only [List.cons_append, List.mem_cons, List.mem_append] at ha ⊢
        tauto

/-! ## What is left of a list -/

/-- A list that lost members is the old one filtered. -/
theorem eq_filter_of_sublist {l l' : List α} {p : α → Bool} (hl : l.Nodup)
    (h : List.Sublist l' l) (hmem : ∀ a ∈ l, a ∈ l' ↔ p a = true) :
    l' = l.filter p := by
  induction h with
  | slnil => rfl
  | @cons l₁ l₂ a h ih =>
      obtain ⟨ha, hl⟩ := List.nodup_cons.mp hl
      have hpa : ¬ p a = true := fun hp =>
        ha (h.subset ((hmem a (by simp)).mpr hp))
      rw [List.filter_cons, if_neg hpa]
      exact ih hl fun b hb => hmem b (List.mem_cons_of_mem a hb)
  | @cons_cons l₁ l₂ a h ih =>
      obtain ⟨ha, hl⟩ := List.nodup_cons.mp hl
      rw [List.filter_cons, if_pos ((hmem a (by simp)).mp (by simp))]
      congr 1
      refine ih hl fun b hb => ?_
      have hne : b ≠ a := fun he => ha (he ▸ hb)
      rw [← hmem b (List.mem_cons_of_mem a hb), List.mem_cons, or_iff_right hne]

end FreeRtosSim
