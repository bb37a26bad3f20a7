import FreeRtosSim.Lib.CursorList

/-!
# Going round a ring

The other way to enumerate a ring list: step the cursor once, remember the
member it lands on, and then visit one member after the other until that one
comes round again. Wherever the cursor stood, every member is visited exactly
once and the cursor ends where the first step had put it; a search that leaves
the round at the first hit finds what is there to find.

The round is a loop without a bound, here with fuel: `circuit_round` holds of
every fuel from the length of the ring on.
-/

namespace FreeRtosSim

namespace CursorList

variable {α : Type*} [DecidableEq α]

/-- Visit the members behind the cursor until `stop` or until `first` has been
visited. -/
def circuit (stop : α → Bool) (first : α) :
    Nat → CursorList α → List α × CursorList α
  | 0, l => ([], l)
  | n + 1, l =>
      let l := l.advance
      match l.index with
      | none => ([], l)
      | some x =>
          if stop x ∨ x = first then ([x], l)
          else
            let r := circuit stop first n l
            (x :: r.1, r.2)

/-- The round, beginning with the step that fixes its end. -/
def goRound (stop : α → Bool) (l : CursorList α) : List α × CursorList α :=
  let l := l.advance
  match l.index with
  | none => ([], l)
  | some first => circuit stop first l.items.length l

variable {stop : α → Bool} {first : α} {l : CursorList α}

/-! ## The ring during a round -/

/-- A round only steps the cursor. -/
theorem circuit_steps (n : Nat) :
    ∃ k, (circuit stop first n l).2 = advance^[k] l := by
  induction n generalizing l with
  | zero => exact ⟨0, rfl⟩
  | succ n ih =>
      rw [circuit]
      cases hidx : l.advance.index with
      | none => exact ⟨1, rfl⟩
      | some x =>
          dsimp only
          split
          · exact ⟨1, rfl⟩
          · obtain ⟨k, hk⟩ := @ih l.advance
            exact ⟨k + 1, hk⟩

theorem goRound_steps : ∃ k, (goRound stop l).2 = advance^[k] l := by
  rw [goRound]
  cases hidx : l.advance.index with
  | none => exact ⟨1, rfl⟩
  | some first =>
      obtain ⟨k, hk⟩ := @circuit_steps α _ stop first l.advance l.items.length
      exact ⟨k + 1, hk⟩

/-! ## What a round visits -/

/-- Leaving early hides no hit. -/
theorem circuit_find (n : Nat) :
    (circuit stop first n l).1.find? stop =
      (circuit (fun _ => false) first n l).1.find? stop := by
  induction n generalizing l with
  | zero => rfl
  | succ n ih =>
      rw [circuit, circuit]
      cases hidx : l.advance.index with
      | none => rfl
      | some x =>
          simp only [Bool.false_eq_true, false_or]
          by_cases hstop : stop x = true
          · rw [if_pos (Or.inl hstop)]
            split <;> simp [hstop]
          · by_cases hx : x = first
            · rw [if_pos (Or.inr hx), if_pos hx]
            · rw [if_neg (by simp [hstop, hx]), if_neg hx]
              simp [hstop, ih]

/-- From `y` over the members of `b`, none of which ends the round. -/
theorem circuit_forward {a b c : List α} {y : α} {n k : Nat}
    (hnd : (a ++ y :: (b ++ c)).Nodup) (hb : first ∉ b) :
    circuit (fun _ => false) first (b.length + n) ⟨a ++ y :: (b ++ c), some y, k⟩ =
      let r := circuit (fun _ => false) first n
        ⟨a ++ y :: (b ++ c), (y :: b).getLast?, k⟩
      (b ++ r.1, r.2) := by
  induction b generalizing a y with
  | nil => simp
  | cons z b ih =>
      have hy : y ∉ a := fun h => List.disjoint_of_nodup_append hnd h (by simp)
      have hz : z ≠ first := fun he => hb (he ▸ List.mem_cons_self ..)
      have hnext : a ++ y :: (z :: b ++ c) = a ++ [y] ++ z :: (b ++ c) := by simp
      rw [List.length_cons, Nat.add_right_comm, circuit, advance_keep hy]
      simp only [List.cons_append, List.head?_cons, Option.some_or,
        Bool.false_eq_true, false_or, if_neg hz]
      rw [hnext] at hnd
      have hrest := ih hnd fun h => hb (List.mem_cons_of_mem z h)
      simp only [List.append_assoc, List.singleton_append] at hrest
      rw [hrest]
      simp

/-- From the last of some neighbours the cursor goes on to what follows them,
or back to the front. -/
theorem advance_last {a b c : List α} {y : α} {k : Nat}
    (hnd : (a ++ y :: (b ++ c)).Nodup) :
    (CursorList.mk (a ++ y :: (b ++ c)) (y :: b).getLast? k).advance =
      ⟨a ++ y :: (b ++ c), c.head?.or (a ++ y :: (b ++ c)).head?, k⟩ := by
  obtain ⟨init, z, hz⟩ : ∃ init z, y :: b = init ++ [z] :=
    ⟨_, _, (List.dropLast_append_getLast (List.cons_ne_nil y b)).symm⟩
  have hitems : a ++ y :: (b ++ c) = (a ++ init) ++ z :: c := by
    rw [← List.cons_append, hz]
    simp
  have hmem : z ∉ a ++ init := by
    intro h
    rw [hitems] at hnd
    exact List.disjoint_of_nodup_append hnd h (by simp)
  rw [hz, List.getLast?_concat, hitems, advance_keep hmem]

/-- A whole round: the members behind `first`, those before it, and last
`first` itself. -/
theorem circuit_round {pre post : List α} {n k : Nat}
    (hnd : (pre ++ first :: post).Nodup)
    (hn : (pre ++ first :: post).length ≤ n) :
    circuit (fun _ => false) first n ⟨pre ++ first :: post, some first, k⟩ =
      (post ++ pre ++ [first], ⟨pre ++ first :: post, some first, k⟩) := by
  have hpre : first ∉ pre := fun h => List.disjoint_of_nodup_append hnd h (by simp)
  have hpost : first ∉ post :=
    (List.nodup_cons.mp (List.Nodup.of_append_right hnd)).1
  rw [List.length_append, List.length_cons] at hn
  obtain ⟨m, rfl⟩ : ∃ m, n = post.length + (pre.length + 1 + m) :=
    ⟨n - (post.length + (pre.length + 1)), by omega⟩
  have hbehind := @circuit_forward α _ first pre post [] first (pre.length + 1 + m) k
    (by simpa using hnd) hpost
  have hwrap := @advance_last α _ pre post [] first k (by simpa using hnd)
  rw [List.append_nil] at hbehind hwrap
  rw [hbehind]
  cases pre with
  | nil =>
      have hm : ([] : List α).length + 1 + m = m + 1 := by simp [Nat.add_comm]
      rw [hm, circuit, hwrap]
      simp
  | cons p pre =>
      have hp : p ≠ first := fun he => hpre (he ▸ List.mem_cons_self ..)
      have hbefore := @circuit_forward α _ first [] pre (first :: post) p (m + 1) k
        (by simpa using hnd) fun h => hpre (List.mem_cons_of_mem p h)
      have hlast := @advance_last α _ [] pre (first :: post) p k (by simpa using hnd)
      have hm : (p :: pre).length + 1 + m = pre.length + (m + 1) + 1 := by
        rw [List.length_cons]
        omega
      simp only [List.nil_append, List.head?_cons, Option.some_or] at hbefore hlast
      rw [hm, circuit, hwrap]
      simp only [List.head?_nil, Option.none_or, List.cons_append, List.head?_cons,
        Bool.false_eq_true, false_or, if_neg hp]
      rw [hbefore, circuit, hlast]
      simp

/-- Every member is visited once. -/
theorem goRound_perm (h : l.WellFormed) :
    (goRound (fun _ => false) l).1.Perm l.items := by
  rw [goRound]
  cases hidx : l.advance.index with
  | none =>
      have hempty : l.items = [] := by
        rw [advance] at hidx
        cases hcur : l.index <;> simp_all
      rw [hempty]
  | some first =>
      obtain ⟨pre, post, hitems⟩ := List.append_of_mem (h.advance.cursor first hidx)
      rw [items_advance] at hitems
      have hnd := h.nodup
      have hl : l.advance = ⟨pre ++ first :: post, some first, l.count⟩ := by
        rw [← hitems, ← hidx]
        rfl
      rw [hitems] at hnd ⊢
      dsimp only
      rw [hl, circuit_round hnd (Nat.le_refl _)]
      exact (List.perm_append_singleton first _).trans
        ((List.perm_append_comm.cons first).trans List.perm_middle.symm)

theorem goRound_find :
    (goRound stop l).1.find? stop = (goRound (fun _ => false) l).1.find? stop := by
  rw [goRound, goRound]
  cases hidx : l.advance.index with
  | none => rfl
  | some first => exact circuit_find l.items.length

end CursorList

end FreeRtosSim
