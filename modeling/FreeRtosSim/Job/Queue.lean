import FreeRtosSim.Lib.KeyInsert
import FreeRtosSim.Job.Invariant

/-!
# Task machines sharing a processor

What decides which task is charged: the ready tasks stand in a line ordered
by a key, the head of the line has the processor, and a task that is released
goes behind those whose key is not larger. The waiting tasks stand in a
second line, the latest to arrive in front, and are looked at in its order
when a period starts, so that line decides among tasks released together
under one key.

The key is a parameter. The machine is the same for two orders of keys that
compare alike, and of the tasks whose keys are always the smaller ones it
makes the machine of these tasks alone.
-/

namespace FreeRtosSim

/-- The two lines of tasks and the tasks' jobs. -/
structure Queue where
  ready : List Nat
  wait : List Nat
  job : Nat → Job

namespace Queue

section Machine

variable (alg : Algorithm) (p : Nat → JobParams) (key : Nat → Job → Nat)

/-- The `n` tasks right after they were created, one after the other. -/
def initial (n : Nat) : Queue where
  ready := insertAllByKey (fun i => key i (Job.initial alg (p i))) []
    ((List.range n).filter fun i => (Job.initial alg (p i)).ready)
  wait := (List.range n).filter fun i => !(Job.initial alg (p i)).ready
  job := fun i => Job.initial alg (p i)

/-- Task `i` is the one to be charged. -/
def runs (q : Queue) (i : Nat) : Bool := q.ready.head? = some i

def accounted (q : Queue) (i : Nat) : Job := (q.job i).account (p i) (q.runs i)

def culled (t : Nat) (q : Queue) (i : Nat) : Job := (q.accounted p i).cull (p i) t

def woken (t : Nat) (q : Queue) (i : Nat) : Job := (q.culled p t i).wake alg (p i) t

/-- The waiting line a release looks at: the tasks whose job has just ended
are in front. -/
def waiting (t : Nat) (q : Queue) : List Nat :=
  q.ready.filter (fun i => !(q.culled p t i).ready) ++ q.wait

def tick (t : Nat) (q : Queue) : Queue where
  ready := insertAllByKey (fun i => key i (q.woken alg p t i))
    (q.ready.filter fun i => (q.culled p t i).ready)
    ((q.waiting p t).filter fun i => (q.woken alg p t i).ready)
  wait := (q.waiting p t).filter fun i => !(q.woken alg p t i).ready
  job := q.woken alg p t

end Machine

/-- The key of a job depends on its start and the task's counter only. -/
def KeyOf (key : Nat → Job → Nat) : Prop :=
  ∀ i j j', j'.start = j.start → j'.met = j.met → key i j' = key i j

/-- In order of the keys of the jobs. -/
def Sorted (key : Nat → Job → Nat) (q : Queue) : Prop :=
  SortedByKey (fun i => key i (q.job i)) q.ready

/-- All tasks are below `n`. -/
def Below (n : Nat) (q : Queue) : Prop := ∀ i ∈ q.ready ++ q.wait, i < n

variable {alg alg' : Algorithm} {p p' : Nat → JobParams}
  {key key' : Nat → Job → Nat} {n t : Nat} {q q' : Queue} {i : Nat}

theorem initial_below : (initial alg p key n).Below n := by
  intro i hi
  simp only [initial, List.mem_append, mem_insertAllByKey, List.mem_filter,
    List.mem_range, List.not_mem_nil, or_false] at hi
  rcases hi with hi | hi
  · exact hi.1
  · exact hi.1

theorem mem_waiting : i ∈ q.waiting p t ↔
    i ∈ q.ready ∧ (q.culled p t i).ready = false ∨ i ∈ q.wait := by
  rw [waiting, List.mem_append, List.mem_filter, Bool.not_eq_true']

theorem Below.waiting (h : q.Below n) (hi : i ∈ q.waiting p t) : i < n := by
  rcases mem_waiting.mp hi with hi | hi
  · exact h i (List.mem_append_left _ hi.1)
  · exact h i (List.mem_append_right _ hi)

theorem Below.tick (h : q.Below n) : (q.tick alg p key t).Below n := by
  intro i hi
  simp only [Queue.tick, List.mem_append, mem_insertAllByKey,
    List.mem_filter] at hi
  rcases hi with (hi | hi) | hi
  · exact h.waiting hi.1
  · exact h i (List.mem_append_left _ hi.1)
  · exact h.waiting hi.1

/-- A task that is ready after the cull keeps its job and its key. -/
theorem culled_same (hkey : KeyOf key) (hr : (q.culled p t i).ready = true) :
    q.woken alg p t i = q.culled p t i ∧
      key i (q.woken alg p t i) = key i (q.job i) := by
  have hwoken : q.woken alg p t i = q.culled p t i := by
    rw [woken, Job.wake, if_neg]
    rw [hr]
    exact fun hc => Bool.noConfusion hc.1
  have hacc : q.culled p t i = q.accounted p i := Job.cull_same hr
  refine ⟨hwoken, ?_⟩
  rw [hwoken, hacc]
  rw [hacc] at hr
  obtain ⟨hstart, hmet⟩ := Job.account_same hr
  exact hkey i _ _ hstart hmet

theorem Sorted.culled (hkey : KeyOf key) (h : q.Sorted key) :
    SortedByKey (fun i => key i (q.woken alg p t i))
      (q.ready.filter fun i => (q.culled p t i).ready) := by
  refine (h.sublist List.filter_sublist).congr fun i hi => ?_
  exact (culled_same hkey (List.mem_filter.mp hi).2).2

theorem Sorted.tick (hkey : KeyOf key) (h : q.Sorted key) :
    (q.tick alg p key t).Sorted key :=
  (h.culled hkey).insertAllByKey

theorem initial_sorted : (initial alg p key n).Sorted key :=
  SortedByKey.insertAllByKey List.Pairwise.nil

end Queue

/-! ## Along a run -/

section Run

variable (alg : Algorithm) (p : Nat → JobParams) (key : Nat → Job → Nat)
  (n : Nat)

/-- The two lines at the end of tick `t`. -/
def queueAt : Nat → Queue
  | 0 => Queue.initial alg p key n
  | t + 1 => (queueAt t).tick alg p key (t + 1)

theorem queueAt_below (t : Nat) : (queueAt alg p key n t).Below n := by
  induction t with
  | zero => exact Queue.initial_below
  | succ t ih => exact ih.tick

theorem queueAt_sorted (hkey : Queue.KeyOf key) (t : Nat) :
    (queueAt alg p key n t).Sorted key := by
  induction t with
  | zero => exact Queue.initial_sorted
  | succ t ih => exact ih.tick hkey

/-- Each task of the line is the task machine, charged at the head. -/
theorem queueAt_job (t i : Nat) : (queueAt alg p key n t).job i =
    jobAt alg (p i) (fun u => (queueAt alg p key n u).runs i) t := by
  induction t with
  | zero => rfl
  | succ t ih =>
      have hnext : (queueAt alg p key n (t + 1)).job i =
          ((queueAt alg p key n t).job i).tick alg (p i) (t + 1)
            ((queueAt alg p key n t).runs i) := rfl
      rw [hnext, ih]
      rfl

theorem queueAt_start (t i : Nat) : ((queueAt alg p key n t).job i).start =
    t / (p i).period * (p i).period := by
  rw [queueAt_job]
  exact (fits_jobAt alg (p i) _ t).start_eq

end Run

/-! ## Keys that compare alike -/

section Alike

variable {alg alg' : Algorithm} {p : Nat → JobParams}
  {key key' : Nat → Job → Nat} {n t B : Nat}

/-- Without skips the algorithms start jobs alike. -/
theorem Job.release_hard {p : JobParams} {j : Job} (hs : p.skip = 0) :
    j.release alg p t = j.release alg' p t := by
  have hred : j.red p := Or.inl hs
  rw [release, release, if_neg fun hc => hc.2 hred, if_neg fun hc => hc.2 hred]

theorem Job.wake_hard {p : JobParams} {j : Job} (hs : p.skip = 0) :
    j.wake alg p t = j.wake alg' p t := by
  rw [wake, wake, release_hard hs]

/-- Hard tasks stand in the same lines under any two algorithms whose keys
compare alike as long as deadlines are at most `B`. -/
theorem queueAt_hard (hhard : ∀ i, (p i).skip = 0)
    (hlike : ∀ i < n, ∀ j < n, ∀ a b : Job, a.start + (p i).period ≤ B →
      b.start + (p j).period ≤ B → (key i a < key j b ↔ key' i a < key' j b))
    (hB : ∀ u ≤ t, ∀ i < n, u / (p i).period * (p i).period + (p i).period ≤ B) :
    queueAt alg p key n t = queueAt alg' p key' n t := by
  induction t with
  | zero =>
      have hinit : ∀ i, Job.initial alg (p i) = Job.initial alg' (p i) :=
        fun i => Job.release_hard (hhard i)
      have hstart : ∀ i, (Job.initial alg' (p i)).start = 0 := fun i =>
        (Job.release_remaining alg' (p i) 0 Job.blank).2
      simp only [queueAt, Queue.initial, hinit]
      congr 1
      refine insertAllByKey_congr fun a ha b hb => ?_
      simp only [List.append_nil, List.mem_filter, List.mem_range] at ha hb
      have hBa := hB 0 (Nat.le_refl 0) a ha.1
      have hBb := hB 0 (Nat.le_refl 0) b hb.1
      rw [Nat.zero_div, Nat.zero_mul] at hBa hBb
      refine hlike a ha.1 b hb.1 _ _ ?_ ?_
      · rw [hstart]
        exact hBa
      · rw [hstart]
        exact hBb
  | succ t ih =>
      have ih := ih fun u hu => hB u (Nat.le_succ_of_le hu)
      have hbelow := queueAt_below alg' p key' n t
      have hstart := queueAt_start alg' p key' n (t + 1)
      rw [queueAt] at hstart ⊢
      rw [queueAt, ih]
      generalize queueAt alg' p key' n t = q at *
      have hwoken : q.woken alg p (t + 1) = q.woken alg' p (t + 1) :=
        funext fun i => Job.wake_hard (hhard i)
      simp only [Queue.tick, hwoken]
      congr 1
      have hlt : ∀ a ∈ (q.waiting p (t + 1)).filter (fun i =>
            (q.woken alg' p (t + 1) i).ready) ++
          q.ready.filter (fun i => (q.culled p (t + 1) i).ready), a < n := by
        intro a ha
        rcases List.mem_append.mp ha with ha | ha
        · exact hbelow.waiting (List.mem_filter.mp ha).1
        · exact hbelow a (List.mem_append_left _ (List.mem_filter.mp ha).1)
      have hdue : ∀ a < n, (q.woken alg' p (t + 1) a).start + (p a).period ≤ B := by
        intro a ha
        have hs : (q.woken alg' p (t + 1) a).start =
          (t + 1) / (p a).period * (p a).period := hstart a
        rw [hs]
        exact hB (t + 1) (Nat.le_refl _) a ha
      refine insertAllByKey_congr fun a ha b hb => ?_
      exact hlike a (hlt a ha) b (hlt b hb) _ _ (hdue a (hlt a ha))
        (hdue b (hlt b hb))

end Alike

/-! ## Tasks that go before the others -/

/-- The tasks `f 0`, `f 1`, … of `q'` are those of `q`, in the same lines and
with the same jobs; `old` tells them from the others. -/
structure Queue.Extends (n : Nat) (f : Nat → Nat) (old : Nat → Bool)
    (q q' : Queue) : Prop where
  ready : q'.ready.filter old = q.ready.map f
  wait : q'.wait.filter old = q.wait.map f
  job : ∀ i < n, q'.job (f i) = q.job i

/-- An injection of `n` tasks into `n'` that keeps their order and their
parameters, and the tasks it reaches. -/
structure Embeds (n n' : Nat) (f : Nat → Nat) (old : Nat → Bool)
    (p p' : Nat → JobParams) : Prop where
  mono : ∀ i j, i < j → j < n → f i < f j
  below : ∀ i < n, f i < n'
  params : ∀ i < n, p' (f i) = p i
  old_iff : ∀ j, old j = true ↔ ∃ i < n, f i = j

section Embedded

variable {alg : Algorithm} {p p' : Nat → JobParams}
  {key key' : Nat → Job → Nat} {n n' t : Nat} {f : Nat → Nat}
  {old : Nat → Bool} {q q' : Queue}

theorem Embeds.old_image (h : Embeds n n' f old p p') {i : Nat} (hi : i < n) :
    old (f i) = true := (h.old_iff _).mpr ⟨i, hi, rfl⟩

theorem Embeds.inj (h : Embeds n n' f old p p') {i j : Nat} (hi : i < n)
    (hj : j < n) (he : f i = f j) : i = j := by
  rcases Nat.lt_trichotomy i j with hlt | heq | hlt
  · have := h.mono i j hlt hj
    omega
  · exact heq
  · have := h.mono j i hlt hi
    omega

theorem Embeds.range (h : Embeds n n' f old p p') :
    (List.range n').filter old = (List.range n).map f := by
  have hmap : ((List.range n).map f).Pairwise (· < ·) := by
    rw [List.pairwise_map]
    refine List.Pairwise.imp_of_mem (fun {i j} _ hj hij => ?_)
      List.pairwise_lt_range
    exact h.mono i j hij (List.mem_range.mp hj)
  have hfil : ((List.range n').filter old).Pairwise (· < ·) :=
    List.pairwise_lt_range.sublist List.filter_sublist
  have hmem : ∀ a, a ∈ (List.range n').filter old ↔ a ∈ (List.range n).map f := by
    intro a
    rw [List.mem_filter, List.mem_range, h.old_iff, List.mem_map]
    constructor
    · rintro ⟨-, i, hi, rfl⟩
      exact ⟨i, List.mem_range.mpr hi, rfl⟩
    · rintro ⟨i, hi, rfl⟩
      have hi := List.mem_range.mp hi
      exact ⟨h.below i hi, i, hi, rfl⟩
  have hperm := (List.perm_ext_iff_of_nodup
    (hfil.imp fun hab => Nat.ne_of_lt hab)
    (hmap.imp fun hab => Nat.ne_of_lt hab)).mpr hmem
  exact hperm.eq_of_pairwise (fun a b _ _ hab hba => absurd hab (Nat.lt_asymm hba))
    hfil hmap

/-- The new tasks stand behind the old ones. -/
def OldFirst (key : Nat → Job → Nat) (old : Nat → Bool) (q : Queue) : Prop :=
  ∀ a ∈ q.ready, ∀ b ∈ q.ready, old a = true → old b = false →
    key a (q.job a) < key b (q.job b)

/-- The old tasks of a line that were selected alike. -/
theorem map_filter_old {l l' : List Nat} {c c' : Nat → Bool}
    (h : l'.filter old = l.map f) (hc : ∀ i ∈ l, c' (f i) = c i) :
    (l'.filter c').filter old = (l.filter c).map f := by
  have hswap : (l'.filter c').filter old = (l'.filter old).filter c' := by
    rw [List.filter_filter, List.filter_filter]
    exact List.filter_congr fun a _ => Bool.and_comm _ _
  rw [hswap, h, List.filter_map]
  congr 1
  exact List.filter_congr fun i hi => hc i hi

namespace Queue.Extends

/-- An old task is at the head of one line when it is at the head of the
other. -/
theorem runs (he : Embeds n n' f old p p') (h : Extends n f old q q')
    (hbelow : q.Below n) (hs : q'.Sorted key') (hfirst : OldFirst key' old q')
    {i : Nat} (hi : i < n) : q'.runs (f i) = q.runs i := by
  have hready := h.ready
  have hqi : ∀ a ∈ q.ready, a < n := fun a ha =>
    hbelow a (List.mem_append_left _ ha)
  rw [Queue.runs, Queue.runs]
  cases hq' : q'.ready with
  | nil =>
      rw [hq'] at hready
      rw [List.map_eq_nil_iff.mp hready.symm]
      simp
  | cons b l =>
      rw [Queue.Sorted, hq'] at hs
      obtain ⟨hb, -⟩ := List.pairwise_cons.mp hs
      rw [hq'] at hready
      cases hob : old b with
      | true =>
          rw [List.filter_cons_of_pos hob] at hready
          cases hq : q.ready with
          | nil =>
              rw [hq] at hready
              exact absurd hready (List.cons_ne_nil _ _)
          | cons a m =>
              rw [hq, List.map_cons] at hready
              have hhead : b = f a := (List.cons.inj hready).1
              have ha : a < n := hqi a (by simp [hq])
              simp only [List.head?_cons, Option.some_inj, hhead]
              exact decide_eq_decide.mpr
                ⟨fun hc => he.inj ha hi hc, fun hc => congrArg f hc⟩
      | false =>
          -- a new task at the head means that no old one is ready
          have hnone : ∀ a ∈ q'.ready, old a = false := by
            intro a ha
            by_contra hoa
            have hoa : old a = true := by simpa using hoa
            have hlt := hfirst a ha b (by simp [hq']) hoa hob
            rw [hq', List.mem_cons] at ha
            rcases ha with rfl | ha
            · exact Nat.lt_irrefl _ hlt
            · exact absurd (hb a ha) (Nat.not_le.mpr hlt)
          have hnil : q.ready = [] := by
            refine List.map_eq_nil_iff.mp (hready.symm.trans ?_)
            rw [← hq', List.filter_eq_nil_iff]
            intro a ha
            rw [hnone a ha]
            exact Bool.false_ne_true
          have hne : b ≠ f i := by
            rintro rfl
            rw [he.old_image hi] at hob
            exact Bool.noConfusion hob
          rw [hnil]
          simpa using hne

section Step

variable (he : Embeds n n' f old p p') (h : Extends n f old q q')
  (hbelow : q.Below n) (hs : q'.Sorted key') (hfirst : OldFirst key' old q')

include he h hbelow hs hfirst

theorem culled (t : Nat) {i : Nat} (hi : i < n) :
    q'.culled p' t (f i) = q.culled p t i := by
  rw [Queue.culled, Queue.culled, Queue.accounted, Queue.accounted,
    h.runs he hbelow hs hfirst hi, h.job i hi, he.params i hi]

theorem woken (t : Nat) {i : Nat} (hi : i < n) :
    q'.woken alg p' t (f i) = q.woken alg p t i := by
  rw [Queue.woken, Queue.woken, h.culled he hbelow hs hfirst t hi,
    he.params i hi]

theorem waiting (t : Nat) :
    (q'.waiting p' t).filter old = (q.waiting p t).map f := by
  rw [Queue.waiting, Queue.waiting, List.filter_append, List.map_append, h.wait]
  congr 1
  refine map_filter_old h.ready fun i hi => ?_
  rw [h.culled he hbelow hs hfirst t (hbelow i (List.mem_append_left _ hi))]

theorem tick (hkey : Queue.KeyOf key') (hk : ∀ i < n, ∀ j, key' (f i) j = key i j)
    (t : Nat) : Extends n f old (q.tick alg p key t) (q'.tick alg p' key' t) := by
  have hwait := h.waiting he hbelow hs hfirst t
  have hwoken : ∀ i ∈ q.waiting p t,
      q'.woken alg p' t (f i) = q.woken alg p t i := fun i hi =>
    h.woken he hbelow hs hfirst t (hbelow.waiting hi)
  refine ⟨?_, ?_, fun i hi => h.woken he hbelow hs hfirst t hi⟩
  · show (insertAllByKey _ _ _).filter old = (insertAllByKey _ _ _).map f
    rw [filter_insertAllByKey old (hs.culled hkey),
      map_filter_old h.ready (c := fun i => (q.culled p t i).ready) fun i hi => ?_,
      map_filter_old hwait (c := fun i => (q.woken alg p t i).ready) fun i hi => ?_]
    · refine map_insertAllByKey fun i hi => ?_
      have hin : i < n := by
        rcases List.mem_append.mp hi with hi | hi
        · exact hbelow.waiting (List.mem_filter.mp hi).1
        · exact hbelow i (List.mem_append_left _ (List.mem_filter.mp hi).1)
      show key' (f i) (q'.woken alg p' t (f i)) = key i (q.woken alg p t i)
      rw [h.woken he hbelow hs hfirst t hin, hk i hin]
    · rw [hwoken i hi]
    · rw [h.culled he hbelow hs hfirst t (hbelow i (List.mem_append_left _ hi))]
  · refine map_filter_old hwait fun i hi => ?_
    rw [hwoken i hi]

end Step

end Queue.Extends

theorem extends_initial (he : Embeds n n' f old p p')
    (hk : ∀ i < n, ∀ j, key' (f i) j = key i j) :
    Queue.Extends n f old (Queue.initial alg p key n)
      (Queue.initial alg p' key' n') := by
  have hjob : ∀ i < n, Job.initial alg (p' (f i)) = Job.initial alg (p i) :=
    fun i hi => by rw [he.params i hi]
  have hready : ∀ i ∈ List.range n, (Job.initial alg (p' (f i))).ready =
      (Job.initial alg (p i)).ready := fun i hi => by
    rw [hjob i (List.mem_range.mp hi)]
  refine ⟨?_, ?_, hjob⟩
  · show (insertAllByKey _ _ _).filter old = (insertAllByKey _ _ _).map f
    rw [filter_insertAllByKey old List.Pairwise.nil,
      map_filter_old he.range (c := fun i => (Job.initial alg (p i)).ready) hready]
    refine map_insertAllByKey (l := []) fun i hi => ?_
    rw [List.append_nil, List.mem_filter, List.mem_range] at hi
    show key' (f i) (Job.initial alg (p' (f i))) = key i (Job.initial alg (p i))
    rw [hjob i hi.1, hk i hi.1]
  · refine map_filter_old he.range fun i hi => ?_
    rw [hready i hi]

/-- As long as the old tasks go first, the lines of all tasks hold those of
the old ones. -/
theorem queueAt_extends (he : Embeds n n' f old p p') (hkey : Queue.KeyOf key')
    (hk : ∀ i < n, ∀ j, key' (f i) j = key i j)
    (hfirst : ∀ u < t, OldFirst key' old (queueAt alg p' key' n' u)) :
    Queue.Extends n f old (queueAt alg p key n t) (queueAt alg p' key' n' t) := by
  induction t with
  | zero => exact extends_initial he hk
  | succ t ih =>
      have ih := ih fun u hu => hfirst u (Nat.lt_succ_of_lt hu)
      exact ih.tick he (queueAt_below alg p key n t)
        (queueAt_sorted alg p' key' n' hkey t) (hfirst t (Nat.lt_succ_self t))
        hkey hk (t + 1)

end Embedded

end FreeRtosSim
