import Mathlib.Algebra.BigOperators.Group.Finset.Piecewise
import Mathlib.Algebra.Order.BigOperators.Group.Finset
import Mathlib.Data.Fintype.Basic
import Mathlib.Logic.Function.Basic
import Mathlib.Logic.Relation
import Mathlib.Order.WellFounded
import IcecapAgent.StepRun

/- Threads that take mutexes and wait for each other's end.

   A thread is the list of the synchronisation operations it has left; what it does
   between them is not looked at. A ranking orders the mutexes and the threads. `check`
   walks along the operations of one thread with the mutexes it holds: what it waits for,
   a mutex or the end of a thread, has to rank below the thread itself and below every
   mutex it holds, and mutexes are released in the reverse order, as scoped locks are.

   1. `run_ordered` — threads that were checked one by one only reach `Ordered` states;
   2. `Ordered.waits_end` — there, the chain of who waits for whom ends at a thread that can
      move, since ranks fall along it;
   3. `Ordered.completes` — so whatever was done first, all threads can still be completed;
   4. `Ordered.lock_owner`, `Ordered.unlock_owner` — no thread takes a mutex it has, or
      releases one it does not have. -/
namespace LockOrder
open StepRun

variable {τ μ ρ : Type}

/-- Take a mutex, release it, or wait for a thread to end. -/
inductive SyncOp (τ μ : Type) where
  | lock (m : μ)
  | unlock (m : μ)
  | join (u : τ)
  deriving DecidableEq, Repr

/-- What each thread has left to do, and which thread has each mutex. A thread has ended
when it has nothing left. -/
structure Threads (τ μ : Type) where
  rest : τ → List (SyncOp τ μ)
  owner : μ → Option τ

/-- The threads before their first operation; no mutex is taken. -/
def Threads.start (programs : τ → List (SyncOp τ μ)) : Threads τ μ := ⟨programs, fun _ => none⟩

/-- A scoped lock around `body`. -/
def guarded (m : μ) (body : List (SyncOp τ μ)) : List (SyncOp τ μ) := .lock m :: body ++ [.unlock m]

/-- The ranks of the mutexes and of the threads. -/
structure Ranking (τ μ ρ : Type) where
  mutex : μ → ρ
  thread : τ → ρ

/-! ## Steps -/

section
variable [DecidableEq τ] [DecidableEq μ]

/-- The next operation of thread `t`, where it need not wait. -/
def step (s : Threads τ μ) (t : τ) : Option (Threads τ μ) :=
  match s.rest t with
  | [] => none
  | .lock m :: ops =>
    if s.owner m = none then some ⟨Function.update s.rest t ops, Function.update s.owner m (some t)⟩ else none
  | .unlock m :: ops =>
    if s.owner m = some t then some ⟨Function.update s.rest t ops, Function.update s.owner m none⟩ else none
  | .join u :: ops => if s.rest u = [] then some { s with rest := Function.update s.rest t ops } else none

/-- The moves of a thread. -/
inductive Move (s : Threads τ μ) (t : τ) : Threads τ μ → Prop where
  | lock (m : μ) (ops : List (SyncOp τ μ)) (hrest : s.rest t = .lock m :: ops) (hfree : s.owner m = none) :
      Move s t ⟨Function.update s.rest t ops, Function.update s.owner m (some t)⟩
  | unlock (m : μ) (ops : List (SyncOp τ μ)) (hrest : s.rest t = .unlock m :: ops)
      (howner : s.owner m = some t) :
      Move s t ⟨Function.update s.rest t ops, Function.update s.owner m none⟩
  | join (u : τ) (ops : List (SyncOp τ μ)) (hrest : s.rest t = .join u :: ops) (hended : s.rest u = []) :
      Move s t { s with rest := Function.update s.rest t ops }

variable {s s' : Threads τ μ} {t u : τ} {m : μ} {ops : List (SyncOp τ μ)}

theorem step_lock (hrest : s.rest t = .lock m :: ops) (hfree : s.owner m = none) :
    step s t = some ⟨Function.update s.rest t ops, Function.update s.owner m (some t)⟩ := by
  unfold step
  rw [hrest]
  exact if_pos hfree

theorem step_unlock (hrest : s.rest t = .unlock m :: ops) (howner : s.owner m = some t) :
    step s t = some ⟨Function.update s.rest t ops, Function.update s.owner m none⟩ := by
  unfold step
  rw [hrest]
  exact if_pos howner

theorem step_join (hrest : s.rest t = .join u :: ops) (hended : s.rest u = []) :
    step s t = some { s with rest := Function.update s.rest t ops } := by
  unfold step
  rw [hrest]
  exact if_pos hended

theorem step_move (hs : step s t = some s') : Move s t s' := by
  unfold step at hs
  split at hs
  · simp at hs
  · rename_i m ops hrest
    rw [Option.ite_none_right_eq_some, Option.some.injEq] at hs
    obtain ⟨hfree, rfl⟩ := hs
    exact .lock m ops hrest hfree
  · rename_i m ops hrest
    rw [Option.ite_none_right_eq_some, Option.some.injEq] at hs
    obtain ⟨howner, rfl⟩ := hs
    exact .unlock m ops hrest howner
  · rename_i u ops hrest
    rw [Option.ite_none_right_eq_some, Option.some.injEq] at hs
    obtain ⟨hended, rfl⟩ := hs
    exact .join u ops hrest hended

theorem Move.rest (h : Move s t s') : ∃ op ops, s.rest t = op :: ops ∧ s'.rest = Function.update s.rest t ops := by
  cases h with
  | lock m ops hrest hfree => exact ⟨_, ops, hrest, rfl⟩
  | unlock m ops hrest howner => exact ⟨_, ops, hrest, rfl⟩
  | join u ops hrest hended => exact ⟨_, ops, hrest, rfl⟩

/-- The owners of the mutexes after thread `t` made the operations, unless one of them
has to wait for a mutex or releases one that is not the thread's. -/
def perform (t : τ) : (μ → Option τ) → List (SyncOp τ μ) → Option (μ → Option τ)
  | owner, [] => some owner
  | owner, .lock m :: ops =>
    if owner m = none then perform t (Function.update owner m (some t)) ops else none
  | owner, .unlock m :: ops =>
    if owner m = some t then perform t (Function.update owner m none) ops else none
  | owner, .join _ :: ops => perform t owner ops

end

/-! ## The check of one thread -/

section
variable [LinearOrder ρ]

/-- Thread `t`, which has the mutexes `held`, may wait for what has rank `r`. -/
def Ranking.Below (R : Ranking τ μ ρ) (t : τ) (held : List μ) (r : ρ) : Prop :=
  r < R.thread t ∧ ∀ m ∈ held, r < R.mutex m

instance (R : Ranking τ μ ρ) (t : τ) (held : List μ) (r : ρ) : Decidable (R.Below t held r) :=
  inferInstanceAs (Decidable (_ ∧ _))

/-- The rank of what an operation waits for. -/
def Ranking.awaited (R : Ranking τ μ ρ) : SyncOp τ μ → Option ρ
  | .lock m => some (R.mutex m)
  | .unlock _ => none
  | .join u => some (R.thread u)

variable [DecidableEq μ] (R : Ranking τ μ ρ) (t : τ)

/-- The mutexes thread `t` has after the operations, the last taken first; `none` when
one of them is out of order. -/
def check : List μ → List (SyncOp τ μ) → Option (List μ)
  | held, [] => some held
  | held, .lock m :: ops => if R.Below t held (R.mutex m) then check (m :: held) ops else none
  | m' :: held, .unlock m :: ops => if m = m' then check held ops else none
  | [], .unlock _ :: _ => none
  | held, .join u :: ops => if R.Below t held (R.thread u) then check held ops else none

theorem check_append (held : List μ) (xs ys : List (SyncOp τ μ)) :
    check R t held (xs ++ ys) = (check R t held xs).bind (check R t · ys) := by
  induction xs generalizing held with
  | nil => cases held <;> rfl
  | cons op xs ih =>
    cases op with
    | lock m =>
      simp only [List.cons_append, check]
      split
      · exact ih _
      · rfl
    | unlock m =>
      cases held with
      | nil => rfl
      | cons m' held =>
        simp only [List.cons_append, check]
        split
        · exact ih _
        · rfl
    | join u =>
      simp only [List.cons_append, check]
      split
      · exact ih _
      · rfl

/-- The operations are in order, and leave the thread with the mutexes it had. -/
def Balanced (held : List μ) (ops : List (SyncOp τ μ)) : Prop := check R t held ops = some held

variable {R t} {held : List μ} {xs ys ops : List (SyncOp τ μ)}

theorem Balanced.nil : Balanced R t held [] := by
  unfold Balanced
  cases held <;> rfl

theorem Balanced.append (hx : Balanced R t held xs) (hy : Balanced R t held ys) : Balanced R t held (xs ++ ys) := by
  unfold Balanced at hx hy ⊢
  rw [check_append, hx]
  exact hy

theorem Balanced.guarded {m : μ} (hbelow : R.Below t held (R.mutex m)) (hbody : Balanced R t (m :: held) ops) :
    Balanced R t held (guarded m ops) := by
  unfold Balanced at hbody ⊢
  simp only [LockOrder.guarded, List.cons_append, check]
  rw [if_pos hbelow, check_append, hbody]
  show check R t (m :: held) [.unlock m] = some held
  simp [check]

theorem Balanced.join {u : τ} (hbelow : R.Below t held (R.thread u)) : Balanced R t held [.join u] := by
  unfold Balanced
  simp only [check]
  rw [if_pos hbelow]

theorem Balanced.flatMap {ι : Type} {f : ι → List (SyncOp τ μ)} (h : ∀ i, Balanced R t held (f i)) (is : List ι) :
    Balanced R t held (is.flatMap f) := by
  induction is with
  | nil => exact .nil
  | cons i is ih =>
    rw [List.flatMap_cons]
    exact (h i).append ih

theorem Balanced.ite {P : Prop} [Decidable P] (hx : P → Balanced R t held xs) (hy : ¬ P → Balanced R t held ys) :
    Balanced R t held (if P then xs else ys) := by
  split
  · rename_i h
    exact hx h
  · rename_i h
    exact hy h

end

/-! ## Ordered states -/

section
variable [DecidableEq μ] [LinearOrder ρ] {R : Ranking τ μ ρ} {s s' : Threads τ μ} {t u : τ} {m : μ}
  {op : SyncOp τ μ} {ops : List (SyncOp τ μ)}

/-- The mutexes of each thread: what it has left is in order from there, and it has
exactly the mutexes that say so. -/
structure Holding (R : Ranking τ μ ρ) (s : Threads τ μ) (held : τ → List μ) : Prop where
  checked : ∀ t, check R t (held t) (s.rest t) = some []
  owned : ∀ t m, m ∈ held t ↔ s.owner m = some t
  nodup : ∀ t, (held t).Nodup

/-- What each thread has left is in order. -/
def Ordered (R : Ranking τ μ ρ) (s : Threads τ μ) : Prop := ∃ held, Holding R s held

theorem start_ordered {programs : τ → List (SyncOp τ μ)} (h : ∀ t, Balanced R t [] (programs t)) :
    Ordered R (.start programs) :=
  ⟨fun _ => [], h, by simp [Threads.start], fun _ => List.nodup_nil⟩

theorem Holding.lock {held : τ → List μ} (h : Holding R s held) (hrest : s.rest t = .lock m :: ops) :
    R.Below t (held t) (R.mutex m) ∧ check R t (m :: held t) ops = some [] := by
  have hc := h.checked t
  rw [hrest] at hc
  simp only [check] at hc
  rwa [Option.ite_none_right_eq_some] at hc

theorem Holding.unlock {held : τ → List μ} (h : Holding R s held) (hrest : s.rest t = .unlock m :: ops) :
    ∃ others, held t = m :: others ∧ check R t others ops = some [] := by
  have hc := h.checked t
  rw [hrest] at hc
  cases hheld : held t with
  | nil => simp [hheld, check] at hc
  | cons m' others =>
    rw [hheld] at hc
    simp only [check] at hc
    rw [Option.ite_none_right_eq_some] at hc
    obtain ⟨rfl, hrest'⟩ := hc
    exact ⟨others, rfl, hrest'⟩

theorem Holding.join {held : τ → List μ} (h : Holding R s held) (hrest : s.rest t = .join u :: ops) :
    R.Below t (held t) (R.thread u) ∧ check R t (held t) ops = some [] := by
  have hc := h.checked t
  rw [hrest] at hc
  simp only [check] at hc
  rwa [Option.ite_none_right_eq_some] at hc

theorem Holding.ended {held : τ → List μ} (h : Holding R s held) (hrest : s.rest t = []) : held t = [] := by
  have hc := h.checked t
  rw [hrest] at hc
  simpa [check] using hc

theorem Ordered.lock_owner (h : Ordered R s) (hrest : s.rest t = .lock m :: ops) : s.owner m ≠ some t := by
  obtain ⟨held, h⟩ := h
  intro howner
  have hmem := (h.owned t m).mpr howner
  exact lt_irrefl _ ((h.lock hrest).1.2 m hmem)

theorem Ordered.unlock_owner (h : Ordered R s) (hrest : s.rest t = .unlock m :: ops) : s.owner m = some t := by
  obtain ⟨held, h⟩ := h
  obtain ⟨others, hheld, -⟩ := h.unlock hrest
  apply (h.owned t m).mp
  rw [hheld]
  exact List.mem_cons_self

theorem Ordered.owner_going (h : Ordered R s) (howner : s.owner m = some t) : s.rest t ≠ [] := by
  obtain ⟨held, h⟩ := h
  intro hended
  have hmem := (h.owned t m).mpr howner
  rw [h.ended hended] at hmem
  exact List.not_mem_nil hmem

variable [DecidableEq τ]

theorem Holding.update {held : τ → List μ} (h : Holding R s held) {mine : List μ} {owner : μ → Option τ}
    (hchecked : check R t mine ops = some []) (hmine : ∀ m, m ∈ mine ↔ owner m = some t) (hnodup : mine.Nodup)
    (hothers : ∀ u, u ≠ t → ∀ m, owner m = some u ↔ s.owner m = some u) :
    Holding R ⟨Function.update s.rest t ops, owner⟩ (Function.update held t mine) := by
  refine ⟨?_, ?_, ?_⟩
  · intro u
    by_cases hu : u = t
    · subst hu
      simpa using hchecked
    · simpa [hu] using h.checked u
  · intro u m
    by_cases hu : u = t
    · subst hu
      simpa using hmine m
    · rw [Function.update_of_ne hu, h.owned u m]
      exact (hothers u hu m).symm
  · intro u
    by_cases hu : u = t
    · subst hu
      simpa using hnodup
    · simpa [hu] using h.nodup u

/-- **A step keeps the order.** -/
theorem step_ordered (h : Ordered R s) (hs : step s t = some s') : Ordered R s' := by
  obtain ⟨held, h⟩ := h
  cases step_move hs with
  | lock m ops hrest hfree =>
    obtain ⟨hbelow, hchecked⟩ := h.lock hrest
    refine ⟨_, h.update hchecked ?_ ?_ ?_⟩
    · intro m'
      rw [List.mem_cons, h.owned t m']
      by_cases hm : m' = m
      · simp [hm]
      · simp [hm]
    · exact List.nodup_cons.mpr ⟨fun hmem => lt_irrefl _ (hbelow.2 m hmem), h.nodup t⟩
    · intro u hu m'
      by_cases hm : m' = m
      · subst hm
        simp [hfree, hu.symm]
      · simp [hm]
  | unlock m ops hrest howner =>
    obtain ⟨others, hheld, hchecked⟩ := h.unlock hrest
    have hnodup := h.nodup t
    rw [hheld, List.nodup_cons] at hnodup
    refine ⟨_, h.update hchecked ?_ hnodup.2 ?_⟩
    · intro m'
      by_cases hm : m' = m
      · subst hm
        simp [hnodup.1]
      · rw [Function.update_of_ne hm, ← h.owned t m', hheld]
        simp [hm]
    · intro u hu m'
      by_cases hm : m' = m
      · subst hm
        simp [howner, hu.symm]
      · simp [hm]
  | join u ops hrest hended =>
    obtain ⟨-, hchecked⟩ := h.join hrest
    exact ⟨_, h.update hchecked (h.owned t) (h.nodup t) (fun _ _ _ => Iff.rfl)⟩

theorem run_ordered {schedule : List τ} (h : Ordered R s) (hrun : run step s schedule = some s') : Ordered R s' :=
  run_invariant (fun _ _ _ h hs => step_ordered h hs) hrun h

/-! ## Who waits for whom -/

/-- Thread `t` waits for `u`: for a mutex that `u` has, or for the end of `u`. -/
inductive WaitsFor (s : Threads τ μ) (t u : τ) : Prop where
  | mutex (m : μ) (ops : List (SyncOp τ μ)) (hrest : s.rest t = .lock m :: ops) (howner : s.owner m = some u)
  | thread (ops : List (SyncOp τ μ)) (hrest : s.rest t = .join u :: ops) (hgoing : s.rest u ≠ [])

/-- A thread that cannot move waits for one that has not ended, and that one waits only
for what ranks lower. -/
theorem Ordered.waits (h : Ordered R s) {r : ρ} (hrest : s.rest t = op :: ops) (hr : R.awaited op = some r)
    (hstep : step s t = none) :
    ∃ u, WaitsFor s t u ∧ ∃ op' ops', s.rest u = op' :: ops' ∧ ∀ r', R.awaited op' = some r' → r' < r := by
  have hordered := h
  obtain ⟨held, h⟩ := h
  -- what `u` waits for ranks below `u` itself and below all that it has
  have lower {u : τ} (hbound : r = R.thread u ∨ ∃ m ∈ held u, r = R.mutex m) (hgoing : s.rest u ≠ []) :
      ∃ op' ops', s.rest u = op' :: ops' ∧ ∀ r', R.awaited op' = some r' → r' < r := by
    have below {r' : ρ} (hb : R.Below u (held u) r') : r' < r := by
      rcases hbound with rfl | ⟨m, hm, rfl⟩
      · exact hb.1
      · exact hb.2 m hm
    obtain ⟨op', ops', hrest'⟩ := List.exists_cons_of_ne_nil hgoing
    refine ⟨op', ops', hrest', ?_⟩
    intro r' hr'
    cases op' with
    | lock m =>
      obtain rfl := Option.some.inj hr'
      exact below (h.lock hrest').1
    | unlock m => simp [Ranking.awaited] at hr'
    | join v =>
      obtain rfl := Option.some.inj hr'
      exact below (h.join hrest').1
  cases op with
  | lock m =>
    obtain rfl := Option.some.inj hr
    cases howner : s.owner m with
    | none => simp [step_lock hrest howner] at hstep
    | some u =>
      refine ⟨u, .mutex m ops hrest howner, ?_⟩
      exact lower (.inr ⟨m, (h.owned u m).mpr howner, rfl⟩) (hordered.owner_going howner)
  | unlock m => simp [Ranking.awaited] at hr
  | join u =>
    obtain rfl := Option.some.inj hr
    have hgoing : s.rest u ≠ [] := by
      intro hended
      simp [step_join hrest hended] at hstep
    exact ⟨u, .thread ops hrest hgoing, lower (.inl rfl) hgoing⟩

variable [WellFoundedLT ρ]

/-- **Waiting ends at a thread that can move.** -/
theorem Ordered.waits_end (h : Ordered R s) (hgoing : s.rest t ≠ []) :
    ∃ u, Relation.ReflTransGen (WaitsFor s) t u ∧ (step s u).isSome = true := by
  -- by induction on the rank of what the thread waits for
  have chain (r : ρ) : ∀ t op ops, s.rest t = op :: ops → R.awaited op = some r →
      ∃ u, Relation.ReflTransGen (WaitsFor s) t u ∧ (step s u).isSome = true := by
    induction r using WellFoundedLT.induction with
    | ind r ih =>
      intro t op ops hrest hr
      by_cases hstep : step s t = none
      · obtain ⟨u, hwaits, op', ops', hrest', hlower⟩ := h.waits hrest hr hstep
        cases hr' : R.awaited op' with
        | none =>
          have hfree : (step s u).isSome = true := by
            cases op' with
            | unlock m => simp [step_unlock hrest' (h.unlock_owner hrest')]
            | lock m | join v => simp [Ranking.awaited] at hr'
          exact ⟨u, .single hwaits, hfree⟩
        | some r' =>
          obtain ⟨v, hchain, hv⟩ := ih r' (hlower r' hr') u op' ops' hrest' hr'
          exact ⟨v, .head hwaits hchain, hv⟩
      · exact ⟨t, .refl, Option.isSome_iff_ne_none.mpr hstep⟩
  obtain ⟨op, ops, hrest⟩ := List.exists_cons_of_ne_nil hgoing
  cases hr : R.awaited op with
  | some r => exact chain r t op ops hrest hr
  | none =>
    refine ⟨t, .refl, ?_⟩
    cases op with
    | unlock m => simp [step_unlock hrest (h.unlock_owner hrest)]
    | lock m | join v => simp [Ranking.awaited] at hr

end

/-! ## All threads together -/

section
variable [DecidableEq τ] [DecidableEq μ] [Fintype τ] {s s' : Threads τ μ} {t : τ}

/-- The number of operations that are left. -/
def Threads.left (s : Threads τ μ) : Nat := ∑ t, (s.rest t).length

theorem step_left (hs : step s t = some s') : s'.left + 1 = s.left := by
  obtain ⟨op, ops, hrest, hrest'⟩ := (step_move hs).rest
  have hupdate (u : τ) : (s'.rest u).length = Function.update (fun u => (s.rest u).length) t ops.length u := by
    rw [hrest']
    exact Function.apply_update (fun _ => List.length) s.rest t ops u
  have hlength : (s.rest t).length = ops.length + 1 := by rw [hrest, List.length_cons]
  have hsum := Finset.add_sum_erase Finset.univ (fun u => (s.rest u).length) (Finset.mem_univ t)
  unfold Threads.left
  simp only [hupdate]
  rw [Finset.sum_update_of_mem (Finset.mem_univ t), ← hsum, hlength, Finset.sdiff_singleton_eq_erase]
  omega

variable [LinearOrder ρ] [WellFoundedLT ρ] {R : Ranking τ μ ρ}

/-- **All threads can be completed**, and then every mutex is free. -/
theorem Ordered.completes (h : Ordered R s) :
    ∃ schedule s', run step s schedule = some s' ∧ (∀ t, s'.rest t = []) ∧ ∀ m, s'.owner m = none := by
  generalize hn : s.left = n
  induction n generalizing s with
  | zero =>
    have hended : ∀ t, s.rest t = [] := by
      intro t
      have hzero := (Finset.sum_eq_zero_iff.mp hn) t (Finset.mem_univ t)
      exact List.eq_nil_of_length_eq_zero hzero
    refine ⟨[], s, rfl, hended, ?_⟩
    intro m
    cases howner : s.owner m with
    | none => rfl
    | some t => exact absurd (hended t) (h.owner_going howner)
  | succ n ih =>
    obtain ⟨t, hgoing⟩ : ∃ t, s.rest t ≠ [] := by
      by_contra hnone
      have hzero : s.left = 0 := Finset.sum_eq_zero fun t _ => by simp [not_exists_not.mp hnone t]
      omega
    obtain ⟨u, -, hu⟩ := h.waits_end hgoing
    obtain ⟨s₁, hs₁⟩ := Option.isSome_iff_exists.mp hu
    have hleft := step_left hs₁
    obtain ⟨schedule, s', hrun, hends⟩ := ih (step_ordered h hs₁) (by omega)
    exact ⟨u :: schedule, s', run_cons.mpr ⟨s₁, hs₁, hrun⟩, hends⟩

end

end LockOrder
