import Mathlib.Data.List.Basic

/- Runs of a machine given by its step function.

   A machine is a function `step : σ → α → Option σ`: in state `s` the action `a`
   is either impossible or leads to one state. Threads that interleave are one
   machine whose actions say which thread moves and what its environment answers,
   so a statement about every run is a statement about every interleaving.

   1. `run_invariant_along` — what every step preserves, every run preserves; the
      steps may be asked to meet a condition each (`Along`), which may then imply another
      (`along_imp`), and conditions that agree on the invariant's states are
      interchangeable (`along_congr`);
   2. `run_simulation` — when each step of one machine is matched by a run of
      another, runs are matched by runs; what can be seen of the steps on the way may
      be asked to be the same (`run_simulation_seen`);
   3. `run_pays` — when every step that is charged is paid for by a potential, a run
      takes no more such steps than the potential, and what flowed into it, paid for;
      or it has reached a goal on the way (`run_pays_until`). -/
namespace StepRun

variable {σ α τ β : Type} (step : σ → α → Option σ)

/-- Take the actions in order; `none` when one of them is impossible. -/
def run : σ → List α → Option σ
  | s, [] => some s
  | s, a :: as => (step s a).bind (run · as)

/-- Every step of the run meets `P` in the state it is taken from. -/
def Along (P : σ → α → Prop) : σ → List α → Prop
  | _, [] => True
  | s, a :: as => P s a ∧ ∀ s', step s a = some s' → Along P s' as

variable {step} {P : σ → α → Prop} {Inv : σ → Prop} {s s' t : σ}

@[simp] theorem run_nil : run step s [] = some s := rfl

theorem run_cons {a : α} {as : List α} :
    run step s (a :: as) = some t ↔ ∃ s', step s a = some s' ∧ run step s' as = some t := by
  simp [run, Option.bind_eq_some_iff]

theorem run_append {as bs : List α} (h₁ : run step s as = some s') (h₂ : run step s' bs = some t) :
    run step s (as ++ bs) = some t := by
  induction as generalizing s with
  | nil =>
    obtain rfl : s = s' := by simpa using h₁
    exact h₂
  | cons a as ih =>
    obtain ⟨u, hu, hrun⟩ := run_cons.mp h₁
    exact run_cons.mpr ⟨u, hu, ih hrun⟩

theorem Along.of_forall (h : ∀ s a, P s a) (as : List α) : Along step P s as := by
  induction as generalizing s with
  | nil => trivial
  | cons a as ih => exact ⟨h s a, fun _ _ => ih⟩

/-- Whether a given run meets a decidable condition can be computed. -/
instance Along.decidable [∀ s a, Decidable (P s a)] : ∀ s as, Decidable (Along step P s as)
  | _, [] => isTrue trivial
  | s, a :: as =>
    match h : step s a with
    | none => decidable_of_iff (P s a) ⟨fun hp => ⟨hp, by simp [h]⟩, And.left⟩
    | some s' =>
      haveI := Along.decidable s' as
      decidable_of_iff (P s a ∧ Along step P s' as)
        ⟨fun hp => ⟨hp.1, by simpa [h] using hp.2⟩, fun hp => ⟨hp.1, hp.2 s' h⟩⟩

/-- **What a step preserves, a run preserves**, along runs whose steps meet `P`. -/
theorem run_invariant_along
    (hstep : ∀ s a s', Inv s → P s a → step s a = some s' → Inv s')
    {as : List α} (hrun : run step s as = some t) (halong : Along step P s as) (h : Inv s) : Inv t := by
  induction as generalizing s with
  | nil =>
    obtain rfl : s = t := by simpa using hrun
    exact h
  | cons a as ih =>
    obtain ⟨s', hs', hrest⟩ := run_cons.mp hrun
    exact ih hrest (halong.2 s' hs') (hstep s a s' h halong.1 hs')

theorem run_invariant (hstep : ∀ s a s', Inv s → step s a = some s' → Inv s')
    {as : List α} (hrun : run step s as = some t) (h : Inv s) : Inv t :=
  run_invariant_along (P := fun _ _ => True) (fun s a s' hs _ => hstep s a s' hs) hrun
    (.of_forall (fun _ _ => trivial) as) h

theorem along_imp {Q : σ → α → Prop} (hstep : ∀ s a s', Inv s → P s a → step s a = some s' → Inv s')
    (himp : ∀ s a, Inv s → P s a → Q s a) (h : Inv s) {as : List α} (halong : Along step P s as) :
    Along step Q s as := by
  induction as generalizing s with
  | nil => trivial
  | cons a as ih =>
    obtain ⟨hp, hrest⟩ := halong
    exact ⟨himp s a h hp, fun s' hs' => ih (hstep s a s' h hp hs') (hrest s' hs')⟩

theorem along_congr {Q : σ → α → Prop} (hstep : ∀ s a s', Inv s → P s a → step s a = some s' → Inv s')
    (hiff : ∀ s a, Inv s → (Q s a ↔ P s a)) (h : Inv s) (as : List α) :
    Along step Q s as ↔ Along step P s as := by
  induction as generalizing s with
  | nil => exact Iff.rfl
  | cons a as ih =>
    refine ⟨?_, ?_⟩
    · rintro ⟨hq, hrest⟩
      have hp : P s a := (hiff s a h).mp hq
      exact ⟨hp, fun s' hs' => (ih (hstep s a s' h hp hs')).mp (hrest s' hs')⟩
    · rintro ⟨hp, hrest⟩
      exact ⟨(hiff s a h).mpr hp, fun s' hs' => (ih (hstep s a s' h hp hs')).mpr (hrest s' hs')⟩

/-- **A potential bounds the steps.** A step costs one when it is charged; it is paid out
of the potential, into which flows what the income grows by. -/
theorem run_pays {charged : α → Bool} {Φ income : σ → Nat}
    (hkeep : ∀ s a s', Inv s → step s a = some s' → Inv s')
    (hpay : ∀ s a s', Inv s → step s a = some s' →
      (if charged a then 1 else 0) + Φ s' + income s ≤ Φ s + income s')
    {as : List α} (hrun : run step s as = some t) (h : Inv s) :
    as.countP charged + Φ t + income s ≤ Φ s + income t := by
  induction as generalizing s with
  | nil =>
    obtain rfl : s = t := by simpa using hrun
    rw [List.countP_nil]
    omega
  | cons a as ih =>
    obtain ⟨s', hs', hrest⟩ := run_cons.mp hrun
    have hfirst := hpay s a s' h hs'
    have hothers := ih hrest (hkeep s a s' h hs')
    rw [List.countP_cons]
    omega

/-- **A potential bounds the steps to a goal** that is kept once it is reached. What is
`Left` pays for the charged steps; it may be counted anew with every step. -/
theorem run_pays_until {charged : α → Bool} {Goal : σ → Prop} {Left : σ → Nat → Prop} {income : σ → Nat}
    (hgoal : ∀ s a s', Goal s → step s a = some s' → Goal s')
    (hpay : ∀ s a s' n, Left s n → P s a → step s a = some s' →
      Goal s' ∨ ∃ n', Left s' n' ∧ (if charged a then 1 else 0) + n' + income s ≤ n + income s')
    {as : List α} {n : Nat} (hrun : run step s as = some t) (halong : Along step P s as) (h : Left s n) :
    Goal t ∨ as.countP charged + income s ≤ n + income t := by
  induction as generalizing s n with
  | nil =>
    obtain rfl : s = t := by simpa using hrun
    right
    rw [List.countP_nil]
    omega
  | cons a as ih =>
    obtain ⟨s', hs', hrest⟩ := run_cons.mp hrun
    rcases hpay s a s' n h halong.1 hs' with hreached | ⟨n', hleft, hpaid⟩
    · exact .inl (run_invariant hgoal hrest hreached)
    · rcases ih hrest (halong.2 s' hs') hleft with hreached | hothers
      · exact .inl hreached
      · right
        rw [List.countP_cons]
        omega

/-- **Simulation.** `R` relates the states of the machine to those of an abstract
one; a step keeps them related through some run of the abstract machine. -/
theorem run_simulation {astep : τ → β → Option τ} {R : σ → τ → Prop}
    (hstep : ∀ s a s' q, R s q → step s a = some s' →
      ∃ bs q', run astep q bs = some q' ∧ R s' q')
    {as : List α} {q : τ} (hrun : run step s as = some t) (h : R s q) :
    ∃ bs q', run astep q bs = some q' ∧ R t q' := by
  induction as generalizing s q with
  | nil =>
    obtain rfl : s = t := by simpa using hrun
    exact ⟨[], q, rfl, h⟩
  | cons a as ih =>
    obtain ⟨s', hs', hrest⟩ := run_cons.mp hrun
    obtain ⟨bs, q₁, hbs, h₁⟩ := hstep s a s' q h hs'
    obtain ⟨bs', q₂, hbs', h₂⟩ := ih hrest h₁
    exact ⟨bs ++ bs', q₂, run_append hbs hbs', h₂⟩

theorem run_simulation_seen {γ : Type} {astep : τ → β → Option τ} {R : σ → τ → Prop} (seen : α → Option γ)
    (aseen : β → Option γ)
    (hstep : ∀ s a s' q, R s q → step s a = some s' →
      ∃ bs q', run astep q bs = some q' ∧ bs.filterMap aseen = (seen a).toList ∧ R s' q')
    {as : List α} {q : τ} (hrun : run step s as = some t) (h : R s q) :
    ∃ bs q', run astep q bs = some q' ∧ bs.filterMap aseen = as.filterMap seen ∧ R t q' := by
  induction as generalizing s q with
  | nil =>
    obtain rfl : s = t := by simpa using hrun
    exact ⟨[], q, rfl, rfl, h⟩
  | cons a as ih =>
    obtain ⟨s', hs', hrest⟩ := run_cons.mp hrun
    obtain ⟨bs, q₁, hbs, hseen, h₁⟩ := hstep s a s' q h hs'
    obtain ⟨bs', q₂, hbs', hseen', h₂⟩ := ih hrest h₁
    refine ⟨bs ++ bs', q₂, run_append hbs hbs', ?_, h₂⟩
    rw [List.filterMap_append, hseen, hseen', List.filterMap_cons]
    cases seen a <;> rfl

end StepRun
