import Mathlib.Data.Nat.Init

/- Loops given by their turns, with nothing assumed about whether they end.

   A turn evaluates the condition of the loop, and its body when the condition
   holds. It makes of the state another one, from which the next turn is taken, or
   it leaves the loop with a result. `Ends` counts the turns that go on.

   1. `Ends.unique` — a loop ends in one way;
   2. `ends_of_pays` — when every turn that goes on takes at least `k` off a measure,
      the loop ends, after at most as many turns as the measure can pay for;
   3. `not_ends_of_kept` — when there is a property under which every turn goes on and
      which it keeps, the loop does not end. -/
namespace TurnLoop

variable {σ ρ : Type}

/-- From `s` the loop goes on `n` times, and then leaves with `r`. -/
inductive Ends (turn : σ → σ ⊕ ρ) : σ → Nat → ρ → Prop where
  | leave {s : σ} {r : ρ} (h : turn s = .inr r) : Ends turn s 0 r
  | again {s s' : σ} {n : Nat} {r : ρ} (h : turn s = .inl s') (rest : Ends turn s' n r) : Ends turn s (n + 1) r

variable {turn : σ → σ ⊕ ρ} {s : σ} {n m : Nat} {r q : ρ} {μ : σ → Nat} {k : Nat}

theorem Ends.unique (h : Ends turn s n r) (h' : Ends turn s m q) : n = m ∧ r = q := by
  induction h generalizing m with
  | leave hs =>
    cases h' with
    | leave hs' =>
      rw [hs] at hs'
      exact ⟨rfl, Sum.inr.inj hs'⟩
    | again hs' rest' =>
      rw [hs] at hs'
      cases hs'
  | again hs rest ih =>
    cases h' with
    | leave hs' =>
      rw [hs] at hs'
      cases hs'
    | again hs' rest' =>
      rw [hs] at hs'
      obtain rfl := Sum.inl.inj hs'
      obtain ⟨hn, hr⟩ := ih rest'
      exact ⟨congrArg (· + 1) hn, hr⟩

theorem Ends.pays (hpays : ∀ s s', turn s = .inl s' → μ s' + k ≤ μ s) (h : Ends turn s n r) : n * k ≤ μ s := by
  induction h with
  | leave hs =>
    rw [Nat.zero_mul]
    exact Nat.zero_le _
  | @again s s' n r hs rest ih =>
    calc (n + 1) * k
        = n * k + k := Nat.succ_mul n k
      _ ≤ μ s' + k := Nat.add_le_add_right ih k
      _ ≤ μ s := hpays s s' hs

theorem ends_of_decreases (hless : ∀ s s', turn s = .inl s' → μ s' < μ s) (s : σ) : ∃ n r, Ends turn s n r := by
  induction hn : μ s using Nat.strongRecOn generalizing s with
  | ind n ih =>
    subst hn
    cases hs : turn s with
    | inr r => exact ⟨0, r, .leave hs⟩
    | inl s' =>
      obtain ⟨n, r, hends⟩ := ih (μ s') (hless s s' hs) s' rfl
      exact ⟨n + 1, r, .again hs hends⟩

/-- **A measure bounds the loop.** -/
theorem ends_of_pays (μ : σ → Nat) (hk : 0 < k) (hpays : ∀ s s', turn s = .inl s' → μ s' + k ≤ μ s) (s : σ) :
    ∃ n r, Ends turn s n r ∧ n ≤ μ s / k := by
  have hless (s s' : σ) (hs : turn s = .inl s') : μ s' < μ s := by
    have := hpays s s' hs
    omega
  -- that it ends comes first: only a loop that ended has turns to count
  obtain ⟨n, r, hends⟩ := ends_of_decreases hless s
  refine ⟨n, r, hends, ?_⟩
  rw [Nat.le_div_iff_mul_le hk]
  exact hends.pays hpays

/-- **A loop that never leaves.** -/
theorem not_ends_of_kept {I : σ → Prop} (hkept : ∀ s, I s → ∃ s', turn s = .inl s' ∧ I s') (hs : I s) :
    ¬ Ends turn s n r := by
  intro h
  induction h with
  | leave hleave =>
    obtain ⟨s', hagain, -⟩ := hkept _ hs
    rw [hleave] at hagain
    cases hagain
  | again hgoes rest ih =>
    obtain ⟨s', hagain, hs'⟩ := hkept _ hs
    rw [hgoes] at hagain
    obtain rfl := Sum.inl.inj hagain
    exact ih hs'

end TurnLoop
