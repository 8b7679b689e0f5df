import Mathlib.Logic.Function.Basic
import IcecapAgent.StepRun

/- A section behind an atomic flag, called by any number of threads.

   Every caller exchanges the flag for `true` and enters the section when it was `false`;
   any other caller returns at once. The section is given as a machine over the world that
   it works on: `body b w a` is the place the caller goes to, or `none` when it leaves, and
   the world afterwards. A section left by an exception leaves the flag set.

   `gate_sole` — whatever the callers do, in any interleaving, the world is what one caller
   alone makes of it in one pass through the section. -/
namespace OnceGate
open StepRun

variable {ι β σ α : Type}

/-- The flag, where each caller is in the section, and the world. -/
structure GateState (ι β σ : Type) where
  called : Bool
  place : ι → Option β
  world : σ

inductive GateAct (ι α : Type) where
  | call (i : ι)
  | work (i : ι) (a : α)

/-- Nobody has called yet. -/
def GateState.closed (w : σ) : GateState ι β σ := ⟨false, fun _ => none, w⟩

/-- A step of a caller: the exchange of the flag, or a step in the section. -/
def gateStep [DecidableEq ι] (start : β) (body : β → σ → α → Option (Option β × σ)) (s : GateState ι β σ) :
    GateAct ι α → Option (GateState ι β σ)
  | .call i =>
    if (s.place i).isSome then none
    else some { s with called := true, place := if s.called then s.place else Function.update s.place i (some start) }
  | .work i a =>
    (s.place i).bind fun b => (body b s.world a).map fun r =>
      { s with place := Function.update s.place i r.1, world := r.2 }

/-- One caller alone: before the section, in it, or after it. -/
inductive Pass (β : Type) where
  | before
  | inside (b : β)
  | after
  deriving DecidableEq, Repr

inductive PassAct (α : Type) where
  | enter
  | work (a : α)

/-- A step of one pass through the section. -/
def passStep (start : β) (body : β → σ → α → Option (Option β × σ)) (s : Pass β × σ) : PassAct α → Option (Pass β × σ)
  | .enter =>
    match s.1 with
    | .before => some (.inside start, s.2)
    | _ => none
  | .work a =>
    match s.1 with
    | .inside b => (body b s.2 a).map fun r => (match r.1 with | some b' => .inside b' | none => .after, r.2)
    | _ => none

/-- The callers are together where the one caller is: at most one of them is in the
section. -/
def Together (s : GateState ι β σ) (q : Pass β × σ) : Prop :=
  q.2 = s.world ∧
    match q.1 with
    | .before => s.called = false ∧ ∀ i, s.place i = none
    | .inside b => s.called = true ∧ ∃ i, s.place i = some b ∧ ∀ j, j ≠ i → s.place j = none
    | .after => s.called = true ∧ ∀ i, s.place i = none

section
variable [DecidableEq ι] {start : β} {body : β → σ → α → Option (Option β × σ)} {s s' t : GateState ι β σ}

theorem gateStep_together {a : GateAct ι α} {q : Pass β × σ} (h : Together s q)
    (hs : gateStep start body s a = some s') :
    ∃ as q', run (passStep start body) q as = some q' ∧ Together s' q' := by
  obtain ⟨pass, w⟩ := q
  obtain ⟨rfl, hplace⟩ := h
  cases a with
  | call i =>
    simp only [gateStep, Option.ite_none_left_eq_some, Option.some.injEq] at hs
    obtain ⟨hout, rfl⟩ := hs
    cases pass with
    | before =>
      obtain ⟨hcalled, hnone⟩ := hplace
      refine ⟨[.enter], (.inside start, s.world), rfl, rfl, rfl, i, ?_, fun j hj => ?_⟩
      · simp [hcalled]
      · simp [hcalled, hj, hnone]
    | inside b =>
      obtain ⟨hcalled, i', hi', hothers⟩ := hplace
      exact ⟨[], (.inside b, s.world), rfl, rfl, rfl, i', by simp [hcalled, hi'], fun j hj => by
        simp [hcalled, hothers j hj]⟩
    | after =>
      obtain ⟨hcalled, hnone⟩ := hplace
      exact ⟨[], (.after, s.world), rfl, rfl, rfl, fun j => by simp [hcalled, hnone]⟩
  | work i a =>
    simp only [gateStep, Option.bind_eq_some_iff, Option.map_eq_some_iff] at hs
    obtain ⟨b, hb, ⟨next, w'⟩, hbody, rfl⟩ := hs
    cases pass with
    | before => simp [hplace.2 i] at hb
    | after => simp [hplace.2 i] at hb
    | inside b' =>
      obtain ⟨hcalled, i', hi', hothers⟩ := hplace
      -- the caller that works is the one that is inside
      obtain rfl : i = i' := by
        by_contra hne
        simp [hothers i hne] at hb
      obtain rfl : b' = b := Option.some.inj (hi'.symm.trans hb)
      have hrest (j : ι) (hj : j ≠ i) : Function.update s.place i next j = none := by
        rw [Function.update_of_ne hj, hothers j hj]
      cases next with
      | some next =>
        refine ⟨[.work a], (.inside next, w'), ?_, rfl, hcalled, i, Function.update_self _ _ _, hrest⟩
        simp [run, passStep, hbody]
      | none =>
        refine ⟨[.work a], (.after, w'), ?_, rfl, hcalled, fun j => ?_⟩
        · simp [run, passStep, hbody]
        · by_cases hj : j = i
          · subst hj
            exact Function.update_self _ _ _
          · exact hrest j hj

omit [DecidableEq ι] in
theorem Together.alone {q : Pass β × σ} (h : Together s q) {i j : ι} (hi : (s.place i).isSome) (hj : (s.place j).isSome) :
    i = j := by
  obtain ⟨pass, w⟩ := q
  obtain ⟨-, hplace⟩ := h
  cases pass with
  | before => simp [hplace.2 i] at hi
  | after => simp [hplace.2 i] at hi
  | inside b =>
    obtain ⟨-, k, -, hothers⟩ := hplace
    have hk (l : ι) (hl : (s.place l).isSome) : l = k := by
      by_contra hne
      simp [hothers l hne] at hl
    exact (hk i hi).trans (hk j hj).symm

/-- **One pass, however many call**: what the callers make of the world is what one caller
alone makes of it, and whoever is in the section is where that caller is. -/
theorem gate_sole {acts : List (GateAct ι α)} {w : σ}
    (hrun : run (gateStep start body) (.closed w) acts = some t) :
    ∃ as q, run (passStep start body) (.before, w) as = some q ∧ Together t q :=
  run_simulation (R := Together) (fun _ _ _ _ h hs => gateStep_together h hs) hrun ⟨rfl, rfl, fun _ => rfl⟩

end

end OnceGate
