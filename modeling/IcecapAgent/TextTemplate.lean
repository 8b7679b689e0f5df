import Mathlib.Data.List.Forall2

/- Text written from a template.

   A template is a list of places. Some hold a letter that is always there, at the others
   a number between two bounds is drawn and its letter written. The draws come from an
   engine, whose state every draw moves on.

   1. `emit_eq_fill` — a text is the template filled with the draws of the engine, in
      order;
   2. `fill_fits`, `fits_fill` — the texts of a template are those that fit it place by
      place;
   3. `fill_inj` — where different numbers have different letters, a text tells its
      draws. -/
namespace TextTemplate

/-- A place of a template. -/
inductive Slot (α : Type) where
  | fixed (a : α)
  | drawn (lo hi : Nat)
  deriving DecidableEq, Repr

/-- An engine that answers a draw with a number between its bounds. -/
structure Engine (G : Type) where
  draw : Nat → Nat → G → Nat × G
  bounded : ∀ {lo hi : Nat} (g : G), lo ≤ hi → lo ≤ (draw lo hi g).1 ∧ (draw lo hi g).1 ≤ hi

section
variable {α G : Type} (letter : Nat → α) (engine : Engine G)

/-- The text that an engine gives, and the engine afterwards. -/
def emit : List (Slot α) → G → List α × G
  | [], g => ([], g)
  | .fixed a :: slots, g => (a :: (emit slots g).1, (emit slots g).2)
  | .drawn lo hi :: slots, g =>
    let (n, g) := engine.draw lo hi g
    (letter n :: (emit slots g).1, (emit slots g).2)

/-- The numbers that an engine draws for a template. -/
def draws : List (Slot α) → G → List Nat
  | [], _ => []
  | .fixed _ :: slots, g => draws slots g
  | .drawn lo hi :: slots, g => (engine.draw lo hi g).1 :: draws slots (engine.draw lo hi g).2

/-- The text of a template and given numbers. -/
def fill : List (Slot α) → List Nat → List α
  | [], _ => []
  | .fixed a :: slots, ns => a :: fill slots ns
  | .drawn _ _ :: slots, n :: ns => letter n :: fill slots ns
  | .drawn _ _ :: _, [] => []

/-- The numbers answer the draws of a template, each within its bounds. -/
def Answers : List (Slot α) → List Nat → Prop
  | [], ns => ns = []
  | .fixed _ :: slots, ns => Answers slots ns
  | .drawn lo hi :: slots, n :: ns => lo ≤ n ∧ n ≤ hi ∧ Answers slots ns
  | .drawn _ _ :: _, [] => False

/-- A letter fits a place. -/
def Slot.Fits : Slot α → α → Prop
  | .fixed a, b => b = a
  | .drawn lo hi, b => ∃ n, lo ≤ n ∧ n ≤ hi ∧ b = letter n

/-- The letters that fit a place. -/
def Slot.letters : Slot α → List α
  | .fixed a => [a]
  | .drawn lo hi => (List.range' lo (hi + 1 - lo)).map letter

/-- No place draws from an empty range. -/
def Sound (slots : List (Slot α)) : Prop := ∀ lo hi, Slot.drawn lo hi ∈ slots → lo ≤ hi

end

section
variable {α G : Type} {letter : Nat → α} {engine : Engine G} {slots : List (Slot α)} {slot : Slot α} {ns ms : List Nat}

theorem Sound.tail (h : Sound (slot :: slots)) : Sound slots := by
  intro lo hi hmem
  exact h lo hi (List.mem_cons_of_mem _ hmem)

theorem Slot.fits_iff (b : α) : slot.Fits letter b ↔ b ∈ slot.letters letter := by
  cases slot with
  | fixed a => simp [Slot.Fits, Slot.letters]
  | drawn lo hi =>
    simp only [Slot.Fits, Slot.letters, List.mem_map, List.mem_range'_1]
    refine ⟨?_, ?_⟩
    · rintro ⟨n, hlo, hhi, rfl⟩
      exact ⟨n, ⟨hlo, by omega⟩, rfl⟩
    · rintro ⟨n, ⟨hlo, hhi⟩, rfl⟩
      exact ⟨n, hlo, by omega, rfl⟩

theorem emit_append (slots slots' : List (Slot α)) (g : G) :
    emit letter engine (slots ++ slots') g =
      ((emit letter engine slots g).1 ++ (emit letter engine slots' (emit letter engine slots g).2).1,
        (emit letter engine slots' (emit letter engine slots g).2).2) := by
  induction slots generalizing g with
  | nil => rfl
  | cons slot slots ih => cases slot <;> simp [emit, ih]

theorem emit_eq_fill (slots : List (Slot α)) (g : G) :
    (emit letter engine slots g).1 = fill letter slots (draws engine slots g) := by
  induction slots generalizing g with
  | nil => rfl
  | cons slot slots ih => cases slot <;> simp [emit, draws, fill, ih]

theorem draws_answer (h : Sound slots) (g : G) : Answers slots (draws engine slots g) := by
  induction slots generalizing g with
  | nil => rfl
  | cons slot slots ih =>
    cases slot with
    | fixed a => exact ih h.tail g
    | drawn lo hi =>
      have hbounds := engine.bounded g (h lo hi List.mem_cons_self)
      exact ⟨hbounds.1, hbounds.2, ih h.tail _⟩

theorem fill_fits (h : Answers slots ns) : List.Forall₂ (Slot.Fits letter) slots (fill letter slots ns) := by
  induction slots generalizing ns with
  | nil => exact .nil
  | cons slot slots ih =>
    cases slot with
    | fixed a => exact .cons rfl (ih h)
    | drawn lo hi =>
      cases ns with
      | nil => exact h.elim
      | cons n ns =>
        obtain ⟨hlo, hhi, hrest⟩ := h
        exact .cons ⟨n, hlo, hhi, rfl⟩ (ih hrest)

theorem fits_fill {text : List α} (h : List.Forall₂ (Slot.Fits letter) slots text) :
    ∃ ns, Answers slots ns ∧ fill letter slots ns = text := by
  induction h with
  | nil => exact ⟨[], rfl, rfl⟩
  | @cons slot b slots text hb _ ih =>
    obtain ⟨ns, hns, hfill⟩ := ih
    cases slot with
    | fixed a =>
      obtain rfl : b = a := hb
      exact ⟨ns, hns, congrArg _ hfill⟩
    | drawn lo hi =>
      obtain ⟨n, hlo, hhi, rfl⟩ := hb
      exact ⟨n :: ns, ⟨hlo, hhi, hns⟩, congrArg _ hfill⟩

theorem fill_inj {bound : Nat} (hletter : ∀ n m, n ≤ bound → m ≤ bound → letter n = letter m → n = m)
    (hbound : ∀ lo hi, Slot.drawn lo hi ∈ slots → hi ≤ bound) (hns : Answers slots ns) (hms : Answers slots ms)
    (h : fill letter slots ns = fill letter slots ms) : ns = ms := by
  induction slots generalizing ns ms with
  | nil => exact hns.trans hms.symm
  | cons slot slots ih =>
    have hrest : ∀ lo hi, Slot.drawn lo hi ∈ slots → hi ≤ bound :=
      fun lo hi hmem => hbound lo hi (List.mem_cons_of_mem _ hmem)
    cases slot with
    | fixed a => exact ih hrest hns hms (List.cons.inj h).2
    | drawn lo hi =>
      have hle := hbound lo hi List.mem_cons_self
      cases ns with
      | nil => exact hns.elim
      | cons n ns =>
        cases ms with
        | nil => exact hms.elim
        | cons m ms =>
          obtain ⟨hfirst, hothers⟩ := List.cons.inj h
          have heq : n = m := hletter n m (Nat.le_trans hns.2.1 hle) (Nat.le_trans hms.2.1 hle) hfirst
          rw [heq, ih hrest hns.2.2 hms.2.2 hothers]

/-- The engine that gives the numbers it was handed, where they are within the bounds. -/
def Engine.script : Engine (List Nat) where
  draw := fun lo hi ns => (max lo (min hi (ns.headD lo)), ns.tail)
  bounded := fun _ h => ⟨Nat.le_max_left _ _, Nat.max_le.mpr ⟨h, Nat.min_le_left _ _⟩⟩

theorem draws_script (h : Answers slots ns) : draws Engine.script slots ns = ns := by
  induction slots generalizing ns with
  | nil => exact h.symm
  | cons slot slots ih =>
    cases slot with
    | fixed a => exact ih h
    | drawn lo hi =>
      cases ns with
      | nil => exact h.elim
      | cons n ns =>
        obtain ⟨hlo, hhi, hrest⟩ := h
        have hfirst : (Engine.script.draw lo hi (n :: ns)).1 = n := by
          show max lo (min hi n) = n
          omega
        rw [draws, hfirst]
        exact congrArg _ (ih hrest)

end

end TextTemplate
