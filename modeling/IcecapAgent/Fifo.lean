import IcecapAgent.StepRun

/- A queue that remembers what passed through it.

   This is what a queue shared by threads is for: what was taken out so far,
   followed by what waits, is what was put in, in order. The equation is a field
   of the queue, so a queue that lost, doubled or reordered anything cannot be
   built; a model of a program's queue is shown right by simulating this one. -/

/-- A first-in first-out queue with its history. -/
structure Fifo (α : Type) where
  entered : List α
  left : List α
  waiting : List α
  conserved : left ++ waiting = entered

namespace Fifo
open StepRun

variable {α : Type}

/-- The queue before anything entered it, except what waits in it from the start. -/
def starting (waiting : List α) : Fifo α := ⟨waiting, [], waiting, rfl⟩

inductive Op (α : Type) where
  | push (x : α)
  | pop
  | takeAll

def push (q : Fifo α) (x : α) : Fifo α :=
  ⟨q.entered ++ [x], q.left, q.waiting ++ [x], by rw [← List.append_assoc, q.conserved]⟩

/-- Everything that waits leaves, in order. -/
def takeAll (q : Fifo α) : Fifo α :=
  ⟨q.entered, q.left ++ q.waiting, [], by rw [List.append_nil, q.conserved]⟩

/-- The front leaves; impossible on an empty queue. -/
def pop (q : Fifo α) : Option (Fifo α) :=
  match h : q.waiting with
  | [] => none
  | x :: rest => some ⟨q.entered, q.left ++ [x], rest, by rw [← q.conserved, h]; simp⟩

/-- One operation on the queue. -/
def step (q : Fifo α) : Op α → Option (Fifo α)
  | .push x => some (q.push x)
  | .pop => q.pop
  | .takeAll => some q.takeAll

/-- A state of a program that holds the queue's content and whose history is the queue's. -/
structure Models (q : Fifo α) (entered left waiting : List α) : Prop where
  entered : q.entered = entered
  left : q.left = left
  waiting : q.waiting = waiting

variable {q : Fifo α} {entered left waiting : List α}

theorem Models.conserved (h : q.Models entered left waiting) : left ++ waiting = entered := by
  rw [← h.left, ← h.waiting, ← h.entered, q.conserved]

theorem models_starting (waiting : List α) : (starting waiting).Models waiting [] waiting := ⟨rfl, rfl, rfl⟩

/-! ## One operation of a program on its queue is one operation here -/

theorem Models.still (h : q.Models entered left waiting) :
    ∃ ops q', run step q ops = some q' ∧ q'.Models entered left waiting :=
  ⟨[], q, rfl, h⟩

theorem Models.push (h : q.Models entered left waiting) (x : α) :
    ∃ ops q', run step q ops = some q' ∧ q'.Models (entered ++ [x]) left (waiting ++ [x]) :=
  ⟨[.push x], q.push x, rfl, by rw [← h.entered]; rfl, h.left, by rw [← h.waiting]; rfl⟩

theorem Models.pushAll (h : q.Models entered left waiting) (xs : List α) :
    ∃ ops q', run step q ops = some q' ∧ q'.Models (entered ++ xs) left (waiting ++ xs) := by
  induction xs generalizing q entered waiting with
  | nil => simpa using h.still
  | cons x xs ih =>
    obtain ⟨ops₁, q₁, hrun₁, h₁⟩ := h.push x
    obtain ⟨ops₂, q₂, hrun₂, h₂⟩ := ih h₁
    refine ⟨ops₁ ++ ops₂, q₂, run_append hrun₁ hrun₂, ?_⟩
    simpa using h₂

theorem Models.takeAll (h : q.Models entered left waiting) :
    ∃ ops q', run step q ops = some q' ∧ q'.Models entered (left ++ waiting) [] :=
  ⟨[.takeAll], q.takeAll, rfl, h.entered, by rw [← h.left, ← h.waiting]; rfl, rfl⟩

theorem Models.pop {x : α} (h : q.Models entered left (x :: waiting)) :
    ∃ ops q', run step q ops = some q' ∧ q'.Models entered (left ++ [x]) waiting := by
  obtain ⟨_, _, _, hc⟩ := q
  obtain ⟨rfl, rfl, rfl⟩ := h
  exact ⟨[.pop], ⟨_, _, _, by simpa using hc⟩, rfl, rfl, rfl, rfl⟩

end Fifo
