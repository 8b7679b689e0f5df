import Mathlib.Data.List.Basic

/- Ranges of cells that can be read or not.

   A memory seen from some address is a function `cells : Nat → Option β`: a cell has a
   value, or cannot be read. `read` reads a range of it, whole or not at all.

   `read_add` splits a range in two; `read_slice` says that what is read of a part of a
   range is that part of what is read of the range, and `read_overlap` compares two ranges
   of which one ends inside the other. `blocks` reads block by block, up to the first block
   that cannot be read. -/
namespace CellRange

variable {β : Type} {cells : Nat → Option β} {i n k : Nat} {bs : List β}

/-- The `n` cells from `i` on, if all of them can be read. -/
def read (cells : Nat → Option β) : Nat → Nat → Option (List β)
  | _, 0 => some []
  | i, n + 1 => (cells i).bind fun b => (read cells (i + 1) n).map (b :: ·)

/-- The cells of `n` blocks from `i` on, up to the first block that cannot be read. -/
def blocks (cells : Nat → Option β) (size : Nat) : Nat → Nat → List β
  | _, 0 => []
  | i, n + 1 =>
    match read cells i size with
    | none => []
    | some bs => bs ++ blocks cells size (i + size) n

@[simp] theorem read_zero : read cells i 0 = some [] := rfl

theorem read_succ : read cells i (n + 1) = (cells i).bind fun b => (read cells (i + 1) n).map (b :: ·) := rfl

theorem read_length (h : read cells i n = some bs) : bs.length = n := by
  induction n generalizing i bs with
  | zero =>
    obtain rfl : [] = bs := Option.some.inj h
    rfl
  | succ n ih =>
    rw [read_succ] at h
    obtain ⟨b, -, hrest⟩ := Option.bind_eq_some_iff.mp h
    obtain ⟨rest, hread, rfl⟩ := Option.map_eq_some_iff.mp hrest
    rw [List.length_cons, ih hread]

theorem read_add : read cells i (n + k) = some bs ↔
    ∃ xs ys, read cells i n = some xs ∧ read cells (i + n) k = some ys ∧ bs = xs ++ ys := by
  induction n generalizing i bs with
  | zero =>
    rw [Nat.zero_add, read_zero, Nat.add_zero]
    refine ⟨fun h => ⟨[], bs, rfl, h, rfl⟩, ?_⟩
    rintro ⟨xs, ys, hxs, hys, rfl⟩
    obtain rfl := Option.some.inj hxs
    exact hys
  | succ n ih =>
    rw [Nat.add_right_comm, read_succ, read_succ]
    have hplace : i + 1 + n = i + (n + 1) := by omega
    refine ⟨?_, ?_⟩
    · intro h
      obtain ⟨b, hb, hrest⟩ := Option.bind_eq_some_iff.mp h
      obtain ⟨rest, hread, rfl⟩ := Option.map_eq_some_iff.mp hrest
      obtain ⟨xs, ys, hxs, hys, rfl⟩ := ih.mp hread
      rw [hplace] at hys
      exact ⟨b :: xs, ys, by rw [hb, Option.bind_some, hxs, Option.map_some], hys, rfl⟩
    · rintro ⟨xs, ys, hxs, hys, rfl⟩
      obtain ⟨b, hb, hrest⟩ := Option.bind_eq_some_iff.mp hxs
      obtain ⟨rest, hread, rfl⟩ := Option.map_eq_some_iff.mp hrest
      rw [← hplace] at hys
      rw [hb, Option.bind_some, ih.mpr ⟨rest, ys, hread, hys, rfl⟩]
      rfl

theorem read_slice (h : read cells i n = some bs) {j : Nat} (hle : j + k ≤ n) :
    read cells (i + j) k = some ((bs.drop j).take k) := by
  obtain ⟨rest, rfl⟩ : ∃ rest, n = j + (k + rest) := ⟨n - (j + k), by omega⟩
  obtain ⟨xs, ys, hxs, hys, rfl⟩ := read_add.mp h
  obtain ⟨us, vs, hus, -, rfl⟩ := read_add.mp hys
  rw [hus, List.drop_left' (read_length hxs), List.take_left' (read_length hus)]

/-- Where a range ends inside another, both have the same cells up to there. -/
theorem read_overlap {whole : List β} (hwhole : read cells 0 n = some whole) (h : read cells i k = some bs)
    (hle : i ≤ n) (hn : n ≤ i + k) : bs.take (n - i) = whole.drop i := by
  have hpart := read_slice h (j := 0) (k := n - i) (by omega)
  have hrest := read_slice hwhole (j := i) (k := n - i) (by omega)
  rw [Nat.zero_add, List.take_of_length_le (by simp [read_length hwhole])] at hrest
  rw [Nat.add_zero, hrest, List.drop_zero] at hpart
  exact (Option.some.inj hpart).symm

theorem read_shift (cells : Nat → Option β) (i n : Nat) : read (fun j => cells (i + j)) 0 n = read cells i n := by
  have hshift (j : Nat) : read (fun j => cells (i + j)) j n = read cells (i + j) n := by
    induction n generalizing j with
    | zero => rfl
    | succ n ih => rw [read_succ, read_succ, ih, Nat.add_assoc]
  exact hshift 0

theorem blocks_unreadable (h : read cells i k = none) : blocks cells k i n = [] := by
  cases n with
  | zero => rfl
  | succ n => rw [blocks, h]

theorem blocks_readable (h : read cells i k = some bs) : blocks cells k i (n + 1) = bs ++ blocks cells k (i + k) n := by
  rw [blocks, h]

end CellRange
