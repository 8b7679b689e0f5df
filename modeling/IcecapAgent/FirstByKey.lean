import Mathlib.Data.List.Nodup

/- Lists from which the later entries of a repeated key are dropped.

   A container that refuses a second entry under a key holds, after any insertions, the
   first entry of every key in the order in which the keys first came (`firsts`). One
   more insertion adds the entry or changes nothing (`firsts_append`), keys are distinct
   (`firsts_keys_nodup`), so a look-up finds the one entry of its key
   (`find_eq_some_of_nodup`), and that is the entry that came first (`find_firsts`). -/
namespace FirstByKey

variable {α κ : Type} [DecidableEq κ] (key : α → κ)

/-- The first entry of each key, in order. -/
def firsts (xs : List α) : List α := xs.eraseDupsBy fun x y => key x == key y

theorem firsts_cons (x : α) (xs : List α) :
    firsts key (x :: xs) = x :: firsts key (xs.filter fun y => key y ≠ key x) := by
  simp [firsts, List.eraseDupsBy_cons]

/-- Entries are kept or dropped by their first occurrence, so the induction is on what is
left after a key is dropped from the rest. -/
theorem firsts_induction {P : List α → Prop} (nil : P [])
    (cons : ∀ x xs, P (xs.filter fun y => key y ≠ key x) → P (x :: xs)) : ∀ xs, P xs
  | [] => nil
  | x :: xs => cons x xs (firsts_induction nil cons _)
termination_by xs => xs.length
decreasing_by exact Nat.lt_succ_of_le (List.length_filter_le _ _)

theorem firsts_append (xs : List α) (y : α) :
    firsts key (xs ++ [y]) =
      if xs.any (key · = key y) then firsts key xs else firsts key xs ++ [y] := by
  induction xs using firsts_induction key with
  | nil => simp [firsts, List.eraseDupsBy_cons]
  | cons x xs ih =>
    rw [List.cons_append, firsts_cons, firsts_cons, List.filter_append]
    by_cases hkey : key x = key y
    · simp [hkey]
    · have hdrop : [y].filter (fun z => key z ≠ key x) = [y] := by simp [Ne.symm hkey]
      have hany : (xs.filter fun z => key z ≠ key x).any (key · = key y) = xs.any (key · = key y) := by
        rw [List.any_filter]
        congr 1
        funext z
        by_cases hz : key z = key y
        · simp [hz, Ne.symm hkey]
        · simp [hz]
      rw [hdrop, ih, hany, List.any_cons]
      by_cases hex : xs.any (key · = key y) = true
      · simp [hex]
      · simp [hex, hkey]

theorem firsts_sublist (xs : List α) : (firsts key xs).Sublist xs := by
  induction xs using firsts_induction key with
  | nil => simp [firsts]
  | cons x xs ih =>
    rw [firsts_cons]
    apply List.Sublist.cons_cons
    exact ih.trans List.filter_sublist

theorem firsts_keys_nodup (xs : List α) : ((firsts key xs).map key).Nodup := by
  induction xs using firsts_induction key with
  | nil => simp [firsts]
  | cons x xs ih =>
    rw [firsts_cons, List.map_cons, List.nodup_cons]
    refine ⟨?_, ih⟩
    intro hmem
    obtain ⟨y, hy, hkey⟩ := List.mem_map.mp hmem
    have hfilter := (firsts_sublist key _).subset hy
    simp [hkey] at hfilter

theorem firsts_nodup (xs : List α) : (firsts key xs).Nodup := (firsts_keys_nodup key xs).of_map

theorem find_eq_some_of_nodup {xs : List α} (hnodup : (xs.map key).Nodup) {k : κ} {x : α} :
    xs.find? (key · = k) = some x ↔ x ∈ xs ∧ key x = k := by
  refine ⟨?_, ?_⟩
  · intro h
    exact ⟨List.mem_of_find?_eq_some h, by simpa using List.find?_some h⟩
  · rintro ⟨hmem, rfl⟩
    induction xs with
    | nil => simp at hmem
    | cons y ys ih =>
      rw [List.map_cons, List.nodup_cons] at hnodup
      rcases List.mem_cons.mp hmem with rfl | hmem
      · simp
      · have hne : key y ≠ key x := by
          intro heq
          exact hnodup.1 (heq ▸ List.mem_map.mpr ⟨x, hmem, rfl⟩)
        rw [List.find?_cons_of_neg (by simpa using hne)]
        exact ih hnodup.2 hmem

theorem find_firsts (xs : List α) (k : κ) :
    (firsts key xs).find? (key · = k) = xs.find? (key · = k) := by
  induction xs using firsts_induction key with
  | nil => simp [firsts]
  | cons x xs ih =>
    rw [firsts_cons]
    by_cases hkey : key x = k
    · simp [hkey]
    · rw [List.find?_cons_of_neg (by simpa using hkey), List.find?_cons_of_neg (by simpa using hkey), ih,
        List.find?_filter]
      congr 1
      funext z
      by_cases hz : key z = k
      · simp [hz, Ne.symm hkey]
      · simp [hz]

end FirstByKey
