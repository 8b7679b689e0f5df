import Mathlib.Logic.Function.Basic
import IcecapAgent.Ledger

/- The wrappers of `raii_wrappers.hpp`: an object that owns a handle.

   `D3D9Device` and `D3D9DeviceWrapper` own a reference to a COM object, `ThreadHandle` owns
   a thread handle. The three classes differ in which handles are valid and in what gives a
   handle back; a handle that is not valid is held and never given back. They cannot be
   copied, and a move leaves a null handle behind.

   A program declares, moves, assigns, uses and destroys objects, in any order. What it does
   with handles is read as entries of a ledger.

   `wrappers_own` — if every constructor is given a handle that no object owns, then no
   handle is used after it was given back or given back twice, what is not given back yet
   is what the objects alive hold, and when there are none left everything is given back. -/
namespace Icecap.Raii
open StepRun Ledger

/-- What is particular to a class: the handles it takes for valid. -/
structure WrapperClass (H : Type) where
  null : H
  valid : H → Bool
  null_invalid : valid null = false

/-- `D3D9Device`; `Release` gives the reference back. -/
def d3d9Device : WrapperClass UInt32 := ⟨0, (· != 0), rfl⟩

/-- `D3D9DeviceWrapper`; `Release` gives the reference back. -/
def d3d9DeviceWrapper : WrapperClass UInt32 := ⟨0, (· != 0), rfl⟩

/-- `ThreadHandle`; `CloseHandle` gives the handle back, unless it is `INVALID_HANDLE_VALUE`. -/
def threadHandle : WrapperClass UInt32 := ⟨0, fun h => h != 0 && h != 0xFFFFFFFF, rfl⟩

/-- The objects that are alive with the handle each holds, and the entries made so far. -/
structure Wrappers (X H : Type) where
  objects : X → Option H
  entries : List (Entry H)

/-- A statement about objects named `X`. -/
inductive WrapperAct (X H : Type) where
  /-- the constructor from a handle -/
  | construct (x : X) (h : H)
  /-- the move constructor, `x` from `y` -/
  | moveConstruct (x y : X)
  /-- the move assignment, `x` from `y` -/
  | moveAssign (x y : X)
  /-- a call through the handle: `operator->`, or `wait` -/
  | use (x : X)
  /-- the destructor -/
  | destroy (x : X)

section
variable {X H : Type}

/-- The entry where the handle is valid. -/
def WrapperClass.entry (cls : WrapperClass H) (h : H) (e : H → Entry H) : List (Entry H) :=
  if cls.valid h then [e h] else []

/-- No objects. -/
def Wrappers.empty : Wrappers X H := ⟨fun _ => none, []⟩

/-- A statement; `none` where the language allows none: an object is constructed once, and
used and destroyed while it is alive. -/
def wrapperStep [DecidableEq X] (cls : WrapperClass H) (s : Wrappers X H) : WrapperAct X H → Option (Wrappers X H)
  | .construct x h =>
    match s.objects x with
    | some _ => none
    | none => some ⟨Function.update s.objects x (some h), s.entries ++ cls.entry h .acquire⟩
  | .moveConstruct x y =>
    match s.objects x, s.objects y with
    | none, some h => some { s with objects := Function.update (Function.update s.objects x (some h)) y (some cls.null) }
    | _, _ => none
  | .moveAssign x y =>
    match s.objects x, s.objects y with
    | some old, some h =>
      if x = y then some s
      else
        some ⟨Function.update (Function.update s.objects x (some h)) y (some cls.null),
          s.entries ++ cls.entry old .release⟩
    | _, _ => none
  | .use x =>
    match s.objects x with
    | some h => some { s with entries := s.entries ++ cls.entry h .use }
    | none => none
  | .destroy x =>
    match s.objects x with
    | some h => some ⟨Function.update s.objects x none, s.entries ++ cls.entry h .release⟩
    | none => none

/-- A constructor is given a handle that no object owns. -/
def OwnedOnce (cls : WrapperClass H) (s : Wrappers X H) : WrapperAct X H → Prop
  | .construct _ h => cls.valid h = true → ∀ x, s.objects x ≠ some h
  | _ => True

/-! ## The invariant -/

/-- The handle is valid, and an object owns it. -/
def Wrappers.Owns (cls : WrapperClass H) (s : Wrappers X H) (h : H) : Prop :=
  cls.valid h = true ∧ ∃ x, s.objects x = some h

/-- What is not given back is owned, by one object each. -/
structure Wrappers.Inv [DecidableEq H] (cls : WrapperClass H) (s : Wrappers X H) (held : Finset H) : Prop where
  books : run enter ∅ s.entries = some held
  owned : ∀ h, h ∈ held ↔ s.Owns cls h
  once : ∀ x y h, cls.valid h = true → s.objects x = some h → s.objects y = some h → x = y

variable [DecidableEq X] [DecidableEq H] {cls : WrapperClass H} {s s' : Wrappers X H} {held : Finset H}

omit [DecidableEq X] in
theorem empty_inv : (Wrappers.empty : Wrappers X H).Inv cls ∅ := by
  refine ⟨rfl, ?_, ?_⟩
  · simp [Wrappers.Owns, Wrappers.empty]
  · simp [Wrappers.empty]

omit [DecidableEq H] in
theorem exists_update {f : X → Option H} {x : X} {v : Option H} {h : H} :
    (∃ y, Function.update f x v y = some h) ↔ v = some h ∨ ∃ y, y ≠ x ∧ f y = some h := by
  refine ⟨?_, ?_⟩
  · rintro ⟨y, hy⟩
    by_cases hyx : y = x
    · subst hyx
      exact .inl (by simpa using hy)
    · exact .inr ⟨y, hyx, by simpa [hyx] using hy⟩
  · rintro (rfl | ⟨y, hyx, hy⟩)
    · exact ⟨x, Function.update_self _ _ _⟩
    · exact ⟨y, by simpa [hyx] using hy⟩

omit [DecidableEq X] [DecidableEq H] in
theorem exists_ne {f : X → Option H} {x : X} {h : H} (hx : f x ≠ some h) :
    (∃ y, y ≠ x ∧ f y = some h) ↔ ∃ y, f y = some h :=
  ⟨fun ⟨y, _, hy⟩ => ⟨y, hy⟩, fun ⟨y, hy⟩ => ⟨y, fun hyx => hx (hyx ▸ hy), hy⟩⟩

theorem construct_inv {x : X} {h : H} (hinv : s.Inv cls held) (hnew : s.objects x = none)
    (hfree : cls.valid h = true → ∀ y, s.objects y ≠ some h) :
    ∃ held', Wrappers.Inv cls ⟨Function.update s.objects x (some h), s.entries ++ cls.entry h .acquire⟩ held' := by
  obtain ⟨hbooks, howned, honce⟩ := hinv
  have honce' : ∀ y z h', cls.valid h' = true → Function.update s.objects x (some h) y = some h' →
      Function.update s.objects x (some h) z = some h' → y = z := by
    grind [Function.update_apply]
  have hothers (h' : H) : (∃ y, y ≠ x ∧ s.objects y = some h') ↔ ∃ y, s.objects y = some h' :=
    exists_ne (by simp [hnew])
  by_cases hvalid : cls.valid h = true
  · have hout : h ∉ held := by
      rw [howned]
      rintro ⟨-, y, hy⟩
      exact hfree hvalid y hy
    refine ⟨insert h held, ?_, fun h' => ?_, honce'⟩
    · refine run_append hbooks ?_
      simp [WrapperClass.entry, hvalid, run, enter, hout]
    · rw [Finset.mem_insert, howned, Wrappers.Owns, Wrappers.Owns, exists_update, hothers]
      grind
  · refine ⟨held, ?_, fun h' => ?_, honce'⟩
    · simpa [WrapperClass.entry, hvalid] using hbooks
    · rw [howned, Wrappers.Owns, Wrappers.Owns, exists_update, hothers]
      grind

/-- The objects after `x` took the handle of `y`. -/
def moved (cls : WrapperClass H) (f : X → Option H) (x y : X) (h : H) : X → Option H :=
  Function.update (Function.update f x (some h)) y (some cls.null)

omit [DecidableEq H] in
theorem exists_moved {f : X → Option H} {x y : X} {h h' : H} (hxy : x ≠ y) (hy : f y = some h)
    (hvalid : cls.valid h' = true) :
    (∃ z, moved cls f x y h z = some h') ↔ ∃ z, z ≠ x ∧ f z = some h' := by
  have hnull : cls.null ≠ h' := by
    rintro rfl
    simp [cls.null_invalid] at hvalid
  unfold moved
  rw [exists_update]
  refine ⟨?_, ?_⟩
  · rintro (hnone | ⟨z, hzy, hz⟩)
    · exact absurd (Option.some.inj hnone) hnull
    · by_cases hzx : z = x
      · subst hzx
        obtain rfl : h = h' := by simpa using hz
        exact ⟨y, Ne.symm hxy, hy⟩
      · exact ⟨z, hzx, by simpa [hzx] using hz⟩
  · rintro ⟨z, hzx, hz⟩
    right
    by_cases hzy : z = y
    · subst hzy
      obtain rfl : h = h' := Option.some.inj (hy.symm.trans hz)
      exact ⟨x, hxy, Function.update_self _ _ _⟩
    · exact ⟨z, hzy, by simpa [hzx] using hz⟩

omit [DecidableEq H] in
theorem once_moved {f : X → Option H} {x y : X} {h : H} (hy : f y = some h)
    (honce : ∀ z z' h', cls.valid h' = true → f z = some h' → f z' = some h' → z = z') (z z' : X) (h' : H)
    (hvalid : cls.valid h' = true) (hz : moved cls f x y h z = some h') (hz' : moved cls f x y h z' = some h') :
    z = z' := by
  have hnull : cls.null ≠ h' := by
    rintro rfl
    simp [cls.null_invalid] at hvalid
  unfold moved at hz hz'
  grind [Function.update_apply]

omit [DecidableEq X] in
theorem release_books {x : X} {old : H} (hinv : s.Inv cls held) (hx : s.objects x = some old) :
    ∃ held', run enter ∅ (s.entries ++ cls.entry old .release) = some held' ∧
      ∀ h, h ∈ held' ↔ cls.valid h = true ∧ ∃ z, z ≠ x ∧ s.objects z = some h := by
  obtain ⟨hbooks, howned, honce⟩ := hinv
  by_cases hvalid : cls.valid old = true
  · have hheld : old ∈ held := (howned old).mpr ⟨hvalid, x, hx⟩
    refine ⟨held.erase old, ?_, fun h => ?_⟩
    · refine run_append hbooks ?_
      simp [WrapperClass.entry, hvalid, run, enter, hheld]
    · rw [Finset.mem_erase, howned]
      refine ⟨?_, ?_⟩
      · rintro ⟨hne, hv, z, hz⟩
        refine ⟨hv, z, ?_, hz⟩
        rintro rfl
        exact hne (Option.some.inj (hz.symm.trans hx))
      · rintro ⟨hv, z, hzx, hz⟩
        refine ⟨?_, hv, z, hz⟩
        rintro rfl
        exact hzx (honce z x h hv hz hx)
  · refine ⟨held, by simpa [WrapperClass.entry, hvalid] using hbooks, fun h => ?_⟩
    rw [howned]
    refine ⟨?_, ?_⟩
    · rintro ⟨hv, z, hz⟩
      refine ⟨hv, z, ?_, hz⟩
      rintro rfl
      exact hvalid (Option.some.inj (hz.symm.trans hx) ▸ hv)
    · rintro ⟨hv, z, -, hz⟩
      exact ⟨hv, z, hz⟩

theorem wrapperStep_inv {a : WrapperAct X H} (hinv : s.Inv cls held) (hown : OwnedOnce cls s a)
    (hs : wrapperStep cls s a = some s') : ∃ held', s'.Inv cls held' := by
  cases a with
  | construct x h =>
    cases hx : s.objects x with
    | some _ => simp [wrapperStep, hx] at hs
    | none =>
      simp only [wrapperStep, hx, Option.some.injEq] at hs
      subst hs
      exact construct_inv hinv hx hown
  | moveConstruct x y =>
    cases hx : s.objects x with
    | some _ => simp [wrapperStep, hx] at hs
    | none =>
      cases hy : s.objects y with
      | none => simp [wrapperStep, hx, hy] at hs
      | some h =>
        simp only [wrapperStep, hx, hy, Option.some.injEq] at hs
        subst hs
        have hxy : x ≠ y := by
          rintro rfl
          simp [hx] at hy
        refine ⟨held, hinv.books, fun h' => ?_, once_moved hy hinv.once⟩
        rw [hinv.owned]
        exact and_congr_right fun hv => ((exists_moved hxy hy hv).trans (exists_ne (by simp [hx]))).symm
  | moveAssign x y =>
    cases hx : s.objects x with
    | none => simp [wrapperStep, hx] at hs
    | some old =>
      cases hy : s.objects y with
      | none => simp [wrapperStep, hx, hy] at hs
      | some h =>
        by_cases hxy : x = y
        · -- a self-assignment does nothing
          simp only [wrapperStep, hx, hy, if_pos hxy, Option.some.injEq] at hs
          subst hs
          exact ⟨held, hinv⟩
        · simp only [wrapperStep, hx, hy, if_neg hxy, Option.some.injEq] at hs
          subst hs
          obtain ⟨held', hbooks, howned⟩ := release_books hinv hx
          refine ⟨held', hbooks, fun h' => ?_, once_moved hy hinv.once⟩
          rw [howned]
          exact and_congr_right fun hv => (exists_moved hxy hy hv).symm
  | use x =>
    cases hx : s.objects x with
    | none => simp [wrapperStep, hx] at hs
    | some h =>
      simp only [wrapperStep, hx, Option.some.injEq] at hs
      subst hs
      refine ⟨held, ?_, hinv.owned, hinv.once⟩
      by_cases hvalid : cls.valid h = true
      · refine run_append hinv.books ?_
        have hheld : h ∈ held := (hinv.owned h).mpr ⟨hvalid, x, hx⟩
        simp [WrapperClass.entry, hvalid, run, enter, hheld]
      · simpa [WrapperClass.entry, hvalid] using hinv.books
  | destroy x =>
    cases hx : s.objects x with
    | none => simp [wrapperStep, hx] at hs
    | some h =>
      simp only [wrapperStep, hx, Option.some.injEq] at hs
      subst hs
      obtain ⟨held', hbooks, howned⟩ := release_books hinv hx
      refine ⟨held', hbooks, fun h' => ?_, ?_⟩
      · rw [howned, Wrappers.Owns, exists_update]
        simp
      · have honce := hinv.once
        intro y z h' hv hy hz
        grind [Function.update_apply]

/-- **A handle has one owner**: whatever a program does with its objects, if every
constructor is given a handle that no object owns, then no handle is used after it was
given back or given back twice, what is not given back yet is what the objects alive hold,
each by itself, and without objects every handle was given back as often as it was taken. -/
theorem wrappers_own {acts : List (WrapperAct X H)} {t : Wrappers X H}
    (hrun : run (wrapperStep cls) .empty acts = some t) (hown : Along (wrapperStep cls) (OwnedOnce cls) .empty acts) :
    (∃ held, run enter ∅ t.entries = some held ∧ ∀ h, h ∈ held ↔ t.Owns cls h) ∧
      (∀ x y h, cls.valid h = true → t.objects x = some h → t.objects y = some h → x = y) ∧
      ((∀ x, t.objects x = none) → ∀ h, t.entries.count (.acquire h) = t.entries.count (.release h)) := by
  let Inv (s : Wrappers X H) : Prop := ∃ held, s.Inv cls held
  have hinv : Inv t :=
    run_invariant_along (fun _ _ _ ⟨_, h⟩ ho hs => wrapperStep_inv h ho hs) hrun hown ⟨∅, empty_inv⟩
  obtain ⟨held, hbooks, howned, honce⟩ := hinv
  refine ⟨⟨held, hbooks, howned⟩, honce, fun hgone h => ?_⟩
  have hout : h ∉ held := by
    rw [howned]
    rintro ⟨-, x, hx⟩
    simp [hgone x] at hx
  simpa [hout] using run_balance hbooks h

end

/-- A thread handle is handed on and back; the object it was moved from is destroyed first. -/
def handsOn : List (WrapperAct Nat UInt32) :=
  [.construct 0 12, .moveConstruct 1 0, .use 1, .moveAssign 0 1, .destroy 1, .destroy 0]

theorem wrappers_own_handsOn :
    ∃ t, run (wrapperStep threadHandle) .empty handsOn = some t ∧
      t.entries = [.acquire 12, .use 12, .release 12] ∧
      (∃ held, run enter ∅ t.entries = some held ∧ ∀ h, h ∈ held ↔ t.Owns threadHandle h) ∧
      (∀ x y h, threadHandle.valid h = true → t.objects x = some h → t.objects y = some h → x = y) ∧
      ((∀ x, t.objects x = none) → ∀ h, t.entries.count (.acquire h) = t.entries.count (.release h)) := by
  refine ⟨_, rfl, rfl, wrappers_own (show run (wrapperStep threadHandle) .empty handsOn = some _ from rfl) ?_⟩
  refine ⟨fun _ x => by simp [Wrappers.empty], fun s _ => ?_⟩
  exact ⟨trivial, fun _ _ => ⟨trivial, fun _ _ => ⟨trivial, fun _ _ => ⟨trivial, fun _ _ => ⟨trivial, fun _ _ => trivial⟩⟩⟩⟩⟩

end Icecap.Raii
