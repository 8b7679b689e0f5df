import Mathlib.Data.List.Chain
import Mathlib.Data.Option.Basic
import Mathlib.Logic.Function.Basic
import IcecapAgent.FirstByKey
import IcecapAgent.Platform
import IcecapAgent.StepRun

/- Hooks and their registry.

   A hook is a `BaseHook`: it keeps a flag, and its `install` and `uninstall` call the
   virtual functions of its class only when the flag says there is something to do. What
   a class does is a parameter (`HookClass`): a name, fixed for each hook, and two
   functions on some world `W` that say whether they succeeded. They do not touch flags:
   no class of the source calls `setInstalled`.

   The registry holds pointers, which may be null; a loop that meets a null pointer
   dereferences it, and then there is no outcome.

   1. `registry_represents` — after any calls, the two containers of a registry describe
      the same hooks: the first one registered under each name, in that order;
   2. `batches_alternate` — `installAllHooks` and `uninstallAllHooks` call each hook that
      needs it once, in order and in reverse order, whatever fails, and over any calls
      the successful ones of each hook alternate. -/
namespace Icecap.Hooks
open FirstByKey StepRun

/-- What a class derived from `BaseHook` adds to it, for hook objects `H`. -/
structure HookClass (H W : Type) where
  name : H → Bytes
  doInstall : H → W → Bool × W
  doUninstall : H → W → Bool × W

inductive HookOp where
  | install
  | uninstall
  deriving DecidableEq, Repr

/-- The value of `m_installed` after the operation succeeded. -/
def HookOp.flag : HookOp → Bool
  | .install => true
  | .uninstall => false

/-- A call of `doInstall` or `doUninstall`. -/
structure HookCall (H : Type) where
  hook : H
  op : HookOp
  success : Bool
  deriving DecidableEq, Repr

/-- The hook objects: their flags, what they work on, and the calls made so far. -/
structure HookState (H W : Type) where
  installed : H → Bool
  world : W
  calls : List (HookCall H)

section
variable {H W : Type}

/-! ## `BaseHook` -/

/-- The virtual function of an operation. -/
def HookClass.perform (cls : HookClass H W) : HookOp → H → W → Bool × W
  | .install => cls.doInstall
  | .uninstall => cls.doUninstall

/-- `BaseHook::install` and `BaseHook::uninstall`: nothing to do when the flag is as the
operation leaves it. -/
def change [DecidableEq H] (cls : HookClass H W) (op : HookOp) (hook : H) (s : HookState H W) : Bool × HookState H W :=
  if s.installed hook = op.flag then (true, s)
  else
    let (success, world) := cls.perform op hook s.world
    let s := { s with world, calls := s.calls ++ [⟨hook, op, success⟩] }
    if success then (true, { s with installed := Function.update s.installed hook op.flag }) else (false, s)

/-- `BaseHook::install`. -/
def install [DecidableEq H] (cls : HookClass H W) : H → HookState H W → Bool × HookState H W := change cls .install

/-- `BaseHook::uninstall`. -/
def uninstall [DecidableEq H] (cls : HookClass H W) : H → HookState H W → Bool × HookState H W := change cls .uninstall

/-! ## `HookRegistry` -/

/-- `HookRegistry`. A pointer is `none` when it is null; `hooksByName` has no entry where
it is `none`. -/
structure HookRegistry (H : Type) where
  hooks : List (Option H)
  hooksByName : Bytes → Option (Option H)

/-- As constructed. -/
def HookRegistry.empty : HookRegistry H := ⟨[], fun _ => none⟩

/-- `HookRegistry::registerHook`. -/
def registerHook (cls : HookClass H W) (r : HookRegistry H) (hook : Option H) : HookRegistry H :=
  match hook with
  | none => r
  | some h =>
    if (r.hooksByName (cls.name h)).isSome then r
    else
      { hooks := r.hooks ++ [hook]
        hooksByName := Function.update r.hooksByName (cls.name h) (some hook) }

/-- The loop of `installAllHooks` and `uninstallAllHooks`; `none` when a null pointer is
dereferenced. -/
def changeAll [DecidableEq H] (cls : HookClass H W) (op : HookOp) (allSuccessful : Bool) :
    List (Option H) → HookState H W → Option (Bool × HookState H W)
  | [], s => some (allSuccessful, s)
  | none :: _, _ => none
  | some hook :: rest, s =>
    let (success, s) := change cls op hook s
    changeAll cls op (if success then allSuccessful else false) rest s

/-- `HookRegistry::installAllHooks`. -/
def installAllHooks [DecidableEq H] (cls : HookClass H W) (r : HookRegistry H) (s : HookState H W) :
    Option (Bool × HookState H W) :=
  changeAll cls .install true r.hooks s

/-- `HookRegistry::uninstallAllHooks`. -/
def uninstallAllHooks [DecidableEq H] (cls : HookClass H W) (r : HookRegistry H) (s : HookState H W) :
    Option (Bool × HookState H W) :=
  changeAll cls .uninstall true r.hooks.reverse s

/-- `HookRegistry::getInstalledHookCount`. -/
def getInstalledHookCount (r : HookRegistry H) (s : HookState H W) : Nat :=
  r.hooks.countP fun hook => hook.any s.installed

/-- `HookRegistry::getHook`. -/
def getHook (r : HookRegistry H) (name : Bytes) : Option H :=
  match r.hooksByName name with
  | some hook => hook
  | none => none

/-! ## Calls in any order -/

structure HookSystem (H W : Type) where
  registry : HookRegistry H
  state : HookState H W

inductive HookAct (H : Type) where
  | registerHook (hook : Option H)
  | installAllHooks
  | uninstallAllHooks
  | install (hook : H)
  | uninstall (hook : H)

def hookStep [DecidableEq H] (cls : HookClass H W) (s : HookSystem H W) : HookAct H → Option (HookSystem H W)
  | .registerHook hook => some { s with registry := registerHook cls s.registry hook }
  | .installAllHooks => (installAllHooks cls s.registry s.state).map fun r => { s with state := r.2 }
  | .uninstallAllHooks => (uninstallAllHooks cls s.registry s.state).map fun r => { s with state := r.2 }
  | .install hook => some { s with state := (install cls hook s.state).2 }
  | .uninstall hook => some { s with state := (uninstall cls hook s.state).2 }

/-- An empty registry, and hook objects in some state. -/
def HookSystem.starting (state : HookState H W) : HookSystem H W := ⟨.empty, state⟩

/-- Hook objects as constructed. -/
def HookState.fresh (world : W) : HookState H W := ⟨fun _ => false, world, []⟩

/-- The hooks registered, in order and as often as they were; null pointers are not
hooks. -/
def registrations (acts : List (HookAct H)) : List H :=
  acts.filterMap fun
    | .registerHook hook => hook
    | _ => none

/-! ## The representation of the registry -/

/-- Both containers are those of the hooks that were registered. -/
structure HookRegistry.Represents (cls : HookClass H W) (r : HookRegistry H) (registered : List H) : Prop where
  hooks : r.hooks = (firsts cls.name registered).map some
  byName : ∀ name, r.hooksByName name = (registered.find? (cls.name · = name)).map some

variable {cls : HookClass H W} {r : HookRegistry H} {registered : List H}

theorem registerHook_represents (h : r.Represents cls registered) (hook : Option H) :
    (registerHook cls r hook).Represents cls (registered ++ hook.toList) := by
  cases hook with
  | none => simpa [registerHook] using h
  | some hook =>
    have hknown : (r.hooksByName (cls.name hook)).isSome = registered.any (cls.name · = cls.name hook) := by
      rw [h.byName, Option.isSome_map, List.isSome_find?]
    simp only [registerHook, Option.toList_some]
    rw [hknown]
    by_cases hany : registered.any (cls.name · = cls.name hook) = true
    · rw [if_pos hany]
      refine ⟨by rw [firsts_append, if_pos hany, h.hooks], fun name => ?_⟩
      rw [h.byName, List.find?_append]
      by_cases hname : cls.name hook = name
      · -- the name has its first hook already
        rw [← List.isSome_find?] at hany
        obtain ⟨first, hfirst⟩ := Option.isSome_iff_exists.mp hany
        rw [← hname, hfirst]
        rfl
      · simp [hname]
    · rw [if_neg hany]
      refine ⟨by rw [firsts_append, if_neg hany, List.map_append, h.hooks]; rfl, fun name => ?_⟩
      dsimp only
      rw [List.find?_append]
      by_cases hname : cls.name hook = name
      · have hnone : registered.find? (cls.name · = name) = none := by
          rw [← Option.not_isSome_iff_eq_none, List.isSome_find?, ← hname]
          exact hany
        rw [← hname, Function.update_self, hname, hnone]
        simp [hname]
      · rw [Function.update_of_ne (Ne.symm hname), h.byName]
        simp [hname]

theorem empty_represents : (HookRegistry.empty : HookRegistry H).Represents cls [] :=
  ⟨by simp [HookRegistry.empty, firsts], by simp [HookRegistry.empty]⟩

theorem installedHookCount_eq {hooks : List H} (h : r.hooks = hooks.map some) (s : HookState H W) :
    getInstalledHookCount r s = hooks.countP s.installed := by
  rw [getInstalledHookCount, h, List.countP_map]
  rfl

/-! ## What a batch does -/

/-- What `install` or `uninstall` does to the whole batch of hooks `hooks`: the calls it
makes, in order, and the flags it leaves. -/
structure Batch (op : HookOp) (hooks : List H) (s s' : HookState H W) (made : List (HookCall H)) : Prop where
  calls : s'.calls = s.calls ++ made
  each : made.map (fun c => (c.hook, c.op)) = (hooks.filter (s.installed · ≠ op.flag)).map (·, op)
  called : ∀ c ∈ made, s'.installed c.hook = if c.success then op.flag else s.installed c.hook
  others : ∀ hook, (∀ c ∈ made, c.hook ≠ hook) → s'.installed hook = s.installed hook

variable {op : HookOp} {s s' : HookState H W} {hooks : List H} {made : List (HookCall H)}

theorem Batch.mem (h : Batch op hooks s s' made) {c : HookCall H} (hc : c ∈ made) :
    c.hook ∈ hooks ∧ s.installed c.hook ≠ op.flag := by
  have hpair : (c.hook, c.op) ∈ (hooks.filter (s.installed · ≠ op.flag)).map (·, op) := by
    rw [← h.each]
    exact List.mem_map.mpr ⟨c, hc, rfl⟩
  obtain ⟨hook, hmem, heq⟩ := List.mem_map.mp hpair
  obtain ⟨rfl, -⟩ := Prod.mk.inj heq
  simpa using hmem

/-- No call failed exactly when every hook has the flag of the operation afterwards. -/
theorem Batch.all_success (h : Batch op hooks s s' made) :
    made.all (·.success) = true ↔ ∀ hook ∈ hooks, s'.installed hook = op.flag := by
  rw [List.all_eq_true]
  refine ⟨?_, ?_⟩
  · intro hall hook hmem
    by_cases hcall : ∃ c ∈ made, c.hook = hook
    · obtain ⟨c, hc, rfl⟩ := hcall
      rw [h.called c hc, hall c hc, if_pos rfl]
    · have hnone : ∀ c ∈ made, c.hook ≠ hook := fun c hc heq => hcall ⟨c, hc, heq⟩
      rw [h.others hook hnone]
      by_contra hflag
      -- the hook needed a call, so it got one
      have hpair : (hook, op) ∈ made.map (fun c => (c.hook, c.op)) := by
        rw [h.each]
        exact List.mem_map.mpr ⟨hook, by simpa using ⟨hmem, hflag⟩, rfl⟩
      obtain ⟨c, hc, heq⟩ := List.mem_map.mp hpair
      exact hnone c hc (Prod.mk.inj heq).1
  · intro hall c hc
    obtain ⟨hmem, hflag⟩ := h.mem hc
    have hafter := hall c.hook hmem
    rw [h.called c hc] at hafter
    by_contra hfail
    rw [if_neg hfail] at hafter
    exact hflag hafter

theorem Batch.skip {hook : H} (h : Batch op hooks s s' made) (hflag : s.installed hook = op.flag) :
    Batch op (hook :: hooks) s s' made :=
  ⟨h.calls, by rw [h.each, List.filter_cons_of_neg (by simpa using hflag)], h.called, h.others⟩

variable [DecidableEq H]

/-- The state after a call of the virtual function. -/
def HookState.record (s : HookState H W) (op : HookOp) (hook : H) (success : Bool) (world : W) : HookState H W where
  installed := if success then Function.update s.installed hook op.flag else s.installed
  world := world
  calls := s.calls ++ [⟨hook, op, success⟩]

@[simp] theorem record_calls (success : Bool) (world : W) (hook : H) :
    (s.record op hook success world).calls = s.calls ++ [⟨hook, op, success⟩] := rfl

theorem record_installed_self (success : Bool) (world : W) (hook : H) :
    (s.record op hook success world).installed hook = if success then op.flag else s.installed hook := by
  cases success with
  | true => exact Function.update_self _ _ _
  | false => rfl

theorem record_installed_of_ne (success : Bool) (world : W) {hook other : H} (hne : other ≠ hook) :
    (s.record op hook success world).installed other = s.installed other := by
  cases success with
  | true => exact Function.update_of_ne hne _ _
  | false => rfl

theorem change_of_ne {hook : H} (hflag : s.installed hook ≠ op.flag) :
    change cls op hook s =
      ((cls.perform op hook s.world).1,
        s.record op hook (cls.perform op hook s.world).1 (cls.perform op hook s.world).2) := by
  rw [change, if_neg hflag]
  cases hp : cls.perform op hook s.world with
  | mk success world => cases success <;> rfl

theorem Batch.cons {hook : H} {success : Bool} {world : W}
    (h : Batch op hooks (s.record op hook success world) s' made)
    (hnew : hook ∉ hooks) (hflag : s.installed hook ≠ op.flag) :
    Batch op (hook :: hooks) s s' (⟨hook, op, success⟩ :: made) := by
  have hne {c : HookCall H} (hc : c ∈ made) : c.hook ≠ hook := by
    intro heq
    exact hnew (heq ▸ (h.mem hc).1)
  refine ⟨by rw [h.calls, record_calls, List.append_assoc]; rfl, ?_, ?_, ?_⟩
  · rw [List.map_cons, h.each, List.filter_cons_of_pos (by simpa using hflag), List.map_cons]
    congr 2
    apply List.filter_congr
    intro other hmem
    rw [record_installed_of_ne _ _ (fun heq : other = hook => hnew (heq ▸ hmem))]
  · intro c hc
    rcases List.mem_cons.mp hc with rfl | hc
    · rw [h.others hook fun c hc => hne hc, record_installed_self]
    · rw [h.called c hc, record_installed_of_ne _ _ (hne hc)]
  · intro other hother
    rw [h.others other fun c hc => hother c (List.mem_cons_of_mem _ hc)]
    exact record_installed_of_ne _ _ fun heq => hother _ List.mem_cons_self heq.symm

theorem changeAll_batch (cls : HookClass H W) (op : HookOp) {hooks : List H} (hnodup : hooks.Nodup) (ok : Bool)
    (s : HookState H W) :
    ∃ s' made, changeAll cls op ok (hooks.map some) s = some (ok && made.all (·.success), s') ∧
      Batch op hooks s s' made := by
  induction hooks generalizing ok s with
  | nil => exact ⟨s, [], by simp [changeAll], ⟨by simp, rfl, by simp, fun _ _ => rfl⟩⟩
  | cons hook hooks ih =>
    obtain ⟨hnew, hnodup⟩ := List.nodup_cons.mp hnodup
    rw [List.map_cons, changeAll]
    by_cases hflag : s.installed hook = op.flag
    · rw [change, if_pos hflag]
      obtain ⟨s', made, hrun, hbatch⟩ := ih hnodup ok s
      exact ⟨s', made, hrun, hbatch.skip hflag⟩
    · rw [change_of_ne hflag]
      obtain ⟨s', made, hrun, hbatch⟩ := ih hnodup (if (cls.perform op hook s.world).1 then ok else false)
        (s.record op hook (cls.perform op hook s.world).1 (cls.perform op hook s.world).2)
      refine ⟨s', _, ?_, hbatch.cons hnew hflag⟩
      dsimp only
      rw [hrun, List.all_cons]
      cases (cls.perform op hook s.world).1 <;> simp

/-! ## Alternation -/

/-- The operations that succeeded on a hook, in order. -/
def successes (calls : List (HookCall H)) (hook : H) : List HookOp :=
  (calls.filter fun c => c.hook = hook ∧ c.success).map (·.op)

/-- The operations alternate strictly, and begin with `doInstall`. -/
def Alternates (ops : List HookOp) : Prop := ops.IsChain (· ≠ ·) ∧ ∀ op ∈ ops.head?, op = .install

/-- The flag of a hook tells what succeeded on it last. -/
def Alternating (s : HookState H W) : Prop :=
  ∀ hook, Alternates (successes s.calls hook) ∧
    (s.installed hook = true ↔ (successes s.calls hook).getLast? = some .install)

theorem Alternates.append {ops : List HookOp} (h : Alternates ops)
    (hturn : op = .install ↔ ops.getLast? ≠ some .install) : Alternates (ops ++ [op]) := by
  obtain ⟨hchain, hhead⟩ := h
  refine ⟨hchain.append (.singleton op) ?_, ?_⟩
  · intro last hlast next hnext
    obtain rfl : op = next := by simpa using hnext
    rintro rfl
    cases last with
    | install => exact hturn.mp rfl hlast
    | uninstall =>
      have hinstall : ops.getLast? = some .install := by
        by_contra hne
        exact absurd (hturn.mpr hne) (by simp)
      rw [hinstall] at hlast
      simp at hlast
  · cases ops with
    | nil =>
      intro first hfirst
      obtain rfl : op = first := by simpa using hfirst
      exact hturn.mpr (by simp)
    | cons first rest => exact hhead

theorem change_alternating (hook : H) (h : Alternating s) : Alternating (change cls op hook s).2 := by
  by_cases hflag : s.installed hook = op.flag
  · rw [change, if_pos hflag]
    exact h
  · rw [change_of_ne hflag]
    generalize (cls.perform op hook s.world).1 = success, (cls.perform op hook s.world).2 = world
    intro other
    obtain ⟨halt, hlast⟩ := h other
    cases success with
    | false =>
      -- a call that failed leaves the flag, and does not count
      have hsame : successes (s.record op hook false world).calls other = successes s.calls other := by
        simp [successes]
      rw [hsame]
      exact ⟨halt, hlast⟩
    | true =>
      by_cases heq : other = hook
      · subst heq
        have hnew : successes (s.record op other true world).calls other = successes s.calls other ++ [op] := by
          simp [successes]
        rw [hnew, record_installed_self, if_pos rfl, List.getLast?_concat]
        refine ⟨halt.append ?_, ?_⟩
        · rw [ne_eq, ← hlast]
          cases op <;> simpa [HookOp.flag] using hflag
        · cases op <;> simp [HookOp.flag]
      · have hsame : successes (s.record op hook true world).calls other = successes s.calls other := by
          simp [successes, Ne.symm heq]
        rw [hsame, record_installed_of_ne _ _ heq]
        exact ⟨halt, hlast⟩

theorem changeAll_alternating {ok ok' : Bool} {pointers : List (Option H)} (h : Alternating s)
    (hrun : changeAll cls op ok pointers s = some (ok', s')) : Alternating s' := by
  induction pointers generalizing ok s with
  | nil =>
    obtain ⟨-, rfl⟩ : ok = ok' ∧ s = s' := by simpa [changeAll] using hrun
    exact h
  | cons pointer rest ih =>
    cases pointer with
    | none => simp [changeAll] at hrun
    | some hook => exact ih (change_alternating hook h) hrun

theorem hookStep_alternating {a : HookAct H} {t t' : HookSystem H W} (h : Alternating t.state)
    (hs : hookStep cls t a = some t') : Alternating t'.state := by
  cases a with
  | registerHook hook =>
    obtain rfl := Option.some.inj hs
    exact h
  | installAllHooks =>
    obtain ⟨r, hrun, rfl⟩ := Option.map_eq_some_iff.mp hs
    exact changeAll_alternating h hrun
  | uninstallAllHooks =>
    obtain ⟨r, hrun, rfl⟩ := Option.map_eq_some_iff.mp hs
    exact changeAll_alternating h hrun
  | install hook =>
    obtain rfl := Option.some.inj hs
    exact change_alternating hook h
  | uninstall hook =>
    obtain rfl := Option.some.inj hs
    exact change_alternating hook h

/-! ## Runs -/

/-- A batch on a registry ends, and its result tells whether every hook has the flag. -/
theorem batch_firsts (op : HookOp) {hooks : List H}
    (hperm : hooks.Perm (firsts cls.name registered)) (s : HookState H W) :
    ∃ result s' made, changeAll cls op true (hooks.map some) s = some (result, s') ∧
      Batch op hooks s s' made ∧
      (result = true ↔ ∀ hook ∈ firsts cls.name registered, s'.installed hook = op.flag) := by
  obtain ⟨s', made, hrun, hbatch⟩ := changeAll_batch cls op (hperm.nodup_iff.mpr (firsts_nodup cls.name registered)) true s
  refine ⟨_, s', made, hrun, hbatch, ?_⟩
  rw [Bool.true_and, hbatch.all_success]
  exact ⟨fun hall hook hmem => hall hook (hperm.mem_iff.mpr hmem),
    fun hall hook hmem => hall hook (hperm.mem_iff.mp hmem)⟩

theorem hookStep_represents {t : HookSystem H W} (h : t.registry.Represents cls registered) (a : HookAct H) :
    ∃ t', hookStep cls t a = some t' ∧ t'.registry.Represents cls (registered ++ registrations [a]) := by
  cases a with
  | registerHook hook =>
    refine ⟨_, rfl, ?_⟩
    have hreg : registrations [HookAct.registerHook hook] = hook.toList := by cases hook <;> rfl
    rw [hreg]
    exact registerHook_represents h hook
  | installAllHooks =>
    obtain ⟨result, s', made, hrun, -⟩ := batch_firsts .install (List.Perm.refl (firsts cls.name registered)) t.state
    rw [← h.hooks] at hrun
    exact ⟨{ t with state := s' }, by simp [hookStep, installAllHooks, hrun], by simpa [registrations] using h⟩
  | uninstallAllHooks =>
    obtain ⟨result, s', made, hrun, -⟩ := batch_firsts .uninstall (List.reverse_perm (firsts cls.name registered)) t.state
    rw [List.map_reverse, ← h.hooks] at hrun
    exact ⟨{ t with state := s' }, by simp [hookStep, uninstallAllHooks, hrun], by simpa [registrations] using h⟩
  | install hook => exact ⟨_, rfl, by simpa [registrations] using h⟩
  | uninstall hook => exact ⟨_, rfl, by simpa [registrations] using h⟩

theorem run_represents {t : HookSystem H W} (h : t.registry.Represents cls registered) (acts : List (HookAct H)) :
    ∃ t', run (hookStep cls) t acts = some t' ∧
      t'.registry.Represents cls (registered ++ registrations acts) := by
  induction acts generalizing t registered with
  | nil => exact ⟨t, rfl, by simpa [registrations] using h⟩
  | cons a acts ih =>
    obtain ⟨t₁, hs, h₁⟩ := hookStep_represents h a
    obtain ⟨t', hrun, h'⟩ := ih h₁
    refine ⟨t', run_cons.mpr ⟨t₁, hs, hrun⟩, ?_⟩
    rw [List.append_assoc] at h'
    rwa [registrations, ← List.singleton_append, List.filterMap_append]

end

/-- **The registry represents its hooks**: after any calls, `m_hooks` holds no null
pointer, its hooks have distinct names and stand in the order of the first registration
of each name; `m_hooksByName` maps the names of these hooks to them, and nothing else;
and `getHook` finds the first hook registered under a name. -/
theorem registry_represents {H W : Type} [DecidableEq H] (cls : HookClass H W) (state : HookState H W)
    (acts : List (HookAct H)) :
    ∃ t, run (hookStep cls) (.starting state) acts = some t ∧
      none ∉ t.registry.hooks ∧
      (t.registry.hooks.map (·.map cls.name)).Nodup ∧
      t.registry.hooks = (firsts cls.name (registrations acts)).map some ∧
      (∀ name pointer, t.registry.hooksByName name = some pointer ↔
        ∃ hook, pointer = some hook ∧ some hook ∈ t.registry.hooks ∧ cls.name hook = name) ∧
      ∀ name, getHook t.registry name = (registrations acts).find? (cls.name · = name) := by
  obtain ⟨t, hrun, h⟩ := run_represents (t := .starting state) (@empty_represents H W cls) acts
  rw [List.nil_append] at h
  refine ⟨t, hrun, ?_, ?_, h.hooks, ?_, ?_⟩
  · simp [h.hooks]
  · rw [h.hooks, List.map_map]
    have hnames := (firsts_keys_nodup cls.name (registrations acts)).map (Option.some_injective Bytes)
    rwa [List.map_map] at hnames
  · intro name pointer
    rw [h.byName, ← find_firsts, h.hooks, Option.map_eq_some_iff]
    refine ⟨?_, ?_⟩
    · rintro ⟨hook, hfind, rfl⟩
      obtain ⟨hmem, hname⟩ := (find_eq_some_of_nodup cls.name (firsts_keys_nodup _ _)).mp hfind
      exact ⟨hook, rfl, List.mem_map.mpr ⟨hook, hmem, rfl⟩, hname⟩
    · rintro ⟨hook, rfl, hmem, hname⟩
      rw [List.mem_map_of_injective (Option.some_injective H)] at hmem
      exact ⟨hook, (find_eq_some_of_nodup cls.name (firsts_keys_nodup _ _)).mpr ⟨hmem, hname⟩, rfl⟩
  · intro name
    rw [getHook, h.byName]
    cases (registrations acts).find? (cls.name · = name) <;> rfl

/-- **Batches**, on any registry and whatever fails: `installAllHooks` calls `doInstall`
once on each hook that is not installed, in the order of registration, and tells whether
all hooks are installed afterwards; `uninstallAllHooks` calls `doUninstall` once on each
installed hook, in reverse order, and tells whether none is installed afterwards. Over
any calls, the successful ones of each hook alternate, beginning with `doInstall`. -/
theorem batches_alternate {H W : Type} [DecidableEq H] (cls : HookClass H W) (state : HookState H W)
    (world : W) (acts : List (HookAct H)) :
    (∃ t hooks, run (hookStep cls) (.starting state) acts = some t ∧ t.registry.hooks = hooks.map some ∧
      (∃ result s' made, installAllHooks cls t.registry t.state = some (result, s') ∧
        Batch .install hooks t.state s' made ∧
        (result = true ↔ getInstalledHookCount t.registry s' = t.registry.hooks.length)) ∧
      (∃ result s' made, uninstallAllHooks cls t.registry t.state = some (result, s') ∧
        Batch .uninstall hooks.reverse t.state s' made ∧
        (result = true ↔ getInstalledHookCount t.registry s' = 0))) ∧
    ∃ t, run (hookStep cls) (.starting (.fresh world)) acts = some t ∧
      ∀ hook, Alternates (successes t.state.calls hook) := by
  refine ⟨?_, ?_⟩
  · obtain ⟨t, hrun, h⟩ := run_represents (t := .starting state) (@empty_represents H W cls) acts
    rw [List.nil_append] at h
    refine ⟨t, _, hrun, h.hooks, ?_, ?_⟩
    · obtain ⟨result, s', made, hall, hbatch, hresult⟩ :=
        batch_firsts .install (List.Perm.refl (firsts cls.name (registrations acts))) t.state
      refine ⟨result, s', made, by rw [installAllHooks, h.hooks]; exact hall, hbatch, ?_⟩
      rw [hresult, installedHookCount_eq h.hooks, h.hooks, List.length_map, List.countP_eq_length]
      rfl
    · obtain ⟨result, s', made, hall, hbatch, hresult⟩ :=
        batch_firsts .uninstall (List.reverse_perm (firsts cls.name (registrations acts))) t.state
      refine ⟨result, s', made, by rw [uninstallAllHooks, h.hooks, ← List.map_reverse]; exact hall, hbatch, ?_⟩
      rw [hresult, installedHookCount_eq h.hooks, List.countP_eq_zero]
      simp [HookOp.flag]
  · obtain ⟨t, hrun, -⟩ := run_represents (t := .starting (.fresh world)) (@empty_represents H W cls) acts
    have hfresh : Alternating (HookState.fresh world : HookState H W) := by
      intro hook
      exact ⟨⟨.nil, by simp [successes, HookState.fresh]⟩, by simp [successes, HookState.fresh]⟩
    have hstep (t : HookSystem H W) (a : HookAct H) (t' : HookSystem H W) (h : Alternating t.state)
        (hs : hookStep cls t a = some t') : Alternating t'.state := hookStep_alternating h hs
    have halt := run_invariant hstep hrun hfresh
    exact ⟨t, hrun, fun hook => (halt hook).1⟩

end Icecap.Hooks
