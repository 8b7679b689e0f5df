import IcecapAgent.ApplicationContext

/- The hook on `EndScene` over the life of a context.

   A call of the hooked function jumps to `HookedEndScene`, which ends with a call of
   `s_originalEndScene`. The pointer belongs to the class, the target address and the flag
   to a hook object, and the hook itself to MinHook; `InstallHooks` makes a new object every
   time, and `MH_Uninitialize` takes the hook away without telling the object.

   `endScene_hooked` — over any calls of `initialize`, `stop` and `shutdown` the three agree:
   the function that MinHook has a hook for is the target of the newest hook object, the
   original is set, and the hook is enabled exactly when the object says it is installed.
   MinHook is taken to do with its hooks what its documentation says. -/
namespace Icecap.Hooks
open StepRun

/-! ## What MinHook knows -/

/-- A function that MinHook has a hook for is the target of the hook object, and the object
knows whether its hook is enabled. -/
structure Hooked (w : D3D9World) (hook : Nat) (installed : Bool) (address : UInt32) (e : MinHookEntry) : Prop where
  initialized : w.minHook.initialized = true
  notNull : address ≠ 0
  original : w.originalEndScene = true
  target : w.targetAddress hook = address
  flag : e = .enabled ↔ installed = true

section
variable {mh : MinHookApi} {answers : Nat → HookAnswers} {s s' : HookManager}

theorem update_eq_some {found address : UInt32} {e e' : MinHookEntry}
    (h : Function.update (fun _ : UInt32 => none) found (some e) address = some e') : address = found ∧ e = e' := by
  by_cases haddress : address = found
  · subst haddress
    exact ⟨rfl, by simpa using h⟩
  · simp [haddress] at h

theorem uninstallMinHook_blank (hmh : mh.Documented) (a : HookAnswers) (hook : Nat) (w : D3D9World)
    (h : w.minHook = .blank) : (uninstallMinHook mh a hook w).2.minHook = .blank := by
  by_cases htarget : w.targetAddress hook = 0
  · simp [uninstallMinHook, htarget, h]
  · have hentries : w.minHook.entries = fun _ => none := by rw [h]; rfl
    have hdisable := hmh.missing mh.disableHook (by simp) a.disableHook (w.targetAddress hook) (fun _ => none) rfl
    have hremove := hmh.missing mh.removeHook (by simp) a.removeHook (w.targetAddress hook) (fun _ => none) rfl
    have hcalls : (w.onTable (mh.disableHook a.disableHook (w.targetAddress hook))).onTable
        (mh.removeHook a.removeHook (w.targetAddress hook)) = w := by
      simp only [D3D9World.onTable, hentries, hdisable, hremove]
      rw [← hentries]
    unfold uninstallMinHook
    rw [if_neg htarget]
    dsimp only
    rw [hcalls]
    split <;> exact h

/-- What MinHook knows of the functions when `installMinHook` is through, if it knew nothing
before: the target is hooked, or nothing is. -/
theorem installMinHook_entries (hmh : mh.Documented) (a : HookAnswers) (hook : Nat) {w : D3D9World}
    (h : w.minHook = .blank) (hnull : w.targetAddress hook ≠ 0) :
    (installMinHook mh a hook w).2.minHook.entries =
      if a.createHook then
        if a.enableHook then Function.update (fun _ => none) (w.targetAddress hook) (some .enabled)
        else if a.removeHook then fun _ => none
        else Function.update (fun _ => none) (w.targetAddress hook) (some .created)
      else fun _ => none := by
  have hentries : w.minHook.entries = fun _ => none := by rw [h]; rfl
  have hcreated := hmh.created (w.targetAddress hook) (fun _ => none) rfl
  unfold installMinHook
  rw [if_neg hnull]
  cases hcreate : a.createHook with
  | false =>
    show mh.createHook false _ w.minHook.entries = fun _ => none
    rw [hentries]
    exact hmh.failed mh.createHook (by simp) _ _
  | true =>
    cases henable : a.enableHook with
    | true =>
      show mh.enableHook true _ (mh.createHook true _ w.minHook.entries) = _
      rw [hentries, hcreated, hmh.enabled _ _ (by simp), Function.update_idem]
      rfl
    | false =>
      have hfailed := hmh.failed mh.enableHook (by simp) (w.targetAddress hook)
      show mh.removeHook a.removeHook _ (mh.enableHook false _ (mh.createHook true _ w.minHook.entries)) = _
      rw [hentries, hcreated, hfailed]
      cases hremove : a.removeHook with
      | true =>
        rw [hmh.removed, Function.update_idem, Function.update_eq_self_iff.mpr rfl]
        rfl
      | false =>
        rw [hmh.failed mh.removeHook (by simp)]
        rfl

theorem installMinHook_target (a : HookAnswers) (hook : Nat) (w : D3D9World) :
    (installMinHook mh a hook w).2.targetAddress = w.targetAddress := by
  unfold installMinHook
  dsimp only
  split
  · rfl
  · split
    · rfl
    · split <;> rfl

theorem installMinHook_original {a : HookAnswers} {hook : Nat} {w : D3D9World} (hnull : w.targetAddress hook ≠ 0)
    (hcreate : a.createHook = true) : (installMinHook mh a hook w).2.originalEndScene = true := by
  unfold installMinHook
  rw [if_neg hnull, hcreate]
  cases a.enableHook <;> rfl

/-- A MinHook that had no hooks has at most the one that is installed. -/
theorem installMinHook_hooked (hmh : mh.Documented) {a : HookAnswers} {hook : Nat} {w : D3D9World}
    (h : w.minHook = .blank) {address : UInt32} {e : MinHookEntry}
    (he : (installMinHook mh a hook w).2.minHook.entries address = some e) :
    Hooked (installMinHook mh a hook w).2 hook (installMinHook mh a hook w).1 address e := by
  have hinit := (@installMinHook_initialized mh a hook w).trans (congrArg MinHook.initialized h)
  by_cases hnull : w.targetAddress hook = 0
  · rw [installMinHook_null hnull, h] at he
    simp [MinHook.blank] at he
  · rw [installMinHook_entries hmh a hook h hnull] at he
    rw [installMinHook_result hnull]
    cases hcreate : a.createHook with
    | false => simp [hcreate] at he
    | true =>
      have horiginal := @installMinHook_original mh _ _ _ hnull hcreate
      have htarget : (installMinHook mh a hook w).2.targetAddress hook = w.targetAddress hook := by
        rw [installMinHook_target]
      rw [hcreate, if_pos rfl] at he
      cases henable : a.enableHook with
      | true =>
        rw [henable, if_pos rfl] at he
        obtain ⟨rfl, rfl⟩ := update_eq_some he
        exact ⟨hinit, hnull, horiginal, htarget, by simp⟩
      | false =>
        -- only a hook that could not be removed again is left, and it is not enabled
        rw [henable, if_neg (by simp)] at he
        split at he
        · simp at he
        · obtain ⟨rfl, rfl⟩ := update_eq_some he
          exact ⟨hinit, hnull, horiginal, htarget, by simp⟩

theorem installMinHook_enabled (hmh : mh.Documented) {a : HookAnswers} {hook : Nat} {w : D3D9World}
    (h : w.minHook = .blank) (hinstalled : (installMinHook mh a hook w).1 = true) :
    (installMinHook mh a hook w).2.minHook.entries ((installMinHook mh a hook w).2.targetAddress hook) =
      some .enabled := by
  by_cases hnull : w.targetAddress hook = 0
  · simp [installMinHook_null hnull] at hinstalled
  · rw [installMinHook_result hnull, Bool.and_eq_true] at hinstalled
    obtain ⟨hcreate, henable⟩ := hinstalled
    rw [installMinHook_target, installMinHook_entries hmh a hook h hnull, hcreate, henable]
    simp

theorem doInstall_hooked (hmh : mh.Documented) (answers : Nat → HookAnswers) (hook : Nat) {w : D3D9World}
    (h : w.minHook = .blank) {address : UInt32} {e : MinHookEntry}
    (he : ((d3d9Hook mh answers).doInstall hook w).2.minHook.entries address = some e) :
    Hooked ((d3d9Hook mh answers).doInstall hook w).2 hook ((d3d9Hook mh answers).doInstall hook w).1 address e := by
  cases hscene : (answers hook).endScene with
  | none =>
    rw [doInstall_missing hook w hscene, h] at he
    simp [MinHook.blank] at he
  | some found =>
    rw [doInstall_found hook w hscene] at he ⊢
    exact installMinHook_hooked hmh (w := { w with targetAddress := Function.update w.targetAddress hook found }) h he

theorem doInstall_enabled (hmh : mh.Documented) (answers : Nat → HookAnswers) (hook : Nat) {w : D3D9World}
    (h : w.minHook = .blank) (hinstalled : ((d3d9Hook mh answers).doInstall hook w).1 = true) :
    ((d3d9Hook mh answers).doInstall hook w).2.minHook.entries
      (((d3d9Hook mh answers).doInstall hook w).2.targetAddress hook) = some .enabled := by
  cases hscene : (answers hook).endScene with
  | none => simp [doInstall_missing hook w hscene] at hinstalled
  | some found =>
    rw [doInstall_found hook w hscene] at hinstalled ⊢
    exact installMinHook_enabled hmh (w := { w with targetAddress := Function.update w.targetAddress hook found }) h
      hinstalled

/-- What MinHook knows fits the newest hook object. -/
structure HookManager.Consistent (s : HookManager) : Prop where
  registered : s.Registered
  entry : ∀ address e, s.minHook.entries address = some e →
    ∃ hook, hook + 1 = s.objects ∧ Hooked s.state.world hook (s.state.installed hook) address e
  enabled : ∀ hook, hook + 1 = s.objects → s.minHook.initialized = true → s.state.installed hook = true →
    s.minHook.entries (s.state.world.targetAddress hook) = some .enabled

theorem fresh_consistent : HookManager.fresh.Consistent := by
  refine ⟨?_, ?_, ?_⟩
  · intro r hr
    simp [HookManager.fresh] at hr
  · intro address e he
    simp [HookManager.fresh, HookManager.minHook, HookState.fresh, MinHook.uninitialized] at he
  · intro hook _ hinit
    simp [HookManager.fresh, HookManager.minHook, HookState.fresh, MinHook.uninitialized] at hinit

theorem mhUninitialize_consistent (h : s.Consistent) :
    (s.withMinHook s.minHook.mhUninitialize).Consistent := by
  by_cases hinit : s.minHook.initialized = true
  · rw [MinHook.mhUninitialize, if_pos hinit]
    refine ⟨h.registered, ?_, ?_⟩
    · intro address e he
      simp [HookManager.withMinHook, HookManager.minHook, MinHook.uninitialized] at he
    · intro hook _ hafter
      simp [HookManager.withMinHook, HookManager.minHook, MinHook.uninitialized] at hafter
  · rw [MinHook.mhUninitialize, if_neg hinit]
    exact h

theorem installHooks_consistent (hmh : mh.Documented) {ok result : Bool} (h : s.Consistent)
    (hrun : installHooks mh ok answers s = some (result, s')) : s'.Consistent := by
  by_cases hrefused : s.minHook.initialized = true ∨ ok = false
  · rw [installHooks_refused answers hrefused] at hrun
    obtain ⟨-, rfl⟩ : false = result ∧ s = s' := by simpa using hrun
    exact h
  · obtain ⟨hinit, hok⟩ : s.minHook.initialized = false ∧ ok = true := by simpa using hrefused
    subst hok
    obtain ⟨s₁, hnew, hblank, -⟩ := newRegistry_keeps (s := s.withMinHook .blank) answers
      (I := fun w => w.minHook = .blank)
      (fun hook w hw => uninstallMinHook_blank hmh (answers hook) hook w hw) h.registered rfl
    rw [installHooks_past hinit hnew] at hrun
    obtain ⟨-, rfl⟩ := Prod.mk.inj (Option.some.inj hrun)
    have hmade : (s₁.state.makeHook s₁.objects).installed s₁.objects = false := by simp [HookState.makeHook]
    have hworld : (s₁.state.makeHook s₁.objects).world.minHook = .blank := hblank
    generalize s₁.state.makeHook s₁.objects = state at hmade hworld
    -- the flag of the object is what its `doInstall` answered
    have hflag (success : Bool) (world : D3D9World) :
        (state.record .install s₁.objects success world).installed s₁.objects = success := by
      rw [record_installed_self, hmade]
      cases success <;> rfl
    refine ⟨registered_one _ _ _, ?_, ?_⟩
    · intro address e he
      refine ⟨s₁.objects, rfl, ?_⟩
      dsimp only
      rw [hflag]
      exact doInstall_hooked hmh answers s₁.objects hworld he
    · intro hook hhook _ hinstalled
      obtain rfl : hook = s₁.objects := Nat.succ.inj hhook
      dsimp only at hinstalled
      rw [hflag] at hinstalled
      exact doInstall_enabled hmh answers s₁.objects hworld hinstalled

end

end Icecap.Hooks

namespace Icecap
open StepRun Hooks Transport

section
variable {mh : MinHookApi} {s s' : ContextState}

theorem lifecycleStep_consistent (hmh : mh.Documented) {a : LifecycleAct} (h : s.hooks.Consistent)
    (hs : lifecycleStep mh s a = some s') : s'.hooks.Consistent := by
  cases a with
  | callInitialize hModule answers =>
    obtain ⟨⟨ok, t⟩, hcall, rfl⟩ := Option.map_eq_some_iff.mp hs
    unfold initializeContext at hcall
    split at hcall
    · obtain ⟨-, rfl⟩ : ok = false ∧ s = t := by simpa using hcall
      exact h
    · obtain ⟨⟨installed, hooks⟩, hinstall, hrest⟩ := Option.map_eq_some_iff.mp hcall
      have hconsistent : hooks.Consistent := installHooks_consistent hmh h hinstall
      dsimp only at hrest
      cases installed with
      | false =>
        obtain ⟨-, rfl⟩ := Prod.mk.inj hrest
        exact hconsistent
      | true =>
        rw [if_neg (by simp)] at hrest
        generalize startServer s.manager s.tcp answers.network = network at hrest
        obtain ⟨started, manager, tcp⟩ := network
        cases started with
        | false =>
          obtain ⟨-, rfl⟩ := Prod.mk.inj hrest
          exact hconsistent
        | true =>
          obtain ⟨-, rfl⟩ := Prod.mk.inj hrest
          exact hconsistent
  | callStop =>
    obtain rfl := Option.some.inj hs
    exact h
  | callShutdown =>
    obtain rfl := Option.some.inj hs
    unfold shutdownContext
    split
    · exact h
    · exact mhUninitialize_consistent h
  | threads clientSocket currentClient receiveBuffer =>
    obtain rfl := Option.some.inj hs
    exact h

/-- **The hook on `EndScene` leads somewhere**, after any calls of `initialize`, `stop` and
`shutdown` and whatever is answered: a function that MinHook has a hook for is the target of
the newest hook object, `s_originalEndScene` is set, and the hook is enabled exactly when
the object says that it is installed. So at most one function is hooked. -/
theorem endScene_hooked (hmh : mh.Documented) {acts : List LifecycleAct} {t : ContextState}
    (hrun : run (lifecycleStep mh) .fresh acts = some t) : t.hooks.Consistent := by
  let Inv (s : ContextState) : Prop := s.hooks.Consistent
  have hinv : Inv t := run_invariant (fun _ _ _ h hs => lifecycleStep_consistent hmh h hs) hrun fresh_consistent
  exact hinv

end

/-- An agent that is stopped and started again: the newest hook object has the hook. The
old object finds no hook to disable or remove. -/
def startsAgain : List LifecycleAct :=
  [.callInitialize 0x10000000 ⟨true, fun _ => ⟨some 0x10042000, true, true, false, false⟩, ⟨true, true, true⟩⟩,
    .callShutdown,
    .callInitialize 0x10000000 ⟨true, fun _ => ⟨some 0x10043000, true, true, false, false⟩, ⟨true, true, true⟩⟩]

theorem endScene_hooked_again :
    ∃ t, run (lifecycleStep .sample) .fresh startsAgain = some t ∧
      t.hooks.minHook.entries 0x10043000 = some .enabled ∧ t.hooks.minHook.entries 0x10042000 = none ∧
        t.hooks.Consistent :=
  ⟨_, rfl, rfl, rfl,
    endScene_hooked sample_documented (show run (lifecycleStep .sample) .fresh startsAgain = some _ from rfl)⟩

end Icecap
