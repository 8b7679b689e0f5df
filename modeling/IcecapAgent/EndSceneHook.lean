import IcecapAgent.HookRegistry

/- The hook on the game's `EndScene`, and how it is installed.

   The hook is made with MinHook, a library. Which status its calls return is an answer of
   the platform; what `MH_CreateHook`, `MH_EnableHook`, `MH_DisableHook` and
   `MH_RemoveHook` leave in the table of hooks is a parameter (`MinHookApi`), of which
   `Documented` says what is relied on. `MH_Initialize` fails when MinHook is initialised,
   and `MH_Uninitialize` takes all hooks away.

   A `D3D9Hook` object is a number. `InstallHooks` makes a new object and a new registry,
   and assigning the registry destroys the one before, which uninstalls its hook.

   1. `installHooks_refused` — when `MH_Initialize` fails nothing changed;
   2. `installHooks_initialized` — otherwise MinHook is initialised afterwards, whatever
      else fails, and the call succeeds exactly when `EndScene` was hooked. -/
namespace Icecap.Hooks

/-- What MinHook knows of a function it was asked to hook. -/
inductive MinHookEntry where
  | created
  | enabled
  deriving DecidableEq, Repr

/-- The hooks of MinHook, by the address of the function. -/
abbrev HookTable : Type := UInt32 → Option MinHookEntry

/-- MinHook: whether it is initialised, and its hooks. -/
structure MinHook where
  initialized : Bool
  entries : HookTable

namespace MinHook

def uninitialized : MinHook := ⟨false, fun _ => none⟩

/-- `MH_Initialize`; it fails when MinHook is initialised. -/
def mhInitialize (m : MinHook) (ok : Bool) : Bool × MinHook :=
  if m.initialized || !ok then (false, m) else (true, ⟨true, fun _ => none⟩)

/-- `MH_Uninitialize`: every hook is disabled and removed. -/
def mhUninitialize (m : MinHook) : MinHook := if m.initialized then uninitialized else m

end MinHook

/-- What the calls of MinHook on a function leave in the table, by whether the status is
`MH_OK`. -/
structure MinHookApi where
  createHook : Bool → UInt32 → HookTable → HookTable
  enableHook : Bool → UInt32 → HookTable → HookTable
  disableHook : Bool → UInt32 → HookTable → HookTable
  removeHook : Bool → UInt32 → HookTable → HookTable

/-- What the documentation of MinHook says of them, as far as it is relied on. -/
structure MinHookApi.Documented (mh : MinHookApi) : Prop where
  created : ∀ (target : UInt32) (table : HookTable), table target = none →
    mh.createHook true target table = Function.update table target (some .created)
  enabled : ∀ (target : UInt32) (table : HookTable), table target ≠ none →
    mh.enableHook true target table = Function.update table target (some .enabled)
  removed : ∀ (target : UInt32) (table : HookTable),
    mh.removeHook true target table = Function.update table target none
  /-- a hook that was not created is neither disabled nor removed -/
  missing : ∀ call ∈ [mh.disableHook, mh.removeHook], ∀ (ok : Bool) (target : UInt32) (table : HookTable),
    table target = none → call ok target table = table
  /-- a call that fails changes nothing -/
  failed : ∀ call ∈ [mh.createHook, mh.enableHook, mh.removeHook], ∀ (target : UInt32) (table : HookTable),
    call false target table = table

/-- A MinHook that keeps to its documentation. -/
def MinHookApi.sample : MinHookApi where
  createHook ok target table :=
    if ok && table target == none then Function.update table target (some .created) else table
  enableHook ok target table :=
    if ok && table target != none then Function.update table target (some .enabled) else table
  disableHook ok target table :=
    if ok && table target != none then Function.update table target (some .created) else table
  removeHook ok target table := if ok then Function.update table target none else table

theorem sample_documented : MinHookApi.sample.Documented := by
  refine ⟨?_, ?_, ?_, ?_, ?_⟩
  · intro target table h
    simp [MinHookApi.sample, h]
  · intro target table h
    simp [MinHookApi.sample, h]
  · intro target table
    simp [MinHookApi.sample]
  · intro call hcall ok target table h
    simp only [List.mem_cons, List.not_mem_nil, or_false] at hcall
    rcases hcall with rfl | rfl
    · simp [MinHookApi.sample, h]
    · cases ok with
      | false => rfl
      | true =>
        show Function.update table target none = table
        rw [← h, Function.update_eq_self]
  · intro call hcall target table
    simp only [List.mem_cons, List.not_mem_nil, or_false] at hcall
    rcases hcall with rfl | rfl | rfl <;> rfl

/-- What the platform answers to one `D3D9Hook` object in one call of `InstallHooks`. -/
structure HookAnswers where
  /-- `vtable[42]` of a device, or `none` when no device could be made -/
  endScene : Option UInt32
  createHook : Bool
  enableHook : Bool
  disableHook : Bool
  removeHook : Bool
  deriving DecidableEq, Repr

/-- MinHook, `m_targetAddress` of each hook object (0 when null), and whether
`s_originalEndScene` is set. -/
structure D3D9World where
  minHook : MinHook
  targetAddress : Nat → UInt32
  originalEndScene : Bool

/-- A call of MinHook on a function. -/
def D3D9World.onTable (w : D3D9World) (call : HookTable → HookTable) : D3D9World :=
  { w with minHook := { w.minHook with entries := call w.minHook.entries } }

@[simp] theorem onTable_initialized (w : D3D9World) (call : HookTable → HookTable) :
    (w.onTable call).minHook.initialized = w.minHook.initialized := rfl

@[simp] theorem onTable_entries (w : D3D9World) (call : HookTable → HookTable) :
    (w.onTable call).minHook.entries = call w.minHook.entries := rfl

/-- `D3D9Hook::findEndSceneAddress`. -/
def findEndSceneAddress (answers : HookAnswers) (hook : Nat) (w : D3D9World) : Bool × D3D9World :=
  match answers.endScene with
  | none => (false, w)
  | some address => (true, { w with targetAddress := Function.update w.targetAddress hook address })

section
variable (mh : MinHookApi)

/-- `D3D9Hook::installMinHook`. -/
def installMinHook (answers : HookAnswers) (hook : Nat) (w : D3D9World) : Bool × D3D9World :=
  let target := w.targetAddress hook
  if target = 0 then (false, w)
  else
    let w := w.onTable (mh.createHook answers.createHook target)
    if !answers.createHook then (false, w)
    else
      let w := { w with originalEndScene := true }
      let w := w.onTable (mh.enableHook answers.enableHook target)
      if !answers.enableHook then (false, w.onTable (mh.removeHook answers.removeHook target))
      else (true, w)

/-- `D3D9Hook::uninstallMinHook`. -/
def uninstallMinHook (answers : HookAnswers) (hook : Nat) (w : D3D9World) : Bool × D3D9World :=
  let target := w.targetAddress hook
  if target = 0 then (true, w)
  else
    let w := w.onTable (mh.disableHook answers.disableHook target)
    let w := w.onTable (mh.removeHook answers.removeHook target)
    if !answers.removeHook then (false, w)
    else (true, { w with targetAddress := Function.update w.targetAddress hook 0, originalEndScene := false })

/-- `D3D9Hook` as a class of hooks. -/
def d3d9Hook (answers : Nat → HookAnswers) : HookClass Nat D3D9World where
  name := fun _ => literal "D3D9EndScene"
  doInstall := fun hook w =>
    let (found, w) := findEndSceneAddress (answers hook) hook w
    if !found then (false, w) else installMinHook mh (answers hook) hook w
  doUninstall := fun hook w => uninstallMinHook mh (answers hook) hook w

end

/-! ## `InstallHooks` -/

/-- `g_hookRegistry`, the number of hook objects made so far, and the objects. -/
structure HookManager where
  registry : Option (HookRegistry Nat)
  objects : Nat
  state : HookState Nat D3D9World

/-- As the process starts. -/
def HookManager.fresh : HookManager := ⟨none, 0, .fresh ⟨.uninitialized, fun _ => 0, false⟩⟩

def HookManager.minHook (s : HookManager) : MinHook := s.state.world.minHook

def HookManager.withMinHook (s : HookManager) (m : MinHook) : HookManager :=
  { s with state := { s.state with world := { s.state.world with minHook := m } } }

/-- `std::make_shared<D3D9Hook>()`: a hook object that is not installed and has no
target yet. -/
def HookState.makeHook (s : HookState Nat D3D9World) (hook : Nat) : HookState Nat D3D9World :=
  { s with
    installed := Function.update s.installed hook false
    world := { s.world with targetAddress := Function.update s.world.targetAddress hook 0 } }

/-- `g_hookRegistry = std::make_unique<HookRegistry>()`: the registry there was is
destroyed, and its destructor uninstalls its hooks. -/
def newRegistry (mh : MinHookApi) (answers : Nat → HookAnswers) (s : HookManager) : Option HookManager :=
  match s.registry with
  | none => some { s with registry := some .empty }
  | some old =>
    (uninstallAllHooks (d3d9Hook mh answers) old s.state).map fun r =>
      { s with registry := some .empty, state := r.2 }

/-- `InstallHooks`, with whether it returned without throwing; the events it could
enable do not exist yet. -/
def installHooks (mh : MinHookApi) (mhInitialize : Bool) (answers : Nat → HookAnswers) (s : HookManager) :
    Option (Bool × HookManager) :=
  let (ok, m) := s.minHook.mhInitialize mhInitialize
  if !ok then some (false, s)
  else
    (newRegistry mh answers (s.withMinHook m)).bind fun s =>
      let hook := s.objects
      let registry := registerHook (d3d9Hook mh answers) .empty (some hook)
      (installAllHooks (d3d9Hook mh answers) registry (s.state.makeHook hook)).map fun r =>
        (r.1, ⟨some registry, hook + 1, r.2⟩)

/-! ## What a batch keeps of the world -/

section
variable {H W : Type} [DecidableEq H] {cls : HookClass H W} {op : HookOp} {I : W → Prop} {s s' : HookState H W}

theorem change_keeps (h : ∀ hook w, I w → I (cls.perform op hook w).2) (hook : H) (hs : I s.world) :
    I (change cls op hook s).2.world := by
  by_cases hflag : s.installed hook = op.flag
  · rw [change, if_pos hflag]
    exact hs
  · rw [change_of_ne hflag]
    exact h hook s.world hs

theorem changeAll_keeps (h : ∀ hook w, I w → I (cls.perform op hook w).2) {ok ok' : Bool}
    {pointers : List (Option H)} (hs : I s.world)
    (hrun : changeAll cls op ok pointers s = some (ok', s')) : I s'.world := by
  induction pointers generalizing ok s with
  | nil =>
    obtain ⟨-, rfl⟩ : ok = ok' ∧ s = s' := by simpa [changeAll] using hrun
    exact hs
  | cons pointer rest ih =>
    cases pointer with
    | none => simp [changeAll] at hrun
    | some hook => exact ih (change_keeps h hook hs) hrun

theorem changeAll_returns (cls : HookClass H W) (op : HookOp) (ok : Bool) {pointers : List (Option H)}
    (h : none ∉ pointers) (s : HookState H W) : ∃ r, changeAll cls op ok pointers s = some r := by
  induction pointers generalizing ok s with
  | nil => exact ⟨_, rfl⟩
  | cons pointer rest ih =>
    obtain ⟨hne, hrest⟩ := not_or.mp (List.mem_cons.not.mp h)
    cases pointer with
    | none => exact absurd rfl hne
    | some hook => exact ih _ hrest _

end

/-! ## What `InstallHooks` does -/

/-- `EndScene` is found, and MinHook agrees to hook it. -/
def HookAnswers.hooked (answers : HookAnswers) : Bool :=
  match answers.endScene with
  | none => false
  | some address => address != 0 && answers.createHook && answers.enableHook

/-- MinHook just initialised. -/
def MinHook.blank : MinHook := ⟨true, fun _ => none⟩

section
variable {mh : MinHookApi} {answers : Nat → HookAnswers} {s s' : HookManager} {ok : Bool}

theorem mhInitialize_refused {m : MinHook} (h : m.initialized = true ∨ ok = false) :
    m.mhInitialize ok = (false, m) := by
  have hcond : (m.initialized || !ok) = true := by simpa using h
  rw [MinHook.mhInitialize, if_pos hcond]

theorem mhInitialize_blank {m : MinHook} (h : m.initialized = false) : m.mhInitialize true = (true, .blank) := by
  simp [MinHook.mhInitialize, h, MinHook.blank]

theorem uninstallMinHook_initialized (a : HookAnswers) (hook : Nat) (w : D3D9World) :
    (uninstallMinHook mh a hook w).2.minHook.initialized = w.minHook.initialized := by
  unfold uninstallMinHook
  dsimp only
  split
  · rfl
  · split <;> rfl

theorem installMinHook_initialized (a : HookAnswers) (hook : Nat) (w : D3D9World) :
    (installMinHook mh a hook w).2.minHook.initialized = w.minHook.initialized := by
  unfold installMinHook
  dsimp only
  split
  · rfl
  · split
    · rfl
    · split <;> rfl

theorem installMinHook_result {a : HookAnswers} {hook : Nat} {w : D3D9World} (hnull : w.targetAddress hook ≠ 0) :
    (installMinHook mh a hook w).1 = (a.createHook && a.enableHook) := by
  unfold installMinHook
  rw [if_neg hnull]
  cases a.createHook <;> cases a.enableHook <;> rfl

theorem installMinHook_null {a : HookAnswers} {hook : Nat} {w : D3D9World} (hnull : w.targetAddress hook = 0) :
    installMinHook mh a hook w = (false, w) := if_pos hnull

theorem doInstall_missing (hook : Nat) (w : D3D9World) (h : (answers hook).endScene = none) :
    (d3d9Hook mh answers).doInstall hook w = (false, w) := by
  simp [d3d9Hook, findEndSceneAddress, h]

theorem doInstall_found (hook : Nat) (w : D3D9World) {address : UInt32} (h : (answers hook).endScene = some address) :
    (d3d9Hook mh answers).doInstall hook w =
      installMinHook mh (answers hook) hook
        { w with targetAddress := Function.update w.targetAddress hook address } := by
  simp [d3d9Hook, findEndSceneAddress, h]

theorem doInstall_initialized (answers : Nat → HookAnswers) (hook : Nat) (w : D3D9World) :
    ((d3d9Hook mh answers).doInstall hook w).2.minHook.initialized = w.minHook.initialized := by
  cases hscene : (answers hook).endScene with
  | none => rw [doInstall_missing hook w hscene]
  | some address =>
    rw [doInstall_found hook w hscene]
    exact installMinHook_initialized _ _ _

theorem doInstall_result (answers : Nat → HookAnswers) (hook : Nat) (w : D3D9World) :
    ((d3d9Hook mh answers).doInstall hook w).1 = (answers hook).hooked := by
  cases hscene : (answers hook).endScene with
  | none =>
    rw [doInstall_missing hook w hscene]
    simp [HookAnswers.hooked, hscene]
  | some address =>
    rw [doInstall_found hook w hscene]
    have htarget : { w with targetAddress := Function.update w.targetAddress hook address }.targetAddress hook =
      address := Function.update_self ..
    by_cases hnull : address = 0
    · rw [installMinHook_null (htarget.trans hnull)]
      simp [HookAnswers.hooked, hscene, hnull]
    · have hne : (address != 0) = true := bne_iff_ne.mpr hnull
      rw [installMinHook_result (by rwa [htarget])]
      simp only [HookAnswers.hooked, hscene, hne, Bool.true_and]

/-- The registry holds no null pointers. -/
def HookManager.Registered (s : HookManager) : Prop := ∀ r, s.registry = some r → none ∉ r.hooks

theorem newRegistry_keeps (answers : Nat → HookAnswers) {I : D3D9World → Prop}
    (hkeeps : ∀ hook w, I w → I (uninstallMinHook mh (answers hook) hook w).2) (hreg : s.Registered)
    (h : I s.state.world) :
    ∃ s', newRegistry mh answers s = some s' ∧ I s'.state.world ∧ s'.objects = s.objects := by
  unfold newRegistry
  cases hr : s.registry with
  | none => exact ⟨_, rfl, h, rfl⟩
  | some old =>
    obtain ⟨r, hrun⟩ := changeAll_returns (d3d9Hook mh answers) .uninstall true
      (fun hmem => hreg old hr (List.mem_reverse.mp hmem)) s.state
    refine ⟨{ s with registry := some .empty, state := r.2 }, by simp [uninstallAllHooks, hrun], ?_, rfl⟩
    have hperform : ∀ hook w, I w → I ((d3d9Hook mh answers).perform .uninstall hook w).2 := hkeeps
    exact changeAll_keeps hperform h hrun

theorem installHooks_refused (answers : Nat → HookAnswers) (h : s.minHook.initialized = true ∨ ok = false) :
    installHooks mh ok answers s = some (false, s) := by
  rw [installHooks, mhInitialize_refused h]
  rfl

theorem installAllHooks_one {H W : Type} [DecidableEq H] (cls : HookClass H W) (hook : H) {s : HookState H W}
    (hflag : s.installed hook = false) :
    installAllHooks cls (registerHook cls .empty (some hook)) s =
      some ((cls.doInstall hook s.world).1,
        s.record .install hook (cls.doInstall hook s.world).1 (cls.doInstall hook s.world).2) := by
  have hhooks : (registerHook cls .empty (some hook)).hooks = [some hook] := rfl
  have hturn : s.installed hook ≠ HookOp.install.flag := by simp [hflag, HookOp.flag]
  rw [installAllHooks, hhooks, changeAll, change_of_ne hturn]
  rw [show cls.perform .install = cls.doInstall from rfl]
  cases (cls.doInstall hook s.world).1 <;> rfl

/-- Past `MH_Initialize`, and past the old registry, the new object is installed. -/
theorem installHooks_past {s₁ : HookManager} (h : s.minHook.initialized = false)
    (hnew : newRegistry mh answers (s.withMinHook .blank) = some s₁) :
    let state := s₁.state.makeHook s₁.objects
    let r := (d3d9Hook mh answers).doInstall s₁.objects state.world
    installHooks mh true answers s =
      some (r.1, ⟨some (registerHook (d3d9Hook mh answers) .empty (some s₁.objects)), s₁.objects + 1,
        state.record .install s₁.objects r.1 r.2⟩) := by
  intro state r
  have hmade : state.installed s₁.objects = false := by simp [state, HookState.makeHook]
  rw [installHooks, mhInitialize_blank h]
  dsimp only
  rw [if_neg (by simp), hnew, Option.bind_some, installAllHooks_one _ _ hmade]
  rfl

theorem registered_one (hook objects : Nat) (state : HookState Nat D3D9World) :
    HookManager.Registered ⟨some (registerHook (d3d9Hook mh answers) .empty (some hook)), objects, state⟩ := by
  intro r hr
  obtain rfl := Option.some.inj hr
  show none ∉ [some hook]
  simp

theorem installHooks_initialized (answers : Nat → HookAnswers) (hreg : s.Registered)
    (h : s.minHook.initialized = false) :
    ∃ s', installHooks mh true answers s = some ((answers s.objects).hooked, s') ∧
      s'.minHook.initialized = true ∧ s'.Registered := by
  obtain ⟨s₁, hnew, hinit, hobjects⟩ := newRegistry_keeps (s := s.withMinHook .blank) answers
    (I := fun w => w.minHook.initialized = true)
    (fun hook w hw => (uninstallMinHook_initialized (answers hook) hook w).trans hw) hreg rfl
  have hcall := installHooks_past h hnew
  have hobjects' : s₁.objects = s.objects := hobjects
  dsimp only at hcall
  rw [doInstall_result, hobjects'] at hcall
  exact ⟨_, hcall, (doInstall_initialized answers _ _).trans hinit, registered_one _ _ _⟩

end

end Icecap.Hooks
