import IcecapAgent.Unload

/- The three threads while the agent is unloaded: what holds in every interleaving.

   `MainThread` and the render thread leave `CleanupThread`'s place alone, take neither the
   context nor its owner away, and `MainThread` only ever enables the hook. So what
   `CleanupThread` knows of these stays true.

   1. `original_called_hooked` — `HookedEndScene` calls the function it replaced only while
      MinHook has the hook, if `MH_Uninitialize` is called with the render thread outside.
      Nothing waits for that (`original_called_unhooked`);
   2. `startup_ends` — the start-up of `CleanupThread` takes at most 503 of its steps;
   3. `press_unloads` — a key that is down when `CleanupThread` looks starts the unloading;
      the edge detection never keeps it from that, as the key is never seen down before. -/
namespace Icecap.Unloading
open StepRun

/-! ## The call of the original -/

/-- `HookedEndScene` ends with the call of the original, or goes there at once because there
is no context. -/
def CallsOriginal (s : UnloadState) : UnloadAct → Prop
  | .render => s.render = .unlocking ∨ (s.render = .loading ∧ s.published = false)
  | _ => False

/-- The original is called while MinHook has the hook. -/
def OriginalLives (s : UnloadState) (a : UnloadAct) : Prop := CallsOriginal s a → s.hooked = true

instance (s : UnloadState) : DecidablePred (OriginalLives s)
  | .render => inferInstanceAs (Decidable (_ ∨ _ → _))
  | .main _ | .cleanup _ => isTrue False.elim

/-- `MH_Uninitialize` is called with the render thread outside `HookedEndScene`. -/
def UnhooksOutside (s : UnloadState) : UnloadAct → Prop
  | .cleanup _ => s.cleanup = .unhooking → s.render = .outside
  | _ => True

instance (s : UnloadState) : DecidablePred (UnhooksOutside s)
  | .cleanup _ => inferInstanceAs (Decidable (_ → _))
  | .main _ | .render => isTrue trivial

/-- The render thread is in `HookedEndScene` only while there is a hook. -/
def UnloadState.RenderHooked (s : UnloadState) : Prop := s.render ≠ .outside → s.hooked = true

/-! ## What the other threads leave alone -/

/-- What `CleanupThread` knows and no other thread takes back. -/
structure Undone (s s' : UnloadState) : Prop where
  cleanup : s'.cleanup = s.cleanup
  key : s'.deleteKeyWasPressed = s.deleteKeyWasPressed
  owner : s.owner = true → s'.owner = true
  life : s.life ≠ .destroyed → s'.life ≠ .destroyed
  hooked : s.hooked = true → s'.hooked = true

section
variable {s s' next : UnloadState}

theorem Undone.fault (f : Fault) : Undone s (s.fault f) := ⟨rfl, rfl, id, id, id⟩

theorem mainStep_undone {ok : Bool} (hs : mainStep s ok = some s') : Undone s s' ∧ s'.render = s.render := by
  cases mainStep_turn hs with
  | fault f _ => exact ⟨.fault f, rfl⟩
  | create _ => exact ⟨⟨rfl, rfl, fun _ => rfl, fun _ => by simp, id⟩, rfl⟩
  | hook _ => exact ⟨⟨rfl, rfl, id, id, fun _ => rfl⟩, rfl⟩
  | _ => exact ⟨⟨rfl, rfl, id, id, id⟩, rfl⟩

theorem renderStep_undone (hs : renderStep s = some s') :
    Undone s s' ∧ s'.hooked = s.hooked ∧ (s.render = .outside → s.hooked = true) := by
  cases renderStep_turn hs with
  | fault f hholds _ => exact ⟨.fault f, rfl, fun hpc => by simp [hpc] at hholds⟩
  | enter _ hhooked => exact ⟨⟨rfl, rfl, id, id, id⟩, rfl, fun _ => hhooked⟩
  | load hpc => exact ⟨⟨rfl, rfl, id, id, id⟩, rfl, by simp [hpc]⟩
  | goto next hholds => exact ⟨⟨rfl, rfl, id, id, id⟩, rfl, fun hpc => by simp [hpc] at hholds⟩

/-- What no other thread takes back, a step that is not `CleanupThread`'s keeps. -/
theorem unloadStep_undone {a : UnloadAct} (ha : ∀ pressed, a ≠ .cleanup pressed) (hs : unloadStep s a = some s') :
    Undone s s' := by
  cases a with
  | main ok => exact (mainStep_undone hs).1
  | render => exact (renderStep_undone hs).1
  | cleanup pressed => exact absurd rfl (ha pressed)

end

/-! ## The call of the original -/

section
variable {s s' next : UnloadState}

theorem cleanupStep_hook {pressed : Bool} (hs : cleanupStep s pressed = some s') :
    s'.render = s.render ∧ (s.cleanup ≠ .unhooking → s'.hooked = s.hooked) := by
  cases cleanupStep_turn hs with
  | unhook hpc => exact ⟨rfl, fun hother => absurd hpc hother⟩
  | _ => exact ⟨rfl, fun _ => rfl⟩

theorem unloadStep_renderHooked {a : UnloadAct} (h : s.RenderHooked) (ho : UnhooksOutside s a)
    (hs : unloadStep s a = some s') : s'.RenderHooked := by
  intro hin
  cases a with
  | main ok =>
    obtain ⟨hundone, hrender⟩ := mainStep_undone hs
    exact hundone.hooked (h (hrender ▸ hin))
  | cleanup pressed =>
    obtain ⟨hrender, hhooked⟩ := cleanupStep_hook hs
    rw [hrender] at hin
    rw [hhooked fun hpc => hin (ho hpc)]
    exact h hin
  | render =>
    obtain ⟨-, hhooked, houtside⟩ := renderStep_undone hs
    rw [hhooked]
    by_cases hrender : s.render = .outside
    · exact houtside hrender
    · exact h hrender

/-- **The original is called only while MinHook has the hook**, in every interleaving in
which `MH_Uninitialize` finds the render thread outside `HookedEndScene`. -/
theorem original_called_hooked {acts : List UnloadAct} (horderly : Along unloadStep UnhooksOutside .attached acts) :
    Along unloadStep OriginalLives .attached acts := by
  have hattached : UnloadState.attached.RenderHooked := fun hin => absurd rfl hin
  refine along_imp (fun s a s' h ho hs => unloadStep_renderHooked h ho hs) (fun s a h _ hcalls => ?_) hattached horderly
  -- a thread that calls the original is in `HookedEndScene`
  cases a with
  | render =>
    rcases hcalls with hrender | ⟨hrender, -⟩
    · exact h (by simp [hrender])
    · exact h (by simp [hrender])
  | main ok => exact hcalls.elim
  | cleanup pressed => exact hcalls.elim

end

theorem original_called_hooked_unload : Along unloadStep OriginalLives .attached (starts ++ unloads) :=
  original_called_hooked (by decide +kernel)

/-- **Nothing waits for the render thread**: it is in `HookedEndScene` when the hook is
taken away, and then calls the original. -/
theorem original_called_unhooked : ¬ ∀ acts, Along unloadStep OriginalLives .attached acts := by
  intro h
  exact absurd (h (starts ++ List.replicate 4 .render ++ unloads ++ [.render])) (by decide +kernel)

/-! ## The start-up of `CleanupThread` -/

/-- `CleanupThread` is before its main loop and has not given up. -/
def CleanupPc.starting : CleanupPc → Bool
  | .waiting _ | .found | .readying _ | .asking _ => true
  | _ => false

/-- The steps that the start-up takes at most from here on. -/
def CleanupPc.startSteps : CleanupPc → Nat
  | .waiting i => 403 + (100 - i)
  | .found => 402
  | .readying waitCount => 401 - 2 * waitCount
  | .asking waitCount => 400 - 2 * waitCount
  | _ => 0

/-- A step of `CleanupThread`. -/
def UnloadAct.isCleanup : UnloadAct → Bool
  | .cleanup _ => true
  | _ => false

/-- During the start-up nobody has destroyed the context, and it is asked only when it is
there. -/
structure UnloadState.Starting (s : UnloadState) : Prop where
  life : s.cleanup.starting = true → s.life ≠ .destroyed
  asked : ∀ waitCount, s.cleanup = .asking waitCount → s.owner = true ∧ waitCount < 200
  readied : ∀ waitCount, s.cleanup = .readying waitCount → waitCount ≤ 200

section
variable {s s' t : UnloadState}

theorem Undone.starting (hu : Undone s s') (h : s.Starting) : s'.Starting := by
  refine ⟨?_, ?_, ?_⟩
  · rw [hu.cleanup]
    exact fun hstarting => hu.life (h.life hstarting)
  · rw [hu.cleanup]
    intro waitCount hpc
    exact ⟨hu.owner (h.asked waitCount hpc).1, (h.asked waitCount hpc).2⟩
  · rw [hu.cleanup]
    exact h.readied

theorem starting_over (h : s.cleanup.starting = false) : s.Starting := by
  refine ⟨?_, ?_, ?_⟩
  · simp [h]
  · intro waitCount hpc
    rw [hpc] at h
    simp [CleanupPc.starting] at h
  · intro waitCount hpc
    rw [hpc] at h
    simp [CleanupPc.starting] at h

theorem cleanupStep_over {pressed : Bool} (h : s.cleanup.starting = false) (hs : cleanupStep s pressed = some s') :
    s'.cleanup.starting = false := by
  cases cleanupStep_turn hs with
  | fault f _ _ => exact h
  | goto next hgoes =>
    cases hgoes with
    | wait _ hpc _ | find _ hpc | ready hpc | ask _ hpc _ _ | askAgain _ hpc => simp [hpc, CleanupPc.starting] at h
    | _ => rfl
  | enter _ =>
    show (if s.cleanupCalled then CleanupPc.freeing else .guarding).starting = false
    split <;> rfl
  | _ => rfl

/-- A step of the start-up uses one of its steps up; after it there is no way back. -/
theorem cleanupStep_starting {pressed : Bool} (h : s.Starting) (hs : cleanupStep s pressed = some s') :
    s'.Starting ∧ (s'.cleanup.starting = false ∨ s'.cleanup.startSteps + 1 ≤ s.cleanup.startSteps) := by
  by_cases hstarting : s.cleanup.starting = false
  · have hover := cleanupStep_over hstarting hs
    exact ⟨starting_over hover, .inl hover⟩
  rw [Bool.not_eq_false] at hstarting
  have halive := h.life hstarting
  cases cleanupStep_turn hs with
  | fault f hstage hlost =>
    -- the context is called only where it is there
    cases hpc : s.cleanup with
    | asking waitCount =>
      have howner := (h.asked waitCount hpc).1
      rcases hlost with hlost | hlost
      · exact absurd (howner.symm.trans hlost) (by decide)
      · exact absurd hlost halive
    | waiting _ | found | readying _ => simp [hpc] at hstage
    | _ => simp [hpc, CleanupPc.starting] at hstarting
  | goto next hgoes =>
    cases hgoes with
    | wait i hpc hmore =>
      refine ⟨⟨fun _ => halive, by simp, by simp⟩, .inr ?_⟩
      simp only [hpc, CleanupPc.startSteps]
      omega
    | find i hpc =>
      refine ⟨⟨fun _ => halive, by simp, by simp⟩, .inr ?_⟩
      simp only [hpc, CleanupPc.startSteps]
      omega
    | ready hpc =>
      refine ⟨⟨fun _ => halive, by simp, ?_⟩, .inr ?_⟩
      · intro waitCount hnext
        obtain rfl : 0 = waitCount := by simpa using hnext
        exact Nat.zero_le _
      · simp only [hpc, CleanupPc.startSteps]
        omega
    | ask waitCount hpc hmore howner =>
      refine ⟨⟨fun _ => halive, ?_, by simp⟩, .inr ?_⟩
      · intro asked hnext
        obtain rfl : waitCount = asked := by simpa using hnext
        exact ⟨howner, hmore⟩
      · simp only [hpc, CleanupPc.startSteps]
        omega
    | askAgain waitCount hpc =>
      have hlt := (h.asked waitCount hpc).2
      refine ⟨⟨fun _ => halive, by simp, ?_⟩, .inr ?_⟩
      · intro next hnext
        obtain rfl : waitCount + 1 = next := by simpa using hnext
        exact hlt
      · simp only [hpc, CleanupPc.startSteps]
        omega
    | miss _ | abandon _ _ | unowned _ _ | leave _ => exact ⟨starting_over rfl, .inl rfl⟩
    | enter _ _ _ => exact ⟨starting_over rfl, .inl rfl⟩
    | loop hpc | poll hpc | press hpc | stop hpc | skipStop hpc _ | guard hpc | free hpc _ | skipShutdown hpc _ =>
      simp [hpc, CleanupPc.starting] at hstarting
  | key hpc _ | stop hpc | enter hpc | withdraw hpc | shut hpc | stopServer hpc | unhook hpc | clear hpc | reset hpc
  | destroy hpc => simp [hpc, CleanupPc.starting] at hstarting

theorem unloadStep_starting {a : UnloadAct} (h : s.Starting) (hs : unloadStep s a = some s') :
    s'.Starting ∧ (s'.cleanup.starting = false ∨
      s'.cleanup.startSteps + (if a.isCleanup then 1 else 0) ≤ s.cleanup.startSteps) := by
  by_cases ha : ∃ pressed, a = .cleanup pressed
  · obtain ⟨pressed, rfl⟩ := ha
    exact cleanupStep_starting h hs
  · have hne : ∀ pressed, a ≠ .cleanup pressed := fun pressed hpressed => ha ⟨pressed, hpressed⟩
    have hundone := unloadStep_undone hne hs
    refine ⟨hundone.starting h, .inr ?_⟩
    have hother : a.isCleanup = false := by
      cases a with
      | cleanup pressed => exact absurd rfl (hne pressed)
      | main ok => rfl
      | render => rfl
    simp [hundone.cleanup, hother]

theorem startSteps_pos (h : s.Starting) (hstarting : s.cleanup.starting = true) : 0 < s.cleanup.startSteps := by
  cases hpc : s.cleanup with
  | waiting i =>
    simp only [CleanupPc.startSteps]
    omega
  | found => simp [CleanupPc.startSteps]
  | readying waitCount =>
    have hle := h.readied waitCount hpc
    simp only [CleanupPc.startSteps]
    omega
  | asking waitCount =>
    obtain ⟨-, hlt⟩ := h.asked waitCount hpc
    simp only [CleanupPc.startSteps]
    omega
  | _ => simp [hpc, CleanupPc.starting] at hstarting

theorem startSteps_over {pc : CleanupPc} (h : pc.starting = false) : pc.startSteps = 0 := by
  cases pc with
  | waiting _ | found | readying _ | asking _ => simp [CleanupPc.starting] at h
  | _ => rfl

theorem run_startSteps {acts : List UnloadAct} (h : s.Starting) (hrun : run unloadStep s acts = some t) :
    t.Starting ∧ (t.cleanup.starting = false ∨
      t.cleanup.startSteps + acts.countP (·.isCleanup) ≤ s.cleanup.startSteps) := by
  induction acts generalizing s with
  | nil =>
    obtain rfl : s = t := by simpa using hrun
    exact ⟨h, .inr (by simp)⟩
  | cons a acts ih =>
    obtain ⟨s', hs, hrest⟩ := run_cons.mp hrun
    obtain ⟨hstarting', hfirst⟩ := unloadStep_starting h hs
    obtain ⟨hstarting, hothers⟩ := ih hstarting' hrest
    refine ⟨hstarting, ?_⟩
    rw [List.countP_cons]
    rcases hothers with hover | hothers
    · exact .inl hover
    rcases hfirst with hover | hfirst
    · -- past the start-up there are no steps left to use
      rw [startSteps_over hover] at hothers
      by_cases hlast : t.cleanup.starting = true
      · have hpos := startSteps_pos hstarting hlast
        omega
      · exact .inl (Bool.eq_false_iff.mpr hlast)
    · exact .inr (by omega)

theorem attached_starting : UnloadState.attached.Starting := by
  refine ⟨?_, ?_, ?_⟩ <;> simp [UnloadState.attached]

/-- **The start-up of `CleanupThread` ends**, whatever the other threads do: after 503 of its
own steps it is in its main loop, or past it, or has given up. Until then it asks no context
that is not there. -/
theorem startup_ends {acts : List UnloadAct} {t : UnloadState} (hrun : run unloadStep .attached acts = some t) :
    (503 ≤ acts.countP (·.isCleanup) → t.cleanup.starting = false) ∧
      ∀ waitCount, t.cleanup = .asking waitCount → t.owner = true ∧ t.life ≠ .destroyed := by
  obtain ⟨hstarting, hcount⟩ := run_startSteps attached_starting hrun
  refine ⟨fun hsteps => ?_, fun waitCount hpc => ?_⟩
  · rcases hcount with hover | hcount
    · exact hover
    · by_contra hlast
      have hpos := startSteps_pos hstarting (by simpa using hlast)
      have hfirst : UnloadState.attached.cleanup.startSteps = 503 := rfl
      omega
  · exact ⟨(hstarting.asked waitCount hpc).1, hstarting.life (by rw [hpc]; rfl)⟩

end

/-- The agent starts, and nobody presses DELETE. -/
def keepsPolling : List UnloadAct := List.replicate 10 (.main true) ++ List.replicate 503 (.cleanup false)

theorem startup_ends_polling :
    ∃ t, run unloadStep .attached keepsPolling = some t ∧ t.cleanup.starting = false := by
  obtain ⟨t, hrun⟩ : ∃ t, run unloadStep .attached keepsPolling = some t :=
    Option.isSome_iff_exists.mp (by decide +kernel)
  exact ⟨t, hrun, (startup_ends hrun).1 (by decide +kernel)⟩

/-! ## The DELETE key -/

section
variable {s s' : UnloadState}

/-- Where `GetAsyncKeyState` finds the key down, the thread goes on to unload. -/
def PressUnloads (s : UnloadState) (a : UnloadAct) : Prop :=
  a = .cleanup true → s.cleanup = .keying → ∃ s', unloadStep s a = some s' ∧ s'.cleanup = .pressed

/-- The key that is down is not stored: the thread leaves its loop instead. -/
theorem cleanupStep_key {pressed : Bool} (h : s.deleteKeyWasPressed = false) (hs : cleanupStep s pressed = some s') :
    s'.deleteKeyWasPressed = false := by
  cases cleanupStep_turn hs with
  | key _ hunpressed => exact hunpressed h
  | _ => exact h

/-- **Every press is noticed**: in every interleaving, a key that is down when
`CleanupThread` looks starts the unloading, also when it was down all along. -/
theorem press_unloads (acts : List UnloadAct) : Along unloadStep PressUnloads .attached acts := by
  let Up (s : UnloadState) : Prop := s.deleteKeyWasPressed = false
  have hstep (s : UnloadState) (a : UnloadAct) (s' : UnloadState) (h : Up s) (_ : True)
      (hs : unloadStep s a = some s') : Up s' := by
    by_cases ha : ∃ pressed, a = .cleanup pressed
    · obtain ⟨pressed, rfl⟩ := ha
      exact cleanupStep_key h hs
    · exact (unloadStep_undone (fun pressed hpressed => ha ⟨pressed, hpressed⟩) hs).key.trans h
  refine along_imp hstep (fun s a h _ ha hpc => ?_) rfl (.of_forall (fun _ _ => trivial) acts)
  subst ha
  refine ⟨{ s with cleanup := .pressed }, ?_, rfl⟩
  show cleanupStep s true = _
  rw [cleanupStep, hpc]
  exact congrArg some (if_pos (by rw [h]; rfl))

end

end Icecap.Unloading
