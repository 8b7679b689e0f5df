import IcecapAgent.UnloadThreads

/- What is left of the agent when its code is freed.

   `CleanupThread` frees the DLL that the hook leads into and that the threads of the
   server run in. It unloads only after it has seen the agent run, so `MainThread` is
   then past its part of `initialize`, and what `shutdown` takes down stays down.

   `freed_clean` — when `FreeLibraryAndExitThread` is called there is no hook, no server,
   and no context, in every interleaving in which the outgoing thread can be created.
   When it cannot, `initialize` forgets the hook, and the code behind it is freed
   (`freed_hooked`). -/
namespace Icecap.Unloading
open StepRun

/-- The outgoing thread can be created. -/
def SpawnSucceeds (s : UnloadState) (a : UnloadAct) : Prop := s.main = .spawning → a ≠ .main false

instance (s : UnloadState) (a : UnloadAct) : Decidable (SpawnSucceeds s a) := inferInstanceAs (Decidable (_ → _))

/-- `MainThread` is in `initialize` before the server runs. -/
@[simp] def MainPc.opening : MainPc → Bool
  | .marking | .hooking | .listening => true
  | _ => false

/-- `MainThread` has nothing left to do to the hook and the server, unless the outgoing
thread cannot be created. -/
@[simp] def MainPc.settled : MainPc → Bool
  | .spawning | .getting | .publishing _ | .polling | .checking | .returned => true
  | _ => false

/-- What is known at each statement of `CleanupThread`. -/
@[simp] def UnloadState.Known (s : UnloadState) : Prop :=
  match s.cleanup with
  | .waiting _ | .found | .readying _ | .returned => s.cleanupCalled = false
  | .asking _ => s.cleanupCalled = false ∧ s.owner = true
  | .looping | .polling | .keying | .pressed | .stopping | .entering =>
    s.cleanupCalled = false ∧ s.owner = true ∧ s.initialized = true
  | .guarding | .withdrawing | .shutting | .stoppingServer => s.owner = true ∧ s.initialized = true
  | .unhooking => s.initialized = true ∧ s.network = false
  | .clearing => s.network = false ∧ s.hooked = false
  | .resetting => s.network = false ∧ s.hooked = false ∧ s.initialized = false
  | .destroying => s.network = false ∧ s.hooked = false ∧ s.initialized = false ∧ s.owner = false
  | .freeing =>
    s.network = false ∧ s.hooked = false ∧ s.initialized = false ∧ s.owner = false ∧ s.life = .destroyed

/-- `CleanupThread` unloads only what runs. -/
structure UnloadState.Closing (s : UnloadState) : Prop where
  begun : s.main.opening = true → s.initialized = true
  settled : s.network = true ∨ 1 < s.cleanup.stage → s.main.settled = true
  initialized : s.network = true → s.initialized = true
  known : s.Known

section
variable {s s' next : UnloadState}

theorem attached_closing : UnloadState.attached.Closing := by
  constructor <;> simp [UnloadState.attached]

theorem UnloadState.Closing.fault (h : s.Closing) (f : Fault) : (s.fault f).Closing :=
  ⟨h.begun, h.settled, h.initialized, h.known⟩

/-- What the end of `CleanupThread` is about. -/
structure Alike (s s' : UnloadState) : Prop where
  cleanup : s'.cleanup = s.cleanup
  called : s'.cleanupCalled = s.cleanupCalled
  owner : s'.owner = s.owner
  life : s'.life = s.life
  initialized : s'.initialized = s.initialized
  network : s'.network = s.network
  hooked : s'.hooked = s.hooked

theorem Alike.known (ha : Alike s s') (h : s.Known) : s'.Known := by
  simp only [UnloadState.Known] at h ⊢
  rw [ha.cleanup, ha.called, ha.owner, ha.life, ha.initialized, ha.network, ha.hooked]
  exact h

theorem mainStep_alike {ok : Bool} (hsettled : s.main.settled = true) (hspawn : SpawnSucceeds s (.main ok))
    (hs : mainStep s ok = some s') : Alike s s' ∧ s'.main.settled = true := by
  have fault (f : Fault) : Alike s (s.fault f) ∧ (s.fault f).main.settled = true :=
    ⟨⟨rfl, rfl, rfl, rfl, rfl, rfl, rfl⟩, hsettled⟩
  have goto (pc : MainPc) (published : Bool) (hpc : pc.settled = true) :
      Alike s { s with main := pc, published } ∧ pc.settled = true :=
    ⟨⟨rfl, rfl, rfl, rfl, rfl, rfl, rfl⟩, hpc⟩
  cases mainStep_turn hs with
  | fault f _ => exact fault f
  | goto next hgoes =>
    refine goto next s.published ?_
    cases hgoes with
    | call hpc | unhooked hpc | unheard hpc => simp [hpc] at hsettled
    | unspawned hpc hok => exact absurd (congrArg UnloadAct.main hok) (hspawn hpc)
    | _ => rfl
  | publish context _ => exact goto .polling context rfl
  | create hpc | claim hpc | mark hpc | hook hpc | listen hpc | unwind hpc | fail hpc | clear hpc =>
    simp [hpc] at hsettled

/-- Before the server runs, `CleanupThread` has at most seen the context. -/
theorem UnloadState.Closing.early (h : s.Closing) (hunsettled : s.main.settled = false)
    (hcleanup : s'.cleanup = s.cleanup) (hcalled : s'.cleanupCalled = s.cleanupCalled)
    (howner : s.owner = true → s'.owner = true) (hbegun : s'.main.opening = true → s'.initialized = true)
    (hnetwork : s'.network = true → s'.main.settled = true ∧ s'.initialized = true) : s'.Closing := by
  have hstage : ¬ 1 < s.cleanup.stage := by
    intro hlt
    exact absurd (h.settled (.inr hlt)) (Bool.eq_false_iff.mp hunsettled)
  refine ⟨hbegun, ?_, fun hn => (hnetwork hn).2, ?_⟩
  · rintro (hn | hlt)
    · exact (hnetwork hn).1
    · exact absurd (hcleanup ▸ hlt) hstage
  · have hknown := h.known
    simp only [UnloadState.Known, hcleanup, hcalled] at hknown ⊢
    cases hpc : s.cleanup with
    | waiting _ | found | readying _ | returned => simpa only [hpc] using hknown
    | asking waitCount =>
      simp only [hpc] at hknown
      exact ⟨hknown.1, howner hknown.2⟩
    | _ => simp [hpc] at hstage

theorem mainStep_closing {ok : Bool} (h : s.Closing) (hspawn : SpawnSucceeds s (.main ok))
    (hs : mainStep s ok = some s') : s'.Closing := by
  by_cases hsettled : s.main.settled = true
  · obtain ⟨halike, hsettled'⟩ := mainStep_alike hsettled hspawn hs
    refine ⟨?_, fun _ => hsettled', ?_, halike.known h.known⟩
    · intro hopening
      cases hmain : s'.main <;> simp [hmain] at hopening hsettled'
    · rw [halike.network, halike.initialized]
      exact h.initialized
  rw [Bool.not_eq_true] at hsettled
  have hdown : s.network ≠ true := by
    intro hn
    exact absurd (h.settled (.inl hn)) (Bool.eq_false_iff.mp hsettled)
  have goto (pc : MainPc) (initialized running hooked : Bool) (hbegun : pc.opening = true → initialized = true) :
      UnloadState.Closing { s with main := pc, initialized, running, hooked } :=
    h.early hsettled rfl rfl id hbegun fun hn => absurd hn hdown
  cases mainStep_turn hs with
  | fault f _ => exact h.fault f
  | goto next hgoes =>
    -- a test never leads into the part of `initialize` that hooks and listens
    refine goto next s.initialized s.running s.hooked fun hopening => ?_
    cases hgoes <;> simp at hopening
  | create _ => exact h.early hsettled rfl rfl (fun _ => rfl) (by simp) fun hn => absurd hn hdown
  | claim _ => exact goto .marking true s.running s.hooked fun _ => rfl
  | mark hpc => exact goto .hooking s.initialized true s.hooked fun _ => h.begun (by rw [hpc]; rfl)
  | hook hpc => exact goto .listening s.initialized s.running true fun _ => h.begun (by rw [hpc]; rfl)
  | listen hpc =>
    -- the server runs from here on
    have hinitialized := h.begun (by rw [hpc]; rfl)
    exact h.early hsettled rfl rfl id (by simp) fun _ => ⟨rfl, hinitialized⟩
  | unwind _ => exact h.early hsettled rfl rfl id (by simp) fun hn => by simp at hn
  | fail _ => exact goto .clearing s.initialized false s.hooked (by simp)
  | clear _ => exact goto .returned false s.running s.hooked (by simp)
  | publish context hpc => simp [hpc] at hsettled

theorem renderStep_closing (h : s.Closing) (hs : renderStep s = some s') : s'.Closing := by
  have goto (render : RenderPc) : UnloadState.Closing { s with render } :=
    ⟨h.begun, h.settled, h.initialized, h.known⟩
  cases renderStep_turn hs with
  | fault f _ _ => exact h.fault f
  | enter _ _ => exact goto _
  | load _ => exact goto _
  | goto next _ => exact goto next

theorem cleanupStep_closing {pressed : Bool} (h : s.Closing) (hs : cleanupStep s pressed = some s') : s'.Closing := by
  have goto {t : UnloadState} (hmain : t.main = s.main) (hinitialized : t.initialized = s.initialized)
      (hnetwork : t.network = true → s.network = true)
      (hstage : 1 < t.cleanup.stage → s.network = true ∨ 1 < s.cleanup.stage) (hknown : t.Known) : t.Closing := by
    refine ⟨?_, ?_, ?_, hknown⟩
    · rw [hmain, hinitialized]
      exact h.begun
    · rw [hmain]
      rintro (hn | hlt)
      · exact h.settled (.inl (hnetwork hn))
      · exact h.settled (hstage hlt)
    · rw [hinitialized]
      exact fun hn => h.initialized (hnetwork hn)
  have hknown := h.known
  cases cleanupStep_turn hs with
  | fault f _ _ => exact h.fault f
  | goto next hgoes =>
    cases hgoes with
    | wait _ hpc _ | find _ hpc | ready hpc | miss hpc | abandon _ hpc =>
      simp only [UnloadState.Known, hpc] at hknown
      exact goto rfl rfl id (by simp) hknown
    | ask waitCount hpc _ howner =>
      simp only [UnloadState.Known, hpc] at hknown
      exact goto rfl rfl id (by simp) ⟨hknown, howner⟩
    | enter waitCount hpc hrun =>
      -- the agent was seen to run
      simp only [UnloadState.Known, hpc] at hknown
      have hnetwork : s.network = true := by
        simp only [UnloadState.isRunning, Bool.and_eq_true] at hrun
        exact hrun.2
      exact goto rfl rfl id (fun _ => .inl hnetwork) ⟨hknown.1, hknown.2, h.initialized hnetwork⟩
    | askAgain waitCount hpc =>
      simp only [UnloadState.Known, hpc] at hknown
      exact goto rfl rfl id (by simp) hknown.1
    | loop hpc | poll hpc | press hpc | stop hpc | guard hpc =>
      simp only [UnloadState.Known, hpc] at hknown
      exact goto rfl rfl id (fun _ => .inr (by simp [hpc])) hknown
    | leave hpc =>
      simp only [UnloadState.Known, hpc] at hknown
      exact goto rfl rfl id (by simp) hknown.1
    | unowned hpc howner | skipStop hpc howner =>
      simp only [UnloadState.Known, hpc] at hknown
      exact absurd (hknown.2.1.symm.trans howner) (by decide)
    | free hpc howner =>
      simp only [UnloadState.Known, hpc] at hknown
      exact absurd (hknown.1.symm.trans howner) (by decide)
    | skipShutdown hpc hinitialized =>
      simp only [UnloadState.Known, hpc] at hknown
      exact absurd (hknown.2.symm.trans hinitialized) (by decide)
  | key hpc _ | stop hpc | withdraw hpc | shut hpc =>
    simp only [UnloadState.Known, hpc] at hknown
    exact goto rfl rfl id (fun _ => .inr (by simp [hpc])) hknown
  | enter hpc =>
    simp only [UnloadState.Known, hpc] at hknown
    refine goto rfl rfl id (fun _ => .inr (by simp [hpc])) ?_
    simp only [UnloadState.Known, hknown.1]
    exact hknown.2
  | stopServer hpc =>
    simp only [UnloadState.Known, hpc] at hknown
    exact goto rfl rfl (fun hn => by simp at hn) (fun _ => .inr (by simp [hpc])) ⟨hknown.2, rfl⟩
  | unhook hpc =>
    simp only [UnloadState.Known, hpc] at hknown
    exact goto rfl rfl id (fun _ => .inr (by simp [hpc])) ⟨hknown.2, rfl⟩
  | clear hpc =>
    have hsettled : s.main.settled = true := h.settled (.inr (by simp [hpc]))
    simp only [UnloadState.Known, hpc] at hknown
    refine ⟨?_, fun _ => hsettled, ?_, hknown.1, hknown.2, rfl⟩
    · intro hopening
      cases hmain : s.main <;> simp [hmain] at hopening hsettled
    · intro hn
      exact absurd (hknown.1.symm.trans hn) (by decide)
  | reset hpc =>
    simp only [UnloadState.Known, hpc] at hknown
    exact goto rfl rfl id (fun _ => .inr (by simp [hpc])) ⟨hknown.1, hknown.2.1, hknown.2.2, rfl⟩
  | destroy hpc =>
    simp only [UnloadState.Known, hpc] at hknown
    exact goto rfl rfl (fun hn => by simp at hn) (fun _ => .inr (by simp [hpc]))
      ⟨rfl, hknown.2.1, hknown.2.2.1, hknown.2.2.2, rfl⟩

theorem unloadStep_closing {a : UnloadAct} (h : s.Closing) (hspawn : SpawnSucceeds s a)
    (hs : unloadStep s a = some s') : s'.Closing := by
  cases a with
  | main ok => exact mainStep_closing h hspawn hs
  | cleanup pressed => exact cleanupStep_closing h hs
  | render => exact renderStep_closing h hs

end

/-- **When the code is freed nothing leads there any more**: in every interleaving in which
the outgoing thread can be created, `FreeLibraryAndExitThread` is called with the hook
removed, the server stopped, and the context shut down and destroyed. -/
theorem freed_clean {acts : List UnloadAct} {t : UnloadState} (hrun : run unloadStep .attached acts = some t)
    (hspawn : Along unloadStep SpawnSucceeds .attached acts) (hfreeing : t.cleanup = .freeing) :
    t.hooked = false ∧ t.network = false ∧ t.initialized = false ∧ t.owner = false ∧ t.life = .destroyed := by
  have hclosing := run_invariant_along (fun _ _ _ h hp hs => unloadStep_closing h hp hs) hrun hspawn attached_closing
  have hknown := hclosing.known
  simp only [UnloadState.Known, hfreeing] at hknown
  obtain ⟨hnetwork, hhooked, hinitialized, howner, hlife⟩ := hknown
  exact ⟨hhooked, hnetwork, hinitialized, howner, hlife⟩

theorem freed_clean_unload :
    ∃ t, run unloadStep .attached (starts ++ unloads ++ [.main true, .cleanup true]) = some t ∧
      t.hooked = false ∧ t.network = false ∧ t.initialized = false ∧ t.owner = false ∧ t.life = .destroyed := by
  obtain ⟨t, hrun⟩ : ∃ t, run unloadStep .attached (starts ++ unloads ++ [.main true, .cleanup true]) = some t :=
    Option.isSome_iff_exists.mp (by decide +kernel)
  have hfreeing : ((run unloadStep .attached (starts ++ unloads ++ [.main true, .cleanup true])).map (·.cleanup)) =
      some .freeing := by decide +kernel
  rw [hrun] at hfreeing
  exact ⟨t, hrun, freed_clean hrun (by decide +kernel) (Option.some.inj hfreeing)⟩

/-- `CleanupThread` sees the server run and DELETE pressed, and then the outgoing thread
cannot be created. -/
def spawnFails : List UnloadAct :=
  List.replicate 6 (.main true) ++ List.replicate 6 (.cleanup false) ++ [.cleanup true, .main false] ++
    List.replicate 3 (.main true) ++ List.replicate 8 (.cleanup true)

/-- **The hook is left behind**: where the outgoing thread cannot be created, `initialize`
gives up without removing the hook, and `shutdown` then finds nothing to shut down. -/
theorem freed_hooked :
    ¬ ∀ acts t, run unloadStep .attached acts = some t → t.cleanup = .freeing → t.hooked = false := by
  intro h
  have hrun : run unloadStep .attached spawnFails =
      some ⟨false, .destroyed, false, false, false, false, true, true, false, .returned, .freeing, .outside, []⟩ := by
    decide +kernel
  have hhooked := h _ _ hrun rfl
  simp at hhooked

end Icecap.Unloading
