import IcecapAgent.ApplicationContext

/- Unloading the agent: who still holds the application context when it goes.

   `MainThread` makes the context, initialises it, publishes its address and then polls
   it through `g_appContext`. `CleanupThread` polls it too, and when DELETE is pressed it
   withdraws the address, shuts the context down, resets `g_appContext` and leaves. The
   render thread runs `HookedEndScene` while the hook is enabled; a call loads the address
   once. The threads are interleaved by statement.

   The context appears with the flags that these threads read: `m_initialized`,
   `m_running`, whether the network manager says that it runs, and whether the hook is
   enabled. A step that must not be taken is recorded as a fault, and the thread that
   takes it gets no further.

   1. `context_outlives_uses` — there is no fault in any run in which `g_appContext` is
      reset only when `MainThread` will not ask it again, and the context is destroyed
      only when `MainThread` has returned and no `HookedEndScene` has the address or can
      still load it;
   2. `context_used_after_reset` — nothing makes `CleanupThread` wait for that;
   3. `initialize_run`, `shutdown_run` — undisturbed, the statements make up
      `initialize` and `shutdown` as far as these flags go. -/
namespace Icecap.Unloading
open StepRun Transport

inductive ContextLife where
  | unmade
  | alive
  | destroyed
  deriving DecidableEq, Repr

inductive Fault where
  /-- a method called through `g_appContext` when it is null -/
  | nullCall
  /-- a use of the context after it was destroyed -/
  | useAfterDestroy
  /-- `SetApplicationContext` with a context that was destroyed -/
  | publishDestroyed
  deriving DecidableEq, Repr

/-- The statement `MainThread` is at. -/
inductive MainPc where
  | creating
  /-- `g_appContext->initialize` -/
  | calling
  /-- `m_initialized.exchange(true)` in `initialize` -/
  | exchanging
  /-- `m_running.store(true)` -/
  | marking
  | hooking
  /-- `startServer` up to the store to its `m_running` -/
  | listening
  /-- the outgoing thread is created -/
  | spawning
  /-- `startServer` after that failed -/
  | unwinding
  /-- `m_running.store(false)` in `initialize` -/
  | failing
  /-- `m_initialized.store(false)` -/
  | clearing
  /-- `g_appContext.get()` -/
  | getting
  /-- `SetApplicationContext`, and whether its argument is not null -/
  | publishing (context : Bool)
  /-- `g_appContext->isRunning()`, before it is entered -/
  | polling
  /-- in `isRunning` -/
  | checking
  | returned
  deriving DecidableEq, Repr

/-- The statement `CleanupThread` is at. -/
inductive CleanupPc where
  | waiting (i : Nat)
  /-- the test after the wait -/
  | found
  | readying (waitCount : Nat)
  /-- `g_appContext->isRunning()` for the first time -/
  | asking (waitCount : Nat)
  /-- the test of `g_appContext` in the main loop -/
  | looping
  | polling
  /-- `GetAsyncKeyState` -/
  | keying
  /-- the test before `stop` -/
  | pressed
  | stopping
  /-- `cleanup_called.exchange(true)` in `Cleanup` -/
  | entering
  | guarding
  /-- `SetApplicationContext(nullptr)` -/
  | withdrawing
  /-- `g_appContext->shutdown()` up to `m_running.store(false)` -/
  | shutting
  | stoppingServer
  /-- `MH_Uninitialize` -/
  | unhooking
  /-- `m_initialized.store(false)` -/
  | clearing
  /-- `g_appContext.reset()`: the pointer is null -/
  | resetting
  /-- and the context is destroyed -/
  | destroying
  /-- `FreeLibraryAndExitThread` -/
  | freeing
  | returned
  deriving DecidableEq, Repr

/-- Where the render thread is in `HookedEndScene`. -/
inductive RenderPc where
  | outside
  /-- `GetApplicationContext()` -/
  | loading
  | locking
  | working
  | unlocking
  deriving DecidableEq, Repr

structure UnloadState where
  /-- whether `g_appContext` is not null -/
  owner : Bool
  life : ContextLife
  /-- whether `g_applicationContext` is not null -/
  published : Bool
  initialized : Bool
  running : Bool
  /-- `m_networkManager->isRunning()` -/
  network : Bool
  hooked : Bool
  cleanupCalled : Bool
  deleteKeyWasPressed : Bool
  main : MainPc
  cleanup : CleanupPc
  render : RenderPc
  faults : List Fault
  deriving DecidableEq, Repr

inductive UnloadAct where
  /-- `MainThread`, with whether what it calls succeeds -/
  | main (ok : Bool)
  /-- `CleanupThread`, with whether DELETE is down -/
  | cleanup (deleteKeyIsPressed : Bool)
  | render
  deriving DecidableEq, Repr

namespace UnloadState

/-- `DllMain` has created the two threads. -/
def attached : UnloadState :=
  ⟨false, .unmade, false, false, false, false, false, false, false, .creating, .waiting 0, .outside, []⟩

def fault (s : UnloadState) (f : Fault) : UnloadState := { s with faults := s.faults ++ [f] }

/-- A step that uses the context and leads to `next`. -/
def use (s next : UnloadState) : UnloadState := if s.life = .destroyed then s.fault .useAfterDestroy else next

/-- A step that calls a method through `g_appContext` and leads to `next`. -/
def call (s next : UnloadState) : UnloadState := if s.owner then s.use next else s.fault .nullCall

/-- `ApplicationContext::isRunning`. -/
def isRunning (s : UnloadState) : Bool := s.running && s.network

end UnloadState

/-- A step of `MainThread`. -/
def mainStep (s : UnloadState) (ok : Bool) : Option UnloadState :=
  match s.main with
  | .creating =>
    -- when the construction throws, the handler finds no context to shut down
    some (if ok then { s with owner := true, life := .alive, main := .calling } else { s with main := .returned })
  | .calling => some (if s.owner then { s with main := .exchanging } else s.fault .nullCall)
  | .exchanging =>
    some (s.use (if s.initialized then { s with main := .returned }
      else { s with initialized := true, main := .marking }))
  | .marking => some (s.use { s with running := true, main := .hooking })
  | .hooking => some (if ok then { s with hooked := true, main := .listening } else { s with main := .failing })
  | .listening => some (s.use (if ok then { s with network := true, main := .spawning } else { s with main := .failing }))
  | .spawning => some (s.use { s with main := if ok then .getting else .unwinding })
  | .unwinding => some (s.use { s with network := false, main := .failing })
  | .failing => some (s.use { s with running := false, main := .clearing })
  | .clearing => some (s.use { s with initialized := false, main := .returned })
  | .getting => some { s with main := .publishing s.owner }
  | .publishing context =>
    some (if context && s.life = .destroyed then s.fault .publishDestroyed
      else { s with published := context, main := .polling })
  | .polling => some (if s.owner then { s with main := .checking } else s.fault .nullCall)
  | .checking => some (s.use { s with main := if s.isRunning then .polling else .returned })
  | .returned => none

/-- A step of `CleanupThread`, with the `Cleanup` it calls. -/
def cleanupStep (s : UnloadState) (deleteKeyIsPressed : Bool) : Option UnloadState :=
  match s.cleanup with
  | .waiting i =>
    some { s with cleanup := if i < 100 then (if s.owner then .found else .waiting (i + 1)) else .found }
  | .found => some { s with cleanup := if s.owner then .readying 0 else .returned }
  | .readying waitCount =>
    some { s with cleanup := if waitCount < 200 && s.owner then .asking waitCount else .returned }
  | .asking waitCount => some (s.call { s with cleanup := if s.isRunning then .looping else .readying (waitCount + 1) })
  | .looping => some { s with cleanup := if s.owner then .polling else .returned }
  | .polling => some (s.call { s with cleanup := if s.isRunning then .keying else .returned })
  | .keying =>
    some (if deleteKeyIsPressed && !s.deleteKeyWasPressed then { s with cleanup := .pressed }
      else { s with deleteKeyWasPressed := deleteKeyIsPressed, cleanup := .looping })
  | .pressed => some { s with cleanup := if s.owner then .stopping else .entering }
  | .stopping => some (s.call { s with running := false, cleanup := .entering })
  | .entering => some { s with cleanupCalled := true, cleanup := if s.cleanupCalled then .freeing else .guarding }
  | .guarding => some { s with cleanup := if s.owner then .withdrawing else .freeing }
  | .withdrawing => some { s with published := false, cleanup := .shutting }
  | .shutting =>
    some (s.call (if s.initialized then { s with running := false, cleanup := .stoppingServer }
      else { s with cleanup := .resetting }))
  | .stoppingServer => some (s.use { s with network := false, cleanup := .unhooking })
  | .unhooking => some { s with hooked := false, cleanup := .clearing }
  | .clearing => some (s.use { s with initialized := false, cleanup := .resetting })
  | .resetting => some { s with owner := false, cleanup := .destroying }
  | .destroying =>
    -- the destructor's own `shutdown` finds a context that is not initialised
    some { s with life := .destroyed, network := false, cleanup := .freeing }
  | .freeing | .returned => none

/-- A step of `HookedEndScene` on the render thread; a call begins when the hook is
enabled. -/
def renderStep (s : UnloadState) : Option UnloadState :=
  match s.render with
  | .outside => if s.hooked then some { s with render := .loading } else none
  | .loading => some { s with render := if s.published then .locking else .outside }
  | .locking => some (s.use { s with render := .working })
  | .working => some (s.use { s with render := .unlocking })
  | .unlocking => some (s.use { s with render := .outside })

def unloadStep (s : UnloadState) : UnloadAct → Option UnloadState
  | .main ok => mainStep s ok
  | .cleanup deleteKeyIsPressed => cleanupStep s deleteKeyIsPressed
  | .render => renderStep s

/-! ## The condition -/

/-- `MainThread` may still read `g_appContext`. In `isRunning` it has read it for the
last time when `stop` was called. -/
@[simp] def MainPc.needsOwner : MainPc → Bool
  | .unwinding | .failing | .clearing | .checking | .returned => false
  | _ => true

/-- `HookedEndScene` has the address of the context. -/
@[simp] def RenderPc.holds : RenderPc → Bool
  | .outside | .loading => false
  | _ => true

/-- The render thread has the address of the context, or can still load it. -/
def UnloadState.Reachable (s : UnloadState) : Prop :=
  s.render.holds = true ∨ (s.published = true ∧ (s.hooked = true ∨ s.render = .loading))

instance (s : UnloadState) : Decidable s.Reachable := inferInstanceAs (Decidable (_ ∨ _))

/-- `g_appContext` is reset only when `MainThread` will not read it again, and the context
is destroyed only when nobody else has it. -/
def Orderly (s : UnloadState) : UnloadAct → Prop
  | .cleanup _ =>
    (s.cleanup = .resetting → s.main.needsOwner = false) ∧
      (s.cleanup = .destroying → s.main = .returned ∧ ¬ s.Reachable)
  | _ => True

instance (s : UnloadState) : DecidablePred (Orderly s)
  | .cleanup _ => inferInstanceAs (Decidable (_ ∧ _))
  | .main _ => isTrue trivial
  | .render => isTrue trivial

/-! ## What a step can do -/

/-- How far `CleanupThread` is: 1 when it has seen a context, 2 when it has seen it run,
3 when it has stopped it, 4 in `Cleanup`, 5 when `g_appContext` is reset, 6 when the
context is destroyed. -/
@[simp] def CleanupPc.stage : CleanupPc → Nat
  | .waiting _ | .found | .readying _ | .returned => 0
  | .asking _ => 1
  | .looping | .polling | .keying | .pressed | .stopping => 2
  | .entering => 3
  | .guarding | .withdrawing | .shutting | .stoppingServer | .unhooking | .clearing | .resetting => 4
  | .destroying => 5
  | .freeing => 6

/-- Where a statement of `MainThread` leads that only tests. -/
inductive MainGoes (s : UnloadState) (ok : Bool) : MainPc → Prop where
  | abandon (hpc : s.main = .creating) : MainGoes s ok .returned
  | call (hpc : s.main = .calling) : MainGoes s ok .exchanging
  | refuse (hpc : s.main = .exchanging) : MainGoes s ok .returned
  | unhooked (hpc : s.main = .hooking) : MainGoes s ok .failing
  | unheard (hpc : s.main = .listening) : MainGoes s ok .failing
  | spawn (hpc : s.main = .spawning) : MainGoes s ok .getting
  | unspawned (hpc : s.main = .spawning) (hok : ok = false) : MainGoes s ok .unwinding
  | get (hpc : s.main = .getting) : MainGoes s ok (.publishing s.owner)
  | poll (hpc : s.main = .polling) : MainGoes s ok .checking
  | again (hpc : s.main = .checking) (hrun : s.isRunning = true) : MainGoes s ok .polling
  | leave (hpc : s.main = .checking) : MainGoes s ok .returned

/-- The moves of `MainThread`. -/
inductive MainTurn (s : UnloadState) (ok : Bool) : UnloadState → Prop where
  | fault (f : Fault) (hlost : (s.owner = false ∧ s.main.needsOwner = true) ∨ s.life = .destroyed) :
      MainTurn s ok (s.fault f)
  | goto (next : MainPc) (hgoes : MainGoes s ok next) : MainTurn s ok { s with main := next }
  | create (hpc : s.main = .creating) : MainTurn s ok { s with owner := true, life := .alive, main := .calling }
  | claim (hpc : s.main = .exchanging) : MainTurn s ok { s with initialized := true, main := .marking }
  | mark (hpc : s.main = .marking) : MainTurn s ok { s with running := true, main := .hooking }
  | hook (hpc : s.main = .hooking) : MainTurn s ok { s with hooked := true, main := .listening }
  | listen (hpc : s.main = .listening) : MainTurn s ok { s with network := true, main := .spawning }
  | unwind (hpc : s.main = .unwinding) : MainTurn s ok { s with network := false, main := .failing }
  | fail (hpc : s.main = .failing) : MainTurn s ok { s with running := false, main := .clearing }
  | clear (hpc : s.main = .clearing) : MainTurn s ok { s with initialized := false, main := .returned }
  | publish (context : Bool) (hpc : s.main = .publishing context) :
      MainTurn s ok { s with published := context, main := .polling }

/-- Where a statement of `CleanupThread` leads that only tests. -/
inductive CleanupGoes (s : UnloadState) (pressed : Bool) : CleanupPc → Prop where
  | wait (i : Nat) (hpc : s.cleanup = .waiting i) (hmore : i < 100) : CleanupGoes s pressed (.waiting (i + 1))
  | find (i : Nat) (hpc : s.cleanup = .waiting i) : CleanupGoes s pressed .found
  | ready (hpc : s.cleanup = .found) : CleanupGoes s pressed (.readying 0)
  | miss (hpc : s.cleanup = .found) : CleanupGoes s pressed .returned
  | ask (waitCount : Nat) (hpc : s.cleanup = .readying waitCount) (hmore : waitCount < 200)
      (howner : s.owner = true) : CleanupGoes s pressed (.asking waitCount)
  | abandon (waitCount : Nat) (hpc : s.cleanup = .readying waitCount) : CleanupGoes s pressed .returned
  | enter (waitCount : Nat) (hpc : s.cleanup = .asking waitCount) (hrun : s.isRunning = true) :
      CleanupGoes s pressed .looping
  | askAgain (waitCount : Nat) (hpc : s.cleanup = .asking waitCount) :
      CleanupGoes s pressed (.readying (waitCount + 1))
  | loop (hpc : s.cleanup = .looping) : CleanupGoes s pressed .polling
  | unowned (hpc : s.cleanup = .looping) (howner : s.owner = false) : CleanupGoes s pressed .returned
  | poll (hpc : s.cleanup = .polling) : CleanupGoes s pressed .keying
  | leave (hpc : s.cleanup = .polling) : CleanupGoes s pressed .returned
  | press (hpc : s.cleanup = .keying) : CleanupGoes s pressed .pressed
  | stop (hpc : s.cleanup = .pressed) : CleanupGoes s pressed .stopping
  | skipStop (hpc : s.cleanup = .pressed) (howner : s.owner = false) : CleanupGoes s pressed .entering
  | guard (hpc : s.cleanup = .guarding) : CleanupGoes s pressed .withdrawing
  | free (hpc : s.cleanup = .guarding) (howner : s.owner = false) : CleanupGoes s pressed .freeing
  | skipShutdown (hpc : s.cleanup = .shutting) (hinitialized : s.initialized = false) :
      CleanupGoes s pressed .resetting

/-- The moves of `CleanupThread`. -/
inductive CleanupTurn (s : UnloadState) (pressed : Bool) : UnloadState → Prop where
  | fault (f : Fault) (hstage : 0 < s.cleanup.stage ∧ s.cleanup.stage < 5)
      (hlost : s.owner = false ∨ s.life = .destroyed) : CleanupTurn s pressed (s.fault f)
  | goto (next : CleanupPc) (hgoes : CleanupGoes s pressed next) : CleanupTurn s pressed { s with cleanup := next }
  | key (hpc : s.cleanup = .keying) (hunpressed : s.deleteKeyWasPressed = false → pressed = false) :
      CleanupTurn s pressed { s with deleteKeyWasPressed := pressed, cleanup := .looping }
  | stop (hpc : s.cleanup = .stopping) : CleanupTurn s pressed { s with running := false, cleanup := .entering }
  | enter (hpc : s.cleanup = .entering) :
      CleanupTurn s pressed { s with
        cleanupCalled := true, cleanup := if s.cleanupCalled then .freeing else .guarding }
  | withdraw (hpc : s.cleanup = .withdrawing) :
      CleanupTurn s pressed { s with published := false, cleanup := .shutting }
  | shut (hpc : s.cleanup = .shutting) :
      CleanupTurn s pressed { s with running := false, cleanup := .stoppingServer }
  | stopServer (hpc : s.cleanup = .stoppingServer) :
      CleanupTurn s pressed { s with network := false, cleanup := .unhooking }
  | unhook (hpc : s.cleanup = .unhooking) : CleanupTurn s pressed { s with hooked := false, cleanup := .clearing }
  | clear (hpc : s.cleanup = .clearing) : CleanupTurn s pressed { s with initialized := false, cleanup := .resetting }
  | reset (hpc : s.cleanup = .resetting) : CleanupTurn s pressed { s with owner := false, cleanup := .destroying }
  | destroy (hpc : s.cleanup = .destroying) :
      CleanupTurn s pressed { s with life := .destroyed, network := false, cleanup := .freeing }

/-- The moves of the render thread. -/
inductive RenderTurn (s : UnloadState) : UnloadState → Prop where
  | fault (f : Fault) (hholds : s.render.holds = true) (hlost : s.life = .destroyed) : RenderTurn s (s.fault f)
  | enter (hpc : s.render = .outside) (hhooked : s.hooked = true) : RenderTurn s { s with render := .loading }
  | load (hpc : s.render = .loading) :
      RenderTurn s { s with render := if s.published then .locking else .outside }
  | goto (next : RenderPc) (hholds : s.render.holds = true) : RenderTurn s { s with render := next }

section
variable {s s' next : UnloadState}

theorem use_eq (h : s.life ≠ .destroyed) (next : UnloadState) : s.use next = next := if_neg h

theorem call_eq (howner : s.owner = true) (h : s.life ≠ .destroyed) (next : UnloadState) : s.call next = next := by
  rw [UnloadState.call, if_pos howner, use_eq h]

/-- A step that uses the context leads to `next`, or faults. -/
theorem use_cases {P : UnloadState → Prop} (hfault : ∀ f, s.life = .destroyed → P (s.fault f)) (hnext : P next) :
    P (s.use next) := by
  unfold UnloadState.use
  split
  · rename_i hlost
    exact hfault _ hlost
  · exact hnext

theorem call_cases {P : UnloadState → Prop} (hfault : ∀ f, s.owner = false ∨ s.life = .destroyed → P (s.fault f))
    (hnext : P next) : P (s.call next) := by
  unfold UnloadState.call
  split
  · exact use_cases (fun f hlost => hfault f (.inr hlost)) hnext
  · rename_i hlost
    exact hfault _ (.inl (by simpa using hlost))

theorem mainStep_turn {ok : Bool} (hs : mainStep s ok = some s') : MainTurn s ok s' := by
  have used {next : UnloadState} (hnext : MainTurn s ok next) : MainTurn s ok (s.use next) :=
    use_cases (fun f hlost => .fault f (.inr hlost)) hnext
  unfold mainStep at hs
  cases hpc : s.main with
  | creating =>
    rw [hpc] at hs
    obtain rfl := Option.some.inj hs
    split
    · exact .create hpc
    · exact .goto _ (.abandon hpc)
  | calling =>
    rw [hpc] at hs
    obtain rfl := Option.some.inj hs
    split
    · exact .goto _ (.call hpc)
    · rename_i howner
      exact .fault _ (.inl ⟨by simpa using howner, by rw [hpc]; rfl⟩)
  | exchanging =>
    rw [hpc] at hs
    obtain rfl := Option.some.inj hs
    apply used
    split
    · exact .goto _ (.refuse hpc)
    · exact .claim hpc
  | marking =>
    rw [hpc] at hs
    obtain rfl := Option.some.inj hs
    exact used (.mark hpc)
  | hooking =>
    rw [hpc] at hs
    obtain rfl := Option.some.inj hs
    split
    · exact .hook hpc
    · exact .goto _ (.unhooked hpc)
  | listening =>
    rw [hpc] at hs
    obtain rfl := Option.some.inj hs
    apply used
    split
    · exact .listen hpc
    · exact .goto _ (.unheard hpc)
  | spawning =>
    rw [hpc] at hs
    obtain rfl := Option.some.inj hs
    apply used
    cases ok with
    | true => exact .goto _ (.spawn hpc)
    | false => exact .goto _ (.unspawned hpc rfl)
  | unwinding =>
    rw [hpc] at hs
    obtain rfl := Option.some.inj hs
    exact used (.unwind hpc)
  | failing =>
    rw [hpc] at hs
    obtain rfl := Option.some.inj hs
    exact used (.fail hpc)
  | clearing =>
    rw [hpc] at hs
    obtain rfl := Option.some.inj hs
    exact used (.clear hpc)
  | getting =>
    rw [hpc] at hs
    obtain rfl := Option.some.inj hs
    exact .goto _ (.get hpc)
  | publishing context =>
    rw [hpc] at hs
    obtain rfl := Option.some.inj hs
    split
    · rename_i hlost
      exact .fault _ (.inr (by simpa using (Bool.and_eq_true_iff.mp hlost).2))
    · exact .publish context hpc
  | polling =>
    rw [hpc] at hs
    obtain rfl := Option.some.inj hs
    split
    · exact .goto _ (.poll hpc)
    · rename_i howner
      exact .fault _ (.inl ⟨by simpa using howner, by rw [hpc]; rfl⟩)
  | checking =>
    rw [hpc] at hs
    obtain rfl := Option.some.inj hs
    apply used
    split
    · rename_i hrun
      exact .goto _ (.again hpc hrun)
    · exact .goto _ (.leave hpc)
  | returned => simp [hpc] at hs

theorem cleanupStep_turn {pressed : Bool} (hs : cleanupStep s pressed = some s') : CleanupTurn s pressed s' := by
  have called (hstage : 0 < s.cleanup.stage ∧ s.cleanup.stage < 5) {next : UnloadState}
      (hnext : CleanupTurn s pressed next) : CleanupTurn s pressed (s.call next) :=
    call_cases (fun f hlost => .fault f hstage hlost) hnext
  have used (hstage : 0 < s.cleanup.stage ∧ s.cleanup.stage < 5) {next : UnloadState}
      (hnext : CleanupTurn s pressed next) : CleanupTurn s pressed (s.use next) :=
    use_cases (fun f hlost => .fault f hstage (.inr hlost)) hnext
  unfold cleanupStep at hs
  cases hpc : s.cleanup with
  | waiting i =>
    rw [hpc] at hs
    obtain rfl := Option.some.inj hs
    split
    · rename_i hmore
      split
      · exact .goto _ (.find i hpc)
      · exact .goto _ (.wait i hpc hmore)
    · exact .goto _ (.find i hpc)
  | found =>
    rw [hpc] at hs
    obtain rfl := Option.some.inj hs
    split
    · exact .goto _ (.ready hpc)
    · exact .goto _ (.miss hpc)
  | readying waitCount =>
    rw [hpc] at hs
    obtain rfl := Option.some.inj hs
    split
    · rename_i hmore
      obtain ⟨hlt, howner⟩ : waitCount < 200 ∧ s.owner = true := by simpa using hmore
      exact .goto _ (.ask waitCount hpc hlt howner)
    · exact .goto _ (.abandon waitCount hpc)
  | asking waitCount =>
    rw [hpc] at hs
    obtain rfl := Option.some.inj hs
    apply called (by simp [hpc])
    split
    · rename_i hrun
      exact .goto _ (.enter waitCount hpc hrun)
    · exact .goto _ (.askAgain waitCount hpc)
  | looping =>
    rw [hpc] at hs
    obtain rfl := Option.some.inj hs
    split
    · exact .goto _ (.loop hpc)
    · rename_i howner
      exact .goto _ (.unowned hpc (by simpa using howner))
  | polling =>
    rw [hpc] at hs
    obtain rfl := Option.some.inj hs
    apply called (by simp [hpc])
    split
    · exact .goto _ (.poll hpc)
    · exact .goto _ (.leave hpc)
  | keying =>
    rw [hpc] at hs
    obtain rfl := Option.some.inj hs
    split
    · exact .goto _ (.press hpc)
    · rename_i hnot
      exact .key hpc fun hup => by simpa [hup] using hnot
  | pressed =>
    rw [hpc] at hs
    obtain rfl := Option.some.inj hs
    split
    · exact .goto _ (.stop hpc)
    · rename_i howner
      exact .goto _ (.skipStop hpc (by simpa using howner))
  | stopping =>
    rw [hpc] at hs
    obtain rfl := Option.some.inj hs
    exact called (by simp [hpc]) (.stop hpc)
  | entering =>
    rw [hpc] at hs
    obtain rfl := Option.some.inj hs
    exact .enter hpc
  | guarding =>
    rw [hpc] at hs
    obtain rfl := Option.some.inj hs
    split
    · exact .goto _ (.guard hpc)
    · rename_i howner
      exact .goto _ (.free hpc (by simpa using howner))
  | withdrawing =>
    rw [hpc] at hs
    obtain rfl := Option.some.inj hs
    exact .withdraw hpc
  | shutting =>
    rw [hpc] at hs
    obtain rfl := Option.some.inj hs
    apply called (by simp [hpc])
    split
    · exact .shut hpc
    · rename_i hinitialized
      exact .goto _ (.skipShutdown hpc (by simpa using hinitialized))
  | stoppingServer =>
    rw [hpc] at hs
    obtain rfl := Option.some.inj hs
    exact used (by simp [hpc]) (.stopServer hpc)
  | unhooking =>
    rw [hpc] at hs
    obtain rfl := Option.some.inj hs
    exact .unhook hpc
  | clearing =>
    rw [hpc] at hs
    obtain rfl := Option.some.inj hs
    exact used (by simp [hpc]) (.clear hpc)
  | resetting =>
    rw [hpc] at hs
    obtain rfl := Option.some.inj hs
    exact .reset hpc
  | destroying =>
    rw [hpc] at hs
    obtain rfl := Option.some.inj hs
    exact .destroy hpc
  | freeing => simp [hpc] at hs
  | returned => simp [hpc] at hs

theorem renderStep_turn (hs : renderStep s = some s') : RenderTurn s s' := by
  have used (hholds : s.render.holds = true) {next : UnloadState} (hnext : RenderTurn s next) :
      RenderTurn s (s.use next) :=
    use_cases (fun f hlost => .fault f hholds hlost) hnext
  unfold renderStep at hs
  cases hpc : s.render with
  | outside =>
    rw [hpc] at hs
    simp only [Option.ite_none_right_eq_some, Option.some.injEq] at hs
    obtain ⟨hhooked, rfl⟩ := hs
    exact .enter hpc hhooked
  | loading =>
    rw [hpc] at hs
    obtain rfl := Option.some.inj hs
    exact .load hpc
  | locking | working | unlocking =>
    have hholds : s.render.holds = true := by
      rw [hpc]
      rfl
    rw [hpc] at hs
    obtain rfl := Option.some.inj hs
    exact used hholds (.goto _ hholds)

end

/-! ## The invariant -/

/-- The server has run: `MainThread` is past the store that makes `isRunning` true. -/
@[simp] def MainPc.served : MainPc → Bool
  | .creating | .calling | .exchanging | .marking | .hooking | .listening => false
  | _ => true

structure UnloadState.Inv (s : UnloadState) : Prop where
  clean : s.faults = []
  alive : s.cleanup.stage < 6 → s.life ≠ .destroyed
  owned : s.cleanup.stage < 5 → s.main ≠ .creating → s.main ≠ .returned → s.owner = true
  seen : 0 < s.cleanup.stage → s.cleanup.stage < 5 → s.owner = true
  served : s.network = true ∨ 1 < s.cleanup.stage → s.main.served = true
  stopped : 2 < s.cleanup.stage → s.running = false
  once : s.cleanup.stage < 4 → s.cleanupCalled = false
  left : 4 < s.cleanup.stage → s.main.needsOwner = false
  gone : 5 < s.cleanup.stage → s.main = .returned ∧ ¬ s.Reachable

section
variable {s s' : UnloadState}

theorem attached_inv : UnloadState.attached.Inv := by
  constructor <;> simp [UnloadState.attached]

/-- What a step of `MainThread` after the first keeps, and what it may change. -/
structure MainMove (s s' : UnloadState) : Prop where
  frame : s'.cleanup = s.cleanup ∧ s'.life = s.life ∧ s'.owner = s.owner ∧ s'.cleanupCalled = s.cleanupCalled ∧
    s'.faults = s.faults
  begun : s'.main ≠ .creating
  served : s.main.served = true ∨ s'.network = true → s'.main.served = true
  running : s.main.served = true → s'.running = true → s.running = true
  needsOwner : s.main.needsOwner = false → s.running = false → s'.main.needsOwner = false

theorem UnloadState.Inv.mainMove (h : s.Inv) (hcreated : s.main ≠ .creating) (hpc : s.main ≠ .returned)
    (hm : MainMove s s') : s'.Inv := by
  obtain ⟨⟨hcleanup, hlife, howner, hcalled, hfaults⟩, hbegun, hserved, hrunning, hneeds⟩ := hm
  -- when the context is gone, `MainThread` has returned
  have hstage : s.cleanup.stage < 6 := by
    by_contra hge
    exact hpc (h.gone (by omega)).1
  rw [← hcleanup] at hstage
  refine ⟨hfaults.trans h.clean, ?_, ?_, ?_, ?_, ?_, ?_, ?_, fun hgone => by omega⟩
  · intro hlt
    rw [hlife]
    exact h.alive (hcleanup ▸ hlt)
  · intro hlt _ _
    rw [howner]
    exact h.owned (hcleanup ▸ hlt) hcreated hpc
  · rw [hcleanup, howner]
    exact h.seen
  · rintro (hnetwork | hlt)
    · exact hserved (.inr hnetwork)
    · rw [hcleanup] at hlt
      exact hserved (.inl (h.served (.inr hlt)))
  · intro hlt
    rw [hcleanup] at hlt
    rw [← Bool.not_eq_true]
    intro hrun
    have hstopped := h.stopped hlt
    rw [hrunning (h.served (.inr (by omega))) hrun] at hstopped
    simp at hstopped
  · rw [hcleanup, hcalled]
    exact h.once
  · intro hlt
    rw [hcleanup] at hlt
    exact hneeds (h.left hlt) (h.stopped (by omega))

theorem MainMove.of (hnetwork : s.network = true → s.main.served = true)
    (hframe : s'.cleanup = s.cleanup ∧ s'.life = s.life ∧ s'.owner = s.owner ∧ s'.cleanupCalled = s.cleanupCalled ∧
      s'.faults = s.faults)
    (hbegun : s'.main ≠ .creating) (hserved : s.main.served = true → s'.main.served = true)
    (hnew : s'.network = true → s.network = true ∨ s'.main.served = true)
    (hrunning : s.main.served = true → s'.running = true → s.running = true)
    (hneeds : s.main.needsOwner = false → s.running = false → s'.main.needsOwner = false) : MainMove s s' := by
  refine ⟨hframe, hbegun, ?_, hrunning, hneeds⟩
  rintro (hs | hn)
  · exact hserved hs
  · rcases hnew hn with hn | hs
    · exact hserved (hnetwork hn)
    · exact hs

theorem MainMove.goto (hnetwork : s.network = true → s.main.served = true) {next : MainPc}
    (hbegun : next ≠ .creating) (hserved : s.main.served = true → next.served = true)
    (hneeds : s.main.needsOwner = false → s.running = false → next.needsOwner = false) :
    MainMove s { s with main := next } :=
  .of hnetwork ⟨rfl, rfl, rfl, rfl, rfl⟩ hbegun hserved .inl (fun _ h => h) hneeds

theorem mainStep_move {ok : Bool} (h : s.Inv) (hcreated : s.main ≠ .creating) (hpc : s.main ≠ .returned)
    (hs : mainStep s ok = some s') : MainMove s s' := by
  have hstage : s.cleanup.stage < 6 := by
    by_contra hge
    exact hpc (h.gone (by omega)).1
  have halive := h.alive hstage
  have hnetwork (hn : s.network = true) : s.main.served = true := h.served (.inl hn)
  -- a thread that still needs the owner runs only while there is one
  have howner (hneeds : s.main.needsOwner = true) : s.owner = true := by
    refine h.owned ?_ hcreated hpc
    by_contra hge
    rw [h.left (by omega)] at hneeds
    simp at hneeds
  cases mainStep_turn hs with
  | fault f hlost =>
    rcases hlost with ⟨hunowned, hneeds⟩ | hlost
    · simp [howner hneeds] at hunowned
    · exact absurd hlost halive
  | create hpc => exact absurd hpc hcreated
  | goto next hgoes =>
    cases hgoes with
    | abandon hpc => exact absurd hpc hcreated
    | again hpc hrun =>
      -- `stop` came before: then the context does not run any more
      have hstill (hstop : s.running = false) : False := by
        rw [UnloadState.isRunning, hstop] at hrun
        simp at hrun
      exact .goto hnetwork (by simp) (by simp) (fun _ hstop => (hstill hstop).elim)
    | call hpc | refuse hpc | unhooked hpc | unheard hpc | spawn hpc | unspawned hpc _ | get hpc | poll hpc
    | leave hpc => exact .goto hnetwork (by simp) (by simp [hpc]) (by simp [hpc])
  | claim hpc | hook hpc | clear hpc =>
    exact .of hnetwork ⟨rfl, rfl, rfl, rfl, rfl⟩ (by simp) (by simp [hpc]) .inl (fun _ h => h) (by simp [hpc])
  | mark hpc | fail hpc =>
    exact .of hnetwork ⟨rfl, rfl, rfl, rfl, rfl⟩ (by simp) (by simp [hpc]) .inl (by simp [hpc]) (by simp [hpc])
  | listen hpc =>
    exact .of hnetwork ⟨rfl, rfl, rfl, rfl, rfl⟩ (by simp) (by simp [hpc]) (fun _ => .inr rfl) (fun _ h => h)
      (by simp [hpc])
  | unwind hpc =>
    exact .of hnetwork ⟨rfl, rfl, rfl, rfl, rfl⟩ (by simp) (by simp) (by simp) (fun _ h => h) (by simp)
  | publish context hpc =>
    exact .of hnetwork ⟨rfl, rfl, rfl, rfl, rfl⟩ (by simp) (by simp [hpc]) .inl (fun _ h => h) (by simp [hpc])

theorem mainStep_inv {ok : Bool} (h : s.Inv) (hs : mainStep s ok = some s') : s'.Inv := by
  by_cases hpc : s.main = .returned
  · simp [mainStep, hpc] at hs
  · by_cases hcreated : s.main = .creating
    · -- nobody has seen a context yet
      have hserved : ¬ (s.network = true ∨ 1 < s.cleanup.stage) := by
        intro hs
        have hserved := h.served hs
        simp [hcreated] at hserved
      obtain ⟨hnetwork, hstage⟩ := not_or.mp hserved
      simp only [mainStep, hcreated, Option.some.injEq] at hs
      subst hs
      split
      · exact ⟨h.clean, by simp, by simp, by simp, fun hn => absurd hn hserved, fun hlt => by dsimp only at hlt; omega,
          h.once, fun hlt => by dsimp only at hlt; omega, fun hlt => by dsimp only at hlt; omega⟩
      · exact ⟨h.clean, h.alive, by simp, h.seen, fun hn => absurd hn hserved, h.stopped, h.once,
          fun _ => rfl, fun hlt => by dsimp only at hlt; omega⟩
    · exact h.mainMove hcreated hpc (mainStep_move h hcreated hpc hs)

/-- What a step of `CleanupThread` keeps and may change, before `g_appContext` is reset. -/
structure CleanupMove (s s' : UnloadState) : Prop where
  frame : s'.main = s.main ∧ s'.life = s.life ∧ s'.owner = s.owner ∧ s'.faults = s.faults
  stage : s'.cleanup.stage < 5
  seen : 0 < s'.cleanup.stage → 0 < s.cleanup.stage ∨ s.owner = true
  served : s'.network = true ∨ 1 < s'.cleanup.stage → s.network = true ∨ 1 < s.cleanup.stage
  stopped : 2 < s'.cleanup.stage → s'.running = false
  once : s'.cleanup.stage < 4 → s'.cleanupCalled = false

theorem UnloadState.Inv.cleanupMove (h : s.Inv) (hstage : s.cleanup.stage < 5) (hm : CleanupMove s s') : s'.Inv := by
  obtain ⟨⟨hmain, hlife, howner, hfaults⟩, hstage', hseen, hserved, hstopped, honce⟩ := hm
  refine ⟨hfaults.trans h.clean, ?_, ?_, ?_, ?_, hstopped, honce, fun hlt => by omega, fun hlt => by omega⟩
  · intro _
    rw [hlife]
    exact h.alive (by omega)
  · rw [hmain, howner]
    exact fun _ => h.owned hstage
  · intro hlow _
    rw [howner]
    rcases hseen hlow with hlow | hown
    · exact h.seen hlow hstage
    · exact hown
  · rw [hmain]
    exact fun hs => h.served (hserved hs)

theorem CleanupMove.idle (h : s.Inv) (hstage : s.cleanup.stage < 4) {next : CleanupPc}
    (hnext : next.stage = 0) : CleanupMove s { s with cleanup := next } := by
  have hzero : CleanupPc.stage { s with cleanup := next }.cleanup = 0 := hnext
  refine ⟨⟨rfl, rfl, rfl, rfl⟩, by omega, fun hlt => by omega, ?_, fun hlt => by omega, fun _ => h.once hstage⟩
  rintro (hnetwork | hlt)
  · exact .inl hnetwork
  · omega

theorem CleanupMove.same (h : s.Inv) (hlow : 0 < s.cleanup.stage) (hhigh : s.cleanup.stage < 5)
    (hstage : s'.cleanup.stage = s.cleanup.stage)
    (hframe : s'.main = s.main ∧ s'.life = s.life ∧ s'.owner = s.owner ∧ s'.faults = s.faults)
    (hnetwork : s'.network = true → s.network = true) (hrunning : s'.running = true → s.running = true)
    (hcalled : s'.cleanupCalled = s.cleanupCalled) : CleanupMove s s' := by
  refine ⟨hframe, by omega, fun _ => .inl hlow, ?_, ?_, ?_⟩
  · rintro (hn | hlt)
    · exact .inl (hnetwork hn)
    · exact .inr (by omega)
  · intro hlt
    rw [← Bool.not_eq_true]
    intro hrun
    have hstopped := h.stopped (by omega)
    rw [hrunning hrun] at hstopped
    simp at hstopped
  · intro hlt
    rw [hcalled]
    exact h.once (by omega)

theorem CleanupMove.goto (h : s.Inv) (hlow : 0 < s.cleanup.stage) (hhigh : s.cleanup.stage < 5) {next : CleanupPc}
    (hstage : next.stage = s.cleanup.stage) : CleanupMove s { s with cleanup := next } :=
  .same h hlow hhigh hstage ⟨rfl, rfl, rfl, rfl⟩ id id rfl

theorem cleanupStep_move {pressed : Bool} (h : s.Inv) (hreset : s.cleanup ≠ .resetting)
    (hdestroy : s.cleanup ≠ .destroying) (hs : cleanupStep s pressed = some s') : CleanupMove s s' := by
  have howner (hlow : 0 < s.cleanup.stage) (hhigh : s.cleanup.stage < 5) : s.owner ≠ false := by
    simp [h.seen hlow hhigh]
  cases cleanupStep_turn hs with
  | fault f hstage hlost =>
    rcases hlost with hunowned | hlost
    · exact absurd hunowned (howner hstage.1 hstage.2)
    · exact absurd hlost (h.alive (by omega))
  | goto next hgoes =>
    cases hgoes with
    | wait _ hpc _ | find _ hpc | ready hpc | miss hpc | abandon _ hpc | askAgain _ hpc | unowned hpc _ | leave hpc =>
      exact .idle h (by simp [hpc]) rfl
    | ask waitCount hpc hmore howner =>
      exact ⟨⟨rfl, rfl, rfl, rfl⟩, by simp, fun _ => .inr howner, fun hs => .inl (hs.resolve_right (by simp)),
        by simp, fun _ => h.once (by simp [hpc])⟩
    | enter waitCount hpc hrun =>
      -- a context that runs has a server: `MainThread` got that far
      have hnetwork : s.network = true := (Bool.and_eq_true_iff.mp hrun).2
      exact ⟨⟨rfl, rfl, rfl, rfl⟩, by simp, by simp [hpc], fun _ => .inl hnetwork, by simp,
        fun _ => h.once (by simp [hpc])⟩
    | loop hpc | poll hpc | press hpc | stop hpc | guard hpc | skipShutdown hpc _ =>
      exact .goto h (by simp [hpc]) (by simp [hpc]) (by simp [hpc])
    | skipStop hpc hunowned | free hpc hunowned =>
      exact absurd hunowned (howner (by simp [hpc]) (by simp [hpc]))
  | key hpc hunpressed => exact .same h (by simp [hpc]) (by simp [hpc]) (by simp [hpc]) ⟨rfl, rfl, rfl, rfl⟩ id id rfl
  | stop hpc =>
    exact ⟨⟨rfl, rfl, rfl, rfl⟩, by simp, by simp [hpc], by simp [hpc], fun _ => rfl,
      fun _ => h.once (by simp [hpc])⟩
  | enter hpc =>
    rw [h.once (by simp [hpc]), if_neg (by simp)]
    exact ⟨⟨rfl, rfl, rfl, rfl⟩, by simp, by simp [hpc], by simp [hpc], fun _ => h.stopped (by simp [hpc]),
      by simp⟩
  | withdraw hpc | unhook hpc | clear hpc =>
    exact .same h (by simp [hpc]) (by simp [hpc]) (by simp [hpc]) ⟨rfl, rfl, rfl, rfl⟩ id id rfl
  | shut hpc => exact .same h (by simp [hpc]) (by simp [hpc]) (by simp [hpc]) ⟨rfl, rfl, rfl, rfl⟩ id (by simp) rfl
  | stopServer hpc =>
    exact .same h (by simp [hpc]) (by simp [hpc]) (by simp [hpc]) ⟨rfl, rfl, rfl, rfl⟩ (by simp) id rfl
  | reset hpc => exact absurd hpc hreset
  | destroy hpc => exact absurd hpc hdestroy

theorem cleanupStep_inv {pressed : Bool} (h : s.Inv) (ho : Orderly s (.cleanup pressed))
    (hs : cleanupStep s pressed = some s') : s'.Inv := by
  by_cases hreset : s.cleanup = .resetting
  · obtain ⟨hneeds, -⟩ := ho
    simp only [cleanupStep, hreset, Option.some.injEq] at hs
    subst hs
    have hstage : s.cleanup.stage = 4 := by rw [hreset]; rfl
    exact ⟨h.clean, fun _ => h.alive (by omega), by simp, by simp,
      fun _ => h.served (.inr (by omega)), fun _ => h.stopped (by omega), by simp,
      fun _ => hneeds hreset, by simp⟩
  · by_cases hdestroy : s.cleanup = .destroying
    · obtain ⟨-, hleft⟩ := ho
      obtain ⟨hmain, hreach⟩ := hleft hdestroy
      simp only [cleanupStep, hdestroy, Option.some.injEq] at hs
      subst hs
      have hstage : s.cleanup.stage = 5 := by rw [hdestroy]; rfl
      exact ⟨h.clean, by simp, by simp, by simp,
        fun _ => h.served (.inr (by omega)), fun _ => h.stopped (by omega), by simp,
        fun _ => h.left (by omega), fun _ => ⟨hmain, hreach⟩⟩
    · have hstage : s.cleanup.stage < 5 := by
        cases hpc : s.cleanup <;> simp_all [cleanupStep]
      exact h.cleanupMove hstage (cleanupStep_move h hreset hdestroy hs)

theorem renderStep_unreachable (h : ¬ s.Reachable) (hs : renderStep s = some s') : ¬ s'.Reachable := by
  obtain ⟨hholds, hload⟩ := not_or.mp h
  cases renderStep_turn hs with
  | fault f hin hlost => exact absurd hin hholds
  | enter hpc hhooked =>
    have hpublished : s.published ≠ true := fun hpublished => hload ⟨hpublished, .inl hhooked⟩
    simp [UnloadState.Reachable, hpublished]
  | load hpc =>
    have hpublished : s.published = false := by
      by_contra hpublished
      exact hload ⟨by simpa using hpublished, .inr hpc⟩
    simp [UnloadState.Reachable, hpublished]
  | goto next hin => exact absurd hin hholds

/-- Only the place in `HookedEndScene` changes: where the address is held, the context is
there. -/
theorem renderStep_frame (h : s.Inv) (hs : renderStep s = some s') : ∃ render, s' = { s with render } := by
  cases renderStep_turn hs with
  | fault f hholds hlost =>
    have hstage : s.cleanup.stage < 6 := by
      by_contra hge
      exact (h.gone (by omega)).2 (.inl hholds)
    exact absurd hlost (h.alive hstage)
  | enter hpc hhooked => exact ⟨_, rfl⟩
  | load hpc => exact ⟨_, rfl⟩
  | goto next hholds => exact ⟨_, rfl⟩

theorem renderStep_inv (h : s.Inv) (hs : renderStep s = some s') : s'.Inv := by
  obtain ⟨render, heq⟩ := renderStep_frame h hs
  have hgone (hlt : 5 < s.cleanup.stage) : s.main = .returned ∧ ¬ s'.Reachable :=
    ⟨(h.gone hlt).1, renderStep_unreachable (h.gone hlt).2 hs⟩
  subst heq
  exact ⟨h.clean, h.alive, h.owned, h.seen, h.served, h.stopped, h.once, h.left, hgone⟩

theorem unloadStep_inv {a : UnloadAct} (h : s.Inv) (ho : Orderly s a) (hs : unloadStep s a = some s') : s'.Inv := by
  cases a with
  | main ok => exact mainStep_inv h hs
  | cleanup pressed => exact cleanupStep_inv h ho hs
  | render => exact renderStep_inv h hs

end

/-! ## The calls on the context -/

/-- The state with the flags of `c`. -/
def UnloadState.withContext (s : UnloadState) (c : ContextState) : UnloadState :=
  { s with initialized := c.initialized, running := c.running, network := c.manager.isRunning c.tcp }

section
variable {s : UnloadState} {c c' : ContextState} {hModule : UInt32} {answers : InitializeAnswers} {ok : Bool}

theorem entering_run (hmain : s.main = .calling) (howner : s.owner = true) (hlife : s.life ≠ .destroyed)
    (hinit : s.initialized = false) :
    run unloadStep s [.main true, .main true, .main true] =
      some { s with initialized := true, running := true, main := .hooking } := by
  simp [run, unloadStep, mainStep, use_eq, hmain, howner, hinit, hlife]

theorem failing_run (hmain : s.main = .failing) (hlife : s.life ≠ .destroyed) :
    run unloadStep s [.main true, .main true] =
      some { s with running := false, initialized := false, main := .returned } := by
  simp [run, unloadStep, mainStep, use_eq, hmain, hlife]

theorem listening_step (hmain : s.main = .listening) (hlife : s.life ≠ .destroyed) :
    unloadStep s (.main ok) =
      some (if ok then { s with network := true, main := .spawning } else { s with main := .failing }) := by
  simp only [unloadStep, mainStep, hmain, use_eq hlife]

theorem spawning_step (hmain : s.main = .spawning) (hlife : s.life ≠ .destroyed) :
    unloadStep s (.main ok) = some { s with main := if ok then .getting else .unwinding } := by
  simp only [unloadStep, mainStep, hmain, use_eq hlife]

/-- `g_appContext->initialize` as a whole, when no other thread comes between its
statements. -/
theorem initialize_run {mh : Hooks.MinHookApi} (hcall : initializeContext mh hModule answers c = some (ok, c'))
    (hmain : s.main = .calling) (howner : s.owner = true) (hlife : s.life ≠ .destroyed) :
    ∃ (oks : List Bool) (hooked : Bool), run unloadStep (s.withContext c) (oks.map .main) =
      some { s.withContext c' with hooked, main := if ok then .getting else .returned } := by
  unfold initializeContext at hcall
  split at hcall
  · rename_i hinit
    obtain ⟨rfl, rfl⟩ : false = ok ∧ c = c' := by simpa using hcall
    refine ⟨[true, true], s.hooked, ?_⟩
    simp [run, unloadStep, mainStep, UnloadState.withContext, use_eq, hmain, howner, hinit, hlife]
  · rename_i hinit
    have hentered := entering_run (s := s.withContext c) hmain howner hlife ((Bool.not_eq_true _).mp hinit)
    obtain ⟨⟨installed, hooks⟩, -, hcall⟩ := Option.map_eq_some_iff.mp hcall
    cases installed with
    | false =>
      obtain ⟨rfl, rfl⟩ : false = ok ∧ _ = c' := by simpa [ContextState.failed] using hcall
      refine ⟨[true, true, true, false, true, true], s.hooked, ?_⟩
      exact run_append hentered (run_cons.mpr ⟨_, rfl, failing_run rfl hlife⟩)
    | true =>
      -- what `startServer` does to the manager shows in its result only
      have hnetwork := startServer_isRunning c.manager c.tcp answers.network
      dsimp only at hcall
      generalize startServer c.manager c.tcp answers.network = result at hcall hnetwork
      obtain ⟨started, manager, tcp⟩ := result
      cases started with
      | false =>
        obtain ⟨rfl, rfl⟩ : false = ok ∧ _ = c' := by simpa [ContextState.failed] using hcall
        refine ⟨[true, true, true, true, false, true, true], true, ?_⟩
        rw [Bool.false_or] at hnetwork
        simp only [UnloadState.withContext, hnetwork]
        refine run_append hentered (run_cons.mpr ⟨_, rfl, run_cons.mpr ⟨_, listening_step rfl hlife, ?_⟩⟩)
        exact failing_run rfl hlife
      | true =>
        obtain ⟨rfl, rfl⟩ : true = ok ∧ _ = c' := by simpa using hcall
        refine ⟨[true, true, true, true, true, true], true, ?_⟩
        rw [Bool.true_or] at hnetwork
        simp only [UnloadState.withContext, hnetwork]
        refine run_append hentered (run_cons.mpr ⟨_, rfl, run_cons.mpr ⟨_, listening_step rfl hlife, ?_⟩⟩)
        exact run_cons.mpr ⟨_, spawning_step rfl hlife, rfl⟩

theorem shutdown_run (hcleanup : s.cleanup = .shutting) (howner : s.owner = true) (hlife : s.life ≠ .destroyed) :
    ∃ (n : Nat) (hooked : Bool), run unloadStep (s.withContext c) (List.replicate n (.cleanup false)) =
      some { s.withContext (shutdownContext c) with hooked, cleanup := .resetting } := by
  unfold shutdownContext
  cases hinit : c.initialized with
  | false =>
    refine ⟨1, s.hooked, ?_⟩
    simp [run, unloadStep, cleanupStep, UnloadState.withContext, call_eq, hcleanup, howner, hinit, hlife]
  | true =>
    refine ⟨4, false, ?_⟩
    simp [run, unloadStep, cleanupStep, UnloadState.withContext, call_eq, use_eq, hcleanup, howner, hinit, hlife,
      stopServer_isRunning]

end

/-! ## The results -/

/-- **The context outlives its uses**, in every interleaving in which `CleanupThread`
waits for `MainThread` and for the calls of `HookedEndScene`. -/
theorem context_outlives_uses {acts : List UnloadAct} {t : UnloadState}
    (hrun : run unloadStep .attached acts = some t) (horder : Along unloadStep Orderly .attached acts) :
    t.faults = [] :=
  (run_invariant_along (fun _ _ _ h ho hs => unloadStep_inv h ho hs) hrun horder attached_inv).clean

/-- The agent starts, the hook runs once, and `MainThread` is in `isRunning`. -/
def starts : List UnloadAct :=
  List.replicate 10 (.main true) ++ List.replicate 4 (.cleanup false) ++ List.replicate 5 .render

/-- DELETE is pressed, and `CleanupThread` resets `g_appContext`. -/
def unloads : List UnloadAct := List.replicate 2 (.cleanup false) ++ List.replicate 11 (.cleanup true)

theorem context_outlives_uses_unload :
    ∃ t, run unloadStep .attached (starts ++ unloads ++ [.main true, .cleanup true]) = some t ∧
      t.life = .destroyed ∧ t.faults = [] := by
  have hrun : run unloadStep .attached (starts ++ unloads ++ [.main true, .cleanup true]) =
      some ⟨false, .destroyed, false, false, false, false, false, true, false, .returned, .freeing, .outside, []⟩ := by
    decide +kernel
  exact ⟨_, hrun, rfl, context_outlives_uses hrun (by decide +kernel)⟩

/-- **The context is used after it was reset**: `MainThread` sleeps in its loop while
DELETE is pressed, and then calls `isRunning` through a null `g_appContext`. -/
theorem context_used_after_reset : ¬ ∀ acts t, run unloadStep .attached acts = some t → t.faults = [] := by
  intro h
  have hrun : run unloadStep .attached (starts ++ [.main true] ++ unloads ++ [.main true]) =
      some ⟨false, .alive, false, false, false, false, false, true, false, .polling, .destroying, .outside,
        [.nullCall]⟩ := by decide +kernel
  have hclean := h _ _ hrun
  simp at hclean

end Icecap.Unloading
