import IcecapAgent.ApplicationContext
import IcecapAgent.OnceGate

/- `Cleanup`, which tears the agent down.

   `CleanupThread` calls it when DELETE is pressed, and `DllMain` when the process ends or
   the library is freed, each on a thread of its own. The first caller to exchange
   `cleanup_called` does the work; the others return without waiting for it.

   `cleanup_once` — whoever calls `Cleanup`, as often and in whatever interleaving, the work
   is done at most once and in order: the context is shut down only when no other thread can
   ask for its address any more, destroyed only when it is shut down, and the logger goes
   last. An exception ends the work where it is raised, for good. -/
namespace Icecap
open StepRun OnceGate

/-- The statement of `Cleanup` behind the flag. -/
inductive CleanupStatement where
  /-- the test of `g_appContext` -/
  | testing
  /-- `SetApplicationContext(nullptr)` -/
  | withdrawing
  /-- `g_appContext->shutdown()` -/
  | shutting
  /-- `g_appContext.reset()` -/
  | resetting
  /-- `Sleep(1000)` -/
  | sleeping
  /-- `Logger::shutdown` -/
  | logging
  deriving DecidableEq, Repr

/-- What `Cleanup` has done. -/
inductive CleanupEffect where
  | withdrawn
  | shutDown
  | reset
  | loggerShutDown
  deriving DecidableEq, Repr

/-- What `Cleanup` works on. -/
structure CleanupWorld where
  /-- whether `g_appContext` is not null -/
  owner : Bool
  /-- whether `g_applicationContext` is not null -/
  published : Bool
  context : ContextState
  effects : List CleanupEffect

namespace CleanupWorld

def withdraw (w : CleanupWorld) : CleanupWorld := { w with published := false, effects := w.effects ++ [.withdrawn] }

def shutdown (w : CleanupWorld) : CleanupWorld :=
  { w with context := shutdownContext w.context, effects := w.effects ++ [.shutDown] }

def reset (w : CleanupWorld) : CleanupWorld := { w with owner := false, effects := w.effects ++ [.reset] }

def shutdownLogger (w : CleanupWorld) : CleanupWorld := { w with effects := w.effects ++ [.loggerShutDown] }

end CleanupWorld

/-- A statement of `Cleanup` behind the flag, and the next one. Where `ok` is false an
exception is raised in it, and the handler around the work swallows it. -/
def cleanupBody (b : CleanupStatement) (w : CleanupWorld) (ok : Bool) :
    Option (Option CleanupStatement × CleanupWorld) :=
  if !ok then some (none, w)
  else
    match b with
    | .testing => some (some (if w.owner then .withdrawing else .sleeping), w)
    | .withdrawing => some (some .shutting, w.withdraw)
    | .shutting => some (some .resetting, w.shutdown)
    | .resetting => some (some .sleeping, w.reset)
    | .sleeping => some (some .logging, w)
    | .logging => some (none, w.shutdownLogger)

/-- `Cleanup`, called by any of the callers `ι`. -/
def cleanupCall {ι : Type} [DecidableEq ι] (s : GateState ι CleanupStatement CleanupWorld) (a : GateAct ι Bool) :
    Option (GateState ι CleanupStatement CleanupWorld) :=
  gateStep .testing cleanupBody s a

/-- Everything `Cleanup` does, in order. -/
def cleanupEffects (owner : Bool) : List CleanupEffect :=
  (if owner then [.withdrawn, .shutDown, .reset] else []) ++ [.loggerShutDown]

/-! ## One caller -/

/-- The world when a caller that found the world `w` comes to a statement. -/
def reached (w : CleanupWorld) : CleanupStatement → CleanupWorld
  | .testing | .withdrawing => w
  | .shutting => w.withdraw
  | .resetting => w.withdraw.shutdown
  | .sleeping | .logging => if w.owner then w.withdraw.shutdown.reset else w

/-- The statements that are reached only with a context. -/
def CleanupStatement.needsOwner : CleanupStatement → Bool
  | .withdrawing | .shutting | .resetting => true
  | _ => false

/-- Where one caller is, and what it has made of the world `w`. -/
def Passing (w : CleanupWorld) (q : Pass CleanupStatement × CleanupWorld) : Prop :=
  match q.1 with
  | .before => q.2 = w
  | .inside b => q.2 = reached w b ∧ (b.needsOwner = true → w.owner = true)
  | .after =>
    (∃ b : CleanupStatement, q.2 = reached w b ∧ (b.needsOwner = true → w.owner = true)) ∨
      q.2 = (reached w .logging).shutdownLogger

section
variable {w : CleanupWorld} {q q' : Pass CleanupStatement × CleanupWorld}

theorem passStep_passing {a : PassAct Bool} (h : Passing w q) (hs : passStep .testing cleanupBody q a = some q') :
    Passing w q' := by
  obtain ⟨pass, world⟩ := q
  cases a with
  | enter =>
    cases pass with
    | before =>
      obtain rfl := Option.some.inj hs
      exact ⟨h, by simp [CleanupStatement.needsOwner]⟩
    | inside b => simp [passStep] at hs
    | after => simp [passStep] at hs
  | work ok =>
    cases pass with
    | before => simp [passStep] at hs
    | after => simp [passStep] at hs
    | inside b =>
      obtain ⟨hworld, howner⟩ := h
      dsimp only at hworld
      subst hworld
      cases ok with
      | false =>
        obtain rfl := Option.some.inj hs
        exact .inl ⟨b, rfl, howner⟩
      | true =>
        cases b with
        | testing =>
          obtain rfl := Option.some.inj hs
          refine ⟨?_, ?_⟩
          · dsimp only
            split
            · rfl
            · rename_i howner
              exact (if_neg howner).symm
          · split
            · rename_i howner
              exact fun _ => howner
            · simp [CleanupStatement.needsOwner]
        | withdrawing =>
          obtain rfl := Option.some.inj hs
          exact ⟨rfl, howner⟩
        | shutting =>
          obtain rfl := Option.some.inj hs
          exact ⟨rfl, howner⟩
        | resetting =>
          obtain rfl := Option.some.inj hs
          refine ⟨?_, by simp [CleanupStatement.needsOwner]⟩
          simp [reached, howner rfl]
        | sleeping =>
          obtain rfl := Option.some.inj hs
          exact ⟨rfl, by simp [CleanupStatement.needsOwner]⟩
        | logging =>
          obtain rfl := Option.some.inj hs
          exact .inr rfl

theorem reached_effects (h : w.effects = []) (b : CleanupStatement) (howner : b.needsOwner = true → w.owner = true) :
    (reached w b).effects <+: cleanupEffects w.owner ∧
      (.shutDown ∈ (reached w b).effects →
        (reached w b).published = false ∧ (reached w b).context = shutdownContext w.context) := by
  have whole (howner : w.owner = true) : cleanupEffects w.owner = [.withdrawn, .shutDown, .reset, .loggerShutDown] := by
    rw [howner]
    rfl
  cases b with
  | testing | withdrawing => simp [reached, h]
  | shutting =>
    rw [whole (howner rfl)]
    simp [reached, CleanupWorld.withdraw, h]
  | resetting =>
    rw [whole (howner rfl)]
    simp [reached, CleanupWorld.withdraw, CleanupWorld.shutdown, h]
  | sleeping | logging =>
    simp only [reached]
    split
    · rename_i hw
      rw [whole hw]
      simp [CleanupWorld.withdraw, CleanupWorld.shutdown, CleanupWorld.reset, h]
    · simp [h]

theorem Passing.effects (h : w.effects = []) (hq : Passing w q) :
    q.2.effects <+: cleanupEffects w.owner ∧
      (.shutDown ∈ q.2.effects → q.2.published = false ∧ q.2.context = shutdownContext w.context) := by
  obtain ⟨pass, world⟩ := q
  cases pass with
  | before =>
    obtain rfl : world = w := hq
    exact reached_effects h .testing (by simp [CleanupStatement.needsOwner])
  | inside b =>
    obtain ⟨rfl, howner⟩ : world = reached w b ∧ _ := hq
    exact reached_effects h b howner
  | after =>
    rcases hq with ⟨b, hworld, howner⟩ | hworld
    · obtain rfl : world = reached w b := hworld
      exact reached_effects h b howner
    · obtain rfl : world = (reached w .logging).shutdownLogger := hworld
      obtain ⟨-, hshutDown⟩ := reached_effects h .logging (by simp [CleanupStatement.needsOwner])
      refine ⟨?_, fun hmem => hshutDown (by simpa [CleanupWorld.shutdownLogger] using hmem)⟩
      simp only [reached, cleanupEffects]
      split
      · simp [CleanupWorld.withdraw, CleanupWorld.shutdown, CleanupWorld.reset, CleanupWorld.shutdownLogger, h]
      · simp [CleanupWorld.shutdownLogger, h]

/-- **`Cleanup` works once**: whoever calls it, as often and in whatever interleaving, what
is done is a part of the whole from its beginning on, with the context shut down only after
its address was withdrawn, and at most one caller is at work. -/
theorem cleanup_once {ι : Type} [DecidableEq ι] {acts : List (GateAct ι Bool)}
    {t : GateState ι CleanupStatement CleanupWorld} (hrun : run cleanupCall (.closed w) acts = some t)
    (h : w.effects = []) :
    t.world.effects <+: cleanupEffects w.owner ∧
      (.shutDown ∈ t.world.effects → t.world.published = false ∧ t.world.context = shutdownContext w.context) ∧
      ∀ i j, (t.place i).isSome → (t.place j).isSome → i = j := by
  obtain ⟨as, q, hpass, htogether⟩ := gate_sole hrun
  have hpassing : Passing w q := run_invariant (fun _ _ _ h hs => passStep_passing h hs) hpass rfl
  obtain ⟨hpart, hshutDown⟩ := hpassing.effects h
  rw [htogether.1] at hpart hshutDown
  exact ⟨hpart, hshutDown, fun i j => htogether.alone⟩

end

/-- `CleanupThread`, caller 0, is shutting the context down when `DllMain` calls as well. -/
def twoCallers : List (GateAct Nat Bool) :=
  [.call 0, .work 0 true, .work 0 true, .call 1, .work 0 true, .work 0 true, .call 1, .work 0 true, .work 0 true]

theorem cleanup_once_two :
    ∃ t, run cleanupCall (.closed ⟨true, true, .fresh, []⟩) twoCallers = some t ∧
      t.world.effects = [.withdrawn, .shutDown, .reset, .loggerShutDown] ∧
      t.world.effects <+: cleanupEffects true ∧
      (.shutDown ∈ t.world.effects → t.world.published = false ∧ t.world.context = shutdownContext .fresh) ∧
      ∀ i j, (t.place i).isSome → (t.place j).isSome → i = j :=
  ⟨_, rfl, rfl, cleanup_once (show run cleanupCall (.closed ⟨true, true, .fresh, []⟩) twoCallers = some _ from rfl) rfl⟩

end Icecap
