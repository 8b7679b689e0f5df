import IcecapAgent.EndSceneHook
import IcecapAgent.StartServer

/- The life of an application context: `initialize`, `stop` and `shutdown`, called one
   after the other.

   `initialize` acquires MinHook, then the hook on `EndScene`, then the network manager,
   and a failure on the way resets `m_initialized` and returns. What `startServer` had
   acquired it gives back itself, but nobody gives back MinHook, and `shutdown` has
   nothing to do for a context that is not initialised: MinHook stays initialised with
   the hook enabled, and no later call gets past `MH_Initialize`.

   Every call is given what the platform answers to it, and what MinHook does to its table
   of hooks is a parameter, of which nothing is assumed. The threads that live between the
   calls write sockets and the receive buffer, but no flag.

   1. `lifecycle_atomic_iff` — a run leaves nothing behind, call by call, exactly when
      no `initialize` gets past `MH_Initialize` and then fails;
   2. `lifecycle_leaks` — the port is taken: `initialize` returns false, and the hook
      stays. -/
namespace Icecap
open StepRun Hooks Transport

/-- What the platform answers to one call of `initialize`. -/
structure InitializeAnswers where
  mhInitialize : Bool
  hook : Nat → HookAnswers
  network : StartAnswers

/-- `ApplicationContext` and the globals it works on. -/
structure ContextState where
  initialized : Bool
  running : Bool
  moduleHandle : UInt32
  hooks : HookManager
  manager : NetworkManager
  tcp : TcpServer

/-- A context just constructed, in a process that did nothing yet. -/
def ContextState.fresh : ContextState := ⟨false, false, 0, .fresh, .fresh, .fresh⟩

/-- The exits of `initialize` that reset both flags. -/
def ContextState.failed (s : ContextState) : Bool × ContextState :=
  (false, { s with running := false, initialized := false })

/-- `ApplicationContext::initialize`. -/
def initializeContext (mh : MinHookApi) (hModule : UInt32) (a : InitializeAnswers) (s : ContextState) :
    Option (Bool × ContextState) :=
  if s.initialized then some (false, s)
  else
    let s := { s with initialized := true, moduleHandle := hModule, running := true }
    (installHooks mh a.mhInitialize a.hook s.hooks).map fun (installed, hooks) =>
      let s := { s with hooks }
      if !installed then s.failed
      else
        let (started, manager, tcp) := startServer s.manager s.tcp a.network
        let s := { s with manager, tcp }
        if !started then s.failed else (true, s)

/-- `ApplicationContext::shutdown`. -/
def shutdownContext (s : ContextState) : ContextState :=
  if !s.initialized then s
  else
    let s := { s with running := false }
    let (manager, tcp) := stopServer s.manager s.tcp
    let hooks := s.hooks.withMinHook s.hooks.minHook.mhUninitialize
    { s with manager, tcp, hooks, initialized := false }

/-- `ApplicationContext::stop`. -/
def stopContext (s : ContextState) : ContextState := { s with running := false }

inductive LifecycleAct where
  | callInitialize (hModule : UInt32) (answers : InitializeAnswers)
  | callStop
  | callShutdown
  /-- the server thread went on: what it left in the fields it writes -/
  | threads (clientSocket currentClient : Socket) (receiveBuffer : Bytes)

def lifecycleStep (mh : MinHookApi) (s : ContextState) : LifecycleAct → Option ContextState
  | .callInitialize hModule answers => (initializeContext mh hModule answers s).map (·.2)
  | .callStop => some (stopContext s)
  | .callShutdown => some (shutdownContext s)
  | .threads clientSocket currentClient receiveBuffer =>
    some { s with
      tcp := { s.tcp with clientSocket }
      manager := { s.manager with currentClient, receiveBuffer } }

/-- What the context acquires: MinHook with its hooks, and the two running flags. -/
def ContextState.resources (s : ContextState) : MinHook × Bool × Bool :=
  (s.hooks.minHook, s.manager.running, s.tcp.running)

/-- A context that is not initialised holds nothing. -/
def ContextState.Released (s : ContextState) : Prop :=
  s.initialized = false →
    s.hooks.minHook.initialized = false ∧ (∀ address, s.hooks.minHook.entries address ≠ some .enabled) ∧
      s.manager.running = false ∧ s.tcp.running = false

/-- The call returns, a context that is not initialised afterwards holds nothing, and
an `initialize` that returns false left all resources as they were. -/
def Atomic (mh : MinHookApi) (s : ContextState) (a : LifecycleAct) : Prop :=
  (∃ s', lifecycleStep mh s a = some s' ∧ s'.Released) ∧
    ∀ hModule answers s', a = .callInitialize hModule answers →
      initializeContext mh hModule answers s = some (false, s') → s'.resources = s.resources

/-- Everything after `MH_Initialize` succeeds; `hook` is the hook object made. -/
def InitializeAnswers.succeeds (a : InitializeAnswers) (hook : Nat) : Bool :=
  (a.hook hook).hooked && (a.network.listens && a.network.createsThread && a.network.startsOutgoing)

/-- If the call is an `initialize` that gets past `MH_Initialize`, then nothing after
that fails. -/
def Completes (s : ContextState) : LifecycleAct → Prop
  | .callInitialize _ answers =>
    s.initialized = false → s.hooks.minHook.initialized = false → answers.mhInitialize = true →
      answers.succeeds s.hooks.objects = true
  | _ => True

/-! ## One call -/

/-- What holds between calls as long as every call completes. -/
structure ContextState.Inv (s : ContextState) : Prop where
  registered : s.hooks.Registered
  tcp : s.tcp.running = s.manager.running
  idle : s.initialized = false → s.hooks.minHook = .uninitialized ∧ s.manager.running = false
  acquired : s.initialized = true → s.hooks.minHook.initialized = true

section
variable {mh : MinHookApi} {s s' : ContextState} {hModule : UInt32} {answers : InitializeAnswers}

theorem fresh_inv : ContextState.fresh.Inv := by
  refine ⟨?_, rfl, fun _ => ⟨rfl, rfl⟩, ?_⟩
  · intro r hr
    simp [ContextState.fresh, HookManager.fresh] at hr
  · simp [ContextState.fresh]

theorem ContextState.Inv.released (h : s.Inv) : s.Released := by
  intro hinit
  obtain ⟨hminHook, hmanager⟩ := h.idle hinit
  refine ⟨by rw [hminHook]; rfl, fun address => ?_, hmanager, h.tcp.trans hmanager⟩
  rw [hminHook]
  simp [MinHook.uninitialized]

theorem startServer_result {m : NetworkManager} {t : TcpServer} (a : StartAnswers) (hm : m.running = false)
    (ht : t.running = false) :
    (startServer m t a).1 = (a.listens && a.createsThread && a.startsOutgoing) ∧
      (startServer m t a).2.1.running = (startServer m t a).1 ∧
      (startServer m t a).2.2.running = (startServer m t a).1 := by
  obtain ⟨listens, createsThread, startsOutgoing⟩ := a
  cases listens <;> cases createsThread <;> cases startsOutgoing <;>
    simp [startServer, TcpServer.start, TcpServer.stop, hm, ht]

theorem stopServer_stops {m : NetworkManager} {t : TcpServer} (h : t.running = m.running) :
    (stopServer m t).1.running = false ∧ (stopServer m t).2.running = false := by
  cases hm : m.running with
  | false => simp [stopServer, hm, h]
  | true => simp [stopServer, hm, h, TcpServer.stop]

theorem shutdownContext_inv (h : s.Inv) : (shutdownContext s).Inv := by
  by_cases hinit : s.initialized = true
  · obtain ⟨hmanager, htcp⟩ := stopServer_stops h.tcp
    have hminHook : s.hooks.minHook.mhUninitialize = .uninitialized := by
      rw [MinHook.mhUninitialize, if_pos (h.acquired hinit)]
    rw [shutdownContext, if_neg (by simp [hinit])]
    exact ⟨h.registered, htcp.trans hmanager.symm, fun _ => ⟨hminHook, hmanager⟩, fun h => by simp at h⟩
  · rw [shutdownContext, if_pos (by simpa using hinit)]
    exact h

theorem initializeContext_refused (hinit : s.initialized = false) (hmh : answers.mhInitialize = false) :
    initializeContext mh hModule answers s =
      some (false, { s with initialized := false, running := false, moduleHandle := hModule }) := by
  rw [initializeContext, if_neg (by simp [hinit])]
  dsimp only
  rw [installHooks_refused answers.hook (.inr hmh)]
  rfl

theorem initializeContext_past (mh : MinHookApi) (h : s.Inv) (hinit : s.initialized = false)
    (hmh : answers.mhInitialize = true) :
    ∃ s', initializeContext mh hModule answers s = some (answers.succeeds s.hooks.objects, s') ∧
      s'.initialized = answers.succeeds s.hooks.objects ∧ s'.hooks.minHook.initialized = true ∧
      s'.hooks.Registered ∧ s'.manager.running = answers.succeeds s.hooks.objects ∧
      s'.tcp.running = answers.succeeds s.hooks.objects := by
  obtain ⟨hminHook, hmanager⟩ := h.idle hinit
  have htcp : s.tcp.running = false := h.tcp.trans hmanager
  obtain ⟨hooks, hinstall, hleft, hreg⟩ := installHooks_initialized answers.hook h.registered (by rw [hminHook]; rfl)
  obtain ⟨hstarted, hm, ht⟩ := startServer_result answers.network hmanager htcp
  rw [initializeContext, if_neg (by simp [hinit])]
  dsimp only
  rw [hmh, hinstall, Option.map_some]
  cases hhooked : (answers.hook s.hooks.objects).hooked with
  | false =>
    have hfails : answers.succeeds s.hooks.objects = false := by simp [InitializeAnswers.succeeds, hhooked]
    rw [hfails]
    exact ⟨_, rfl, rfl, hleft, hreg, hmanager, htcp⟩
  | true =>
    have hnetwork : answers.succeeds s.hooks.objects = (startServer s.manager s.tcp answers.network).1 := by
      simp [InitializeAnswers.succeeds, hhooked, hstarted]
    rw [hnetwork]
    generalize startServer s.manager s.tcp answers.network = result at hm ht
    obtain ⟨started, manager, tcp⟩ := result
    cases started with
    | false => exact ⟨_, rfl, rfl, hleft, hreg, hm, ht⟩
    | true => exact ⟨_, rfl, rfl, hleft, hreg, hm, ht⟩

/-- An `initialize` that completes keeps the invariant, and gives back everything when
it returns false. -/
theorem initializeContext_completes (mh : MinHookApi) (h : s.Inv)
    (hc : Completes s (.callInitialize hModule answers)) :
    ∃ ok s', initializeContext mh hModule answers s = some (ok, s') ∧ s'.Inv ∧
      (ok = false → s'.resources = s.resources) := by
  by_cases hinit : s.initialized = true
  · refine ⟨false, s, ?_, h, fun _ => rfl⟩
    rw [initializeContext, if_pos hinit]
  · rw [Bool.not_eq_true] at hinit
    obtain ⟨hminHook, hmanager⟩ := h.idle hinit
    cases hmh : answers.mhInitialize with
    | false =>
      refine ⟨false, _, initializeContext_refused hinit hmh, ?_, fun _ => rfl⟩
      exact ⟨h.registered, h.tcp, fun _ => ⟨hminHook, hmanager⟩, fun h => by simp at h⟩
    | true =>
      have hsucceeds : answers.succeeds s.hooks.objects = true := hc hinit (by rw [hminHook]; rfl) hmh
      obtain ⟨s', hcall, hs', hleft, hreg, hm, ht⟩ := initializeContext_past mh h hinit hmh
      rw [hsucceeds] at hcall hs' hm ht
      exact ⟨true, s', hcall, ⟨hreg, ht.trans hm.symm, fun h => by simp [hs'] at h, fun _ => hleft⟩, by simp⟩

theorem initializeContext_leaks (mh : MinHookApi) (h : s.Inv) (hc : ¬ Completes s (.callInitialize hModule answers)) :
    ∃ s', initializeContext mh hModule answers s = some (false, s') ∧ ¬ s'.Released := by
  obtain ⟨hinit, -, hmh, hfails⟩ : s.initialized = false ∧ s.hooks.minHook.initialized = false ∧
      answers.mhInitialize = true ∧ answers.succeeds s.hooks.objects = false := by
    simpa [Completes] using hc
  obtain ⟨s', hcall, hs', hleft, -⟩ := initializeContext_past mh h hinit hmh
  rw [hfails] at hcall hs'
  refine ⟨s', hcall, fun hreleased => ?_⟩
  rw [(hreleased hs').1] at hleft
  simp at hleft

theorem lifecycleStep_inv {a : LifecycleAct} (h : s.Inv) (hc : Completes s a) (hs : lifecycleStep mh s a = some s') :
    s'.Inv := by
  cases a with
  | callInitialize hModule answers =>
    obtain ⟨ok, t, hcall, ht, -⟩ := initializeContext_completes mh h hc
    obtain rfl : t = s' := by simpa [lifecycleStep, hcall] using hs
    exact ht
  | callStop =>
    obtain rfl := Option.some.inj hs
    exact ⟨h.registered, h.tcp, h.idle, h.acquired⟩
  | callShutdown =>
    obtain rfl := Option.some.inj hs
    exact shutdownContext_inv h
  | threads clientSocket currentClient receiveBuffer =>
    obtain rfl := Option.some.inj hs
    exact ⟨h.registered, h.tcp, h.idle, h.acquired⟩

theorem atomic_iff_completes (h : s.Inv) (a : LifecycleAct) : Atomic mh s a ↔ Completes s a := by
  refine ⟨?_, ?_⟩
  · rintro ⟨⟨s', hs, hreleased⟩, -⟩
    by_contra hc
    cases a with
    | callInitialize hModule answers =>
      obtain ⟨t, hcall, hleak⟩ := initializeContext_leaks mh h hc
      obtain rfl : t = s' := by simpa [lifecycleStep, hcall] using hs
      exact hleak hreleased
    | callStop => exact hc trivial
    | callShutdown => exact hc trivial
    | threads clientSocket currentClient receiveBuffer => exact hc trivial
  · intro hc
    have hreturns : ∃ s', lifecycleStep mh s a = some s' := by
      cases a with
      | callInitialize hModule answers =>
        obtain ⟨ok, t, hcall, -⟩ := initializeContext_completes mh h hc
        exact ⟨t, by simp [lifecycleStep, hcall]⟩
      | callStop => exact ⟨_, rfl⟩
      | callShutdown => exact ⟨_, rfl⟩
      | threads clientSocket currentClient receiveBuffer => exact ⟨_, rfl⟩
    obtain ⟨s', hs⟩ := hreturns
    refine ⟨⟨s', hs, (lifecycleStep_inv h hc hs).released⟩, ?_⟩
    rintro hModule answers t rfl ht
    obtain ⟨ok, u, hcall, -, hback⟩ := initializeContext_completes mh h hc
    obtain ⟨rfl, rfl⟩ : ok = false ∧ u = t := by simpa [hcall] using ht
    exact hback rfl

theorem threads_cover (mh : MinHookApi) {parse : Bytes → Option IncomingMessage} {server server' : ServerState}
    {a : ServerAct}
    (h : serverStep parse server a = some server') (s : ContextState)
    (htcp : s.tcp = server.tcp) (hmanager : s.manager = server.manager) :
    ∃ clientSocket currentClient receiveBuffer,
      lifecycleStep mh s (.threads clientSocket currentClient receiveBuffer) =
        some { s with tcp := server'.tcp, manager := server'.manager } := by
  refine ⟨server'.tcp.clientSocket, server'.manager.currentClient, server'.manager.receiveBuffer, ?_⟩
  simp only [lifecycleStep, htcp, hmanager]
  cases serverStep_move h with
  | quiet clientSocket pc hpc => rfl
  | connect client hpc =>
    unfold ServerState.connectedCallback
    split <;> rfl
  | data client chunk hpc =>
    unfold ServerState.dataCallback
    dsimp only
    split
    · split <;> rfl
    · rfl
  | turn client frame hpc =>
    unfold ServerState.extractTurn
    split <;> rfl
  | disconnect client hpc =>
    unfold ServerState.disconnectedCallback NetworkManager.onClientDisconnected
    dsimp only
    split
    · split <;> rfl
    · rfl

end

/-- **Lifecycle atomicity**: over any calls and any answers, every call leaves nothing
behind exactly when no `initialize` gets past `MH_Initialize` and then fails. -/
theorem lifecycle_atomic_iff (mh : MinHookApi) (acts : List LifecycleAct) :
    Along (lifecycleStep mh) (Atomic mh) .fresh acts ↔ Along (lifecycleStep mh) Completes .fresh acts :=
  along_congr (fun _ _ _ h hc hs => lifecycleStep_inv h hc hs) (fun _ a h => atomic_iff_completes h a) fresh_inv acts

/-- `EndScene` is hooked, and the port is taken. -/
def portTaken : InitializeAnswers where
  mhInitialize := true
  hook := fun _ => ⟨some 0x10042000, true, true, true, true⟩
  network := ⟨false, true, true⟩

/-- **A failed `initialize` leaves the hook enabled**: the context is not initialised,
MinHook is, and `shutdown` changes nothing about it. -/
theorem lifecycle_leaks :
    ¬ Along (lifecycleStep .sample) (Atomic .sample) .fresh [.callInitialize 0x10000000 portTaken, .callShutdown] ∧
      ∃ t, run (lifecycleStep .sample) .fresh [.callInitialize 0x10000000 portTaken, .callShutdown] = some t ∧
        t.initialized = false ∧ t.hooks.minHook.entries 0x10042000 = some .enabled := by
  refine ⟨?_, _, rfl, rfl, rfl⟩
  rintro ⟨⟨⟨s, hs, hreleased⟩, -⟩, -⟩
  obtain rfl := Option.some.inj hs
  have hminHook := (hreleased rfl).1
  exact absurd hminHook (by decide)

end Icecap
