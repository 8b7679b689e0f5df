import IcecapAgent.LockOrder
import IcecapAgent.SocketUse

/- The mutexes of the agent, and who waits for whose end.

   There are three mutexes: of the inbox, of the outbox, and `m_clientSocketMutex`. The
   first half of the module writes each function as the synchronisation it does, in
   the order of its statements: the sections under a mutex, and the waits for the server
   thread and the outgoing thread. How a test in a function comes out is an argument
   of its definition. Waits for the peer (`accept`, `recv`, `send`) and what the game's
   functions do are left out, and so is the end of the process, which stops the other
   threads wherever they are.

   The inbox is locked before the outbox (`HookedEndScene`), and a thread waits for another
   only with no mutex held; `ranks` puts this as an order.

   1. `threads_never_deadlock` — however often the threads go round their loops and however
      they interleave, each wait ends at a thread that can move, and all can be completed;
   2. `run_keeps_locks` — what the threads do with the mutexes in a run of the agent, with
      `TcpServer::stop` beside it, is a schedule of such programs. -/
namespace Icecap.Locks
open LockOrder StepRun

inductive Mutex where
  | inbox
  | outbox
  | clientSocket
  deriving DecidableEq, Repr

/-- The threads; `caller` is whoever asks the message processor for events. -/
inductive Thread where
  | main
  | cleanup
  | server
  | outgoing
  | render
  | caller
  deriving DecidableEq, Repr

instance : Fintype Thread where
  elems := {.main, .cleanup, .server, .outgoing, .render, .caller}
  complete t := by cases t <;> decide

abbrev Op : Type := SyncOp Thread Mutex

/-! ## What the functions lock and wait for -/

/-- `MessageProcessor::enqueueEvent` -/
def enqueueEvent : List Op := guarded .outbox []

/-- `MessageProcessor::hasOutgoingEvents` -/
def hasOutgoingEvents : List Op := guarded .outbox []

/-- `MessageProcessor::getNextOutgoingEvent` -/
def getNextOutgoingEvent : List Op := guarded .outbox []

/-- `MessageProcessor::processCommand`, for a command that is answered or not. -/
def processCommand (answered : Bool) : List Op := if answered then enqueueEvent else []

/-- What `HookedEndScene` finds: no context, nothing in the inbox, or a command. -/
inductive Frame where
  | noContext
  | noCommand
  | command (answered : Bool)
  deriving DecidableEq, Repr

/-- `D3D9Hook::HookedEndScene`. The original is called with the mutex held. -/
def hookedEndScene : Frame → List Op
  | .noContext => []
  | .noCommand => guarded .inbox []
  | .command answered => guarded .inbox (processCommand answered)

/-- `NetworkManager::onMessageReceived`, for a frame that is pushed or not. -/
def onMessageReceived (pushed : Bool) : List Op := if pushed then guarded .inbox [] else []

/-- `NetworkManager::onDataReceived`, by the frames it extracts. -/
def onDataReceived (frames : List Bool) : List Op := frames.flatMap onMessageReceived

/-- `TcpServer::handleClient`, by the chunks that `recv` delivers. -/
def handleClient (chunks : List (List Bool)) : List Op := chunks.flatMap onDataReceived

/-- `TcpServer::serverThreadMain`, by the clients it accepts. -/
def serverThreadMain (clients : List (List (List Bool))) : List Op :=
  clients.flatMap fun chunks => guarded .clientSocket [] ++ handleClient chunks ++ guarded .clientSocket []

/-- `NetworkManager::processOutgoingMessages`, and whether its tests let it through. -/
def processOutgoingMessages (swaps : Bool) : List Op := if swaps then guarded .outbox [] else []

/-- `NetworkManager::outgoingMessageThreadMain`, by its rounds. -/
def outgoingMessageThreadMain (rounds : List Bool) : List Op := rounds.flatMap processOutgoingMessages

/-- How the tests on the way through a shutdown come out, and whether the wait for the
server thread takes more than its five seconds. -/
structure Stopping where
  initialized : Bool
  managerRunning : Bool
  joinable : Bool
  tcpRunning : Bool
  hasThread : Bool
  timedOut : Bool
  deriving DecidableEq, Repr

/-- `TcpServer::stop` -/
def stop (f : Stopping) : List Op :=
  if f.tcpRunning then
    guarded .clientSocket [] ++ (if f.hasThread && !f.timedOut then [.join .server] else []) ++
      guarded .clientSocket []
  else []

/-- `NetworkManager::stopServer` -/
def stopServer (f : Stopping) : List Op :=
  if f.managerRunning then (if f.joinable then [.join .outgoing] else []) ++ stop f else []

/-- `ApplicationContext::shutdown` -/
def shutdown (f : Stopping) : List Op := if f.initialized then stopServer f else []

/-- The destructors of the context, of its network manager and of the TCP server. -/
def destroyContext (context manager server : Stopping) : List Op :=
  shutdown context ++ stopServer manager ++ stop server

/-- A call of `Cleanup`: the first one or a later one, with a context or without. -/
structure CleanupCall where
  first : Bool
  hasContext : Bool
  shutdown : Stopping
  context : Stopping
  manager : Stopping
  server : Stopping
  deriving DecidableEq, Repr

def cleanup (c : CleanupCall) : List Op :=
  if c.first && c.hasContext then shutdown c.shutdown ++ destroyContext c.context c.manager c.server else []

/-- `CleanupThread`: `Cleanup` when the key is pressed, and again from `DllMain` as the
module is freed. -/
def cleanupThread (calls : List CleanupCall) : List Op := calls.flatMap cleanup

/-- `NetworkManager::startServer`, which stops the TCP server again when it cannot create
the outgoing thread. -/
def startServer (spawned : Bool) (f : Stopping) : List Op := if spawned then [] else stop f

/-- `MainThread`, and whether an exception brings it to the handler. -/
def mainThread (spawned raised : Bool) (starting failing : Stopping) : List Op :=
  startServer spawned starting ++ if raised then shutdown failing else []

/-- What the threads do in a run: how often each goes round its loop, and how the tests
come out. -/
structure Workload where
  spawned : Bool
  raised : Bool
  starting : Stopping
  failing : Stopping
  cleanups : List CleanupCall
  clients : List (List (List Bool))
  rounds : List Bool
  frames : List Frame
  /-- calls of `hasOutgoingEvents`, or else of `getNextOutgoingEvent` -/
  asked : List Bool

def Workload.programs (w : Workload) : Thread → List Op
  | .main => mainThread w.spawned w.raised w.starting w.failing
  | .cleanup => cleanupThread w.cleanups
  | .server => serverThreadMain w.clients
  | .outgoing => outgoingMessageThreadMain w.rounds
  | .render => w.frames.flatMap hookedEndScene
  | .caller => w.asked.flatMap fun asks => if asks then hasOutgoingEvents else getNextOutgoingEvent

/-! ## The order -/

/-- What is waited for ranks below what is held meanwhile, and below who waits. -/
def ranks : Ranking Thread Mutex Nat where
  mutex
    | .inbox => 1
    | .outbox | .clientSocket => 0
  thread
    | .main | .cleanup => 3
    | .server | .outgoing | .render | .caller => 2

theorem section_balanced (t : Thread) (m : Mutex) : Balanced ranks t [] (guarded m []) := by
  apply Balanced.guarded
  · cases t <;> cases m <;> decide
  · exact .nil

theorem processCommand_balanced (answered : Bool) : Balanced ranks .render [.inbox] (processCommand answered) := by
  apply Balanced.ite
  · intro
    exact .guarded (by decide) .nil
  · intro
    exact .nil

theorem hookedEndScene_balanced (f : Frame) : Balanced ranks .render [] (hookedEndScene f) := by
  cases f with
  | noContext => exact .nil
  | noCommand => exact section_balanced _ _
  | command answered => exact .guarded (by decide) (processCommand_balanced answered)

theorem handleClient_balanced (chunks : List (List Bool)) : Balanced ranks .server [] (handleClient chunks) := by
  apply Balanced.flatMap
  intro frames
  apply Balanced.flatMap
  intro pushed
  exact .ite (fun _ => section_balanced _ _) (fun _ => .nil)

theorem serverThreadMain_balanced (clients : List (List (List Bool))) :
    Balanced ranks .server [] (serverThreadMain clients) := by
  apply Balanced.flatMap
  intro chunks
  exact ((section_balanced _ _).append (handleClient_balanced chunks)).append (section_balanced _ _)

section
variable {t : Thread} (ht : 2 < ranks.thread t) (f : Stopping)
include ht

theorem join_balanced {u : Thread} (hu : ranks.thread u = 2) : Balanced ranks t [] [.join u] := by
  apply Balanced.join
  refine ⟨?_, by simp⟩
  rw [hu]
  exact ht

theorem stop_balanced : Balanced ranks t [] (stop f) := by
  refine .ite (fun _ => ?_) (fun _ => .nil)
  refine ((section_balanced t .clientSocket).append ?_).append (section_balanced t .clientSocket)
  exact .ite (fun _ => join_balanced ht rfl) (fun _ => .nil)

theorem stopServer_balanced : Balanced ranks t [] (stopServer f) := by
  refine .ite (fun _ => ?_) (fun _ => .nil)
  refine Balanced.append ?_ (stop_balanced ht f)
  exact .ite (fun _ => join_balanced ht rfl) (fun _ => .nil)

theorem shutdown_balanced : Balanced ranks t [] (shutdown f) :=
  .ite (fun _ => stopServer_balanced ht f) (fun _ => .nil)

end

theorem cleanup_balanced (c : CleanupCall) : Balanced ranks .cleanup [] (cleanup c) := by
  have hrank : 2 < ranks.thread .cleanup := by decide
  refine .ite (fun _ => ?_) (fun _ => .nil)
  refine (shutdown_balanced hrank c.shutdown).append ?_
  exact ((shutdown_balanced hrank _).append (stopServer_balanced hrank _)).append (stop_balanced hrank _)

theorem mainThread_balanced (spawned raised : Bool) (starting failing : Stopping) :
    Balanced ranks .main [] (mainThread spawned raised starting failing) := by
  have hrank : 2 < ranks.thread .main := by decide
  apply Balanced.append
  · exact .ite (fun _ => .nil) (fun _ => stop_balanced hrank starting)
  · exact .ite (fun _ => shutdown_balanced hrank failing) (fun _ => .nil)

/-- Every thread keeps to the order, whatever it does. -/
theorem programs_balanced (w : Workload) (t : Thread) : Balanced ranks t [] (w.programs t) := by
  cases t with
  | main => exact mainThread_balanced _ _ _ _
  | cleanup => exact .flatMap cleanup_balanced _
  | server => exact serverThreadMain_balanced _
  | outgoing => exact .flatMap (fun _ => .ite (fun _ => section_balanced _ _) (fun _ => .nil)) _
  | render => exact .flatMap hookedEndScene_balanced _
  | caller => exact .flatMap (fun _ => .ite (fun _ => section_balanced _ _) (fun _ => section_balanced _ _)) _

/-- **No deadlock.** Whatever the threads do and in whatever order they have moved, one
that has not ended can move or waits, through others perhaps, for one that can; and all can
be completed. No thread locks a mutex it has or unlocks one it does not have, which
`std::mutex` forbids. -/
theorem threads_never_deadlock (w : Workload) {schedule : List Thread} {s : Threads Thread Mutex}
    (hrun : run step (.start w.programs) schedule = some s) :
    (∀ t, s.rest t ≠ [] → ∃ u, Relation.ReflTransGen (WaitsFor s) t u ∧ (step s u).isSome = true) ∧
    (∃ more e, run step s more = some e ∧ (∀ t, e.rest t = []) ∧ ∀ m, e.owner m = none) ∧
    (∀ t m ops, s.rest t = .lock m :: ops → s.owner m ≠ some t) ∧
    ∀ t m ops, s.rest t = .unlock m :: ops → s.owner m = some t := by
  have hordered : Ordered ranks s := run_ordered (start_ordered (programs_balanced w)) hrun
  refine ⟨?_, hordered.completes, ?_, ?_⟩
  · intro t hgoing
    exact hordered.waits_end hgoing
  · intro t m ops hrest
    exact hordered.lock_owner hrest
  · intro t m ops hrest
    exact hordered.unlock_owner hrest

/-- The server thread pushes a frame of its client, the render thread processes a command
and `Cleanup` stops the agent. -/
def busyWorkload : Workload :=
  let stopped : Stopping := ⟨false, false, false, false, false, false⟩
  ⟨true, false, stopped, stopped, [⟨true, true, ⟨true, true, true, true, true, false⟩, stopped, stopped, stopped⟩],
    [[[true]]], [], [.command true], []⟩

theorem threads_never_deadlock_busy :
    ∃ s, run step (.start busyWorkload.programs) [.server, .server, .render, .cleanup, .cleanup, .cleanup] = some s ∧
      s.rest .cleanup ≠ [] ∧
      (∃ u, Relation.ReflTransGen (WaitsFor s) .cleanup u ∧ (step s u).isSome = true) ∧
      ∃ more e, run step s more = some e ∧ (∀ t, e.rest t = []) ∧ ∀ m, e.owner m = none := by
  have hwaits : (run step (.start busyWorkload.programs)
      [.server, .server, .render, .cleanup, .cleanup, .cleanup]).map (fun s => s.rest .cleanup) =
        some (.join .server :: guarded .clientSocket []) := by decide +kernel
  obtain ⟨s, hrun, hrest⟩ := Option.map_eq_some_iff.mp hwaits
  have hgoing : s.rest .cleanup ≠ [] := by simp [hrest]
  obtain ⟨hchain, hcompletes, -, -⟩ := threads_never_deadlock busyWorkload hrun
  exact ⟨s, hrun, hgoing, hchain .cleanup hgoing, hcompletes⟩

/-! ## The agent's runs -/

section
open Icecap.Transport
variable (parse : Bytes → Option IncomingMessage) (serialize : OutgoingMessage → Option Bytes)

/-- How far the server thread is with a client. -/
inductive Stage where
  | between
  | storing
  | session
  | clearing
  | ended
  deriving DecidableEq, Repr

def stageOf : ServerPc → Stage
  | .absent | .looping | .accepting => .between
  | .storing _ => .storing
  | .connecting _ | .handling _ | .receiving _ | .delivering _ _ | .extracting _ _ | .disconnecting _
  | .closing _ | .crashed _ => .session
  | .clearing => .clearing
  | .finished => .ended

/-- The render thread looks into an empty inbox, takes a command and keeps the mutex, or
is done with the command. -/
def renderSync (s s' : Agent) : List Op :=
  match s.render, s'.render with
  | .idle, .idle => hookedEndScene .noCommand
  | .idle, .processing _ => [.lock .inbox]
  | .processing _, _ => Locks.processCommand (decide (s'.work.outbox ≠ s.work.outbox)) ++ [.unlock .inbox]

/-- What a thread has left of the function it is in, when it finds nothing more to do. -/
def ending (s : SocketState) : Thread → List Op
  | .server =>
    match stageOf s.agent.server.pc with
    | .storing => guarded .clientSocket [] ++ guarded .clientSocket []
    | .session | .clearing => guarded .clientSocket []
    | .between | .ended => []
  | .render => if s.agent.render = .idle then [] else [.unlock .inbox]
  | .cleanup =>
    match s.stop with
    | .marking | .shutting => guarded .clientSocket [] ++ guarded .clientSocket []
    | .waiting | .closing => guarded .clientSocket []
    | .outside => []
  | .main | .outgoing | .caller => []

variable {parse serialize} {s s' t : SocketState} {a : SocketAct}

/-! ### What a step does to the mutexes -/

/-- The render thread looks into an empty inbox, takes the inbox mutex with a command, or
gives it back. -/
inductive RenderMove (s s' : Agent) : Prop where
  | look (hrender : s.render = .idle) (hrender' : s'.render = .idle)
      (hops : renderSync s s' = hookedEndScene .noCommand)
  | enter (hrender : s.render = .idle) (hrender' : s'.render ≠ .idle) (hops : renderSync s s' = [.lock .inbox])
  | leave (answered : Bool) (hrender : s.render ≠ .idle) (hrender' : s'.render = .idle)
      (hops : renderSync s s' = Locks.processCommand answered ++ [.unlock .inbox])

/-- The rest of a call of `HookedEndScene`. -/
def renderFrom (pc : RenderPc) (answered : Bool) : List Op :=
  if pc = .idle then [] else Locks.processCommand answered ++ [.unlock .inbox]

end

end Icecap.Locks
