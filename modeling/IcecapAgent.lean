import IcecapAgent.StepRun
import IcecapAgent.StreamExtract
import IcecapAgent.Fifo
import IcecapAgent.FirstByKey
import IcecapAgent.CellRange
import IcecapAgent.TurnLoop
import IcecapAgent.Ledger
import IcecapAgent.OnceGate
import IcecapAgent.LockOrder
import IcecapAgent.TextTemplate
import IcecapAgent.Platform
import IcecapAgent.ProtocolHandler
import IcecapAgent.Messages
import IcecapAgent.NetworkManager
import IcecapAgent.TcpServer
import IcecapAgent.Sessions
import IcecapAgent.StartServer
import IcecapAgent.Decoding
import IcecapAgent.ExtractionLoop
import IcecapAgent.Serving
import IcecapAgent.Winsock
import IcecapAgent.CommandExecutor
import IcecapAgent.MessageProcessor
import IcecapAgent.Verdicts
import IcecapAgent.Agent
import IcecapAgent.Pipeline
import IcecapAgent.Delivery
import IcecapAgent.SendData
import IcecapAgent.SocketUse
import IcecapAgent.Locks
import IcecapAgent.EventId
import IcecapAgent.Serial
import IcecapAgent.Conversation
import IcecapAgent.Progress
import IcecapAgent.Waiting
import IcecapAgent.Answering
import IcecapAgent.HookRegistry
import IcecapAgent.EndSceneHook
import IcecapAgent.ApplicationContext
import IcecapAgent.HookLife
import IcecapAgent.Cleanup
import IcecapAgent.Unload
import IcecapAgent.UnloadThreads
import IcecapAgent.Unloaded
import IcecapAgent.ProcessMemory
import IcecapAgent.FrameScript
import IcecapAgent.FrameText
import IcecapAgent.RaiiWrappers
