import IcecapAgent.Platform

/- The messages of the agent: commands come in, events go out. Their classes are
   generated from the contracts repository; here each is the record of the fields
   the agent reads or sets. A payload is `some` when its `has_…` accessor is true. -/
namespace Icecap

/-- The type of a command. A field of a protobuf enum can carry any number, so
every other value, named or not, is `other`. -/
inductive CommandType where
  | luaExecute
  | luaReadVariable
  | clickToMove
  | other (value : Int)
  deriving DecidableEq, Repr

/-- A position; each coordinate is the 32 bits of a `float`. -/
structure Position where
  x : UInt32
  y : UInt32
  z : UInt32
  deriving DecidableEq, Repr

structure LuaExecutePayload where
  executableCode : Bytes
  deriving DecidableEq, Repr

structure LuaReadVariablePayload where
  variableName : Bytes
  deriving DecidableEq, Repr

/-- The payload of a click; 64 bits hold the address field whatever its width. -/
structure ClickToMovePayload where
  playerBaseAddress : UInt64
  position : Option Position
  action : Int
  precision : UInt32
  deriving DecidableEq, Repr

/-- `icecap::agent::v1::Command`. -/
structure IncomingMessage where
  id : Bytes
  operationId : Bytes
  type : CommandType
  luaExecutePayload : Option LuaExecutePayload
  luaReadVariablePayload : Option LuaReadVariablePayload
  clickToMovePayload : Option ClickToMovePayload
  deriving DecidableEq, Repr

inductive EventType where
  | operationSucceeded
  | operationFailed
  | luaVariableRead
  deriving DecidableEq, Repr

/-- `icecap::agent::v1::Event`; the payload is the result of a variable read. -/
structure OutgoingMessage where
  id : Bytes
  operationId : Bytes
  type : EventType
  luaVariableReadEventPayload : Option Bytes
  deriving DecidableEq, Repr

end Icecap
