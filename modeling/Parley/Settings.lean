import Parley.Time.Span

/-!
# Settings

The sizes and times that a hub and its connections run with, and the rules
that they have to keep.
-/

namespace Parley

/-- Sizes and times of a hub and its connections. -/
structure Settings where
  /-- Payloads that the queue of a connection holds. -/
  queueCapacity : Nat := 256
  /-- Undelivered payloads kept for a connection without a transport. -/
  backlogCapacity : Nat := 100
  pingInterval : Span := .ofSeconds 54
  /-- The longest silence of a peer. -/
  idleTimeout : Span := .ofSeconds 60
  writeTimeout : Span := .ofSeconds 10
  /-- The largest message a peer may send, in bytes. -/
  maxMessageSize : Nat := 512
  /-- How long a lost connection keeps its identity, rooms and backlog; zero
  keeps nothing. -/
  reconnectGrace : Span := .ofSeconds 30
  /-- Requests that may wait for the hub. -/
  commandBuffer : Nat := 1024
  maxConnections : Option Nat := none
  maxRooms : Option Nat := none
  deriving DecidableEq, Repr, Inhabited

/-- The settings that must not be zero. -/
inductive Quantity
  | queueCapacity
  | backlogCapacity
  | maxMessageSize
  | commandBuffer
  | maxConnections
  | maxRooms
  | writeTimeout
  | pingInterval
  deriving DecidableEq, Repr

/-- The words for a setting. -/
def Quantity.words : Quantity → String
  | .queueCapacity => "queue capacity"
  | .backlogCapacity => "backlog capacity"
  | .maxMessageSize => "max message size"
  | .commandBuffer => "command buffer"
  | .maxConnections => "max connections"
  | .maxRooms => "max rooms"
  | .writeTimeout => "write timeout"
  | .pingInterval => "ping interval"

/-- Why settings are unfit. -/
inductive SettingsError
  | zero (quantity : Quantity)
  | pingNotBelowIdle (ping : Span) (idle : Span)
  | backlogExceedsQueue (backlog : Nat) (queue : Nat)
  deriving DecidableEq, Repr

/-- What a settings error says. -/
def SettingsError.message : SettingsError → String
  | .zero quantity => s!"{quantity.words} must be greater than zero"
  | .pingNotBelowIdle ping idle =>
      s!"ping interval ({ping.text}) must be shorter than the idle timeout ({idle.text})"
  | .backlogExceedsQueue backlog queue =>
      s!"backlog capacity ({backlog}) must not exceed the queue capacity ({queue})"

namespace Settings

/-- The settings that must not be zero, in the order in which they are
checked, each with whether it is. -/
def zeros (settings : Settings) : List (Quantity × Bool) :=
  [(.queueCapacity, settings.queueCapacity = 0),
    (.backlogCapacity, settings.backlogCapacity = 0),
    (.maxMessageSize, settings.maxMessageSize = 0),
    (.commandBuffer, settings.commandBuffer = 0),
    (.maxConnections, settings.maxConnections = some 0),
    (.maxRooms, settings.maxRooms = some 0),
    (.writeTimeout, settings.writeTimeout.isZero),
    (.pingInterval, settings.pingInterval.isZero)]

/-- What is wrong with settings: a zero, pings rarer than the longest silence,
or a backlog that would not fit into a fresh queue. -/
def fault (settings : Settings) : Option SettingsError :=
  match settings.zeros.find? (·.2) with
  | some (quantity, _) => some (.zero quantity)
  | none =>
      if settings.idleTimeout.nanoseconds ≤ settings.pingInterval.nanoseconds then
        some (.pingNotBelowIdle settings.pingInterval settings.idleTimeout)
      else if settings.queueCapacity < settings.backlogCapacity then
        some (.backlogExceedsQueue settings.backlogCapacity settings.queueCapacity)
      else none

end Settings
end Parley
