import Parley.CommandLine.Launch
import Parley.Settings

/-!
# The server's command line

Where the server listens and the settings it runs with.
-/

namespace Parley

/-- Where a server listens and what it runs with. -/
structure ServerOptions where
  host : String := "127.0.0.1"
  port : Nat := 8080
  settings : Settings := {}
  deriving DecidableEq, Repr

namespace ServerOptions

/-- The options of the server. -/
def specs : List OptionSpec :=
  [{ long := "host", letter := some 'H', kind := .text },
    { long := "port", letter := some 'p', kind := .within 0 65535 },
    { long := "queue-capacity", kind := .natural },
    { long := "backlog-capacity", kind := .natural },
    { long := "ping-interval-secs", kind := .natural },
    { long := "idle-timeout-secs", kind := .natural },
    { long := "write-timeout-secs", kind := .natural },
    { long := "max-message-size", kind := .natural },
    { long := "reconnect-grace-secs", kind := .natural },
    { long := "command-buffer", kind := .natural },
    { long := "max-connections", kind := .natural },
    { long := "max-rooms", kind := .natural }]

/-- The options with the given values. -/
def ofValues (given : List (String × OptionValue)) : ServerOptions :=
  let defaults : ServerOptions := {}
  let base := defaults.settings
  let number := Invocation.number? given
  let span := fun long (fallback : Span) => ((number long).map Span.ofSeconds).getD fallback
  { host := (Invocation.text? given "host").getD defaults.host
    port := (number "port").getD defaults.port
    settings :=
      { queueCapacity := (number "queue-capacity").getD base.queueCapacity
        backlogCapacity := (number "backlog-capacity").getD base.backlogCapacity
        pingInterval := span "ping-interval-secs" base.pingInterval
        idleTimeout := span "idle-timeout-secs" base.idleTimeout
        writeTimeout := span "write-timeout-secs" base.writeTimeout
        maxMessageSize := (number "max-message-size").getD base.maxMessageSize
        reconnectGrace := span "reconnect-grace-secs" base.reconnectGrace
        commandBuffer := (number "command-buffer").getD base.commandBuffer
        maxConnections := number "max-connections"
        maxRooms := number "max-rooms" } }

end ServerOptions

namespace Settings

/-- A ceiling in a log line. -/
def ceilingText : Option Nat → String
  | some n => s!"Some({n})"
  | none => "None"

/-- All settings in one line. -/
def summary (settings : Settings) : String :=
  let fields := [("queue_capacity", toString settings.queueCapacity),
    ("backlog_capacity", toString settings.backlogCapacity),
    ("ping_interval", settings.pingInterval.text),
    ("idle_timeout", settings.idleTimeout.text),
    ("write_timeout", settings.writeTimeout.text),
    ("max_message_size", toString settings.maxMessageSize),
    ("reconnect_grace", settings.reconnectGrace.text),
    ("command_buffer", toString settings.commandBuffer),
    ("max_connections", ceilingText settings.maxConnections),
    ("max_rooms", ceilingText settings.maxRooms)]
  let listed := String.intercalate ", " (fields.map fun field => field.1 ++ ": " ++ field.2)
  "HubConfig \x7b " ++ listed ++ " \x7d"

end Settings

namespace ServerOptions

/-- What the server does with its arguments. -/
def launch (arguments : List String) : Launch ServerOptions :=
  match CommandLine.read specs arguments with
  | .error cause => .misused cause
  | .ok .help => .help
  | .ok (.values given) =>
      let options := ofValues given
      match options.settings.fault with
      | some cause => .unfit (.error s!"Invalid configuration: {cause.message}")
      | none => .run options [.debug s!"Hub configuration: {options.settings.summary}"]

/-- The largest mailbox that can be made for the hub. -/
def largestMailbox : Nat := 0x1FFFFFFFFFFFFFFF

/-- Whether a port is only for privileged programs. -/
def isPrivileged (port : Nat) : Bool := 0 < port && port < 1024

/-- What is seen of a server without privileges.  It runs on once it listens.  A hub
that cannot be made breaks it off, with an empty line in front of the complaint. -/
def ending (options : ServerOptions) (log : List LogLine) : LaunchReport :=
  if largestMailbox < options.settings.commandBuffer then
    { exit := some 101, log, complaint := some "" }
  else if isPrivileged options.port then
    { exit := some 1
      log := log ++ [.error "Server error: Permission denied (os error 13)"] }
  else { exit := none, log }

end ServerOptions
end Parley
