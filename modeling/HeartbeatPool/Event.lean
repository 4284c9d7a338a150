import HeartbeatPool.Connection
import HeartbeatPool.Error

/-!
# What can be seen of a pool at work

A pool shows what it does by its log and by its calls on the outside world: it dials an endpoint,
probes a connection, closes one.  The order of these events is part of the behaviour.
-/

namespace HeartbeatPool

/-- How much a line of the log matters. -/
inductive Level where
  | debug
  | info
  | warn
  | error
  deriving DecidableEq, Repr, Inhabited

/-- The name of a level. -/
def Level.name : Level → String
  | .debug => "debug"
  | .info => "info"
  | .warn => "warn"
  | .error => "error"

/-- What a line of the log reports. -/
inductive Notice where
  | established (address : String)
  | reestablished (address : String)
  | channelEstablished (address : String)
  | slotSkipped (address cause pool : String)
  | creationFailed (pool : String)
  | created (pool : String) (count capacity : Nat)
  | heartbeatFailed (address cause : String)
  | redialFailed (address cause pool : String)
  | exhausted (pool : String)
  | acquireCancelled (pool address : String)
  | queueFull (pool address : String)
  | foreignRelease (pool : String)
  | unknownService (service : String)
  | registryCreated (services : Nat)
  | configurationRead (entries : Nat) (path : String)
  deriving DecidableEq, Repr, Inhabited

namespace Notice

/-- Failures are warnings, a pool that cannot be created is an error, and all else is detail. -/
def level : Notice → Level
  | .slotSkipped .. | .heartbeatFailed .. | .redialFailed .. | .foreignRelease ..
  | .unknownService .. => .warn
  | .creationFailed .. => .error
  | _ => .debug

/-- The words of a line. -/
def message : Notice → String
  | .established address => "established new connection to " ++ address
  | .reestablished address => "re-established connection to " ++ address
  | .channelEstablished address => "established new RPC connection to " ++ address
  | .slotSkipped address cause pool =>
      (Error.dial address cause).message ++ "; skipping connection slot for `" ++ pool ++ "`"
  | .creationFailed pool => "failed creating any connection for `" ++ pool ++ "`"
  | .created pool count capacity =>
      "created pool `" ++ pool ++ "` with " ++ toString count ++ " of " ++
        toString capacity ++ " connections"
  | .heartbeatFailed address cause =>
      "heartbeat failed for connection to " ++ address ++ ": " ++ cause
  | .redialFailed address cause pool =>
      (Error.dial address cause).message ++ "; trying another connection for `" ++ pool ++ "`"
  | .exhausted pool => "no connection available for `" ++ pool ++ "`"
  | .acquireCancelled pool address =>
      "acquire on `" ++ pool ++ "` was cancelled, returning connection to " ++ address
  | .queueFull pool address =>
      "idle queue for `" ++ pool ++ "` is full, closing connection to " ++ address
  | .foreignRelease pool => "rejecting foreign connection released to `" ++ pool ++ "`"
  | .unknownService service => "no connection pool for service `" ++ service ++ "`"
  | .registryCreated services =>
      "created connection pools for " ++ toString services ++ " services"
  | .configurationRead entries path =>
      "read " ++ toString entries ++ " client entries from " ++ path

end Notice

/-- Something that can be seen from outside. -/
inductive Event where
  | log (notice : Notice)
  /-- An endpoint is dialed. -/
  | dial (endpoint : Endpoint)
  /-- A connection is probed by the heartbeat registered under a label. -/
  | probe (label : String) (conn : Conn)
  | close (conn : Conn)
  deriving DecidableEq, Repr, Inhabited

/-- What a dial shows of its endpoint: the address, then whatever else was set. -/
def Endpoint.dialText (endpoint : Endpoint) : String :=
  endpoint.address ++ (if endpoint.tls then " tls" else "") ++
    endpoint.caCertificate.elim "" (" ca=" ++ ·) ++ endpoint.hostOverride.elim "" (" host=" ++ ·)

namespace Event

/-- The line for an event. -/
def text : Event → String
  | .log notice => "log " ++ notice.level.name ++ " " ++ notice.message
  | .dial endpoint => "dial " ++ endpoint.dialText
  | .probe label conn => "probe " ++ label ++ " " ++ conn.name
  | .close conn => "close " ++ conn.name

/-- Whether an event is a line of the log. -/
def isLog : Event → Bool
  | .log _ => true
  | _ => false

end Event

end HeartbeatPool
