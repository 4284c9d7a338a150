import HeartbeatPool.Json.Fault
import HeartbeatPool.Text.Shape

/-!
# Errors

Everything that can go wrong with a pool, a registry of pools or their configuration, by cause.
-/

namespace HeartbeatPool

/-- The text of the failure when a time limit is exceeded. -/
def deadlineText : String := "deadline has elapsed"

/-- Why an operation failed. -/
inductive Error where
  /-- A pool cannot be created with the parameters given. -/
  | invalidConfig (detail : String)
  /-- No connection at all could be established for a new pool. -/
  | fatal (pool : String)
  /-- A service has endpoints and no heartbeat. -/
  | missingHeartbeat (service : String)
  /-- No idle connection could be handed out. -/
  | poolExhausted (pool : String)
  /-- There is no pool for a service. -/
  | unknownService (service : String)
  /-- A connection was released to a pool that had not lent it. -/
  | releaseMismatch (pool : String)
  /-- One dial failed or took too long. -/
  | dial (address : String) (cause : String)
  /-- A configuration file cannot be read. -/
  | io (cause : String)
  /-- A configuration text is not of the expected form. -/
  | parse (fault : Json.Fault)
  deriving DecidableEq, Repr, Inhabited

namespace Error

/-- The sentence for an error. -/
def message : Error → String
  | .invalidConfig detail => "invalid pool configuration: " ++ detail
  | .fatal pool => "failed to establish any connection for `" ++ pool ++ "`"
  | .missingHeartbeat service => "heartbeat missing for service `" ++ service ++ "`"
  | .poolExhausted pool => "no connection available for `" ++ pool ++ "`"
  | .unknownService service => "unknown service `" ++ service ++ "`"
  | .releaseMismatch pool => "connection released to `" ++ pool ++ "` was not acquired from it"
  | .dial address cause => "failed to dial " ++ address ++ ": " ++ cause
  | .io cause => "failed to read client configuration: " ++ cause
  | .parse fault => "failed to parse client configuration: " ++ fault.message

/-- The name of the kind of an error. -/
def kind : Error → String
  | .invalidConfig _ => "InvalidConfig"
  | .fatal _ => "Fatal"
  | .missingHeartbeat _ => "MissingHeartbeat"
  | .poolExhausted _ => "PoolExhausted"
  | .unknownService _ => "UnknownService"
  | .releaseMismatch _ => "ReleaseMismatch"
  | .dial _ _ => "Dial"
  | .io _ => "Io"
  | .parse _ => "Parse"

/-- The text of the failure that an error passes on, if there is one. -/
def cause? : Error → Option String
  | .dial _ cause => some cause
  | .io cause => some cause
  | .parse fault => some fault.message
  | _ => none

/-- The outline of an error.  Errors that come from reading a file have none. -/
def shape? : Error → Option Text.Shape
  | .invalidConfig detail => some (.tagged "InvalidConfig" [.text detail])
  | .fatal pool => some (.tagged "Fatal" [.text pool])
  | .missingHeartbeat service => some (.tagged "MissingHeartbeat" [.text service])
  | .poolExhausted pool => some (.tagged "PoolExhausted" [.text pool])
  | .unknownService service => some (.tagged "UnknownService" [.text service])
  | .releaseMismatch pool => some (.tagged "ReleaseMismatch" [.text pool])
  | .dial address cause =>
      some (.record "Dial" [("address", .text address), ("source", .text cause)] false)
  | .io _ | .parse _ => none

end Error

end HeartbeatPool
