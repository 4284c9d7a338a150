import HeartbeatPool.Text.Duration
import HeartbeatPool.Text.Shape

/-!
# Pool settings

How many connections a pool keeps for each endpoint, and how long it waits for a dial and for a
heartbeat.  A time is a number of ticks of the timer, which are milliseconds.  A duration that is
given more finely has been rounded by the timer before anything here sees it.
-/

namespace HeartbeatPool

/-- Size and deadlines of a pool. -/
structure Settings where
  /-- Connections dialed against every endpoint when the pool is created. -/
  perEndpoint : Nat := 1
  /-- Longest time for one dial; without it a dial may take for ever. -/
  dialTimeout : Option Nat := none
  /-- Longest time for one heartbeat; one that takes longer has failed. -/
  heartbeatTimeout : Option Nat := none
  deriving DecidableEq, Repr, Inhabited

namespace Settings

/-- One deadline set on settings under construction. -/
inductive Edit where
  | dialTimeout (limit : Nat)
  | heartbeatTimeout (limit : Nat)
  deriving DecidableEq, Repr

/-- The settings after one change. -/
def edit (settings : Settings) : Edit → Settings
  | .dialTimeout limit => { settings with dialTimeout := some limit }
  | .heartbeatTimeout limit => { settings with heartbeatTimeout := some limit }

/-- The settings at first and after each change. -/
def history (settings : Settings) : List Edit → List Settings
  | [] => [settings]
  | change :: rest => settings :: (settings.edit change).history rest

/-- The settings after all changes. -/
def edits (settings : Settings) (changes : List Edit) : Settings :=
  changes.foldl edit settings

/-- The outline of settings. -/
def shape (settings : Settings) : Text.Shape :=
  .record "PoolConfig"
    [("connections_per_endpoint", .number settings.perEndpoint),
      ("dial_timeout", limit settings.dialTimeout),
      ("heartbeat_timeout", limit settings.heartbeatTimeout)] false
where
  limit (value : Option Nat) : Text.Shape :=
    .optional (value.map fun milliseconds => .plain (Text.duration milliseconds))

end Settings

end HeartbeatPool
