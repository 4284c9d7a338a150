import HeartbeatPool.Endpoint

/-!
# Connections and their places in a pool

A connection is known by the address it was dialed at and by its number among all dials to that
address.  A pool keeps with each connection the position of the endpoint that it was dialed for.
-/

namespace HeartbeatPool

/-- A connection. -/
structure Conn where
  address : String
  /-- How many dials were made to the address before this one. -/
  serial : Nat
  deriving DecidableEq, Repr, Inhabited

/-- The name of a connection. -/
def Conn.name (conn : Conn) : String := conn.address ++ "#" ++ toString conn.serial

/-- A connection with the position of its endpoint in the table of its pool. -/
structure Entry where
  conn : Conn
  index : Nat
  deriving DecidableEq, Repr, Inhabited

end HeartbeatPool
