import HeartbeatPool.Session.State

/-!
# Dialing and probing without a pool

Endpoints may also be dialed and probed directly, with nothing in between: each is dialed, the
connection is probed if there is one, and then closed.
-/

namespace HeartbeatPool

/-- What came of dialing and probing an endpoint. -/
inductive DirectResult where
  | refused (cause : String)
  | probed (conn : Conn) (failure : Option String)
  deriving DecidableEq, Repr, Inhabited

/-- The text of the failure that an outcome ends in.  An outcome that never comes counts as one
whose time is up. -/
def Outcome.failure? : Outcome → Option String
  | .settles _ .success => none
  | .settles _ (.failure cause) => some cause
  | .hangs => some deadlineText

namespace Session

/-- Dials an endpoint and probes the connection under a label. -/
def probeDirectly (session : Session) (label : String) (endpoint : Endpoint) :
    Session × DirectResult :=
  let (world, conn) := session.world.dial endpoint
  let (outcome, script) := session.script.takeDial endpoint.address
  let session :=
    { session with world := world, script := script, seen := session.seen ++ [.dial endpoint] }
  match outcome.failure? with
  | some cause => (session, .refused cause)
  | none =>
      let (outcome, script) := session.script.takeProbe endpoint.address
      ({ session with
          script := script
          seen := session.seen ++ [.probe label conn, .close conn] },
        .probed conn outcome.failure?)

/-- Dials and probes endpoints, one after the other. -/
def probeAll (session : Session) (label : String) :
    List Endpoint → Session × List DirectResult
  | [] => (session, [])
  | endpoint :: rest =>
      let (session, result) := session.probeDirectly label endpoint
      let (session, results) := session.probeAll label rest
      (session, result :: results)

end Session

end HeartbeatPool
