import HeartbeatPool.Text.Shape

/-!
# Endpoints

An endpoint describes one backend that a pool dials.  A pool copies its endpoints when it is
created and never changes them afterwards, so the position of an endpoint in the pool's table is
a name for it that stays good as long as the pool lives.
-/

namespace HeartbeatPool

/-- One backend that connections are dialed against. -/
structure Endpoint where
  /-- `host:port`, or a full URI. -/
  address : String
  /-- Whether connections use transport security. -/
  tls : Bool := false
  /-- File of the certificate authority that the backend is checked against. -/
  caCertificate : Option String := none
  /-- Server name expected in the backend's certificate, where it is not that of the address. -/
  hostOverride : Option String := none
  deriving DecidableEq, Repr, Inhabited

namespace Endpoint

/-- One change made to an endpoint under construction. -/
inductive Edit where
  | tls (enabled : Bool)
  | caCertificate (path : String)
  | hostOverride (name : String)
  deriving DecidableEq, Repr

/-- The endpoint after one change; a later change of the same field replaces an earlier one. -/
def edit (endpoint : Endpoint) : Edit → Endpoint
  | .tls enabled => { endpoint with tls := enabled }
  | .caCertificate path => { endpoint with caCertificate := some path }
  | .hostOverride name => { endpoint with hostOverride := some name }

/-- The endpoint at first and after each change. -/
def history (endpoint : Endpoint) : List Edit → List Endpoint
  | [] => [endpoint]
  | change :: rest => endpoint :: (endpoint.edit change).history rest

/-- The endpoint after all changes. -/
def edits (endpoint : Endpoint) (changes : List Edit) : Endpoint :=
  changes.foldl edit endpoint

/-- The outline of an endpoint. -/
def shape (endpoint : Endpoint) : Text.Shape :=
  .record "EndpointDescriptor"
    [("address", .text endpoint.address), ("tls", .plain (toString endpoint.tls)),
      ("ca_certificate", .optional (endpoint.caCertificate.map .text)),
      ("host_override", .optional (endpoint.hostOverride.map .text))] false

end Endpoint

end HeartbeatPool
