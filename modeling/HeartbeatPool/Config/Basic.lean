import HeartbeatPool.Endpoint
import HeartbeatPool.Table

/-!
# Client configurations

A configuration is a list of entries, each naming a service and one of its endpoints.  A service
with several endpoints has several entries; their order is the order of the endpoints in the
service's pool.
-/

namespace HeartbeatPool

/-- One endpoint of a service. -/
structure ClientEntry where
  service : String
  address : String
  /-- Whether transport security is used. -/
  tls : Bool := false
  /-- The path of a certificate file. -/
  caCertificate : Option String := none
  /-- The server name that is expected in the certificate. -/
  hostOverride : Option String := none
  deriving DecidableEq, Repr, Inhabited

/-- The endpoint that an entry describes. -/
def ClientEntry.toEndpoint (entry : ClientEntry) : Endpoint where
  address := entry.address
  tls := entry.tls
  caCertificate := entry.caCertificate
  hostOverride := entry.hostOverride

/-- The entries of a configuration, in the order of the file. -/
structure ClientConfig where
  entries : List ClientEntry := []
  deriving DecidableEq, Repr, Inhabited

namespace ClientConfig

/-- The entries of a service, in the order of the file. -/
def entriesFor (config : ClientConfig) (service : String) : List ClientEntry :=
  config.entries.filter fun entry => entry.service == service

/-- Adds an endpoint to those of its service. -/
def addEndpoint (table : Table String (List Endpoint)) (entry : ClientEntry) :
    Table String (List Endpoint) :=
  table.insert entry.service ((table.get? entry.service).getD [] ++ [entry.toEndpoint])

/-- The endpoints of each service, in the order of the file.  Services come in the order of their
first entries. -/
def endpointsByService (config : ClientConfig) : Table String (List Endpoint) :=
  config.entries.foldl addEndpoint ∅

end ClientConfig

/-- An order in which services are gone through.  They are looked up in a hash table, which goes
through them in an order that nobody should rely on, so what is true of one order has to be true of
all. -/
structure ServiceOrder where
  arrange : List (String × List Endpoint) → List (String × List Endpoint)
  perm : ∀ services, (arrange services).Perm services

/-- The services in the order of their first entries. -/
def ServiceOrder.ofFile : ServiceOrder := ⟨id, fun services => .refl services⟩

/-- The services of a configuration with their endpoints, in some order. -/
def ClientConfig.services (config : ClientConfig) (order : ServiceOrder) :
    List (String × List Endpoint) :=
  order.arrange config.endpointsByService.toList

/-- The outline of an entry. -/
def ClientEntry.shape (entry : ClientEntry) : Text.Shape :=
  .record "ClientEntry"
    [("service", .text entry.service), ("address", .text entry.address),
      ("tls", .plain (toString entry.tls)),
      ("ca_certificate", .optional (entry.caCertificate.map .text)),
      ("host_override", .optional (entry.hostOverride.map .text))] false

/-- The outline of a configuration. -/
def ClientConfig.shape (config : ClientConfig) : Text.Shape :=
  .record "ClientConfig" [("entries", .list (config.entries.map ClientEntry.shape))] false

end HeartbeatPool
