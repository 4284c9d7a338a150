import HeartbeatPool.Channel.Uri
import HeartbeatPool.World.Basic

/-!
# Channels to endpoints

A channel factory turns an endpoint into a channel.  The address of the endpoint is used as it is
if it holds `://`, and otherwise with a scheme in front of it.  A lazy factory delivers a channel
without connecting; an eager one connects at once.  There is no transport security: an endpoint
that asks for it is refused.
-/

namespace HeartbeatPool

/-- How channels are made. -/
structure ChannelFactory where
  /-- Longest time for connecting. -/
  connectTimeout : Option Nat := none
  /-- Longest time for one request over a channel. -/
  requestTimeout : Option Nat := none
  /-- Whether a channel is delivered before it is connected. -/
  isLazy : Bool := false
  deriving DecidableEq, Repr, Inhabited

namespace ChannelFactory

/-- One change of a factory under construction. -/
inductive Edit where
  | connectTimeout (limit : Nat)
  | requestTimeout (limit : Nat)
  | isLazy (enabled : Bool)
  deriving DecidableEq, Repr

/-- The factory after one change. -/
def edit (factory : ChannelFactory) : Edit → ChannelFactory
  | .connectTimeout limit => { factory with connectTimeout := some limit }
  | .requestTimeout limit => { factory with requestTimeout := some limit }
  | .isLazy enabled => { factory with isLazy := enabled }

/-- The factory after all changes. -/
def edits (factory : ChannelFactory) (changes : List Edit) : ChannelFactory :=
  changes.foldl edit factory

end ChannelFactory

/-- Whether a text holds `://` somewhere. -/
def hasSeparator : List Char → Bool
  | [] => false
  | c :: rest => ("://".toList).isPrefixOf (c :: rest) || hasSeparator rest

/-- The URI that is dialed for an endpoint. -/
def Endpoint.uri (endpoint : Endpoint) : String :=
  if hasSeparator endpoint.address.toList then endpoint.address
  else (if endpoint.tls then "https" else "http") ++ "://" ++ endpoint.address

/-- Why there is no channel to an endpoint. -/
inductive ChannelFault where
  | invalidUri
  | noTransportSecurity (address : String)
  | unreachable
  deriving DecidableEq, Repr, Inhabited

/-- The words for a reason. -/
def ChannelFault.message : ChannelFault → String
  | .invalidUri => "invalid URI"
  | .noTransportSecurity address =>
      "transport security requested for " ++ address ++ " but the `tls` feature is disabled"
  | .unreachable => "transport error"

/-- What a factory finds when it connects. -/
structure Network where
  /-- Whether somebody accepts a connection at an address. -/
  accepts : String → Bool

/-- The network in which nobody accepts a connection. -/
def Network.none : Network := ⟨fun _ => false⟩

/-- Why a factory cannot dial an endpoint in a network, if it cannot.  The URI is looked at first,
then transport security, and only an eager factory goes on to connect. -/
def ChannelFactory.fault? (factory : ChannelFactory) (network : Network) (endpoint : Endpoint) :
    Option ChannelFault :=
  if !Uri.isValid endpoint.uri then some .invalidUri
  else if endpoint.tls then some (.noTransportSecurity endpoint.address)
  else if !factory.isLazy && !network.accepts endpoint.address then some .unreachable
  else .none

/-- Dials an endpoint: what is logged, and what comes of it. -/
def ChannelFactory.dial (factory : ChannelFactory) (network : Network) (endpoint : Endpoint) :
    List Event × Verdict :=
  match factory.fault? network endpoint with
  | some fault => ([], .failure fault.message)
  | .none =>
      (if factory.isLazy then [] else [.log (.channelEstablished endpoint.address)], .success)

end HeartbeatPool
