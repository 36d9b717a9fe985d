import Mathlib.Data.List.Lex
import WayPoint.Foundations.FiniteMap
import WayPoint.Gateway.Http

/-! Rewriting the head of a request on its way to a server (simple_gateway.rs). -/
namespace WayPoint.Gateway
open Foundations

inductive PathOverride where
  | prefix_ (path : Text)
  | replace (path : Text)
  | append (path : Text)
  deriving DecidableEq, Repr

structure HttpProxyConfig where
  overideHeaders : FiniteMap Text Text
  pathOverride : PathOverride
  serverAddr : Text
  connectionCount : Nat

namespace HttpProxyConfig

def new (serverAddr : Text) : HttpProxyConfig where
  overideHeaders := ∅
  pathOverride := .prefix_ ['/']
  serverAddr := serverAddr
  connectionCount := 0

def withPathOverride (config : HttpProxyConfig) (pathOverride : PathOverride) : HttpProxyConfig :=
  { config with pathOverride }

def withHeaderOverride (config : HttpProxyConfig) (key value : Text) : HttpProxyConfig :=
  { config with overideHeaders := config.overideHeaders.insert key value }

def overridePath : PathOverride → Text → Text
  | .replace path, _ => path
  | .prefix_ path, ['/'] => path
  | .append path, ['/'] => path
  | .prefix_ start, path => start ++ path
  | .append suffix, path => path ++ suffix

/-- The overrides are appended in whatever order `order` lists the map; the keys they replace are
compared as they are written. -/
def modifyRequest (config : HttpProxyConfig) (order : List (Sigma fun _ : Text => Text))
    (request : Request) : Request :=
  { request with
    path := overridePath config.pathOverride request.path
    headers := request.headers.filter (fun header => decide (header.1 ∉ config.overideHeaders)) ++
      order.map (fun header => (header.1, header.2)) }

end HttpProxyConfig
end WayPoint.Gateway
