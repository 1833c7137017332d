namespace ConnectionPool

inductive Scheme
  | http
  | https
  deriving DecidableEq

namespace Scheme

def name : Scheme → String
  | http => "http"
  | https => "https"

def defaultPort : Scheme → Nat
  | http => 80
  | https => 443

def ofName? : String → Option Scheme
  | "http" => some http
  | "https" => some https
  | _ => none

@[simp] theorem ofName?_name (s : Scheme) : ofName? s.name = some s := by
  cases s <;> rfl

end Scheme

structure Host where
  hostname : String
  port : Nat
  scheme : Scheme
  deriving DecidableEq

namespace Host

def make (name : String) (port : Option Nat) (scheme : Scheme) : Host where
  hostname := name.map Char.toLower
  port := port.getD scheme.defaultPort
  scheme := scheme

def text (h : Host) : String := s!"{h.scheme.name}://{h.hostname}:{h.port}"

end Host

/-- A target behind a chain of proxies, the first hop first. -/
structure Route where
  target : Host
  proxies : List Host := []
  secure : Bool := false
  deriving DecidableEq

namespace Route

def proxy (r : Route) : Option Host := r.proxies.head?

def hops (r : Route) : Nat := r.proxies.length + 1

def text (r : Route) : String :=
  (if r.secure then "\x7bs\x7d->" else "") ++
  String.join (r.proxies.map fun p => p.text ++ "->") ++ r.target.text

end Route

end ConnectionPool
