import ConnectionPool.Fleet
import ConnectionPool.Session.Step
import ConnectionPool.Tenancy

/-! A session: pools that share a connector and a clock, and what their users hold by name. -/

namespace ConnectionPool

structure PoolId where
  number : Nat
  deriving DecidableEq

structure Session where
  routes : List Route
  fleet : Fleet := {}
  now : Instant := 0
  pools : Table PoolId Tenancy := []
  handles : Table String PoolId := []
  requests : Table String (PoolId × RequestId) := []
  entries : Table String (PoolId × EntryId) := []
  cancellers : Table String (PoolId × RequestId) := []
  /-- The futures, each with the name of its request. -/
  futures : Table String (String × PoolId × RequestId) := []
  /-- The routes to which no connection can be created, with the reason. -/
  refusals : Table Route Failure := []
  /-- How far the timer of the waits in the background has got.  It starts with the first such wait
  and goes on only when a wait in the background comes to rest or is looked after. -/
  timer : Option Instant := none
  hook : Option (List Session.Step) := none
  events : List Session.Event := []

namespace Session

/-- A change of a session, if it is possible. -/
abbrev Act := StateT Session Option

def moment (s : Session) : Moment := s.fleet.moment s.now

def isAlive (s : Session) (p : PoolId) : Bool :=
  s.handles.any (·.2 = p) || (s.pools.get? p).any Tenancy.isHeld

def emit (e : Event) : Act Unit := modify fun s => { s with events := s.events ++ [e] }

def close (c : Conn) : Act Unit := do
  modify fun s => { s with fleet := s.fleet.close c }
  emit (.closed c)

def present (find : Session → Option α) : Act α := do
  match find (← get) with
  | some a => pure a
  | none => failure

def require (b : Bool) : Act Unit := if b then pure () else failure

def turn (p : PoolId) (f : Tenancy → Turn α) : Act α := do
  let turn := f (← present (·.pools.get? p))
  modify fun s => { s with pools := s.pools.put p turn.tenancy }
  turn.reports.forM (emit ∘ .reported)
  turn.closed.forM close
  turn.afterwards.forM (emit ∘ .reported ∘ .noted)
  pure turn.answer

def tenancy (p : PoolId) : Act Tenancy := present (·.pools.get? p)

def route (i : Nat) : Act Route := present (·.routes[i]?)

def handle (name : String) : Act PoolId := present (·.handles.get? name)

def request (name : String) : Act (PoolId × RequestId) := present (·.requests.get? name)

def entry (name : String) : Act (PoolId × EntryId) := present (·.entries.get? name)

def isFreeRequest (s : Session) (name : String) : Bool :=
  !s.requests.has name && !s.futures.any (·.2.1 = name)

def ticket (r : PoolId × RequestId) : Act Ticket := do
  let t ← tenancy r.1
  present fun _ => t.tickets.get? r.2

def info (e : PoolId × EntryId) : Act EntryInfo := do
  let t ← tenancy e.1
  let entry ← present fun _ => t.entries.get? e.2
  pure { entry, mark := (← get).fleet.mark entry.conn }

def dropEntry (e : PoolId × EntryId) : Act Unit := do
  let s ← get
  turn e.1 (if s.isAlive e.1 then Tenancy.dropEntry s.moment e.2 else Tenancy.loseEntry e.2)

def dropRequest (r : PoolId × RequestId) : Act Unit := do
  turn r.1 (Tenancy.dropRequest (← get).moment r.2)

def keepEntry (name : String) (e : PoolId × EntryId) : Act Unit := do
  let old := (← get).entries.get? name
  modify fun s => { s with entries := s.entries.put name e }
  old.forM dropEntry

def keepRequest (name : String) (r : PoolId × RequestId) : Act Unit := do
  let old := (← get).requests.get? name
  modify fun s => { s with requests := s.requests.put name r }
  old.forM dropRequest

def takeRequest (name : String) : Act (PoolId × RequestId) := do
  let r ← request name
  modify fun s => { s with requests := s.requests.remove name }
  pure r

def takeEntry (name : String) : Act (PoolId × EntryId) := do
  let e ← entry name
  modify fun s => { s with entries := s.entries.remove name }
  pure e

/-- The counters of the pools by their handles, in total and for each route, and the names of the
requests held that are done, in order. -/
structure Overview where
  now : Instant
  pools : List (String × Stats × List Stats)
  done : List String

def overview (s : Session) : Overview where
  now := s.now
  pools := s.handles.filterMap fun (name, p) =>
    (s.pools.get? p).map fun t => (name, t.pool.totalStats, s.routes.map t.pool.stats)
  done :=
    let isDone (r : PoolId × RequestId) : Bool := (s.pools.get? r.1).any (·.pool.isDone r.2)
    ((s.requests.filter (isDone ·.2)).map Prod.fst).mergeSort (· ≤ ·)

end Session

end ConnectionPool
