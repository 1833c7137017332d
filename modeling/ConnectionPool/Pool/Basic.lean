import ConnectionPool.Conf
import ConnectionPool.Pool.Lane
import ConnectionPool.Pool.Recency
import ConnectionPool.Stats
import ConnectionPool.Table

/-! The state of a pool. -/

namespace ConnectionPool

structure Limits where
  total : Nat
  /-- The limit of routes without a limit of their own. -/
  perRoute : Nat
  overrides : Table Route Nat
  deriving DecidableEq

def Limits.forRoute (l : Limits) (r : Route) : Nat := (l.overrides.get? r).getD l.perRoute

/-- How long connections stay fit for use, in milliseconds; none means no limit. -/
structure Policy where
  timeToLive : Option Nat
  keepalive : Option Nat
  validateAfter : Option Nat
  deriving DecidableEq

structure Pool where
  limits : Limits
  policy : Policy
  lanes : Table Route Lane := []
  idle : Recency := []
  requests : Table RequestId Slot := []
  /-- The pending requests of all routes in the order of arrival. -/
  waiting : Table RequestId Route := []
  leased : Nat := 0
  isShut : Bool := false
  lastEntry : Nat := 0
  lastRequest : Nat := 0
  deriving DecidableEq

namespace Pool

def ofConf (c : Conf) : Pool where
  limits := {
    total := c.maxTotal
    perRoute := c.defaultMaxPerRoute
    overrides := c.perRoute.foldl (fun t l => t.put l.route l.max) [] }
  policy := {
    timeToLive := c.timeToLive
    keepalive := c.defaultKeepalive
    validateAfter := c.validateAfterInactivity }

def lane (p : Pool) (r : Route) : Lane := (p.lanes.get? r).getD {}

def setLane (r : Route) (l : Lane) (p : Pool) : Pool := { p with lanes := p.lanes.put r l }

def updateLane (r : Route) (f : Lane → Lane) (p : Pool) : Pool := p.setLane r (f (p.lane r))

def openLane (r : Route) (p : Pool) : Pool := p.updateLane r id

def prune (r : Route) (p : Pool) : Pool :=
  if (p.lanes.get? r).any Lane.isBare then { p with lanes := p.lanes.remove r } else p

def pruneAll (p : Pool) : Pool := { p with lanes := p.lanes.filter (!·.2.isBare) }

@[simp] theorem lane_setLane_self (p : Pool) (r : Route) (l : Lane) :
    (p.setLane r l).lane r = l := by
  simp [setLane, lane]

@[simp] theorem lane_setLane_of_ne (p : Pool) {r s : Route} (l : Lane) (h : r ≠ s) :
    (p.setLane r l).lane s = p.lane s := by
  simp [setLane, lane, h]

def allocated (p : Pool) : Nat := p.leased + p.idle.length

def enqueue (id : RequestId) (r : Route) (p : Pool) : Pool :=
  { p.updateLane r (Lane.enqueue id) with waiting := p.waiting.put id r }

def withdraw (id : RequestId) (p : Pool) : Pool :=
  match p.waiting.get? id with
  | some r => { p.updateLane r (Lane.dequeue id) with waiting := p.waiting.remove id }.prune r
  | none => p

def unlease? (r : Record) (p : Pool) : Option Pool :=
  if p.isShut then none
  else
    ((p.lane r.route).unlease? r.id).map fun l =>
      { p.setLane r.route l with leased := p.leased - 1 }

def lease (r : Record) (p : Pool) : Pool :=
  { p.updateLane r.route (Lane.lease r.id) with leased := p.leased + 1 }

def totalStats (p : Pool) : Stats where
  leased := p.leased
  pending := p.waiting.length
  available := p.idle.length
  max := p.limits.total

def stats (p : Pool) (r : Route) : Stats where
  leased := (p.lane r).leased.length
  pending := (p.lane r).queue.length
  available := (p.lane r).available.length
  max := p.limits.forRoute r

def isDone (p : Pool) (id : RequestId) : Bool := !(p.requests.get? id).any Slot.isPending

end Pool

end ConnectionPool
