import ConnectionPool.Tenancy

namespace ConnectionPool.Session

inductive Setup
  | standard
  | conf (conf : Conf)
  | yaml (text : String)

/-- A step that creates no connection. -/
inductive Call
  | new (pool : String) (setup : Setup)
  | clone (pool as : String)
  | dropPool (pool : String)
  | lease (pool : String) (route : Nat) (timeout : Option Span) (as : String)
  | isDone (request : String)
  | cancel (request : String)
  | canceller (request as : String)
  | cancelBy (canceller : String)
  | dropRequest (request : String)
  | dropFuture (future : String)
  | release (pool entry : String) (reusable : Bool) (validFor : Option Span)
  | discard (pool entry : String)
  | dropEntry (entry : String)
  | entry (entry : String)
  | isExpired (entry : String) (after : Span)
  | mark (entry : String) (add : Int)
  | spell (name : String)
  | setMaxTotal (pool : String) (max : Nat)
  | setDefaultMax (pool : String) (max : Nat)
  | setMaxFor (pool : String) (route : Nat) (max : Nat)
  | limits (pool : String)
  | stats (pool : String)
  | closeExpired (pool : String)
  | closeIdle (pool : String) (span : Span)
  | shutDown (pool : String)
  | isShut (pool : String)
  | advance (ms : Nat)
  | refuse (route : Nat) (failure : Failure)
  | accept (route : Nat)
  | setOpen (conn : Conn) (on : Bool)
  | setStale (conn : Conn) (on : Bool)
  | setAllStale (pool : String) (on : Bool)

def Call.mayInterject : Call → Bool
  | lease .. | cancel .. | cancelBy .. | dropRequest .. | dropFuture .. => true
  | release .. | discard .. | dropEntry .. => true
  | setMaxTotal .. | setDefaultMax .. | setMaxFor .. => true
  | closeExpired .. | closeIdle .. | shutDown .. => true
  | _ => false

def Call.sweeps : Call → Bool
  | setDefaultMax .. | closeExpired .. | shutDown .. => true
  | _ => false

inductive Step
  | call (call : Call)
  /-- Waits for the outcome of a request, at most to its deadline. -/
  | get (request as : String)
  | getTimeout (request : String) (timeout : Span) (as : String)
  /-- Waits for the outcome of a request in the background, and for the end of that. -/
  | getAsync (request as : String)
  /-- Leases, waits and drops the request. -/
  | leaseGet (pool : String) (route : Nat) (timeout : Option Span) (as : String)
  /-- Waits for the outcome of a request while a call is made and the request then cancelled. -/
  | getDuring (request : String) (call : Call) (as : String)
  /-- Starts to wait in the background, in a future that holds the request. -/
  | start (request as : String)
  | poll (future as : String)
  /-- Starts to wait in the background, and loses interest at once. -/
  | abandon (request : String)
  | hook (steps : List Step)
  | idle

def Step.sweeps : Step → Bool
  | .call c => c.sweeps
  | .getDuring _ c _ => c.sweeps
  | _ => false

mutual

def Step.depth : Step → Nat
  | .hook steps => Step.depthOfAll steps + 1
  | _ => 0

def Step.depthOfAll : List Step → Nat
  | [] => 0
  | s :: rest => max s.depth (Step.depthOfAll rest)

end

structure EntryInfo where
  entry : Entry
  mark : Int

inductive Answer
  | skipped
  | ok
  | blocked
  | pending
  | dropped
  | truth (b : Bool)
  | number (n : Int)
  | text (s : String)
  | failed (failure : Failure)
  | leased (isDone : Bool) (ticket : Ticket)
  | entry (info : EntryInfo)
  | limits (total perRoute : Nat) (routes : List Nat)
  | stats (total : Stats) (routes : List Stats)
  | during (call : Answer) (cancelled : Bool) (get : Answer)

inductive Event
  | created (conn : Conn) (route : Route)
  | refused (route : Route)
  | closed (conn : Conn)
  | reported (report : Report)
  | connecting (route : Route)
  | hooked (answers : List Answer)

namespace Event

def closed? : Event → Option Conn
  | closed c => some c
  | _ => none

def withCloses : List Conn → List Event → List Event
  | c :: cs, .closed _ :: es => .closed c :: withCloses cs es
  | cs, e :: es => e :: withCloses cs es
  | _, [] => []

/-- The events with the connections closed in the order of their numbers, as befits a step that
closes them in no order of its own. -/
def sortCloses (es : List Event) : List Event :=
  withCloses ((es.filterMap closed?).mergeSort (·.number ≤ ·.number)) es

end Event

def Event.isShown (least : Option Level) : Event → Bool
  | reported (.noted n) => least.any (·.rank ≤ n.level.rank)
  | _ => true

end ConnectionPool.Session
