import ConnectionPool.Conf.Literal
import ConnectionPool.Pool.Request

namespace ConnectionPool

inductive Level
  | trace
  | debug
  | info
  | warn
  | error
  deriving DecidableEq

namespace Level

def name : Level → String
  | trace => "TRACE"
  | debug => "DEBUG"
  | info => "INFO"
  | warn => "WARN"
  | error => "ERROR"

def rank : Level → Nat
  | trace => 0
  | debug => 1
  | info => 2
  | warn => 3
  | error => 4

end Level

inductive Notice
  | confRead (text : String)
  | confLoaded (conf : Conf)
  | idleExpired (id : EntryId)
  | idleClosed (id : EntryId)
  | idleStale (id : EntryId)
  | reuse (id : EntryId) (route : Route)
  | closeInvalid (id : EntryId) (route : Route)
  | atLimit (route : Route) (max : Nat)
  | evict (id : EntryId) (owner route : Route)
  | strayIdle (id : EntryId) (route : Route)
  | reserve (id : EntryId) (route : Route)
  | queue (id : RequestId) (route : Route)
  | requestGone (id : RequestId)
  | keep (id : EntryId) (route : Route)
  | closeOverLimit (id : EntryId) (route : Route)
  | closeReleased (id : EntryId) (route : Route)
  | cancelled (id : RequestId)
  | dropPending (id : RequestId)
  | dropReuse (id : RequestId) (entry : EntryId)
  | dropReserved (id : RequestId) (entry : EntryId)
  | shutWhileConnecting (route : Route)
  | connected (id : EntryId) (route : Route)
  | connectFailed (route : Route) (failure : Failure)
  | foreignEntry (id : EntryId)
  | discardFailed (id : EntryId) (failure : Failure)
  | poolGone (id : EntryId)
  | closeExpired (count : Nat)
  | closeIdle (count : Nat) (span : Span)
  | shutDown (count : Nat)
  deriving DecidableEq

namespace Notice

def level : Notice → Level
  | confRead _ | confLoaded _ | idleExpired _ | idleClosed _ | idleStale _ => .trace
  | dropPending _ | dropReuse _ _ | dropReserved _ _ | poolGone _ => .trace
  | strayIdle _ _ | requestGone _ | connectFailed _ _ | foreignEntry _ | discardFailed _ _ => .warn
  | shutDown _ => .info
  | _ => .debug

def text : Notice → String
  | confRead t => "Read conf file: " ++ t
  | confLoaded c => "Loaded conf: " ++ c.literal
  | idleExpired id => s!"idle connection {id.text} expired"
  | idleClosed id => s!"idle connection {id.text} is no longer open"
  | idleStale id => s!"idle connection {id.text} is stale"
  | reuse id r => s!"reuse connection {id.text} for {r.text}"
  | closeInvalid id r => s!"close invalid idle connection {id.text} of {r.text}"
  | atLimit r max => s!"{r.text} is at its limit of {max}"
  | evict id o r => s!"evict idle connection {id.text} of {o.text} for {r.text}"
  | strayIdle id r => s!"idle connection {id.text} of {r.text} is not in its route pool"
  | reserve id r => s!"reserve new connection {id.text} for {r.text}"
  | queue id r => s!"queue lease request {id.text} for {r.text}"
  | requestGone id => s!"lease request {id.text} is gone, taking its grant back"
  | keep id r => s!"connection {id.text} of {r.text} released for reuse"
  | closeOverLimit id r => s!"connection {id.text} of {r.text} released over the limit, closed"
  | closeReleased id r => s!"connection {id.text} of {r.text} released and closed"
  | cancelled id => s!"lease request {id.text} cancelled"
  | dropPending id => s!"drop pending lease request {id.text}"
  | dropReuse id e => s!"lease request {id.text} dropped, connection {e.text} goes back"
  | dropReserved id e => s!"lease request {id.text} dropped, freeing reserved {e.text}"
  | shutWhileConnecting r => s!"pool shut down while connecting to {r.text}"
  | connected id r => s!"new connection {id.text} to {r.text}"
  | connectFailed r f => s!"fail to connect to {r.text}: {f.text}"
  | foreignEntry id => s!"connection {id.text} was not issued by this pool"
  | discardFailed id f => s!"fail to discard dropped connection {id.text}: {f.text}"
  | poolGone id => s!"pool of connection {id.text} is gone, dropping it"
  | closeExpired n => s!"close {n} expired connections"
  | closeIdle n d => s!"close {n} connections idle for {d.text}"
  | shutDown n => s!"connection pool shut down, {n} idle connections closed"

end Notice

/-- What a pool does while it works that shows outside. -/
inductive Report
  | askedOpen (conn : Conn)
  | askedStale (conn : Conn) (now : Instant)
  | noted (notice : Notice)
  deriving DecidableEq

end ConnectionPool
