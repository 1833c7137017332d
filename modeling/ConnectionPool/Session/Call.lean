import ConnectionPool.Conf.Node
import ConnectionPool.Session.Basic

namespace ConnectionPool.Session

def Answer.ofFailure : Option Failure → Answer
  | some f => .failed f
  | none => .ok

def Setup.read : Setup → Act (Except Failure Conf)
  | .standard => pure (.ok {})
  | .conf c => pure c.validate
  | .yaml text => do
    emit (.reported (.noted (.confRead text)))
    match Conf.parse text with
    | .ok c =>
      emit (.reported (.noted (.confLoaded c)))
      pure c.validate
    | .error f => pure (.error f)

def new (name : String) (setup : Setup) : Act Answer := do
  require !(← get).handles.has name
  match ← setup.read with
  | .ok c =>
    modify fun s =>
      let p : PoolId := ⟨s.pools.length + 1⟩
      { s with
        pools := s.pools.put p { pool := Pool.ofConf c }
        handles := s.handles.put name p }
    pure .ok
  | .error f => pure (.failed f)

def lease (pool : String) (route : Nat) (timeout : Option Span) (as : String) : Act Answer := do
  let p ← handle pool
  let r ← Session.route route
  require ((← get).isFreeRequest as)
  match ← turn p (Tenancy.lease (← get).moment r timeout) with
  | .ok id =>
    keepRequest as (p, id)
    let ticket ← ticket (p, id)
    pure (.leased ((← tenancy p).pool.isDone id) ticket)
  | .error f => pure (.failed f)

def release (p : PoolId) (e : PoolId × EntryId) (reusable : Bool) (validFor : Option Span) :
    Act (Option Failure) := do
  if e.1 = p then turn p (Tenancy.release (← get).moment e.2 reusable validFor)
  else
    emit (.reported (.noted (.foreignEntry e.2)))
    dropEntry e
    let context := "connection entry was not issued by this pool"
    pure (some (Failure.explain .invalidArgument context).toCaller)

def cancelBy (r : PoolId × RequestId) : Act Bool := do
  if (← get).isAlive r.1 then turn r.1 (Tenancy.cancel r.2) else pure false

def spell (name : String) : Act String := do
  match (← get).entries.get? name with
  | some e =>
    let entry := (← info e).entry
    pure <| Literal.record "PoolEntry" [
      ("id", Literal.tagged "EntryId" (toString entry.record.id.number)),
      ("route", entry.record.route.literal),
      ("reused", if entry.reused then "true" else "false"),
      ("expiry", Literal.option (entry.record.expiry.map toString))]
  | none =>
    let r ← request name
    let ticket ← ticket r
    pure <| Literal.record "LeaseRequest" [
      ("id", r.2.text), ("route", ticket.route.literal),
      ("deadline", Literal.option (ticket.deadline.map toString))]

def updateLine (c : Conn) (g : Line → Line) : Act Unit := do
  let fleet ← present (·.fleet.update? c g)
  modify fun s => { s with fleet }

def turnNow (pool : String) (f : Moment → Tenancy → Turn α) : Act α := do
  let p ← handle pool
  turn p (f (← get).moment)

def call : Call → Act Answer
  | .new pool setup => new pool setup
  | .clone pool as => do
    let p ← handle pool
    require !(← get).handles.has as
    modify fun s => { s with handles := s.handles.put as p }
    pure .ok
  | .dropPool pool => do
    let _ ← handle pool
    modify fun s => { s with handles := s.handles.remove pool }
    pure .ok
  | .lease pool route timeout as => lease pool route timeout as
  | .isDone name => do
    let r ← request name
    pure (.truth ((← tenancy r.1).pool.isDone r.2))
  | .cancel name => do
    let r ← request name
    .truth <$> turn r.1 (Tenancy.cancel r.2)
  | .canceller name as => do
    let r ← request name
    require !(← get).cancellers.has as
    modify fun s => { s with cancellers := s.cancellers.put as r }
    pure .ok
  | .cancelBy name => do
    .truth <$> cancelBy (← present (·.cancellers.get? name))
  | .dropRequest name => do
    dropRequest (← takeRequest name)
    pure .ok
  | .dropFuture name => do
    let (_, r) ← present (·.futures.get? name)
    modify fun s => { s with futures := s.futures.remove name }
    dropRequest r
    pure .ok
  | .release pool name reusable validFor => do
    let p ← handle pool
    .ofFailure <$> release p (← takeEntry name) reusable validFor
  | .discard pool name => do
    let p ← handle pool
    .ofFailure <$> release p (← takeEntry name) false none
  | .dropEntry name => do
    dropEntry (← takeEntry name)
    pure .ok
  | .entry name => do
    .entry <$> info (← entry name)
  | .isExpired name after => do
    let record := (← info (← entry name)).entry.record
    pure (.truth ((after.after (← get).now).any record.isExpired))
  | .mark name add => do
    let conn := (← info (← entry name)).entry.conn
    updateLine conn fun l => { l with mark := l.mark + add }
    pure (.number ((← get).fleet.mark conn))
  | .spell name => .text <$> spell name
  | .setMaxTotal pool max => .ofFailure <$> turnNow pool (Tenancy.setMaxTotal · max)
  | .setDefaultMax pool max => .ofFailure <$> turnNow pool (Tenancy.setDefaultMax · max)
  | .setMaxFor pool route max => do
    let r ← Session.route route
    .ofFailure <$> turnNow pool (Tenancy.setMaxFor · r max)
  | .limits pool => do
    let limits := (← tenancy (← handle pool)).pool.limits
    pure (.limits limits.total limits.perRoute ((← get).routes.map limits.forRoute))
  | .stats pool => do
    let p := (← tenancy (← handle pool)).pool
    pure (.stats p.totalStats ((← get).routes.map p.stats))
  | .closeExpired pool => do
    turnNow pool Tenancy.closeExpired
    pure .ok
  | .closeIdle pool span => do
    turnNow pool (Tenancy.closeIdle · span)
    pure .ok
  | .shutDown pool => do
    turnNow pool fun _ => Tenancy.shutDown
    pure .ok
  | .isShut pool => do
    pure (.truth (← tenancy (← handle pool)).pool.isShut)
  | .advance ms => do
    modify fun s => { s with now := s.now + ms }
    pure .ok
  | .refuse route f => do
    let r ← Session.route route
    modify fun s => { s with refusals := s.refusals.put r f }
    pure .ok
  | .accept route => do
    let r ← Session.route route
    let wasRefused := (← get).refusals.has r
    modify fun s => { s with refusals := s.refusals.remove r }
    pure (.truth wasRefused)
  | .setOpen conn on => do
    updateLine conn ({ · with isOpen := on })
    pure .ok
  | .setStale conn on => do
    updateLine conn ({ · with isStale := on })
    pure .ok
  | .setAllStale pool on => do
    let _ ← handle pool
    modify fun s => { s with fleet := { s.fleet with isStale := on } }
    pure .ok

end ConnectionPool.Session
