import ConnectionPool.Session.Call
import ConnectionPool.Session.Wait

namespace ConnectionPool.Session

def getNamed (wait : PoolId × RequestId → Act (Option Waited)) (name as : String) :
    Act Answer := do
  require !(← get).entries.has as
  let r ← takeRequest name
  let answer ← settle as (← wait r)
  keepRequest name r
  pure answer

def getWithin (runHook : Runner) (timeout : Span) (r : PoolId × RequestId) :
    Act (Option Waited) := do
  await runHook r (sooner (timeout.after (← get).now) (← ticket r).deadline)

def getToDeadline (runHook : Runner) (r : PoolId × RequestId) : Act (Option Waited) := do
  await runHook r (← ticket r).deadline

def leaseGet (runHook : Runner) (pool : String) (route : Nat) (timeout : Option Span)
    (as : String) : Act Answer := do
  let p ← handle pool
  let route ← Session.route route
  require !(← get).entries.has as
  match ← turn p (Tenancy.lease (← get).moment route timeout) with
  | .error f => pure (.failed f)
  | .ok id =>
    let answer ← settle as (← getToDeadline runHook (p, id))
    dropRequest (p, id)
    pure answer

def tryCall (c : Call) : Act Answer := fun s => some ((call c s).getD (.skipped, s))

def getDuring (runHook : Runner) (name : String) (c : Call) (as : String) : Act Answer := do
  require (c.mayInterject && !(← get).entries.has as)
  require (← mustWait (← request name))
  let r ← takeRequest name
  let answer ← tryCall c
  let cancelled ← turn r.1 (Tenancy.cancel r.2)
  let got ← settle as (← await runHook r none)
  keepRequest name r
  pure (.during answer cancelled got)

def conclude (runHook : Runner) (name : String) (r : PoolId × RequestId) (as : String) :
    Act Answer := do
  let waited ← awaitAsync runHook r
  keepRequest name r
  settle as waited

def start (runHook : Runner) (name as : String) : Act Answer := do
  require (!(← get).entries.has as && !(← get).futures.has as)
  let r ← takeRequest name
  startTimer
  if (← isPending r) && !(← get).hasLapsed (← ticket r).deadline then
    modify fun s => { s with futures := s.futures.put as (name, r) }
    pure .pending
  else conclude runHook name r as

def poll (runHook : Runner) (future as : String) : Act Answer := do
  require !(← get).entries.has as
  let (name, r) ← present (·.futures.get? future)
  catchUpTimer
  if ← mustWait r then pure .pending
  else
    modify fun s => { s with futures := s.futures.remove future }
    conclude runHook name r as

def createUnwanted (runHook : Runner) (p : PoolId) (r : Record) : Act Unit := do
  match ← create runHook p r with
  | .ok e => dropEntry e
  | .error _ => pure ()

def abandon (runHook : Runner) (name : String) : Act Answer := do
  let r ← takeRequest name
  startTimer
  match ← turn r.1 (Tenancy.collect r.2) with
  | .granted (.create record) =>
    dropRequest r
    createUnwanted runHook r.1 record
    pure .dropped
  | .granted (.reuse e) =>
    let info ← info (r.1, e.record.id)
    dropEntry (r.1, e.record.id)
    dropRequest r
    pure (.entry info)
  | .failed f =>
    dropRequest r
    pure (.failed f)
  | .pending =>
    let answer ←
      if (← get).hasLapsed (← ticket r).deadline then .failed <$> turn r.1 (Tenancy.timeOut r.2)
      else pure .dropped
    dropRequest r
    pure answer

def step (runHook : Runner) : Step → Act Answer
  | .call c => call c
  | .get name as => getNamed (getToDeadline runHook) name as
  | .getTimeout name timeout as => getNamed (getWithin runHook timeout) name as
  | .getAsync name as => getNamed (awaitAsync runHook) name as
  | .leaseGet pool route timeout as => leaseGet runHook pool route timeout as
  | .getDuring name c as => getDuring runHook name c as
  | .start name as => start runHook name as
  | .poll future as => poll runHook future as
  | .abandon name => abandon runHook name
  | .hook steps => do
    modify fun s => { s with hook := some steps }
    pure .ok
  | .idle => failure

def take (runHook : Runner) (st : Step) (s : Session) : Answer × Session :=
  let (answer, after) := (step runHook st s).getD (.skipped, s)
  let events := after.events.drop s.events.length
  (answer,
    if st.sweeps then { after with events := s.events ++ Event.sortCloses events } else after)

/-- Takes steps in which hooks are nested less than `n` deep. -/
def run : (n : Nat) → Runner
  | 0, _ => pure []
  | n + 1, steps => steps.mapM fun st s => some (take (run n) st s)

structure Outcome where
  answer : Answer
  events : List Event
  overview : Overview

def outcomes (runHook : Runner) : List Step → Session → List Outcome
  | [], _ => []
  | st :: rest, s =>
    let (answer, s) := take runHook st { s with events := [] }
    { answer, events := s.events, overview := s.overview } :: outcomes runHook rest s

def script (routes : List Route) (tellsStale : Bool) (steps : List Step) : List Outcome :=
  outcomes (run (Step.depthOfAll steps)) steps { routes, fleet := { tellsStale } }

end ConnectionPool.Session
