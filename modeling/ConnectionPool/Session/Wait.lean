import ConnectionPool.Session.Basic

namespace ConnectionPool.Session

abbrev Runner := List Step → Act (List Answer)

abbrev Waited := Except Failure (PoolId × EntryId)

def create (runHook : Runner) (p : PoolId) (r : Record) : Act Waited := do
  if let some steps := (← get).hook then
    emit (.connecting r.route)
    modify fun s => { s with hook := none }
    emit (.hooked (← runHook steps))
  match (← get).refusals.get? r.route with
  | some f =>
    emit (.refused r.route)
    .error <$> turn p (Tenancy.connectFailed (← get).moment r f)
  | none =>
    let (conn, fleet) := (← get).fleet.make
    modify fun s => { s with fleet }
    emit (.created conn r.route)
    let entry ← turn p (Tenancy.connected r conn)
    pure (entry.map fun e => (p, e.record.id))

def timeOutAt (limit : Instant) (r : PoolId × RequestId) : Act Waited := do
  modify fun s => { s with now := max s.now limit }
  .error <$> turn r.1 (Tenancy.timeOut r.2)

/-- Waits for the outcome of a request at most to the limit; without a limit, waiting for a pending
request never ends. -/
def await (runHook : Runner) (r : PoolId × RequestId) (limit : Option Instant) :
    Act (Option Waited) := do
  match ← turn r.1 (Tenancy.collect r.2) with
  | .granted (.reuse e) => pure (some (.ok (r.1, e.record.id)))
  | .granted (.create record) => some <$> create runHook r.1 record
  | .failed f => pure (some (.error f))
  | .pending => limit.mapM (timeOutAt · r)

def startTimer : Act Unit := modify fun s => { s with timer := s.timer.or (some s.now) }

def catchUpTimer : Act Unit := modify fun s => { s with timer := some s.now }

def hasLapsed (s : Session) (deadline : Option Instant) : Bool :=
  deadline.any fun d => s.timer.any (d ≤ ·)

def awaitAsync (runHook : Runner) (r : PoolId × RequestId) : Act (Option Waited) := do
  startTimer
  let deadline := (← ticket r).deadline
  match ← turn r.1 (Tenancy.collect r.2) with
  | .granted (.reuse e) => pure (some (.ok (r.1, e.record.id)))
  | .granted (.create record) =>
    let waited ← create runHook r.1 record
    catchUpTimer
    pure (some waited)
  | .failed f => pure (some (.error f))
  | .pending =>
    let hadLapsed := (← get).hasLapsed deadline
    let waited ← deadline.mapM (timeOutAt · r)
    if waited.isSome && !hadLapsed then catchUpTimer
    pure waited

def settle (as : String) : Option Waited → Act Answer
  | some (.ok e) => do
    keepEntry as e
    .entry <$> info e
  | some (.error f) => pure (.failed f)
  | none => pure .blocked

def isPending (r : PoolId × RequestId) : Act Bool := do
  pure !(← tenancy r.1).pool.isDone r.2

def mustWait (r : PoolId × RequestId) : Act Bool := do
  let deadline := (← ticket r).deadline
  pure ((← isPending r) && !deadline.any (· ≤ (← get).now))

end ConnectionPool.Session
