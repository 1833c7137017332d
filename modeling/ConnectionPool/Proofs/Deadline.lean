import ConnectionPool.Proofs.Freeing
import ConnectionPool.Proofs.Outcome
import ConnectionPool.Session.Run

namespace ConnectionPool

variable {conf : Conf} {l : Life} {m : Moment} {o : Op} {t : Tenancy} {id : RequestId} {r : Route}
  {ops : List (Moment × Op)}

def Ticket.untimed (k : Ticket) : Ticket := { k with deadline := none }

def Op.untimed : Op → Op
  | lease r _ => .lease r none
  | o => o

def Tenancy.untimed (t : Tenancy) : Tenancy :=
  { t with tickets := t.tickets.map fun x => (x.1, x.2.untimed) }

def Turn.untimed (turn : Turn α) : Turn α := { turn with tenancy := turn.tenancy.untimed }

def Life.untimed (l : Life) : Life := { l with tenancy := l.tenancy.untimed }

namespace Tenancy

theorem lease_untimed (timeout : Option Span) :
    t.untimed.lease m r none = (t.lease m r timeout).untimed := by
  have hturn : t.untimed.turn (Work.lease m r) = (t.turn (Work.lease m r)).untimed := rfl
  unfold lease
  rw [hturn]
  cases hanswer : (t.turn (Work.lease m r)).answer with
  | error f => simp [Turn.untimed, hanswer]
  | ok id =>
    simp only [Turn.untimed, hanswer, untimed]
    rw [Table.map_put _ _ _ Ticket.untimed]
    rfl

theorem collect_untimed : t.untimed.collect id = (t.collect id).untimed := by
  cases hid : t.pool.requests.get? id with
  | none =>
    rw [collect_gone hid, collect_gone (t := t.untimed) hid]
    rfl
  | some s =>
    obtain ⟨r, d⟩ := s
    cases d with
    | pending =>
      rw [collect_pending hid, collect_pending (t := t.untimed) hid]
      rfl
    | failed f =>
      rw [collect_failed hid, collect_failed (t := t.untimed) hid]
      rfl
    | granted g =>
      cases g with
      | reuse e =>
        rw [collect_reuse hid, collect_reuse (t := t.untimed) hid]
        rfl
      | create s =>
        rw [collect_create hid, collect_create (t := t.untimed) hid]
        rfl

theorem look_untimed (last : Bool) : t.untimed.look id last = (t.look id last).untimed := by
  by_cases hid : ∃ r, t.pool.requests.get? id = some { route := r }
  · obtain ⟨r, hid⟩ := hid
    rw [look_pending last hid, look_pending (t := t.untimed) last hid]
    cases last <;> rfl
  · rw [look_of_not_pending last (not_exists.1 hid),
      look_of_not_pending (t := t.untimed) last (not_exists.1 hid), collect_untimed]
    rfl

theorem release_untimed (id : EntryId) (reusable : Bool) (v : Option Span) :
    t.untimed.release m id reusable v = (t.release m id reusable v).untimed := by
  cases he : t.entries.get? id with
  | none =>
    have hnone : t.untimed.entries.get? id = none := he
    unfold release
    rw [he, hnone]
    rfl
  | some e =>
    rw [release_eq he, release_eq (t := t.untimed) he]
    rfl

theorem act_untimed : t.untimed.act m o.untimed = (t.act m o).untimed := by
  cases o with
  | lease r timeout => exact congrArg (Turn.reply ()) (lease_untimed timeout)
  | get id last => exact look_untimed last
  | connected s x =>
    simp only [Op.untimed, act, connected]
    change Turn.reply () (if t.pool.isShut then _ else _) = _
    split <;> rfl
  | dropRequest id =>
    simp only [Op.untimed, act, dropRequest, untimed]
    rw [← Table.map_remove _ _ Ticket.untimed]
    rfl
  | release id reusable v => exact congrArg (Turn.reply ()) (release_untimed id reusable v)
  | discard id => exact congrArg (Turn.reply ()) (release_untimed id false none)
  | dropEntry id =>
    simp only [Op.untimed, act, dropEntry, discard, release_untimed]
    change (if t.entries.has id then _ else _) = _
    split <;> rfl
  | _ => rfl

end Tenancy

namespace Life

theorem step_untimed : (l.step m o).untimed = l.untimed.step m o.untimed := by
  have hpossible : o.untimed.isPossible l.untimed.tenancy l.untimed.made =
      o.isPossible l.tenancy l.made := by cases o <;> rfl
  have hmakes : o.untimed.makes l.made = o.makes l.made := by cases o <;> rfl
  have hact : l.untimed.tenancy.act m o.untimed = (l.tenancy.act m o).untimed :=
    Tenancy.act_untimed
  rw [step, step, hpossible, hact]
  split
  · simp only [untimed, Turn.untimed, hmakes]
  · rfl

theorem run_untimed (l : Life) (ops : List (Moment × Op)) :
    (l.run ops).untimed = l.untimed.run (ops.map fun x => (x.1, x.2.untimed)) := by
  induction ops generalizing l with
  | nil => rfl
  | cons x ops ih => exact (ih (l.step x.1 x.2)).trans (congrArg (run · _) step_untimed)

end Life

namespace Tenancy

structure IsOverdue (now : Instant) (id : RequestId) (t : Tenancy) : Prop where
  waits : t.pool.isDone id = false
  late : ∃ k ∈ t.tickets.get? id, ∃ d ∈ k.deadline, d < now

theorem IsOverdue.mono {now later : Instant} (h : t.IsOverdue now id) (hle : now ≤ later) :
    t.IsOverdue later id := by
  obtain ⟨hwaits, k, hk, d, hd, hlt⟩ := h
  exact ⟨hwaits, k, hk, d, hd, hlt.trans_le hle⟩

theorem act_ticket (h : t.IsSound) (hid : id.number ≤ t.pool.lastRequest)
    (ho : o ≠ .dropRequest id) : (t.act m o).tenancy.tickets.get? id = t.tickets.get? id := by
  by_cases hlease : ∃ r timeout, o = .lease r timeout
  · obtain ⟨r, timeout, rfl⟩ := hlease
    change (t.lease m r timeout).tenancy.tickets.get? id = _
    cases lease_leases (m := m) (r := r) h timeout with
    | refused f hturn => rw [hturn]
    | enters s ticket _ _ htickets => rw [htickets, Table.get?_put_of_ne _ _ (ne_nextRequest hid)]
  · rw [act_tickets fun r timeout heq => hlease ⟨r, timeout, heq⟩]
    cases o with
    | dropRequest x => exact Table.get?_remove_of_ne _ fun heq => ho (heq ▸ rfl)
    | _ => rfl

theorem timeOut_answer (hid : t.pool.requests.get? id = some { route := r }) :
    (t.timeOut id).answer =
      .internally .poolTimeout s!"timeout waiting for a connection to {r.text}" := by
  simp only [timeOut, Pool.timeOut, hid]

theorem finds_reuse {e : Idle} (last : Bool)
    (hid : t.pool.requests.get? id = some { route := r, outcome := .granted (.reuse e) }) :
    t.finds id last = .granted (.reuse e) := by
  rw [finds, collect_reuse hid]

theorem finds_last (hid : t.pool.requests.get? id = some { route := r }) :
    t.finds id true =
      .failed (.internally .poolTimeout s!"timeout waiting for a connection to {r.text}") := by
  rw [finds, collect_pending hid, timeOut_answer hid]
  rfl

end Tenancy

namespace Op

def Ends (id : RequestId) (o : Op) : Prop :=
  o = .get id true ∨ o = .dropRequest id ∨ o = .cancel id ∨ o = .shutDown

theorem settle_of_ends (ho : o.Ends id) (r : Route) : o.settle id (some { route := r }) = none ∨
    ∃ f, o.settle id (some { route := r }) = some { route := r, outcome := .failed f } := by
  rcases ho with rfl | rfl | rfl | rfl
  · exact .inl (by simp [settle])
  · exact .inl (by simp [settle])
  · exact .inr ⟨.cancelled, by simp [settle, Slot.refuse, Slot.isPending]⟩
  · exact .inr ⟨.shutWhilePending, rfl⟩

theorem settle_of_not_ends (ho : ¬ o.Ends id) (r : Route) :
    o.settle id (some { route := r }) = some { route := r } := by
  simp only [Ends, not_or] at ho
  obtain ⟨hget, hdrop, hcancel, hshut⟩ := ho
  cases o with
  | get x last =>
    cases last with
    | true =>
      have hx : ¬ x = id := fun heq => hget (heq ▸ rfl)
      simp [settle, hx]
    | false => simp [settle, Slot.isPending]
  | cancel x =>
    have hx : ¬ x = id := fun heq => hcancel (heq ▸ rfl)
    simp [settle, hx]
  | dropRequest x =>
    have hx : ¬ x = id := fun heq => hdrop (heq ▸ rfl)
    simp [settle, hx]
  | shutDown => exact absurd rfl hshut
  | _ => rfl

end Op

namespace Life

/-- Who waits past the deadline when a step begins is granted nothing from then on.  Whoever looks for
the outcome is told of the timeout, unless the wait ended before. -/
def HonoursDeadlines (l : Life) (ops : List (Moment × Op)) : Prop :=
  ∀ pre m o post id, ops = pre ++ (m, o) :: post →
    (l.run pre).tenancy.IsOverdue m.now id → ∀ more, more <+: (m, o) :: post →
      let t := (l.run (pre ++ more)).tenancy
      (∀ r g, t.pool.requests.get? id ≠ some { route := r, outcome := .granted g }) ∧
        ((∀ x ∈ more, ¬ x.2.Ends id) → ∃ f, t.finds id true = .failed f ∧ f.kind = .poolTimeout)

def GrantsInTime (l : Life) (ops : List (Moment × Op)) : Prop :=
  ∀ pre m o post id r g, ops = pre ++ (m, o) :: post →
    (l.run pre).tenancy.IsOverdue m.now id →
      ¬ (l.run pre).tenancy.pool.Grants ((l.run pre).step m o).tenancy.pool id r g

theorem run_append (l : Life) (ops more : List (Moment × Op)) :
    l.run (ops ++ more) = (l.run ops).run more := List.foldl_append ..

theorem GrantsInTime.middle {pre more post : List (Moment × Op)}
    (h : l.GrantsInTime (pre ++ (more ++ post))) : (l.run pre).GrantsInTime more := by
  intro as m o bs id r g heq
  rw [← run_append]
  refine h (pre ++ as) m o (bs ++ post) id r g ?_
  simp [heq]

theorem step_overdue {now : Instant} (h : l.tenancy.IsSound) (hover : l.tenancy.IsOverdue now id)
    (hgrants : ∀ r g, ¬ l.tenancy.pool.Grants (l.step m o).tenancy.pool id r g) :
    (l.step m o).tenancy.IsOverdue now id ∧ ¬ o.Ends id ∨
      (l.step m o).tenancy.pool.IsRefused id ∧ o.Ends id := by
  obtain ⟨r, hid⟩ := Pool.isDone_eq_false_iff.1 hover.waits
  have hknown := Tenancy.number_le h hid
  have hslot : (l.step m o).tenancy.pool.requests.get? id = o.settle id (some { route := r }) := by
    rcases step_slot h m o hknown with hsame | ⟨g, -, hgranted⟩
    · rw [hsame, hid]
    · exact absurd ⟨hgranted, fun d => by simp [hid]⟩ (hgrants _ g)
  by_cases ho : o.Ends id
  · refine .inr ⟨⟨hknown.trans (step_lastRequest_le h m o), fun s hs => ?_⟩, ho⟩
    rw [hslot] at hs
    rcases Op.settle_of_ends ho r with hnone | ⟨f, hf⟩
    · simp [hnone] at hs
    · rw [hf] at hs
      obtain rfl := Option.some.inj hs
      exact ⟨f, rfl⟩
  · rw [Op.settle_of_not_ends ho] at hslot
    refine .inl ⟨⟨Pool.isDone_eq_false_iff.2 ⟨r, hslot⟩, ?_⟩, ho⟩
    have hticket : (l.step m o).tenancy.tickets.get? id = l.tenancy.tickets.get? id := by
      by_cases hp : o.isPossible l.tenancy l.made
      · rw [step_tenancy hp]
        exact Tenancy.act_ticket h hknown fun heq => ho (.inr (.inl heq))
      · rw [step_of_not_isPossible hp]
    rw [hticket]
    exact hover.late

theorem run_overdue {now : Instant} {more : List (Moment × Op)} (h : l.tenancy.IsSound)
    (hs : l.tenancy.pool.Settled) (hover : l.tenancy.IsOverdue now id)
    (hlate : ∀ x ∈ more, x.2.isLease ∨ now ≤ x.1.now) (hgrants : l.GrantsInTime more) :
    (l.run more).tenancy.IsOverdue now id ∨
      (l.run more).tenancy.pool.IsRefused id ∧ ∃ x ∈ more, x.2.Ends id := by
  induction more generalizing l with
  | nil => exact .inl hover
  | cons x more ih =>
    obtain ⟨s, hid⟩ := Pool.isDone_eq_false_iff.1 hover.waits
    have hstep := step_sound h x.1 x.2
    have hsettled := step_settled h hs x.1 x.2
    have hall : l.GrantsInTime ([x] ++ (more ++ [])) := by simpa using hgrants
    have hrest : (l.step x.1 x.2).GrantsInTime more := hall.middle
    -- a lease may look at the clock too early to find anybody overdue, but it frees nothing
    have hnone (r : Route) (g : Grant) :
        ¬ l.tenancy.pool.Grants (l.step x.1 x.2).tenancy.pool id r g := by
      rcases hlate x List.mem_cons_self with hlease | hle
      · exact fun hg => Op.not_frees_of_isLease hlease (frees_of_grants h hs hid hg)
      · exact hgrants [] x.1 x.2 more id r g rfl (hover.mono hle)
    rcases step_overdue h hover hnone with ⟨hover, -⟩ | ⟨hrefused, hends⟩
    · refine (ih hstep hsettled hover (fun y hy => hlate y (List.mem_cons_of_mem x hy))
        hrest).imp_right ?_
      rintro ⟨hrefused, y, hy, hends⟩
      exact ⟨hrefused, y, List.mem_cons_of_mem x hy, hends⟩
    · exact .inr ⟨run_keeps (P := fun t => t.pool.IsRefused id)
        (fun l hl m o => step_isRefused hl m o) hstep hrefused more, x, List.mem_cons_self, hends⟩

/-- Nothing is set free while a request waits past its deadline. -/
def NeverFreesLate (l : Life) (ops : List (Moment × Op)) : Prop :=
  ∀ pre o id, pre ++ [o] <+: ops → (l.run pre).tenancy.IsOverdue o.1.now id →
    ¬ o.2.Frees (l.run pre).tenancy

theorem NeverFreesLate.grantsInTime (h : (start conf).NeverFreesLate ops) :
    (start conf).GrantsInTime ops := by
  rintro pre m o post id r g rfl hover hgrants
  obtain ⟨s, hid⟩ := Pool.isDone_eq_false_iff.1 hover.waits
  exact h pre (m, o) id ⟨post, by simp⟩ hover
    (frees_of_grants (run_sound conf pre) (run_settled conf pre) hid hgrants)

theorem HonoursDeadlines.grantsInTime (h : l.HonoursDeadlines ops) : l.GrantsInTime ops := by
  intro pre m o post id r g heq hover hgrants
  refine (h pre m o post id heq hover [(m, o)] ⟨post, rfl⟩).1 r g ?_
  rw [run_append_singleton]
  exact hgrants.granted

theorem honoursDeadlines_iff (conf : Conf) (hclock : Clocked ops) :
    (start conf).HonoursDeadlines ops ↔ (start conf).GrantsInTime ops := by
  refine ⟨HonoursDeadlines.grantsInTime, ?_⟩
  rintro h pre m o post id rfl hover more ⟨rest, hmore⟩
  rw [← hmore] at h
  have hlate : ∀ x ∈ more, x.2.isLease ∨ m.now ≤ x.1.now := by
    intro x hx
    have hmem : x ∈ (m, o) :: post := hmore ▸ List.mem_append_left rest hx
    rcases List.mem_cons.1 hmem with rfl | hmem
    · exact .inr le_rfl
    · exact (List.pairwise_cons.1 (List.pairwise_append.1 hclock).2.1).1 x hmem
  rw [run_append]
  rcases run_overdue (run_sound conf pre) (run_settled conf pre) hover hlate h.middle with
    hover | ⟨hrefused, hends⟩
  · obtain ⟨r, hid⟩ := Pool.isDone_eq_false_iff.1 hover.waits
    exact ⟨fun s g hg => by simp [hid] at hg, fun _ => ⟨_, Tenancy.finds_last hid, rfl⟩⟩
  · refine ⟨fun s g hg => ?_, fun hnone => ?_⟩
    · obtain ⟨f, hf⟩ := hrefused.2 _ hg
      simp at hf
    · obtain ⟨x, hx, hends⟩ := hends
      exact absurd hends (hnone x hx)

end Life

namespace Session

variable {s : Session} {p : PoolId} {k : Ticket} {d : Instant} {runHook : Runner}

theorem run_present {α : Type} {find : Session → Option α} {a : α} (h : find s = some a) :
    (present find).run s = some (a, s) := by
  simp [present, h]

theorem run_modify (f : Session → Session) : (modify f : Act Unit).run s = some ((), f s) := rfl

theorem run_turn {α : Type} {f : Tenancy → Turn α} {a : α} {u : Tenancy}
    (hp : s.pools.get? p = some t) (hf : f t = { answer := a, tenancy := u }) :
    (turn p f).run s = some (a, { s with pools := s.pools.put p u }) := by
  unfold turn
  rw [StateT.run_bind, run_present hp]
  simp [hf]

theorem run_ticket (hp : s.pools.get? p = some t) (hk : t.tickets.get? id = some k) :
    (ticket (p, id)).run s = some (k, s) := by
  unfold ticket tenancy
  have hticket : (present fun _ => t.tickets.get? id).run s = some (k, s) := run_present hk
  rw [StateT.run_bind, run_present hp]
  exact hticket

theorem run_collect (hp : s.pools.get? p = some t)
    (hid : t.pool.requests.get? id = some { route := r }) :
    (turn p (Tenancy.collect id)).run s = some (.pending, { s with pools := s.pools.put p t }) :=
  run_turn hp (Tenancy.collect_pending hid)

theorem run_timeOutAt (hp : s.pools.get? p = some t) (id : RequestId) (limit : Instant) :
    ∃ u, (timeOutAt limit (p, id)).run s = some (.error (t.timeOut id).answer, u) := by
  have hturn : (turn p (Tenancy.timeOut id)).run { s with now := max s.now limit } =
      some ((t.timeOut id).answer, { s with
        now := max s.now limit
        pools := s.pools.put p (t.timeOut id).tenancy }) :=
    run_turn (s := { s with now := max s.now limit }) hp rfl
  unfold timeOutAt
  rw [StateT.run_bind, run_modify]
  simp [hturn]

theorem run_await (hp : s.pools.get? p = some t)
    (hid : t.pool.requests.get? id = some { route := r }) (limit : Instant) :
    ∃ u, (await runHook (p, id) (some limit)).run s =
      some (some (.error (t.timeOut id).answer), u) := by
  obtain ⟨u, hu⟩ := run_timeOutAt (s := { s with pools := s.pools.put p t })
    (Table.get?_put_self ..) id limit
  refine ⟨u, ?_⟩
  unfold await
  rw [StateT.run_bind, run_collect hp hid]
  simp [hu]

theorem run_getToDeadline (hp : s.pools.get? p = some t) (hk : t.tickets.get? id = some k)
    (hd : k.deadline = some d) (hid : t.pool.requests.get? id = some { route := r }) :
    ∃ u, (getToDeadline runHook (p, id)).run s =
      some (some (.error (t.timeOut id).answer), u) := by
  unfold getToDeadline
  rw [StateT.run_bind, run_ticket hp hk]
  simp only [Option.bind_eq_bind, Option.bind_some, hd]
  exact run_await hp hid d

theorem run_getWithin (hp : s.pools.get? p = some t) (hk : t.tickets.get? id = some k)
    (hd : k.deadline = some d) (hid : t.pool.requests.get? id = some { route := r })
    (timeout : Span) : ∃ u, (getWithin runHook timeout (p, id)).run s =
      some (some (.error (t.timeOut id).answer), u) := by
  obtain ⟨limit, hlimit⟩ : ∃ limit, sooner (timeout.after s.now) (some d) = some limit := by
    cases timeout.after s.now <;> exact ⟨_, rfl⟩
  unfold getWithin
  rw [StateT.run_bind, StateT.run_get, Option.pure_def, Option.bind_eq_bind, Option.bind_some,
    StateT.run_bind, run_ticket hp hk]
  simp only [Option.bind_eq_bind, Option.bind_some, hd, hlimit]
  exact run_await hp hid limit

theorem run_awaitAsync (hp : s.pools.get? p = some t) (hk : t.tickets.get? id = some k)
    (hd : k.deadline = some d) (hid : t.pool.requests.get? id = some { route := r }) :
    ∃ u, (awaitAsync runHook (p, id)).run s =
      some (some (.error (t.timeOut id).answer), u) := by
  let v : Session := { s with timer := s.timer.or (some s.now) }
  have hticket : (ticket (p, id)).run v = some (k, v) := run_ticket hp hk
  have hcollect : (turn p (Tenancy.collect id)).run v =
    some (.pending, { v with pools := s.pools.put p t }) := run_collect hp hid
  obtain ⟨u, hu⟩ := run_timeOutAt (s := { v with pools := s.pools.put p t })
    (Table.get?_put_self ..) id d
  unfold awaitAsync startTimer
  rw [StateT.run_bind, run_modify, Option.bind_eq_bind, Option.bind_some, StateT.run_bind, hticket]
  simp [hcollect, hd, hu]
  split <;> exact ⟨_, rfl⟩

end Session

namespace Life

/-- Without any deadline, all would go the same way.  Whoever looks last and finds the request waiting
is told of the timeout, and the pool knows nothing of the request any more.  But who waits past the
deadline is granted what comes, so deadlines are honoured along a run only if no step makes such a
grant, as when nothing is set free while somebody waits past the deadline. -/
theorem deadlines_honoured_iff (conf : Conf) (ops : List (Moment × Op)) (hclock : Clocked ops) :
    let l := (start conf).run ops
    l.untimed = (start conf).run (ops.map fun x => (x.1, x.2.untimed)) ∧
    (∀ id r, l.tenancy.pool.requests.get? id = some { route := r } →
      let f := Failure.internally .poolTimeout s!"timeout waiting for a connection to {r.text}"
      l.tenancy.finds id true = .failed f ∧
      (∀ m more, ((l.step m (.get id true)).run more).tenancy.pool.IsGone id) ∧
      ∀ (s : Session) p k d runHook timeout, s.pools.get? p = some l.tenancy →
        l.tenancy.tickets.get? id = some k → k.deadline = some d →
        (∃ u, (Session.getToDeadline runHook (p, id)).run s = some (some (.error f), u)) ∧
        (∃ u, (Session.getWithin runHook timeout (p, id)).run s = some (some (.error f), u)) ∧
        ∃ u, (Session.awaitAsync runHook (p, id)).run s = some (some (.error f), u)) ∧
    ((start conf).HonoursDeadlines ops ↔ (start conf).GrantsInTime ops) ∧
    ((start conf).NeverFreesLate ops → (start conf).HonoursDeadlines ops) := by
  intro l
  have h : l.tenancy.IsSound := run_sound conf ops
  have hiff := honoursDeadlines_iff conf hclock
  refine ⟨run_untimed _ ops, fun id r hid => ?_, hiff, fun hnever => hiff.2 hnever.grantsInTime⟩
  intro f
  refine ⟨Tenancy.finds_last hid, fun m more => ?_, ?_⟩
  · have hends : (Op.get id true).delivers l.tenancy = some id :=
      Op.delivers_get_iff.2 ⟨rfl, _, hid, .inl rfl⟩
    exact run_keeps (P := fun t => t.pool.IsGone id) (fun l hl m o => step_isGone hl m o)
      (step_sound h m _) (step_delivers h m _ hends).2 more
  · intro s p k d runHook timeout hp hk hd
    have hf : (l.tenancy.timeOut id).answer = f := Tenancy.timeOut_answer hid
    rw [← hf]
    exact ⟨Session.run_getToDeadline hp hk hd hid, Session.run_getWithin hp hk hd hid timeout,
      Session.run_awaitAsync hp hk hd hid⟩

theorem deadlines_honoured_iff_waiting :
    let late : Moment := { Sample.calm with now := 20 }
    let ops := [.lease Sample.route none, .lease Sample.route none,
      .lease Sample.route (some (.ms 10))].map (Prod.mk Sample.calm) ++
        [(late, Op.lease Sample.route none)]
    let l := (start Sample.conf).run ops
    (Clocked ops ∧ (start Sample.conf).NeverFreesLate ops ∧
        l.tenancy.pool.requests.get? ⟨3⟩ = some { route := Sample.route }) ∧
      l.tenancy.IsOverdue late.now ⟨3⟩ ∧ (start Sample.conf).HonoursDeadlines ops ∧
      (∃ f, l.tenancy.finds ⟨3⟩ true = .failed f ∧ f.kind = .poolTimeout) ∧
      ∀ m more, ((l.step m (.get ⟨3⟩ true)).run more).tenancy.pool.IsGone ⟨3⟩ := by
  intro late ops l
  have hclock : Clocked ops := by unfold Clocked; decide
  have hnever : (start Sample.conf).NeverFreesLate ops := by
    have hleases : ∀ o ∈ ops, o.2.isLease := by decide
    exact fun pre o _ hpre _ => Op.not_frees_of_isLease (hleases o (hpre.subset (by simp)))
  have hid : l.tenancy.pool.requests.get? ⟨3⟩ = some { route := Sample.route } := by decide
  have hticket : l.tenancy.tickets.get? ⟨3⟩ = some ⟨Sample.route, some 10⟩ := by decide
  have hover : l.tenancy.IsOverdue late.now ⟨3⟩ :=
    ⟨Pool.isDone_eq_false_iff.2 ⟨_, hid⟩, _, hticket, 10, rfl, by decide⟩
  obtain ⟨-, hlast, -, hhonours⟩ := deadlines_honoured_iff Sample.conf ops hclock
  obtain ⟨hfinds, hgone, -⟩ := hlast ⟨3⟩ Sample.route hid
  exact ⟨⟨hclock, hnever, hid⟩, hover, hhonours hnever, ⟨_, hfinds, rfl⟩, hgone⟩

/-- A connection comes back when the first of two who wait is past the deadline, and it is granted to
that one. -/
theorem granted_past_deadline :
    let pre := [.lease Sample.route none, .lease Sample.route none,
      .lease Sample.route (some (.ms 10)), .lease Sample.route none, .get ⟨1⟩ false,
      .connected (Sample.slot 1) ⟨1⟩].map (Prod.mk Sample.calm)
    let late : Moment := { Sample.calm with now := 20 }
    let o := Op.release ⟨1⟩ true none
    let l := (start Sample.conf).run pre
    let t := (l.step late o).tenancy
    Clocked (pre ++ [(late, o)]) ∧ l.tenancy.IsOverdue late.now ⟨3⟩ ∧
      (∃ g, l.tenancy.pool.Grants t.pool ⟨3⟩ Sample.route g ∧ t.finds ⟨3⟩ true = .granted g) ∧
      t.pool.requests.get? ⟨4⟩ = some { route := Sample.route } ∧
      ¬ (start Sample.conf).HonoursDeadlines (pre ++ [(late, o)]) := by
  intro pre late o l t
  let e : Idle := ⟨(Sample.slot 1).released 20 none, ⟨1⟩⟩
  have hticket : l.tenancy.tickets.get? ⟨3⟩ = some ⟨Sample.route, some 10⟩ := by decide
  have hpending : l.tenancy.pool.requests.get? ⟨3⟩ = some { route := Sample.route } := by decide
  have hgranted : t.pool.requests.get? ⟨3⟩ =
      some { route := Sample.route, outcome := .granted (.reuse e) } := by decide
  have hover : l.tenancy.IsOverdue late.now ⟨3⟩ :=
    ⟨Pool.isDone_eq_false_iff.2 ⟨_, hpending⟩, _, hticket, 10, rfl, by decide⟩
  have hgrants : l.tenancy.pool.Grants t.pool ⟨3⟩ Sample.route (.reuse e) :=
    ⟨hgranted, fun d => by simp [hpending]⟩
  exact ⟨by unfold Clocked; decide, hover, ⟨_, hgrants, Tenancy.finds_reuse true hgranted⟩,
    by decide, fun h => h.grantsInTime pre late o [] ⟨3⟩ _ _ rfl hover hgrants⟩

end Life

end ConnectionPool
