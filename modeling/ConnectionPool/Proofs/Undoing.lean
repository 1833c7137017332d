import ConnectionPool.Proofs.Age
import ConnectionPool.Proofs.Exhaustion
import ConnectionPool.Proofs.Overfill
import ConnectionPool.Proofs.Unseen

namespace ConnectionPool

variable {held : Multiset Grant} {p : Pool} {w : Work} {e : Idle} {rest : List Idle} {l : Lane}
  {r : Route} {m : Moment}

namespace Lane

theorem unlease_lease {id : EntryId} (h : id ∉ l.leased) :
    { l.lease id with leased := (l.lease id).leased.erase id } = l := by
  rw [lease, List.insert_of_not_mem h, List.erase_cons_head]

theorem reinsert_newest (h : (e :: rest).Pairwise (·.record.updated ≥ ·.record.updated)) :
    Lane.reinsert e { l with available := rest } = { l with available := e :: rest } := by
  have hsorted := (List.pairwise_cons.1 h).1
  have hnone : rest.takeWhile (e.record.updated < ·.record.updated) = [] ∧
      rest.dropWhile (e.record.updated < ·.record.updated) = rest := by
    cases rest with
    | nil => exact ⟨rfl, rfl⟩
    | cons d rest =>
      have hle : ¬ e.record.updated < d.record.updated := not_lt.2 (hsorted d List.mem_cons_self)
      simp [hle]
  rw [reinsert, hnone.1, hnone.2]
  rfl

end Lane

namespace Pool

/-- From `p` to `q` a request was made and is gone.  All is as it was, but that the mark of `e` stands
behind all others of its time. -/
structure Reverts (e : Idle) (p q : Pool) : Prop where
  lane : ∀ s, q.lane s = p.lane s
  idle : ∃ xs ys, p.idle.erase e.mark = xs ++ ys ∧ q.idle = xs ++ e.mark :: ys ∧
    (∀ k ∈ xs, k.released ≤ e.record.updated) ∧ ∀ k ∈ ys, e.record.updated < k.released
  leased : q.leased = p.leased
  requests : q.requests = p.requests
  waiting : q.waiting = p.waiting
  limits : q.limits = p.limits
  policy : q.policy = p.policy
  isShut : q.isShut = p.isShut
  lastEntry : q.lastEntry = p.lastEntry
  lastRequest : q.lastRequest = p.lastRequest + 1

theorem Reverts.settled {q : Pool} (h : p.Reverts e q) (hs : p.Settled) (he : e.mark ∈ p.idle) :
    q.Settled := by
  intro s hne
  rw [h.lane] at hne
  obtain ⟨hnone, hfull⟩ := hs s hne
  -- `e` could have been evicted, so who waits does so at the limit of the route
  refine ⟨by rw [h.lane, hnone], .inl ?_⟩
  rw [h.lane, h.limits]
  exact hfull.resolve_right fun hall => List.ne_nil_of_mem he hall.1

theorem lane_freed_lease {t : Record} (h : t.id ∉ (p.lane t.route).leased) (s : Route) :
    ((p.lease t).freed t).lane s = p.lane s := by
  rw [lane_freed, lane_lease, if_pos rfl, lane_lease]
  split
  · next hs => rw [hs, Lane.unlease_lease h]
  · rfl

end Pool

namespace Work

section Head

variable (h : Sound held w.pool) (ha : (w.pool.lane e.record.route).available = e :: rest)
include h ha

theorem provide_of_head (hfit : e.isFit m w.pool.policy.validateAfter) :
    w.provide m e.record.route = (some (.reuse e),
      (((w.report (e.inspection m w.pool.policy.validateAfter)).note
        (.reuse e.record.id e.record.route)).change (Pool.takeOut e)).change (Pool.lease e.record)) := by
  have hlane : w.pool.lane e.record.route ≠ {} := by
    intro hl
    simp [hl] at ha
  rw [provide, change, Pool.openLane_of_lane hlane, seek, ha, reuse_cons h rfl ha, if_pos hfit]

theorem putBack_reverts {v : Work} (ho : w.pool.InOrder) (hopen : w.pool.isShut = false)
    (hv : v.pool = (w.numbered.pool.takeOut e).lease e.record) :
    ∃ q, v.putBack e = { v with pool := q } ∧ Sound held q ∧ w.pool.Reverts e q := by
  have hn : Sound held w.numbered.pool := numbered_sound h
  have he : e ∈ (w.numbered.pool.lane e.record.route).available := by
    change e ∈ (w.pool.lane e.record.route).available
    rw [ha]
    exact List.mem_cons_self
  have hout := hn.takeOut he
  have hid := hn.not_mem_takeOut he
  have hnot : e.record.id ∉ ((w.numbered.pool.takeOut e).lane e.record.route).leased :=
    hout.not_mem_leased hid
  have hsound : Sound (.reuse e ::ₘ held) v.pool := by
    rw [hv]
    exact hout.lease (g := .reuse e) hopen hid (hn.issued (.reuse e) (Multiset.mem_add.2
      (.inr (Multiset.mem_map_of_mem _ (hn.mem_stock.2 he)))))
  have hopen' : v.pool.isShut = false := hv ▸ hopen
  have hback := hsound.putBack_eq hopen'
  refine ⟨_, hback, by simpa only [hback] using hsound.restore hopen', ?_⟩
  constructor
  case lane =>
    -- what goes back was the newest of its lane, so it comes to stand where it stood
    intro s
    have hlane := hsound.lane_putBack hopen' s
    simp only [hback] at hlane
    rw [hlane, hv, Pool.lane_freed_lease hnot, Pool.lane_lease,
      Pool.lane_takeOut, Pool.lane_takeOut, if_pos rfl]
    change (if s = e.record.route then Lane.reinsert e { w.pool.lane e.record.route with
      available := (w.pool.lane e.record.route).available.erase e } else _) = _
    split
    · next hs =>
      have hsorted := ho.lane_sorted e.record.route
      rw [ha] at hsorted
      rw [ha, List.erase_cons_head, Lane.reinsert_newest hsorted, hs, ← ha]
    · rfl
  case idle =>
    have hids := hout.idle_ids
    have hmark : e.mark.id ∉ (w.numbered.pool.takeOut e).idle.map Mark.id := hout.not_mem_idle hid
    have hsplit := Recency.split (ho.takeOut h he).sorted e.record.updated
    refine ⟨_, _, hsplit.symm, ?_, fun k hk => ?_, fun k hk => ?_⟩
    · rw [hv]
      exact Recency.reinsert_eq hids hmark
    · exact of_decide_eq_true (List.mem_filter.1 hk).2
    · exact of_decide_eq_true (List.mem_filter.1 hk).2
  all_goals
    dsimp only [Pool.updateLane, Pool.setLane, Pool.freed]
    rw [hv]
    rfl

def granting (id : RequestId) (e : Idle) (w : Work) : Pool :=
  { (w.numbered.pool.takeOut e).lease e.record with
    requests := w.pool.requests.put id { route := e.record.route, outcome := .granted (.reuse e) } }

theorem lease_of_head (hopen : w.pool.isShut = false) (hq : (w.pool.lane e.record.route).queue = [])
    (hfit : e.isFit m w.pool.policy.validateAfter) : ∃ u,
    w.lease m e.record.route = (.ok w.pool.nextRequest, u) ∧
      u.pool = w.granting w.pool.nextRequest e ∧ u.closing = w.closing ∧
      u.deeds = w.deeds ++ [.noted (.reuse e.record.id e.record.route)] := by
  have hprovide := provide_of_head (w := w.numbered) (numbered_sound h) ha hfit
  refine ⟨_, lease_of_some hopen hq hprovide rfl, rfl, rfl, ?_⟩
  have hplain (v : Option Nat) : (e.inspection m v).filter Report.isDeed = [] := by
    refine List.filter_eq_nil_iff.2 fun x hx => ?_
    have hx := isPlain_inspection e _ x hx
    simp [Report.isDeed, Report.handed?_of_isPlain hx, Report.evicted?_of_isPlain hx]
  change ((w.report _).note _).deeds = _
  rw [deeds_note, deeds_report, hplain, List.append_nil]
  rfl

theorem forget_reverts {u : Work} {id : RequestId} (ho : w.pool.InOrder) (hs : w.pool.Settled)
    (hopen : w.pool.isShut = false) (hid : w.pool.requests.get? id = none)
    (hu : u.pool = w.granting id e) (m : Moment) : w.pool.Reverts e (u.forget m id).pool ∧
      (u.forget m id).closing = u.closing ∧ (u.forget m id).deeds = u.deeds := by
  have hgranted : u.pool.requests.get? id =
      some { route := e.record.route, outcome := .granted (.reuse e) } := by
    rw [hu]
    exact Table.get?_put_self _ _ _
  have hback : (u.uncollected id e).pool = (w.numbered.pool.takeOut e).lease e.record := by
    have hrequests : (w.granting id e).requests.remove id = w.pool.requests :=
      (Table.remove_put _ _ _).trans (Table.remove_of_get?_eq_none hid)
    change { u.pool with requests := u.pool.requests.remove id } = _
    rw [hu, hrequests]
    rfl
  obtain ⟨q, hput, hsound, hreverts⟩ := putBack_reverts h ha ho hopen hback
  have hmark : e.mark ∈ w.pool.idle :=
    h.mark_mem ((Pool.mem_stock h.tidy).2 ⟨_, ha ▸ List.mem_cons_self⟩)
  have hrests := dispatch_rests (w := { u.uncollected id e with pool := q }) hsound
    (hreverts.settled hs hmark) m (some e.record.route)
  rw [forget_reuse hgranted, hput, hrests.pool, hrests.closing, hrests.deeds]
  exact ⟨hreverts, rfl, (rests_note (w := u.cleared id) rfl).deeds⟩

end Head

end Work

namespace Life

variable {conf : Conf} {ops : List (Moment × Op)}

/-- A connection that is granted at once and goes back with the request is where it was before.  Nothing
is closed, nobody else is granted anything, and all lanes, all queues and all limits are the same.  In
the order of release the connection may have passed others of the same time. -/
theorem unused_grant_reverts (hclock : Clocked ops) (timeout : Option Span) {m : Moment}
    (hq : (((start conf).run ops).tenancy.pool.lane r).queue = [])
    (he : (((start conf).run ops).tenancy.pool.lane r).available.head? = some e)
    (hfit : e.isFit m ((start conf).run ops).tenancy.pool.policy.validateAfter) (n : Moment) :
    let l := (start conf).run ops
    let p := l.tenancy.pool
    let j := l.step m (.lease r timeout)
    let k := j.step n (.dropRequest p.nextRequest)
    j.tenancy.pool.requests.get? p.nextRequest =
        some { route := r, outcome := .granted (.reuse e) } ∧
      p.Reverts e k.tenancy.pool ∧ k.tenancy = { l.tenancy with pool := k.tenancy.pool } ∧
      k.made = l.made ∧ k.closed = l.closed ∧
      k.reports.filter Report.isDeed =
        l.reports.filter Report.isDeed ++ [.noted (.reuse e.record.id r)] := by
  intro l p j k
  have h : l.tenancy.IsSound := run_sound conf ops
  obtain ⟨rest, ha⟩ := List.head?_eq_some_iff.1 he
  obtain rfl : e.record.route = r := h.sound.home r e (ha ▸ List.mem_cons_self)
  have hopen : p.isShut = false := by
    refine h.sound.isShut_eq_false (r := e.record.route) fun hl => ?_
    exact absurd (ha.symm.trans (congrArg Lane.available hl)) (List.cons_ne_nil _ _)
  have hnew : p.lastRequest < p.nextRequest.number := Nat.lt_succ_self _
  have hrequest : p.requests.get? p.nextRequest = none := by
    by_contra hne
    obtain ⟨s, hs⟩ := Option.ne_none_iff_exists'.1 hne
    exact absurd (Tenancy.number_le h hs) hnew.not_ge
  obtain ⟨u, hlease, hpool, hclosing, hdeeds⟩ :=
    Work.lease_of_head (w := { pool := p }) h.sound ha hopen hq hfit
  obtain ⟨hreverts, hclosing', hdeeds'⟩ := Work.forget_reverts (u := { pool := u.pool }) h.sound ha
    (run_inOrder conf hclock).1 (run_settled conf ops) hopen hrequest hpool n
  let ticket : Ticket := { route := e.record.route, deadline := timeout.bind (Span.after m.now) }
  have htickets : (l.tenancy.tickets.put p.nextRequest ticket).remove p.nextRequest =
      l.tenancy.tickets := by
    rw [Table.remove_put, Table.remove_of_get?_eq_none (run_tickets conf ops hnew)]
  have hj : j = {
      tenancy := { l.tenancy with
        pool := u.pool
        tickets := l.tenancy.tickets.put p.nextRequest ticket }
      made := l.made
      closed := l.closed ++ u.closing
      reports := l.reports ++ u.reports } := by
    have hturn := Tenancy.lease_of_open (t := l.tenancy) (m := m) (r := e.record.route) hopen timeout
    rw [hlease] at hturn
    change l.step m (.lease e.record.route timeout) = _
    rw [step_of_isPossible rfl, Tenancy.act, hturn]
    rfl
  have hk : k = {
      tenancy := { l.tenancy with pool := (Work.forget n p.nextRequest { pool := u.pool }).pool }
      made := l.made
      closed := l.closed ++ u.closing ++ (Work.forget n p.nextRequest { pool := u.pool }).closing
      reports := l.reports ++ u.reports ++
        (Work.forget n p.nextRequest { pool := u.pool }).reports } := by
    change j.step n (.dropRequest p.nextRequest) = _
    rw [hj, step_of_isPossible rfl, Tenancy.act, Tenancy.dropRequest]
    dsimp only
    rw [htickets]
    rfl
  rw [hk]
  refine ⟨?_, hreverts, rfl, rfl, ?_, ?_⟩
  · rw [hj]
    dsimp only
    rw [hpool]
    exact Table.get?_put_self _ _ _
  · dsimp only
    rw [hclosing', hclosing, List.append_nil, List.append_nil]
  · have hnone : (Work.forget n p.nextRequest { pool := u.pool }).reports.filter Report.isDeed = [] :=
      hdeeds'
    have hone : u.reports.filter Report.isDeed = [.noted (.reuse e.record.id e.record.route)] := hdeeds
    rw [List.filter_append, List.filter_append, hnone, hone, List.append_nil]

theorem unused_grant_reverts_behind :
    let on (n : Nat) : Moment := { Sample.calm with now := n }
    let ops := [.lease Sample.route none, .lease Sample.otherRoute none, .get ⟨1⟩ false, .get ⟨2⟩ false,
      .connected (Sample.slot 1) ⟨1⟩, .connected (.fresh ⟨2⟩ Sample.otherRoute 0 none) ⟨2⟩,
      .release ⟨1⟩ true none, .release ⟨2⟩ true none].map (Prod.mk Sample.calm)
    let e : Idle := { record := Sample.slot 1, conn := ⟨1⟩ }
    let l := (start Sample.conf).run ops
    let k := (l.step (on 5) (.lease Sample.route none)).step (on 9) (.dropRequest ⟨3⟩)
    (Clocked ops ∧ (l.tenancy.pool.lane Sample.route).queue = [] ∧
        (l.tenancy.pool.lane Sample.route).available.head? = some e ∧
        e.isFit (on 5) l.tenancy.pool.policy.validateAfter) ∧
      (l.tenancy.pool.Reverts e k.tenancy.pool ∧ k.closed = l.closed) ∧
      l.tenancy.pool.idle.map Mark.id = [⟨1⟩, ⟨2⟩] ∧
      k.tenancy.pool.idle.map Mark.id = [⟨2⟩, ⟨1⟩] := by
  intro on ops e
  have hclock : Clocked ops := by unfold Clocked; decide
  have hq : (((start Sample.conf).run ops).tenancy.pool.lane Sample.route).queue = [] := by decide
  have he : (((start Sample.conf).run ops).tenancy.pool.lane Sample.route).available.head? =
      some e := by decide
  have hfit : e.isFit (on 5) ((start Sample.conf).run ops).tenancy.pool.policy.validateAfter := by
    decide
  have hnext : ((start Sample.conf).run ops).tenancy.pool.nextRequest = ⟨3⟩ := by decide
  have hidle : ((start Sample.conf).run ops).tenancy.pool.idle =
      [e.mark, ⟨⟨2⟩, Sample.otherRoute, 0⟩] := by decide
  obtain ⟨-, hreverts, -, -, hclosed, -⟩ := unused_grant_reverts hclock none hq he hfit (on 9)
  rw [hnext] at hreverts hclosed
  generalize (start Sample.conf).run ops = l at *
  obtain ⟨xs, ys, hsplit, hback, -, hlater⟩ := hreverts.idle
  rw [hidle, List.erase_cons_head] at hsplit
  have hys : ys = [] := by
    refine List.eq_nil_iff_forall_not_mem.2 fun k hk => ?_
    obtain rfl := List.mem_singleton.1 (hsplit ▸ List.mem_append_right xs hk)
    exact absurd (hlater _ hk) (by decide)
  rw [hys, List.append_nil] at hsplit
  refine ⟨⟨hclock, hq, he, hfit⟩, ⟨hreverts, hclosed⟩, ?_, ?_⟩
  · rw [hidle]
    rfl
  · rw [hback, ← hsplit, hys]
    rfl

end Life

end ConnectionPool
