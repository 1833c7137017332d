import ConnectionPool.Proofs.Slack

namespace ConnectionPool

variable {held : Multiset Grant} {p q : Pool} {w u : Work} {e : Idle} {xs ys : List Idle} {g : Grant}
  {id : RequestId} {r s : Route} {m : Moment}

def Idle.kept (m : Moment) (keepalive : Option Nat) (v : Option Span) (e : Idle) : Idle where
  record := e.record.released m.now (v.or (keepalive.map Span.ms))
  conn := e.conn

namespace Pool

def stocked (d : Idle) (p : Pool) : Pool :=
  { p.updateLane d.record.route (Lane.put d) with idle := p.idle.add d.mark }

theorem lane_stocked (d : Idle) (p : Pool) (s : Route) : (p.stocked d).lane s =
    if s = d.record.route then (p.lane d.record.route).put d else p.lane s :=
  lane_of_edit rfl s

theorem available_freed (t : Record) (p : Pool) (s : Route) :
    ((p.freed t).lane s).available = (p.lane s).available := by
  rw [lane_freed]
  split
  · next hs => rw [hs]
  · rfl

theorem available_lease (t : Record) (p : Pool) (s : Route) :
    ((p.lease t).lane s).available = (p.lane s).available := by
  rw [lane_lease]
  split
  · next hs => rw [hs, Lane.lease]
  · rfl

theorem available_takeOut_stocked (d : Idle) (p : Pool) (s : Route) :
    (((p.stocked d).takeOut d).lane s).available = (p.lane s).available := by
  rw [lane_takeOut, lane_stocked, if_pos rfl]
  split
  · next hs => rw [hs, Lane.put, List.erase_cons_head]
  · next hs => rw [lane_stocked, if_neg hs]

theorem allocated_takeOut_stocked (d : Idle) (p : Pool) :
    ((p.stocked d).takeOut d).allocated ≤ p.allocated := by
  refine Nat.add_le_add_left ?_ p.leased
  change ((p.idle.drop d.mark.id ++ [d.mark]).erase d.mark).length ≤ p.idle.length
  rw [List.length_erase_of_mem (by simp), List.length_append]
  exact List.length_filter_le _ _

def isFull (p : Pool) (r : Route) : Bool :=
  p.limits.forRoute r ≤ (p.lane r).allocated || p.limits.total ≤ p.allocated

/-- From `p` to `q` a slot of the route came free, and at most one connection of it came back. -/
structure Yields (p q : Pool) (r : Route) : Prop where
  limits : q.limits = p.limits
  queue : ∀ s, (q.lane s).queue = (p.lane s).queue
  leased : ∀ s, (p.lane s).leased.length = (q.lane s).leased.length + if s = r then 1 else 0
  total : p.leased = q.leased + 1
  available : ∀ s, (q.lane s).available.length ≤
    (p.lane s).available.length + if s = r then 1 else 0
  idle : q.idle.length ≤ p.idle.length + 1

theorem yields_freed (h : Sound (g ::ₘ held) p) (hopen : p.isShut = false) :
    p.Yields (p.freed g.record) g.record.route where
  limits := rfl
  queue := queue_of_edit rfl rfl
  leased s := by
    rw [lane_freed]
    split
    · next hs =>
      have hmem := h.mem_leased hopen
      have hpos := List.length_pos_of_mem hmem
      have hlen := List.length_erase_of_mem hmem
      change _ = ((p.lane g.record.route).leased.erase g.id).length + 1
      rw [hs]
      omega
    · rfl
  total := by
    have hpos := h.leased_pos hopen
    change p.leased = p.leased - 1 + 1
    omega
  available s := by
    rw [lane_freed]
    split
    · next hs => exact hs ▸ Nat.le_add_right _ _
    · exact le_rfl
  idle := Nat.le_add_right _ _

theorem yields_stocked {d : Idle} (h : Sound (g ::ₘ held) p) (hopen : p.isShut = false)
    (hd : d.record.route = g.record.route) :
    p.Yields ((p.freed g.record).stocked d) g.record.route where
  limits := rfl
  queue s := by
    have hqueue := (yields_freed h hopen).queue s
    rw [lane_stocked]
    split
    · next hs => rwa [hs] at hqueue ⊢
    · exact hqueue
  leased s := by
    have hleased := (yields_freed h hopen).leased s
    rw [lane_stocked]
    split
    · next hs => rwa [hs] at hleased ⊢
    · exact hleased
  total := (yields_freed h hopen).total
  available s := by
    rw [lane_stocked, hd]
    split
    · next hs =>
      rw [Lane.put, lane_freed, if_pos rfl, hs]
      exact le_rfl
    · next hs =>
      rw [lane_freed, if_neg hs]
      exact le_rfl
  idle := by
    change ((p.idle.drop d.mark.id) ++ [d.mark]).length ≤ p.idle.length + 1
    rw [List.length_append]
    exact Nat.succ_le_succ (List.length_filter_le _ _)

theorem Settled.slack (hs : p.Settled) (hy : p.Yields q r) : q.Slack r where
  available s hne := by
    have hnone := (hs s (hy.queue s ▸ hne)).available
    have hle := hy.available s
    rw [hnone, List.length_nil, Nat.zero_add] at hle
    exact hle
  full s hne := by
    rw [hy.limits, ← hy.leased, ← hy.total]
    refine (hs s (hy.queue s ▸ hne)).full.imp id fun hall => ⟨?_, hall.2⟩
    have hle := hy.idle
    rwa [hall.1] at hle

end Pool

namespace Work

theorem receive_cases (m : Moment) (e : Idle) (reusable : Bool) (v : Option Span) (w : Work) :
    let q := w.pool.freed e.record
    let k := w.receive m e reusable v
    let keeps := reusable && !q.isFull e.record.route && m.isOpen e.conn
    keeps = true ∧ k.closing = w.closing ∧
        k.pool = q.stocked (e.kept m w.pool.policy.keepalive v) ∨
      keeps = false ∧ k.closing = w.closing ++ [e.conn] ∧ k.pool = q := by
  intro q k keeps
  let x : Work := { w with pool := q }
  let y := if reusable && !q.isFull e.record.route then x.report [.askedOpen e.conn] else x
  have hy : y.pool = q ∧ y.closing = w.closing := by
    unfold y
    split <;> exact ⟨rfl, rfl⟩
  have hk : k = if keeps then y.keep m e.record e.conn v
      else if q.isFull e.record.route then
        (y.note (.closeOverLimit e.record.id e.record.route)).close e.conn
      else (y.note (.closeReleased e.record.id e.record.route)).close e.conn := rfl
  clear_value y
  cases hkeeps : keeps with
  | true =>
    rw [hkeeps, if_pos rfl] at hk
    have hpool : k.pool = y.pool.stocked (e.kept m y.pool.policy.keepalive v) := hk ▸ rfl
    rw [hy.1] at hpool
    exact .inl ⟨rfl, (congrArg closing hk).trans hy.2, hpool⟩
  | false =>
    rw [hkeeps, if_neg Bool.false_ne_true] at hk
    have hclosed : k.closing = y.closing ++ [e.conn] ∧ k.pool = y.pool := by
      rw [hk]
      split <;> exact ⟨rfl, rfl⟩
    rw [hy.1, hy.2] at hclosed
    exact .inr ⟨rfl, hclosed⟩

end Work

namespace Sound

variable (h : Sound (.reuse e ::ₘ held) w.pool) (hopen : w.pool.isShut = false)
include h hopen

omit h hopen in
theorem isFull_freed (h : Sound (g ::ₘ held) p) (hopen : p.isShut = false)
    (hroute : (p.stats g.record.route).allocated - 1 < (p.stats g.record.route).max)
    (htotal : p.totalStats.allocated - 1 < p.totalStats.max) :
    (p.freed g.record).isFull g.record.route = false := by
  obtain ⟨hlane, hall⟩ := h.allocated_freed hopen
  have hone := hlane g.record.route
  rw [if_pos rfl] at hone
  change (p.lane g.record.route).allocated - 1 < p.limits.forRoute g.record.route at hroute
  change p.allocated - 1 < p.limits.total at htotal
  have hroute' : ((p.freed g.record).lane g.record.route).allocated <
      (p.freed g.record).limits.forRoute g.record.route := by
    change _ < p.limits.forRoute g.record.route
    omega
  have htotal' : (p.freed g.record).allocated < (p.freed g.record).limits.total := by
    change _ < p.limits.total
    omega
  simp only [Pool.isFull, Bool.or_eq_false_iff, decide_eq_false_iff_not, not_le]
  exact ⟨hroute', htotal'⟩

theorem receive (reusable : Bool) (v : Option Span) :
    Sound held (w.receive m e reusable v).pool :=
  Scene.IsSound.trades (m := m) (s := ⟨.reuse e ::ₘ held, 0, w⟩) h
    (Work.receive_trades hopen reusable v)

theorem receive_yields (reusable : Bool) (v : Option Span) :
    w.pool.Yields (w.receive m e reusable v).pool e.record.route := by
  rcases Work.receive_cases m e reusable v w with ⟨-, -, hpool⟩ | ⟨-, -, hpool⟩
  · rw [hpool]
    exact Pool.yields_stocked (g := .reuse e) h hopen rfl
  · rw [hpool]
    exact Pool.yields_freed (g := .reuse e) h hopen

end Sound

namespace Work

theorem dispatch_hands_over {ids : List RequestId} {es : List Idle} (h : Sound held w.pool)
    (hslack : w.pool.Slack r) (hq : (w.pool.lane r).queue = id :: ids)
    (hprovides : w.Provides m r (some g) es q) :
    let x := (w.dispatch m (some r)).change (Pool.prune r)
    x.pool.requests.get? id = some { route := r, outcome := .granted g } ∧
      x.closing = w.closing ++ es.map Idle.conn ∧
      ∀ s, (x.pool.lane s).available = (q.lane s).available := by
  intro x
  have hprune : (w.dispatch m (some r)).pool.Relanes x.pool := Pool.relanes_prune _ r
  obtain ⟨hanswer, hclosing, hpool⟩ := hprovides
  rcases serve_round (m := m) (c := 0) h hq with
    ⟨g', u, hfound, rfl, hgain, hid, -⟩ | ⟨u, hnone, -⟩
  · rw [hfound] at hanswer hclosing hpool
    obtain rfl : g' = g := Option.some.inj hanswer
    have hu : Sound (g' ::ₘ held) u.pool := Scene.IsSound.gains (s := ⟨held, 0, w⟩) h hgain
    have hsettled : (u.grant id g').pool.Settled :=
      grant_settled hu (hslack.settled (provide_found h hfound) (.inl rfl)) hid
    have hserve : w.serve m g'.record.route (w.pool.lane g'.record.route).queue.length =
        (u.grant id g').serve m g'.record.route ids.length := by
      rw [hq, List.length_cons, serve, hq]
      simp only [hfound]
    have hquiet := serve_quiet (m := m) (hsettled.quiet g'.record.route) ids.length
    rw [← hserve] at hquiet
    have hrests : (u.grant id g').Rests (w.dispatch m (some g'.record.route)) :=
      hquiet.trans (serveAll_rests_of_settled (hquiet.pool ▸ hsettled) (round_serve h))
    have hgrant := Work.grant_eq g' (hu.head_pending hid)
    rw [hprune.requests, hrests.pool, requests_grant hu hid, Table.get?_put_self]
    refine ⟨rfl, ?_, fun s => ?_⟩
    · rw [closing_change, hrests.closing, hgrant]
      exact hclosing
    rw [hprune.lane, hrests.pool, hgrant, ← hpool]
    exact (Pool.alike_withdraw id _).available s
  · rw [hnone] at hanswer
    cases hanswer

section Return

variable {ids : List RequestId} {v : Option Span} {reusable : Bool}
  (h : Sound (.reuse e ::ₘ held) w.pool) (hopen : w.pool.isShut = false) (hs : w.pool.Settled)
  (hq : (w.pool.lane e.record.route).queue = id :: ids)
  (hroom : (w.pool.freed e.record).isFull e.record.route = false)
include h hopen hs hq hroom

theorem takeBack_hands_over
    (hfit : (e.kept m w.pool.policy.keepalive v).isFit m w.pool.policy.validateAfter) :
    let x := (w.takeBack m e.record e.conn true v).2
    x.pool.requests.get? id = some {
        route := e.record.route
        outcome := .granted (.reuse (e.kept m w.pool.policy.keepalive v)) } ∧
      x.closing = w.closing ∧ ∀ s, (x.pool.lane s).available = (w.pool.lane s).available := by
  have hopened : m.isOpen e.conn := (Idle.isFit_iff.1 hfit).2.1
  rcases receive_cases m e true v w with ⟨-, hclosing, hpool⟩ | ⟨hno, -⟩
  · have hk := h.receive (m := m) hopen true v
    have hyields := h.receive_yields (m := m) hopen true v
    generalize hd : e.kept m w.pool.policy.keepalive v = d at hpool hfit
    have hdr : d.record.route = e.record.route := hd ▸ rfl
    have ha : ((w.receive m e true v).pool.lane e.record.route).available = [] ++ [d] := by
      rw [hpool, Pool.lane_stocked, if_pos hdr.symm, Lane.put, Pool.available_freed, hdr,
        (hs _ (by simp [hq])).available]
      rfl
    have hpolicy : (w.receive m e true v).pool.policy = w.pool.policy := hpool ▸ rfl
    have hprovides := provide_of_fit (m := m) hk ha (by simp) (hpolicy ▸ hfit)
    obtain ⟨hgrant, hclose, havailable⟩ := dispatch_hands_over hk (hs.slack hyields)
      ((hyields.queue _).trans hq) hprovides
    rw [takeBack_eq h hopen]
    refine ⟨hgrant, ?_, fun s => ?_⟩
    · rw [hclose, hclosing, List.map_nil, List.append_nil]
    · have hopened := (Pool.relanes_openLane (w.receive m e true v).pool e.record.route).takeOut d
      rw [havailable, Pool.available_lease]
      change (((Pool.openLane _ _).takeOut d).lane s).available = _
      rw [hopened.lane, hpool]
      exact (Pool.available_takeOut_stocked d _ s).trans (Pool.available_freed e.record w.pool s)
  · simp [hroom, hopened] at hno

omit h hopen hs hq hroom in
theorem nextRecord_receive (m : Moment) (e : Idle) (reusable : Bool) (v : Option Span) (w : Work)
    (r : Route) : (w.receive m e reusable v).pool.nextRecord m r = w.pool.nextRecord m r := by
  rcases receive_cases m e reusable v w with ⟨-, -, hpool⟩ | ⟨-, -, hpool⟩ <;> exact hpool ▸ rfl

omit h hopen hroom in
theorem receive_unfit (hunfit : ¬ (reusable ∧
      (e.kept m w.pool.policy.keepalive v).isFit m w.pool.policy.validateAfter)) :
    let k := w.receive m e reusable v
    let es := (k.pool.lane e.record.route).available
    (∀ d ∈ es, ¬ d.isFit m k.pool.policy.validateAfter) ∧
      k.closing ++ es.map Idle.conn = w.closing ++ [e.conn] ∧
      (k.pool.without es).allocated ≤ (w.pool.freed e.record).allocated ∧
      ∀ s, ((k.pool.without es).lane s).available = (w.pool.lane s).available := by
  intro k es
  have hnone : ((w.pool.freed e.record).lane e.record.route).available = [] := by
    rw [Pool.available_freed, (hs _ (by simp [hq])).available]
  rcases receive_cases m e reusable v w with ⟨hkeeps, hclosing, hpool⟩ | ⟨-, hclosing, hpool⟩
  · simp only [Bool.and_eq_true] at hkeeps
    generalize hd : e.kept m w.pool.policy.keepalive v = d at hpool hunfit
    have hdr : d.record.route = e.record.route := hd ▸ rfl
    have hconn : d.conn = e.conn := hd ▸ rfl
    have hes : es = [d] := by
      change (k.pool.lane e.record.route).available = [d]
      rw [hpool, Pool.lane_stocked, if_pos hdr.symm, Lane.put, hdr, hnone]
    have hpolicy : k.pool.policy = w.pool.policy := hpool ▸ rfl
    rw [hes, hpolicy, hclosing, hpool]
    refine ⟨?_, ?_, Pool.allocated_takeOut_stocked d _, fun s => ?_⟩
    · rw [List.forall_mem_singleton]
      exact fun hfit => hunfit ⟨hkeeps.1.1, hfit⟩
    · rw [List.map_singleton, hconn]
    · exact (Pool.available_takeOut_stocked d _ s).trans (Pool.available_freed e.record w.pool s)
  · have hes : es = [] := by
      change (k.pool.lane e.record.route).available = []
      rw [hpool, hnone]
    rw [hes, hclosing, hpool]
    exact ⟨by simp, List.append_nil _, le_rfl, Pool.available_freed e.record w.pool⟩

theorem takeBack_replaces (hunfit : ¬ (reusable ∧
      (e.kept m w.pool.policy.keepalive v).isFit m w.pool.policy.validateAfter)) :
    let x := (w.takeBack m e.record e.conn reusable v).2
    x.pool.requests.get? id = some {
        route := e.record.route
        outcome := .granted (.create (w.pool.nextRecord m e.record.route)) } ∧
      x.closing = w.closing ++ [e.conn] ∧
      ∀ s, (x.pool.lane s).available = (w.pool.lane s).available := by
  have hk := h.receive (m := m) hopen reusable v
  have hyields := h.receive_yields (m := m) hopen reusable v
  have hfreed : w.pool.Yields (w.pool.freed e.record) e.record.route :=
    Pool.yields_freed (g := .reuse e) h hopen
  have hrecord := nextRecord_receive m e reusable v w e.record.route
  obtain ⟨hunfit, hclosing, hallocated, havailable⟩ := receive_unfit hs hq hunfit
  rw [takeBack_eq h hopen]
  generalize w.receive m e reusable v = k at *
  -- with the slot freed there is room, and what comes back takes none of it
  simp only [Pool.isFull, Bool.or_eq_false_iff, decide_eq_false_iff_not, not_le] at hroom
  rw [hfreed.limits, ← hyields.limits] at hroom
  have hbelow : ¬ k.pool.AtLimit e.record.route := by
    have hslot := (hyields.leased e.record.route).symm.trans (hfreed.leased e.record.route)
    have hle : ((w.pool.freed e.record).lane e.record.route).leased.length ≤
      ((w.pool.freed e.record).lane e.record.route).allocated := Nat.le_add_right _ _
    rw [Pool.AtLimit]
    omega
  have hlt : k.pool.leased < k.pool.limits.total := by
    have hslot := hyields.total.symm.trans hfreed.total
    have hle : (w.pool.freed e.record).leased ≤ (w.pool.freed e.record).allocated :=
      Nat.le_add_right _ _
    omega
  obtain ⟨ds, -, hmarks, hprovides⟩ := provide_of_below (m := m) hk hunfit hbelow
  rw [if_pos hlt, hrecord] at hprovides
  have hopened := (Pool.relanes_openLane k.pool e.record.route).without
    (k.pool.lane e.record.route).available
  rw [hopened.allocated, Nat.sub_eq_zero_of_le (hallocated.trans_lt hroom.2), List.take_zero,
    List.map_eq_nil_iff] at hmarks
  rw [hmarks, List.append_nil] at hprovides
  obtain ⟨hgrant, hclose, hsame⟩ := dispatch_hands_over hk (hs.slack hyields)
    ((hyields.queue _).trans hq) hprovides
  refine ⟨hgrant, hclose.trans hclosing, fun s => ?_⟩
  rw [← havailable, ← hopened.lane]
  exact (hsame s).trans (Pool.available_lease _ _ s)

end Return

end Work

namespace Op

inductive HandsIn (x : EntryId) : Bool → Option Span → Op → Prop
  | release (reusable : Bool) (v : Option Span) : HandsIn x reusable v (.release x reusable v)
  | discard : HandsIn x false none (.discard x)
  | dropEntry : HandsIn x false none (.dropEntry x)

end Op

namespace Tenancy

variable {t : Tenancy} {o : Op} {x : EntryId} {reusable : Bool} {v : Option Span} {d : Entry}

theorem act_of_handsIn (ho : o.HandsIn x reusable v) (hd : t.entries.get? x = some d) :
    (t.act m o).tenancy = (t.release m x reusable v).tenancy ∧
      (t.act m o).work = (t.release m x reusable v).work := by
  cases ho with
  | release => exact ⟨rfl, rfl⟩
  | discard => exact ⟨rfl, rfl⟩
  | dropEntry =>
    have hhas : t.entries.has x := by
      rw [Table.has, hd]
      rfl
    obtain ⟨htenancy, hscene⟩ := dropEntry_of_has (m := m) (c := 0) hhas
    exact ⟨htenancy, congrArg Scene.work hscene⟩

theorem work_of_handsIn (ho : o.HandsIn x reusable v) (hd : t.entries.get? x = some d) :
    (t.act m o).work = (Work.takeBack m d.record d.conn reusable v { pool := t.pool }).2 := by
  rw [(act_of_handsIn ho hd).2, release_eq hd]
  rfl

theorem tenancy_of_handsIn (ho : o.HandsIn x reusable v) (hd : t.entries.get? x = some d) :
    (t.act m o).tenancy = { t with
      entries := t.entries.remove x
      pool := (Work.takeBack m d.record d.conn reusable v { pool := t.pool }).2.pool } := by
  rw [(act_of_handsIn ho hd).1, release_eq hd]
  rfl

section HandsIn

variable (h : t.IsSound) (hopen : t.pool.isShut = false) (hs : t.pool.Settled)
  (ho : o.HandsIn x reusable v) (hd : t.entries.get? x = some d)
include h hopen hs ho hd

theorem handsIn_grants_one {a b : RequestId} {y z : Grant}
    (ha : t.pool.Grants (t.act m o).tenancy.pool a r y)
    (hb : t.pool.Grants (t.act m o).tenancy.pool b s z) : a = b := by
  have hsound : Sound (.reuse ⟨d.record, d.conn⟩ ::ₘ _) t.pool := out_remove h hd ▸ h.sound
  have hpool : (t.act m o).tenancy.pool = _ := congrArg Work.pool (work_of_handsIn (m := m) ho hd)
  rw [Work.takeBack_eq (w := { pool := t.pool }) hsound hopen] at hpool
  have hreceived := hsound.receive (w := { pool := t.pool }) (m := m) hopen reusable v
  have hyields := hsound.receive_yields (w := { pool := t.pool }) (m := m) hopen reusable v
  have hsame := Work.requests_receive (w := { pool := t.pool }) (m := m) (e := ⟨d.record, d.conn⟩)
    reusable v
  have honce := Work.dispatch_once (m := m) hreceived (hs.slack hyields)
  have hrequests := (congrArg Pool.requests hpool).trans (Pool.relanes_prune _ _).requests
  exact honce.eq_of_grants hreceived
    ⟨hrequests ▸ ha.granted, fun g hg => ha.isNew g (hsame ▸ hg)⟩
    ⟨hrequests ▸ hb.granted, fun g hg => hb.isNew g (hsame ▸ hg)⟩

variable {id : RequestId}
  (hid : (t.pool.lane d.record.route).queue.head? = some id)
  (hroute : (t.pool.stats d.record.route).allocated - 1 < (t.pool.stats d.record.route).max)
  (htotal : t.pool.totalStats.allocated - 1 < t.pool.totalStats.max)
include hid hroute htotal

theorem handsIn_hands_over :
    let q := (t.act m o).tenancy.pool
    let e : Idle := { record := d.record, conn := d.conn }
    let k : Idle := e.kept m t.pool.policy.keepalive v
    let goesOn := reusable ∧ k.isFit m t.pool.policy.validateAfter
    (goesOn → t.pool.Grants q id d.record.route (.reuse k) ∧ (t.act m o).closed = []) ∧
      (¬ goesOn → t.pool.Grants q id d.record.route (.create (t.pool.nextRecord m d.record.route)) ∧
        (t.act m o).closed = [d.conn]) ∧
      ∀ s, (q.lane s).available = (t.pool.lane s).available := by
  intro q e k goesOn
  have hsound : Sound (.reuse e ::ₘ _) t.pool := out_remove h hd ▸ h.sound
  have hwork := work_of_handsIn (m := m) ho hd
  have hpool : q = _ := congrArg Work.pool hwork
  have hclosed : (t.act m o).closed = _ := congrArg Work.closing hwork
  have hpending := hsound.head_pending hid
  have hnew (g : Grant) : t.pool.requests.get? id ≠
      some { route := d.record.route, outcome := .granted g } := by simp [hpending]
  obtain ⟨ids, hq⟩ := List.head?_eq_some_iff.1 hid
  have hroom := hsound.isFull_freed hopen hroute htotal
  by_cases hgoes : goesOn
  · obtain ⟨hreusable, hfit⟩ := hgoes
    subst hreusable
    obtain ⟨hgrant, hclosing, hsame⟩ :=
      Work.takeBack_hands_over (w := { pool := t.pool }) (m := m) hsound hopen hs hq hroom hfit
    rw [hclosed, hpool]
    exact ⟨fun _ => ⟨⟨hgrant, hnew⟩, hclosing⟩, fun hnot => absurd ⟨rfl, hfit⟩ hnot, hsame⟩
  · obtain ⟨hgrant, hclosing, hsame⟩ :=
      Work.takeBack_replaces (w := { pool := t.pool }) (m := m) hsound hopen hs hq hroom hgoes
    rw [hclosed, hpool]
    exact ⟨fun hyes => absurd hyes hgoes, fun _ => ⟨⟨hgrant, hnew⟩, hclosing⟩, hsame⟩

end HandsIn

end Tenancy

namespace Life

variable {conf : Conf} {ops : List (Moment × Op)} {o : Op} {x : EntryId} {reusable : Bool}
  {v : Option Span} {d : Entry}

/-- By a return one request at most is granted something.  If without the connection that comes back its
route and the pool are below their limits, it is the first one that waits for the route: it gets the
connection, if that may be reused and is fit as it is kept, and else a new one in its place.  No other
connection is closed. -/
theorem return_serves_one (m : Moment) (ho : o.HandsIn x reusable v)
    (hopen : ((start conf).run ops).tenancy.pool.isShut = false)
    (hd : ((start conf).run ops).tenancy.entries.get? x = some d) :
    let l := (start conf).run ops
    let k := l.step m o
    let p := l.tenancy.pool
    let q := k.tenancy.pool
    let r := d.record.route
    (∀ a b s t y z, p.Grants q a s y → p.Grants q b t z → a = b) ∧
      ∀ id, (p.lane r).queue.head? = some id → (p.stats r).allocated - 1 < (p.stats r).max →
        p.totalStats.allocated - 1 < p.totalStats.max →
        let e : Idle := {
          record := d.record.released m.now (v.or (p.policy.keepalive.map Span.ms))
          conn := d.conn }
        let goesOn := reusable = true ∧ m.isOpen d.conn = true ∧
          (∀ t ∈ e.record.expiry, m.now < t) ∧
          (e.isDue m.now p.policy.validateAfter → m.isStale.any (· d.conn) = false)
        (goesOn → p.Grants q id r (.reuse e) ∧ k.closed = l.closed) ∧
          (¬ goesOn → p.Grants q id r (.create (p.nextRecord m r)) ∧
            k.closed = l.closed ++ [d.conn]) ∧
          ∀ s, (q.lane s).available = (p.lane s).available := by
  intro l k p q r
  have h : l.tenancy.IsSound := run_sound conf ops
  have hs : p.Settled := run_settled conf ops
  have hp : o.isPossible l.tenancy l.made := by cases ho <;> rfl
  have htenancy : k.tenancy = (l.tenancy.act m o).tenancy := step_tenancy hp
  have hclosed : k.closed = l.closed ++ (l.tenancy.act m o).closed := by
    change (l.step m o).closed = _
    rw [step, if_pos hp]
  have hq : q = (l.tenancy.act m o).tenancy.pool := congrArg Tenancy.pool htenancy
  rw [hq, hclosed]
  refine ⟨fun a b s t y z ha hb => Tenancy.handsIn_grants_one h hopen hs ho hd ha hb,
    fun id hid hroute htotal => ?_⟩
  obtain ⟨hreuse, hcreate, hsame⟩ :=
    Tenancy.handsIn_hands_over (m := m) h hopen hs ho hd hid hroute htotal
  intro e goesOn
  have hiff : goesOn ↔ reusable = true ∧ e.isFit m p.policy.validateAfter := by
    rw [Idle.isFit_iff]
    exact and_congr_right fun _ => and_left_comm
  refine ⟨fun hyes => ?_, fun hno => ?_, hsame⟩
  · obtain ⟨hgrants, hnone⟩ := hreuse (hiff.1 hyes)
    exact ⟨hgrants, by rw [hnone, List.append_nil]⟩
  · obtain ⟨hgrants, hone⟩ := hcreate fun hyes => hno (hiff.2 hyes)
    exact ⟨hgrants, by rw [hone]⟩

theorem return_serves_one_passed_on :
    let ops := [.lease Sample.route none, .lease Sample.route none, .lease Sample.route none,
      .get ⟨1⟩ false, .get ⟨2⟩ false, .connected (Sample.slot 1) ⟨1⟩,
      .connected (Sample.slot 2) ⟨2⟩].map (Prod.mk Sample.calm)
    let l := (start Sample.conf).run ops
    let k := l.step Sample.calm (.release ⟨1⟩ true none)
    let d : Entry := { record := Sample.slot 1, conn := ⟨1⟩, reused := false }
    (l.tenancy.pool.isShut = false ∧ l.tenancy.entries.get? ⟨1⟩ = some d) ∧
      l.tenancy.pool.Grants k.tenancy.pool ⟨3⟩ Sample.route
        (.reuse { record := Sample.slot 1, conn := ⟨1⟩ }) ∧ k.closed = [] := by
  intro ops l k d
  have hopen : l.tenancy.pool.isShut = false := by decide
  have hd : l.tenancy.entries.get? ⟨1⟩ = some d := by decide
  obtain ⟨-, hfirst⟩ := return_serves_one Sample.calm (.release true none) hopen hd
  obtain ⟨hreuse, -⟩ := hfirst ⟨3⟩ (by decide) (by decide) (by decide)
  exact ⟨⟨hopen, hd⟩, hreuse ⟨rfl, rfl, by decide, by decide⟩⟩

end Life

end ConnectionPool
