import ConnectionPool.Proofs.Exhaustion
import ConnectionPool.Proofs.Housekeeping
import ConnectionPool.Proofs.Provision

namespace ConnectionPool

variable {held : Multiset Grant} {p q : Pool} {w u v : Work} {e : Idle} {es ds : List Idle}
  {r s : Route} {m : Moment}

namespace Pool

theorem lane_without_of_ne (hes : ∀ e ∈ es, e.record.route ≠ s) : (p.without es).lane s = p.lane s := by
  have hown : es.filter (·.record.route = s) = [] :=
    List.filter_eq_nil_iff.2 fun e he => by simpa using hes e he
  rw [lane_without, hown]
  rfl

theorem lastRequest_without (p : Pool) (es : List Idle) :
    (p.without es).lastRequest = p.lastRequest := by
  induction es generalizing p with
  | nil => rfl
  | cons e es ih => exact ih _

theorem Stocks.append (h : Sound held p) (hes : p.Stocks es) (hds : (p.without es).Stocks ds) :
    p.Stocks (es ++ ds) := by
  induction es generalizing p with
  | nil => exact hds
  | cons e es ih =>
    have he := hes.available e List.mem_cons_self
    exact .cons he h (ih (h.takeOut he) hes.tail hds)

theorem stocks_of_subperm (h : Sound held p) (hes : es.Subperm (p.lane r).available) :
    p.Stocks es where
  nodup := by
    obtain ⟨ds, hperm, hsub⟩ := hes
    exact hperm.nodup_iff.1 ((h.available_ids r).of_map.sublist hsub)
  available e he := by
    have hmem := hes.subset he
    rwa [h.home r e hmem]

theorem Stocks.mem_of_mark (h : Sound held p) (hes : p.Stocks es) (he : e ∈ (p.lane r).available)
    (hmark : e.mark ∈ es.map Idle.mark) : e ∈ es := by
  obtain ⟨d, hd, heq⟩ := List.mem_map.1 hmark
  have hroute : d.record.route = r := (congrArg Mark.route heq).trans (h.home r e he)
  have hmem := hes.available d hd
  rw [hroute] at hmem
  exact h.mark_inj he hmem heq ▸ hd

/-- From `p` to `q` these available connections are gone.  The others stand in the same order, and
nothing else is different. -/
structure Loses (es : List Idle) (p q : Pool) : Prop where
  stocks : p.Stocks es
  available : ∀ r, (q.lane r).available = (p.lane r).available.filter (· ∉ es)
  idle : q.idle = p.idle.filter (· ∉ es.map Idle.mark)
  slots : p.SameSlots q
  queues : p.SameQueues q
  limits : q.limits = p.limits
  policy : q.policy = p.policy
  isShut : q.isShut = p.isShut
  lastEntry : q.lastEntry = p.lastEntry
  lastRequest : q.lastRequest = p.lastRequest

theorem loses_without (h : Sound held p) (hes : p.Stocks es) : p.Loses es (p.without es) where
  stocks := hes
  available r := by
    have hn : (p.lane r).available.Nodup := (h.available_ids r).of_map
    rw [lane_without]
    refine hn.sdiff_eq_filter.trans (List.filter_congr fun e he => ?_)
    simp [h.home r e he]
  idle := by
    rw [idle_without, h.idle_ids.of_map.sdiff_eq_filter]
  slots := sameSlots_without p es
  queues := sameQueues_without p es
  limits := (draws_without p es).limits
  policy := (draws_without p es).policy
  isShut := (draws_without p es).isShut
  lastEntry := lastEntry_without p es
  lastRequest := lastRequest_without p es

theorem Loses.relane {u : Pool} (h : p.Loses es q) (hu : q.Relanes u) : p.Loses es u where
  stocks := h.stocks
  available r := by rw [hu.lane, h.available]
  idle := hu.idle.trans h.idle
  slots := h.slots.trans hu.sameSlots
  queues := h.queues.trans hu.sameQueues
  limits := hu.draws.limits.trans h.limits
  policy := hu.draws.policy.trans h.policy
  isShut := hu.draws.isShut.trans h.isShut
  lastEntry := hu.lastEntry.trans h.lastEntry
  lastRequest := hu.lastRequest.trans h.lastRequest

end Pool

namespace Work

structure Retires (w : Work) (es : List Idle) (u : Work) : Prop where
  pool : (w.pool.without es).Relanes u.pool
  closing : u.closing = w.closing ++ es.map Idle.conn
  stocks : w.pool.Stocks es
  deeds : u.deeds = w.deeds

namespace Retires

theorem refl (w : Work) : w.Retires [] w :=
  ⟨.refl w.pool, (List.append_nil _).symm, ⟨List.nodup_nil, by simp⟩, rfl⟩

theorem takeOut (he : e ∈ (w.pool.lane e.record.route).available) :
    w.Retires [e] ((w.change (Pool.takeOut e)).close e.conn) :=
  ⟨.refl _, rfl, ⟨List.nodup_singleton e, by simpa using he⟩, rfl⟩

theorem trans (h : Sound held w.pool) (hu : w.Retires es u) (hv : u.Retires ds v) :
    w.Retires (es ++ ds) v where
  pool := by
    rw [Pool.without_append]
    exact (hu.pool.without ds).trans hv.pool
  closing := by rw [hv.closing, hu.closing, List.map_append, List.append_assoc]
  stocks := hu.stocks.append h (hv.stocks.of_lane fun r => (hu.pool.lane r).symm)
  deeds := hv.deeds.trans hu.deeds

theorem rests (hu : w.Retires es u) (hv : u.Rests v) : w.Retires es v :=
  ⟨hv.pool ▸ hu.pool, hv.closing.trans hu.closing, hu.stocks, hv.deeds.trans hu.deeds⟩

theorem relane {f : Pool → Pool} (hu : w.Retires es u) (hf : u.pool.Relanes (f u.pool)) :
    w.Retires es (u.change f) :=
  ⟨hu.pool.trans hf, hu.closing, hu.stocks, hu.deeds⟩

theorem pull (he : e ∈ (w.pool.lane e.record.route).available) :
    w.Retires [e] ((w.change (Pool.pull e)).close e.conn) :=
  (takeOut he).relane (Pool.relanes_pull e w.pool)

theorem sound (h : Sound held w.pool) (hu : w.Retires es u) : Sound held u.pool :=
  (h.without hu.stocks).relane hu.pool

theorem loses (h : Sound held w.pool) (hu : w.Retires es u) : w.pool.Loses es u.pool :=
  (Pool.loses_without h hu.stocks).relane hu.pool

theorem dispatch (h : Sound held w.pool) (hs : w.pool.Settled) (hu : w.Retires es u) (m : Moment)
    (first : Option Route) : w.Retires es (u.dispatch m first) := by
  have hsettled : u.pool.Settled := by
    refine Pool.Settled.relane (hs.draws (Pool.draws_without _ es) fun r hr => ?_) hu.pool
    rwa [← (Pool.sameQueues_without _ es).queue r]
  exact hu.rests (dispatch_rests (hu.sound h) hsettled m first)

theorem foldl {f : Lane → List Idle} {g : Route → Work → Work}
    (hf : ∀ l, (f l).Subperm l.available)
    (hg : ∀ (w : Work) (r : Route), Sound held w.pool → w.Retires (f (w.pool.lane r)) (g r w))
    (h : Sound held w.pool) {rs : List Route} (hrs : rs.Nodup) :
    w.Retires (rs.flatMap fun r => f (w.pool.lane r)) (rs.foldl (fun w r => g r w) w) := by
  induction rs generalizing w with
  | nil => exact .refl w
  | cons r rs ih =>
    obtain ⟨hr, hrs⟩ := List.nodup_cons.1 hrs
    have hone := hg w r h
    have hrest := ih (hone.sound h) hrs
    have hothers : (rs.flatMap fun s => f ((g r w).pool.lane s)) =
        rs.flatMap fun s => f (w.pool.lane s) := by
      refine List.flatMap_congr fun s hs => ?_
      rw [hone.pool.lane, Pool.lane_without_of_ne fun e he => ?_]
      rw [h.home r e ((hf _).subset he)]
      exact fun heq => hr (heq ▸ hs)
    rw [hothers] at hrest
    exact hone.trans h hrest

end Retires

end Work

namespace Span

def before (now : Instant) : Span → Option Instant
  | ms n => if n ≤ now then some (now - n) else none
  | longest => none

theorem hasPassed_iff {since now : Instant} {d : Span} :
    d.hasPassed since now ↔ ∃ t ∈ d.before now, since ≤ t := by
  cases d with
  | ms n =>
    rw [hasPassed, decide_eq_true_iff]
    by_cases hn : n ≤ now
    · simp [before, hn, Nat.le_sub_iff_add_le hn]
    · have hlt : ¬ since + n ≤ now := fun hle => hn (Nat.le_of_add_left_le hle)
      simp [before, hn, hlt]
  | longest => simp [hasPassed, before]

end Span

theorem Record.isExpired_iff {t : Record} {now : Instant} :
    t.isExpired now ↔ ∃ x ∈ t.expiry, x ≤ now := by
  cases hx : t.expiry <;> simp [isExpired, hx]

theorem Pool.relanes_takeOutAll (h : Sound held p) (hes : p.Stocks es)
    (hr : ∀ e ∈ es, e.record.route = r) : (p.without es).Relanes (p.takeOutAll r es) := by
  induction es generalizing p with
  | nil => exact relanes_openLane p r
  | cons e es ih =>
    have he := hes.available e List.mem_cons_self
    obtain ⟨rfl, hr⟩ := List.forall_mem_cons.1 hr
    rw [← takeOutAll_cons h he]
    exact ih (h.takeOut he) hes.tail hr

namespace Work

theorem sweepRoute_retires (h : Sound held w.pool) (f : Idle → Bool) (r : Route) :
    w.Retires ((w.pool.lane r).available.filter f) (w.sweepRoute f r) := by
  have hstocks : w.pool.Stocks ((w.pool.lane r).available.filter f) :=
    Pool.stocks_of_subperm h List.filter_sublist.subperm
  rw [sweepRoute_eq h]
  exact ⟨Pool.relanes_takeOutAll h hstocks fun e he => h.home r e (List.mem_of_mem_filter he), rfl,
    hstocks, rfl⟩

theorem swept_retires (h : Sound held w.pool) : ∃ es, w.Retires es (w.swept m) ∧
    ∀ e, e ∈ es ↔ ∃ r, e ∈ (w.pool.lane r).available ∧ e.record.isExpired m.now := by
  have hsweep := Retires.foldl (f := fun l => l.available.filter (·.record.isExpired m.now))
    (fun l => List.filter_sublist.subperm) (fun w r hw => sweepRoute_retires hw _ r) h h.tidy
  refine ⟨_, hsweep.relane (Pool.relanes_pruneAll (hsweep.sound h).tidy), fun e => ?_⟩
  simp only [List.mem_flatMap, List.mem_filter]
  refine ⟨fun ⟨r, _, he⟩ => ⟨r, he⟩, fun ⟨r, he⟩ => ⟨r, ?_, he⟩⟩
  refine Pool.mem_keys_of_available (f := (·.record.isExpired m.now)) fun hnil => ?_
  exact List.not_mem_nil (hnil ▸ List.mem_map_of_mem (List.mem_filter.2 he))

theorem closeExpired_retires (h : Sound held w.pool) (hs : w.pool.Settled) :
    ∃ es, w.Retires es (w.closeExpired m) ∧
      ∀ e, e ∈ es ↔ ∃ r, e ∈ (w.pool.lane r).available ∧ e.record.isExpired m.now := by
  obtain ⟨es, hswept, hes⟩ := swept_retires (m := m) h
  refine ⟨es, ?_, hes⟩
  rw [closeExpired_eq]
  dsimp only
  split
  · exact hswept
  · exact (hswept.rests (rests_note rfl)).dispatch h hs m none

theorem closeOldest_retires (h : Sound held w.pool) (now : Instant) (span : Span) {ks : List Mark}
    (hi : w.pool.idle = ks) : ∃ es, w.Retires es (w.closeOldest now span ks).2 ∧
      es.map Idle.mark = ks.takeWhile (span.hasPassed ·.released now) := by
  induction ks generalizing w with
  | nil => exact ⟨[], .refl w, rfl⟩
  | cons k ks ih =>
    obtain ⟨e, hstock, rfl⟩ := h.exists_of_mark (m := k) (by simp [hi])
    have he := h.mem_stock.1 hstock
    rw [closeOldest_cons h he]
    split
    · next hpassed =>
      obtain ⟨es, hretires, hmarks⟩ := ih (w := (w.change (Pool.pull e)).close e.conn)
        (h.pull he) (Pool.idle_pull_of_head hi)
      refine ⟨e :: es, (Retires.pull he).trans h hretires, ?_⟩
      rw [List.map_cons, hmarks, List.takeWhile_cons]
      exact (if_pos hpassed).symm
    · next hpassed =>
      refine ⟨[], .refl w, ?_⟩
      rw [List.takeWhile_cons]
      exact (if_neg hpassed).symm

/-- The walk that stops at the first connection that is too young finds all the others. -/
theorem closeIdle_retires (h : Sound held w.pool) (hs : w.pool.Settled) (ho : w.pool.InOrder)
    (span : Span) : ∃ es, w.Retires es (w.closeIdle m span) ∧
      es.map Idle.mark = w.pool.idle.filter (span.hasPassed ·.released m.now) := by
  have hsorted : w.pool.idle.Pairwise fun k n =>
      span.hasPassed n.released m.now → span.hasPassed k.released m.now := by
    refine ho.sorted.imp fun hle hpassed => ?_
    obtain ⟨t, ht, hn⟩ := Span.hasPassed_iff.1 hpassed
    exact Span.hasPassed_iff.2 ⟨t, ht, hle.trans hn⟩
  obtain ⟨es, hwalk, hmarks⟩ := closeOldest_retires h m.now span rfl
  refine ⟨es, ?_, hmarks.trans (takeWhile_eq_filter hsorted).1⟩
  unfold closeIdle
  generalize w.closeOldest m.now span w.pool.idle = x at hwalk
  obtain ⟨count, u⟩ := x
  dsimp only at hwalk ⊢
  split
  · exact hwalk
  · exact (hwalk.rests (rests_note rfl)).dispatch h hs m none

end Work

namespace Life

variable {l k : Life} {o : Op}

/-- From `l` to `k` available connections were closed, with the limits now `n`.  To the callers nothing
was done. -/
structure Retires (n : Limits) (es : List Idle) (l k : Life) : Prop where
  pool : Pool.Loses es { l.tenancy.pool with limits := n } k.tenancy.pool
  closed : k.closed = l.closed ++ es.map Idle.conn
  deeds : k.reports.filter Report.isDeed = l.reports.filter Report.isDeed
  tenancy : k.tenancy = { l.tenancy with pool := k.tenancy.pool }
  made : k.made = l.made

theorem step_retires {n : Limits} {f : Work → α × Work}
    (h : Sound held { l.tenancy.pool with limits := n })
    (hstep : l.step m o = {
      tenancy := (l.tenancy.turn f).tenancy
      made := l.made
      closed := l.closed ++ (l.tenancy.turn f).closed
      reports := l.reports ++ (l.tenancy.turn f).reports })
    (hf : Work.Retires { pool := { l.tenancy.pool with limits := n } } es
      (f { pool := l.tenancy.pool }).2) : l.Retires n es (l.step m o) := by
  have hpool : (l.step m o).tenancy.pool = (f { pool := l.tenancy.pool }).2.pool := by
    rw [hstep]
    rfl
  refine ⟨?_, ?_, ?_, ?_, ?_⟩
  · rw [hpool]
    exact hf.loses h
  · rw [hstep]
    exact congrArg (l.closed ++ ·) (hf.closing.trans (List.nil_append _))
  · rw [hstep]
    exact (List.filter_append ..).trans (List.append_right_eq_self.2 hf.deeds)
  · rw [hpool, hstep]
    rfl
  · rw [hstep]

/-- A sweep closes what it should and does nothing else.  Of the available connections of all routes,
those that were released a span ago or before are all that is closed as idle, as if each had been
looked at, and none if the clock did not run then.  Those whose end has come are all that is closed as
expired. -/
theorem sweep_closes_exactly (conf : Conf) (ops : List (Moment × Op)) (hclock : Clocked ops) (m : Moment) :
    let l := (start conf).run ops
    let p := l.tenancy.pool
    (∀ span : Span, ∃ es, l.Retires p.limits es (l.step m (.closeIdle span)) ∧
      es.map Idle.mark = p.idle.filter (span.hasPassed ·.released m.now) ∧
      ∀ e, e ∈ es ↔ ∃ r, e ∈ (p.lane r).available ∧
        ∃ t ∈ span.before m.now, e.record.updated ≤ t) ∧
    ∃ es, l.Retires p.limits es (l.step m .closeExpired) ∧
      ∀ e, e ∈ es ↔ ∃ r, e ∈ (p.lane r).available ∧ ∃ t ∈ e.record.expiry, t ≤ m.now := by
  intro l p
  have h : Sound l.tenancy.out p := (run_sound conf ops).sound
  have hs : p.Settled := run_settled conf ops
  refine ⟨fun span => ?_, ?_⟩
  · obtain ⟨es, hretires, hmarks⟩ := Work.closeIdle_retires (w := { pool := p }) (m := m) h hs
      (run_inOrder conf hclock).1 span
    refine ⟨es, step_retires h rfl hretires, hmarks, fun e => ⟨fun he => ?_, fun ⟨r, he, ht⟩ => ?_⟩⟩
    · have hmark : e.mark ∈ es.map Idle.mark := List.mem_map_of_mem he
      rw [hmarks] at hmark
      exact ⟨_, hretires.stocks.available e he,
        Span.hasPassed_iff.1 (List.mem_filter.1 hmark).2⟩
    · have hmem : e.mark ∈ p.idle := h.mark_mem ((Pool.mem_stock h.tidy).2 ⟨r, he⟩)
      refine hretires.stocks.mem_of_mark h he ?_
      rw [hmarks]
      exact List.mem_filter.2 ⟨hmem, Span.hasPassed_iff.2 ht⟩
  · obtain ⟨es, hretires, hes⟩ := Work.closeExpired_retires (w := { pool := p }) (m := m) h hs
    refine ⟨es, step_retires h rfl hretires, fun e => (hes e).trans ?_⟩
    simp only [Record.isExpired_iff]

theorem sweep_closes_exactly_older :
    let on (n : Nat) : Moment := { Sample.calm with now := n }
    let ops := Sample.regrants.take 6 ++ [(on 1, .release ⟨1⟩ true none),
      (on 3, .release ⟨2⟩ true none), (on 4, .lease Sample.route none), (on 5, .dropRequest ⟨3⟩)]
    let l := (start Sample.conf).run ops
    Clocked ops ∧ ∃ es, l.Retires l.tenancy.pool.limits es (l.step (on 6) (.closeIdle (.ms 4))) ∧
      es.map Idle.mark = [⟨⟨1⟩, Sample.route, 1⟩] := by
  intro on ops l
  have hclock : Clocked ops := by unfold Clocked; decide
  obtain ⟨es, hretires, hmarks, -⟩ := (sweep_closes_exactly Sample.conf ops hclock (on 6)).1 (.ms 4)
  exact ⟨hclock, es, hretires, hmarks.trans (by decide)⟩

end Life

end ConnectionPool
