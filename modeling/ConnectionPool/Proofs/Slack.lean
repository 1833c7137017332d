import ConnectionPool.Proofs.Exhaustion
import ConnectionPool.Proofs.Precedence
import ConnectionPool.Proofs.Provision

namespace ConnectionPool

variable {held : Multiset Grant} {p q : Pool} {w u : Work} {e : Idle} {xs ys : List Idle} {g : Grant}
  {id : RequestId} {r s : Route} {m : Moment}

namespace Pool

structure Found (p q : Pool) (r : Route) : Prop where
  draws : p.Draws q
  queues : p.SameQueues q
  slot : (p.lane r).leased.length < (q.lane r).leased.length
  total : p.leased < q.leased
  available : (q.lane r).available = [] ∨
    (q.lane r).available.length < (p.lane r).available.length
  idle : q.allocated ≤ q.limits.total ∨ q.idle.length < p.idle.length

theorem Found.of_relanes {u : Pool} (hf : p.Found q r) (h : u.Relanes p) : u.Found q r where
  draws := h.draws.trans hf.draws
  queues := h.sameQueues.trans hf.queues
  slot := h.lane r ▸ hf.slot
  total := h.leased ▸ hf.total
  available := h.lane r ▸ hf.available
  idle := h.idle ▸ hf.idle

theorem found_lease (h : Sound held p) (ha : (p.lane r).available = xs ++ e :: ys) :
    p.Found ((p.without (xs ++ [e])).lease e.record) r := by
  have ha' : (p.lane r).available = (xs ++ [e]) ++ ys := by simp [ha]
  have hfront : Sound held (p.without xs) := h.without (stocks_front h (ha ▸ List.prefix_append _ _))
  obtain rfl : e.record.route = r := h.home r e (by simp [ha])
  have he : e ∈ ((p.without xs).lane e.record.route).available := by
    rw [h.available_without ha]
    exact List.mem_cons_self
  have hout : p.without (xs ++ [e]) = (p.without xs).takeOut e := without_append p xs [e]
  have hnew : e.record.id ∉ ((p.without (xs ++ [e])).lane e.record.route).leased := by
    rw [hout]
    exact (hfront.takeOut he).not_mem_leased (hfront.not_mem_takeOut he)
  exact {
    draws := (draws_without p _).trans (draws_lease e.record)
    queues := (sameQueues_without p _).trans (sameQueues_lease e.record)
    slot := by
      rw [length_leased_lease hnew, (sameSlots_without p _).leased, if_pos rfl]
      exact Nat.lt_succ_self _
    total := by
      change p.leased < (p.without (xs ++ [e])).leased + 1
      rw [(sameSlots_without p _).total]
      exact Nat.lt_succ_self _
    available := .inr <| by
      rw [lane_lease, if_pos rfl, Lane.lease, h.available_without ha', ha, List.length_append,
        List.length_cons]
      omega
    idle := .inr <| by
      have hmark : e.mark ∈ (p.without xs).idle := hfront.mark_mem (hfront.mem_stock.2 he)
      have hle := (draws_without p xs).idle.length_le
      have hpos := List.length_pos_of_mem hmark
      rw [hout]
      change ((p.without xs).idle.erase e.mark).length < p.idle.length
      rw [List.length_erase_of_mem hmark]
      omega }

theorem found_reserve (h : Sound held q) (hdraws : p.Draws q) (hqueues : p.SameQueues q)
    (hslots : p.SameSlots q) (hnone : (q.lane r).available = [])
    (hlt : q.allocated < q.limits.total) : p.Found (q.reserve m r) r where
  draws := hdraws.trans (draws_reserve m r { pool := q })
  queues := hqueues.trans (sameQueues_reserve m r { pool := q })
  slot := by
    have hnew : (q.nextRecord m r).id ∉ (q.lane r).leased := h.not_mem_leased h.not_mem_next
    have hlen : ((q.reserve m r).lane r).leased.length = (q.lane r).leased.length + 1 :=
      (length_leased_lease (p := { q with lastEntry := q.lastEntry + 1 }) (t := q.nextRecord m r)
        hnew r).trans (congrArg _ (if_pos rfl))
    rw [hlen, hslots.leased]
    exact Nat.lt_succ_self _
  total := by
    change p.leased < q.leased + 1
    rw [hslots.total]
    exact Nat.lt_succ_self _
  available := .inl ((draws_reserve m r { pool := q }).available_eq_nil hnone)
  idle := .inl <| by
    change q.leased + 1 + q.idle.length ≤ q.limits.total
    rw [allocated] at hlt
    omega

/-- At most one slot is missing for those who wait not to wait in vain, and at most one connection is
left over: those of the route. -/
structure Slack (p : Pool) (r : Route) : Prop where
  available : ∀ s, (p.lane s).queue ≠ [] →
    (p.lane s).available.length ≤ if s = r then 1 else 0
  full : ∀ s, (p.lane s).queue ≠ [] →
    p.limits.forRoute s ≤ (p.lane s).leased.length + (if s = r then 1 else 0) ∨
      p.idle.length ≤ 1 ∧ p.limits.total ≤ p.leased + 1

theorem Slack.draws (h : p.Slack r) (hd : p.Draws q) (hq : p.SameQueues q) : q.Slack r where
  available s hs := (hd.available s).length_le.trans (h.available s (hq.queue s ▸ hs))
  full s hs := by
    have hleased := hd.leased s
    have htotal := hd.total
    have hidle := hd.idle.length_le
    rw [hd.limits]
    refine (h.full s (hq.queue s ▸ hs)).imp (fun hroute => ?_) fun hall => ?_
    · omega
    · omega

theorem Slack.settled (h : p.Slack r) (hf : p.Found q s) (hr : s = r ∨ p.Quiet r) :
    q.Settled := by
  intro x hx
  have hx : (p.lane x).queue ≠ [] := hf.queues.queue x ▸ hx
  have hlimits : q.limits = p.limits := hf.draws.limits
  have hfull (hall : p.idle.length ≤ 1 ∧ p.limits.total ≤ p.leased + 1) :
      q.idle = [] ∧ q.limits.total ≤ q.leased := by
    have htotal := hf.total
    rw [hlimits]
    refine ⟨List.eq_nil_of_length_eq_zero ?_, by omega⟩
    rcases hf.idle with hle | hlt
    · rw [hlimits, allocated] at hle
      omega
    · omega
  have hnone := h.available x hx
  have hroute := h.full x hx
  by_cases hxr : x = r
  · subst hxr
    rw [if_pos rfl] at hnone hroute
    by_cases hsx : s = x
    · subst hsx
      have hnil : (q.lane s).available = [] := by
        refine hf.available.elim id fun hlt => List.eq_nil_of_length_eq_zero ?_
        omega
      exact ⟨hnil, hroute.imp (fun hle => hlimits ▸ hle.trans hf.slot) hfull⟩
    · -- somebody else got the slot, so the route was left as it is, and it is stuck
      exact ((hr.resolve_left hsx).resolve_left hx).draws hf.draws
  · rw [if_neg hxr] at hnone hroute
    have hnil := hf.draws.available_eq_nil (List.eq_nil_of_length_eq_zero (Nat.le_zero.1 hnone))
    exact ⟨hnil, hroute.imp (fun hle => hlimits ▸ hle.trans (hf.draws.leased x)) hfull⟩

end Pool

namespace Work

theorem provide_found (h : Sound held w.pool) (hfound : w.provide m r = (some g, u)) :
    w.pool.Found u.pool r := by
  have hpool : (w.provide m r).2.pool = u.pool := by rw [hfound]
  have hanswer : (w.provide m r).1 = some g := by rw [hfound]
  have hopen : w.pool.Relanes (w.pool.openLane r) := Pool.relanes_openLane w.pool r
  have hsound : Sound held (w.pool.openLane r) := h.openLane r
  rw [← hpool]
  by_cases hfit : ∃ e ∈ (w.pool.lane r).available, e.isFit m w.pool.policy.validateAfter
  · obtain ⟨xs, e, ys, ha, hxs, hfit⟩ := exists_first_fit hfit
    rw [(provide_of_fit h ha hxs hfit).pool]
    exact (Pool.found_lease hsound ((congrArg Lane.available (hopen.lane r)).trans ha)).of_relanes
      hopen
  have hunfit : ∀ e ∈ (w.pool.lane r).available, ¬ e.isFit m w.pool.policy.validateAfter :=
    fun e he hfite => hfit ⟨e, he, hfite⟩
  by_cases hlimit : w.pool.AtLimit r
  · rw [(provide_of_atLimit h hunfit hlimit).answer] at hanswer
    cases hanswer
  obtain ⟨ds, hds, hmarks, hprovides⟩ := provide_of_below h hunfit hlimit
  split at hprovides
  · next hroom =>
    rw [hprovides.pool]
    have hes : (w.pool.openLane r).Stocks (w.pool.lane r).available :=
      (Pool.stocks_front h List.prefix_rfl).of_lane hopen.lane
    have hnone : (((w.pool.openLane r).without (w.pool.lane r).available).lane r).available = [] :=
      hsound.available_without (by rw [hopen.lane, List.append_nil])
    have hslots := Pool.sameSlots_without (w.pool.openLane r) (w.pool.lane r).available
    have hqueues := Pool.sameQueues_without (w.pool.openLane r) (w.pool.lane r).available
    have hdraws := Pool.draws_without (w.pool.openLane r) (w.pool.lane r).available
    have hq := hsound.without hes
    generalize (w.pool.openLane r).without (w.pool.lane r).available = q at *
    have hpulled : (q.without ds).Relanes (q.pulled ds) := Pool.relanes_pulled ds q
    have hdraws' := (Pool.draws_without q ds).trans hpulled.draws
    have hlt := Pool.allocated_without_lt (hslots.total.trans_lt hroom) hmarks
    refine (Pool.found_reserve ((hq.without hds).relane hpulled) (hdraws.trans hdraws')
      (hqueues.trans ((Pool.sameQueues_without q ds).trans hpulled.sameQueues))
      (hslots.trans ((Pool.sameSlots_without q ds).trans hpulled.sameSlots))
      (hdraws'.available_eq_nil hnone) ?_).of_relanes hopen
    rw [hpulled.allocated, hdraws'.limits, hdraws.limits]
    exact hlt
  · rw [hprovides.answer] at hanswer
    cases hanswer

theorem grant_settled (h : Sound (g ::ₘ held) u.pool) (hs : u.pool.Settled)
    (hid : (u.pool.lane g.record.route).queue.head? = some id) :
    (u.grant id g).pool.Settled := by
  have hd : u.pool.Draws (u.grant id g).pool := by
    rw [Work.grant_eq g (h.head_pending hid)]
    exact Pool.draws_withdraw _ _
  obtain ⟨ids, hq⟩ := List.head?_eq_some_iff.1 hid
  refine hs.draws hd fun s hne => ?_
  rw [h.queue_grant hq] at hne
  split at hne
  · next hs => simp [hs, hq]
  · exact hne

end Work

theorem Gain.due_eq {s t : Scene} (h : Gain m s t) (hs : s.work.pool.Stuck r) :
    t.due r = s.due r := by
  cases h with
  | shed h => cases h <;> rfl
  | @reuse held c w e rest he =>
    have hne : e.record.route ≠ r := by
      rintro rfl
      simp [hs.available] at he
    exact (Multiset.countP_cons_of_neg _ hne)
  | @reserve held c w r' hopen hnone hroute htotal =>
    have hne : r' ≠ r := by
      rintro rfl
      rcases hs.full with hle | ⟨-, hle⟩
      · exact absurd hroute (not_lt.2 (hle.trans (Nat.le_add_right _ _)))
      · exact absurd htotal (not_lt.2 (hle.trans (Nat.le_add_right _ _)))
    exact (Multiset.countP_cons_of_neg _ hne)

theorem Gains.due_eq {s t : Scene} (h : Gains m s t) (hs : s.work.pool.Stuck r) :
    t.due r = s.due r := by
  induction h with
  | refl => rfl
  | tail hsu hut ih => exact (hut.due_eq (hs.draws (Gains.draws hsu))).trans ih

theorem Served.eq_nil {l : List (RequestId × Grant)} {c : Multiset Conn} {v : Work}
    (hs : w.pool.Settled) (h : Served m held c l w v) : l = [] := by
  cases h with
  | rest => rfl
  | @next l w u v id g hgain hid h =>
    have hqueue : (w.pool.lane g.record.route).queue ≠ [] := by
      have hsame : (u.pool.lane g.record.route).queue = _ := hgain.sameQueues.queue _
      rw [← hsame]
      exact fun hnil => by simp [hnil] at hid
    have hdue : Scene.due g.record.route ⟨g ::ₘ held, c, u⟩ =
        Scene.due g.record.route ⟨held, c, w⟩ := hgain.due_eq (hs _ hqueue)
    have hmore : Scene.due g.record.route ⟨g ::ₘ held, c, u⟩ =
        Scene.due g.record.route ⟨held, c, w⟩ + if g.record.route = g.record.route then 1 else 0 :=
      Scene.due_cons g _
    rw [if_pos rfl] at hmore
    omega

/-- On the way from `w` to `v` nobody was served, or one request was and nobody waits in vain after
it. -/
inductive ServedOnce (m : Moment) (held : Multiset Grant) (r : Route) (w v : Work) : Prop
  | none (h : Served m held 0 [] w v) (hslack : v.pool.Slack r)
  | one (x : RequestId × Grant) (h : Served m held 0 [x] w v) (hs : v.pool.Settled)

theorem ServedOnce.eq_of_grants {v : Work} {a b : RequestId} {t : Route} {d : Grant}
    (hs : Sound held w.pool) (h : ServedOnce m held r w v) (ha : w.pool.Grants v.pool a s g)
    (hb : w.pool.Grants v.pool b t d) : a = b := by
  have hmem {l : List (RequestId × Grant)} (hl : Served m held 0 l w v) {a : RequestId} {s : Route}
      {g : Grant} (ha : w.pool.Grants v.pool a s g) : ∃ d, (a, d) ∈ l := by
    rcases hl.get?_cases hs a with ⟨hsame, -⟩ | ⟨d, hd, -⟩
    · exact absurd (hsame.symm.trans ha.granted) (ha.isNew g)
    · exact ⟨d, hd⟩
  cases h with
  | none hl =>
    obtain ⟨d, hd⟩ := hmem hl ha
    exact absurd hd List.not_mem_nil
  | one x hl =>
    obtain ⟨y, hy⟩ := hmem hl ha
    obtain ⟨z, hz⟩ := hmem hl hb
    have hyz := (List.mem_singleton.1 hy).trans (List.mem_singleton.1 hz).symm
    exact congrArg Prod.fst hyz

theorem ServedOnce.gains {v : Work} (hgain : Gains m ⟨held, 0, w⟩ ⟨held, 0, u⟩)
    (h : ServedOnce m held r u v) : ServedOnce m held r w v := by
  cases h with
  | none h hslack => exact .none (h.gains hgain) hslack
  | one x h hs => exact .one x (h.gains hgain) hs

namespace Work

theorem servedOnce_of_found {l : List (RequestId × Grant)} {v : Work} (h : Sound held w.pool)
    (hslack : w.pool.Slack r) (hfound : w.provide m s = (some g, u)) (hr : s = r ∨ w.pool.Quiet r)
    (hgain : Gains m ⟨held, 0, w⟩ ⟨g ::ₘ held, 0, u⟩)
    (hid : (u.pool.lane g.record.route).queue.head? = some id)
    (hrest : Served m held 0 l (u.grant id g) v) : ServedOnce m held r w v := by
  have hu : Sound (g ::ₘ held) u.pool := Scene.IsSound.gains (s := ⟨held, 0, w⟩) h hgain
  have hsettled : (u.grant id g).pool.Settled :=
    grant_settled hu (hslack.settled (provide_found h hfound) hr) hid
  obtain rfl := hrest.eq_nil hsettled
  cases hrest with
  | rest hafter =>
    exact .one (id, g) (.next hgain hid (.rest hafter)) (hsettled.gains hafter)

theorem serve_once (h : Sound held w.pool) (hslack : w.pool.Slack r) (n : Nat) :
    ServedOnce m held r w (w.serve m r n) := by
  cases n with
  | zero => exact .none (.rest .refl) hslack
  | succ n =>
    rw [serve]
    cases hq : (w.pool.lane r).queue with
    | nil => exact .none (.rest .refl) hslack
    | cons id ids =>
      rcases serve_round (m := m) (c := 0) h hq with
        ⟨g, u, hfound, rfl, hgain, hid, -⟩ | ⟨u, hnone, -, hgain⟩
      · have hsound := Served.sound_grant h hgain hid
        obtain ⟨k, hk, -⟩ := serve_served (m := m) (c := 0) (r := g.record.route) hsound n
        simp only [hfound]
        exact servedOnce_of_found h hslack hfound (.inl rfl) hgain hid hk
      · simp only [hnone]
        exact .none (.rest hgain) (hslack.draws hgain.draws hgain.sameQueues)

theorem serveAll_once (h : Sound held w.pool) (hslack : w.pool.Slack r) {blocked : List Route}
    {rest : List (RequestId × Route)} (hround : w.Round blocked rest) (hr : r ∈ blocked) :
    ServedOnce m held r w (w.serveAll m blocked rest) := by
  induction rest generalizing w blocked with
  | nil => exact .none (.rest .refl) hslack
  | cons x rest ih =>
    obtain ⟨id, s⟩ := x
    rw [serveAll]
    split
    · next hmem => exact ih h hslack (hround.pass hmem) hr
    · next hmem =>
      rcases serve_round (m := m) (c := 0) h (hround.queue hmem) with
        ⟨g, u, hfound, rfl, hgain, hid, hqueue⟩ | ⟨u, hnone, hstuck, hgain⟩
      · have hsound := Served.sound_grant h hgain hid
        have hd : w.pool.Draws (u.grant id g).pool :=
          Served.draws (m := m) (c := 0) h (.next hgain hid (.rest .refl))
        obtain ⟨k, hk, -⟩ := serveAll_served (m := m) (c := 0) hsound (hround.serve hmem hd hqueue)
        simp only [hfound]
        exact servedOnce_of_found h hslack hfound (.inr (hround.passed r hr)) hgain hid hk
      · have hu : Sound held u.pool := Scene.IsSound.gains (s := ⟨held, 0, w⟩) h hgain
        have hsame (s : Route) : (u.pool.lane s).queue = (w.pool.lane s).queue :=
          hgain.sameQueues.queue s
        simp only [hnone]
        exact (ih hu (hslack.draws hgain.draws hgain.sameQueues)
          (hround.block hgain.draws hsame hstuck) (List.mem_cons_of_mem s hr)).gains hgain

/-- Where at most one slot came free, one request at most is served. -/
theorem dispatch_once (h : Sound held w.pool) (hslack : w.pool.Slack r) :
    ServedOnce m held r w (w.dispatch m (some r)) := by
  have hround := round_serve (m := m) (r := r) h
  cases serve_once (m := m) h hslack (w.pool.lane r).queue.length with
  | none hserve hslack' =>
    have hsound := hserve.sound h
    cases hserve with
    | rest hgain =>
      exact (serveAll_once hsound hslack' hround (List.mem_singleton_self r)).gains hgain
  | one x hserve hsettled =>
    obtain ⟨k, hk, -⟩ := serveAll_served (m := m) (c := 0) (hserve.sound h) hround
    obtain rfl := hk.eq_nil hsettled
    cases hk with
    | rest hafter =>
      exact .one x (hserve.append (.rest hafter)) (hsettled.gains hafter)

end Work

end ConnectionPool
