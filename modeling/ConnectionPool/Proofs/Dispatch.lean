import ConnectionPool.Proofs.Admission

/-! Dispatch in moves.  It serves requests one after the other, each from the head of its queue, and
passes over none of them without need.  It ends where nobody waits in vain, and a pool that is there
already it leaves as it is. -/

namespace ConnectionPool

variable {held : Multiset Grant} {c : Multiset Conn} {p q : Pool} {w u v : Work} {g : Grant}
  {id : RequestId} {r s : Route} {l k : List (RequestId × Grant)} {m : Moment}

namespace Sound

theorem queue_grant (h : Sound held w.pool) {ids : List RequestId}
    (hq : (w.pool.lane r).queue = id :: ids) (s : Route) :
    ((w.grant id g).pool.lane s).queue = if s = r then ids else (w.pool.lane s).queue := by
  have hid : w.pool.requests.get? id = some { route := r } := h.head_pending (by simp [hq])
  have hl := Pool.lane_withdraw (h.queued.get?_waiting.2 hid) s
  rw [Work.grant_eq g hid]
  change ((w.pool.withdraw id).lane s).queue = _
  rw [hl]
  split
  · rw [Lane.dequeue, hq, List.erase_cons_head]
  · rfl

theorem isShut_eq_false_of_queue (h : Sound held w.pool) (hq : (w.pool.lane r).queue ≠ []) :
    w.pool.isShut = false := by
  refine h.isShut_eq_false (r := r) fun hl => ?_
  simp [hl] at hq

end Sound

namespace Pool

def AtLimit (p : Pool) (r : Route) : Prop := p.limits.forRoute r ≤ (p.lane r).leased.length

theorem AtLimit.draws (h : p.AtLimit r) (hd : p.Draws q) : q.AtLimit r := by
  unfold AtLimit at h ⊢
  rw [hd.limits]
  exact h.trans (hd.leased r)

/-- Those in `l` were served and others still wait.  A route that came first, or whose request came
before, was passed over only at its own limit, unless the one served was of the route that came
first. -/
def Fair (p : Pool) (first : Option Route) (l : List (RequestId × Grant)) : Prop :=
  ∀ x ∈ l, ∀ s ≠ x.2.record.route, ∀ id ∈ (p.lane s).queue,
    first = some s ∨ id.number < x.1.number ∧ first ≠ some x.2.record.route → p.AtLimit s

theorem Fair.relane {first : Option Route} (h : p.Fair first l) (hq : p.Relanes q) :
    q.Fair first l := by
  intro x hx s hne id hid hs
  rw [hq.lane] at hid
  exact (h x hx s hne id hid hs).draws hq.draws

end Pool

theorem Gain.held_eq {s t : Scene} (hs : s.IsSound) (h : Gain m s t)
    (hidle : s.work.pool.idle = []) (htotal : s.work.pool.limits.total ≤ s.work.pool.leased) :
    t.held = s.held := by
  cases h with
  | shed h => cases h <;> rfl
  | @reuse held c w e rest he =>
    have hmark : e.mark ∈ w.pool.idle := hs.mark_mem (hs.mem_stock.2 (he ▸ List.mem_cons_self))
    exact absurd hidle (List.ne_nil_of_mem hmark)
  | @reserve held c w r hopen hnone hroute hlt =>
    have hall : w.pool.allocated = w.pool.leased := by
      rw [Pool.allocated, hidle, List.length_nil, Nat.add_zero]
    exact absurd htotal (not_le.2 (hall ▸ hlt))

theorem Gains.held_eq {s t : Scene} (hs : s.IsSound) (h : Gains m s t)
    (hidle : s.work.pool.idle = []) (htotal : s.work.pool.limits.total ≤ s.work.pool.leased) :
    t.held = s.held := by
  induction h with
  | refl => rfl
  | @tail u t hsu hut ih =>
    have hd : s.work.pool.Draws u.work.pool := Gains.draws hsu
    have hle : u.work.pool.limits.total ≤ u.work.pool.leased := by
      rw [hd.limits]
      exact htotal.trans hd.total
    exact (hut.held_eq (hs.gains hsu) (hd.idle_eq_nil hidle) hle).trans ih

theorem Pool.Stuck.atLimit (hs : w.pool.Stuck s) (h : Sound held w.pool)
    (hgain : Gains m ⟨held, c, w⟩ ⟨g ::ₘ held, c, u⟩) : w.pool.AtLimit s := by
  refine hs.full.resolve_right fun hfull => ?_
  have hsame : g ::ₘ held = held :=
    Gains.held_eq (s := ⟨held, c, w⟩) h hgain hfull.1 hfull.2
  exact absurd (congrArg Multiset.card hsame) (by simp)

/-- On the way from `w` to `v` the requests in `l` were served, one after the other, each at the
head of its queue. -/
inductive Served (m : Moment) (held : Multiset Grant) (c : Multiset Conn) :
    List (RequestId × Grant) → Work → Work → Prop
  | rest {w v : Work} (hgain : Gains m ⟨held, c, w⟩ ⟨held, c, v⟩) : Served m held c [] w v
  | next {l : List (RequestId × Grant)} {w u v : Work} {id : RequestId} {g : Grant}
      (hgain : Gains m ⟨held, c, w⟩ ⟨g ::ₘ held, c, u⟩)
      (hid : (u.pool.lane g.record.route).queue.head? = some id)
      (h : Served m held c l (u.grant id g) v) : Served m held c ((id, g) :: l) w v

namespace Served

theorem gains (hgain : Gains m ⟨held, c, w⟩ ⟨held, c, u⟩) (h : Served m held c l u v) :
    Served m held c l w v := by
  cases h with
  | rest hrest => exact .rest (hgain.trans hrest)
  | next hnext hid h => exact .next (hgain.trans hnext) hid h

theorem append (h : Served m held c l w u) (hk : Served m held c k u v) :
    Served m held c (l ++ k) w v := by
  induction h with
  | rest hgain => exact hk.gains hgain
  | next hgain hid _ ih => exact .next hgain hid (ih hk)

theorem relane {f : Pool → Pool} (h : Served m held c l w v) (hf : v.pool.Relanes (f v.pool)) :
    Served m held c l w (v.change f) := by
  have hrest : Served m held c [] v (v.change f) := .rest (.single (.shed (.relane f hf)))
  exact List.append_nil l ▸ h.append hrest

theorem serves (h : Served m held c l w v) : Serves m ⟨held, c, w⟩ ⟨held, c, v⟩ := by
  induction h with
  | rest hgain => exact hgain.serves
  | next hgain hid _ ih => exact (hgain.serves.tail (.grant hid)).trans ih

theorem sound (hs : Sound held w.pool) (h : Served m held c l w v) : Sound held v.pool :=
  Scene.IsSound.serves (s := ⟨held, c, w⟩) hs h.serves

theorem draws (hs : Sound held w.pool) (h : Served m held c l w v) : w.pool.Draws v.pool :=
  Serves.draws (s := ⟨held, c, w⟩) hs h.serves

theorem sound_grant (hs : Sound held w.pool) (hgain : Gains m ⟨held, c, w⟩ ⟨g ::ₘ held, c, u⟩)
    (hid : (u.pool.lane g.record.route).queue.head? = some id) :
    Sound held (u.grant id g).pool :=
  Scene.IsSound.serves (s := ⟨held, c, w⟩) hs (hgain.serves.tail (.grant hid))

theorem queue (hs : Sound held w.pool) (h : Served m held c l w v) (r : Route) :
    (w.pool.lane r).queue =
      (l.filter (·.2.record.route = r)).map Prod.fst ++ (v.pool.lane r).queue := by
  induction h with
  | rest hgain => exact (hgain.sameQueues.queue r).symm
  | @next l w u v id g hgain hid _ ih =>
    have hu : Sound (g ::ₘ held) u.pool := Scene.IsSound.gains (s := ⟨held, c, w⟩) hs hgain
    obtain ⟨ids, hq⟩ := List.head?_eq_some_iff.1 hid
    have hwu : (u.pool.lane r).queue = (w.pool.lane r).queue := hgain.sameQueues.queue r
    have hgrant := ih (sound_grant hs hgain hid)
    rw [hu.queue_grant hq] at hgrant
    by_cases hr : g.record.route = r
    · subst hr
      rw [if_pos rfl] at hgrant
      rw [← hwu, hq, hgrant, List.filter_cons_of_pos (by simp)]
      rfl
    · rw [if_neg (Ne.symm hr)] at hgrant
      rw [← hwu, hgrant, List.filter_cons_of_neg (by simpa using hr)]

theorem mem_queue (hs : Sound held w.pool) (h : Served m held c l w v)
    (hid : id ∈ (v.pool.lane r).queue) : id ∈ (w.pool.lane r).queue := by
  rw [h.queue hs r]
  exact List.mem_append_right _ hid

end Served

namespace Work

theorem serve_round (h : Sound held w.pool) {ids : List RequestId}
    (hq : (w.pool.lane r).queue = id :: ids) :
    (∃ g u, w.provide m r = (some g, u) ∧ g.record.route = r ∧
      Gains m ⟨held, c, w⟩ ⟨g ::ₘ held, c, u⟩ ∧ (u.pool.lane r).queue.head? = some id ∧
      ∀ s, ((u.grant id g).pool.lane s).queue = if s = r then ids else (w.pool.lane s).queue) ∨
    ∃ u, w.provide m r = (none, u) ∧ u.pool.Stuck r ∧ Gains m ⟨held, c, w⟩ ⟨held, c, u⟩ := by
  have hopen : w.pool.isShut = false := h.isShut_eq_false_of_queue (r := r) (by simp [hq])
  rcases provide_moves (m := m) (c := c) (r := r) h hopen with
    ⟨g, u, hprovide, hroute, hgain⟩ | ⟨u, hprovide, hstuck, hshed⟩
  · have hsound : Sound (g ::ₘ held) u.pool := Scene.IsSound.gains (s := ⟨held, c, w⟩) h hgain
    have hsame (s : Route) : (u.pool.lane s).queue = (w.pool.lane s).queue :=
      hgain.sameQueues.queue s
    have hqu : (u.pool.lane r).queue = id :: ids := (hsame r).trans hq
    refine .inl ⟨g, u, hprovide, hroute, hgain, by rw [hqu]; rfl, fun s => ?_⟩
    rw [hsound.queue_grant hqu, hsame]
  · exact .inr ⟨u, hprovide, hstuck, hshed.gains⟩

theorem serve_served (h : Sound held w.pool) (n : Nat) :
    ∃ l, Served m held c l w (w.serve m r n) ∧ (∀ x ∈ l, x.2.record.route = r) ∧
      ((w.pool.lane r).queue.length ≤ n →
        ((w.serve m r n).pool.lane r).queue = [] ∨ (w.serve m r n).pool.Stuck r) := by
  induction n generalizing w with
  | zero =>
    refine ⟨[], .rest .refl, by simp, fun hn => .inl ?_⟩
    exact List.eq_nil_of_length_eq_zero (Nat.le_zero.1 hn)
  | succ n ih =>
    rw [serve]
    cases hq : (w.pool.lane r).queue with
    | nil => exact ⟨[], .rest .refl, by simp, fun _ => .inl hq⟩
    | cons id ids =>
      rcases serve_round (m := m) (c := c) h hq with
        ⟨g, u, hprovide, rfl, hgain, hid, hqueue⟩ | ⟨u, hprovide, hstuck, hgain⟩
      · obtain ⟨l, hserved, hroute, hend⟩ := ih (Served.sound_grant h hgain hid)
        simp only [hprovide]
        refine ⟨(id, g) :: l, .next hgain hid hserved, ?_, fun hn => hend ?_⟩
        · exact List.forall_mem_cons.2 ⟨rfl, hroute⟩
        · rw [hqueue, if_pos rfl]
          exact Nat.le_of_succ_le_succ hn
      · simp only [hprovide]
        exact ⟨[], .rest hgain, by simp, fun _ => .inr hstuck⟩

/-- The round through those who wait has come to `rest`.  The routes in `blocked` need not be looked at
again, and of every other route the rest is still in its queue. -/
structure Round (blocked : List Route) (rest : List (RequestId × Route)) (w : Work) : Prop where
  passed : ∀ s ∈ blocked, (w.pool.lane s).queue = [] ∨ w.pool.Stuck s
  queues : ∀ s, s ∉ blocked → (w.pool.lane s).queue = (rest.filter (·.2 = s)).map Prod.fst
  sorted : (rest.map Prod.fst).Pairwise (·.number < ·.number)

namespace Round

variable {blocked : List Route} {rest : List (RequestId × Route)}

theorem settled (h : w.Round blocked []) : w.pool.Settled := by
  intro s hs
  by_cases hmem : s ∈ blocked
  · exact (h.passed s hmem).resolve_left hs
  · exact absurd (h.queues s hmem) hs

theorem queue (h : w.Round blocked ((id, r) :: rest)) (hr : r ∉ blocked) :
    (w.pool.lane r).queue = id :: (rest.filter (·.2 = r)).map Prod.fst := by
  rw [h.queues r hr, List.filter_cons_of_pos (by simp), List.map_cons]

theorem queue_of_ne (h : w.Round blocked ((id, r) :: rest)) (hs : s ∉ blocked) (hne : r ≠ s) :
    (w.pool.lane s).queue = (rest.filter (·.2 = s)).map Prod.fst := by
  rw [h.queues s hs, List.filter_cons_of_neg (by simpa using hne)]

theorem pass (h : w.Round blocked ((id, r) :: rest)) (hr : r ∈ blocked) :
    w.Round blocked rest where
  passed := h.passed
  queues _ hs := h.queue_of_ne hs fun heq => hs (heq ▸ hr)
  sorted := h.sorted.tail

theorem serve (h : w.Round blocked ((id, r) :: rest)) (hr : r ∉ blocked)
    (hd : w.pool.Draws v.pool) (hqueue : ∀ s, (v.pool.lane s).queue =
      if s = r then (rest.filter (·.2 = r)).map Prod.fst else (w.pool.lane s).queue) :
    v.Round blocked rest where
  passed s hs := by
    have hne : s ≠ r := fun heq => hr (heq ▸ hs)
    rw [hqueue, if_neg hne]
    exact (h.passed s hs).imp_right (·.draws hd)
  queues s hs := by
    rw [hqueue]
    split
    · next heq => rw [heq]
    · next hne => exact h.queue_of_ne hs (Ne.symm hne)
  sorted := h.sorted.tail

theorem block (h : w.Round blocked ((id, r) :: rest)) (hd : w.pool.Draws u.pool)
    (hsame : ∀ s, (u.pool.lane s).queue = (w.pool.lane s).queue) (hstuck : u.pool.Stuck r) :
    u.Round (r :: blocked) rest where
  passed s hs := by
    rcases List.mem_cons.1 hs with rfl | hs
    · exact .inr hstuck
    · rw [hsame]
      exact (h.passed s hs).imp_right (·.draws hd)
  queues s hs := by
    have hne : r ≠ s := fun heq => hs (heq ▸ List.mem_cons_self)
    rw [hsame, h.queue_of_ne (fun hmem => hs (List.mem_cons_of_mem r hmem)) hne]
  sorted := h.sorted.tail

theorem atLimit {a : RequestId} (h : w.Round blocked ((id, r) :: rest))
    (hsound : Sound held w.pool) (hgain : Gains m ⟨held, c, w⟩ ⟨g ::ₘ held, c, u⟩)
    (ha : a ∈ (w.pool.lane s).queue) (hs : s ∈ blocked ∨ a.number < id.number) :
    w.pool.AtLimit s := by
  by_cases hmem : s ∈ blocked
  · have hstuck := (h.passed s hmem).resolve_left (List.ne_nil_of_mem ha)
    exact hstuck.atLimit hsound hgain
  · -- nobody in the rest comes before the first of it
    have hlt : a.number < id.number := hs.resolve_left hmem
    rw [h.queues s hmem, List.mem_map] at ha
    obtain ⟨x, hx, rfl⟩ := ha
    rcases List.mem_cons.1 (List.mem_filter.1 hx).1 with rfl | hx
    · exact absurd hlt (lt_irrefl _)
    · have hsorted := (List.pairwise_cons.1 h.sorted).1
      exact absurd (hsorted x.1 (List.mem_map_of_mem hx)) hlt.asymm

end Round

theorem serveAll_served (h : Sound held w.pool) {blocked : List Route}
    {rest : List (RequestId × Route)} (hrest : w.Round blocked rest) :
    ∃ l, Served m held c l w (w.serveAll m blocked rest) ∧
      (w.serveAll m blocked rest).pool.Settled ∧
      ∀ x ∈ l, ∀ s, ∀ id ∈ ((w.serveAll m blocked rest).pool.lane s).queue,
        s ∈ blocked ∨ id.number < x.1.number → (w.serveAll m blocked rest).pool.AtLimit s := by
  induction rest generalizing w blocked with
  | nil => exact ⟨[], .rest .refl, hrest.settled, by simp⟩
  | cons x rest ih =>
    obtain ⟨id, r⟩ := x
    rw [serveAll]
    split
    · next hmem => exact ih h (hrest.pass hmem)
    · next hmem =>
      rcases serve_round (m := m) (c := c) h (hrest.queue hmem) with
        ⟨g, u, hprovide, rfl, hgain, hid, hqueue⟩ | ⟨u, hprovide, hstuck, hgain⟩
      · have hone : Served m held c [(id, g)] w (u.grant id g) := .next hgain hid (.rest .refl)
        obtain ⟨l, hserved, hsettled, hfair⟩ :=
          ih (hone.sound h) (hrest.serve hmem (hone.draws h) hqueue)
        have hall : Served m held c ((id, g) :: l) w _ := hone.append hserved
        simp only [hprovide]
        refine ⟨(id, g) :: l, hall, hsettled, List.forall_mem_cons.2 ⟨fun s a ha hs => ?_, hfair⟩⟩
        exact (hrest.atLimit h hgain (hall.mem_queue h ha) hs).draws (hall.draws h)
      · have hnone : Served m held c [] w u := .rest hgain
        obtain ⟨l, hserved, hsettled, hfair⟩ :=
          ih (hnone.sound h) (hrest.block (hnone.draws h) hgain.sameQueues.queue hstuck)
        simp only [hprovide]
        exact ⟨l, hserved.gains hgain, hsettled,
          fun x hx s id hid hs => hfair x hx s id hid (hs.imp_left (List.mem_cons_of_mem _))⟩

theorem round_waiting (h : Sound held w.pool) : w.Round [] w.pool.waiting :=
  ⟨fun _ hs => absurd hs List.not_mem_nil, fun s _ => h.queued.queue s, h.queued.sorted⟩

theorem round_serve (h : Sound held w.pool) :
    (w.serve m r (w.pool.lane r).queue.length).Round [r]
      (w.serve m r (w.pool.lane r).queue.length).pool.waiting := by
  obtain ⟨l, hserved, -, hend⟩ :=
    serve_served (m := m) (c := 0) (r := r) h (w.pool.lane r).queue.length
  have hsound := hserved.sound h
  exact ⟨List.forall_mem_singleton.2 (hend le_rfl), fun s _ => hsound.queued.queue s,
    hsound.queued.sorted⟩

theorem dispatch_served (h : Sound held w.pool) (first : Option Route) :
    ∃ l, Served m held c l w (w.dispatch m first) ∧ (w.dispatch m first).pool.Settled ∧
      (w.dispatch m first).pool.Fair first l := by
  cases first with
  | none =>
    obtain ⟨l, hserved, hsettled, hfair⟩ := serveAll_served (m := m) (c := c) h (round_waiting h)
    refine ⟨l, hserved, hsettled, fun x hx s _ id hid hs => hfair x hx s id hid (.inr ?_)⟩
    exact (hs.resolve_left (by simp)).1
  | some r =>
    obtain ⟨l, hserved, hroute, -⟩ :=
      serve_served (m := m) (c := c) (r := r) h (w.pool.lane r).queue.length
    obtain ⟨k, hserved', hsettled, hfair⟩ :=
      serveAll_served (m := m) (c := c) (hserved.sound h) (round_serve h)
    refine ⟨l ++ k, hserved.append hserved', hsettled, fun x hx s hne id hid hs => ?_⟩
    rcases List.mem_append.1 hx with hx | hx
    -- those served first are of the route that came first
    · rw [hroute x hx] at hne hs
      rcases hs with hs | hs
      · exact absurd (Option.some.inj hs).symm hne
      · exact absurd rfl hs.2
    · refine hfair x hx s id hid (hs.imp (fun hs => ?_) And.left)
      exact List.mem_singleton.2 (Option.some.inj hs).symm

theorem dispatch_moves (h : Sound held w.pool) (first : Option Route) :
    Serves m ⟨held, c, w⟩ ⟨held, c, w.dispatch m first⟩ := by
  obtain ⟨l, hserved, -⟩ := dispatch_served (m := m) (c := c) h first
  exact hserved.serves

theorem dispatch_settled (h : Sound held w.pool) (first : Option Route) :
    (w.dispatch m first).pool.Settled := by
  obtain ⟨l, -, hsettled, -⟩ := dispatch_served (m := m) (c := 0) h first
  exact hsettled

theorem serve_of_settled (hs : w.pool.Settled) (n : Nat) :
    (w.serve m r n).pool = w.pool ∧ (w.serve m r n).closing = w.closing := by
  cases n with
  | zero => exact ⟨rfl, rfl⟩
  | succ n =>
    rw [serve]
    cases hq : (w.pool.lane r).queue with
    | nil => exact ⟨rfl, rfl⟩
    | cons id ids =>
      have hne : (w.pool.lane r).queue ≠ [] := by simp [hq]
      obtain ⟨hnone, hsame⟩ := provide_of_waiting m (hs r hne) hne
      generalize hp : w.provide m r = res at hnone hsame ⊢
      obtain ⟨g, u⟩ := res
      subst hnone
      exact hsame

theorem serveAll_of_stuck (blocked : List Route) {rest : List (RequestId × Route)}
    (hs : ∀ x ∈ rest, w.pool.Stuck x.2 ∧ (w.pool.lane x.2).queue ≠ []) :
    (w.serveAll m blocked rest).pool = w.pool ∧
      (w.serveAll m blocked rest).closing = w.closing := by
  induction rest generalizing w blocked with
  | nil => exact ⟨rfl, rfl⟩
  | cons x rest ih =>
    obtain ⟨id, r⟩ := x
    obtain ⟨⟨hstuck, hq⟩, hrest⟩ := List.forall_mem_cons.1 hs
    rw [serveAll]
    split
    · exact ih blocked hrest
    · obtain ⟨hnone, hpool, hclosing⟩ := provide_of_waiting m hstuck hq
      generalize hp : w.provide m r = res at hnone hpool hclosing ⊢
      obtain ⟨g, u⟩ := res
      subst hnone
      dsimp only at hpool hclosing ⊢
      rw [← hpool, ← hclosing]
      exact ih (r :: blocked) (hpool ▸ hrest)

theorem dispatch_of_settled (h : Sound held w.pool) (hs : w.pool.Settled) (first : Option Route) :
    (w.dispatch m first).pool = w.pool ∧ (w.dispatch m first).closing = w.closing := by
  have hstuck {p : Pool} (hp : p = w.pool) :
      ∀ x ∈ p.waiting, p.Stuck x.2 ∧ (p.lane x.2).queue ≠ [] := by
    rintro ⟨id, s⟩ hx
    subst hp
    have hid := (h.queued.pending id s).1 hx
    have hq := List.ne_nil_of_mem (h.queued.mem_queue.2 hid)
    exact ⟨hs s hq, hq⟩
  cases first with
  | none => exact serveAll_of_stuck [] (hstuck rfl)
  | some r =>
    obtain ⟨hpool, hclosing⟩ := serve_of_settled (m := m) (r := r) hs (w.pool.lane r).queue.length
    have hrest := serveAll_of_stuck (m := m) [r] (hstuck hpool)
    exact ⟨hrest.1.trans hpool, hrest.2.trans hclosing⟩

end Work

end ConnectionPool
