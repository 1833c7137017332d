import ConnectionPool.Proofs.Absence

namespace ConnectionPool

variable {held : Multiset Grant} {p : Pool} {w v u : Work} {e : Idle} {g : Grant} {id : RequestId}
  {r : Route} {m : Moment}

namespace Work

def serveEach (m : Moment) : List (RequestId × Route) → Work → Work
  | [], w => w
  | (id, route) :: rest, w =>
    match w.provide m route with
    | (some g, w) => serveEach m rest (w.grant id g)
    | (none, w) => serveEach m rest w

/-- Serves the queue of the route `first`, and then tries to serve each request that waits. -/
def dispatchEach (m : Moment) (first : Option Route) (w : Work) : Work :=
  let w :=
    match first with
    | some r => w.serve m r (w.pool.lane r).queue.length
    | none => w
  w.serveEach m w.pool.waiting

namespace Rests

theorem report (h : w.Rests v) (rs : List Report) : (w.report rs).Rests (v.report rs) where
  pool := h.pool
  closing := h.closing
  deeds := by rw [deeds_report, deeds_report, h.deeds]

theorem note (h : w.Rests v) (n : Notice) : (w.note n).Rests (v.note n) := h.report [.noted n]

theorem close (h : w.Rests v) (c : Conn) : (w.close c).Rests (v.close c) where
  pool := h.pool
  closing := by rw [closing_close, closing_close, h.closing]
  deeds := h.deeds

theorem change (h : w.Rests v) (f : Pool → Pool) : (w.change f).Rests (v.change f) where
  pool := by rw [pool_change, pool_change, h.pool]
  closing := h.closing
  deeds := h.deeds

theorem reuse (h : w.Rests v) (hw : Sound held w.pool) {es : List Idle}
    (hes : (w.pool.lane r).available = es) : (v.reuse m r es).1 = (w.reuse m r es).1 ∧
      (w.reuse m r es).2.Rests (v.reuse m r es).2 := by
  induction es generalizing w v with
  | nil => exact ⟨rfl, h⟩
  | cons e es ih =>
    have hr : e.record.route = r := hw.home r e (by simp [hes])
    have hmem : e ∈ (w.pool.lane e.record.route).available := by simp [hr, hes]
    rw [reuse_cons hw hr hes, reuse_cons (h.pool ▸ hw) hr (h.pool ▸ hes), h.pool]
    split
    · exact ⟨rfl, (((h.report _).note _).change _).change _⟩
    · refine ih ((((h.report _).note _).change _).close _) (hw.takeOut hmem) ?_
      change ((w.pool.takeOut e).lane r).available = es
      rw [Pool.lane_takeOut, if_pos hr.symm, hr, hes, List.erase_cons_head]

theorem evict (h : w.Rests v) : v.evict.1 = w.evict.1 ∧ w.evict.2.Rests v.evict.2 := by
  unfold Work.evict
  rw [h.pool]
  cases w.pool.idle with
  | nil => exact ⟨rfl, h⟩
  | cons oldest rest =>
    have htaken := h.change ({ · with idle := rest })
    simp only [pool_change, h.pool]
    split
    · next e l _ =>
      exact ⟨rfl, htaken.change fun p => (p.setLane oldest.route l).prune oldest.route⟩
    · exact ⟨rfl, (htaken.change (Pool.prune oldest.route)).note _⟩

theorem makeRoom (h : w.Rests v) (n : Nat) : (v.makeRoom r n).1 = (w.makeRoom r n).1 ∧
    (w.makeRoom r n).2.Rests (v.makeRoom r n).2 := by
  induction n generalizing w v with
  | zero =>
    obtain ⟨-, hevicts⟩ := h.evict
    rw [Work.makeRoom.eq_def, Work.makeRoom.eq_def]
    dsimp only
    rw [h.pool]
    split
    · exact ⟨rfl, h⟩
    · exact ⟨rfl, hevicts⟩
  | succ n ih =>
    obtain ⟨hanswer, hevicts⟩ := h.evict
    rw [Work.makeRoom.eq_def, Work.makeRoom.eq_def]
    dsimp only
    rw [h.pool]
    split
    · exact ⟨rfl, h⟩
    · generalize w.evict = x at hanswer hevicts
      generalize v.evict = y at hanswer hevicts
      obtain ⟨d, w'⟩ := x
      obtain ⟨d', v'⟩ := y
      obtain rfl : d' = d := hanswer
      cases d' with
      | none => exact ⟨rfl, hevicts⟩
      | some e => exact ih ((hevicts.note _).close _)

theorem reserve (h : w.Rests v) : (v.reserve m r).1 = (w.reserve m r).1 ∧
    (w.reserve m r).2.Rests (v.reserve m r).2 := by
  have hnumber := h.change ({ · with lastEntry := w.pool.lastEntry + 1 })
  unfold Work.reserve
  rw [h.pool]
  exact ⟨rfl, (hnumber.note _).change _⟩

theorem seek (h : w.Rests v) (hw : Sound held w.pool) : (v.seek m r).1 = (w.seek m r).1 ∧
    (w.seek m r).2.Rests (v.seek m r).2 := by
  have hreuse := h.reuse (m := m) hw (r := r) rfl
  unfold Work.seek
  rw [h.pool]
  generalize w.reuse m r (w.pool.lane r).available = x at hreuse
  generalize v.reuse m r (w.pool.lane r).available = y at hreuse
  obtain ⟨d, w'⟩ := x
  obtain ⟨d', v'⟩ := y
  obtain rfl : d' = d := hreuse.1
  have hrests : w'.Rests v' := hreuse.2
  cases d' with
  | some e => exact ⟨rfl, hrests⟩
  | none =>
    have hroom := hrests.makeRoom (r := r) w'.pool.idle.length
    have hpool : v'.pool = w'.pool := hrests.pool
    dsimp only
    rw [hpool]
    split
    · exact ⟨rfl, hrests.note _⟩
    · generalize w'.makeRoom r w'.pool.idle.length = x at hroom
      generalize v'.makeRoom r w'.pool.idle.length = y at hroom
      obtain ⟨room, w''⟩ := x
      obtain ⟨room', v''⟩ := y
      obtain rfl : room' = room := hroom.1
      have hrests : w''.Rests v'' := hroom.2
      cases room' with
      | false => exact ⟨rfl, hrests⟩
      | true =>
        obtain ⟨hrecord, hreserve⟩ := hrests.reserve (m := m) (r := r)
        exact ⟨congrArg (some ∘ Grant.create) hrecord, hreserve⟩

theorem provide (h : w.Rests v) (hw : Sound held w.pool) : (v.provide m r).1 = (w.provide m r).1 ∧
    (w.provide m r).2.Rests (v.provide m r).2 :=
  (h.change (Pool.openLane r)).seek (w := w.change (Pool.openLane r)) (hw.openLane r)

theorem grant (h : w.Rests v) (hw : Sound held w.pool)
    (hid : (w.pool.lane g.record.route).queue.head? = some id) :
    (w.grant id g).Rests (v.grant id g) := by
  have hpending := hw.head_pending hid
  have hv : Sound held v.pool := h.pool ▸ hw
  rw [Work.grant_eq g hpending, Work.grant_eq g (h.pool ▸ hpending)]
  exact h.change _

end Rests

section Round

variable {blocked : List Route} {rest : List (RequestId × Route)}

theorem serveEach_of_none (hnone : (v.provide m r).1 = none) :
    v.serveEach m ((id, r) :: rest) = (v.provide m r).2.serveEach m rest := by
  rw [serveEach]
  generalize v.provide m r = y at hnone
  obtain ⟨_, u⟩ := y
  subst hnone
  rfl

theorem serveEach_of_some (hsome : (v.provide m r).1 = some g) :
    v.serveEach m ((id, r) :: rest) = ((v.provide m r).2.grant id g).serveEach m rest := by
  rw [serveEach]
  generalize v.provide m r = y at hsome
  obtain ⟨_, u⟩ := y
  subst hsome
  rfl

theorem serveAll_rests (h : Sound held w.pool) (hround : w.Round blocked rest)
    (hwait : ∀ x ∈ rest, x.1 ∈ (w.pool.lane x.2).queue) (hv : w.Rests v) :
    (w.serveAll m blocked rest).Rests (v.serveEach m rest) := by
  induction rest generalizing w v blocked with
  | nil => exact hv
  | cons x rest ih =>
    obtain ⟨id, r⟩ := x
    obtain ⟨hid, hrest⟩ := List.forall_mem_cons.1 hwait
    obtain ⟨hfound, hprovide⟩ := hv.provide (m := m) (r := r) h
    rw [serveAll]
    split
    · next hmem =>
      -- a route that is passed over is stuck, so to try it is to do nothing
      have hstuck := (hround.passed r hmem).resolve_left (List.ne_nil_of_mem hid)
      have hq : (v.pool.lane r).queue ≠ [] := hv.pool ▸ List.ne_nil_of_mem hid
      obtain ⟨hnone, hrests⟩ := provide_rests (m := m) (hv.pool ▸ hstuck)
      rw [change_openLane hq] at hrests
      rw [serveEach_of_none hnone]
      exact ih h (hround.pass hmem) hrest (hv.trans hrests)
    · next hmem =>
      rcases serve_round (m := m) (c := 0) h (hround.queue hmem) with
        ⟨g, u, hgrant, rfl, hgain, hhead, hqueue⟩ | ⟨u, hnone, hstuck, hgain⟩
      · have hone : Served m held 0 [(id, g)] w (u.grant id g) := .next hgain hhead (.rest .refl)
        have hu : Sound (g ::ₘ held) u.pool := Scene.IsSound.gains (s := ⟨held, 0, w⟩) h hgain
        rw [hgrant] at hfound hprovide
        rw [serveEach_of_some hfound]
        simp only [hgrant]
        refine ih (hone.sound h) (hround.serve hmem (hone.draws h) hqueue) (fun x hx => ?_)
          (hprovide.grant hu hhead)
        rw [hqueue]
        split
        · next heq => exact List.mem_map_of_mem (List.mem_filter.2 ⟨hx, by simpa using heq⟩)
        · exact hrest x hx
      · have hsame (s : Route) : (u.pool.lane s).queue = (w.pool.lane s).queue :=
          hgain.sameQueues.queue s
        rw [hnone] at hfound hprovide
        rw [serveEach_of_none hfound]
        simp only [hnone]
        exact ih (Scene.IsSound.gains (s := ⟨held, 0, w⟩) h hgain)
          (hround.block hgain.draws hsame hstuck) (fun x hx => hsame x.2 ▸ hrest x hx) hprovide

end Round

theorem mem_queue_of_mem_waiting (h : Sound held p) :
    ∀ x ∈ p.waiting, x.1 ∈ (p.lane x.2).queue :=
  fun x hx => h.queued.mem_queue.2 ((h.queued.pending x.1 x.2).1 hx)

theorem dispatch_rests_dispatchEach (h : Sound held w.pool) (m : Moment) (first : Option Route) :
    (w.dispatch m first).Rests (w.dispatchEach m first) := by
  cases first with
  | none => exact serveAll_rests h (round_waiting h) (mem_queue_of_mem_waiting h) (.refl w)
  | some r =>
    obtain ⟨l, hserved, -⟩ :=
      serve_served (m := m) (c := 0) (r := r) h (w.pool.lane r).queue.length
    have hsound := hserved.sound h
    exact serveAll_rests hsound (round_serve h) (mem_queue_of_mem_waiting hsound) (.refl _)

/-! Where nobody waits in vain there is nothing to do. -/

theorem serveAll_rests_of_settled (hs : w.pool.Settled) {blocked : List Route}
    {rest : List (RequestId × Route)} (hround : w.Round blocked rest) :
    w.Rests (w.serveAll m blocked rest) := by
  induction rest generalizing w blocked with
  | nil => exact .refl w
  | cons x rest ih =>
    obtain ⟨id, r⟩ := x
    obtain ⟨blocked', u, heq, hrests, hround'⟩ := serveAll_quiet (m := m) hround (hs.quiet r)
    rw [heq]
    exact hrests.trans (ih (hrests.pool ▸ hs) hround')

theorem dispatch_rests (h : Sound held w.pool) (hs : w.pool.Settled) (m : Moment)
    (first : Option Route) : w.Rests (w.dispatch m first) := by
  cases first with
  | none => exact serveAll_rests_of_settled hs (round_waiting h)
  | some r =>
    have hserve := serve_quiet (m := m) (hs.quiet r) (w.pool.lane r).queue.length
    have hs' : (w.serve m r (w.pool.lane r).queue.length).pool.Settled := by rwa [hserve.pool]
    exact hserve.trans (serveAll_rests_of_settled hs' (round_serve h))

/-- A dispatch does what trying every request that waits would do, in the same order.  After it nothing
can be done for anybody: another dispatch, at whatever moment and whoever comes first, does nothing, and
for nobody who waits is anything found. -/
theorem dispatch_exhaustive (h : Sound held w.pool) (m : Moment) (first : Option Route) :
    let v := w.dispatch m first
    let u := w.dispatchEach m first
    (v.pool = u.pool ∧ v.closing = u.closing ∧ v.deeds = u.deeds) ∧
      ∀ m' first',
        let x := v.dispatch m' first'
        (x.pool = v.pool ∧ x.closing = v.closing ∧ x.deeds = v.deeds) ∧
          ∀ r, (v.pool.lane r).queue ≠ [] → (v.provide m' r).1 = none := by
  intro v u
  obtain ⟨l, hserved, -⟩ := dispatch_served (m := m) (c := 0) h first
  have hv : Sound held v.pool := hserved.sound h
  have hsettled : v.pool.Settled := dispatch_settled h first
  obtain ⟨hpool, hclosing, hdeeds⟩ := dispatch_rests_dispatchEach h m first
  refine ⟨⟨hpool.symm, hclosing.symm, hdeeds.symm⟩, fun m' first' => ⟨?_, fun r hr => ?_⟩⟩
  · obtain ⟨hpool, hclosing, hdeeds⟩ := dispatch_rests hv hsettled m' first'
    exact ⟨hpool, hclosing, hdeeds⟩
  · exact (provide_of_stuck m' (hsettled r hr)).1

theorem dispatch_exhaustive_raised :
    let ops := Sample.waits ++ (List.replicate 3 (.lease Sample.otherRoute none)).map
      (Prod.mk Sample.calm)
    let t := ((Life.start Sample.conf).run ops).tenancy.relimit fun k => { k with perRoute := 3 }
    let w : Work := { pool := t.pool }
    let v := w.dispatch Sample.calm none
    Sound t.out w.pool ∧ v.handed = [(Sample.route, ⟨5⟩), (Sample.otherRoute, ⟨6⟩)] ∧
      v.pool = (w.dispatchEach Sample.calm none).pool ∧
      (v.dispatch Sample.calm (some Sample.route)).pool = v.pool := by
  intro ops t w v
  have h : Sound t.out w.pool := (Tenancy.relimit_sound (Life.run_sound _ ops) _).sound
  obtain ⟨⟨hpool, -⟩, hagain⟩ := dispatch_exhaustive h Sample.calm none
  exact ⟨h, by decide, hpool, (hagain Sample.calm (some Sample.route)).1.1⟩

end Work

end ConnectionPool
