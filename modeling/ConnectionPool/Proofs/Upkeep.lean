import ConnectionPool.Proofs.Return

namespace ConnectionPool

variable {held : Multiset Grant} {c : Multiset Conn} {p q : Pool} {w : Work} {e : Idle} {r : Route}
  {m : Moment}

namespace Pool

theorem setLane_setLane (r : Route) (l l' : Lane) :
    (p.setLane r l).setLane r l' = p.setLane r l' :=
  congrArg (fun ls => { p with lanes := ls }) (Table.put_put p.lanes r l l')

def takeOutAll (r : Route) (es : List Idle) (p : Pool) : Pool :=
  { p.updateLane r fun l => { l with available := l.available.diff es } with
    idle := es.foldl (fun i e => i.drop e.record.id) p.idle }

theorem takeOutAll_nil (r : Route) (p : Pool) : p.takeOutAll r [] = p.openLane r := rfl

theorem takeOutAll_cons (h : Sound held p) {es : List Idle}
    (he : e ∈ (p.lane e.record.route).available) :
    (p.takeOut e).takeOutAll e.record.route es = p.takeOutAll e.record.route (e :: es) := by
  have hidle : p.idle.drop e.record.id = p.idle.erase e.mark :=
    Recency.drop_eq_erase h.idle_ids (h.mark_mem (h.mem_stock.2 he))
  have hlane := lane_takeOut (p := p) (e := e) e.record.route
  rw [if_pos rfl] at hlane
  have hset := setLane_setLane (p := p) e.record.route
    { p.lane e.record.route with available := (p.lane e.record.route).available.erase e }
  unfold takeOutAll updateLane
  rw [hlane, List.foldl_cons, hidle]
  simp only [List.diff_cons]
  rw [← hset]
  rfl

end Pool

namespace Work

theorem takeOutAll_sheds (h : Sound held w.pool) {es : List Idle} (hn : es.Nodup)
    (hes : ∀ e ∈ es, e ∈ (w.pool.lane r).available) :
    Sheds ⟨held, c, w⟩ ⟨held, c,
      { w with pool := w.pool.takeOutAll r es, closing := w.closing ++ es.map Idle.conn }⟩ := by
  induction es generalizing w with
  | nil =>
    rw [Pool.takeOutAll_nil, List.map_nil, List.append_nil]
    exact .single (shed_openLane r)
  | cons e es ih =>
    have he := hes e List.mem_cons_self
    obtain rfl : e.record.route = r := h.home r e he
    rw [List.nodup_cons] at hn
    have hrest : ∀ d ∈ es, d ∈ ((w.pool.takeOut e).lane e.record.route).available := by
      intro d hd
      rw [Pool.lane_takeOut, if_pos rfl]
      have hne : d ≠ e := fun heq => hn.1 (heq ▸ hd)
      exact (List.mem_erase_of_ne hne).2 (hes d (List.mem_cons_of_mem _ hd))
    have hstep := ih (w := (w.change (Pool.takeOut e)).close e.conn) (h.takeOut he) hn.2 hrest
    rw [← Pool.takeOutAll_cons h he, List.map_cons, List.append_cons]
    exact .head (.close he) hstep

theorem sweepRoute_eq (h : Sound held w.pool) (f : Idle → Bool) (r : Route) :
    w.sweepRoute f r = { w with
      pool := w.pool.takeOutAll r ((w.pool.lane r).available.filter f)
      closing := w.closing ++ ((w.pool.lane r).available.filter f).map Idle.conn } := by
  have hn : (w.pool.lane r).available.Nodup := (h.available_ids r).of_map
  have hkept : (w.pool.lane r).available.diff ((w.pool.lane r).available.filter f) =
      (w.pool.lane r).available.filter fun e => !f e := by
    rw [hn.sdiff_eq_filter]
    refine List.filter_congr fun e he => ?_
    simp [he]
  unfold sweepRoute
  simp only [List.partition_eq_filter_filter, Pool.takeOutAll, Pool.updateLane, hkept]
  rfl

theorem sweepRoute_sheds (h : Sound held w.pool) (f : Idle → Bool) (r : Route) :
    Sheds ⟨held, c, w⟩ ⟨held, c, w.sweepRoute f r⟩ := by
  have hn : (w.pool.lane r).available.Nodup := (h.available_ids r).of_map
  rw [sweepRoute_eq h]
  exact takeOutAll_sheds h (hn.filter f) fun e he => (List.mem_filter.1 he).1

theorem sweepAll_sheds (h : Sound held w.pool) (f : Idle → Bool) (rs : List Route) :
    Sheds ⟨held, c, w⟩ ⟨held, c, rs.foldl (fun w r => w.sweepRoute f r) w⟩ := by
  induction rs generalizing w with
  | nil => exact .refl
  | cons r rs ih =>
    have hr : Sheds ⟨held, c, w⟩ ⟨held, c, w.sweepRoute f r⟩ := sweepRoute_sheds h f r
    exact hr.trans (ih (Scene.IsSound.sheds (s := ⟨held, c, w⟩) h hr))

theorem closeOldest_cons (h : Sound held w.pool) (he : e ∈ (w.pool.lane e.record.route).available)
    (now : Instant) (span : Span) (ks : List Mark) :
    w.closeOldest now span (e.mark :: ks) =
      if span.hasPassed e.record.updated now then
        let y := ((w.change (Pool.pull e)).close e.conn).closeOldest now span ks
        (y.1 + 1, y.2)
      else (0, w) := by
  have hdrop : w.pool.idle.drop e.id = w.pool.idle.erase e.mark :=
    Recency.drop_eq_erase h.idle_ids (h.mark_mem (h.mem_stock.2 he))
  have htake : (w.pool.lane e.record.route).take? e.id = _ :=
    Lane.take?_eq (h.available_ids e.record.route) he
  have hlane (i : Recency) : ({ w.pool with idle := i } : Pool).lane e.record.route =
      w.pool.lane e.record.route := rfl
  have htaken (l : Lane) (hl : l = { w.pool.lane e.record.route with
        available := (w.pool.lane e.record.route).available.erase e }) :
      (w.change fun p => { p with idle := p.idle.drop e.id }).change
        (fun p => (p.setLane e.record.route l).prune e.record.route) = w.change (Pool.pull e) := by
    subst hl
    simp only [change, hdrop]
    rfl
  rw [closeOldest]
  simp only [pool_change, Idle.route_mark, Idle.id_mark, hlane, htake]
  rw [htaken _ rfl]
  rfl

theorem closeOldest_sheds (h : Sound held w.pool) (now : Instant) (span : Span) {ms : List Mark}
    (hi : w.pool.idle = ms) :
    Sheds ⟨held, c, w⟩ ⟨held, c, (w.closeOldest now span ms).2⟩ := by
  induction ms generalizing w with
  | nil => exact .refl
  | cons k ms ih =>
    obtain ⟨e, hstock, rfl⟩ := h.exists_of_mark (m := k) (by simp [hi])
    have he := h.mem_stock.1 hstock
    rw [closeOldest_cons h he]
    split
    · exact (sheds_pull he).trans
        (ih (w := (w.change (Pool.pull e)).close e.conn) (h.pull he) (Pool.idle_pull_of_head hi))
    · exact .refl

section Trim

variable {u v : Work}

theorem trim_trades (h : Sound held w.pool) (hv : Sheds ⟨held, c, w⟩ ⟨held, c, v⟩)
    (hu : u = v ∨ u = v.dispatch m none) : Trades m ⟨held, c, w⟩ ⟨held, c, u⟩ := by
  have hshed : Trades m ⟨held, c, w⟩ ⟨held, c, v⟩ := hv.gains.serves.trades
  rcases hu with rfl | rfl
  · exact hshed
  · exact dispatch_tail (s := ⟨held, c, w⟩) h none hshed

theorem trim_settled (h : Sound held w.pool) (hv : Sheds ⟨held, c, w⟩ ⟨held, c, v⟩)
    (hu : u = v ∨ u = v.dispatch m none) (hs : w.pool.Settled) : u.pool.Settled := by
  rcases hu with rfl | rfl
  · exact Pool.Settled.gains (m := m) (s := ⟨held, c, w⟩) hs hv.gains
  · exact dispatch_settled (Scene.IsSound.sheds (s := ⟨held, c, w⟩) h hv) none

end Trim

def swept (m : Moment) (w : Work) : Work :=
  (w.pool.lanes.keys.foldl (fun w r => w.sweepRoute (·.record.isExpired m.now) r) w).change
    Pool.pruneAll

theorem swept_sheds (h : Sound held w.pool) : Sheds ⟨held, c, w⟩ ⟨held, c, w.swept m⟩ := by
  have hsweep : Sheds ⟨held, c, w⟩ ⟨held, c, _⟩ :=
    sweepAll_sheds h (·.record.isExpired m.now) w.pool.lanes.keys
  have htidy := (Scene.IsSound.sheds (s := ⟨held, c, w⟩) h hsweep).tidy
  exact hsweep.tail (.relane Pool.pruneAll (Pool.relanes_pruneAll htidy))

theorem closeExpired_eq (m : Moment) (w : Work) : w.closeExpired m =
    let n := (w.swept m).closing.length - w.closing.length
    if n = 0 then w.swept m else ((w.swept m).note (.closeExpired n)).dispatch m none := rfl

theorem closeExpired_sheds (h : Sound held w.pool) :
    ∃ v, Sheds ⟨held, c, w⟩ ⟨held, c, v⟩ ∧
      (w.closeExpired m = v ∨ w.closeExpired m = v.dispatch m none) := by
  have hswept : Sheds ⟨held, c, w⟩ ⟨held, c, w.swept m⟩ := swept_sheds h
  rw [closeExpired_eq]
  dsimp only
  split
  · exact ⟨_, hswept, .inl rfl⟩
  · exact ⟨_, hswept.tail (shed_note _ rfl), .inr rfl⟩

theorem closeIdle_sheds (h : Sound held w.pool) (span : Span) :
    ∃ v, Sheds ⟨held, c, w⟩ ⟨held, c, v⟩ ∧
      (w.closeIdle m span = v ∨ w.closeIdle m span = v.dispatch m none) := by
  have hsweep : Sheds ⟨held, c, w⟩ ⟨held, c, _⟩ := closeOldest_sheds h m.now span rfl
  unfold closeIdle
  split
  next count v heq =>
  rw [heq] at hsweep
  split
  · exact ⟨_, hsweep, .inl rfl⟩
  · exact ⟨_, hsweep.tail (shed_note _ rfl), .inr rfl⟩

end Work

end ConnectionPool
