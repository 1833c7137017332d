import ConnectionPool.Proofs.Life

namespace ConnectionPool

variable {held : Multiset Grant} {c : Multiset Conn} {p q : Pool} {w u : Work} {g : Grant} {e : Idle}
  {id : RequestId} {r s : Route} {l : Lane} {m : Moment} {t : Tenancy} {o : Op} {made : List Conn}

namespace Pool

def vacant (p : Pool) : Set Route := {r | p.lanes.get? r = some {}}

theorem lane_of_vacant (h : r ∈ p.vacant) : p.lane r = {} := by
  have hr : p.lanes.get? r = some {} := h
  rw [lane, hr, Option.getD_some]

theorem pruned_iff (hp : p.Tidy) : p.Pruned ↔ p.vacant = ∅ := by
  rw [Set.eq_empty_iff_forall_notMem]
  constructor
  · exact fun h r hr => h (r, {}) (Table.mem_of_get?_eq_some hr) rfl
  · intro h x hx hbare
    have hget := Table.get?_eq_some_of_mem hp hx
    rw [Lane.isBare_iff.1 hbare] at hget
    exact h x.1 hget

theorem vacant_setLane (r : Route) (l : Lane) (p : Pool) :
    (p.setLane r l).vacant ⊆ insert r p.vacant := by
  intro s hs
  by_cases hr : r = s
  · exact .inl hr.symm
  · refine .inr ?_
    change (p.lanes.put r l).get? s = _ at hs
    rwa [Table.get?_put_of_ne _ _ hr] at hs

theorem vacant_prune (r : Route) (p : Pool) : (p.prune r).vacant = p.vacant \ {r} := by
  ext s
  simp only [Set.mem_sdiff, Set.mem_singleton_iff]
  unfold prune
  split
  · by_cases hs : r = s
    · subst hs
      simp [vacant]
    · simp [vacant, hs, Ne.symm hs]
  · next hbare =>
    -- a lane that stays has something in it
    have hr : r ∉ p.vacant := by
      intro hr
      have hget : p.lanes.get? r = some {} := hr
      simp [hget, Lane.isBare] at hbare
    exact ⟨fun hs => ⟨hs, fun heq => hr (heq ▸ hs)⟩, And.left⟩

theorem vacant_pruneAll (p : Pool) : p.pruneAll.vacant = ∅ := by
  rw [Set.eq_empty_iff_forall_notMem]
  intro r hr
  have hmem := (List.mem_filter.1 (Table.mem_of_get?_eq_some hr)).2
  simp [Lane.isBare] at hmem

theorem vacant_prune_subset (h : q.vacant ⊆ insert r p.vacant) : (q.prune r).vacant ⊆ p.vacant := by
  rw [vacant_prune]
  rintro s ⟨hs, hne⟩
  exact (h hs).resolve_left hne

theorem vacant_of_lane (h : q.vacant ⊆ insert r p.vacant) (hr : q.lane r ≠ {}) :
    q.vacant ⊆ p.vacant := by
  intro s hs
  refine (h hs).resolve_left ?_
  rintro rfl
  exact hr (lane_of_vacant hs)

theorem vacant_trans (h : p.vacant ⊆ insert r u.pool.vacant) (k : q.vacant ⊆ insert r p.vacant) :
    q.vacant ⊆ insert r u.pool.vacant :=
  k.trans (Set.insert_subset (Set.mem_insert r _) h)

theorem vacant_setLane_of_ne (r : Route) (p : Pool) (hl : l ≠ {}) :
    (p.setLane r l).vacant ⊆ p.vacant :=
  vacant_of_lane (vacant_setLane r l p) (by rwa [lane_setLane_self])

theorem vacant_lease (t : Record) (p : Pool) : (p.lease t).vacant ⊆ p.vacant := by
  refine vacant_setLane_of_ne t.route p fun hl => ?_
  have hmem : t.id ∈ (p.lane t.route).leased.insert t.id := List.mem_insert_self
  have hnil : (p.lane t.route).leased.insert t.id = [] := congrArg Lane.leased hl
  simp [hnil] at hmem

theorem vacant_enqueue (id : RequestId) (r : Route) (p : Pool) :
    (p.enqueue id r).vacant ⊆ p.vacant :=
  vacant_setLane_of_ne r p fun hl => by simpa [Lane.enqueue] using congrArg Lane.queue hl

theorem vacant_takeOut (e : Idle) (p : Pool) :
    (p.takeOut e).vacant ⊆ insert e.record.route p.vacant :=
  vacant_setLane ..

theorem vacant_freed (t : Record) (p : Pool) : (p.freed t).vacant ⊆ insert t.route p.vacant :=
  vacant_setLane ..

theorem vacant_withdraw (id : RequestId) (rs : Table RequestId Slot) (p : Pool) :
    vacant { p.withdraw id with requests := rs } ⊆ p.vacant := by
  change (p.withdraw id).vacant ⊆ p.vacant
  unfold withdraw
  split
  · exact vacant_prune_subset (vacant_setLane ..)
  · exact Set.Subset.rfl

end Pool

namespace Work

theorem vacant_reuse (h : Sound held w.pool) {es : List Idle}
    (hes : (w.pool.lane r).available = es) :
    (w.reuse m r es).2.pool.vacant ⊆ insert r w.pool.vacant := by
  induction es generalizing w with
  | nil => exact Set.subset_insert ..
  | cons e es ih =>
    obtain rfl : e.record.route = r := h.home r e (by simp [hes])
    have hout := Pool.vacant_takeOut e w.pool
    rw [reuse_cons h rfl hes]
    split
    · exact (Pool.vacant_lease e.record (w.pool.takeOut e)).trans hout
    · refine Pool.vacant_trans hout (ih (h.takeOut (by simp [hes])) ?_)
      change ((w.pool.takeOut e).lane e.record.route).available = es
      rw [Pool.lane_takeOut, if_pos rfl, hes, List.erase_cons_head]

theorem vacant_evict (w : Work) : w.evict.2.pool.vacant ⊆ w.pool.vacant := by
  unfold evict
  split
  · exact Set.Subset.rfl
  · next oldest rest _ =>
    dsimp only
    split
    · exact Pool.vacant_prune_subset (Pool.vacant_setLane ..)
    · exact Pool.vacant_prune_subset (Set.subset_insert ..)

theorem vacant_makeRoom (r : Route) (n : Nat) (w : Work) :
    (w.makeRoom r n).2.pool.vacant ⊆ w.pool.vacant := by
  induction n generalizing w with
  | zero =>
    rw [makeRoom.eq_def]
    dsimp only
    split
    · exact Set.Subset.rfl
    · exact vacant_evict w
  | succ n ih =>
    have hevict := vacant_evict w
    rw [makeRoom.eq_def]
    dsimp only
    split
    · exact Set.Subset.rfl
    · generalize w.evict = x at hevict
      obtain ⟨d, v⟩ := x
      cases d with
      | none => exact hevict
      | some e => exact (ih _).trans hevict

theorem vacant_seek (h : Sound held w.pool) :
    (w.seek m r).2.pool.vacant ⊆ insert r w.pool.vacant := by
  have hreuse := vacant_reuse (m := m) h (r := r) rfl
  unfold seek
  generalize w.reuse m r (w.pool.lane r).available = x at hreuse
  obtain ⟨d, v⟩ := x
  cases d with
  | some e => exact hreuse
  | none =>
    have hroom := (vacant_makeRoom r v.pool.idle.length v).trans hreuse
    dsimp only
    split
    · exact hreuse
    · generalize v.makeRoom r v.pool.idle.length = y at hroom
      obtain ⟨room, v'⟩ := y
      cases room with
      | false => exact hroom
      | true => exact (Pool.vacant_lease ..).trans hroom

theorem vacant_provide (h : Sound held w.pool) :
    (w.provide m r).2.pool.vacant ⊆ insert r w.pool.vacant := by
  have hopen : (w.pool.openLane r).vacant ⊆ insert r w.pool.vacant := Pool.vacant_setLane ..
  have hseek := vacant_seek (m := m) (r := r) (w := w.change (Pool.openLane r)) (h.openLane r)
  exact Pool.vacant_trans (p := w.pool.openLane r) hopen hseek

theorem vacant_grant (hid : w.pool.requests.get? id = some { route := r }) :
    (w.grant id g).pool.vacant ⊆ w.pool.vacant := by
  rw [grant_eq g hid]
  exact Pool.vacant_withdraw ..

theorem vacant_found (h : Sound held w.pool) (hprovide : w.provide m r = (some g, u))
    (hroute : g.record.route = r) (hgain : Gains m ⟨held, c, w⟩ ⟨g ::ₘ held, c, u⟩)
    (hopen : w.pool.isShut = false) : u.pool.vacant ⊆ w.pool.vacant := by
  have hu : Sound (g ::ₘ held) u.pool := Scene.IsSound.gains (s := ⟨held, c, w⟩) h hgain
  have hleased := hu.mem_leased (hgain.draws.isShut.trans hopen)
  have hvacant := vacant_provide (m := m) (r := r) h
  rw [hprovide] at hvacant
  refine Pool.vacant_of_lane hvacant fun hl => ?_
  rw [hroute, hl] at hleased
  exact List.not_mem_nil hleased

theorem vacant_served (h : Sound held w.pool) (hprovide : w.provide m g.record.route = (some g, u))
    (hgain : Gains m ⟨held, c, w⟩ ⟨g ::ₘ held, c, u⟩)
    (hid : (u.pool.lane g.record.route).queue.head? = some id) :
    (u.grant id g).pool.vacant ⊆ w.pool.vacant := by
  have hu : Sound (g ::ₘ held) u.pool := Scene.IsSound.gains (s := ⟨held, c, w⟩) h hgain
  have hopen : u.pool.isShut = false :=
    hu.isShut_eq_false_of_queue (r := g.record.route) fun hq => by simp [hq] at hid
  have hfound := vacant_found h hprovide rfl hgain (hgain.draws.isShut.symm.trans hopen)
  exact (vacant_grant (hu.head_pending hid)).trans hfound

theorem vacant_not_served (h : Sound held w.pool) (hprovide : w.provide m r = (none, u))
    (hgain : Gains m ⟨held, c, w⟩ ⟨held, c, u⟩) (hq : (w.pool.lane r).queue ≠ []) :
    u.pool.vacant ⊆ w.pool.vacant := by
  have hvacant := vacant_provide (m := m) (r := r) h
  have hqueue : (u.pool.lane r).queue = (w.pool.lane r).queue := hgain.sameQueues.queue r
  rw [hprovide] at hvacant
  refine Pool.vacant_of_lane hvacant fun hl => hq ?_
  rw [← hqueue, hl]

theorem vacant_serve (h : Sound held w.pool) (n : Nat) :
    (w.serve m r n).pool.vacant ⊆ w.pool.vacant := by
  induction n generalizing w with
  | zero => exact Set.Subset.rfl
  | succ n ih =>
    rw [serve]
    cases hq : (w.pool.lane r).queue with
    | nil => exact Set.Subset.rfl
    | cons id ids =>
      rcases serve_round (m := m) (c := 0) h hq with
        ⟨g, u, hprovide, rfl, hgain, hid, -⟩ | ⟨u, hprovide, -, hgain⟩
      · simp only [hprovide]
        exact (ih (Served.sound_grant h hgain hid)).trans (vacant_served h hprovide hgain hid)
      · simp only [hprovide]
        exact vacant_not_served h hprovide hgain (by simp [hq])

theorem vacant_serveAll (h : Sound held w.pool) {blocked : List Route}
    {rest : List (RequestId × Route)} (hround : w.Round blocked rest) :
    (w.serveAll m blocked rest).pool.vacant ⊆ w.pool.vacant := by
  induction rest generalizing w blocked with
  | nil => exact Set.Subset.rfl
  | cons x rest ih =>
    obtain ⟨id, r⟩ := x
    rw [serveAll]
    split
    · next hmem => exact ih h (hround.pass hmem)
    · next hmem =>
      have hq := hround.queue hmem
      rcases serve_round (m := m) (c := 0) h hq with
        ⟨g, u, hprovide, rfl, hgain, hid, hqueue⟩ | ⟨u, hprovide, hstuck, hgain⟩
      · have hone : Served m held 0 [(id, g)] w (u.grant id g) := .next hgain hid (.rest .refl)
        simp only [hprovide]
        exact (ih (hone.sound h) (hround.serve hmem (hone.draws h) hqueue)).trans
          (vacant_served h hprovide hgain hid)
      · simp only [hprovide]
        exact (ih (Scene.IsSound.gains (s := ⟨held, 0, w⟩) h hgain)
          (hround.block hgain.draws hgain.sameQueues.queue hstuck)).trans
          (vacant_not_served h hprovide hgain (by simp [hq]))

theorem vacant_dispatch (h : Sound held w.pool) (first : Option Route) :
    (w.dispatch m first).pool.vacant ⊆ w.pool.vacant := by
  cases first with
  | none => exact vacant_serveAll h (round_waiting h)
  | some r =>
    obtain ⟨l, hserved, -⟩ :=
      serve_served (m := m) (c := 0) (r := r) h (w.pool.lane r).queue.length
    exact (vacant_serveAll (hserved.sound h) (round_serve h)).trans (vacant_serve h _)

theorem vacant_lease (h : Sound held w.pool) : (w.lease m r).2.pool.vacant ⊆ w.pool.vacant := by
  cases hshut : w.pool.isShut with
  | true =>
    have hstay : (w.lease m r).2 = w := by simp [lease, hshut]
    rw [hstay]
  | false =>
    have hnumbered := numbered_sound h
    by_cases hq : (w.pool.lane r).queue = []
    · have hvacant := vacant_provide (m := m) (r := r) hnumbered
      rcases provide_moves (m := m) (c := 0) (r := r) hnumbered hshut with
        ⟨g, u, hprovide, hroute, hgain⟩ | ⟨u, hprovide, -⟩
      · have hfound := vacant_found hnumbered hprovide hroute hgain hshut
        rw [lease_of_some hshut hq hprovide hroute]
        exact hfound
      · rw [hprovide] at hvacant
        rw [lease_of_none hshut hq hprovide]
        -- the request waits in the lane that was opened for it
        refine Pool.vacant_of_lane (r := r) ((Pool.vacant_enqueue _ r u.pool).trans hvacant) ?_
        intro hl
        change (u.pool.setLane r _).lane r = {} at hl
        rw [Pool.lane_setLane_self] at hl
        simpa [Lane.enqueue] using congrArg Lane.queue hl
    · rw [lease_of_queue hshut hq]
      exact Pool.vacant_enqueue _ r w.numbered.pool

theorem vacant_cancel (id : RequestId) (w : Work) :
    (w.cancel id).2.pool.vacant ⊆ w.pool.vacant := by
  by_cases hid : ∃ r, w.pool.requests.get? id = some { route := r }
  · obtain ⟨r, hid⟩ := hid
    rw [cancel_eq hid]
    exact Pool.vacant_withdraw ..
  · rw [cancel_of_not_pending (not_exists.1 hid)]

theorem vacant_receive (reusable : Bool) (v : Option Span) (w : Work) :
    (w.receive m e reusable v).pool.vacant ⊆ insert e.record.route w.pool.vacant := by
  have hfreed := Pool.vacant_freed e.record w.pool
  have hkeep (u : Work) (hu : u.pool.vacant ⊆ insert e.record.route w.pool.vacant) :
      (u.keep m e.record e.conn v).pool.vacant ⊆ insert e.record.route w.pool.vacant :=
    Pool.vacant_trans hu (Pool.vacant_setLane ..)
  unfold receive
  dsimp only
  split_ifs
  · exact hkeep _ hfreed
  · exact hkeep _ hfreed
  all_goals exact hfreed

theorem vacant_takeBack (h : Sound (.reuse e ::ₘ held) w.pool) (reusable : Bool)
    (v : Option Span) :
    (w.takeBack m e.record e.conn reusable v).2.pool.vacant ⊆ w.pool.vacant := by
  cases hshut : w.pool.isShut with
  | true =>
    rw [takeBack_of_shut hshut]
    exact Set.Subset.rfl
  | false =>
    have hsound : Sound held (w.receive m e reusable v).pool :=
      Scene.IsSound.trades (m := m) (s := ⟨.reuse e ::ₘ held, 0, w⟩) h
        (receive_trades hshut reusable v)
    rw [takeBack_eq h hshut]
    exact Pool.vacant_prune_subset
      ((vacant_dispatch hsound _).trans (vacant_receive reusable v w))

theorem vacant_vacate {t : Record} (h : Sound (.create t ::ₘ held) w.pool) :
    (w.vacate m t).pool.vacant ⊆ w.pool.vacant := by
  cases hshut : w.pool.isShut with
  | true => rw [vacate_of_shut hshut]
  | false =>
    rw [vacate_eq h hshut]
    exact Pool.vacant_prune_subset ((vacant_dispatch (w := { w with pool := w.pool.freed t })
      (h.freed (h.mem_leased hshut)) _).trans (Pool.vacant_freed t w.pool))

theorem vacant_putBack (h : Sound (.reuse e ::ₘ held) w.pool) :
    (w.putBack e).pool.vacant ⊆ w.pool.vacant := by
  cases hshut : w.pool.isShut with
  | true =>
    have hback : w.putBack e = w.close e.conn := by simp [putBack, Pool.unlease?, hshut]
    rw [hback]
    exact Set.Subset.rfl
  | false =>
    rw [h.putBack_eq hshut]
    refine Pool.vacant_of_lane (r := e.record.route)
      (Pool.vacant_trans (u := w) (Pool.vacant_freed e.record w.pool) (Pool.vacant_setLane ..)) ?_
    change ((w.pool.freed e.record).setLane _ _).lane e.record.route ≠ {}
    rw [Pool.lane_setLane_self]
    intro hl
    simpa [Lane.reinsert] using congrArg Lane.available hl

theorem vacant_forget (h : Sound held w.pool) :
    (w.forget m id).pool.vacant ⊆ w.pool.vacant := by
  cases hid : w.pool.requests.get? id with
  | none => rw [forget_of_none hid]
  | some s =>
    obtain ⟨r, o⟩ := s
    cases o with
    | pending =>
      rw [forget_pending hid]
      exact Pool.vacant_withdraw ..
    | failed f =>
      rw [forget_failed hid]
      exact Set.Subset.rfl
    | granted g =>
      cases g with
      | reuse e =>
        have hsound := uncollected_sound h hid
        have hback : Sound held ((w.uncollected id e).putBack e).pool :=
          Scene.IsSound.moves (m := m) (s := ⟨.reuse e ::ₘ held, 0, w.uncollected id e⟩) hsound
            (putBack_moves e)
        rw [forget_reuse hid]
        exact (vacant_dispatch hback _).trans (vacant_putBack hsound)
      | create t =>
        have hsound := h.collect hid rfl
        rw [Slot.grants_granted, Multiset.singleton_add] at hsound
        rw [forget_create hid]
        exact vacant_vacate (w := (w.cleared id).note (.dropReserved id t.id)) hsound

theorem vacant_shrinkLane (r : Route) (max n : Nat) (w : Work) :
    (w.shrinkLane r max n).pool.vacant ⊆ insert r w.pool.vacant := by
  induction n generalizing w with
  | zero => exact Set.subset_insert ..
  | succ n ih =>
    rw [shrinkLane]
    split
    · split
      · exact Pool.vacant_trans (u := w) (Pool.vacant_setLane ..) (ih _)
      · exact Set.subset_insert ..
    · exact Set.subset_insert ..

theorem vacant_shrinkRoute (max : Nat) (r : Route) (w : Work) :
    (w.shrinkRoute max r).pool.vacant ⊆ w.pool.vacant :=
  Pool.vacant_prune_subset (vacant_shrinkLane ..)

theorem vacant_shrinkAll (max : Nat) (rs : List Route) (w : Work) :
    (rs.foldl (fun w r => w.shrinkRoute max r) w).pool.vacant ⊆ w.pool.vacant := by
  induction rs generalizing w with
  | nil => exact Set.Subset.rfl
  | cons r rs ih => exact (ih _).trans (vacant_shrinkRoute max r w)

theorem vacant_shrinkTotal (n : Nat) (w : Work) :
    (w.shrinkTotal n).pool.vacant ⊆ w.pool.vacant := by
  induction n generalizing w with
  | zero => exact Set.Subset.rfl
  | succ n ih =>
    have hevict := vacant_evict w
    rw [shrinkTotal]
    split
    · generalize w.evict = x at hevict
      obtain ⟨d, v⟩ := x
      cases d with
      | none => exact hevict
      | some e => exact (ih _).trans hevict
    · exact Set.Subset.rfl

theorem vacant_dispatch_of_sheds (h : Sound held w.pool) (hsheds : Sheds ⟨held, 0, w⟩ ⟨held, 0, u⟩)
    (hu : u.pool.vacant ⊆ w.pool.vacant) (first : Option Route) :
    (u.dispatch m first).pool.vacant ⊆ w.pool.vacant :=
  (vacant_dispatch (Scene.IsSound.sheds (s := ⟨held, 0, w⟩) h hsheds) first).trans hu

theorem vacant_setMaxTotal (h : Sound held w.pool) (max : Nat) :
    (w.setMaxTotal m max).2.pool.vacant ⊆ w.pool.vacant := by
  unfold setMaxTotal
  split
  · exact Set.Subset.rfl
  · have hlimits := changeLimits_sound h ({ · with total := max })
    obtain ⟨hsheds, -⟩ := shrinkTotal_sheds (c := 0) hlimits _ le_rfl
    exact vacant_dispatch_of_sheds (w := w.changeLimits ({ · with total := max })) hlimits hsheds
      (vacant_shrinkTotal _ _) none

theorem vacant_setDefaultMax (h : Sound held w.pool) (max : Nat) :
    (w.setDefaultMax m max).2.pool.vacant ⊆ w.pool.vacant := by
  unfold setDefaultMax
  split
  · exact Set.Subset.rfl
  · have hlimits := changeLimits_sound h ({ · with perRoute := max })
    exact vacant_dispatch_of_sheds (w := w.changeLimits ({ · with perRoute := max })) hlimits
      (shrinkAll_sheds (c := 0) hlimits max _).1 (vacant_shrinkAll max _ _) none

theorem vacant_setMaxFor (h : Sound held w.pool) (r : Route) (max : Nat) :
    (w.setMaxFor m r max).2.pool.vacant ⊆ w.pool.vacant := by
  unfold setMaxFor
  split
  · exact Set.Subset.rfl
  · let f (l : Limits) : Limits := { l with overrides := l.overrides.put r max }
    have hlimits := changeLimits_sound h f
    exact vacant_dispatch_of_sheds (w := w.changeLimits f) hlimits
      (shrinkRoute_sheds (c := 0) hlimits max r).1 (vacant_shrinkRoute max r _) (some r)

theorem vacant_closeExpired (h : Sound held w.pool) :
    (w.closeExpired m).pool.vacant ⊆ w.pool.vacant := by
  have hswept : (w.swept m).pool.vacant ⊆ w.pool.vacant :=
    (Pool.vacant_pruneAll _).subset.trans (Set.empty_subset _)
  rw [closeExpired_eq]
  dsimp only
  split
  · exact hswept
  · exact vacant_dispatch_of_sheds h ((swept_sheds h).tail (shed_note _ rfl)) hswept none

theorem vacant_closeOldest (now : Instant) (span : Span) (ks : List Mark) (w : Work) :
    (w.closeOldest now span ks).2.pool.vacant ⊆ w.pool.vacant := by
  induction ks generalizing w with
  | nil => exact Set.Subset.rfl
  | cons k ks ih =>
    rw [closeOldest]
    split
    · dsimp only
      split
      · exact (ih _).trans (Pool.vacant_prune_subset (Pool.vacant_setLane ..))
      · exact (ih _).trans (Pool.vacant_prune_subset (Set.subset_insert ..))
    · exact Set.Subset.rfl

theorem vacant_closeIdle (h : Sound held w.pool) (span : Span) :
    (w.closeIdle m span).pool.vacant ⊆ w.pool.vacant := by
  have hclosed := vacant_closeOldest m.now span w.pool.idle w
  have hsheds : Sheds ⟨held, 0, w⟩ ⟨held, 0, _⟩ := closeOldest_sheds h m.now span rfl
  unfold closeIdle
  generalize w.closeOldest m.now span w.pool.idle = x at hclosed hsheds
  obtain ⟨count, v⟩ := x
  dsimp only
  split
  · exact hclosed
  · exact vacant_dispatch_of_sheds h (hsheds.tail (shed_note _ rfl)) hclosed none

theorem vacant_shutDown (w : Work) : w.shutDown.2.pool.vacant ⊆ w.pool.vacant := by
  cases hshut : w.pool.isShut with
  | true => rw [shutDown_of_shut hshut]
  | false =>
    rw [pool_shutDown hshut]
    exact fun r hr => absurd hr (by simp [Pool.vacant, Pool.torn])

end Work

namespace Tenancy

theorem vacant_collect (id : RequestId) (t : Tenancy) :
    (t.collect id).tenancy.pool.vacant = t.pool.vacant := by
  cases hid : t.pool.requests.get? id with
  | none =>
    obtain ⟨a, ha⟩ := collect_of_none hid
    rw [ha]
  | some s =>
    obtain ⟨r, o⟩ := s
    cases o with
    | pending => rw [collect_pending hid]
    | failed f => rw [collect_failed hid]; rfl
    | granted g =>
      cases g with
      | reuse e => rw [collect_reuse hid]; rfl
      | create s => rw [collect_create hid]; rfl

theorem vacant_look (id : RequestId) (last : Bool) (t : Tenancy) :
    (t.look id last).tenancy.pool.vacant ⊆ t.pool.vacant := by
  by_cases hid : ∃ r, t.pool.requests.get? id = some { route := r }
  · obtain ⟨r, hid⟩ := hid
    rw [look_pending last hid]
    cases last with
    | false => exact Set.Subset.rfl
    | true =>
      change (t.pool.timeOut id).2.vacant ⊆ _
      rw [Pool.timeOut_eq]
      exact Pool.vacant_withdraw ..
  · rw [look_of_not_pending last (not_exists.1 hid)]
    exact (vacant_collect id t).subset

theorem vacant_release (h : t.IsSound) (id : EntryId) (reusable : Bool) (v : Option Span) :
    (t.release m id reusable v).tenancy.pool.vacant ⊆ t.pool.vacant := by
  cases he : t.entries.get? id with
  | none =>
    obtain ⟨a, ha⟩ := release_of_none (m := m) he reusable v
    rw [ha]
  | some e =>
    rw [release_eq he]
    exact Work.vacant_takeBack (e := ⟨e.record, e.conn⟩) (w := { pool := t.pool })
      (out_remove h he ▸ h.sound) reusable v

/-- No operation leaves a new lane with nothing in it. -/
theorem act_vacant (h : t.IsSound) (hp : o.isPossible t made) :
    (t.act m o).tenancy.pool.vacant ⊆ t.pool.vacant := by
  cases o with
  | lease r timeout =>
    change (t.lease m r timeout).tenancy.pool.vacant ⊆ _
    rw [lease_pool]
    exact Work.vacant_lease (w := { pool := t.pool }) h.sound
  | get id last => exact vacant_look id last t
  | connected s x =>
    change (t.connected s x).tenancy.pool.vacant ⊆ _
    rw [connected_pool]
  | connectFailed s f =>
    have hs : s ∈ t.creating := of_decide_eq_true hp
    exact Work.vacant_vacate (w := (Work.mk t.pool [] []).note (.connectFailed s.route f))
      (out_erase hs ▸ h.sound)
  | cancel id => exact Work.vacant_cancel id { pool := t.pool }
  | dropRequest id => exact Work.vacant_forget (w := { pool := t.pool }) h.sound
  | release id reusable v => exact vacant_release h id reusable v
  | discard id => exact vacant_release h id false none
  | dropEntry id =>
    change (t.dropEntry m id).tenancy.pool.vacant ⊆ _
    by_cases he : t.entries.has id
    · rw [(dropEntry_of_has (m := m) (c := 0) he).1]
      exact vacant_release h id false none
    · rw [dropEntry_of_not_has he]
  | setMaxTotal max => exact Work.vacant_setMaxTotal (w := { pool := t.pool }) h.sound max
  | setDefaultMax max => exact Work.vacant_setDefaultMax (w := { pool := t.pool }) h.sound max
  | setMaxFor r max => exact Work.vacant_setMaxFor (w := { pool := t.pool }) h.sound r max
  | closeExpired => exact Work.vacant_closeExpired (w := { pool := t.pool }) h.sound
  | closeIdle span => exact Work.vacant_closeIdle (w := { pool := t.pool }) h.sound span
  | shutDown => exact Work.vacant_shutDown { pool := t.pool }

theorem act_pruned (h : t.IsSound) (hp : o.isPossible t made) (ht : t.pool.Pruned) :
    (t.act m o).tenancy.pool.Pruned := by
  rw [Pool.pruned_iff h.sound.tidy] at ht
  rw [Pool.pruned_iff (act_sound (m := m) h hp).sound.tidy]
  exact Set.subset_eq_empty (act_vacant h hp) ht

end Tenancy

/-- At all times each lane has something in it. -/
theorem Life.run_pruned (conf : Conf) (ops : List (Moment × Op)) :
    ((start conf).run ops).tenancy.pool.Pruned := by
  refine (run_induction (P := fun l => l.tenancy.IsSound ∧ l.tenancy.pool.Pruned)
    ⟨start_sound conf, fun x hx => absurd hx List.not_mem_nil⟩ ?_ ops).2
  rintro l m o ⟨h, hl⟩ hp
  rw [step_tenancy hp]
  exact ⟨Tenancy.act_sound h hp, Tenancy.act_pruned h hp hl⟩

end ConnectionPool
