import ConnectionPool.Proofs.Lowering
import ConnectionPool.Proofs.Surrender

/-! Orders that mean nothing.  The table of routes and that of requests stand in some order, and sweeps go
through them in it.  Whatever the order is, the same is closed and the same is left. -/

namespace ConnectionPool

variable {held : Multiset Grant} {p q u : Pool} {w v : Work} {es ds : List Idle} {g : Grant}
  {id : RequestId} {r : Route} {m : Moment}

namespace Pool

/-- The pools differ at most in the order of their tables of routes and of requests. -/
structure Reorders (p q : Pool) : Prop where
  lanes : q.lanes.Perm p.lanes
  requests : q.requests.Perm p.requests
  rest : q = { p with lanes := q.lanes, requests := q.requests }

structure Same (p q : Pool) : Prop extends p.Alike q where
  queue : ∀ r, (q.lane r).queue = (p.lane r).queue
  slot : ∀ id, q.requests.get? id = p.requests.get? id
  waiting : q.waiting = p.waiting
  lastRequest : q.lastRequest = p.lastRequest

namespace Same

theorem symm (h : p.Same q) : q.Same p :=
  ⟨h.toAlike.symm, fun r => (h.queue r).symm, fun id => (h.slot id).symm, h.waiting.symm,
    h.lastRequest.symm⟩

theorem trans (h : p.Same q) (k : q.Same u) : p.Same u :=
  ⟨h.toAlike.trans k.toAlike, fun r => (k.queue r).trans (h.queue r),
    fun id => (k.slot id).trans (h.slot id), k.waiting.trans h.waiting,
    k.lastRequest.trans h.lastRequest⟩

theorem lane (h : p.Same q) (r : Route) : q.lane r = p.lane r :=
  calc
    q.lane r = ⟨(q.lane r).leased, (q.lane r).available, (q.lane r).queue⟩ := rfl
    _ = ⟨(p.lane r).leased, (p.lane r).available, (p.lane r).queue⟩ := by
      rw [h.slots, h.available, h.queue]
    _ = p.lane r := rfl

theorem of_relanes (h : p.Relanes q) : p.Same q :=
  ⟨.of_relanes h, fun r => by rw [h.lane], fun id => by rw [h.requests], h.waiting, h.lastRequest⟩

theorem relane {p' q' : Pool} (h : p.Same q) (hp : p.Relanes p') (hq : q.Relanes q') : p'.Same q' :=
  (of_relanes hp).symm.trans (h.trans (of_relanes hq))

theorem setLane (h : p.Same q) (r : Route) (l : Lane) : (p.setLane r l).Same (q.setLane r l) :=
  ⟨h.toAlike.setLane rfl rfl, fun s => by
    rw [lane_of_edit (p := p) rfl, lane_of_edit (p := q) rfl]
    split
    · rfl
    · exact h.queue s, h.slot, h.waiting, h.lastRequest⟩

theorem relimit (h : p.Same q) (f : Limits → Limits) :
    Same { p with limits := f p.limits } { q with limits := f q.limits } :=
  ⟨h.toAlike.relimit f, h.queue, h.slot, h.waiting, h.lastRequest⟩

theorem without (h : p.Same q) (hes : ds.Perm es) : (p.without es).Same (q.without ds) where
  limits := by rw [(draws_without q ds).limits, (draws_without p es).limits, h.limits]
  policy := by rw [(draws_without q ds).policy, (draws_without p es).policy, h.policy]
  isShut := by rw [(draws_without q ds).isShut, (draws_without p es).isShut, h.isShut]
  lastEntry := by rw [lastEntry_without, lastEntry_without, h.lastEntry]
  leased := by rw [(sameSlots_without q ds).total, (sameSlots_without p es).total, h.leased]
  idle := by rw [idle_without, idle_without, h.idle, (hes.map Idle.mark).diff_left]
  slots r := by rw [(sameSlots_without q ds).leased, (sameSlots_without p es).leased, h.slots]
  available r := by
    rw [lane_without, lane_without, h.lane, (hes.filter _).diff_left]
  queue r := by rw [(sameQueues_without q ds).queue, (sameQueues_without p es).queue, h.queue]
  slot id := by rw [(sameQueues_without q ds).requests, (sameQueues_without p es).requests, h.slot]
  waiting := by rw [(sameQueues_without q ds).waiting, (sameQueues_without p es).waiting, h.waiting]
  lastRequest := by rw [lastRequest_without, lastRequest_without, h.lastRequest]

theorem withdraw (h : p.Same q) (id : RequestId) (s : Slot) :
    Same { p.withdraw id with requests := p.requests.put id s }
      { q.withdraw id with requests := q.requests.put id s } := by
  have hput (x : RequestId) : (q.requests.put id s).get? x = (p.requests.put id s).get? x := by
    by_cases hx : id = x
    · subst hx
      rw [Table.get?_put_self, Table.get?_put_self]
    · rw [Table.get?_put_of_ne _ _ hx, Table.get?_put_of_ne _ _ hx, h.slot]
  cases hw : p.waiting.get? id with
  | none =>
    have hnone (u : Pool) (hu : u.waiting.get? id = none) : u.withdraw id = u := by
      rw [Pool.withdraw, hu]
    rw [hnone p hw, hnone q (h.waiting ▸ hw)]
    exact ⟨{ h.toAlike with }, h.queue, hput, h.waiting, h.lastRequest⟩
  | some r =>
    have hlane : (p.unqueue id r).Same
        { q.setLane r ((p.lane r).dequeue id) with waiting := q.waiting.remove id } := by
      obtain ⟨halike, hqueue, hslot, -, hlast⟩ := h.setLane r ((p.lane r).dequeue id)
      exact ⟨{ halike with }, hqueue, hslot, congrArg (·.remove id) h.waiting, hlast⟩
    rw [← h.lane r] at hlane
    have hunqueue : Same { p.unqueue id r with requests := p.requests.put id s }
        { q.unqueue id r with requests := q.requests.put id s } :=
      ⟨{ hlane.toAlike with }, hlane.queue, hput, hlane.waiting, hlane.lastRequest⟩
    exact hunqueue.relane (relanes_withdraw hw _) (relanes_withdraw (h.waiting ▸ hw) _)

end Same

theorem Pruned.get? (h : p.Pruned) (r : Route) :
    p.lanes.get? r = if (p.lane r).isBare then none else some (p.lane r) := by
  unfold Pool.lane
  cases hr : p.lanes.get? r with
  | none => rfl
  | some l =>
    have hl : ¬ l.isBare := h (r, l) (Table.mem_of_get?_eq_some hr)
    simp [hl]

theorem Same.reorders (hp : Sound held p) (hq : Sound held q) (hpruned : p.Pruned)
    (hpruned' : q.Pruned) (h : p.Same q) : p.Reorders q where
  lanes := Table.perm_of_get?_eq hp.tidy hq.tidy fun r => by
    rw [hpruned'.get?, hpruned.get?, h.lane]
  requests := Table.perm_of_get?_eq hp.queued.keys hq.queued.keys h.slot
  rest := by
    obtain ⟨limits, policy, lanes, idle, requests, waiting, leased, isShut, lastEntry, lastRequest⟩ := q
    obtain ⟨⟨rfl, rfl, rfl, rfl, rfl, rfl, -, -⟩, -, -, rfl, rfl⟩ := h
    rfl

namespace Reorders

theorem same (hp : Sound held p) (h : p.Reorders q) : p.Same q := by
  have hlane (r : Route) : q.lane r = p.lane r := by
    rw [Pool.lane, Table.get?_eq_of_perm h.lanes hp.tidy, Pool.lane]
  exact {
    limits := by rw [h.rest]
    policy := by rw [h.rest]
    isShut := by rw [h.rest]
    lastEntry := by rw [h.rest]
    leased := by rw [h.rest]
    idle := by rw [h.rest]
    slots := fun r => by rw [hlane]
    available := fun r => by rw [hlane]
    queue := fun r => by rw [hlane]
    slot := Table.get?_eq_of_perm h.requests hp.queued.keys
    waiting := by rw [h.rest]
    lastRequest := by rw [h.rest] }

theorem pruned (hp : p.Pruned) (h : p.Reorders q) : q.Pruned :=
  fun x hx => hp x (h.lanes.mem_iff.1 hx)

theorem sound (hp : Sound held p) (h : p.Reorders q) : Sound held q := by
  have hs := h.same hp
  have hstock : q.stock = p.stock := Table.total_eq_of_perm h.lanes _
  have hslots : q.slots = p.slots := Table.total_eq_of_perm h.lanes _
  have hgrants : q.grants = p.grants := Table.total_eq_of_perm h.requests _
  have hcensus : q.census held = p.census held := by rw [census, hgrants, hstock, census]
  exact {
    tidy := (h.lanes.map Prod.fst).nodup_iff.2 hp.tidy
    queued := {
      queue := fun r => by rw [hs.lane, hs.waiting, hp.queued.queue]
      sorted := by
        rw [hs.waiting]
        exact hp.queued.sorted
      pending := fun id r => by rw [hs.waiting, hs.slot, hp.queued.pending]
      keys := (h.requests.map Prod.fst).nodup_iff.2 hp.queued.keys
      numbers := fun id hid => by
        rw [hs.lastRequest]
        exact hp.queued.numbers id ((h.requests.map Prod.fst).mem_iff.1 hid) }
    home := fun r e he => hp.home r e (hs.lane r ▸ he)
    idle := by rw [hs.idle, hstock, hp.idle]
    leased := by rw [hs.leased, hslots, hp.leased]
    slots := by
      rw [hs.isShut, hslots, hgrants]
      exact hp.slots
    ids := by
      rw [hcensus]
      exact hp.ids
    issued := by
      rw [hcensus, hs.lastEntry]
      exact hp.issued
    shut := by
      rw [hs.isShut, hs.waiting, hgrants]
      intro hshut
      obtain ⟨hlanes, hrest⟩ := hp.shut hshut
      exact ⟨fun r => (hs.lane r).trans (hlanes r), hrest⟩ }

end Reorders

end Pool

namespace Work

theorem sound_of_provide (h : Sound held w.pool) (hopen : w.pool.isShut = false) :
    match w.provide m r with
    | (some g, u) => Sound (g ::ₘ held) u.pool
    | (none, u) => Sound held u.pool := by
  rcases provide_moves (m := m) (c := 0) (r := r) h hopen with
    ⟨g, u, hprovide, -, hgain⟩ | ⟨u, hprovide, -, hsheds⟩
  · rw [hprovide]
    exact Scene.IsSound.gains (s := ⟨held, 0, w⟩) h hgain
  · rw [hprovide]
    exact Scene.IsSound.sheds (s := ⟨held, 0, w⟩) h hsheds

theorem sameQueues_provide (h : Sound held w.pool) (hopen : w.pool.isShut = false) :
    w.pool.SameQueues (w.provide m r).2.pool ∧
      (w.provide m r).2.pool.lastRequest = w.pool.lastRequest := by
  rcases provide_moves (m := m) (c := 0) (r := r) h hopen with
    ⟨g, u, hprovide, -, hgain⟩ | ⟨u, hprovide, -, hsheds⟩
  · rw [hprovide]
    exact ⟨hgain.sameQueues, hgain.lastRequest_eq⟩
  · rw [hprovide]
    exact ⟨(Gains.sameQueues (m := m) hsheds.gains), Gains.lastRequest_eq (m := m) hsheds.gains⟩

structure Same (w v : Work) : Prop where
  pool : w.pool.Same v.pool
  closing : v.closing.Perm w.closing
  deeds : v.deeds = w.deeds

namespace Same

variable (hw : Sound held w.pool) (hv : Sound held v.pool)

theorem relane {f g : Pool → Pool} (h : w.Same v) (hf : w.pool.Relanes (f w.pool))
    (hg : v.pool.Relanes (g v.pool)) : (w.change f).Same (v.change g) :=
  ⟨h.pool.relane hf hg, h.closing, h.deeds⟩

theorem note (h : w.Same v) (n : Notice) : (w.note n).Same (v.note n) :=
  ⟨h.pool, h.closing, by rw [deeds_note, deeds_note, h.deeds]⟩

theorem grant {id : RequestId} (h : w.Same v) (hid : w.pool.requests.get? id = some { route := r }) :
    (w.grant id g).Same (v.grant id g) := by
  rw [Work.grant_eq g hid, Work.grant_eq g ((h.pool.slot id).trans hid)]
  exact ⟨h.pool.withdraw id _, h.closing, h.deeds⟩

theorem retires {w' v' : Work} (h : w.Same v) (hw : w.Retires es w') (hv : v.Retires ds v')
    (hes : ds.Perm es) : w'.Same v' where
  pool := (h.pool.without hes).relane hw.pool hv.pool
  closing := by
    rw [hw.closing, hv.closing]
    exact h.closing.append (hes.map Idle.conn)
  deeds := by rw [hw.deeds, hv.deeds, h.deeds]

include hw hv

theorem provide (hopen : w.pool.isShut = false) (h : w.Same v) :
    (v.provide m r).1 = (w.provide m r).1 ∧ (w.provide m r).2.Same (v.provide m r).2 := by
  have halike : Alike w.closing v.closing w v :=
    ⟨h.pool.toAlike, ⟨[], (List.append_nil _).symm, (List.append_nil _).symm⟩, h.deeds⟩
  obtain ⟨hanswer, halike⟩ := halike.provide (m := m) (r := r) hw hv
  obtain ⟨hqueues, hlast⟩ := sameQueues_provide (m := m) (r := r) hw hopen
  obtain ⟨hqueues', hlast'⟩ := sameQueues_provide (m := m) (r := r) hv (h.pool.isShut.trans hopen)
  obtain ⟨cs, hclosing, hclosing'⟩ := halike.closing
  refine ⟨hanswer, ⟨halike.pool, fun s => ?_, fun id => ?_, ?_, ?_⟩, ?_, halike.deeds⟩
  · rw [hqueues'.queue, hqueues.queue, h.pool.queue]
  · rw [hqueues'.requests, hqueues.requests, h.pool.slot]
  · rw [hqueues'.waiting, hqueues.waiting, h.pool.waiting]
  · rw [hlast', hlast, h.pool.lastRequest]
  · rw [hclosing, hclosing']
    exact h.closing.append_right cs

theorem serveAll {blocked : List Route} {rest : List (RequestId × Route)}
    (hround : w.Round blocked rest) (h : w.Same v) :
    (w.serveAll m blocked rest).Same (v.serveAll m blocked rest) := by
  induction rest generalizing w v blocked with
  | nil => exact h
  | cons x rest ih =>
    obtain ⟨id, r⟩ := x
    rw [Work.serveAll, Work.serveAll]
    split
    · next hmem => exact ih hw hv (hround.pass hmem) h
    · next hmem =>
      have hq := hround.queue hmem
      have hopen : w.pool.isShut = false := hw.isShut_eq_false_of_queue (r := r) (by simp [hq])
      obtain ⟨hanswer, hsame⟩ := h.provide (m := m) (r := r) hw hv hopen
      have hsound := sound_of_provide (m := m) (r := r) hv (h.pool.isShut.trans hopen)
      rcases serve_round (m := m) (c := 0) hw hq with
        ⟨g, u, hprovide, rfl, hgain, hid, hqueue⟩ | ⟨u, hprovide, hstuck, hgain⟩
      · rw [hprovide] at hanswer hsame
        generalize v.provide m g.record.route = y at hanswer hsame hsound
        obtain ⟨_, u'⟩ := y
        subst hanswer
        have hone : Served m held 0 [(id, g)] w (u.grant id g) := .next hgain hid (.rest .refl)
        have hgains : Sound (g ::ₘ held) u.pool := Scene.IsSound.gains (s := ⟨held, 0, w⟩) hw hgain
        have hpending := hgains.head_pending hid
        have hpending' := (hsame.pool.slot id).trans hpending
        have hgrant : (u.grant id g).Same (u'.grant id g) := hsame.grant hpending
        have hgranted : Sound held (u'.grant id g).pool := by
          rw [Work.grant_eq g hpending']
          exact hsound.settle hpending' rfl rfl
        simp only [hprovide]
        exact ih (hone.sound hw) hgranted (hround.serve hmem (hone.draws hw) hqueue) hgrant
      · rw [hprovide] at hanswer hsame
        generalize v.provide m r = y at hanswer hsame hsound
        obtain ⟨_, u'⟩ := y
        subst hanswer
        have hnone : Served m held 0 [] w u := .rest hgain
        simp only [hprovide]
        exact ih (hnone.sound hw) hsound
          (hround.block (hnone.draws hw) hgain.sameQueues.queue hstuck) hsame

theorem dispatch (h : w.Same v) : (w.dispatch m none).Same (v.dispatch m none) := by
  have hserve := h.serveAll (m := m) hw hv (round_waiting hw)
  change (w.serveAll m [] w.pool.waiting).Same (v.serveAll m [] v.pool.waiting)
  rwa [h.pool.waiting]

section Pruned

variable (hpruned : w.pool.Pruned) (hpruned' : v.pool.Pruned)
include hpruned hpruned'

theorem sweep {f : Lane → List Idle} {g : Route → Work → Work}
    (hf : ∀ l, (f l).Subperm l.available)
    (hg : ∀ (w : Work) (r : Route), Sound held w.pool → w.Retires (f (w.pool.lane r)) (g r w))
    (h : w.Same v) (i : Route → Bool) :
    (((w.pool.lanes.keys.filter i).foldl (fun w r => g r w) w).Same
      ((v.pool.lanes.keys.filter i).foldl (fun w r => g r w) v)) ∧
    Sound held ((w.pool.lanes.keys.filter i).foldl (fun w r => g r w) w).pool ∧
    Sound held ((v.pool.lanes.keys.filter i).foldl (fun w r => g r w) v).pool := by
  have hretires := Retires.foldl hf hg hw (hw.tidy.filter i)
  have hretires' := Retires.foldl hf hg hv (hv.tidy.filter i)
  have hkeys := ((h.pool.reorders hw hv hpruned hpruned').lanes.map Prod.fst).filter i
  refine ⟨h.retires hretires hretires' ?_, hretires.sound hw, hretires'.sound hv⟩
  simp only [h.pool.lane]
  exact hkeys.flatMap_right _

theorem setDefaultMax (h : w.Same v) (max : Nat) :
    (v.setDefaultMax m max).1 = (w.setDefaultMax m max).1 ∧
      (w.setDefaultMax m max).2.Same (v.setDefaultMax m max).2 := by
  unfold Work.setDefaultMax
  split
  · exact ⟨rfl, h⟩
  · have hlow := changeLimits_sound hw ({ · with perRoute := max })
    have hlow' := changeLimits_sound hv ({ · with perRoute := max })
    have hsame : (w.changeLimits ({ · with perRoute := max })).Same
        (v.changeLimits ({ · with perRoute := max })) :=
      ⟨h.pool.relimit ({ · with perRoute := max }), h.closing, h.deeds⟩
    obtain ⟨hswept, hsound, hsound'⟩ := hsame.sweep hlow hlow' hpruned hpruned' (fun l => l.surplus_subperm max)
      (fun w r hw => shrinkRoute_retires hw max r)
      (!(w.changeLimits ({ · with perRoute := max })).pool.limits.overrides.has ·)
    refine ⟨rfl, ?_⟩
    dsimp only
    rw [hsame.pool.limits]
    exact hswept.dispatch hsound hsound'

theorem closeExpired (h : w.Same v) : (w.closeExpired m).Same (v.closeExpired m) := by
  have hsweep := h.sweep hw hv hpruned hpruned'
    (f := fun l => l.available.filter (·.record.isExpired m.now))
    (fun l => List.filter_sublist.subperm) (fun w r hw => sweepRoute_retires hw _ r) fun _ => true
  rw [List.filter_true, List.filter_true] at hsweep
  obtain ⟨hsame, hsound, hsound'⟩ := hsweep
  have hprune := Pool.relanes_pruneAll hsound.tidy
  have hprune' := Pool.relanes_pruneAll hsound'.tidy
  have hswept : (w.swept m).Same (v.swept m) := hsame.relane hprune hprune'
  have hclosed : Sound held (w.swept m).pool := hsound.relane hprune
  have hclosed' : Sound held (v.swept m).pool := hsound'.relane hprune'
  rw [closeExpired_eq, closeExpired_eq, hswept.closing.length_eq, h.closing.length_eq]
  dsimp only
  split
  · exact hswept
  · exact (hswept.note _).dispatch hclosed hclosed'

theorem shutDown (h : w.Same v) :
    v.shutDown.1 = w.shutDown.1 ∧ w.shutDown.2.Same v.shutDown.2 := by
  cases hshut : w.pool.isShut with
  | true =>
    rw [shutDown_of_shut hshut, shutDown_of_shut (h.pool.isShut.trans hshut)]
    exact ⟨rfl, h⟩
  | false =>
    obtain ⟨hlanes, hrequests, -⟩ := h.pool.reorders hw hv hpruned hpruned'
    have hheld := hrequests.filterMap (·.2.held)
    have hidle := hlanes.flatMap_right (·.2.available.map Idle.conn)
    have hcount (u : Work) (hu : u.pool.isShut = false) : u.shutDown.1 =
        (u.pool.requests.filterMap (·.2.held) ++
          u.pool.lanes.flatMap (·.2.available.map Idle.conn)).length := by
      rw [Work.shutDown, if_neg (by simp [hu])]
    have hopen : v.pool.isShut = false := h.pool.isShut.trans hshut
    rw [hcount w hshut, hcount v hopen, shutDown_of_open hshut, shutDown_of_open hopen]
    refine ⟨(hheld.append hidle).length_eq, ⟨h.pool.toAlike.torn, fun _ => rfl, fun id => ?_, rfl,
      h.pool.lastRequest⟩, (h.closing.append hheld).append hidle, h.deeds⟩
    exact (Table.get?_map _ _ _).trans
      ((congrArg (Option.map Slot.revoke) (h.pool.slot id)).trans (Table.get?_map _ _ _).symm)

end Pruned

end Same

end Work

structure Turn.Reorders {α : Type} (a b : Turn α) : Prop where
  answer : b.answer = a.answer
  pool : a.tenancy.pool.Reorders b.tenancy.pool
  callers : b.tenancy = { a.tenancy with pool := b.tenancy.pool }
  closed : b.closed.Perm a.closed
  deeds : b.reports.filter Report.isDeed = a.reports.filter Report.isDeed
  afterwards : b.afterwards = a.afterwards

namespace Tenancy

variable {t : Tenancy} {α : Type} {f : Work → α × Work}

theorem turn_reorders
    (hanswer : (f { pool := q }).1 = (f { pool := p }).1)
    (hsame : Work.Same (f { pool := p }).2 (f { pool := q }).2)
    (hp : Sound held (f { pool := p }).2.pool ∧ (f { pool := p }).2.pool.Pruned)
    (hq : Sound held (f { pool := q }).2.pool ∧ (f { pool := q }).2.pool.Pruned) :
    (turn { t with pool := p } f).Reorders (turn { t with pool := q } f) :=
  ⟨hanswer, hsame.pool.reorders hp.1 hq.1 hp.2 hq.2, rfl, hsame.closing, hsame.deeds, rfl⟩

theorem IsSound.reorder (h : t.IsSound) (hp : t.pool.Reorders p) : IsSound { t with pool := p } :=
  ⟨hp.sound h.sound, h.filed⟩

section

variable (h : t.IsSound) (hpruned : t.pool.Pruned) (hp : t.pool.Reorders p)
  (hq : t.pool.Reorders q)
include h hp hq

theorem same_of_reorders : Work.Same { pool := p } { pool := q } :=
  ⟨(hp.same h.sound).symm.trans (hq.same h.sound), .refl [], rfl⟩

include hpruned

theorem setDefaultMax_reorders (m : Moment) (max : Nat) :
    (setDefaultMax m max { t with pool := p }).Reorders (setDefaultMax m max { t with pool := q }) := by
  have hkeeps {u : Tenancy} (hu : u.IsSound) (hu' : u.pool.Pruned) :
      Sound u.out (u.setDefaultMax m max).tenancy.pool ∧
        (u.setDefaultMax m max).tenancy.pool.Pruned :=
    have hpossible : (Op.setDefaultMax max).isPossible u [] := rfl
    ⟨(act_sound hu hpossible).sound, act_pruned hu hpossible hu'⟩
  have hs := h.reorder hp
  have hs' := h.reorder hq
  obtain ⟨hanswer, hsame⟩ := (same_of_reorders h hp hq).setDefaultMax (m := m) hs.sound hs'.sound
    (hp.pruned hpruned) (hq.pruned hpruned) max
  exact turn_reorders hanswer hsame (hkeeps hs (hp.pruned hpruned)) (hkeeps hs' (hq.pruned hpruned))

theorem closeExpired_reorders (m : Moment) :
    (closeExpired m { t with pool := p }).Reorders (closeExpired m { t with pool := q }) := by
  have hkeeps {u : Tenancy} (hu : u.IsSound) (hu' : u.pool.Pruned) :
      Sound u.out (u.closeExpired m).tenancy.pool ∧ (u.closeExpired m).tenancy.pool.Pruned :=
    have hpossible : Op.closeExpired.isPossible u [] := rfl
    ⟨(act_sound hu hpossible).sound, act_pruned hu hpossible hu'⟩
  have hs := h.reorder hp
  have hs' := h.reorder hq
  have hsame := (same_of_reorders h hp hq).closeExpired (m := m) hs.sound hs'.sound
    (hp.pruned hpruned) (hq.pruned hpruned)
  exact turn_reorders rfl hsame (hkeeps hs (hp.pruned hpruned)) (hkeeps hs' (hq.pruned hpruned))

theorem shutDown_reorders :
    (shutDown { t with pool := p }).Reorders (shutDown { t with pool := q }) := by
  have hkeeps {u : Tenancy} (hu : u.IsSound) (hu' : u.pool.Pruned) :
      Sound u.out (u.turn Work.shutDown).tenancy.pool ∧
        (u.turn Work.shutDown).tenancy.pool.Pruned :=
    have hpossible : Op.shutDown.isPossible u [] := rfl
    ⟨(act_sound (m := Sample.calm) hu hpossible).sound,
      act_pruned (m := Sample.calm) hu hpossible hu'⟩
  have hs := h.reorder hp
  have hs' := h.reorder hq
  obtain ⟨hanswer, hsame⟩ := (same_of_reorders h hp hq).shutDown hs.sound hs'.sound
    (hp.pruned hpruned) (hq.pruned hpruned)
  have hturn := turn_reorders (t := t) hanswer hsame (hkeeps hs (hp.pruned hpruned))
    (hkeeps hs' (hq.pruned hpruned))
  exact { hturn with
    answer := rfl
    afterwards := congrArg (fun n => [Notice.shutDown n]) hanswer }

end

end Tenancy

namespace Life

variable {conf : Conf} {l : Life}

/-- What a pool can come to, if its tables of routes and of requests are in any order at any time. -/
inductive Reached (conf : Conf) : Life → Prop
  | start : Reached conf (start conf)
  | step {l : Life} (m : Moment) (o : Op) (h : Reached conf l) : Reached conf (l.step m o)
  | reorder {l : Life} {p : Pool} (h : Reached conf l) (hp : l.tenancy.pool.Reorders p) :
      Reached conf { l with tenancy.pool := p }

theorem reached_run (conf : Conf) (ops : List (Moment × Op)) : Reached conf ((start conf).run ops) :=
  run_induction .start (fun _ m o h _ => h.step m o) ops

theorem Reached.sound (h : Reached conf l) : l.tenancy.IsSound := by
  induction h with
  | start => exact start_sound conf
  | @step l m o _ ih =>
    by_cases hp : o.isPossible l.tenancy l.made
    · rw [step_tenancy hp]
      exact Tenancy.act_sound ih hp
    · rwa [step_of_not_isPossible hp]
  | reorder _ hp ih => exact ih.reorder hp

theorem Reached.pruned (h : Reached conf l) : l.tenancy.pool.Pruned := by
  induction h with
  | start => exact fun x hx => absurd hx List.not_mem_nil
  | @step l m o hl ih =>
    by_cases hp : o.isPossible l.tenancy l.made
    · rw [step_tenancy hp]
      exact Tenancy.act_pruned hl.sound hp ih
    · rwa [step_of_not_isPossible hp]
  | reorder _ hp ih => exact hp.pruned ih

/-- The orders of the tables of routes and of requests are never seen.  Whatever they are, a new limit for
routes without one of their own, a sweep for expired connections and a shutdown close the same connections
and leave the same behind, and the same requests are granted the same. -/
theorem table_order_is_immaterial (h : Reached conf l) {p q : Pool}
    (hp : l.tenancy.pool.Reorders p) (hq : l.tenancy.pool.Reorders q) (m : Moment) :
    let t : Tenancy := { l.tenancy with pool := p }
    let u : Tenancy := { l.tenancy with pool := q }
    (∀ max, (t.setDefaultMax m max).Reorders (u.setDefaultMax m max)) ∧
      (t.closeExpired m).Reorders (u.closeExpired m) ∧ t.shutDown.Reorders u.shutDown :=
  ⟨Tenancy.setDefaultMax_reorders h.sound h.pruned hp hq m,
    Tenancy.closeExpired_reorders h.sound h.pruned hp hq m,
    Tenancy.shutDown_reorders h.sound h.pruned hp hq⟩

theorem table_order_is_immaterial_swapped :
    let late : Moment := { Sample.calm with now := 2 }
    let other : Record := .fresh ⟨2⟩ Sample.otherRoute 0 none
    let l := (start Sample.conf).run <| [.lease Sample.route none, .lease Sample.otherRoute none,
      .get ⟨1⟩ false, .get ⟨2⟩ false, .connected (Sample.slot 1) ⟨1⟩, .connected other ⟨2⟩,
      .release ⟨1⟩ true (some (.ms 1)), .release ⟨2⟩ true (some (.ms 1))].map (Prod.mk Sample.calm)
    let t := l.tenancy
    let u := { t with pool := { t.pool with lanes := t.pool.lanes.reverse } }
    (Reached Sample.conf l ∧ t.pool.Reorders t.pool ∧ t.pool.Reorders u.pool) ∧
      (t.closeExpired late).closed = [⟨1⟩, ⟨2⟩] ∧ (u.closeExpired late).closed = [⟨2⟩, ⟨1⟩] ∧
      (t.closeExpired late).Reorders (u.closeExpired late) := by
  intro late other l t u
  have h : Reached Sample.conf l := reached_run _ _
  have hclosed : (t.closeExpired late).closed = [⟨1⟩, ⟨2⟩] := by decide
  have hclosed' : (u.closeExpired late).closed = [⟨2⟩, ⟨1⟩] := by decide
  clear_value l
  have hp : t.pool.Reorders t.pool := ⟨.refl _, .refl _, rfl⟩
  have hq : t.pool.Reorders u.pool := ⟨t.pool.lanes.reverse_perm, .refl _, rfl⟩
  exact ⟨⟨h, hp, hq⟩, hclosed, hclosed', (table_order_is_immaterial h hp hq late).2.1⟩

end Life

end ConnectionPool
