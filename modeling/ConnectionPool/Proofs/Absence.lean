import ConnectionPool.Proofs.Likeness
import ConnectionPool.Proofs.Order

/-! Absence.  A pool is compared with one in which a single request was never made.  The requests
that came later have lower numbers there, and as long as the one that is missing gets nothing, those
who wait are served alike. -/

namespace ConnectionPool

variable {held : Multiset Grant} {p q u : Pool} {w v : Work} {a b : List Conn} {g : Grant}
  {id x : RequestId} {r : Route} {m : Moment}

namespace RequestId

def without (id x : RequestId) : RequestId := if x.number < id.number then ⟨id.number - 1⟩ else id

theorem without_lt {i j : RequestId} (hi : i ≠ x) (hlt : i.number < j.number) :
    (i.without x).number < (j.without x).number := by
  have hne : i.number ≠ x.number := fun heq => hi (congrArg mk heq)
  simp only [without, apply_ite number]
  split <;> split <;> omega

theorem without_inj {i j : RequestId} (hi : i ≠ x) (hj : j ≠ x) (h : i.without x = j.without x) :
    i = j := by
  rcases lt_trichotomy i.number j.number with hlt | heq | hlt
  · exact absurd (congrArg number h) (without_lt hi hlt).ne
  · exact congrArg mk heq
  · exact absurd (congrArg number h) (without_lt hj hlt).ne'

theorem without_of_le (h : id.number ≤ x.number) : id.without x = id := if_neg h.not_gt

theorem without_of_lt (h : x.number < id.number) : id.without x = ⟨id.number - 1⟩ := if_pos h

theorem exists_without (j x : RequestId) : ∃ i, i ≠ x ∧ i.without x = j := by
  by_cases hlt : j.number < x.number
  · exact ⟨j, fun heq => hlt.ne (congrArg number heq), without_of_le hlt.le⟩
  · have hx : x.number < j.number + 1 := Nat.lt_succ_of_le (not_lt.1 hlt)
    exact ⟨⟨j.number + 1⟩, fun heq => hx.ne (congrArg number heq).symm, without_of_lt hx⟩

end RequestId

namespace Table

variable {ν : Type} {t u : Table RequestId ν}

def Lacks (t : Table RequestId ν) (x : RequestId) (u : Table RequestId ν) : Prop :=
  ∀ id, id ≠ x → u.get? (id.without x) = t.get? id

theorem Lacks.put (h : t.Lacks x u) (hid : id ≠ x) (y : ν) :
    Lacks (t.put id y) x (u.put (id.without x) y) := by
  intro j hj
  by_cases heq : id = j
  · rw [heq, get?_put_self, get?_put_self]
  · have hne : id.without x ≠ j.without x := fun hsame => heq (RequestId.without_inj hid hj hsame)
    rw [get?_put_of_ne _ _ heq, get?_put_of_ne _ _ hne, h j hj]

theorem Lacks.remove (h : t.Lacks x u) (hid : id ≠ x) :
    Lacks (t.remove id) x (u.remove (id.without x)) := by
  intro j hj
  by_cases heq : id = j
  · rw [heq, get?_remove_self, get?_remove_self]
  · have hne : id.without x ≠ j.without x := fun hsame => heq (RequestId.without_inj hid hj hsame)
    rw [get?_remove_of_ne _ heq, get?_remove_of_ne _ hne, h j hj]

theorem lacks_put (hnew : ∀ id : RequestId, x.number ≤ id.number → t.get? id = none) (y : ν) :
    Lacks (t.put x y) x t := by
  intro id hid
  rw [get?_put_of_ne _ _ hid.symm]
  by_cases hlt : x.number < id.number
  -- who comes after `x` is not there yet, under either number
  · rw [RequestId.without_of_lt hlt, hnew id hlt.le, hnew _ (Nat.le_sub_one_of_lt hlt)]
  · rw [RequestId.without_of_le (not_lt.1 hlt)]

theorem Lacks.left {t' : Table RequestId ν} (h : t.Lacks x u)
    (ht : ∀ id, id ≠ x → t'.get? id = t.get? id) : t'.Lacks x u :=
  fun id hid => (h id hid).trans (ht id hid).symm

end Table

theorem eq_of_sorted {α : Type} {f : α → Nat} {xs ys : List α} (hxs : xs.Pairwise (f · < f ·))
    (hys : ys.Pairwise (f · < f ·)) (h : ∀ y, y ∈ xs ↔ y ∈ ys) : xs = ys := by
  have hne {y z : α} (hlt : f y < f z) : y ≠ z := fun heq => hlt.ne (congrArg f heq)
  refine ((List.perm_ext_iff_of_nodup (hxs.imp hne) (hys.imp hne)).2 h).eq_of_pairwise ?_ hxs hys
  exact fun y z _ _ hyz hzy => absurd hyz hzy.asymm

namespace Pool

def HasGrant (p : Pool) (id : RequestId) : Prop :=
  ∃ r g, p.requests.get? id = some { route := r, outcome := .granted g }

theorem hasGrant_iff {p : Pool} {id : RequestId} :
    (p.requests.get? id).any (·.grants.card = 1) ↔ p.HasGrant id := by
  rw [Option.any_eq_true]
  constructor
  · rintro ⟨⟨r, o⟩, hid, hs⟩
    cases o with
    | granted g => exact ⟨r, g, hid⟩
    | pending => cases hs
    | failed f => cases hs
  · rintro ⟨r, g, hid⟩
    exact ⟨_, hid, rfl⟩

instance (p : Pool) (id : RequestId) : Decidable (p.HasGrant id) := decidable_of_iff _ hasGrant_iff

def Quiet (p : Pool) (r : Route) : Prop := (p.lane r).queue = [] ∨ p.Stuck r

/-- The requests of `q` are those of `p` but for `x`, which was never made there. -/
structure Lacks (x : RequestId) (p q : Pool) : Prop where
  slots : p.requests.Lacks x q.requests
  number : p.lastRequest = q.lastRequest + 1
  known : x.number ≤ p.lastRequest

theorem Settled.quiet (h : p.Settled) (r : Route) : p.Quiet r :=
  or_iff_not_imp_left.2 (h r)

theorem WithinLimits.grows (h : p.WithinLimits) (hg : p.Grows q) : q.WithinLimits where
  total := by
    rw [hg.limits]
    exact hg.total.trans (max_le h.total le_rfl)
  route r := by
    rw [hg.limits]
    exact (hg.route r).trans (max_le (h.route r) le_rfl)

namespace Lacks

variable {p' q' : Pool}

theorem of_eq (h : Lacks x p q) (hp : p'.requests = p.requests) (hq : q'.requests = q.requests)
    (hpn : p'.lastRequest = p.lastRequest) (hqn : q'.lastRequest = q.lastRequest) :
    Lacks x p' q' where
  slots := by
    rw [hp, hq]
    exact h.slots
  number := by rw [hpn, hqn, h.number]
  known := hpn ▸ h.known

theorem put {s : Slot} (h : Lacks x p q) (hid : id ≠ x) (hp : p'.requests = p.requests.put id s)
    (hq : q'.requests = q.requests.put (id.without x) s) (hpn : p'.lastRequest = p.lastRequest)
    (hqn : q'.lastRequest = q.lastRequest) : Lacks x p' q' where
  slots := by
    rw [hp, hq]
    exact h.slots.put hid s
  number := by rw [hpn, hqn, h.number]
  known := hpn ▸ h.known

theorem remove (h : Lacks x p q) (hid : id ≠ x) (hp : p'.requests = p.requests.remove id)
    (hq : q'.requests = q.requests.remove (id.without x)) (hpn : p'.lastRequest = p.lastRequest)
    (hqn : q'.lastRequest = q.lastRequest) : Lacks x p' q' where
  slots := by
    rw [hp, hq]
    exact h.slots.remove hid
  number := by rw [hpn, hqn, h.number]
  known := hpn ▸ h.known

theorem slot (h : Lacks x p q) (hid : id ≠ x) :
    q.requests.get? (id.without x) = p.requests.get? id := h.slots id hid

theorem queue (h : Lacks x p q) (hp : p.Queued) (hq : q.Queued) (r : Route) :
    (q.lane r).queue = ((p.lane r).queue.filter (· ≠ x)).map (·.without x) := by
  refine eq_of_sorted (hq.queue_sorted r) ?_ fun j => ?_
  · refine List.pairwise_map.2 (List.Pairwise.imp_of_mem ?_ ((hp.queue_sorted r).filter _))
    exact fun hi _ hlt => RequestId.without_lt (by simpa using (List.mem_filter.1 hi).2) hlt
  · obtain ⟨i, hi, rfl⟩ := RequestId.exists_without j x
    rw [hq.mem_queue, h.slot hi, ← hp.mem_queue, List.mem_map]
    constructor
    · exact fun hmem => ⟨i, List.mem_filter.2 ⟨hmem, by simpa using hi⟩, rfl⟩
    · rintro ⟨k, hk, heq⟩
      obtain ⟨hk, hne⟩ := List.mem_filter.1 hk
      rwa [RequestId.without_inj (by simpa using hne) hi heq] at hk

theorem waiting (h : Lacks x p q) (hp : p.Queued) (hq : q.Queued) :
    q.waiting = (p.waiting.filter (·.1 ≠ x)).map fun y => (y.1.without x, y.2) := by
  have hsorted : p.waiting.Pairwise (·.1.number < ·.1.number) :=
    (List.pairwise_map (f := Prod.fst)).1 hp.sorted
  have hsorted' : q.waiting.Pairwise (·.1.number < ·.1.number) :=
    (List.pairwise_map (f := Prod.fst)).1 hq.sorted
  refine eq_of_sorted (f := fun y => y.1.number) hsorted' ?_ ?_
  · refine List.pairwise_map.2 (List.Pairwise.imp_of_mem ?_ (hsorted.filter _))
    exact fun hi _ hlt => RequestId.without_lt (by simpa using (List.mem_filter.1 hi).2) hlt
  · rintro ⟨j, r⟩
    obtain ⟨i, hi, rfl⟩ := RequestId.exists_without j x
    rw [hq.pending, h.slot hi, ← hp.pending, List.mem_map]
    constructor
    · exact fun hmem => ⟨(i, r), List.mem_filter.2 ⟨hmem, by simpa using hi⟩, rfl⟩
    · rintro ⟨y, hy, heq⟩
      obtain ⟨hy, hne⟩ := List.mem_filter.1 hy
      obtain ⟨hnumber, hroute⟩ := Prod.mk.inj heq
      have hi : y.1 = i := RequestId.without_inj (by simpa using hne) hi hnumber
      rwa [← hi, ← hroute]

end Lacks

theorem lastRequest_withdraw (id : RequestId) (p : Pool) :
    (p.withdraw id).lastRequest = p.lastRequest := by
  unfold withdraw
  split
  · exact (relanes_prune _ _).lastRequest
  · rfl

theorem alike_setLane {l : Lane} (hslots : l.leased = (p.lane r).leased)
    (ha : l.available = (p.lane r).available) : p.Alike (p.setLane r l) where
  limits := rfl
  policy := rfl
  isShut := rfl
  lastEntry := rfl
  leased := rfl
  idle := rfl
  slots s := by
    rw [lane_of_edit (p := p) (q := p.setLane r l) rfl]
    split
    · next hs => rw [hs, hslots]
    · rfl
  available s := by
    rw [lane_of_edit (p := p) (q := p.setLane r l) rfl]
    split
    · next hs => rw [hs, ha]
    · rfl

theorem alike_requests (rs : Table RequestId Slot) : p.Alike { p with requests := rs } :=
  { Alike.refl p with }

theorem alike_withdraw (id : RequestId) (rs : Table RequestId Slot) :
    p.Alike { p.withdraw id with requests := rs } := by
  cases hw : p.waiting.get? id with
  | none =>
    have hp : p.withdraw id = p := by rw [withdraw, hw]
    rw [hp]
    exact alike_requests rs
  | some r =>
    have hunqueue : p.Alike { p.unqueue id r with requests := rs } :=
      { alike_setLane (p := p) (r := r) (l := (p.lane r).dequeue id) rfl rfl with }
    exact hunqueue.trans (.of_relanes (relanes_withdraw hw rs))

theorem alike_enqueue (id : RequestId) (r : Route) (rs : Table RequestId Slot) :
    p.Alike { p.enqueue id r with requests := rs } :=
  { alike_setLane (p := p) (r := r) (l := (p.lane r).enqueue id) rfl rfl with }

end Pool

theorem Shed.lastRequest_eq {s t : Scene} (h : Shed s t) :
    t.work.pool.lastRequest = s.work.pool.lastRequest := by
  cases h with
  | relane f hf => exact hf.lastRequest
  | report => rfl
  | close => rfl
  | evict => exact (Pool.relanes_pull _ _).lastRequest

theorem Gain.lastRequest_eq {s t : Scene} (h : Gain m s t) :
    t.work.pool.lastRequest = s.work.pool.lastRequest := by
  cases h with
  | shed h => exact h.lastRequest_eq
  | reuse => rfl
  | reserve => rfl

theorem Gains.lastRequest_eq {s t : Scene} (h : Gains m s t) :
    t.work.pool.lastRequest = s.work.pool.lastRequest := by
  induction h with
  | refl => rfl
  | tail _ hst ih => exact hst.lastRequest_eq.trans ih

theorem Served.hasGrant {c : Multiset Conn} {l : List (RequestId × Grant)} (hs : Sound held w.pool)
    (h : Served m held c l w v) (hx : w.pool.HasGrant x) : v.pool.HasGrant x := by
  obtain ⟨r, g, hx⟩ := hx
  rcases h.get?_cases hs x with ⟨hsame, -⟩ | ⟨d, -, hpending, -⟩
  · exact ⟨r, g, hsame.trans hx⟩
  · simp [hx] at hpending

namespace Work

theorem serve_quiet (hq : w.pool.Quiet r) (n : Nat) : w.Rests (w.serve m r n) := by
  rcases hq with hq | hs
  · cases n with
    | zero => exact .refl w
    | succ n =>
      rw [serve, hq]
      exact .refl w
  · exact serve_rests hs n

/-- The request `id` is the first that waits for the route, and `g` is found for it. -/
structure Next (m : Moment) (held : Multiset Grant) (r : Route) (id : RequestId) (g : Grant)
    (w u : Work) : Prop where
  found : w.provide m r = (some g, u)
  route : g.record.route = r
  gain : Gains m ⟨held, 0, w⟩ ⟨g ::ₘ held, 0, u⟩
  head : (u.pool.lane r).queue.head? = some id
  queue : ∃ ids, (w.pool.lane r).queue = id :: ids ∧
    ∀ s, ((u.grant id g).pool.lane s).queue = if s = r then ids else (w.pool.lane s).queue

theorem exists_next (h : Sound held w.pool) (hin : w.pool.WithinLimits) (hq : ¬ w.pool.Quiet r) :
    ∃ id g u, Next m held r id g w u := by
  obtain ⟨hne, hstuck⟩ := not_or.1 hq
  obtain ⟨id, ids, hids⟩ := List.exists_cons_of_ne_nil hne
  have hopen := h.isShut_eq_false_of_queue hne
  rcases serve_round (m := m) (c := 0) h hids with
    ⟨g, u, hfound, hroute, hgain, hhead, hqueue⟩ | ⟨u, hnone, -⟩
  · exact ⟨id, g, u, hfound, hroute, hgain, hhead, ids, hids, hqueue⟩
  · exact absurd (stuck_of_provide_eq_none (m := m) h hopen hin (by rw [hnone])) hstuck

namespace Next

variable {u : Work}

theorem pending (h : Next m held r id g w u) (hs : Sound held w.pool) :
    w.pool.requests.get? id = some { route := r } := by
  obtain ⟨ids, hids, -⟩ := h.queue
  exact hs.queued.mem_queue.1 (hids ▸ List.mem_cons_self)

theorem served (h : Next m held r id g w u) : Served m held 0 [(id, g)] w (u.grant id g) :=
  .next h.gain (h.route ▸ h.head) (.rest .refl)

theorem withinLimits (h : Next m held r id g w u) (hs : Sound held w.pool)
    (hin : w.pool.WithinLimits) : (u.grant id g).pool.WithinLimits :=
  hin.grows (Moves.grows (s := ⟨held, 0, w⟩) hs h.served.serves.trades.moves)

theorem hasGrant (h : Next m held r id g w u) (hs : Sound held w.pool) :
    (u.grant id g).pool.HasGrant id :=
  ⟨_, g, h.served.get?_of_mem hs List.mem_cons_self⟩

theorem not_quiet (h : Next m held r id g w u) : ¬ w.pool.Quiet r := by
  rintro (hq | hs)
  · obtain ⟨ids, hids, -⟩ := h.queue
    simp [hq] at hids
  · have hnone := (provide_rests (m := m) hs).1
    simp [h.found] at hnone

theorem serve (h : Next m held r id g w u) (n : Nat) :
    w.serve m r (n + 1) = (u.grant id g).serve m r n := by
  obtain ⟨ids, hids, -⟩ := h.queue
  rw [Work.serve, hids]
  simp only [h.found]

end Next

section Round

variable {blocked : List Route} {rest : List (RequestId × Route)}

theorem serveAll_quiet (h : w.Round blocked ((id, r) :: rest)) (hq : w.pool.Quiet r) :
    ∃ blocked' u, w.serveAll m blocked ((id, r) :: rest) = u.serveAll m blocked' rest ∧
      w.Rests u ∧ u.Round blocked' rest := by
  rw [serveAll]
  split
  · next hr => exact ⟨blocked, w, rfl, .refl w, h.pass hr⟩
  · next hr =>
    have hstuck : w.pool.Stuck r := hq.resolve_left (by simp [h.queue hr])
    obtain ⟨hnone, hrests⟩ := provide_rests (m := m) hstuck
    rw [change_openLane (by simp [h.queue hr])] at hrests
    generalize w.provide m r = y at hnone hrests
    obtain ⟨_, u⟩ := y
    subst hnone
    have hpool : u.pool = w.pool := hrests.pool
    exact ⟨r :: blocked, u, rfl, hrests, h.block (hpool ▸ Pool.Draws.refl _)
      (fun s => by rw [hpool]) (hpool ▸ hstuck)⟩

theorem serveAll_next {u : Work} {y : RequestId} (hs : Sound held w.pool)
    (h : w.Round blocked ((id, r) :: rest)) (hn : Next m held r y g w u) :
    y = id ∧ w.serveAll m blocked ((id, r) :: rest) = (u.grant id g).serveAll m blocked rest ∧
      (u.grant id g).Round blocked rest := by
  have hr : r ∉ blocked := fun hr => hn.not_quiet (h.passed r hr)
  obtain ⟨ids, hids, hqueue⟩ := hn.queue
  rw [h.queue hr] at hids
  obtain ⟨rfl, rfl⟩ := List.cons.inj hids
  refine ⟨rfl, ?_, h.serve hr (hn.served.draws hs) hqueue⟩
  rw [serveAll, if_neg hr]
  simp only [hn.found]

end Round

structure Lacks (x : RequestId) (a b : List Conn) (w v : Work) : Prop where
  alike : Alike a b w v
  requests : Pool.Lacks x w.pool v.pool

namespace Lacks

theorem left {u : Work} (h : Lacks x a b w v) (hu : w.Rests u) : Lacks x a b u v :=
  ⟨h.alike.left hu, hu.pool ▸ h.requests⟩

theorem right {u : Work} (h : Lacks x a b w v) (hu : v.Rests u) : Lacks x a b w u :=
  ⟨h.alike.right hu, hu.pool ▸ h.requests⟩

theorem quiet (hw : Sound held w.pool) (hv : Sound held v.pool) (h : Lacks x a b w v)
    (hq : w.pool.Quiet r) : v.pool.Quiet r := by
  refine hq.imp (fun hq => ?_) h.alike.pool.stuck
  rw [h.requests.queue hw.queued hv.queued, hq]
  rfl

theorem next {u : Work} (hw : Sound held w.pool) (hv : Sound held v.pool) (h : Lacks x a b w v)
    (hin : w.pool.WithinLimits) (hn : Next m held r id g w u) (hid : id ≠ x) :
    ∃ u', Next m held r (id.without x) g v u' ∧
      Lacks x a b (u.grant id g) (u'.grant (id.without x) g) := by
  obtain ⟨ids, hids, -⟩ := hn.queue
  have hqueue := h.requests.queue hw.queued hv.queued r
  rw [hids, List.filter_cons_of_pos (by simpa using hid), List.map_cons] at hqueue
  -- the same route is served next in the other pool, and the same request of it
  have hquiet : ¬ v.pool.Quiet r := by
    rintro (hq | hs)
    · simp [hqueue] at hq
    · exact hn.not_quiet (.inr (h.alike.pool.symm.stuck hs))
  obtain ⟨y, g', u', hn'⟩ := exists_next (m := m) hv (h.alike.pool.withinLimits hin) hquiet
  obtain ⟨ids', hids', -⟩ := hn'.queue
  rw [hqueue] at hids'
  obtain rfl : id.without x = y := (List.cons.inj hids').1
  obtain ⟨hsame, halike⟩ := h.alike.provide (m := m) (r := r) hw hv
  rw [hn.found, hn'.found] at hsame halike
  obtain rfl : g' = g := Option.some.inj hsame
  refine ⟨u', hn', ?_⟩
  have hu : Sound (g' ::ₘ held) u.pool := Scene.IsSound.gains (s := ⟨held, 0, w⟩) hw hn.gain
  have hu' : Sound (g' ::ₘ held) u'.pool := Scene.IsSound.gains (s := ⟨held, 0, v⟩) hv hn'.gain
  have hlacks : Pool.Lacks x u.pool u'.pool := h.requests.of_eq hn.gain.sameQueues.requests
    hn'.gain.sameQueues.requests hn.gain.lastRequest_eq hn'.gain.lastRequest_eq
  have hpending : u.pool.requests.get? id = some { route := r } :=
    (congrArg (·.get? id) hn.gain.sameQueues.requests).trans (hn.pending hw)
  have hpending' : u'.pool.requests.get? (id.without x) = some { route := r } :=
    (hlacks.slot hid).trans hpending
  rw [Work.grant_eq g' hpending, Work.grant_eq g' hpending']
  refine ⟨halike.change (((Pool.alike_withdraw _ _).symm.trans halike.pool).trans
    (Pool.alike_withdraw _ _)), hlacks.put hid rfl rfl ?_ ?_⟩
  · exact Pool.lastRequest_withdraw _ _
  · exact Pool.lastRequest_withdraw _ _

theorem serve (hw : Sound held w.pool) (hv : Sound held v.pool) (h : Lacks x a b w v)
    (hin : w.pool.WithinLimits) {n k : Nat} (hlen : (w.pool.lane r).queue.length ≤ n)
    (hlen' : (v.pool.lane r).queue.length ≤ k) (hx : ¬ (w.serve m r n).pool.HasGrant x) :
    Lacks x a b (w.serve m r n) (v.serve m r k) := by
  induction n generalizing w v k with
  | zero =>
    have hq : w.pool.Quiet r := .inl (List.eq_nil_of_length_eq_zero (Nat.le_zero.1 hlen))
    exact h.right (serve_quiet (h.quiet hw hv hq) k)
  | succ n ih =>
    by_cases hq : w.pool.Quiet r
    · exact (h.left (serve_quiet hq _)).right (serve_quiet (h.quiet hw hv hq) k)
    · obtain ⟨id, g, u, hn⟩ := exists_next (m := m) hw hin hq
      rw [hn.serve] at hx ⊢
      have hu : Sound held (u.grant id g).pool := hn.served.sound hw
      obtain ⟨l, hserved, -⟩ := serve_served (m := m) (c := 0) (r := r) hu n
      have hid : id ≠ x := by
        rintro rfl
        exact hx (hserved.hasGrant hu (hn.hasGrant hw))
      obtain ⟨u', hn', hnext⟩ := h.next hw hv hin hn hid
      obtain ⟨ids, hids, hqueue⟩ := hn.queue
      obtain ⟨ids', hids', hqueue'⟩ := hn'.queue
      rw [hids] at hlen
      rw [hids'] at hlen'
      cases k with
      | zero => exact absurd hlen' (Nat.not_succ_le_zero _)
      | succ k =>
        rw [hn'.serve]
        refine ih hu (hn'.served.sound hv) hnext (hn.withinLimits hw hin) ?_ ?_ hx
        · rw [hqueue, if_pos rfl]
          exact Nat.le_of_succ_le_succ hlen
        · rw [hqueue', if_pos rfl]
          exact Nat.le_of_succ_le_succ hlen'

theorem serveAll {blocked blocked' : List Route} {rest : List (RequestId × Route)}
    (hw : Sound held w.pool) (hv : Sound held v.pool) (h : Lacks x a b w v)
    (hin : w.pool.WithinLimits) (hround : w.Round blocked rest)
    (hround' : v.Round blocked' ((rest.filter (·.1 ≠ x)).map fun y => (y.1.without x, y.2)))
    (hx : ¬ (w.serveAll m blocked rest).pool.HasGrant x) :
    Lacks x a b (w.serveAll m blocked rest) (v.serveAll m blocked'
      ((rest.filter (·.1 ≠ x)).map fun y => (y.1.without x, y.2))) := by
  induction rest generalizing w v blocked blocked' with
  | nil => exact h
  | cons y rest ih =>
    obtain ⟨id, r⟩ := y
    by_cases hq : w.pool.Quiet r
    · obtain ⟨blocked₁, u, hu, hrests, hround₁⟩ := serveAll_quiet (m := m) hround hq
      rw [hu] at hx ⊢
      have hsound : Sound held u.pool := hrests.pool ▸ hw
      have hlimits : u.pool.WithinLimits := hrests.pool ▸ hin
      by_cases hid : id = x
      · rw [List.filter_cons_of_neg (by simpa using hid)] at hround' ⊢
        exact ih hsound hv (h.left hrests) hlimits hround₁ hround' hx
      · rw [List.filter_cons_of_pos (by simpa using hid), List.map_cons] at hround' ⊢
        obtain ⟨blocked₂, u', hu', hrests', hround₂⟩ :=
          serveAll_quiet (m := m) hround' (h.quiet hw hv hq)
        rw [hu']
        exact ih hsound (hrests'.pool ▸ hv) ((h.left hrests).right hrests') hlimits hround₁ hround₂
          hx
    · obtain ⟨y, g, u, hn⟩ := exists_next (m := m) hw hin hq
      obtain ⟨rfl, hserve, hround₁⟩ := serveAll_next hw hround hn
      rw [hserve] at hx ⊢
      have hu : Sound held (u.grant y g).pool := hn.served.sound hw
      obtain ⟨l, hserved, -⟩ := serveAll_served (m := m) (c := 0) hu hround₁
      have hid : y ≠ x := by
        rintro rfl
        exact hx (hserved.hasGrant hu (hn.hasGrant hw))
      rw [List.filter_cons_of_pos (by simpa using hid), List.map_cons] at hround' ⊢
      obtain ⟨u', hn', hnext⟩ := h.next hw hv hin hn hid
      obtain ⟨-, hserve', hround₂⟩ := serveAll_next hv hround' hn'
      rw [hserve']
      exact ih hu (hn'.served.sound hv) hnext (hn.withinLimits hw hin) hround₁ hround₂ hx

theorem dispatch (hw : Sound held w.pool) (hv : Sound held v.pool) (h : Lacks x a b w v)
    (hin : w.pool.WithinLimits) (first : Option Route)
    (hx : ¬ (w.dispatch m first).pool.HasGrant x) :
    Lacks x a b (w.dispatch m first) (v.dispatch m first) := by
  cases first with
  | none =>
    have hround' := round_waiting hv
    have hwaiting := h.requests.waiting hw.queued hv.queued
    change Lacks x a b _ (v.serveAll m [] v.pool.waiting)
    rw [hwaiting] at hround' ⊢
    exact h.serveAll hw hv hin (round_waiting hw) hround' hx
  | some r =>
    obtain ⟨l, hserved, -⟩ :=
      serve_served (m := m) (c := 0) (r := r) hw (w.pool.lane r).queue.length
    obtain ⟨l', hserved', -⟩ :=
      serve_served (m := m) (c := 0) (r := r) hv (v.pool.lane r).queue.length
    have hw' := hserved.sound hw
    have hv' := hserved'.sound hv
    have hround := round_serve (m := m) (r := r) hw
    have hround' := round_serve (m := m) (r := r) hv
    obtain ⟨k, hrest, -⟩ := serveAll_served (m := m) (c := 0) hw' hround
    have hserve := h.serve (m := m) (r := r) hw hv hin le_rfl le_rfl
      fun hgrant => hx (hrest.hasGrant hw' hgrant)
    have hlimits := hin.grows (Moves.grows (s := ⟨held, 0, w⟩) hw hserved.serves.trades.moves)
    have hwaiting := hserve.requests.waiting hw'.queued hv'.queued
    change Lacks x a b _ (Work.serveAll m [r] (v.serve m r _).pool.waiting _)
    rw [hwaiting] at hround' ⊢
    exact hserve.serveAll hw' hv' hlimits hround hround' hx

end Lacks

end Work

end ConnectionPool
