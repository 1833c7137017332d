import ConnectionPool.Proofs.Handover

namespace ConnectionPool

variable {held gs ks : Multiset Grant} {p q u : Pool} {w v : Work} {g : Grant} {e : Idle}
  {id : RequestId} {r : Route} {m : Moment} {s t : Scene}

namespace Pool

def owned (p : Pool) : Multiset Grant := p.grants + p.stock.map Grant.reuse

theorem census_eq_owned (p : Pool) (held : Multiset Grant) : p.census held = held + p.owned :=
  add_assoc ..

theorem mem_owned_of_granted
    (hid : p.requests.get? id = some { route := r, outcome := .granted g }) : g ∈ p.owned := by
  refine Multiset.mem_add.2 (.inl (Table.mem_total.2 ⟨_, Table.mem_of_get?_eq_some hid, ?_⟩))
  rw [Slot.grants_granted]
  exact Multiset.mem_singleton_self g

theorem owned_of_census (h : q.census held = p.census (gs + held)) : q.owned = gs + p.owned := by
  rw [census_eq_owned, census_eq_owned, add_comm gs, add_assoc] at h
  exact add_left_cancel h

theorem owned_eq_of_census (h : q.census held = p.census held) : q.owned = p.owned := by
  rw [census_eq_owned, census_eq_owned] at h
  exact add_left_cancel h

theorem owned_enter (hnew : ∀ x ∈ p.requests.keys, x.number < id.number) (s : Slot) :
    owned { p with requests := p.requests.put id s } = s.grants + p.owned := by
  have hcensus : census { p with requests := p.requests.put id s } 0 = p.census (s.grants + 0) :=
    census_enter hnew s
  exact owned_of_census hcensus

theorem owned_enqueue (hnew : ∀ x ∈ p.requests.keys, x.number < id.number) :
    owned { p.enqueue id r with requests := p.requests.put id { route := r } } = p.owned := by
  have hcensus : census { p.enqueue id r with requests := p.requests.put id { route := r } } 0 =
      p.census 0 := census_enqueue hnew
  exact owned_eq_of_census hcensus

theorem owned_takeOut (he : e ∈ (p.lane e.record.route).available) :
    .reuse e ::ₘ (p.takeOut e).owned = p.owned := by
  rw [owned, owned, ← stock_takeOut he, Multiset.map_cons, Multiset.add_cons]
  rfl

theorem owned_relane (hp : p.Tidy) (h : p.Relanes q) : q.owned = p.owned :=
  owned_eq_of_census (census_relane hp h 0)

theorem owned_lease (t : Record) (p : Pool) : (p.lease t).owned = p.owned := by
  rw [owned, stock_lease]
  rfl

theorem owned_freed (t : Record) (p : Pool) : (p.freed t).owned = p.owned := by
  rw [owned, stock_freed]
  rfl

theorem owned_restock (hstock : q.stock = e ::ₘ p.stock) (hr : q.requests = p.requests) :
    q.owned = .reuse e ::ₘ p.owned := by
  have hcensus : q.census 0 = .reuse e ::ₘ p.census 0 := census_restock hstock hr
  rwa [census_eq_owned, census_eq_owned, zero_add, zero_add] at hcensus

theorem owned_stocked (d : Idle) (p : Pool) : (p.stocked d).owned = .reuse d ::ₘ p.owned :=
  owned_restock (stock_restock (r := d.record.route) rfl (List.Perm.refl _)) rfl

theorem owned_torn (p : Pool) : p.torn.owned = 0 := by
  have hcensus : p.torn.census 0 = 0 := census_torn 0
  rwa [census_eq_owned, zero_add] at hcensus

def Affords (m : Moment) (p : Pool) (g : Grant) : Prop :=
  g ∈ p.owned ∨ ∃ n r, p.lastEntry < n ∧ g = .create (.fresh ⟨n⟩ r m.now p.policy.timeToLive)

/-- Out of what `p` has and can reserve the grants `gs` are dealt, and `q` is left. -/
structure Deals (m : Moment) (p : Pool) (gs : Multiset Grant) (q : Pool) : Prop where
  policy : q.policy = p.policy
  lastEntry : p.lastEntry ≤ q.lastEntry
  affords : ∀ g ∈ gs + q.owned, p.Affords m g

namespace Deals

theorem of_le (hpolicy : q.policy = p.policy) (hlast : q.lastEntry = p.lastEntry)
    (hle : gs + q.owned ≤ p.owned) : p.Deals m gs q :=
  ⟨hpolicy, hlast.ge, fun _ hg => .inl (Multiset.mem_of_le hle hg)⟩

theorem refl (p : Pool) : p.Deals m 0 p := of_le rfl rfl (zero_add _).le

theorem of_eq (hpolicy : q.policy = p.policy) (hlast : q.lastEntry = p.lastEntry)
    (howned : q.owned = p.owned) : p.Deals m 0 q :=
  of_le hpolicy hlast (by rw [zero_add, howned])

theorem affords_of (h : p.Deals m gs q) (hg : q.Affords m g) : p.Affords m g := by
  rcases hg with hg | ⟨n, r, hn, rfl⟩
  · exact h.affords g (Multiset.mem_add.2 (.inr hg))
  · exact .inr ⟨n, r, h.lastEntry.trans_lt hn, by rw [h.policy]⟩

theorem trans (h : p.Deals m gs q) (k : q.Deals m ks u) : p.Deals m (gs + ks) u where
  policy := k.policy.trans h.policy
  lastEntry := h.lastEntry.trans k.lastEntry
  affords g hg := by
    rw [add_assoc, Multiset.mem_add] at hg
    rcases hg with hg | hg
    · exact h.affords g (Multiset.mem_add.2 (.inl hg))
    · exact h.affords_of (k.affords g hg)

theorem drop (h : p.Deals m gs q) : p.Deals m 0 q :=
  ⟨h.policy, h.lastEntry, fun g hg =>
    h.affords g (Multiset.mem_add.2 (.inr (zero_add q.owned ▸ hg)))⟩

theorem andThen (h : p.Deals m 0 q) (k : q.Deals m 0 u) : p.Deals m 0 u := by
  simpa using h.trans k

theorem back (h : p.Deals m gs q) (hpolicy : u.policy = q.policy)
    (hlast : u.lastEntry = q.lastEntry) (howned : u.owned = gs + q.owned) : p.Deals m 0 u where
  policy := hpolicy.trans h.policy
  lastEntry := h.lastEntry.trans hlast.ge
  affords g hg := by
    rw [zero_add, howned] at hg
    exact h.affords g hg

end Deals

theorem deals_relane (hp : p.Tidy) (h : p.Relanes q) : p.Deals m 0 q :=
  .of_eq (by rw [h.rest]) h.lastEntry (owned_relane hp h)

theorem deals_takeOut (he : e ∈ (p.lane e.record.route).available) : p.Deals m 0 (p.takeOut e) := by
  refine .of_le rfl rfl ?_
  rw [zero_add, ← owned_takeOut he]
  exact Multiset.le_cons_self _ _

/-- What `q` has comes of `p`, but for a connection that came `back`. -/
structure Inherits (m : Moment) (p : Pool) (back : Option Idle) (q : Pool) : Prop where
  policy : q.policy = p.policy
  lastEntry : p.lastEntry ≤ q.lastEntry
  affords : ∀ g ∈ q.owned, p.Affords m g ∨ ∃ d ∈ back, g = .reuse d

theorem Deals.inherits (h : p.Deals m 0 q) (back : Option Idle) : p.Inherits m back q :=
  ⟨h.policy, h.lastEntry, fun g hg => .inl (h.affords g ((zero_add q.owned).symm ▸ hg))⟩

theorem Inherits.of_stocked {d : Idle} (hpolicy : q.policy = p.policy)
    (hlast : q.lastEntry = p.lastEntry) (howned : q.owned = .reuse d ::ₘ p.owned)
    (h : q.Deals m 0 u) : p.Inherits m (some d) u where
  policy := h.policy.trans hpolicy
  lastEntry := hlast.ge.trans h.lastEntry
  affords g hg := by
    rcases h.affords g ((zero_add u.owned).symm ▸ hg) with hg | ⟨n, r, hn, rfl⟩
    · rw [howned, Multiset.mem_cons] at hg
      exact hg.elim (fun heq => .inr ⟨d, rfl, heq⟩) fun hg => .inl (.inl hg)
    · exact .inl (.inr ⟨n, r, hlast ▸ hn, by rw [hpolicy]⟩)

end Pool

def AreFit (m : Moment) (validateAfter : Option Nat) (gs : Multiset Grant) : Prop :=
  ∀ e, .reuse e ∈ gs → e.isFit m validateAfter

theorem Shed.deals (hs : s.IsSound) (h : Shed s t) :
    t.held = s.held ∧ s.work.pool.Deals m 0 t.work.pool := by
  cases h with
  | relane f hf => exact ⟨rfl, Pool.deals_relane hs.tidy hf⟩
  | report => exact ⟨rfl, .refl _⟩
  | close he => exact ⟨rfl, Pool.deals_takeOut he⟩
  | @evict held c w e r he =>
    exact ⟨rfl, (Pool.deals_takeOut he).andThen
      (Pool.deals_relane (Pool.tidy_of_edit rfl hs.tidy) (Pool.relanes_pull e w.pool))⟩

theorem Gain.deals (hs : s.IsSound) (h : Gain m s t) : ∃ gs, t.held = gs + s.held ∧
    s.work.pool.Deals m gs t.work.pool ∧ AreFit m s.work.pool.policy.validateAfter gs := by
  cases h with
  | shed h =>
    obtain ⟨hheld, hdeals⟩ := h.deals (m := m) hs
    exact ⟨0, hheld.trans (zero_add _).symm, hdeals, fun e he => absurd he (Multiset.notMem_zero _)⟩
  | @reuse held c w e rest he hfit =>
    refine ⟨{.reuse e}, (Multiset.singleton_add _ _).symm, .of_le rfl rfl ?_, fun d hd => ?_⟩
    · change {.reuse e} + ((w.pool.takeOut e).lease e.record).owned ≤ _
      rw [Pool.owned_lease, Multiset.singleton_add, Pool.owned_takeOut (by simp [he])]
    · obtain rfl := Grant.reuse.inj (Multiset.mem_singleton.1 hd)
      exact hfit
  | @reserve held c w r =>
    refine ⟨{.create (w.reserve m r).1}, (Multiset.singleton_add _ _).symm,
      ⟨rfl, Nat.le_succ _, fun g hg => ?_⟩, fun d hd => ?_⟩
    · change g ∈ {.create (w.reserve m r).1} + (Pool.lease (w.reserve m r).1
        { w.pool with lastEntry := w.pool.lastEntry + 1 }).owned at hg
      rw [Pool.owned_lease, Multiset.mem_add, Multiset.mem_singleton] at hg
      rcases hg with rfl | hg
      · exact .inr ⟨_, r, Nat.lt_succ_self _, rfl⟩
      · exact .inl hg
    · cases Multiset.mem_singleton.1 hd

theorem Gains.deals (hs : s.IsSound) (h : Gains m s t) : ∃ gs, t.held = gs + s.held ∧
    s.work.pool.Deals m gs t.work.pool ∧ AreFit m s.work.pool.policy.validateAfter gs := by
  induction h with
  | refl => exact ⟨0, (zero_add _).symm, .refl _, fun e he => absurd he (Multiset.notMem_zero _)⟩
  | tail hsu hut ih =>
    obtain ⟨gs, hheld, hdeals, hfit⟩ := ih
    obtain ⟨ks, hheld', hdeals', hfit'⟩ := hut.deals (hs.gains hsu)
    refine ⟨gs + ks, ?_, hdeals.trans hdeals', fun e he => ?_⟩
    · rw [hheld', hheld]
      ac_rfl
    · rcases Multiset.mem_add.1 he with he | he
      · exact hfit e he
      · exact hdeals.policy ▸ hfit' e he

section Dealt

variable {c c' : Multiset Conn} (h : Sound held w.pool)
include h

theorem Gains.deals_of_none (hgain : Gains m ⟨held, c, w⟩ ⟨held, c', v⟩) :
    w.pool.Deals m 0 v.pool := by
  obtain ⟨gs, hheld, hdeals, -⟩ := hgain.deals (s := ⟨held, c, w⟩) h
  rwa [right_eq_add.1 hheld] at hdeals

theorem Gains.deals_of_grant (hgain : Gains m ⟨held, c, w⟩ ⟨g ::ₘ held, c', v⟩) :
    w.pool.Deals m {g} v.pool ∧ AreFit m w.pool.policy.validateAfter {g} := by
  obtain ⟨gs, hheld, hdeals, hfit⟩ := hgain.deals (s := ⟨held, c, w⟩) h
  have hone : {g} = gs := add_right_cancel ((Multiset.singleton_add g held).trans hheld)
  exact hone ▸ ⟨hdeals, hfit⟩

theorem Served.deals {l : List (RequestId × Grant)} (hserved : Served m held c l w v) :
    w.pool.Deals m 0 v.pool ∧
      ∀ id e, (id, .reuse e) ∈ l → e.isFit m w.pool.policy.validateAfter := by
  induction hserved with
  | rest hgain => exact ⟨hgain.deals_of_none h, fun id e he => absurd he List.not_mem_nil⟩
  | @next l w u v id g hgain hid hserved ih =>
    obtain ⟨hdeals, hfit⟩ := hgain.deals_of_grant h
    have hu : Sound (g ::ₘ held) u.pool := Scene.IsSound.gains (s := ⟨held, c, w⟩) h hgain
    have hpending := hu.head_pending hid
    -- what is dealt waits in the slot of the request, where the pool still has it
    have hgrant : w.pool.Deals m 0 (u.grant id g).pool := by
      rw [Work.grant_eq g hpending]
      refine hdeals.back (Pool.draws_withdraw id _).policy (Pool.lastEntry_withdraw id u.pool) ?_
      exact Pool.owned_of_census (Pool.census_settle
        (s := { route := g.record.route, outcome := .granted g }) hu hpending
        (Multiset.singleton_add g held).symm)
    obtain ⟨hrest, hfits⟩ := ih (Served.sound_grant h hgain hid)
    refine ⟨hgrant.trans hrest, fun x e he => ?_⟩
    rcases List.mem_cons.1 he with heq | he
    · obtain ⟨-, rfl⟩ := Prod.mk.inj heq
      exact hfit e (Multiset.mem_singleton_self _)
    · exact hgrant.policy ▸ hfits x e he

theorem Work.dispatch_deals (first : Option Route) :
    w.pool.Deals m 0 (w.dispatch m first).pool := by
  obtain ⟨l, hserved, -⟩ := Work.dispatch_served (m := m) (c := 0) h first
  exact (hserved.deals h).1

theorem Work.dispatch_prune_deals (first : Option Route) (r : Route) :
    w.pool.Deals m 0 ((w.dispatch m first).pool.prune r) := by
  obtain ⟨l, hserved, -⟩ := Work.dispatch_served (m := m) (c := 0) h first
  exact (Work.dispatch_deals h first).andThen
    (Pool.deals_relane (hserved.sound h).tidy (Pool.relanes_prune _ r))

end Dealt

namespace Pool

theorem deals_remove (h : Sound held p) {s : Slot} (hid : p.requests.get? id = some s) :
    p.Deals m s.grants { p with requests := p.requests.remove id } :=
  .of_le rfl rfl (owned_of_census (census_collect h hid).symm).ge

theorem deals_quit (h : Sound held p) (hid : p.requests.get? id = some { route := r }) :
    p.Deals m 0 { p.withdraw id with requests := p.requests.remove id } :=
  .of_eq (draws_withdraw id _).policy (lastEntry_withdraw id p)
    (owned_eq_of_census (census_quit h hid))

theorem deals_refuse (h : Sound held p) (hid : p.requests.get? id = some { route := r })
    (f : Refusal) : p.Deals m 0 { p.withdraw id with
      requests := p.requests.put id { route := r, outcome := .failed f } } :=
  .of_eq (draws_withdraw id _).policy (lastEntry_withdraw id p)
    (owned_eq_of_census (census_settle h hid (s := { route := r, outcome := .failed f })
      (zero_add _).symm))

theorem deals_freed (t : Record) (p : Pool) : p.Deals m 0 (p.freed t) :=
  .of_eq rfl rfl (owned_freed t p)

end Pool

namespace Work

theorem lease_deals (h : Sound held w.pool) : w.pool.Deals m 0 (w.lease m r).2.pool ∧
    ∀ x s e, w.pool.Grants (w.lease m r).2.pool x s (.reuse e) →
      e.isFit m w.pool.policy.validateAfter := by
  cases hshut : w.pool.isShut with
  | true =>
    have hstay : (w.lease m r).2 = w := by simp [lease, hshut]
    rw [hstay]
    exact ⟨.refl _, fun x s e hg => absurd hg (w.pool.not_grants x s _)⟩
  | false =>
    have hnumbered : w.pool.Deals m 0 w.numbered.pool := .of_eq rfl rfl rfl
    have hsound := numbered_sound h
    rcases lease_cases (m := m) (c := 0) (r := r) h hshut with
      ⟨g, u, hlease, -, -, hgain⟩ | ⟨u, hlease, -, hgain⟩
    · obtain ⟨hdeals, hfit⟩ := hgain.deals_of_grant hsound
      have hrequests : u.pool.requests = w.pool.requests := hgain.sameQueues.requests
      rw [hlease]
      refine ⟨hnumbered.andThen (hdeals.back rfl rfl ?_), fun x s e hg => ?_⟩
      · exact Pool.owned_enter (lt_nextRequest h hgain) _
      · obtain ⟨-, hslot⟩ := hg.of_put (congrArg (Table.put · _ _) hrequests)
        obtain ⟨-, rfl⟩ : g.record.route = s ∧ g = .reuse e := by simpa using hslot
        exact hfit e (Multiset.mem_singleton_self _)
    · have hu : Sound held u.pool := Scene.IsSound.gains (s := ⟨held, 0, w.numbered⟩) hsound hgain
      have hrequests : u.pool.requests = w.pool.requests := hgain.sameQueues.requests
      rw [hlease]
      refine ⟨(hnumbered.andThen (hgain.deals_of_none hsound)).andThen (.of_eq rfl rfl ?_),
        fun x s e hg => ?_⟩
      · exact Pool.owned_enqueue (lt_nextRequest h hgain)
      · obtain ⟨-, hslot⟩ := hg.of_put (congrArg (Table.put · _ _) hrequests)
        cases hslot

theorem cancel_deals (h : Sound held w.pool) : w.pool.Deals m 0 (w.cancel id).2.pool := by
  by_cases hid : ∃ r, w.pool.requests.get? id = some { route := r }
  · obtain ⟨r, hid⟩ := hid
    rw [cancel_eq hid]
    exact Pool.deals_refuse h hid .cancelled
  · rw [cancel_of_not_pending (not_exists.1 hid)]
    exact .refl _

theorem vacate_deals {t : Record} (h : Sound (.create t ::ₘ held) w.pool) :
    w.pool.Deals m 0 (w.vacate m t).pool := by
  cases hshut : w.pool.isShut with
  | true =>
    rw [vacate_of_shut hshut]
    exact .refl _
  | false =>
    rw [vacate_eq h hshut]
    have hfreed : Sound held (w.pool.freed t) := h.freed (h.mem_leased hshut)
    exact (Pool.deals_freed t w.pool).andThen
      (dispatch_prune_deals (w := { w with pool := w.pool.freed t }) hfreed _ t.route)

theorem putBack_deals (h : Sound (.reuse e ::ₘ held) w.pool) (hopen : w.pool.isShut = false)
    (hdeals : p.Deals m {.reuse e} w.pool) : p.Deals m 0 (w.putBack e).pool := by
  rw [h.putBack_eq hopen]
  refine hdeals.back rfl rfl ?_
  rw [Multiset.singleton_add, ← Pool.owned_freed e.record w.pool]
  exact Pool.owned_restock (Pool.stock_restock rfl (Lane.reinsert_perm e _)) rfl

theorem forget_deals (h : Sound held w.pool) : w.pool.Deals m 0 (w.forget m id).pool := by
  cases hid : w.pool.requests.get? id with
  | none =>
    rw [forget_of_none hid]
    exact .refl _
  | some s =>
    obtain ⟨r, o⟩ := s
    have hremove : w.pool.Deals m _ (w.cleared id).pool := Pool.deals_remove h hid
    cases o with
    | pending =>
      rw [forget_pending hid]
      exact Pool.deals_quit h hid
    | failed f =>
      rw [forget_failed hid]
      exact hremove
    | granted g =>
      rw [Slot.grants_granted] at hremove
      have hsound := h.collect hid rfl
      rw [Slot.grants_granted, Multiset.singleton_add] at hsound
      cases g with
      | reuse e =>
        have hopen : (w.uncollected id e).pool.isShut = false := h.isShut_eq_false_of_granted hid
        have hback : Sound held ((w.uncollected id e).putBack e).pool := hsound.restore hopen
        rw [forget_reuse hid]
        exact (putBack_deals hsound hopen hremove).andThen (dispatch_deals hback _)
      | create t =>
        rw [forget_create hid]
        exact hremove.drop.andThen (vacate_deals (w := (w.cleared id).note _) hsound)

theorem takeBack_inherits (h : Sound (.reuse e ::ₘ held) w.pool) (reusable : Bool)
    (v : Option Span) :
    w.pool.Inherits m (if reusable then some (e.kept m w.pool.policy.keepalive v) else none)
      (w.takeBack m e.record e.conn reusable v).2.pool := by
  cases hshut : w.pool.isShut with
  | true =>
    rw [takeBack_of_shut hshut]
    exact (Pool.Deals.refl w.pool).inherits _
  | false =>
    have hreceived := h.receive (m := m) hshut reusable v
    have hdispatch :=
      dispatch_prune_deals (m := m) hreceived (some e.record.route) e.record.route
    rw [takeBack_eq h hshut]
    rcases receive_cases m e reusable v w with ⟨hkeeps, -, hpool⟩ | ⟨-, -, hpool⟩
    · rw [Bool.and_eq_true, Bool.and_eq_true] at hkeeps
      have howned := Pool.owned_stocked (e.kept m w.pool.policy.keepalive v)
        (w.pool.freed e.record)
      rw [Pool.owned_freed] at howned
      rw [hpool] at hdispatch
      rw [if_pos hkeeps.1.1]
      exact .of_stocked (q := (w.pool.freed e.record).stocked _) rfl rfl howned hdispatch
    · rw [hpool] at hdispatch
      exact ((Pool.deals_freed _ _).andThen hdispatch).inherits _

theorem trim_deals {c : Multiset Conn} {u : Work} (h : Sound held w.pool)
    (hv : Sheds ⟨held, c, w⟩ ⟨held, c, v⟩) (hu : u = v ∨ u = v.dispatch m none) :
    w.pool.Deals m 0 u.pool := by
  have hshed : w.pool.Deals m 0 v.pool := Gains.deals_of_none h hv.gains
  rcases hu with rfl | rfl
  · exact hshed
  · exact hshed.andThen (dispatch_deals (Scene.IsSound.sheds (s := ⟨held, c, w⟩) h hv) none)

theorem Relimits.deals {c : Multiset Conn} {f : Limits → Limits} {first : Option Route} {u : Work}
    (h : Sound held w.pool) (hr : Relimits m held c f first w u) : w.pool.Deals m 0 u.pool := by
  cases hr with
  | refused => exact .refl _
  | @done v hsheds =>
    have hlimits := changeLimits_sound h f
    have hchange : w.pool.Deals m 0 (w.changeLimits f).pool := .of_eq rfl rfl rfl
    have hv : Sound held v.pool := Scene.IsSound.sheds (s := ⟨held, c, w.changeLimits f⟩) hlimits hsheds
    exact (hchange.andThen (Gains.deals_of_none hlimits hsheds.gains)).andThen
      (dispatch_deals hv first)

theorem shutDown_deals (w : Work) : w.pool.Deals m 0 w.shutDown.2.pool := by
  cases hshut : w.pool.isShut with
  | true =>
    rw [shutDown_of_shut hshut]
    exact .refl _
  | false =>
    rw [pool_shutDown hshut]
    exact .of_le rfl rfl (by rw [Pool.owned_torn, add_zero]; exact Multiset.zero_le _)

end Work

def Op.returns (m : Moment) (t : Tenancy) : Op → Option Idle
  | release id true v => (t.entries.get? id).map fun e =>
    Idle.kept m t.pool.policy.keepalive v { record := e.record, conn := e.conn }
  | _ => none

namespace Tenancy

variable {t : Tenancy} {o : Op} {made : List Conn}

theorem release_inherits (h : t.IsSound) (x : EntryId) (reusable : Bool) (v : Option Span) :
    t.pool.Inherits m ((Op.release x reusable v).returns m t)
      (t.release m x reusable v).tenancy.pool := by
  cases hd : t.entries.get? x with
  | none =>
    obtain ⟨a, ha⟩ := release_of_none (m := m) hd reusable v
    rw [ha]
    exact (Pool.Deals.refl t.pool).inherits _
  | some d =>
    have htake := Work.takeBack_inherits (m := m) (e := ⟨d.record, d.conn⟩)
      (w := { pool := t.pool }) (out_remove h hd ▸ h.sound) reusable v
    rw [release_eq hd]
    cases reusable with
    | true =>
      rw [Op.returns, hd]
      exact htake
    | false => exact htake

theorem look_deals (h : t.IsSound) (last : Bool) :
    t.pool.Deals m 0 (t.look id last).tenancy.pool := by
  rcases t.pool.slot_cases id with hid | ⟨r, hid⟩ | ⟨s, hid, hs⟩
  · obtain ⟨a, ha⟩ := collect_of_none hid
    rw [look_of_not_pending last fun r hr => by simp [hid] at hr, ha]
    exact .refl _
  · rw [look_pending last hid]
    cases last with
    | false => exact .refl _
    | true =>
      change t.pool.Deals m 0 (t.pool.timeOut id).2
      rw [Pool.timeOut_eq]
      exact Pool.deals_quit h.sound hid
  · have hcleared : t.pool.Deals m 0 (t.clearedPool id) := (Pool.deals_remove h.sound hid).drop
    rw [look_of_not_pending last (Pool.ne_pending hid hs)]
    obtain ⟨r, o⟩ := s
    cases o with
    | pending => cases hs
    | failed f =>
      rw [collect_failed hid]
      exact hcleared
    | granted g =>
      cases g with
      | reuse e =>
        rw [collect_reuse hid]
        exact hcleared
      | create s =>
        rw [collect_create hid]
        exact hcleared

theorem act_inherits (h : t.IsSound) (hp : o.isPossible t made) :
    t.pool.Inherits m (o.returns m t) (t.act m o).tenancy.pool := by
  cases o with
  | lease r timeout =>
    change t.pool.Inherits m none (t.lease m r timeout).tenancy.pool
    rw [lease_pool]
    exact (Work.lease_deals (w := { pool := t.pool }) h.sound).1.inherits none
  | get id last => exact (look_deals h last).inherits _
  | connected s x =>
    change t.pool.Inherits m none (t.connected s x).tenancy.pool
    rw [connected_pool]
    exact (Pool.Deals.refl t.pool).inherits none
  | connectFailed s f =>
    have hs : s ∈ t.creating := of_decide_eq_true hp
    have hsound : Sound (.create s ::ₘ _) t.pool := out_erase hs ▸ h.sound
    exact (Work.vacate_deals (w := (Work.mk t.pool [] []).note _) hsound).inherits _
  | cancel id => exact (Work.cancel_deals (w := { pool := t.pool }) h.sound).inherits _
  | dropRequest id => exact (Work.forget_deals (w := { pool := t.pool }) h.sound).inherits _
  | release id reusable v => exact release_inherits h id reusable v
  | discard id => exact release_inherits h id false none
  | dropEntry id =>
    change t.pool.Inherits m none (t.dropEntry m id).tenancy.pool
    by_cases hd : t.entries.has id
    · rw [(dropEntry_of_has (c := 0) hd).1]
      exact release_inherits h id false none
    · rw [dropEntry_of_not_has hd]
      exact (Pool.Deals.refl t.pool).inherits none
  | setMaxTotal max =>
    exact ((Work.setMaxTotal_relimits (w := { pool := t.pool }) (c := 0) h.sound max).deals
      h.sound).inherits _
  | setDefaultMax max =>
    exact ((Work.setDefaultMax_relimits (w := { pool := t.pool }) (c := 0) h.sound max).deals
      h.sound).inherits _
  | setMaxFor r max =>
    exact ((Work.setMaxFor_relimits (w := { pool := t.pool }) (c := 0) h.sound r max).deals
      h.sound).inherits _
  | closeExpired =>
    obtain ⟨v, hv, hu⟩ := Work.closeExpired_sheds (w := { pool := t.pool }) (c := 0) h.sound
    exact (Work.trim_deals h.sound hv hu).inherits _
  | closeIdle span =>
    obtain ⟨v, hv, hu⟩ := Work.closeIdle_sheds (w := { pool := t.pool }) (c := 0) h.sound span
    exact (Work.trim_deals h.sound hv hu).inherits _
  | shutDown => exact (Work.shutDown_deals { pool := t.pool }).inherits _

theorem out_put_le (e : Entry) (p : Pool) :
    out { t with pool := p, entries := t.entries.put e.record.id e } ≤ e.grant ::ₘ t.out := by
  have htotal := Table.total_put (f := fun _ e => ({Entry.grant e} : Multiset Grant)) t.entries
    e.record.id e
  have hle := (Multiset.le_add_right _ _).trans htotal.le
  rw [add_comm, Multiset.singleton_add] at hle
  unfold out
  rw [← Multiset.cons_add]
  exact add_le_add_left hle _

theorem mem_census_of_out (hg : g ∈ t.out) : g ∈ t.pool.census t.out := by
  rw [Pool.census_eq_owned]
  exact Multiset.mem_add.2 (.inl hg)

def Knows (t : Tenancy) (r : Record) : Prop := ∃ d ∈ t.pool.census t.out, d.record = r

theorem knows_of_out_le {u : Tenancy} (hle : u.out ≤ t.out) (hg : g ∈ u.out) : t.Knows g.record :=
  ⟨g, mem_census_of_out (Multiset.mem_of_le hle hg), rfl⟩

theorem knows_of_granted (hid : t.pool.requests.get? id = some { route := r, outcome := .granted g }) :
    t.Knows g.record := by
  refine ⟨g, ?_, rfl⟩
  rw [Pool.census_eq_owned]
  exact Multiset.mem_add.2 (.inr (Pool.mem_owned_of_granted hid))

theorem look_knows (last : Bool) (hg : g ∈ (t.look id last).tenancy.out) : t.Knows g.record := by
  rcases t.pool.slot_cases id with hid | ⟨r, hid⟩ | ⟨s, hid, hs⟩
  · obtain ⟨a, ha⟩ := collect_of_none hid
    rw [look_of_not_pending last fun r hr => by simp [hid] at hr, ha] at hg
    exact knows_of_out_le le_rfl hg
  · rw [look_pending last hid] at hg
    cases last <;> exact knows_of_out_le (u := t) le_rfl hg
  · rw [look_of_not_pending last (Pool.ne_pending hid hs)] at hg
    obtain ⟨r, o⟩ := s
    cases o with
    | pending => cases hs
    | failed f =>
      rw [collect_failed hid] at hg
      exact knows_of_out_le (u := t) le_rfl hg
    | granted d =>
      cases d with
      | reuse e =>
        rw [collect_reuse hid] at hg
        have hle := out_put_le (t := t) { record := e.record, conn := e.conn, reused := true }
          (t.clearedPool id)
        rcases Multiset.mem_cons.1 (Multiset.mem_of_le hle hg) with rfl | hg
        · exact knows_of_granted hid
        · exact knows_of_out_le le_rfl hg
      | create s =>
        rw [collect_create hid] at hg
        rcases Multiset.mem_cons.1 (out_create s (t.clearedPool id) ▸ hg) with rfl | hg
        · exact knows_of_granted hid
        · exact knows_of_out_le le_rfl hg

theorem connected_knows {s : Record} (hs : s ∈ t.creating) (x : Conn)
    (hg : g ∈ (t.connected s x).tenancy.out) : t.Knows g.record := by
  have hrest : t.out = .create s ::ₘ out { t with creating := t.creating.erase s } := out_erase hs
  have hle : out { t with creating := t.creating.erase s } ≤ t.out :=
    hrest ▸ Multiset.le_cons_self _ _
  change g ∈ out (connected s x t).tenancy at hg
  unfold connected at hg
  dsimp only at hg
  split at hg
  · exact knows_of_out_le hle hg
  · have hput := out_put_le (t := { t with creating := t.creating.erase s })
      { record := s, conn := x, reused := false } t.pool
    rcases Multiset.mem_cons.1 (Multiset.mem_of_le hput hg) with rfl | hg
    · exact ⟨.create s, mem_census_of_out (hrest ▸ Multiset.mem_cons_self _ _), rfl⟩
    · exact knows_of_out_le hle hg

theorem release_out_le (h : t.IsSound) (x : EntryId) (reusable : Bool) (v : Option Span) :
    (t.release m x reusable v).tenancy.out ≤ t.out := by
  cases hd : t.entries.get? x with
  | none =>
    obtain ⟨a, ha⟩ := release_of_none (m := m) hd reusable v
    rw [ha]
  | some d =>
    rw [release_eq hd, out_remove h hd]
    exact Multiset.le_cons_self _ _

theorem act_knows (h : t.IsSound) (hp : o.isPossible t made)
    (hg : g ∈ (t.act m o).tenancy.out) : t.Knows g.record := by
  cases o with
  | lease r timeout =>
    have hout : (t.lease m r timeout).tenancy.out = t.out := by
      unfold lease
      dsimp only
      split <;> rfl
    exact knows_of_out_le hout.le hg
  | get id last => exact look_knows last hg
  | connected s x =>
    exact connected_knows (of_decide_eq_true (Bool.and_eq_true_iff.1 hp).1) x hg
  | connectFailed s f =>
    have hs : s ∈ t.creating := of_decide_eq_true hp
    refine knows_of_out_le (u := { t with creating := t.creating.erase s }) ?_ hg
    rw [out_erase hs]
    exact Multiset.le_cons_self _ _
  | release id reusable v => exact knows_of_out_le (release_out_le h id reusable v) hg
  | discard id => exact knows_of_out_le (release_out_le h id false none) hg
  | dropEntry id =>
    change g ∈ (t.dropEntry m id).tenancy.out at hg
    by_cases hd : t.entries.has id
    · rw [(dropEntry_of_has (c := 0) hd).1] at hg
      exact knows_of_out_le (release_out_le h id false none) hg
    · rw [dropEntry_of_not_has hd] at hg
      exact knows_of_out_le le_rfl hg
  | _ => exact knows_of_out_le (u := t) le_rfl hg

theorem act_fit (h : t.IsSound) (hp : o.isPossible t made)
    (hg : t.pool.Grants (t.act m o).tenancy.pool id r (.reuse e)) :
    e.isFit m t.pool.policy.validateAfter := by
  by_cases ho : ∃ r timeout, o = .lease r timeout
  · obtain ⟨s, timeout, rfl⟩ := ho
    change t.pool.Grants (t.lease m s timeout).tenancy.pool id r (.reuse e) at hg
    rw [lease_pool] at hg
    exact (Work.lease_deals (w := { pool := t.pool }) h.sound).2 id r e hg
  · have hpolicy := (act_inherits (m := m) h hp).policy
    obtain ⟨hsound, hslots, -, hserved, -⟩ :=
      act_course (m := m) h hp fun r timeout heq => ho ⟨r, timeout, heq⟩
    obtain ⟨hdeals, hfit⟩ := hserved.deals hsound
    rw [← hpolicy, show (t.act m o).tenancy.pool.policy = _ from hdeals.policy]
    rcases hserved.get?_cases hsound id with ⟨hsame, -⟩ | ⟨d, hd, -, hgranted⟩
    · have hsettle := (hslots id).symm.trans (hsame.symm.trans hg.granted)
      exact absurd (Op.settle_granted hsettle) (hg.isNew _)
    · obtain ⟨-, rfl⟩ : d.record.route = r ∧ d = .reuse e := by
        simpa using hgranted.symm.trans hg.granted
      exact hfit id e hd

end Tenancy

end ConnectionPool
