import ConnectionPool.Proofs.History

namespace ConnectionPool

variable {conf : Conf} {l : Life} {m : Moment} {o : Op} {t : Tenancy} {made : List Conn}
  {a b id : RequestId} {P Q r : Route} {x y g : Grant} {ops : List (Moment × Op)}

structure Pool.Grants (p q : Pool) (id : RequestId) (r : Route) (g : Grant) : Prop where
  granted : q.requests.get? id = some { route := r, outcome := .granted g }
  isNew : ∀ d, p.requests.get? id ≠ some { route := r, outcome := .granted d }

theorem Pool.not_grants (p : Pool) (id : RequestId) (r : Route) (g : Grant) : ¬ p.Grants p id r g :=
  fun h => h.isNew g h.granted

theorem Pool.Grants.of_put {p q : Pool} {s : Slot} (h : p.Grants q b r g)
    (hrequests : q.requests = p.requests.put a s) :
    b = a ∧ s = { route := r, outcome := .granted g } := by
  have hgranted := h.granted
  rw [hrequests] at hgranted
  by_cases hab : a = b
  · subst hab
    rw [Table.get?_put_self] at hgranted
    exact ⟨rfl, Option.some.inj hgranted⟩
  · rw [Table.get?_put_of_ne _ _ hab] at hgranted
    exact absurd hgranted (h.isNew g)

/-- From `p` to `q` the requests in `l` are granted what they are to have, one after the other, and
those who still wait were passed over fairly. -/
structure Pool.Serving (p q : Pool) (first : Option Route) (l : List (RequestId × Grant)) : Prop where
  mem : ∀ {id r g}, p.Grants q id r g → g.record.route = r ∧ (id, g) ∈ l
  grants : ∀ {id g}, (id, g) ∈ l → p.Grants q id g.record.route g
  pending : ∀ {id g}, (id, g) ∈ l → ∀ s, p.requests.get? id = some s → s.isPending
  nodup : (l.map (·.2.slot)).Nodup
  sublist : ∀ {a x b y}, (a, x) ∈ l → (b, y) ∈ l → x.record.route = y.record.route →
    a.number < b.number → [(a, x), (b, y)].Sublist l
  lt : ∀ {a b y}, (b, y) ∈ l → a ∈ (q.lane y.record.route).queue → b.number < a.number
  fair : q.Fair first l

theorem Pool.Serving.none {p q : Pool} {first : Option Route}
    (hgrants : ∀ id r g, ¬ p.Grants q id r g) : p.Serving q first [] where
  mem hg := absurd hg (hgrants _ _ _)
  grants hid := absurd hid List.not_mem_nil
  pending hid := absurd hid List.not_mem_nil
  nodup := List.nodup_nil
  sublist ha := absurd ha List.not_mem_nil
  lt hb := absurd hb List.not_mem_nil
  fair := by simp [Pool.Fair]

namespace Tenancy

theorem lease_waits {timeout : Option Span} (h : t.IsSound)
    (ha : t.pool.requests.get? a = some { route := r })
    (hb : (t.lease m r timeout).answer = .ok b) :
    (t.lease m r timeout).tenancy.pool.requests.get? b = some { route := r } := by
  cases lease_leases (m := m) (r := r) h timeout with
  | refused f hturn => simp [hturn] at hb
  | enters s ticket hanswer hrequests _ _ hslot =>
    obtain rfl := Except.ok.inj (hanswer.symm.trans hb)
    rw [hrequests, Table.get?_put_self]
    rcases hslot with ⟨rfl, -⟩ | ⟨g, -, -, hq, -⟩
    · rfl
    · have hmem := h.sound.queued.mem_queue.2 ha
      exact absurd hmem (by simp [hq])

theorem lease_serving_granted (h : t.IsSound) (hs : t.pool.Settled) {timeout : Option Span}
    (hrequests : (t.act m (.lease g.record.route timeout)).tenancy.pool.requests =
      t.pool.requests.put t.pool.nextRequest { route := g.record.route, outcome := .granted g })
    (hq : (t.pool.lane g.record.route).queue = [])
    (hfull : ∀ s, t.pool.Stuck s →
      (t.act m (.lease g.record.route timeout)).tenancy.pool.AtLimit s) :
    t.pool.Serving (t.act m (.lease g.record.route timeout)).tenancy.pool none
      [(t.pool.nextRequest, g)] := by
  have hp : (Op.lease g.record.route timeout).isPossible t [] := rfl
  have hsound := (act_sound (m := m) h hp).sound
  have hself := congrArg (·.get? t.pool.nextRequest) hrequests
  simp only [Table.get?_put_self] at hself
  have hwaits (a : RequestId) (s : Route)
      (ha : a ∈ ((t.act m (.lease g.record.route timeout)).tenancy.pool.lane s).queue) :
      a ∈ (t.pool.lane s).queue := by
    rw [hsound.queued.mem_queue] at ha
    have hne : t.pool.nextRequest ≠ a := by
      rintro rfl
      simp [hself] at ha
    rw [h.sound.queued.mem_queue, ← ha, hrequests, Table.get?_put_of_ne _ _ hne]
  exact {
    mem := fun {id r d} hg => by
      obtain ⟨rfl, hslot⟩ := hg.of_put hrequests
      obtain ⟨rfl, rfl⟩ : g.record.route = r ∧ g = d := by simpa using hslot
      exact ⟨rfl, List.mem_singleton_self _⟩
    grants := fun {id d} hid => by
      obtain ⟨rfl, rfl⟩ := Prod.mk.inj (List.mem_singleton.1 hid)
      exact ⟨hself, fun x hx => by simp [isNew_nextRequest h] at hx⟩
    pending := fun {id d} hid s hs => by
      obtain ⟨rfl, -⟩ := Prod.mk.inj (List.mem_singleton.1 hid)
      simp [isNew_nextRequest h] at hs
    nodup := List.nodup_singleton _
    sublist := fun ha hb _ hlt => by
      obtain ⟨rfl, -⟩ := Prod.mk.inj (List.mem_singleton.1 ha)
      obtain ⟨rfl, -⟩ := Prod.mk.inj (List.mem_singleton.1 hb)
      exact absurd hlt (lt_irrefl _)
    lt := fun {a b y} hb ha => by
      obtain ⟨rfl, rfl⟩ := Prod.mk.inj (List.mem_singleton.1 hb)
      exact absurd (hwaits a _ ha) (by simp [hq])
    fair := fun _ _ s _ a ha _ => hfull s (hs s (List.ne_nil_of_mem (hwaits a s ha))) }

theorem lease_serving (h : t.IsSound) (hs : t.pool.Settled) (r : Route) (timeout : Option Span) :
    ∃ l, (t.act m (.lease r timeout)).work.handed = l.map (·.2.slot) ∧
      t.pool.Serving (t.act m (.lease r timeout)).tenancy.pool none l := by
  cases lease_leases (m := m) (r := r) h timeout with
  | refused f hturn =>
    have hsame : t.act m (.lease r timeout) = { answer := (), tenancy := t } :=
      congrArg (Turn.reply ()) hturn
    rw [hsame]
    exact ⟨[], rfl, .none t.pool.not_grants⟩
  | enters s ticket _ hrequests _ _ hslot =>
    rcases hslot with ⟨rfl, hhanded⟩ | ⟨g, rfl, rfl, hq, hhanded, hfull⟩
    · exact ⟨[], hhanded, .none fun id r g hg => by simpa using (hg.of_put hrequests).2⟩
    · exact ⟨[(t.pool.nextRequest, g)], hhanded, lease_serving_granted h hs hrequests hq hfull⟩

theorem act_serving (h : t.IsSound) (hs : t.pool.Settled) (hp : o.isPossible t made) :
    ∃ l, (t.act m o).work.handed = l.map (·.2.slot) ∧
      t.pool.Serving (t.act m o).tenancy.pool (o.first t) l := by
  by_cases ho : ∃ r timeout, o = .lease r timeout
  · obtain ⟨r, timeout, rfl⟩ := ho
    exact lease_serving h hs r timeout
  obtain ⟨hsound, hslots, hhanded, hserved, hfair⟩ :=
    act_course (m := m) h hp fun r timeout heq => ho ⟨r, timeout, heq⟩
  rename_i w l
  have hpending {id : RequestId} {g : Grant} (hid : (id, g) ∈ l) :
      t.pool.requests.get? id = some { route := g.record.route } :=
    Op.settle_pending ((hslots id).symm.trans (hserved.pending hsound hid))
  exact ⟨l, by rw [hserved.handed hsound, hhanded, List.nil_append], {
    mem := fun {id r g} hg => by
      rcases hserved.get?_cases hsound id with ⟨hsame, -⟩ | ⟨d, hd, -, hgranted⟩
      · have hsettle := (hslots id).symm.trans (hsame.symm.trans hg.granted)
        exact absurd (Op.settle_granted hsettle) (hg.isNew g)
      · obtain ⟨rfl, rfl⟩ : d.record.route = r ∧ d = g := by
          simpa using hgranted.symm.trans hg.granted
        exact ⟨rfl, hd⟩
    grants := fun {id g} hid => by
      refine ⟨hserved.get?_of_mem hsound hid, fun d hd => ?_⟩
      simp [hpending hid] at hd
    pending := fun {id g} hid s hs => by
      obtain rfl := Option.some.inj ((hpending hid).symm.trans hs)
      rfl
    nodup := hserved.nodup_slots hsound
    sublist := hserved.sublist_of_lt hsound
    lt := hserved.lt_of_mem_queue hsound
    fair := hfair }⟩

end Tenancy

namespace Life

theorem step_serving (h : l.tenancy.IsSound) (hs : l.tenancy.pool.Settled) (m : Moment) (o : Op) :
    ∃ served, Report.handed (l.step m o).reports =
        Report.handed l.reports ++ served.map (·.2.slot) ∧
      l.tenancy.pool.Serving (l.step m o).tenancy.pool (o.first l.tenancy) served := by
  by_cases hp : o.isPossible l.tenancy l.made
  · obtain ⟨served, hhanded, hserving⟩ := Tenancy.act_serving (m := m) h hs hp
    refine ⟨served, ?_, ?_⟩
    · rw [← hhanded, step, if_pos hp]
      exact List.filterMap_append
    · rwa [step_tenancy hp]
  · rw [step_of_not_isPossible hp]
    exact ⟨[], (List.append_nil _).symm, .none l.tenancy.pool.not_grants⟩

/-- Of a route, whoever was submitted first is served first: where a request is granted something, no
earlier one waits any more, and of those granted something at one step the earlier one gets it first.
In particular a new request waits as long as an earlier one does. -/
theorem first_come_first_served (conf : Conf) (ops : List (Moment × Op)) (m : Moment) :
    let l := (start conf).run ops
    (∀ o a b, [a, b].Sublist ((start conf).submissions (ops ++ [(m, o)])) →
      let k := l.step m o
      ∃ hs, Report.handed k.reports = Report.handed l.reports ++ hs ∧ hs.Nodup ∧
        ∀ r y, l.tenancy.pool.Grants k.tenancy.pool b r y →
          k.tenancy.pool.requests.get? a ≠ some { route := r } ∧
            ∀ x, l.tenancy.pool.Grants k.tenancy.pool a r x → [x.slot, y.slot].Sublist hs) ∧
      ∀ r timeout a b, l.tenancy.pool.requests.get? a = some { route := r } →
        (l.tenancy.lease m r timeout).answer = .ok b →
          (l.tenancy.lease m r timeout).tenancy.pool.requests.get? b = some { route := r } := by
  intro l
  have h : l.tenancy.IsSound := run_sound conf ops
  refine ⟨fun o a b hab => ?_, fun r timeout a b ha hb => Tenancy.lease_waits h ha hb⟩
  have hlt := lt_of_submitted hab
  obtain ⟨served, hhanded, hserving⟩ := step_serving h (run_settled conf ops) m o
  refine ⟨_, hhanded, hserving.nodup, fun r y hy => ?_⟩
  obtain ⟨rfl, hb⟩ := hserving.mem hy
  refine ⟨fun ha => ?_, fun x hx => ?_⟩
  · have hqueued := (step_sound h m o).sound.queued
    exact hlt.asymm (hserving.lt hb (hqueued.mem_queue.2 ha))
  · obtain ⟨hroute, ha⟩ := hserving.mem hx
    exact (hserving.sublist ha hb hroute hlt).map (·.2.slot)

theorem first_come_first_served_raised :
    let l := (start Sample.conf).run Sample.waits
    let k := l.step Sample.calm (.setMaxFor Sample.route 4)
    let x := Grant.create (Sample.slot 3)
    let y := Grant.create (Sample.slot 4)
    (l.tenancy.pool.Grants k.tenancy.pool ⟨3⟩ Sample.route x ∧
        l.tenancy.pool.Grants k.tenancy.pool ⟨4⟩ Sample.route y) ∧
      (∃ hs, Report.handed k.reports = Report.handed l.reports ++ hs ∧
        [x.slot, y.slot].Sublist hs) ∧
      (l.tenancy.lease Sample.calm Sample.route none).tenancy.pool.requests.get? ⟨5⟩ =
        some { route := Sample.route } := by
  intro l k x y
  have hx : l.tenancy.pool.Grants k.tenancy.pool ⟨3⟩ Sample.route x :=
    ⟨by decide, fun d hd => nomatch hd⟩
  have hy : l.tenancy.pool.Grants k.tenancy.pool ⟨4⟩ Sample.route y :=
    ⟨by decide, fun d hd => nomatch hd⟩
  obtain ⟨hserved, hwaits⟩ := first_come_first_served Sample.conf Sample.waits Sample.calm
  obtain ⟨hs, hhanded, -, hgranted⟩ :=
    hserved (.setMaxFor Sample.route 4) ⟨3⟩ ⟨4⟩ (by decide)
  exact ⟨⟨hx, hy⟩, ⟨hs, hhanded, (hgranted _ y hy).2 x hx⟩,
    hwaits Sample.route none ⟨3⟩ ⟨5⟩ (by decide) rfl⟩

/-- A route that comes first, or one with an earlier request than the one that is granted something,
is passed over only at its own limit; unless the grant is for the route that comes first. -/
theorem passed_over_at_limit (conf : Conf) (ops : List (Moment × Op)) (m : Moment) (o : Op)
    (hpending : (((start conf).run ops).step m o).tenancy.pool.requests.get? a =
      some { route := P })
    (hgrants : ((start conf).run ops).tenancy.pool.Grants
      (((start conf).run ops).step m o).tenancy.pool b Q y) (hne : P ≠ Q)
    (hfirst : o.first ((start conf).run ops).tenancy = some P ∨
      [a, b].Sublist ((start conf).submissions (ops ++ [(m, o)])) ∧
        o.first ((start conf).run ops).tenancy ≠ some Q) :
    let p := (((start conf).run ops).step m o).tenancy.pool
    (p.stats P).max ≤ (p.stats P).leased := by
  have h := run_sound conf ops
  have hsettled := run_settled conf ops
  have hlt : [a, b].Sublist ((start conf).submissions (ops ++ [(m, o)])) → a.number < b.number :=
    lt_of_submitted
  generalize (start conf).run ops = l at h hsettled hpending hgrants hfirst ⊢
  obtain ⟨served, -, hserving⟩ := step_serving h hsettled m o
  obtain ⟨rfl, hb⟩ := hserving.mem hgrants
  have hwaits := (step_sound h m o).sound.queued.mem_queue.2 hpending
  exact hserving.fair _ hb P hne a hwaits (hfirst.imp_right (And.imp_left hlt))

theorem passed_over_at_limit_raised :
    let ops := Sample.waits ++
      [.lease Sample.otherRoute none, .lease Sample.otherRoute none,
        .lease Sample.otherRoute none, .setMaxFor Sample.route 2].map (Prod.mk Sample.calm)
    let k := ((start Sample.conf).run ops).step Sample.calm (.setDefaultMax 3)
    (k.tenancy.pool.requests.get? ⟨3⟩ = some { route := Sample.route } ∧
        ((start Sample.conf).run ops).tenancy.pool.Grants k.tenancy.pool ⟨7⟩ Sample.otherRoute
          (.create (.fresh ⟨5⟩ Sample.otherRoute 0 none))) ∧
      (k.tenancy.pool.stats Sample.route).max ≤ (k.tenancy.pool.stats Sample.route).leased := by
  intro ops k
  have hpending : k.tenancy.pool.requests.get? ⟨3⟩ = some { route := Sample.route } := by decide
  have hgrants : ((start Sample.conf).run ops).tenancy.pool.Grants k.tenancy.pool ⟨7⟩
      Sample.otherRoute (.create (.fresh ⟨5⟩ Sample.otherRoute 0 none)) :=
    ⟨by decide, fun d hd => nomatch hd⟩
  exact ⟨⟨hpending, hgrants⟩, passed_over_at_limit Sample.conf ops Sample.calm (.setDefaultMax 3)
    hpending hgrants (by decide) (.inr ⟨by decide, by decide⟩)⟩

end Life

end ConnectionPool
