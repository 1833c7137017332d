import ConnectionPool.Proofs.Callers
import ConnectionPool.Proofs.Capacity

namespace ConnectionPool

variable {conf : Conf} {l k : Life} {o : Op} {x : RequestId} {r : Route} {m : Moment}
  {pre post more : List (Moment × Op)}

namespace Life

/-- The second life went like the first, but `x` was never made in it. -/
structure Lacks (x : RequestId) (l k : Life) : Prop where
  tenancy : l.tenancy.Lacks x k.tenancy
  made : k.made = l.made
  closed : k.closed.Perm l.closed
  deeds : k.reports.filter Report.isDeed = l.reports.filter Report.isDeed

def without (x : RequestId) (ops : List (Moment × Op)) : List (Moment × Op) :=
  (ops.filter (·.2.request? ≠ some x)).map fun o => (o.1, o.2.without x)

def closes (m : Moment) (o : Op) (l : Life) : List Conn :=
  (l.step m o).closed.drop l.closed.length

theorem closes_of_isPossible (hp : o.isPossible l.tenancy l.made) :
    l.closes m o = (l.tenancy.act m o).closed := by
  rw [closes, Life.step, if_pos hp, List.drop_left]

theorem closes_of_not_isPossible (hp : ¬ o.isPossible l.tenancy l.made) : l.closes m o = [] := by
  rw [closes, step_of_not_isPossible hp, List.drop_length]

namespace Lacks

theorem isPossible (h : l.Lacks x k) (o : Op) :
    (o.without x).isPossible k.tenancy k.made = o.isPossible l.tenancy l.made := by
  cases o <;> simp [Op.isPossible, Op.without, h.tenancy.creating, h.made]

theorem makes (h : l.Lacks x k) (o : Op) : (o.without x).makes k.made = o.makes l.made := by
  rw [h.made]
  cases o <;> rfl

theorem own (h : l.Lacks x k) (hx : ¬ l.tenancy.pool.HasGrant x) (ho : o.request? = some x) :
    (l.step m o).Lacks x k := by
  have hact : l.tenancy.Concerns x (l.tenancy.act m o) := Tenancy.act_concerns hx ho
  have hmakes : o.makes l.made = l.made := by cases o <;> first | rfl | cases ho
  unfold step
  split
  · refine ⟨hact.lacks h.tenancy, h.made.trans hmakes.symm, ?_, ?_⟩
    · dsimp only
      rw [hact.closed, List.append_nil]
      exact h.closed
    · rw [List.filter_append, hact.deeds, List.append_nil, h.deeds]
  · exact h

theorem step (h : l.Lacks x k) (hl : l.tenancy.IsSound) (hk : k.tenancy.IsSound)
    (hbefore : ¬ l.tenancy.pool.HasGrant x) (hs : l.tenancy.pool.Settled)
    (hin : l.tenancy.pool.WithinLimits)
    (hrise : l.tenancy.pool.limits.Rise (l.step m o).tenancy.pool.limits)
    (ho : o.request? ≠ some x) (hx : ¬ (l.step m o).tenancy.pool.HasGrant x) :
    (l.step m o).Lacks x (k.step m (o.without x)) ∧
      (o.isPossible l.tenancy l.made →
        k.tenancy.answer m (o.without x) = (l.tenancy.answer m o).without x) ∧
      o.ClosesSame (l.closes m o) (k.closes m (o.without x)) := by
  by_cases hp : o.isPossible l.tenancy l.made
  · have hp' : (o.without x).isPossible k.tenancy k.made := by rwa [h.isPossible]
    rw [step_tenancy hp] at hrise hx
    rw [Tenancy.act_limits hl hp] at hrise
    obtain ⟨hanswer, a, b, hsweep, hplain, hturn⟩ :=
      h.tenancy.act (m := m) hl hk hin hbefore hs hp hrise ho hx
    have hcloses : o.ClosesSame (l.tenancy.act m o).closed
        (k.tenancy.act m (o.without x)).closed := by
      obtain ⟨cs, hclosed, hclosed'⟩ := hturn.closed
      exact ⟨a, b, cs, hsweep, hplain, hclosed, hclosed'⟩
    rw [closes_of_isPossible hp, closes_of_isPossible hp']
    refine ⟨?_, fun _ => hanswer, hcloses⟩
    unfold Life.step
    rw [if_pos hp, if_pos hp']
    refine ⟨hturn.tenancy, h.makes o, h.closed.append hcloses.perm.symm, ?_⟩
    rw [List.filter_append, List.filter_append, h.deeds, hturn.deeds]
  · have hp' : ¬ (o.without x).isPossible k.tenancy k.made := by rwa [h.isPossible]
    rw [closes_of_not_isPossible hp, closes_of_not_isPossible hp', step_of_not_isPossible hp,
      step_of_not_isPossible hp']
    exact ⟨h, fun hpossible => absurd hpossible hp, [], [], [], .nil, fun _ => ⟨rfl, rfl⟩, rfl, rfl⟩

end Lacks

theorem run_tickets (conf : Conf) (ops : List (Moment × Op)) {id : RequestId}
    (hid : ((start conf).run ops).tenancy.pool.lastRequest < id.number) :
    ((start conf).run ops).tenancy.tickets.get? id = none := by
  by_contra hne
  have hhas : ((start conf).run ops).tenancy.tickets.has id := Option.ne_none_iff_isSome.1 hne
  have hnew : id ∉ (start conf).history (fun _ => Op.delivers) ops := fun hmem =>
    absurd (delivered_isGone conf ops id hmem).1 hid.not_ge
  obtain ⟨s, hs⟩ := Option.isSome_iff_exists.1 ((run_tracks conf ops id).2 ⟨hhas, hnew⟩)
  exact absurd (Tenancy.number_le (run_sound conf ops) hs) hid.not_ge

theorem lacks_lease {timeout : Option Span} (hl : l.tenancy.IsSound)
    (hs : l.tenancy.pool.Settled) (hin : l.tenancy.pool.WithinLimits)
    (hopen : l.tenancy.pool.isShut = false)
    (htickets : ∀ id : RequestId, l.tenancy.pool.lastRequest < id.number →
      l.tenancy.tickets.get? id = none)
    (hx : ¬ (l.step m (.lease r timeout)).tenancy.pool.HasGrant l.tenancy.pool.nextRequest) :
    (l.step m (.lease r timeout)).Lacks l.tenancy.pool.nextRequest l := by
  have hp : (Op.lease r timeout).isPossible l.tenancy l.made := rfl
  rw [step_tenancy hp] at hx
  change ¬ (l.tenancy.lease m r timeout).tenancy.pool.HasGrant _ at hx
  rw [Tenancy.lease_of_open hopen] at hx
  have hwork := Work.lacks_lease (m := m) (r := r) hl.sound hopen hin hs hx
  have hlease : (l.tenancy.act m (.lease r timeout)) = (l.tenancy.lease m r timeout).reply () := rfl
  rw [step, if_pos hp, hlease, Tenancy.lease_of_open hopen]
  refine ⟨⟨hwork.alike.pool, hwork.requests, ?_, rfl, rfl⟩, rfl, ?_, ?_⟩
  · exact Table.lacks_put (fun id hid => htickets id hid) _
  · obtain ⟨cs, hclosing, hnone⟩ := hwork.alike.closing
    obtain rfl : cs = [] := hnone.symm
    dsimp only
    rw [hclosing]
    exact .of_eq (List.append_nil _).symm
  · rw [List.filter_append]
    exact (List.append_right_eq_self.2 hwork.alike.deeds.symm).symm

theorem without_append_singleton (x : RequestId) (ops : List (Moment × Op)) (o : Moment × Op) :
    without x (ops ++ [o]) =
      without x ops ++ if o.2.request? = some x then [] else [(o.1, o.2.without x)] := by
  unfold without
  rw [List.filter_append, List.map_append]
  split
  · next ho => simp [ho]
  · next ho => simp [ho]

end Life

theorem Pool.Alike.stats {p q : Pool} (h : p.Alike q) :
    ({ q.totalStats with pending := 0 } : Stats) = { p.totalStats with pending := 0 } ∧
      ∀ r, ({ q.stats r with pending := 0 } : Stats) = { p.stats r with pending := 0 } := by
  simp only [Pool.totalStats, Pool.stats, h.leased, h.idle, h.limits, h.slots, h.available]
  exact ⟨trivial, fun _ => trivial⟩

namespace Life

section Unseen

variable {timeout : Option Span}
  (hopen : ((start conf).run pre).tenancy.pool.isShut = false)
  (hlimits : (start conf).NeverLowers (pre ++ (m, .lease r timeout) :: post))
  (hgrant : ∀ more, more <+: post →
    ¬ ((start conf).run (pre ++ (m, .lease r timeout) :: more)).tenancy.pool.HasGrant
      ((start conf).run pre).tenancy.pool.nextRequest)
include hopen hlimits hgrant

omit hopen in
theorem run_next {o : Moment × Op} (hmore : more ++ [o] <+: post) :
    let l := (start conf).run (pre ++ (m, .lease r timeout) :: more)
    (start conf).run (pre ++ (m, .lease r timeout) :: (more ++ [o])) = l.step o.1 o.2 ∧
      l.tenancy.pool.WithinLimits ∧
      l.tenancy.pool.limits.Rise (l.step o.1 o.2).tenancy.pool.limits ∧
      ¬ (l.step o.1 o.2).tenancy.pool.HasGrant ((start conf).run pre).tenancy.pool.nextRequest := by
  intro l
  have hrun : pre ++ (m, .lease r timeout) :: (more ++ [o]) =
      (pre ++ (m, .lease r timeout) :: more) ++ [o] := by simp
  have hprefix : (pre ++ (m, .lease r timeout) :: more) ++ [o] <+:
      pre ++ (m, .lease r timeout) :: post :=
    hrun ▸ (List.prefix_append_right_inj pre).2 ((List.prefix_cons_inj _).2 hmore)
  have hrise := hlimits _ o hprefix
  have hend := hgrant _ hmore
  rw [hrun, run_append_singleton] at hend
  rw [run_append_singleton] at hrise
  rw [hrun, run_append_singleton]
  exact ⟨rfl, run_withinLimits hlimits ((List.prefix_append _ _).trans hprefix), hrise, hend⟩

theorem run_lacks (hmore : more <+: post) :
    ((start conf).run (pre ++ (m, .lease r timeout) :: more)).Lacks
      ((start conf).run pre).tenancy.pool.nextRequest
      ((start conf).run
        (pre ++ without ((start conf).run pre).tenancy.pool.nextRequest more)) := by
  induction more using List.reverseRecOn with
  | nil =>
    have hstart := hgrant [] hmore
    rw [run_append_singleton] at hstart
    rw [without, List.filter_nil, List.map_nil, List.append_nil, run_append_singleton]
    exact lacks_lease (run_sound conf pre) (run_settled conf pre)
      (run_withinLimits hlimits (List.prefix_append _ _)) hopen (fun _ => run_tickets conf pre)
      hstart
  | append_singleton more o ih =>
    have hprefix : more <+: post := (List.prefix_append more [o]).trans hmore
    have hsound := run_sound conf (pre ++ (m, .lease r timeout) :: more)
    obtain ⟨hrun, hin, hrise, hend⟩ := run_next hlimits hgrant hmore
    rw [hrun, without_append_singleton]
    split
    · next ho =>
      rw [List.append_nil]
      exact (ih hprefix).own (hgrant more hprefix) ho
    · next ho =>
      rw [← List.append_assoc, run_append_singleton]
      exact ((ih hprefix).step hsound (run_sound conf _) (hgrant more hprefix)
        (run_settled conf _) hin hrise ho hend).1

end Unseen

/-- A request that is never granted is unseen, as long as no limit is lowered: without it, all calls
of others get the same answers, all other requests have the same outcomes at the same time, and the
same connections are created, evicted and closed in the same order.  Only those who wait are fewer,
and a sweep goes through requests and routes in no order of its own. -/
theorem unseen_unless_granted (conf : Conf) (pre post : List (Moment × Op)) (m : Moment) (r : Route)
    (timeout : Option Span)
    (hopen : ((start conf).run pre).tenancy.pool.isShut = false)
    (hlimits : (start conf).NeverLowers (pre ++ (m, .lease r timeout) :: post))
    (hgrant : ∀ more, more <+: post →
      ¬ ((start conf).run (pre ++ (m, .lease r timeout) :: more)).tenancy.pool.HasGrant
        ((start conf).run pre).tenancy.pool.nextRequest) :
    let x := ((start conf).run pre).tenancy.pool.nextRequest
    ∀ more, more <+: post →
      let l := (start conf).run (pre ++ (m, .lease r timeout) :: more)
      let k := (start conf).run (pre ++ without x more)
      l.Lacks x k ∧
        ({ k.tenancy.pool.totalStats with pending := 0 } : Stats) =
          { l.tenancy.pool.totalStats with pending := 0 } ∧
        (∀ s, ({ k.tenancy.pool.stats s with pending := 0 } : Stats) =
          { l.tenancy.pool.stats s with pending := 0 }) ∧
        ∀ n o, more ++ [(n, o)] <+: post → o.request? ≠ some x →
          (o.without x).isPossible k.tenancy k.made = o.isPossible l.tenancy l.made ∧
            (o.isPossible l.tenancy l.made →
              k.tenancy.answer n (o.without x) = (l.tenancy.answer n o).without x) ∧
            o.ClosesSame (l.closes n o) (k.closes n (o.without x)) := by
  intro x more hmore l k
  have hlacks : l.Lacks x k := run_lacks hopen hlimits hgrant hmore
  obtain ⟨htotal, hroute⟩ := hlacks.tenancy.alike.stats
  refine ⟨hlacks, htotal, hroute, fun n o hnext ho => ⟨hlacks.isPossible o, ?_⟩⟩
  obtain ⟨-, hin, hrise, hend⟩ := run_next hlimits hgrant hnext
  exact (hlacks.step (run_sound conf _) (run_sound conf _) (hgrant more hmore) (run_settled conf _)
    hin hrise ho hend).2

theorem unseen_unless_granted_cancelled :
    let pre := Sample.waits.take 2
    let lease := (Sample.calm, Op.lease Sample.route none)
    let served := [.lease Sample.route none, .get ⟨1⟩ false, .connected (Sample.slot 1) ⟨1⟩,
      .cancel ⟨3⟩, .release ⟨1⟩ true none].map (Prod.mk Sample.calm)
    let post := served ++ [(Sample.calm, .get ⟨4⟩ false)]
    let l := (start Sample.conf).run (pre ++ lease :: served)
    let k := (start Sample.conf).run (pre ++ without ⟨3⟩ served)
    (((start Sample.conf).run pre).tenancy.pool.isShut = false ∧
      (start Sample.conf).NeverLowers (pre ++ lease :: post) ∧
      ∀ more, more <+: post →
        ¬ ((start Sample.conf).run (pre ++ lease :: more)).tenancy.pool.HasGrant ⟨3⟩) ∧
      k.tenancy.answer Sample.calm (.get ⟨3⟩ false) =
        (l.tenancy.answer Sample.calm (.get ⟨4⟩ false)).without ⟨3⟩ := by
  intro pre lease served post l k
  have hopen : ((start Sample.conf).run pre).tenancy.pool.isShut = false := by decide
  have hlimits : (start Sample.conf).NeverLowers (pre ++ lease :: post) := by
    refine neverLowers_of_calls ?_
    simp [pre, lease, post, served, Sample.waits, Op.limits, Limits.Rise.refl]
  have hgrant : ∀ more, more <+: post →
      ¬ ((start Sample.conf).run (pre ++ lease :: more)).tenancy.pool.HasGrant ⟨3⟩ := by
    intro more hmore
    have hinits : ∀ more ∈ post.inits,
        ¬ ((start Sample.conf).run (pre ++ lease :: more)).tenancy.pool.HasGrant ⟨3⟩ := by decide
    exact hinits more ((List.mem_inits _ _).2 hmore)
  obtain ⟨-, -, -, hnext⟩ := unseen_unless_granted Sample.conf pre post Sample.calm Sample.route none
    hopen hlimits hgrant served (List.prefix_append _ _)
  exact ⟨⟨hopen, hlimits, hgrant⟩,
    (hnext Sample.calm (.get ⟨4⟩ false) (List.prefix_refl _) (by decide)).2.1 rfl⟩

end Life

end ConnectionPool
