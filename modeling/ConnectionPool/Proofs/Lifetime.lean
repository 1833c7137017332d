import ConnectionPool.Proofs.Custody
import ConnectionPool.Proofs.Origin

/-! The lifetime of connections.  Until when a connection may be handed out again, and since when it is
idle, follows from when its slot was reserved and from the last release by which it was kept.  No other
way through the pool changes that. -/

namespace ConnectionPool

variable {conf : Conf} {l k : Life} {m : Moment} {o : Op} {t : Tenancy} {g : Grant} {e : Idle}
  {d : Entry} {id x : EntryId} {r : Record} {bs : List Instant} {ks : List (Instant × Option Span)}

def Conf.expiry (c : Conf) (born : Instant) (kept : Option (Instant × Option Span)) :
    Option Instant :=
  sooner (kept.bind fun k => (k.2.or (c.defaultKeepalive.map Span.ms)).bind (Span.after k.1))
    (c.timeToLive.map (born + ·))

theorem exists_sooner_le (a : Option Instant) (b : Instant) : ∃ c ∈ sooner a (some b), c ≤ b := by
  cases a with
  | none => exact ⟨b, rfl, le_rfl⟩
  | some a => exact ⟨min a b, rfl, min_le_right a b⟩

/-- The record agrees with what was seen of its connection: when its slot was reserved, and which
releases kept it. -/
structure Record.Agrees (c : Conf) (births : List Instant) (keeps : List (Instant × Option Span))
    (r : Record) : Prop where
  births : births = [r.created]
  deadline : r.deadline = c.timeToLive.map (r.created + ·)
  expiry : r.expiry = c.expiry r.created keeps.getLast?
  updated : r.updated = (keeps.getLast?.map Prod.fst).getD r.created

namespace Record.Agrees

theorem fresh (id : EntryId) (route : Route) (now : Instant) :
    (Record.fresh id route now conf.timeToLive).Agrees conf [now] [] where
  births := rfl
  deadline := rfl
  expiry := (sooner_none_left _).symm
  updated := rfl

theorem released (h : r.Agrees conf bs ks) (now : Instant) (v : Option Span) :
    (r.released now (v.or (conf.defaultKeepalive.map Span.ms))).Agrees conf bs
      (ks ++ [(now, v)]) where
  births := h.births
  deadline := h.deadline
  expiry := by
    rw [List.getLast?_concat]
    exact congrArg (sooner _) h.deadline
  updated := by
    rw [List.getLast?_concat]
    rfl

end Record.Agrees

namespace Tenancy

theorem id_of_entry (h : t.IsSound) (hd : t.entries.get? x = some d) : d.record.id = x :=
  h.filed.named (x, d) (Table.mem_of_get?_eq_some hd)

theorem ne_of_entry (h : t.IsSound) (hd : t.entries.get? x = some d)
    (hg : g ∈ out { t with entries := t.entries.remove x } + t.pool.owned) : g.id ≠ x := by
  have hids := h.sound.ids
  rw [Pool.census_eq_owned, out_remove h hd, Multiset.cons_add, Multiset.map_cons,
    Multiset.nodup_cons] at hids
  intro heq
  refine hids.1 (Multiset.mem_map.2 ⟨g, hg, ?_⟩)
  exact heq.trans (id_of_entry h hd).symm

end Tenancy

namespace Life

section Seen

variable {α : Type} {f : Moment → Op → Life → Life → Option α}

def seen (f : Moment → Op → Life → Life → Option α) : Life → List (Moment × Op) → List α
  | _, [] => []
  | l, o :: ops => (f o.1 o.2 l (l.step o.1 o.2)).toList ++ seen f (l.step o.1 o.2) ops

theorem seen_append (l : Life) (ops more : List (Moment × Op)) :
    l.seen f (ops ++ more) = l.seen f ops ++ (l.run ops).seen f more := by
  induction ops generalizing l with
  | nil => rfl
  | cons o ops ih =>
    rw [List.cons_append, seen, ih, seen, List.append_assoc]
    rfl

theorem seen_append_singleton (l : Life) (ops : List (Moment × Op)) (m : Moment) (o : Op) :
    l.seen f (ops ++ [(m, o)]) =
      l.seen f ops ++ (f m o (l.run ops) ((l.run ops).step m o)).toList := by
  rw [seen_append, seen, seen, List.append_nil]

end Seen

def reservation (id : EntryId) (m : Moment) (_ : Op) (l k : Life) : Option Instant :=
  if id ∈ k.issued ∧ id ∉ l.issued then some m.now else none

def keeping (id : EntryId) (m : Moment) (o : Op) (l k : Life) : Option (Instant × Option Span) :=
  match o with
  | .release x _ v =>
    if x = id ∧ l.tenancy.entries.has x ∧ id ∈ k.tenancy.numbers then some (m.now, v) else none
  | _ => none

abbrev births (id : EntryId) (l : Life) (ops : List (Moment × Op)) : List Instant :=
  l.seen (reservation id) ops

abbrev keeps (id : EntryId) (l : Life) (ops : List (Moment × Op)) : List (Instant × Option Span) :=
  l.seen (keeping id) ops

section Steps

variable {ops : List (Moment × Op)} (hrun : (start conf).run ops = l)
include hrun

theorem births_append_singleton : (start conf).births id (ops ++ [(m, o)]) =
    (start conf).births id ops ++ (reservation id m o l (l.step m o)).toList := by
  rw [births, seen_append_singleton, hrun]

theorem keeps_append_singleton : (start conf).keeps id (ops ++ [(m, o)]) =
    (start conf).keeps id ops ++ (keeping id m o l (l.step m o)).toList := by
  rw [keeps, seen_append_singleton, hrun]

end Steps

theorem reservation_eq_none (hid : id ∈ l.issued) : reservation id m o l k = none :=
  if_neg fun h => h.2 hid

theorem keeping_eq_none (hne : ∀ x reusable v d, o = .release x reusable v →
    l.tenancy.entries.get? x = some d → id ≠ x) : keeping id m o l k = none := by
  cases o with
  | release x reusable v =>
    refine if_neg fun ⟨hx, hhas, _⟩ => ?_
    obtain ⟨d, hd⟩ := Option.isSome_iff_exists.1 hhas
    exact hne x reusable v d rfl hd hx.symm
  | _ => rfl

/-- What becomes of the record of a connection in a step: its slot was just reserved, or nothing, or its
release kept it. -/
inductive Passes (m : Moment) (o : Op) (l k : Life) (g : Grant) : Prop
  | reserved (s : Route) (hlast : l.tenancy.pool.lastEntry < g.id.number)
      (hr : g.record = .fresh g.id s m.now l.tenancy.pool.policy.timeToLive)
  | stays (d : Grant) (hd : d ∈ l.tenancy.pool.census l.tenancy.out) (hr : d.record = g.record)
      (hkeeping : keeping g.id m o l k = none)
  | kept (d : Grant) (hd : d ∈ l.tenancy.pool.census l.tenancy.out) (v : Option Span)
      (hr : g.record =
        d.record.released m.now (v.or (l.tenancy.pool.policy.keepalive.map Span.ms)))
      (hkeeping : keeping g.id m o l k = some (m.now, v))

theorem keeping_of_not_isPossible (hp : ¬ o.isPossible l.tenancy l.made) :
    keeping id m o l k = none :=
  keeping_eq_none fun _ _ _ _ ho _ => absurd (ho ▸ rfl) hp

theorem passes_of_not_isPossible (hp : ¬ o.isPossible l.tenancy l.made)
    (hg : g ∈ (l.step m o).tenancy.pool.census (l.step m o).tenancy.out) :
    Passes m o l (l.step m o) g := by
  refine .stays g ?_ rfl (keeping_of_not_isPossible hp)
  rwa [step_of_not_isPossible hp] at hg

theorem passes_of_out (h : l.tenancy.IsSound) (hp : o.isPossible l.tenancy l.made)
    (hg : g ∈ (l.tenancy.act m o).tenancy.out) : Passes m o l k g := by
  obtain ⟨d, hd, hr⟩ := Tenancy.act_knows (m := m) h hp hg
  refine .stays d hd hr (keeping_eq_none fun x reusable v y ho hy => ?_)
  subst ho
  have hout : (l.tenancy.release m x reusable v).tenancy.out =
      Tenancy.out { l.tenancy with entries := l.tenancy.entries.remove x } := by
    rw [Tenancy.release_eq hy]
    rfl
  exact Tenancy.ne_of_entry h hy (Multiset.mem_add.2 (.inl (hout ▸ hg)))

theorem keeping_of_owned (h : l.tenancy.IsSound) (hg : g ∈ l.tenancy.pool.owned) :
    keeping g.id m o l k = none :=
  keeping_eq_none fun _ _ _ _ _ hd => Tenancy.ne_of_entry h hd (Multiset.mem_add.2 (.inr hg))

theorem keeping_of_returns (h : l.tenancy.IsSound) (he : e ∈ o.returns m l.tenancy)
    (hid : e.id ∈ k.tenancy.numbers) :
    ∃ d ∈ l.tenancy.pool.census l.tenancy.out, ∃ v,
      e.record = d.record.released m.now (v.or (l.tenancy.pool.policy.keepalive.map Span.ms)) ∧
        keeping e.id m o l k = some (m.now, v) := by
  cases o with
  | release x reusable v =>
    cases reusable with
    | false => cases he
    | true =>
      obtain ⟨d, hd, rfl⟩ := Option.map_eq_some_iff.1 he
      have hx : d.record.id = x := Tenancy.id_of_entry h hd
      have hhas : l.tenancy.entries.has x := by
        rw [Table.has, hd]
        rfl
      refine ⟨d.grant, Tenancy.mem_census_of_out ?_, v, rfl, if_pos ⟨hx.symm, hhas, hid⟩⟩
      rw [Tenancy.out_remove h hd]
      exact Multiset.mem_cons_self _ _
  | _ => cases he

theorem mem_numbers (hg : g ∈ k.tenancy.pool.census k.tenancy.out) : g.id ∈ k.tenancy.numbers :=
  Multiset.mem_map_of_mem Grant.id hg

theorem births_of_mem_census {ops : List (Moment × Op)} (hl : l.InCustody)
    (hrun : (start conf).run ops = l) (hg : g ∈ l.tenancy.pool.census l.tenancy.out) (m : Moment)
    (o : Op) : (start conf).births g.id (ops ++ [(m, o)]) = (start conf).births g.id ops := by
  rw [births_append_singleton hrun, reservation_eq_none (hl.mem_issued (mem_numbers hg)),
    Option.toList_none, List.append_nil]

theorem keeping_of_not_issued (h : l.tenancy.IsSound) (hl : l.InCustody) (hid : id ∉ l.issued) :
    keeping id m o l k = none := by
  refine keeping_eq_none fun x _ _ d _ hd hx => hid ?_
  have hmem : d.grant ∈ l.tenancy.out := by
    rw [Tenancy.out_remove h hd]
    exact Multiset.mem_cons_self _ _
  have hissued := hl.mem_issued (mem_numbers (Tenancy.mem_census_of_out hmem))
  exact hx ▸ Tenancy.id_of_entry h hd ▸ hissued

theorem mem_census_of_owned (hg : g ∈ k.tenancy.pool.owned) :
    g ∈ k.tenancy.pool.census k.tenancy.out := by
  rw [Pool.census_eq_owned]
  exact Multiset.mem_add.2 (.inr hg)

theorem passes_of_owned (h : l.tenancy.IsSound) (hp : o.isPossible l.tenancy l.made)
    (hg : g ∈ (l.step m o).tenancy.pool.owned) : Passes m o l (l.step m o) g := by
  have hid := mem_numbers (mem_census_of_owned hg)
  have hact := hg
  rw [step_tenancy hp] at hact
  rcases (Tenancy.act_inherits (m := m) h hp).affords g hact with
    (hown | ⟨n, s, hn, rfl⟩) | ⟨e, he, rfl⟩
  · exact .stays g (mem_census_of_owned hown) rfl (keeping_of_owned h hown)
  · exact .reserved s hn rfl
  · obtain ⟨d, hd, v, hr, hkeeping⟩ := keeping_of_returns h he hid
    exact .kept d hd v hr hkeeping

theorem step_passes (h : l.tenancy.IsSound)
    (hg : g ∈ (l.step m o).tenancy.pool.census (l.step m o).tenancy.out) :
    Passes m o l (l.step m o) g := by
  by_cases hp : o.isPossible l.tenancy l.made
  · rw [Pool.census_eq_owned, Multiset.mem_add] at hg
    rcases hg with hg | hg
    · exact passes_of_out h hp (step_tenancy hp ▸ hg)
    · exact passes_of_owned h hp hg
  · exact passes_of_not_isPossible hp hg

theorem step_owned (h : l.tenancy.IsSound) (hg : .reuse e ∈ (l.step m o).tenancy.pool.owned) :
    .reuse e ∈ l.tenancy.pool.owned ∨ keeping e.id m o l (l.step m o) ≠ none := by
  by_cases hp : o.isPossible l.tenancy l.made
  · have hid := mem_numbers (mem_census_of_owned hg)
    have hact := hg
    rw [step_tenancy hp] at hact
    rcases (Tenancy.act_inherits (m := m) h hp).affords _ hact with
      (hown | ⟨n, s, -, heq⟩) | ⟨d, hd, heq⟩
    · exact .inl hown
    · cases heq
    · -- it came back in this step, and only a release that is kept brings one back
      obtain rfl := Grant.reuse.inj heq
      obtain ⟨-, -, v, -, hkeeping⟩ := keeping_of_returns h hd hid
      exact .inr (by simp [hkeeping])
  · rw [step_of_not_isPossible hp] at hg
    exact .inl hg

theorem step_policy (h : l.tenancy.IsSound) (m : Moment) (o : Op) :
    (l.step m o).tenancy.pool.policy = l.tenancy.pool.policy := by
  by_cases hp : o.isPossible l.tenancy l.made
  · rw [step_tenancy hp]
    exact (Tenancy.act_inherits (m := m) h hp).policy
  · rw [step_of_not_isPossible hp]

theorem step_fit {id : RequestId} {r : Route} (h : l.tenancy.IsSound)
    (hg : l.tenancy.pool.Grants (l.step m o).tenancy.pool id r (.reuse e)) :
    e.isFit m l.tenancy.pool.policy.validateAfter := by
  by_cases hp : o.isPossible l.tenancy l.made
  · exact Tenancy.act_fit h hp (step_tenancy hp ▸ hg)
  · rw [step_of_not_isPossible hp] at hg
    exact absurd hg (l.tenancy.pool.not_grants id r _)

theorem mem_issued_step (hid : id ∈ l.issued) (m : Moment) (o : Op) : id ∈ (l.step m o).issued := by
  by_cases hp : o.isPossible l.tenancy l.made
  · rw [issued, step, if_pos hp, List.filterMap_append]
    exact List.mem_append.2 (.inl hid)
  · rwa [step_of_not_isPossible hp]

/-- The records agree with what was seen of the connections, and what the pool has was kept once. -/
structure Traced (conf : Conf) (ops : List (Moment × Op)) (l : Life) : Prop where
  policy : l.tenancy.pool.policy = (Pool.ofConf conf).policy
  unborn : ∀ id ∉ l.issued, (start conf).births id ops = [] ∧ (start conf).keeps id ops = []
  agrees : ∀ g ∈ l.tenancy.pool.census l.tenancy.out,
    g.record.Agrees conf ((start conf).births g.id ops) ((start conf).keeps g.id ops)
  kept : ∀ e, .reuse e ∈ l.tenancy.pool.owned → (start conf).keeps e.id ops ≠ []

namespace Traced

variable {ops : List (Moment × Op)}

theorem start (conf : Conf) : Traced conf [] (start conf) where
  policy := rfl
  unborn _ _ := ⟨rfl, rfl⟩
  agrees _ hg := absurd hg (Multiset.notMem_zero _)
  kept _ he := absurd he (Multiset.notMem_zero _)

variable (h : l.tenancy.IsSound) (hl : l.InCustody) (hk : (l.step m o).InCustody)
  (ht : l.Traced conf ops) (hrun : (Life.start conf).run ops = l)
include h hl ht hrun

theorem unborn_step (hid : id ∉ (l.step m o).issued) :
    (Life.start conf).births id (ops ++ [(m, o)]) = [] ∧
      (Life.start conf).keeps id (ops ++ [(m, o)]) = [] := by
  have hold : id ∉ l.issued := fun hmem => hid (mem_issued_step hmem m o)
  have hreservation : reservation id m o l (l.step m o) = none := if_neg fun hnew => hid hnew.1
  obtain ⟨hnone, hnever⟩ := ht.unborn id hold
  rw [births_append_singleton hrun, keeps_append_singleton hrun, hnone, hnever, hreservation,
    keeping_of_not_issued h hl hold]
  exact ⟨rfl, rfl⟩

include hk

theorem agrees_step (hg : g ∈ (l.step m o).tenancy.pool.census (l.step m o).tenancy.out) :
    g.record.Agrees conf ((Life.start conf).births g.id (ops ++ [(m, o)]))
      ((Life.start conf).keeps g.id (ops ++ [(m, o)])) := by
  cases step_passes h hg with
  | reserved s hlast hr =>
    -- the number is above all that were spent, so nothing was seen of it before
    have hold : g.id ∉ l.issued := fun hmem =>
      absurd (hl.books.bounded g.id (List.mem_append.2 (.inl hmem))) hlast.not_ge
    have hnew : reservation g.id m o l (l.step m o) = some m.now :=
      if_pos ⟨hk.mem_issued (mem_numbers hg), hold⟩
    obtain ⟨hnone, hnever⟩ := ht.unborn g.id hold
    rw [births_append_singleton hrun, keeps_append_singleton hrun, hnone, hnever, hnew,
      keeping_of_not_issued h hl hold, hr, ht.policy]
    exact .fresh g.id s m.now
  | stays d hd hr hkeeping =>
    have hid : d.id = g.id := congrArg Record.id hr
    have hborn := births_of_mem_census hl hrun hd m o
    have hagrees := ht.agrees d hd
    rw [hid] at hborn hagrees
    rw [hr] at hagrees
    rwa [hborn, keeps_append_singleton hrun, hkeeping, Option.toList_none, List.append_nil]
  | kept d hd v hr hkeeping =>
    have hid : d.id = g.id := (congrArg Record.id hr).symm
    have hborn := births_of_mem_census hl hrun hd m o
    have hagrees := (ht.agrees d hd).released m.now v
    rw [hid] at hborn hagrees
    rw [ht.policy] at hr
    rwa [hborn, keeps_append_singleton hrun, hkeeping, Option.toList_some, hr]

theorem step : (l.step m o).Traced conf (ops ++ [(m, o)]) where
  policy := (step_policy h m o).trans ht.policy
  unborn _ hid := ht.unborn_step h hl hrun hid
  agrees _ hg := ht.agrees_step h hl hk hrun hg
  kept e he := by
    rw [keeps_append_singleton hrun]
    rcases step_owned h he with hown | hnew
    · exact List.append_ne_nil_of_left_ne_nil (ht.kept e hown) _
    · obtain ⟨x, hx⟩ := Option.ne_none_iff_exists'.1 hnew
      rw [hx]
      exact List.append_ne_nil_of_right_ne_nil _ (List.cons_ne_nil x [])

end Traced

theorem run_traced (conf : Conf) (ops : List (Moment × Op)) :
    ((start conf).run ops).Traced conf ops := by
  induction ops using List.reverseRecOn with
  | nil => exact .start conf
  | append_singleton ops o ih =>
    have hk := run_inCustody conf (ops ++ [o])
    rw [run_append_singleton] at hk ⊢
    exact .step (run_sound conf ops) (run_inCustody conf ops) hk ih rfl

theorem record_eq_of_keeps_eq_nil {ops more : List (Moment × Op)} {g d : Grant}
    (hg : g ∈ ((start conf).run ops).tenancy.pool.census ((start conf).run ops).tenancy.out)
    (hd : d ∈ (((start conf).run ops).run more).tenancy.pool.census
      (((start conf).run ops).run more).tenancy.out)
    (hid : d.id = g.id) (hnone : ((start conf).run ops).keeps g.id more = []) :
    d.record.expiry = g.record.expiry ∧ d.record.updated = g.record.updated := by
  have hrun : (start conf).run (ops ++ more) = ((start conf).run ops).run more := List.foldl_append
  have hold := (run_traced conf ops).agrees g hg
  have hnew := (run_traced conf (ops ++ more)).agrees d (hrun ▸ hd)
  have hbirths : (start conf).births g.id (ops ++ more) = (start conf).births g.id ops ++ _ :=
    seen_append ..
  have hkeeps : (start conf).keeps g.id (ops ++ more) =
      (start conf).keeps g.id ops ++ ((start conf).run ops).keeps g.id more := seen_append ..
  rw [hid] at hnew
  rw [hnew.births, hold.births] at hbirths
  have hcreated : d.record.created = g.record.created := (List.cons.inj hbirths).1
  rw [hnone, List.append_nil] at hkeeps
  rw [hnew.expiry, hnew.updated, hold.expiry, hold.updated, hkeeps, hcreated]
  exact ⟨rfl, rfl⟩

/-- What is handed out again is open, has not expired, and is not found stale if it has been idle for
long enough to be asked.  A connection expires, and is idle, from when its slot was reserved and from the
last release that kept it, whatever became of it since.  In particular none is handed out again beyond
its time to live. -/
theorem reuse_is_valid (conf : Conf) (ops : List (Moment × Op)) :
    let s := start conf
    let l := s.run ops
    let all (l : Life) := l.tenancy.pool.census l.tenancy.out
    (∀ m o x r e, l.tenancy.pool.Grants (l.step m o).tenancy.pool x r (.reuse e) →
      let past := ops ++ [(m, o)]
      m.isOpen e.conn ∧ (∀ t ∈ e.record.expiry, m.now < t) ∧
        ∃ born since v, s.births e.id past = [born] ∧
          (s.keeps e.id past).getLast? = some (since, v) ∧
          ((∀ n ∈ conf.validateAfterInactivity, n ≤ m.now - since) →
            m.isStale.any (· e.conn) = false) ∧
          ∀ n ∈ conf.timeToLive, m.now < born + n) ∧
      (∀ g ∈ all l, ∃ born, s.births g.id ops = [born] ∧
        g.record.expiry = conf.expiry born (s.keeps g.id ops).getLast? ∧
        g.record.updated = ((s.keeps g.id ops).getLast?.map Prod.fst).getD born) ∧
      ∀ more, ∀ g ∈ all l, ∀ d ∈ all (l.run more), d.id = g.id → l.keeps g.id more = [] →
        d.record.expiry = g.record.expiry ∧ d.record.updated = g.record.updated := by
  intro s l all
  refine ⟨fun m o x r e hg => ?_, fun g hg => ?_, fun more g hg d hd hid hnone =>
    record_eq_of_keeps_eq_nil hg hd hid hnone⟩
  · intro past
    have htraced : (l.step m o).Traced conf past := by
      have hrun := run_traced conf past
      rwa [run_append_singleton] at hrun
    have hfit := step_fit (run_sound conf ops) hg
    rw [(run_traced conf ops).policy, Idle.isFit_iff] at hfit
    obtain ⟨hexpiry, hopen, hstale⟩ := hfit
    have howned := Pool.mem_owned_of_granted hg.granted
    have hagrees : e.record.Agrees conf (s.births e.id past) (s.keeps e.id past) :=
      htraced.agrees _ (mem_census_of_owned howned)
    obtain ⟨⟨since, v⟩, hlast⟩ :=
      Option.isSome_iff_exists.1 (List.getLast?_isSome.2 (htraced.kept e howned))
    have hupdated : e.record.updated = since := by
      have hrecord := hagrees.updated
      rwa [hlast] at hrecord
    refine ⟨hopen, hexpiry, e.record.created, since, v, hagrees.births, hlast, fun hidle => ?_,
      fun n hn => ?_⟩
    · refine hstale ?_
      rw [Idle.isDue, Option.all_eq_true, hupdated]
      exact fun n hn => decide_eq_true (hidle n hn)
    · obtain ⟨c, hc, hle⟩ := exists_sooner_le _ (e.record.created + n)
      refine (hexpiry c ?_).trans_le hle
      rw [hagrees.expiry, Conf.expiry, hn]
      exact hc
  · have hagrees := (run_traced conf ops).agrees g hg
    exact ⟨_, hagrees.births, hagrees.expiry, hagrees.updated⟩

theorem reuse_is_valid_regranted :
    let conf := { Sample.conf with
      timeToLive := some 100, defaultKeepalive := some 50, validateAfterInactivity := some 5 }
    let slot : Record := .fresh ⟨1⟩ Sample.route 0 (some 100)
    let ops := [.lease Sample.route none, .get ⟨1⟩ false, .connected slot ⟨1⟩].map
        (Prod.mk Sample.calm) ++
      [({ Sample.calm with now := 10 }, .release ⟨1⟩ true none)]
    let m : Moment := { Sample.calm with now := 20, isStale := some fun _ => false }
    let e : Idle := { record := slot.released 10 (some (.ms 50)), conn := ⟨1⟩ }
    let past := ops ++ [(m, .lease Sample.route none)]
    ((start conf).run ops).tenancy.pool.Grants
        (((start conf).run ops).step m (.lease Sample.route none)).tenancy.pool
        ⟨2⟩ Sample.route (.reuse e) ∧
      ∃ born since v, (start conf).births ⟨1⟩ past = [born] ∧
        ((start conf).keeps ⟨1⟩ past).getLast? = some (since, v) ∧
        ((∀ n ∈ conf.validateAfterInactivity, n ≤ m.now - since) →
          m.isStale.any (· e.conn) = false) ∧
        ∀ n ∈ conf.timeToLive, m.now < born + n := by
  intro conf slot ops m e past
  have hnew : ((start conf).run ops).tenancy.pool.requests.get? ⟨2⟩ = none := by decide
  have hgranted : (((start conf).run ops).step m
      (.lease Sample.route none)).tenancy.pool.requests.get? ⟨2⟩ =
      some { route := Sample.route, outcome := .granted (.reuse e) } := by decide
  obtain ⟨hreuse, -⟩ := reuse_is_valid conf ops
  have hgrants : ((start conf).run ops).tenancy.pool.Grants _ ⟨2⟩ Sample.route (.reuse e) :=
    ⟨hgranted, fun d hd => nomatch hnew.symm.trans hd⟩
  have hvalid := hreuse m (.lease Sample.route none) ⟨2⟩ Sample.route e hgrants
  exact ⟨hgrants, hvalid.2.2⟩

end Life

end ConnectionPool
