import ConnectionPool.Proofs.Life

namespace ConnectionPool

variable {conf : Conf} {l : Life} {m : Moment} {o : Op} {ops pre : List (Moment × Op)}

/-- No route has less room under the other limits, and neither has the pool. -/
structure Limits.Rise (l k : Limits) : Prop where
  total : l.total ≤ k.total
  route : ∀ r, l.forRoute r ≤ k.forRoute r

structure Pool.WithinLimits (p : Pool) : Prop where
  total : p.allocated ≤ p.limits.total
  route : ∀ r, (p.lane r).allocated ≤ p.limits.forRoute r

theorem Limits.Rise.refl (l : Limits) : l.Rise l := ⟨Nat.le_refl _, fun _ => Nat.le_refl _⟩

namespace Life

def NeverLowers (l : Life) (ops : List (Moment × Op)) : Prop :=
  ∀ pre o, pre ++ [o] <+: ops →
    (l.run pre).tenancy.pool.limits.Rise (l.run (pre ++ [o])).tenancy.pool.limits

theorem neverLowers_nil (l : Life) : l.NeverLowers [] := by
  intro pre o hpre
  simp at hpre

theorem neverLowers_cons {o : Moment × Op}
    (h : l.tenancy.pool.limits.Rise (l.step o.1 o.2).tenancy.pool.limits)
    (hops : (l.step o.1 o.2).NeverLowers ops) : l.NeverLowers (o :: ops) := by
  intro pre x hpre
  cases pre with
  | nil =>
    obtain ⟨rfl, -⟩ := List.cons_prefix_cons.1 hpre
    exact h
  | cons y pre =>
    obtain ⟨rfl, htail⟩ := List.cons_prefix_cons.1 hpre
    exact hops pre x htail

theorem neverLowers_of_calls (h : ∀ o ∈ ops, ∀ k : Limits, k.Rise (o.2.limits k)) :
    (start conf).NeverLowers ops := by
  intro pre o hpre
  have hmem : o ∈ ops := hpre.subset (List.mem_append_right pre (List.mem_singleton_self o))
  rw [run_append_singleton]
  by_cases hp : o.2.isPossible ((start conf).run pre).tenancy ((start conf).run pre).made
  · rw [step_tenancy hp, Tenancy.act_limits (run_sound conf pre) hp]
    exact h o hmem _
  · rw [step_of_not_isPossible hp]
    exact .refl _

theorem step_grows (h : l.tenancy.IsSound) (m : Moment) (o : Op) :
    (l.step m o).tenancy.pool.allocated ≤
        max l.tenancy.pool.allocated (l.step m o).tenancy.pool.limits.total ∧
      ∀ r, ((l.step m o).tenancy.pool.lane r).allocated ≤
        max (l.tenancy.pool.lane r).allocated ((l.step m o).tenancy.pool.limits.forRoute r) := by
  by_cases hp : o.isPossible l.tenancy l.made
  · obtain ⟨hmoves, -⟩ := Tenancy.act_moves (m := m) h hp
    -- the limits of the step are in force before the first move
    have hgrows : ((l.tenancy.relimit o.limits).pool).Grows (l.tenancy.act m o).tenancy.pool :=
      hmoves.grows (Tenancy.relimit_sound h o.limits).scene
    rw [step_tenancy hp, hgrows.limits]
    exact ⟨hgrows.total, hgrows.route⟩
  · rw [step_of_not_isPossible hp]
    exact ⟨le_max_left _ _, fun r => le_max_left _ _⟩

theorem run_withinLimits (h : (start conf).NeverLowers ops) (hpre : pre <+: ops) :
    ((start conf).run pre).tenancy.pool.WithinLimits := by
  induction pre using List.reverseRecOn with
  | nil => exact ⟨Nat.zero_le _, fun r => Nat.zero_le _⟩
  | append_singleton pre o ih =>
    have hprev := ih ((List.prefix_append pre [o]).trans hpre)
    have hrise := h pre o hpre
    obtain ⟨htotal, hroute⟩ := step_grows (run_sound conf pre) o.1 o.2
    rw [run_append_singleton] at hrise ⊢
    exact ⟨htotal.trans (max_le (hprev.total.trans hrise.total) le_rfl),
      fun r => (hroute r).trans (max_le ((hprev.route r).trans (hrise.route r)) le_rfl)⟩

/-- Whatever a step does, it has more allocated only up to the limits that are then in force.  So
unless a limit is lowered, none is ever exceeded. -/
theorem grows_within_limits (conf : Conf) (ops : List (Moment × Op)) :
    (∀ m o,
      let p := ((start conf).run ops).tenancy.pool
      let q := (((start conf).run ops).step m o).tenancy.pool
      (p.totalStats.allocated < q.totalStats.allocated →
          q.totalStats.allocated ≤ q.totalStats.max) ∧
        ∀ r, (p.stats r).allocated < (q.stats r).allocated →
          (q.stats r).allocated ≤ (q.stats r).max) ∧
      ((start conf).NeverLowers ops → ∀ pre, pre <+: ops →
        let p := ((start conf).run pre).tenancy.pool
        p.totalStats.allocated ≤ p.totalStats.max ∧
          ∀ r, (p.stats r).allocated ≤ (p.stats r).max) := by
  refine ⟨fun m o => ?_, fun h pre hpre => ?_⟩
  · obtain ⟨htotal, hroute⟩ := step_grows (run_sound conf ops) m o
    exact ⟨fun hlt => (le_max_iff.1 htotal).resolve_left hlt.not_ge,
      fun r hlt => (le_max_iff.1 (hroute r)).resolve_left hlt.not_ge⟩
  · have hwithin := run_withinLimits h hpre
    exact ⟨hwithin.total, hwithin.route⟩

theorem grows_within_limits_raised :
    let ops := [.lease Sample.route none, .setDefaultMax 3].map (Prod.mk Sample.calm)
    (start Sample.conf).NeverLowers ops ∧
      ∀ r, (((start Sample.conf).run ops).tenancy.pool.stats r).allocated ≤
        (((start Sample.conf).run ops).tenancy.pool.stats r).max := by
  intro ops
  have hops : (start Sample.conf).NeverLowers ops :=
    neverLowers_cons ⟨Nat.le_refl 10, fun _ => Nat.le_refl 2⟩
      (neverLowers_cons ⟨Nat.le_refl 10, fun _ => Nat.le_succ 2⟩ (neverLowers_nil _))
  exact ⟨hops, ((grows_within_limits Sample.conf ops).2 hops ops (List.prefix_refl ops)).2⟩

end Life

end ConnectionPool
