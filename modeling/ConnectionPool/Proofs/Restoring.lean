import ConnectionPool.Proofs.Holdings
import ConnectionPool.Proofs.Recency

namespace ConnectionPool

variable {k : Recency} {m : Mark} {l : Lane} {e : Idle} {r s : Route}

theorem takeWhile_eq_filter {α : Type} {f : α → Bool} {xs : List α}
    (h : xs.Pairwise fun x y => f y → f x) :
    xs.takeWhile f = xs.filter f ∧ xs.dropWhile f = xs.filter (!f ·) := by
  induction xs with
  | nil => exact ⟨rfl, rfl⟩
  | cons x xs ih =>
    rw [List.pairwise_cons] at h
    cases hx : f x with
    | true => simp [hx, ih h.2]
    | false =>
      have hnone : ∀ y ∈ xs, f y = false := by
        intro y hy
        by_contra hfy
        simp [h.1 y hy (by simpa using hfy)] at hx
      have hall : xs.filter f = [] := by
        rw [List.filter_eq_nil_iff]
        exact fun y hy => by simp [hnone y hy]
      have hrest : xs.filter (!f ·) = xs := by
        rw [List.filter_eq_self]
        exact fun y hy => by simp [hnone y hy]
      simp [hx, hall, hrest]

namespace Recency

theorem split (h : k.Pairwise (·.released ≤ ·.released)) (now : Instant) :
    k.filter (·.released ≤ now) ++ k.filter (now < ·.released) = k := by
  have hsorted : k.Pairwise fun m n => decide (n.released ≤ now) → decide (m.released ≤ now) := by
    refine h.imp fun hle hn => ?_
    simp only [decide_eq_true_eq] at hn ⊢
    exact hle.trans hn
  obtain ⟨htake, hdrop⟩ := takeWhile_eq_filter hsorted
  have hnot : (fun m : Mark => decide (now < m.released)) = fun m => !decide (m.released ≤ now) := by
    funext m
    simp [← decide_not]
  rw [hnot, ← htake, ← hdrop, List.takeWhile_append_dropWhile]

section Reinsert

variable (hn : (k.map Mark.id).Nodup) (hm : m.id ∉ k.map Mark.id)
  (hk : k.Pairwise (·.released ≤ ·.released))
include hn hm hk

theorem sorted_reinsert : (k.reinsert m).Pairwise (·.released ≤ ·.released) := by
  rw [reinsert_eq hn hm, List.pairwise_append, List.pairwise_cons]
  refine ⟨hk.sublist List.filter_sublist, ⟨fun n hn => ?_, hk.sublist List.filter_sublist⟩,
    fun n hn o ho => ?_⟩
  · exact (of_decide_eq_true (List.mem_filter.1 hn).2).le
  · have hle : n.released ≤ m.released := of_decide_eq_true (List.mem_filter.1 hn).2
    rcases List.mem_cons.1 ho with rfl | ho
    · exact hle
    · exact hle.trans (of_decide_eq_true (List.mem_filter.1 ho).2).le

theorem filter_reinsert_of_ne (hr : m.route ≠ s) :
    (k.reinsert m).filter (·.route = s) = k.filter (·.route = s) := by
  have hall := congrArg (List.filter (·.route = s)) (split hk m.released)
  rw [List.filter_append] at hall
  rw [reinsert_eq hn hm, List.filter_append, List.filter_cons_of_neg (by simpa using hr), hall]

end Reinsert

end Recency

namespace Lane

def IsSorted (l : Lane) : Prop := l.available.Pairwise (·.record.updated ≥ ·.record.updated)

/-- The order of release has the connections of the lane, from the back to the front, as the marks of
the route. -/
def Agrees (l : Lane) (r : Route) (k : Recency) : Prop :=
  l.available.reverse.map Idle.mark = k.filter (·.route = r)

instance (l : Lane) : Decidable l.IsSorted := inferInstanceAs (Decidable (List.Pairwise _ _))

instance (l : Lane) (r : Route) (k : Recency) : Decidable (l.Agrees r k) :=
  inferInstanceAs (Decidable (_ = _))

theorem IsSorted.split (h : l.IsSorted) (now : Instant) :
    l.available.takeWhile (now < ·.record.updated) = l.available.filter (now < ·.record.updated) ∧
      l.available.dropWhile (now < ·.record.updated) =
        l.available.filter (·.record.updated ≤ now) := by
  have hsorted : l.available.Pairwise fun x y =>
      decide (now < y.record.updated) → decide (now < x.record.updated) := by
    refine h.imp fun hge hlt => ?_
    simp only [decide_eq_true_eq] at hlt ⊢
    exact hlt.trans_le hge
  have hnot : (fun x : Idle => !decide (now < x.record.updated)) =
      fun x => decide (x.record.updated ≤ now) := by
    funext x
    simp [← decide_not]
  obtain ⟨htake, hdrop⟩ := takeWhile_eq_filter hsorted
  exact ⟨htake, hnot ▸ hdrop⟩

theorem IsSorted.reinsert (h : l.IsSorted) : (l.reinsert e).available =
    l.available.filter (e.record.updated < ·.record.updated) ++
      e :: l.available.filter (·.record.updated ≤ e.record.updated) := by
  obtain ⟨htake, hdrop⟩ := h.split e.record.updated
  rw [Lane.reinsert, htake, hdrop]

namespace Agrees

theorem isSorted (h : l.Agrees r k) (hk : k.Pairwise (·.released ≤ ·.released)) : l.IsSorted := by
  have hsorted := hk.sublist (List.filter_sublist (p := fun m => decide (m.route = r)))
  rw [← h, List.pairwise_map, List.pairwise_reverse] at hsorted
  exact hsorted

theorem filter (h : l.Agrees r k) (f : Instant → Bool) :
    (l.available.filter (f ·.record.updated)).reverse.map Idle.mark =
      (k.filter (f ·.released)).filter (·.route = r) := by
  rw [List.filter_comm, ← h, List.filter_map, List.filter_reverse]
  rfl

theorem reinsert (h : l.Agrees e.record.route k) (hn : (k.map Mark.id).Nodup)
    (he : e.id ∉ k.map Mark.id) (hk : k.Pairwise (·.released ≤ ·.released)) :
    (l.reinsert e).Agrees e.record.route (k.reinsert e.mark) := by
  have hold := h.filter (· ≤ e.record.updated)
  have hnew := h.filter (e.record.updated < ·)
  have hplace : k.reinsert e.mark = k.filter (·.released ≤ e.record.updated) ++
      e.mark :: k.filter (e.record.updated < ·.released) := Recency.reinsert_eq hn he
  rw [Agrees, (h.isSorted hk).reinsert, hplace, List.filter_append,
    List.filter_cons_of_pos (by simp), ← hold, ← hnew]
  simp

end Agrees

end Lane

/-- In any lawful cache what is put back comes behind those of its time and of before, and ahead of the
later ones, and so it does in the order of release.  In a lane that is sorted it comes behind the later
ones, and ahead of all others.  Those that were there stay as they stood.  So an order and a lane that
agree on a route go on to agree, both sorted, and of the other routes the order tells the same. -/
theorem reinserts_in_order :
    (∀ (σ : Type) (c : Cache σ) (s : σ) (m : Mark), c.IsLawful → ((c.marks s).map Mark.id).Nodup →
      m.id ∉ (c.marks s).map Mark.id → c.marks (c.restore m s) =
        (c.marks s).filter (·.released ≤ m.released) ++
          m :: (c.marks s).filter (m.released < ·.released)) ∧
    (∀ (k : Recency) (m : Mark), (k.map Mark.id).Nodup → m.id ∉ k.map Mark.id →
      k.reinsert m =
        k.filter (·.released ≤ m.released) ++ m :: k.filter (m.released < ·.released)) ∧
    (∀ (l : Lane) (e : Idle), l.IsSorted → ∃ later others, l.available = later ++ others ∧
      l.reinsert e = { l with available := later ++ e :: others } ∧
        (∀ d ∈ later, e.record.updated < d.record.updated) ∧
          ∀ d ∈ others, d.record.updated ≤ e.record.updated) ∧
    ∀ (k : Recency) (l : Lane) (e : Idle), (k.map Mark.id).Nodup → e.id ∉ k.map Mark.id →
      k.Pairwise (·.released ≤ ·.released) → l.Agrees e.record.route k →
        (k.reinsert e.mark).Pairwise (·.released ≤ ·.released) ∧ (l.reinsert e).IsSorted ∧
          (l.reinsert e).Agrees e.record.route (k.reinsert e.mark) ∧
            ∀ s ≠ e.record.route, (k.reinsert e.mark).filter (·.route = s) = k.filter (·.route = s) := by
  refine ⟨fun σ c s m hc hn hm => hc.marks_restore hn hm, fun k m hn hm => Recency.reinsert_eq hn hm,
    fun l e hl => ?_, fun k l e hn he hk hl => ?_⟩
  · obtain ⟨htake, hdrop⟩ := hl.split e.record.updated
    refine ⟨_, _, List.takeWhile_append_dropWhile.symm, rfl, fun d hd => ?_, fun d hd => ?_⟩
    · rw [htake] at hd
      exact of_decide_eq_true (List.mem_filter.1 hd).2
    · rw [hdrop] at hd
      exact of_decide_eq_true (List.mem_filter.1 hd).2
  · have hsorted : (k.reinsert e.mark).Pairwise (·.released ≤ ·.released) :=
      Recency.sorted_reinsert hn he hk
    have hagrees := hl.reinsert hn he hk
    exact ⟨hsorted, hagrees.isSorted hsorted, hagrees,
      fun s hs => Recency.filter_reinsert_of_ne hn he hk hs.symm⟩

theorem reinserts_in_order_among_equals :
    let r : Route := { target := { hostname := "a", port := 80, scheme := .http } }
    let s : Route := { r with secure := true }
    let idle (n now : Nat) : Idle := ⟨.fresh ⟨n⟩ r now none, ⟨n⟩⟩
    let k : Recency :=
      [(idle 1 1).mark, ⟨⟨2⟩, s, 5⟩, (idle 3 5).mark, ⟨⟨4⟩, s, 6⟩, (idle 6 7).mark]
    let l : Lane := { available := [idle 6 7, idle 3 5, idle 1 1] }
    let e := idle 5 5
    ((k.map Mark.id).Nodup ∧ e.id ∉ k.map Mark.id ∧ k.Pairwise (·.released ≤ ·.released) ∧
        l.Agrees r k) ∧
      (k.reinsert e.mark).map Mark.id = [⟨1⟩, ⟨2⟩, ⟨3⟩, ⟨5⟩, ⟨4⟩, ⟨6⟩] ∧
        (∃ later others, l.available = later ++ others ∧
          l.reinsert e = { l with available := later ++ e :: others }) ∧
          (l.reinsert e).available.map Idle.id = [⟨6⟩, ⟨5⟩, ⟨3⟩, ⟨1⟩] ∧
            (l.reinsert e).Agrees r (k.reinsert e.mark) := by
  intro r s idle k l e
  have hn : (k.map Mark.id).Nodup := by decide
  have he : e.id ∉ k.map Mark.id := by decide
  have hk : k.Pairwise (·.released ≤ ·.released) := by decide
  have hl : l.Agrees r k := by decide
  obtain ⟨-, horder, hlane, hboth⟩ := reinserts_in_order
  obtain ⟨later, others, hall, hplace, -⟩ := hlane l e (by decide)
  obtain ⟨-, -, hagrees, -⟩ := hboth k l e hn he hk hl
  refine ⟨⟨hn, he, hk, hl⟩, ?_, ⟨later, others, hall, hplace⟩, by decide, hagrees⟩
  rw [horder k e.mark hn he]
  decide

end ConnectionPool
