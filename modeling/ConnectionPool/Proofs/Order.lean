import ConnectionPool.Proofs.Dispatch
import ConnectionPool.Proofs.Handing

namespace ConnectionPool

variable {held : Multiset Grant} {c : Multiset Conn} {p : Pool} {w u v : Work} {g : Grant}
  {a b id : RequestId} {r : Route} {l : List (RequestId × Grant)} {m : Moment}

theorem Pool.Queued.queue_sorted (h : p.Queued) (r : Route) :
    (p.lane r).queue.Pairwise (·.number < ·.number) := by
  rw [h.queue]
  exact h.sorted.sublist (List.filter_sublist.map _)

theorem sublist_pair {α : Type} {R : α → α → Prop} (hR : ∀ x y, R x y → ¬ R y x) {xs : List α}
    (hxs : xs.Pairwise R) {x y : α} (hx : x ∈ xs) (hy : y ∈ xs) (hxy : R x y) :
    [x, y].Sublist xs := by
  obtain ⟨ys, zs, rfl⟩ := List.append_of_mem hx
  rw [List.pairwise_append] at hxs
  have hne : y ≠ x := fun heq => hR x y hxy (heq ▸ hxy)
  rcases List.mem_append.1 hy with hy | hy
  · exact absurd (hxs.2.2 y hy x List.mem_cons_self) (hR x y hxy)
  · have hyzs : y ∈ zs := (List.mem_cons.1 hy).resolve_left hne
    exact ((List.singleton_sublist.2 hyzs).cons_cons x).trans (List.sublist_append_right _ _)

theorem Work.handed_grant (h : Sound held w.pool)
    (hid : (w.pool.lane g.record.route).queue.head? = some id) :
    (w.grant id g).handed = w.handed := by
  rw [Work.grant_eq g (h.head_pending hid)]
  rfl

theorem Work.requests_grant (h : Sound held w.pool)
    (hid : (w.pool.lane g.record.route).queue.head? = some id) :
    (w.grant id g).pool.requests =
      w.pool.requests.put id { route := g.record.route, outcome := .granted g } := by
  rw [Work.grant_eq g (h.head_pending hid)]
  rfl

namespace Served

theorem handed (hs : Sound held w.pool) (h : Served m held c l w v) :
    v.handed = w.handed ++ l.map (·.2.slot) := by
  induction h with
  | rest hgain => rw [hgain.handed_of_none, List.map_nil, List.append_nil]
  | @next l w u v id g hgain hid _ ih =>
    have hu : Sound (g ::ₘ held) u.pool := Scene.IsSound.gains (s := ⟨held, c, w⟩) hs hgain
    rw [ih (sound_grant hs hgain hid), Work.handed_grant hu hid, hgain.handed_of_grant,
      List.append_assoc]
    rfl

theorem pending (hs : Sound held w.pool) (h : Served m held c l w v) (hid : (id, g) ∈ l) :
    w.pool.requests.get? id = some { route := g.record.route } := by
  rw [← hs.queued.mem_queue, h.queue hs]
  refine List.mem_append_left _ (List.mem_map.2 ⟨(id, g), ?_, rfl⟩)
  exact List.mem_filter.2 ⟨hid, by simp⟩

theorem get?_of_not_mem (hs : Sound held w.pool) (h : Served m held c l w v)
    (hid : ∀ g, (id, g) ∉ l) : v.pool.requests.get? id = w.pool.requests.get? id := by
  induction h with
  | rest hgain => exact congrArg (·.get? id) hgain.sameQueues.requests
  | @next l w u v x g hgain hx _ ih =>
    have hu : Sound (g ::ₘ held) u.pool := Scene.IsSound.gains (s := ⟨held, c, w⟩) hs hgain
    have hsame : u.pool.requests = w.pool.requests := hgain.sameQueues.requests
    have hne : x ≠ id := fun heq => hid g (heq ▸ List.mem_cons_self)
    rw [ih (sound_grant hs hgain hx) fun g hg => hid g (List.mem_cons_of_mem _ hg),
      Work.requests_grant hu hx, Table.get?_put_of_ne _ _ hne, hsame]

theorem get?_of_mem (hs : Sound held w.pool) (h : Served m held c l w v) (hid : (id, g) ∈ l) :
    v.pool.requests.get? id = some { route := g.record.route, outcome := .granted g } := by
  induction h with
  | rest => exact absurd hid List.not_mem_nil
  | @next l w u v x g' hgain hx h ih =>
    have hu : Sound (g' ::ₘ held) u.pool := Scene.IsSound.gains (s := ⟨held, c, w⟩) hs hgain
    have hgrant := sound_grant hs hgain hx
    rcases List.mem_cons.1 hid with heq | hid
    -- who got a grant does not wait any more, so nobody is served twice
    · obtain ⟨rfl, rfl⟩ := Prod.mk.inj heq
      have hself : (u.grant id g).pool.requests.get? id =
          some { route := g.record.route, outcome := .granted g } := by
        rw [Work.requests_grant hu hx, Table.get?_put_self]
      rw [h.get?_of_not_mem hgrant, hself]
      intro d hd
      simpa [hself] using h.pending hgrant hd
    · exact ih hgrant hid

theorem get?_cases (hs : Sound held w.pool) (h : Served m held c l w v) (id : RequestId) :
    v.pool.requests.get? id = w.pool.requests.get? id ∧ (∀ g, (id, g) ∉ l) ∨
      ∃ g, (id, g) ∈ l ∧ w.pool.requests.get? id = some { route := g.record.route } ∧
        v.pool.requests.get? id = some { route := g.record.route, outcome := .granted g } := by
  by_cases hid : ∃ g, (id, g) ∈ l
  · obtain ⟨g, hg⟩ := hid
    exact .inr ⟨g, hg, h.pending hs hg, h.get?_of_mem hs hg⟩
  · exact .inl ⟨h.get?_of_not_mem hs (not_exists.1 hid), not_exists.1 hid⟩

theorem grants (hs : Sound held w.pool) (h : Served m held c l w v) :
    v.pool.grants = w.pool.grants + (l.map Prod.snd : List Grant) := by
  induction h with
  | rest hgain =>
    rw [Pool.grants, hgain.sameQueues.requests]
    exact (add_zero _).symm
  | @next l w u v id g hgain hid _ ih =>
    have hu : Sound (g ::ₘ held) u.pool := Scene.IsSound.gains (s := ⟨held, c, w⟩) hs hgain
    have hsame : u.pool.requests = w.pool.requests := hgain.sameQueues.requests
    have hput : (u.grant id g).pool.grants = w.pool.grants + {g} := by
      have hpending := hu.head_pending hid
      rw [Pool.grants, Work.requests_grant hu hid, hsame, Pool.grants_put (hsame ▸ hpending),
        Slot.grants_granted]
    rw [ih (sound_grant hs hgain hid), hput, add_assoc, Multiset.singleton_add, List.map_cons,
      Multiset.cons_coe]

theorem nodup_slots (hs : Sound held w.pool) (h : Served m held c l w v) :
    (l.map (·.2.slot)).Nodup := by
  have hle : (l.map Prod.snd : Multiset Grant) ≤ v.pool.census held := by
    rw [Pool.census, h.grants hs]
    exact (Multiset.le_add_left _ _).trans
      ((Multiset.le_add_left _ _).trans (Multiset.le_add_right _ _))
  have hids : ((l.map Prod.snd).map Grant.id).Nodup :=
    Multiset.coe_nodup.1 (Multiset.nodup_of_le (Multiset.map_le_map hle) (h.sound hs).ids)
  refine List.Nodup.of_map Prod.snd ?_
  rw [List.map_map] at hids ⊢
  exact hids

theorem sorted (hs : Sound held w.pool) (h : Served m held c l w v) (r : Route) :
    (l.filter (·.2.record.route = r)).Pairwise (·.1.number < ·.1.number) := by
  have hq := hs.queued.queue_sorted r
  rw [h.queue hs, List.pairwise_append, List.pairwise_map] at hq
  exact hq.1

theorem sublist_of_lt {x y : Grant} (hs : Sound held w.pool) (h : Served m held c l w v)
    (ha : (a, x) ∈ l) (hb : (b, y) ∈ l) (hr : x.record.route = y.record.route)
    (hlt : a.number < b.number) : [(a, x), (b, y)].Sublist l := by
  refine (sublist_pair (fun _ _ => Nat.lt_asymm) (h.sorted hs y.record.route) ?_ ?_ hlt).trans
    List.filter_sublist
  · exact List.mem_filter.2 ⟨ha, by simpa using hr⟩
  · exact List.mem_filter.2 ⟨hb, by simp⟩

theorem lt_of_mem_queue (hs : Sound held w.pool) (h : Served m held c l w v) (hb : (b, g) ∈ l)
    (ha : a ∈ (v.pool.lane g.record.route).queue) : b.number < a.number := by
  have hq := hs.queued.queue_sorted g.record.route
  rw [h.queue hs, List.pairwise_append] at hq
  refine hq.2.2 b (List.mem_map.2 ⟨(b, g), ?_, rfl⟩) a ha
  exact List.mem_filter.2 ⟨hb, by simp⟩

end Served

end ConnectionPool
