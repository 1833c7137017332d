import ConnectionPool.Proofs.Lanes
import ConnectionPool.Proofs.Recency

/-! The invariant of a pool.  A pool keeps several records of the same facts, and `held` is what is
out of its hands: the grants that were collected, and those on the way to a request. -/

namespace ConnectionPool

namespace Pool

/-- The queues of the lanes, the list of those who wait and the slots tell the same. -/
structure Queued (p : Pool) : Prop where
  queue : ∀ r, (p.lane r).queue = (p.waiting.filter (·.2 = r)).map Prod.fst
  sorted : p.waiting.keys.Pairwise (·.number < ·.number)
  pending : ∀ id r, (id, r) ∈ p.waiting ↔ p.requests.get? id = some { route := r }
  keys : p.requests.keys.Nodup
  numbers : ∀ id ∈ p.requests.keys, id.number ≤ p.lastRequest

def census (p : Pool) (held : Multiset Grant) : Multiset Grant :=
  held + p.grants + p.stock.map Grant.reuse

theorem census_relane {p q : Pool} (hp : p.Tidy) (h : p.Relanes q) (held : Multiset Grant) :
    q.census held = p.census held := by
  have hgrants : q.grants = p.grants := by rw [h.rest, grants, grants]
  rw [census, hgrants, stock_relane hp h, census]

def takeOut (e : Idle) (p : Pool) : Pool :=
  { p.updateLane e.record.route fun l => { l with available := l.available.erase e } with
    idle := p.idle.erase e.mark }

def pull (e : Idle) (p : Pool) : Pool := (p.takeOut e).prune e.record.route

theorem relanes_pull (e : Idle) (p : Pool) : (p.takeOut e).Relanes (p.pull e) := relanes_prune _ _

theorem idle_pull_of_head {e : Idle} {p : Pool} {ks : Recency} (hi : p.idle = e.mark :: ks) :
    (p.pull e).idle = ks := by
  rw [(relanes_pull e p).idle]
  change p.idle.erase e.mark = ks
  rw [hi, List.erase_cons_head]

theorem Queued.of_edit {p q : Pool} {r : Route} {l : Lane} (hp : p.Queued)
    (h : q.lanes = (p.setLane r l).lanes) (hl : l.queue = (p.lane r).queue)
    (hw : q.waiting = p.waiting) (hr : q.requests = p.requests)
    (hn : p.lastRequest ≤ q.lastRequest) : q.Queued where
  queue s := by rw [queue_of_edit h hl, hw, hp.queue]
  sorted := hw ▸ hp.sorted
  pending id s := by rw [hw, hr, hp.pending]
  keys := hr ▸ hp.keys
  numbers id hid := (hp.numbers id (hr ▸ hid)).trans hn

end Pool

structure Sound (held : Multiset Grant) (p : Pool) : Prop where
  tidy : p.Tidy
  queued : p.Queued
  home : ∀ r, ∀ e ∈ (p.lane r).available, e.record.route = r
  idle : (p.idle : Multiset Mark) = p.stock.map Idle.mark
  leased : p.leased = p.slots.card
  slots : p.isShut = false → p.slots = (held + p.grants).map Grant.slot
  ids : ((p.census held).map Grant.id).Nodup
  issued : ∀ g ∈ p.census held, g.id.number ≤ p.lastEntry
  shut : p.isShut = true → (∀ r, p.lane r = {}) ∧ p.waiting = [] ∧ p.grants = 0

namespace Sound

variable {held : Multiset Grant} {p q : Pool} {g : Grant} {e : Idle} {r : Route}

theorem stock_ids (h : Sound held p) : (p.stock.map Idle.id).Nodup := by
  refine Multiset.nodup_of_le ?_ h.ids
  rw [Pool.census, Multiset.map_add, Multiset.map_map]
  exact Multiset.le_add_left _ _

theorem held_ids (h : Sound held p) : (held.map Grant.id).Nodup := by
  refine Multiset.nodup_of_le ?_ h.ids
  rw [Pool.census, add_assoc, Multiset.map_add]
  exact Multiset.le_add_right _ _

theorem available_ids (h : Sound held p) (r : Route) :
    ((p.lane r).available.map Idle.id).Nodup :=
  Multiset.coe_nodup.1 <| Multiset.nodup_of_le
    (Multiset.map_le_map (f := Idle.id) (Pool.available_le_stock p r)) h.stock_ids

theorem idle_ids (h : Sound held p) : (p.idle.map Mark.id).Nodup := by
  rw [← Multiset.coe_nodup, ← Multiset.map_coe, h.idle, Multiset.map_map]
  exact h.stock_ids

theorem mem_stock (h : Sound held p) :
    e ∈ p.stock ↔ e ∈ (p.lane e.record.route).available := by
  rw [Pool.mem_stock h.tidy]
  constructor
  · rintro ⟨s, hs⟩
    rwa [h.home s e hs]
  · exact fun he => ⟨_, he⟩

theorem mark_mem (h : Sound held p) (he : e ∈ p.stock) : e.mark ∈ p.idle := by
  rw [← Multiset.mem_coe, h.idle]
  exact Multiset.mem_map_of_mem _ he

theorem mark_inj {d : Idle} (h : Sound held p) (he : e ∈ (p.lane r).available)
    (hd : d ∈ (p.lane r).available) (heq : d.mark = e.mark) : d = e :=
  List.inj_on_of_nodup_map (h.available_ids r) hd he (congrArg Mark.id heq)

theorem exists_of_mark (h : Sound held p) {m : Mark} (hm : m ∈ p.idle) :
    ∃ e ∈ p.stock, e.mark = m := by
  rw [← Multiset.mem_coe, h.idle] at hm
  exact Multiset.mem_map.1 hm

theorem available_eq_nil_of_shut (h : Sound held p) (hs : p.isShut = true) (r : Route) :
    p.lane r = {} :=
  (h.shut hs).1 r

theorem isShut_eq_false (h : Sound held p) (hr : p.lane r ≠ {}) : p.isShut = false := by
  by_contra hs
  exact hr (h.available_eq_nil_of_shut (by simpa using hs) r)

theorem of_lane (h : Sound held p) (ht : q.Tidy) (hlane : ∀ r, q.lane r = p.lane r)
    (hi : q.idle = p.idle) (hr : q.requests = p.requests) (hw : q.waiting = p.waiting)
    (hn : q.leased = p.leased) (hs : q.isShut = p.isShut) (he : p.lastEntry ≤ q.lastEntry)
    (hq : p.lastRequest ≤ q.lastRequest) : Sound held q := by
  have hstock : q.stock = p.stock := Pool.stock_eq_of_lane h.tidy ht hlane
  have hslots : q.slots = p.slots := Pool.slots_eq_of_lane h.tidy ht hlane
  have hgrants : q.grants = p.grants := by rw [Pool.grants, hr, Pool.grants]
  have hcensus : q.census held = p.census held := by rw [Pool.census, hgrants, hstock, Pool.census]
  exact {
    tidy := ht
    queued := {
      queue := fun s => by rw [hlane, hw, h.queued.queue]
      sorted := hw ▸ h.queued.sorted
      pending := fun id s => by rw [hw, hr, h.queued.pending]
      keys := hr ▸ h.queued.keys
      numbers := fun id hid => (h.queued.numbers id (hr ▸ hid)).trans hq }
    home := fun s e he => h.home s e (hlane s ▸ he)
    idle := by rw [hi, hstock, h.idle]
    leased := by rw [hn, hslots, h.leased]
    slots := by rw [hs, hslots, hgrants]; exact h.slots
    ids := hcensus ▸ h.ids
    issued := fun g hg => (h.issued g (hcensus ▸ hg)).trans he
    shut := by
      simp only [hs, hlane, hw, hgrants]
      exact h.shut }

theorem of_eq (h : Sound held p) (hl : q.lanes = p.lanes) (hi : q.idle = p.idle)
    (hr : q.requests = p.requests) (hw : q.waiting = p.waiting) (hn : q.leased = p.leased)
    (hs : q.isShut = p.isShut) (he : p.lastEntry ≤ q.lastEntry)
    (hq : p.lastRequest ≤ q.lastRequest) : Sound held q := by
  have ht : q.Tidy := by
    rw [Pool.Tidy, hl]
    exact h.tidy
  exact h.of_lane ht (fun r => by rw [Pool.lane, hl, Pool.lane]) hi hr hw hn hs he hq

theorem relane (h : Sound held p) (hq : p.Relanes q) : Sound held q := by
  refine h.of_lane (hq.tidy h.tidy) hq.lane ?_ ?_ ?_ ?_ ?_ ?_ ?_ <;> rw [hq.rest]

end Sound

end ConnectionPool
