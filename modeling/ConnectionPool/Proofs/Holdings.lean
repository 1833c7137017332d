import ConnectionPool.Pool.Basic
import ConnectionPool.Proofs.Table
import Mathlib.Data.Multiset.Bind

namespace ConnectionPool

namespace Idle

def id (e : Idle) : EntryId := e.record.id

def mark (e : Idle) : Mark where
  id := e.record.id
  route := e.record.route
  released := e.record.updated

@[simp] theorem id_mark (e : Idle) : e.mark.id = e.id := rfl

@[simp] theorem route_mark (e : Idle) : e.mark.route = e.record.route := rfl

end Idle

namespace Grant

def id (g : Grant) : EntryId := g.record.id

def slot (g : Grant) : Route × EntryId := (g.record.route, g.record.id)

def conns : Grant → List Conn
  | reuse e => [e.conn]
  | create _ => []

@[simp] theorem record_reuse (e : Idle) : (reuse e).record = e.record := rfl

@[simp] theorem record_create (r : Record) : (create r).record = r := rfl

@[simp] theorem conns_create (r : Record) : (create r).conns = [] := rfl

end Grant

def Slot.grants (s : Slot) : Multiset Grant :=
  match s.outcome with
  | .granted g => {g}
  | _ => 0

namespace Pool

def Tidy (p : Pool) : Prop := p.lanes.keys.Nodup

def Pruned (p : Pool) : Prop := ∀ x ∈ p.lanes, ¬ x.2.isBare

def slots (p : Pool) : Multiset (Route × EntryId) :=
  p.lanes.total fun r l => (l.leased.map (Prod.mk r) : Multiset (Route × EntryId))

def stock (p : Pool) : Multiset Idle := p.lanes.total fun _ l => (l.available : Multiset Idle)

def grants (p : Pool) : Multiset Grant := p.requests.total fun _ s => s.grants

section Lanes

variable {M : Type} [AddCommMonoid M] {f : Route → Lane → M}

theorem elim_lane (hf : ∀ r, f r {} = 0) (p : Pool) (r : Route) :
    (p.lanes.get? r).elim 0 (f r) = f r (p.lane r) := by
  unfold lane
  cases p.lanes.get? r with
  | none => simp [hf]
  | some l => rfl

theorem total_setLane (hf : ∀ r, f r {} = 0) (p : Pool) (r : Route) (l : Lane) :
    (p.setLane r l).lanes.total f + f r (p.lane r) = p.lanes.total f + f r l := by
  rw [← elim_lane hf]
  exact Table.total_put f p.lanes r l

end Lanes

theorem lane_of_mem {p : Pool} (hp : p.Tidy) {x : Route × Lane} (hx : x ∈ p.lanes) :
    p.lane x.1 = x.2 := by
  rw [lane, Table.get?_eq_some_of_mem hp hx]
  rfl

theorem mem_total_lanes {α : Type} {f : Route → Lane → Multiset α} (hf : ∀ r, f r {} = 0)
    {p : Pool} (hp : p.Tidy) {a : α} : a ∈ p.lanes.total f ↔ ∃ r, a ∈ f r (p.lane r) := by
  rw [Table.mem_total]
  constructor
  · rintro ⟨x, hx, ha⟩
    refine ⟨x.1, ?_⟩
    rwa [lane_of_mem hp hx]
  · rintro ⟨r, ha⟩
    unfold lane at ha
    cases h : p.lanes.get? r with
    | none => simp [h, hf] at ha
    | some l => exact ⟨(r, l), Table.mem_of_get?_eq_some h, by simpa [h] using ha⟩

theorem le_total_lanes {α : Type} {f : Route → Lane → Multiset α} (hf : ∀ r, f r {} = 0)
    (p : Pool) (r : Route) : f r (p.lane r) ≤ p.lanes.total f := by
  have h := total_setLane hf p r {}
  rw [hf, add_zero] at h
  exact h ▸ Multiset.le_add_left _ _

theorem mem_slots {p : Pool} (hp : p.Tidy) {r : Route} {id : EntryId} :
    (r, id) ∈ p.slots ↔ id ∈ (p.lane r).leased := by
  rw [slots, mem_total_lanes (fun _ => rfl) hp]
  simp

theorem mem_stock {p : Pool} (hp : p.Tidy) {e : Idle} :
    e ∈ p.stock ↔ ∃ r, e ∈ (p.lane r).available :=
  mem_total_lanes (fun _ => rfl) hp

theorem leased_le_slots (p : Pool) (r : Route) :
    ((p.lane r).leased.map (Prod.mk r) : Multiset (Route × EntryId)) ≤ p.slots :=
  le_total_lanes (f := fun r l => (l.leased.map (Prod.mk r) : Multiset (Route × EntryId)))
    (fun _ => rfl) p r

theorem available_le_stock (p : Pool) (r : Route) :
    ((p.lane r).available : Multiset Idle) ≤ p.stock :=
  le_total_lanes (fun _ => rfl) p r

theorem Tidy.setLane {p : Pool} (hp : p.Tidy) (r : Route) (l : Lane) : (p.setLane r l).Tidy :=
  Table.nodup_keys_put r l hp

/-! A pool `q` that has the lanes of `p` but for one. -/

section Edit

variable {p q : Pool} {r : Route} {l : Lane}

theorem lane_of_edit (h : q.lanes = (p.setLane r l).lanes) (s : Route) :
    q.lane s = if s = r then l else p.lane s := by
  have hq : q.lane s = (p.setLane r l).lane s := by rw [lane, h, lane]
  rw [hq]
  split
  · next hs => rw [hs, lane_setLane_self]
  · next hs => exact lane_setLane_of_ne p l (Ne.symm hs)

theorem tidy_of_edit (h : q.lanes = (p.setLane r l).lanes) (hp : p.Tidy) : q.Tidy := by
  rw [Tidy, h]
  exact hp.setLane r l

theorem slots_of_edit (h : q.lanes = (p.setLane r l).lanes) :
    q.slots + ((p.lane r).leased.map (Prod.mk r) : Multiset (Route × EntryId)) =
      p.slots + (l.leased.map (Prod.mk r) : Multiset (Route × EntryId)) := by
  rw [slots, h]
  exact total_setLane (f := fun r l => (l.leased.map (Prod.mk r) : Multiset (Route × EntryId)))
    (fun _ => rfl) p r l

theorem stock_of_edit (h : q.lanes = (p.setLane r l).lanes) :
    q.stock + ((p.lane r).available : Multiset Idle) = p.stock + (l.available : Multiset Idle) := by
  rw [stock, h]
  exact total_setLane (f := fun _ l => (l.available : Multiset Idle)) (fun _ => rfl) p r l

theorem slots_eq_of_edit (h : q.lanes = (p.setLane r l).lanes)
    (hl : l.leased = (p.lane r).leased) : q.slots = p.slots := by
  have hs := slots_of_edit h
  rw [hl] at hs
  exact add_right_cancel hs

theorem stock_eq_of_edit (h : q.lanes = (p.setLane r l).lanes)
    (hl : l.available = (p.lane r).available) : q.stock = p.stock := by
  have hs := stock_of_edit h
  rw [hl] at hs
  exact add_right_cancel hs

theorem queue_of_edit (h : q.lanes = (p.setLane r l).lanes) (hl : l.queue = (p.lane r).queue)
    (s : Route) : (q.lane s).queue = (p.lane s).queue := by
  rw [lane_of_edit h]
  split
  · next hs => rw [hs, hl]
  · rfl

end Edit

end Pool

end ConnectionPool
