import ConnectionPool.Proofs.Flow
import ConnectionPool.Proofs.Life

namespace ConnectionPool

namespace Op

theorem nodup_makes {t : Tenancy} {made : List Conn} {o : Op} (h : made.Nodup)
    (hp : o.isPossible t made) : (o.makes made).Nodup := by
  cases o with
  | connected s x =>
    have hx : x ∉ made := of_decide_eq_true (Bool.and_eq_true_iff.1 hp).2
    exact List.nodup_cons.2 ⟨hx, h⟩
  | _ => exact h

end Op

namespace Tenancy

def live (t : Tenancy) : List Conn := t.entries.map (·.2.conn)

def unclaimed (t : Tenancy) : List Conn := t.pool.requests.filterMap (·.2.held)

def available (t : Tenancy) : List Conn := t.pool.lanes.flatMap (·.2.available.map Idle.conn)

def numbers (t : Tenancy) : Multiset EntryId := (t.pool.census t.out).map Grant.id

theorem connsOf_entries (es : Table EntryId Entry) :
    connsOf (Table.total (fun _ e => {e.grant}) es) = (es.map (·.2.conn) : Multiset Conn) := by
  induction es with
  | nil => rfl
  | cons x es ih =>
    rw [Table.total_cons, connsOf_add, ih, connsOf_singleton]
    rfl

theorem connsOf_creating (cs : List Record) :
    connsOf (cs.map Grant.create : Multiset Grant) = 0 := by
  induction cs with
  | nil => rfl
  | cons s cs ih =>
    rw [List.map_cons, ← Multiset.cons_coe, connsOf_cons, ih]
    rfl

theorem connsOf_out (t : Tenancy) : connsOf t.out = (t.live : Multiset Conn) := by
  rw [out, connsOf_add, connsOf_entries, connsOf_creating, add_zero]
  rfl

theorem connsOf_census (t : Tenancy) : connsOf (t.pool.census t.out) =
    (t.live ++ t.unclaimed ++ t.available : List Conn) := by
  rw [Pool.census, connsOf_add, connsOf_add, connsOf_out, Pool.connsOf_grants, connsOf_map_reuse,
    Pool.conns_stock]
  rfl

theorem length_available {t : Tenancy} (h : t.IsSound) :
    t.available.length = t.pool.totalStats.available := by
  have hstock : (t.available : Multiset Conn) = t.pool.stock.map Idle.conn :=
    (Pool.conns_stock t.pool).symm
  have hcard : t.pool.stock.card = t.pool.idle.length := by
    rw [← Multiset.card_map Idle.mark, ← h.sound.idle, Multiset.coe_card]
  rw [← Multiset.coe_card, hstock, Multiset.card_map, hcard]
  rfl

theorem length_le_allocated {t : Tenancy} (h : t.IsSound) (hopen : t.pool.isShut = false) :
    (t.live ++ t.unclaimed ++ t.available).length ≤ t.pool.totalStats.allocated := by
  have hgrants : (t.out + t.pool.grants).card = t.pool.leased := by
    rw [h.sound.leased, h.sound.slots hopen, Multiset.card_map]
  have hconns : (connsOf (t.out + t.pool.grants)).card = (t.live ++ t.unclaimed).length := by
    rw [connsOf_add, connsOf_out, Pool.connsOf_grants, Multiset.coe_add, Multiset.coe_card]
    rfl
  -- each leased slot stands for one grant, and a grant has one connection at most
  rw [List.length_append, length_available h, ← hconns]
  exact Nat.add_le_add_right ((card_connsOf_le _).trans hgrants.le) _

end Tenancy

namespace Life

variable {l : Life} {m : Moment} {o : Op}

def issued (l : Life) : List EntryId := l.reports.filterMap Report.issued?

structure InCustody (l : Life) : Prop where
  nodup : l.made.Nodup
  books : (l.tenancy.scene l.made).Books l.closed l.issued

theorem start_inCustody (conf : Conf) : (start conf).InCustody where
  nodup := List.nodup_nil
  books := ⟨rfl, List.Pairwise.nil, fun _ hid => absurd hid List.not_mem_nil,
    fun _ hg => absurd hg (Multiset.notMem_zero _)⟩

theorem InCustody.step (hl : l.InCustody) (h : l.tenancy.IsSound)
    (hp : o.isPossible l.tenancy l.made) : (l.step m o).InCustody := by
  obtain ⟨hmoves, -⟩ := Tenancy.act_moves (m := m) h hp
  have hstart : ((l.tenancy.relimit o.limits).scene l.made).Books l.closed l.issued :=
    ⟨hl.books.made, hl.books.increasing, hl.books.bounded, hl.books.known⟩
  have hend := (hstart.moves (Tenancy.relimit_sound h o.limits).scene hmoves).enter
  have hissued : (l.step m o).issued =
      l.issued ++ (l.tenancy.act m o).reports.filterMap Report.issued? := by
    rw [issued, Life.step, if_pos hp, List.filterMap_append]
    rfl
  have hclosed : (↑(l.step m o).closed : Multiset Conn) = (l.tenancy.act m o).closed + l.closed := by
    rw [Life.step, if_pos hp, add_comm]
    exact (Multiset.coe_add _ _).symm
  have hmade : (l.step m o).made = o.makes l.made := by rw [Life.step, if_pos hp]
  refine ⟨?_, ?_⟩
  · rw [hmade]
    exact Op.nodup_makes hl.nodup hp
  · rw [hissued, hclosed, hmade, step_tenancy hp]
    exact hend

theorem InCustody.perm (hl : l.InCustody) : l.made.Perm
    (l.closed ++ (l.tenancy.live ++ l.tenancy.unclaimed ++ l.tenancy.available)) := by
  have hmade : (l.made : Multiset Conn) =
      connsOf (l.tenancy.pool.census l.tenancy.out) + 0 + l.closed := hl.books.made
  rw [add_zero, Tenancy.connsOf_census, add_comm] at hmade
  exact Multiset.coe_eq_coe.1 hmade

theorem InCustody.nodup_issued (hl : l.InCustody) : l.issued.Nodup := by
  have hincreasing : List.Pairwise (·.number < ·.number) (l.issued ++ []) := hl.books.increasing
  rw [List.append_nil] at hincreasing
  exact hincreasing.imp fun hlt heq => hlt.ne (congrArg EntryId.number heq)

theorem InCustody.mem_issued (hl : l.InCustody) {id : EntryId} (hid : id ∈ l.tenancy.numbers) :
    id ∈ l.issued := by
  obtain ⟨g, hg, rfl⟩ := Multiset.mem_map.1 hid
  have hknown : g.id ∈ l.issued ++ [] := hl.books.known g hg
  rwa [List.append_nil] at hknown

theorem run_inCustody (conf : Conf) (ops : List (Moment × Op)) :
    ((start conf).run ops).InCustody := by
  refine (run_induction (P := fun l => l.tenancy.IsSound ∧ l.InCustody)
    ⟨start_sound conf, start_inCustody conf⟩ ?_ ops).2
  rintro l m o ⟨h, hl⟩ hp
  refine ⟨?_, hl.step h hp⟩
  rw [step_tenancy hp]
  exact Tenancy.act_sound h hp

/-- Each connection is in one place, or it was closed once, and no number is given twice. -/
theorem conserves_connections (conf : Conf) (ops : List (Moment × Op)) :
    let l := (start conf).run ops
    let t := l.tenancy
    l.made.Nodup ∧
      l.made.Perm (l.closed ++ (t.live ++ t.unclaimed ++ t.available)) ∧
      t.numbers.Nodup ∧ l.issued.Nodup ∧ (∀ id ∈ t.numbers, id ∈ l.issued) ∧
      l.made.length =
        l.closed.length + (t.pool.totalStats.available + t.unclaimed.length + t.live.length) ∧
      (t.pool.isShut = false →
        l.made.length ≤ l.closed.length + t.pool.totalStats.allocated) := by
  intro l t
  have h : t.IsSound := run_sound conf ops
  have hl : l.InCustody := run_inCustody conf ops
  have hlength := hl.perm.length_eq
  refine ⟨hl.nodup, hl.perm, h.sound.ids, hl.nodup_issued, fun id => hl.mem_issued, ?_, ?_⟩
  · rw [hlength, List.length_append, List.length_append, List.length_append,
      Tenancy.length_available h, add_comm t.live.length, add_comm _ t.pool.totalStats.available,
      add_assoc]
  · intro hopen
    rw [hlength, List.length_append]
    exact Nat.add_le_add_left (Tenancy.length_le_allocated h hopen) _

theorem conserves_connections_regranted :
    let l := (start Sample.conf).run Sample.regrants
    (l.tenancy.pool.isShut = false ∧ l.tenancy.unclaimed = [⟨2⟩, ⟨1⟩]) ∧
      l.made.length ≤ l.closed.length + l.tenancy.pool.totalStats.allocated :=
  ⟨by decide, (conserves_connections Sample.conf Sample.regrants).2.2.2.2.2.2 (by decide)⟩

end Life

end ConnectionPool
