import ConnectionPool.Proofs.Adjust
import ConnectionPool.Proofs.Lease
import ConnectionPool.Tenancy

namespace ConnectionPool

variable {t : Tenancy} {c : Multiset Conn} {m : Moment} {id : RequestId} {r : Route}

def Entry.grant (e : Entry) : Grant := .reuse { record := e.record, conn := e.conn }

namespace Tenancy

/-- What the callers hold. -/
def out (t : Tenancy) : Multiset Grant :=
  t.entries.total (fun _ e => {e.grant}) + (t.creating.map Grant.create : Multiset Grant)

def scene (c : Multiset Conn) (t : Tenancy) : Scene := ⟨t.out, c, { pool := t.pool }⟩

structure Filed (es : Table EntryId Entry) : Prop where
  keys : es.keys.Nodup
  named : ∀ x ∈ es, x.2.record.id = x.1

structure IsSound (t : Tenancy) : Prop where
  sound : Sound t.out t.pool
  filed : Filed t.entries

end Tenancy

namespace Turn

def scene (c : Multiset Conn) (turn : Turn α) : Scene :=
  ⟨turn.tenancy.out, c, ⟨turn.tenancy.pool, turn.closed, turn.reports⟩⟩

end Turn

namespace Tenancy

theorem scene_turn {α : Type} (t : Tenancy) (work : Work → α × Work) :
    (t.turn work).scene c = ⟨t.out, c, (work { pool := t.pool }).2⟩ := rfl

theorem lease_pool (timeout : Option Span) : (t.lease m r timeout).tenancy.pool =
    (Work.lease m r { pool := t.pool }).2.pool := by
  unfold lease
  dsimp only
  split <;> rfl

theorem scene_lease (timeout : Option Span) :
    (t.lease m r timeout).scene c = (t.turn (Work.lease m r)).scene c := by
  unfold lease
  dsimp only
  split <;> rfl

theorem lease_trades (h : t.IsSound) (timeout : Option Span) :
    Trades m (t.scene c) ((t.lease m r timeout).scene c) := by
  rw [scene_lease]
  exact Work.lease_trades h.sound

theorem lease_entries (timeout : Option Span) :
    (t.lease m r timeout).tenancy.entries = t.entries := by
  unfold lease
  dsimp only
  split <;> rfl

theorem Filed.put {es : Table EntryId Entry} (h : Filed es) (e : Entry) :
    Filed (es.put e.record.id e) := by
  have hkeys := Table.nodup_keys_put e.record.id e h.keys
  refine ⟨hkeys, fun x hx => ?_⟩
  have hget := Table.get?_eq_some_of_mem hkeys hx
  by_cases hid : e.record.id = x.1
  · rw [hid, Table.get?_put_self] at hget
    rw [← Option.some.inj hget, hid]
  · rw [Table.get?_put_of_ne _ _ hid] at hget
    exact h.named _ (Table.mem_of_get?_eq_some hget)

theorem Filed.remove {es : Table EntryId Entry} (h : Filed es) (id : EntryId) :
    Filed (es.remove id) := by
  refine ⟨Table.nodup_keys_remove id h.keys, fun x hx => h.named x ?_⟩
  rw [Table.remove_eq_filter] at hx
  exact (List.mem_filter.1 hx).1

theorem Filed.get?_eq_none {es : Table EntryId Entry} (h : Filed es) {g : Grant}
    {held : Multiset Grant} (hn : ((g ::ₘ held).map Grant.id).Nodup)
    (hle : es.total (fun _ e => ({e.grant} : Multiset Grant)) ≤ held) :
    es.get? g.id = none := by
  rw [Table.get?_eq_none_iff]
  intro hmem
  obtain ⟨x, hx, hid⟩ := List.mem_map.1 hmem
  rw [Multiset.map_cons, Multiset.nodup_cons] at hn
  refine hn.1 (Multiset.mem_map.2 ⟨x.2.grant, ?_, ?_⟩)
  · exact Multiset.mem_of_le hle (Table.mem_total.2 ⟨x, hx, Multiset.mem_singleton_self _⟩)
  · exact (h.named x hx).trans hid

theorem out_put {e : Entry} (hn : t.entries.get? e.record.id = none) (p : Pool) :
    out { t with pool := p, entries := t.entries.put e.record.id e } = e.grant ::ₘ t.out := by
  unfold out
  rw [Table.total_put_of_get?_eq_none _ _ hn, add_right_comm, add_comm, Multiset.singleton_add]

theorem out_create (s : Record) (p : Pool) :
    out { t with pool := p, creating := s :: t.creating } = .create s ::ₘ t.out := by
  unfold out
  rw [List.map_cons, ← Multiset.cons_coe, Multiset.add_cons]

section Collect

def clearedPool (id : RequestId) (t : Tenancy) : Pool :=
  { t.pool with requests := t.pool.requests.remove id }

theorem collect_of_none (hid : t.pool.requests.get? id = none) :
    ∃ a, t.collect id = { answer := a, tenancy := t } := by
  simp only [collect, Pool.collect, hid]
  exact ⟨_, rfl⟩

theorem collect_pending (hid : t.pool.requests.get? id = some { route := r }) :
    t.collect id = { answer := .pending, tenancy := t } := by
  simp only [collect, Pool.collect, hid]

theorem collect_failed {f : Refusal}
    (hid : t.pool.requests.get? id = some { route := r, outcome := .failed f }) :
    t.collect id =
      { answer := .failed (f.failure r), tenancy := { t with pool := t.clearedPool id } } := by
  simp only [collect, Pool.collect, hid]
  rfl

theorem collect_reuse {e : Idle}
    (hid : t.pool.requests.get? id = some { route := r, outcome := .granted (.reuse e) }) :
    t.collect id = {
      answer := .granted (.reuse e)
      tenancy := { t with
        pool := t.clearedPool id
        entries := t.entries.put e.record.id
          { record := e.record, conn := e.conn, reused := true } } } := by
  simp only [collect, Pool.collect, hid]
  rfl

theorem collect_create {s : Record}
    (hid : t.pool.requests.get? id = some { route := r, outcome := .granted (.create s) }) :
    t.collect id = {
      answer := .granted (.create s)
      tenancy := { t with pool := t.clearedPool id, creating := s :: t.creating } } := by
  simp only [collect, Pool.collect, hid]
  rfl

theorem exists_of_collect_pending (h : (t.collect id).answer = .pending) :
    ∃ r, t.pool.requests.get? id = some { route := r } := by
  cases hid : t.pool.requests.get? id with
  | none => simp [collect, Pool.collect, hid] at h
  | some s =>
    obtain ⟨r, o⟩ := s
    cases o with
    | pending => exact ⟨r, rfl⟩
    | failed f => simp [collect_failed hid] at h
    | granted g => cases g <;> simp [collect, Pool.collect, hid] at h

theorem collect_trades (h : t.IsSound) :
    Trades m (t.scene c) ((t.collect id).scene c) ∧ Filed (t.collect id).tenancy.entries := by
  cases hid : t.pool.requests.get? id with
  | none =>
    obtain ⟨a, ha⟩ := collect_of_none hid
    rw [ha]
    exact ⟨.refl, h.filed⟩
  | some s =>
    obtain ⟨r, o⟩ := s
    cases o with
    | pending =>
      rw [collect_pending hid]
      exact ⟨.refl, h.filed⟩
    | failed f =>
      have htrade : Trade m (t.scene c) ⟨_, c, { pool := t.clearedPool id }⟩ := .collect hid rfl
      rw [Slot.grants_failed, zero_add] at htrade
      rw [collect_failed hid]
      exact ⟨.single htrade, h.filed⟩
    | granted g =>
      have htrade : Trade m (t.scene c) ⟨_, c, { pool := t.clearedPool id }⟩ := .collect hid rfl
      have hsound : Sound _ (t.clearedPool id) := h.sound.collect hid rfl
      rw [Slot.grants_granted, Multiset.singleton_add] at htrade hsound
      cases g with
      | reuse e =>
        have hnone : t.entries.get? e.record.id = none :=
          h.filed.get?_eq_none (g := .reuse e) hsound.held_ids (Multiset.le_add_right _ _)
        rw [collect_reuse hid]
        refine ⟨.single ?_, h.filed.put { record := e.record, conn := e.conn, reused := true }⟩
        rw [Turn.scene, out_put (e := { record := e.record, conn := e.conn, reused := true }) hnone]
        exact htrade
      | create s =>
        rw [collect_create hid]
        refine ⟨.single ?_, h.filed⟩
        rw [Turn.scene, out_create]
        exact htrade

theorem collect_settled (hs : t.pool.Settled) : (t.collect id).tenancy.pool.Settled := by
  have hcleared : (t.clearedPool id).Settled :=
    hs.draws (Pool.draws_of_eq rfl rfl rfl le_rfl rfl rfl rfl) fun _ hne => hne
  cases hid : t.pool.requests.get? id with
  | none =>
    obtain ⟨a, ha⟩ := collect_of_none hid
    rwa [ha]
  | some s =>
    obtain ⟨r, o⟩ := s
    cases o with
    | pending => rwa [collect_pending hid]
    | failed f => rwa [collect_failed hid]
    | granted g =>
      cases g with
      | reuse e => rwa [collect_reuse hid]
      | create s => rwa [collect_create hid]

end Collect

theorem timeOut_trades (hid : t.pool.requests.get? id = some { route := r }) :
    Trades m (t.scene c) ((t.timeOut id).scene c) := by
  have htrade : Trade m (t.scene c) ⟨t.out, c, { pool := (t.pool.timeOut id).2 }⟩ := by
    rw [Pool.timeOut_eq]
    exact .quit hid
  exact .single htrade

theorem out_erase {s : Record} (hs : s ∈ t.creating) :
    t.out = .create s ::ₘ out { t with creating := t.creating.erase s } := by
  have hperm := (List.perm_cons_erase hs).map Grant.create
  unfold out
  rw [Multiset.coe_eq_coe.2 hperm, List.map_cons, ← Multiset.cons_coe, Multiset.add_cons]

theorem connected_pool (s : Record) (x : Conn) : (t.connected s x).tenancy.pool = t.pool := by
  unfold connected
  dsimp only
  split <;> rfl

theorem connected_trades (h : t.IsSound) {s : Record} (hs : s ∈ t.creating) (x : Conn) :
    Trades m (t.scene c) ((t.connected s x).scene (x ::ₘ c)) ∧
      Filed (t.connected s x).tenancy.entries := by
  let rest : Tenancy := { t with creating := t.creating.erase s }
  have hout : t.out = .create s ::ₘ rest.out := out_erase hs
  let e : Entry := { record := s, conn := x, reused := false }
  have hconnect : Trades m (t.scene c) ⟨e.grant ::ₘ rest.out, x ::ₘ c, { pool := t.pool }⟩ := by
    rw [scene, hout]
    exact .single (.connect x)
  unfold connected
  dsimp only
  split
  · next hshut =>
    have hlose : Trades m (t.scene c) ⟨rest.out, x ::ₘ c, { pool := t.pool, closing := [x] }⟩ :=
      hconnect.tail (.lose hshut)
    exact ⟨Work.note_tail (.shutWhileConnecting s.route) rfl hlose, h.filed⟩
  · have hnone : t.entries.get? e.record.id = none := by
      have hids := h.sound.held_ids
      rw [hout] at hids
      exact h.filed.get?_eq_none hids (Multiset.le_add_right _ _)
    refine ⟨?_, h.filed.put e⟩
    have hput := out_put (t := rest) (e := e) hnone t.pool
    rw [Turn.scene, hput]
    exact Work.note_tail (.connected s.id s.route) rfl hconnect

theorem connectFailed_trades (h : t.IsSound) {s : Record} (hs : s ∈ t.creating) (f : Failure) :
    Trades m (t.scene c) ((t.connectFailed m s f).scene c) := by
  let rest : Tenancy := { t with creating := t.creating.erase s }
  have hout : t.out = .create s ::ₘ rest.out := out_erase hs
  have hnote : Trades m (t.scene c) ⟨.create s ::ₘ rest.out, c,
      (Work.mk t.pool [] []).note (.connectFailed s.route f)⟩ := by
    rw [scene, hout]
    exact Work.note_tail _ rfl .refl
  have hsound : Sound (.create s ::ₘ rest.out) t.pool := hout ▸ h.sound
  exact hnote.trans (Work.vacate_trades hsound)

theorem out_remove {id : EntryId} {e : Entry} (h : t.IsSound) (he : t.entries.get? id = some e) :
    t.out = e.grant ::ₘ out { t with entries := t.entries.remove id } := by
  have htotal := Table.total_remove (fun _ e => ({Entry.grant e} : Multiset Grant)) id h.filed.keys
  rw [he] at htotal
  unfold out
  rw [← htotal, add_right_comm, add_comm]
  rfl

theorem release_of_none {id : EntryId} (he : t.entries.get? id = none) (reusable : Bool)
    (v : Option Span) : ∃ a, t.release m id reusable v = { answer := a, tenancy := t } := by
  unfold release
  rw [he]
  exact ⟨_, rfl⟩

theorem release_eq {id : EntryId} {e : Entry} (he : t.entries.get? id = some e) (reusable : Bool)
    (v : Option Span) : t.release m id reusable v =
      { t with entries := t.entries.remove id }.turn fun w =>
        w.takeBack m e.record e.conn reusable v := by
  unfold release
  rw [he]

theorem release_trades (h : t.IsSound) (id : EntryId) (reusable : Bool) (v : Option Span) :
    Trades m (t.scene c) ((t.release m id reusable v).scene c) ∧
      Filed (t.release m id reusable v).tenancy.entries := by
  cases he : t.entries.get? id with
  | none =>
    obtain ⟨a, ha⟩ := release_of_none (m := m) he reusable v
    rw [ha]
    exact ⟨.refl, h.filed⟩
  | some e =>
    have hout := out_remove h he
    rw [release_eq he, scene_turn, scene, hout]
    exact ⟨Work.takeBack_trades (e := ⟨e.record, e.conn⟩) (hout ▸ h.sound) reusable v,
      h.filed.remove id⟩

end Tenancy

end ConnectionPool
