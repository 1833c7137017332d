import ConnectionPool.Pool.Lease
import ConnectionPool.Pool.Upkeep
import ConnectionPool.Proofs.Requests
import ConnectionPool.Proofs.Slots
import Mathlib.Logic.Relation

/-! What a pool can do, move by move.  An operation is a run of moves, so what every move keeps an
operation keeps.  The conditions of a move say when the pool makes it: they are what the statements
on limits, fitness and order rest on. -/

namespace ConnectionPool

namespace Report

def issued? : Report → Option EntryId
  | .noted (.reserve id _) => some id
  | _ => none

def handed? : Report → Option (Route × EntryId)
  | .noted (.reuse id r) => some (r, id)
  | .noted (.reserve id r) => some (r, id)
  | _ => none

def evicted? : Report → Option EntryId
  | .noted (.evict id _ _) => some id
  | _ => none

def isAmiss : Report → Bool
  | .noted (.strayIdle _ _) => true
  | .noted (.requestGone _) => true
  | _ => false

def isPlain (x : Report) : Bool := x.handed?.isNone && x.evicted?.isNone && !x.isAmiss

theorem handed?_of_isPlain {x : Report} (h : x.isPlain) : x.handed? = none := by
  simp only [isPlain, Bool.and_eq_true, Option.isNone_iff_eq_none] at h
  exact h.1.1

theorem evicted?_of_isPlain {x : Report} (h : x.isPlain) : x.evicted? = none := by
  simp only [isPlain, Bool.and_eq_true, Option.isNone_iff_eq_none] at h
  exact h.1.2

theorem isAmiss_of_isPlain {x : Report} (h : x.isPlain) : x.isAmiss = false := by
  simp only [isPlain, Bool.and_eq_true, Bool.not_eq_true'] at h
  exact h.2

theorem issued?_of_isPlain {x : Report} (h : x.isPlain) : x.issued? = none := by
  have hhanded := handed?_of_isPlain h
  unfold issued?
  split
  · simp [handed?] at hhanded
  · rfl

end Report

/-- A pool at work, the grants outside of it, and the connections that were made for it. -/
structure Scene where
  held : Multiset Grant
  made : Multiset Conn
  work : Work

inductive Shed : Scene → Scene → Prop
  | relane {h c w} (f : Pool → Pool) (hf : w.pool.Relanes (f w.pool)) :
      Shed ⟨h, c, w⟩ ⟨h, c, w.change f⟩
  | report {h c w} (rs : List Report) (hrs : ∀ x ∈ rs, x.isPlain) :
      Shed ⟨h, c, w⟩ ⟨h, c, w.report rs⟩
  | close {h c w} {e : Idle} (he : e ∈ (w.pool.lane e.record.route).available) :
      Shed ⟨h, c, w⟩ ⟨h, c, (w.change (Pool.takeOut e)).close e.conn⟩
  | evict {h c w} {e : Idle} (r : Route) (he : e ∈ (w.pool.lane e.record.route).available)
      (hold : w.pool.idle.head? = some e.mark) :
      Shed ⟨h, c, w⟩ ⟨h, c, ((w.note (.evict e.record.id e.record.route r)).change
        (Pool.pull e)).close e.conn⟩

/-- Moves by which a connection or a slot is found for a caller. -/
inductive Gain (m : Moment) : Scene → Scene → Prop
  | shed {s t} (h : Shed s t) : Gain m s t
  | reuse {h c w} {e : Idle} {rest : List Idle}
      (he : (w.pool.lane e.record.route).available = e :: rest)
      (hfit : e.isFit m w.pool.policy.validateAfter) :
      Gain m ⟨h, c, w⟩
        ⟨.reuse e ::ₘ h, c, ((w.note (.reuse e.record.id e.record.route)).change
          (Pool.takeOut e)).change (Pool.lease e.record)⟩
  | reserve {h c w} {r : Route} (hopen : w.pool.isShut = false)
      (hnone : (w.pool.lane r).available = [])
      (hroute : (w.pool.lane r).allocated < w.pool.limits.forRoute r)
      (htotal : w.pool.allocated < w.pool.limits.total) :
      Gain m ⟨h, c, w⟩ ⟨.create (w.reserve m r).1 ::ₘ h, c, (w.reserve m r).2⟩

inductive Serve (m : Moment) : Scene → Scene → Prop
  | gain {s t} (h : Gain m s t) : Serve m s t
  | grant {h c w} {g : Grant} {id : RequestId}
      (hid : (w.pool.lane g.record.route).queue.head? = some id) :
      Serve m ⟨g ::ₘ h, c, w⟩ ⟨h, c, w.grant id g⟩

/-- Moves by which connections, slots and requests change hands within the limits. -/
inductive Trade (m : Moment) : Scene → Scene → Prop
  | serve {s t} (h : Serve m s t) : Trade m s t
  | free {h c w} {g : Grant} (hopen : w.pool.isShut = false) :
      Trade m ⟨g ::ₘ h, c, w⟩
        ⟨h, c, { w with pool := w.pool.freed g.record, closing := w.closing ++ g.conns }⟩
  | keep {h c w} {e : Idle} (v : Option Span) (hopen : w.pool.isShut = false)
      (hroute : ((w.pool.freed e.record).lane e.record.route).allocated <
        w.pool.limits.forRoute e.record.route)
      (htotal : (w.pool.freed e.record).allocated < w.pool.limits.total) :
      Trade m ⟨.reuse e ::ₘ h, c, w⟩
        ⟨h, c, Work.keep m e.record e.conn v { w with pool := w.pool.freed e.record }⟩
  | number {h c w} {n : Nat} (hn : w.pool.lastRequest ≤ n) :
      Trade m ⟨h, c, w⟩ ⟨h, c, w.change ({ · with lastRequest := n })⟩
  | enqueue {h c w} {id : RequestId} {r : Route} (hopen : w.pool.isShut = false)
      (hnew : ∀ x ∈ w.pool.requests.keys, x.number < id.number)
      (hle : id.number ≤ w.pool.lastRequest) :
      Trade m ⟨h, c, w⟩ ⟨h, c, w.change fun p =>
        { p.enqueue id r with requests := p.requests.put id { route := r } }⟩
  | enter {h c w} {g : Grant} {id : RequestId} (hopen : w.pool.isShut = false)
      (hqueue : (w.pool.lane g.record.route).queue = [])
      (hnew : ∀ x ∈ w.pool.requests.keys, x.number < id.number)
      (hle : id.number ≤ w.pool.lastRequest) :
      Trade m ⟨g ::ₘ h, c, w⟩ ⟨h, c, w.change fun p => { p with
        requests := p.requests.put id { route := g.record.route, outcome := .granted g } }⟩
  | refuse {h c w} {id : RequestId} {r : Route} (f : Refusal)
      (hid : w.pool.requests.get? id = some { route := r }) :
      Trade m ⟨h, c, w⟩ ⟨h, c, w.change fun p => { p.withdraw id with
        requests := p.requests.put id { route := r, outcome := .failed f } }⟩
  | quit {h c w} {id : RequestId} {r : Route}
      (hid : w.pool.requests.get? id = some { route := r }) :
      Trade m ⟨h, c, w⟩ ⟨h, c, w.change fun p => { p.withdraw id with
        requests := p.requests.remove id }⟩
  | collect {h c w} {id : RequestId} {s : Slot} (hid : w.pool.requests.get? id = some s)
      (hs : s.isPending = false) :
      Trade m ⟨h, c, w⟩ ⟨s.grants + h, c, w.change fun p =>
        { p with requests := p.requests.remove id }⟩
  | connect {h c w} {t : Record} (x : Conn) :
      Trade m ⟨.create t ::ₘ h, c, w⟩ ⟨.reuse { record := t, conn := x } ::ₘ h, x ::ₘ c, w⟩
  | lose {h c w} {g : Grant} (hshut : w.pool.isShut = true) :
      Trade m ⟨g ::ₘ h, c, w⟩ ⟨h, c, { w with closing := w.closing ++ g.conns }⟩
  | shut {h c w} : Trade m ⟨h, c, w⟩ ⟨h, c, w.shutDown.2⟩

/-- All moves.  A connection that was granted and not collected is put back whatever the limits. -/
inductive Move (m : Moment) : Scene → Scene → Prop
  | trade {s t} (h : Trade m s t) : Move m s t
  | restore {h c w} {e : Idle} (hopen : w.pool.isShut = false) :
      Move m ⟨.reuse e ::ₘ h, c, w⟩ ⟨h, c, w.putBack e⟩

abbrev Sheds := Relation.ReflTransGen Shed

abbrev Gains (m : Moment) := Relation.ReflTransGen (Gain m)

abbrev Serves (m : Moment) := Relation.ReflTransGen (Serve m)

abbrev Trades (m : Moment) := Relation.ReflTransGen (Trade m)

abbrev Moves (m : Moment) := Relation.ReflTransGen (Move m)

variable {m : Moment} {s t : Scene}

theorem Sheds.gains (h : Sheds s t) : Gains m s t :=
  h.lift id fun _ _ => Gain.shed

theorem Gains.serves (h : Gains m s t) : Serves m s t :=
  h.lift id fun _ _ => Serve.gain

theorem Serves.trades (h : Serves m s t) : Trades m s t :=
  h.lift id fun _ _ => Trade.serve

theorem Trades.moves (h : Trades m s t) : Moves m s t :=
  h.lift id fun _ _ => Move.trade

def Scene.IsSound (s : Scene) : Prop := Sound s.held s.work.pool

namespace Pool

def torn (p : Pool) : Pool :=
  { p with
    isShut := true
    requests := p.requests.map fun x => (x.1, x.2.revoke)
    lanes := []
    waiting := []
    idle := []
    leased := 0 }

theorem grants_torn {p : Pool} : p.torn.grants = 0 := by
  refine Multiset.eq_zero_of_forall_notMem fun g hg => ?_
  obtain ⟨x, hx, hg⟩ := Table.mem_total.1 hg
  obtain ⟨y, _, rfl⟩ := List.mem_map.1 hx
  cases ho : y.2.outcome <;> simp [Slot.revoke, Slot.grants, ho] at hg

theorem stock_torn {p : Pool} : p.torn.stock = 0 := rfl

theorem census_torn {p : Pool} (held : Multiset Grant) : p.torn.census held = held := by
  rw [census, grants_torn, stock_torn, Multiset.map_zero, add_zero, add_zero]

end Pool

namespace Work

variable {w : Work}

theorem shutDown_of_shut (h : w.pool.isShut = true) : w.shutDown = (0, w) := by
  rw [shutDown, if_pos h]

theorem shutDown_of_open (h : w.pool.isShut = false) : w.shutDown.2 = { w with
    pool := w.pool.torn
    closing := w.closing ++ w.pool.requests.filterMap (·.2.held) ++
      w.pool.lanes.flatMap fun l => l.2.available.map Idle.conn } := by
  rw [shutDown, if_neg (by simp [h])]
  rfl

theorem pool_shutDown (h : w.pool.isShut = false) : w.shutDown.2.pool = w.pool.torn := by
  rw [shutDown_of_open h]

theorem grant_eq {id : RequestId} {r : Route} (g : Grant)
    (hid : w.pool.requests.get? id = some { route := r }) : w.grant id g =
      w.change fun p => { p.withdraw id with
        requests := p.requests.put id { route := r, outcome := .granted g } } := by
  have hr : (w.pool.withdraw id).requests = w.pool.requests := Pool.requests_withdraw id w.pool
  simp only [grant, pool_change, hr, hid]
  simp only [change, hr]
  rfl

theorem isShut_shutDown (w : Work) : w.shutDown.2.pool.isShut = true := by
  cases h : w.pool.isShut with
  | true => rwa [shutDown_of_shut h]
  | false => rw [pool_shutDown h, Pool.torn]

end Work

namespace Sound

variable {held : Multiset Grant} {p : Pool} {e : Idle} {w : Work}

theorem not_mem_takeOut (h : Sound held p) (he : e ∈ (p.lane e.record.route).available) :
    e.id ∉ ((p.takeOut e).census held).map Grant.id := by
  have hn := h.ids
  rw [← Pool.census_takeOut he, Multiset.map_cons, Multiset.nodup_cons] at hn
  exact hn.1

theorem not_mem_next (h : Sound held p) :
    (⟨p.lastEntry + 1⟩ : EntryId) ∉ (p.census held).map Grant.id := by
  intro hid
  obtain ⟨g, hg, heq⟩ := Multiset.mem_map.1 hid
  have hlt : g.id.number ≤ p.lastEntry := h.issued g hg
  rw [heq] at hlt
  exact absurd hlt (Nat.not_succ_le_self _)

theorem head_pending (h : Sound held p) {id : RequestId} {r : Route}
    (hid : (p.lane r).queue.head? = some id) : p.requests.get? id = some { route := r } :=
  h.queued.mem_queue.1 (List.mem_of_mem_head? hid)

theorem putBack_eq (h : Sound (.reuse e ::ₘ held) w.pool) (hopen : w.pool.isShut = false) :
    w.putBack e = { w with pool :=
      { (w.pool.freed e.record).updateLane e.record.route (Lane.reinsert e) with
        idle := (w.pool.freed e.record).idle.reinsert e.mark } } := by
  have hf : w.pool.unlease? e.record = some (w.pool.freed e.record) := h.unlease?_eq hopen
  rw [Work.putBack, hf]
  rfl

theorem not_mem_idle (h : Sound held p) {id : EntryId}
    (hid : id ∉ (p.census held).map Grant.id) : id ∉ p.idle.map Mark.id := by
  intro hmem
  obtain ⟨k, hk, rfl⟩ := List.mem_map.1 hmem
  obtain ⟨e, he, rfl⟩ := h.exists_of_mark hk
  refine hid (Multiset.mem_map.2 ⟨.reuse e, ?_, rfl⟩)
  exact Multiset.mem_add.2 (.inr (Multiset.mem_map_of_mem _ he))

theorem mem_census (g : Grant) : g ∈ p.census (g ::ₘ held) :=
  Multiset.mem_add.2 (.inl (Multiset.mem_add.2 (.inl (Multiset.mem_cons_self g held))))

theorem keep (h : Sound (.reuse e ::ₘ held) w.pool) (hopen : w.pool.isShut = false)
    (v : Option Span) :
    Sound held (Work.keep m e.record e.conn v { w with pool := w.pool.freed e.record }).pool := by
  have hfreed : Sound held (w.pool.freed e.record) := h.freed (h.mem_leased hopen)
  have hid : e.id ∉ ((w.pool.freed e.record).census held).map Grant.id := h.not_mem_freed
  have hle : e.id.number ≤ (w.pool.freed e.record).lastEntry := h.issued (.reuse e) (mem_census _)
  let d : Idle := {
    record := e.record.released m.now
      (v.or ((w.pool.freed e.record).policy.keepalive.map Span.ms))
    conn := e.conn }
  exact hfreed.restock (e := d) (l := Lane.put d ((w.pool.freed e.record).lane e.record.route))
    (i := (w.pool.freed e.record).idle.add d.mark) hopen hid hle rfl rfl (List.Perm.refl _)
    (Recency.add_perm (hfreed.not_mem_idle hid))

theorem restore (h : Sound (.reuse e ::ₘ held) w.pool) (hopen : w.pool.isShut = false) :
    Sound held (w.putBack e).pool := by
  have hfreed : Sound held (w.pool.freed e.record) := h.freed (h.mem_leased hopen)
  have hid : e.id ∉ ((w.pool.freed e.record).census held).map Grant.id := h.not_mem_freed
  have hle : e.id.number ≤ (w.pool.freed e.record).lastEntry := h.issued (.reuse e) (mem_census _)
  rw [h.putBack_eq hopen]
  exact hfreed.restock (e := e) hopen hid hle rfl rfl (Lane.reinsert_perm e _)
    (Recency.reinsert_perm hfreed.idle_ids (hfreed.not_mem_idle hid))

theorem of_held {held' : Multiset Grant} (h : Sound held p)
    (hslots : p.isShut = false → held'.map Grant.slot = held.map Grant.slot)
    (hids : held'.map Grant.id ≤ held.map Grant.id) : Sound held' p := by
  have hle : (p.census held').map Grant.id ≤ (p.census held).map Grant.id := by
    simp only [Pool.census, add_assoc, Multiset.map_add]
    exact add_le_add_left hids _
  refine { h with slots := ?_, ids := Multiset.nodup_of_le hle h.ids, issued := ?_ }
  · intro hs
    rw [h.slots hs, Multiset.map_add, Multiset.map_add, hslots hs]
  · intro g hg
    obtain ⟨d, hd, heq⟩ := Multiset.mem_map.1
      (Multiset.mem_of_le hle (Multiset.mem_map_of_mem Grant.id hg))
    exact heq ▸ h.issued d hd

theorem torn (h : Sound held p) : Sound held p.torn := by
  have hle : p.torn.census held ≤ p.census held := by
    rw [Pool.census_torn, Pool.census, add_assoc]
    exact Multiset.le_add_right _ _
  exact {
    tidy := List.nodup_nil
    queued := {
      queue := fun r => rfl
      sorted := List.Pairwise.nil
      pending := by
        intro id r
        refine ⟨fun hid => absurd hid List.not_mem_nil, fun hid => ?_⟩
        rw [Pool.torn, Table.get?_map, Option.map_eq_some_iff] at hid
        obtain ⟨s, _, hs⟩ := hid
        cases ho : s.outcome <;> simp [Slot.revoke, ho] at hs
        simp [hs] at ho
      keys := by
        rw [Pool.torn, Table.keys_map]
        exact h.queued.keys
      numbers := by
        intro id hid
        rw [Pool.torn, Table.keys_map] at hid
        exact h.queued.numbers id hid }
    home := fun r e he => absurd he List.not_mem_nil
    idle := rfl
    leased := rfl
    slots := fun hs => absurd hs (by simp [Pool.torn])
    ids := Multiset.nodup_of_le (Multiset.map_le_map hle) h.ids
    issued := fun g hg => h.issued g (Multiset.mem_of_le hle hg)
    shut := fun _ => ⟨fun r => rfl, rfl, Pool.grants_torn⟩ }

theorem shutDown (h : Sound held w.pool) : Sound held w.shutDown.2.pool := by
  cases hshut : w.pool.isShut with
  | true =>
    rw [Work.shutDown_of_shut hshut]
    exact h
  | false =>
    rw [Work.pool_shutDown hshut]
    exact h.torn

end Sound

namespace Scene.IsSound

theorem shed (h : s.IsSound) (hst : Shed s t) : t.IsSound := by
  cases hst with
  | relane f hf => exact Sound.relane h hf
  | report => exact h
  | close he => exact h.takeOut he
  | evict r he => exact h.pull he

theorem gain (h : s.IsSound) (hst : Gain m s t) : t.IsSound := by
  cases hst with
  | shed hst => exact h.shed hst
  | @reuse held c w e rest he hfit =>
    have hmem : e ∈ (w.pool.lane e.record.route).available := he ▸ List.mem_cons_self
    have hopen : w.pool.isShut = false := by
      refine h.isShut_eq_false (r := e.record.route) fun hl => ?_
      simp [hl] at he
    have hle : e.id.number ≤ w.pool.lastEntry := by
      apply h.issued (.reuse e)
      rw [← Pool.census_takeOut hmem]
      exact Multiset.mem_cons_self _ _
    exact (h.takeOut hmem).lease (g := .reuse e) hopen (h.not_mem_takeOut hmem) hle
  | @reserve held c w r hopen hnone hroute htotal =>
    have hnew : Sound held { w.pool with lastEntry := w.pool.lastEntry + 1 } :=
      h.of_eq rfl rfl rfl rfl rfl rfl (Nat.le_succ _) le_rfl
    exact hnew.lease (g := .create (w.reserve m r).1) hopen (Sound.not_mem_next h) le_rfl

theorem serve (h : s.IsSound) (hst : Serve m s t) : t.IsSound := by
  cases hst with
  | gain hst => exact h.gain hst
  | @grant held c w g id hid =>
    have hpending := h.head_pending hid
    have heq := Work.grant_eq g hpending
    unfold Scene.IsSound
    rw [heq]
    exact h.settle (s := { route := g.record.route, outcome := .granted g }) hpending rfl
      (Multiset.singleton_add g held).symm

theorem trade (h : s.IsSound) (hst : Trade m s t) : t.IsSound := by
  cases hst with
  | serve hst => exact h.serve hst
  | free hopen => exact Sound.freed h (Sound.mem_leased h hopen)
  | keep v hopen => exact Sound.keep h hopen v
  | number hn => exact h.of_eq rfl rfl rfl rfl rfl rfl le_rfl hn
  | enqueue hopen hnew hle => exact Sound.enqueue h hopen hnew hle
  | enter hopen _ hnew hle => exact Sound.enter h hopen hnew hle
  | refuse f hid => exact Sound.settle h hid rfl (zero_add _).symm
  | quit hid => exact Sound.quit h hid
  | collect hid hs => exact Sound.collect h hid hs
  | connect x => exact Sound.of_held h (fun _ => by simp [Grant.slot]) (by simp [Grant.id])
  | lose hshut =>
    exact Sound.of_held h (fun hopen => absurd hopen (by simp [hshut]))
      (Multiset.map_le_map (Multiset.le_cons_self _ _))
  | shut => exact Sound.shutDown h

theorem move (h : s.IsSound) (hst : Move m s t) : t.IsSound := by
  cases hst with
  | trade hst => exact h.trade hst
  | restore hopen => exact Sound.restore h hopen

theorem sheds (h : s.IsSound) (hst : Sheds s t) : t.IsSound := by
  induction hst with
  | refl => exact h
  | tail _ hst ih => exact ih.shed hst

theorem gains (h : s.IsSound) (hst : Gains m s t) : t.IsSound := by
  induction hst with
  | refl => exact h
  | tail _ hst ih => exact ih.gain hst

theorem serves (h : s.IsSound) (hst : Serves m s t) : t.IsSound := by
  induction hst with
  | refl => exact h
  | tail _ hst ih => exact ih.serve hst

theorem trades (h : s.IsSound) (hst : Trades m s t) : t.IsSound := by
  induction hst with
  | refl => exact h
  | tail _ hst ih => exact ih.trade hst

theorem moves (h : s.IsSound) (hst : Moves m s t) : t.IsSound := by
  induction hst with
  | refl => exact h
  | tail _ hst ih => exact ih.move hst

end Scene.IsSound

end ConnectionPool
