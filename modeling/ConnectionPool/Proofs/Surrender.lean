import ConnectionPool.Proofs.Callers
import ConnectionPool.Proofs.Handover

namespace ConnectionPool

variable {held : Multiset Grant} {p : Pool} {m : Moment} {r : Route}

namespace Work

def after (w v : Work) : Work :=
  { w with closing := v.closing ++ w.closing, reports := v.reports ++ w.reports }

/-! The pool alone decides what is done next. -/

section After

variable (v w : Work)

theorem eq_after : w = ({ pool := w.pool } : Work).after w := by
  simp [after]

@[simp] theorem pool_after : (w.after v).pool = w.pool := rfl

@[simp] theorem change_after (f : Pool → Pool) : (w.after v).change f = (w.change f).after v := rfl

@[simp] theorem report_after (rs : List Report) :
    (w.after v).report rs = (w.report rs).after v := by
  simp [report, after]

@[simp] theorem note_after (n : Notice) : (w.after v).note n = (w.note n).after v :=
  report_after v w [.noted n]

@[simp] theorem close_after (c : Conn) : (w.after v).close c = (w.close c).after v := by
  simp [close, after]

theorem reuse_after (es : List Idle) :
    (w.after v).reuse m r es = Prod.map id (·.after v) (w.reuse m r es) := by
  induction es generalizing w with
  | nil => rfl
  | cons e es ih =>
    simp only [reuse, change_after, report_after, note_after, close_after, pool_after, ih]
    split <;> rfl

theorem evict_after : (w.after v).evict = Prod.map id (·.after v) w.evict := by
  simp only [evict, pool_after]
  split
  · rfl
  · simp only [change_after, note_after, pool_after]
    split <;> rfl

theorem makeRoom_after (n : Nat) :
    (w.after v).makeRoom r n = Prod.map id (·.after v) (w.makeRoom r n) := by
  induction n generalizing w with
  | zero =>
    unfold makeRoom
    rw [evict_after, pool_after]
    split
    · rfl
    · generalize w.evict = x
      rfl
  | succ n ih =>
    unfold makeRoom
    rw [evict_after, pool_after]
    split
    · rfl
    · obtain ⟨_ | e, u⟩ := w.evict
      · rfl
      · simp only [Prod.map_apply, id_eq, note_after, close_after, ih]

theorem reserve_after : (w.after v).reserve m r = Prod.map id (·.after v) (w.reserve m r) := by
  simp only [reserve, change_after, note_after, pool_after]
  rfl

theorem seek_after : (w.after v).seek m r = Prod.map id (·.after v) (w.seek m r) := by
  simp only [seek, pool_after, reuse_after]
  obtain ⟨_ | e, u⟩ := w.reuse m r (w.pool.lane r).available
  · simp only [Prod.map_apply, id_eq, pool_after, note_after, makeRoom_after]
    split
    · rfl
    · obtain ⟨_ | _, u⟩ := u.makeRoom r u.pool.idle.length
      · rfl
      · simp only [Prod.map_apply, id_eq, reserve_after]
        rfl
  · rfl

theorem provide_after : (w.after v).provide m r = Prod.map id (·.after v) (w.provide m r) := by
  rw [provide, change_after, seek_after, provide]

theorem putBack_after (e : Idle) : (w.after v).putBack e = (w.putBack e).after v := by
  simp only [putBack, pool_after]
  split
  · exact close_after v w e.conn
  · rfl

theorem grant_after (x : RequestId) (g : Grant) : (w.after v).grant x g = (w.grant x g).after v := by
  simp only [grant, change_after, pool_after]
  split
  · rfl
  · cases g with
    | reuse e => simp only [note_after, putBack_after]
    | create s => simp only [note_after, change_after]

theorem serve_after (n : Nat) : (w.after v).serve m r n = (w.serve m r n).after v := by
  induction n generalizing w with
  | zero => rfl
  | succ n ih =>
    simp only [serve, pool_after, provide_after]
    split
    · rfl
    · obtain ⟨_ | g, u⟩ := w.provide m r
      · rfl
      · simp only [Prod.map_apply, id_eq, grant_after, ih]

theorem serveAll_after (blocked : List Route) (queue : List (RequestId × Route)) :
    (w.after v).serveAll m blocked queue = (w.serveAll m blocked queue).after v := by
  induction queue generalizing blocked w with
  | nil => rfl
  | cons q queue ih =>
    simp only [serveAll, provide_after]
    split
    · exact ih w blocked
    · obtain ⟨_ | g, u⟩ := w.provide m q.2
      · exact ih u _
      · simp only [Prod.map_apply, id_eq, grant_after, ih]

theorem dispatch_after (first : Option Route) :
    (w.after v).dispatch m first = (w.dispatch m first).after v := by
  cases first with
  | none => exact serveAll_after v w ..
  | some s => simp only [dispatch, pool_after, serve_after, serveAll_after]

theorem dispatch_eq_after (first : Option Route) :
    w.dispatch m first = (Work.dispatch m first { pool := w.pool }).after w := by
  -- `w` comes after itself, on a pool where nothing was done yet
  conv_lhs => rw [w.eq_after]
  exact dispatch_after w _ first

end After

variable {w : Work} {s : Record} {e : Idle} {xs : List Conn}

def givingUp (m : Moment) (s : Record) (p : Pool) : Work :=
  (Work.dispatch m (some s.route) { pool := p.freed s }).change (Pool.prune s.route)

structure GivesUp (m : Moment) (s : Record) (p : Pool) (xs : List Conn) (w : Work) : Prop where
  pool : w.pool = (givingUp m s p).pool
  closing : w.closing = xs ++ (givingUp m s p).closing
  deeds : w.deeds = (givingUp m s p).deeds

theorem givesUp_dispatch (hpool : w.pool = p.freed s) (hdeeds : w.deeds = []) :
    GivesUp m s p w.closing ((w.dispatch m (some s.route)).change (Pool.prune s.route)) := by
  rw [dispatch_eq_after, hpool]
  refine ⟨rfl, rfl, ?_⟩
  change (w.reports ++ _).filter Report.isDeed = _
  rw [List.filter_append]
  exact (congrArg (· ++ _) hdeeds).trans (List.nil_append _)

theorem vacate_givesUp (h : Sound (.create s ::ₘ held) w.pool) (hopen : w.pool.isShut = false)
    (hdeeds : w.deeds = []) : GivesUp m s w.pool w.closing (w.vacate m s) := by
  rw [vacate_eq h hopen]
  exact givesUp_dispatch (w := { w with pool := w.pool.freed s }) rfl hdeeds

theorem deeds_receive (reusable : Bool) (v : Option Span) :
    (w.receive m e reusable v).deeds = w.deeds := by
  unfold receive
  dsimp only
  split_ifs <;>
    simp [deeds, Report.isDeed, Report.handed?, Report.evicted?, report, note, close, keep, change]

theorem takeBack_givesUp {reusable : Bool} {v : Option Span} (h : Sound (.reuse e ::ₘ held) p)
    (hopen : p.isShut = false)
    (hno : reusable = false ∨ m.isOpen e.conn = false ∨ (p.freed e.record).isFull e.record.route) :
    GivesUp m e.record p [e.conn] (Work.takeBack m e.record e.conn reusable v { pool := p }).2 := by
  rw [takeBack_eq (w := { pool := p }) h hopen]
  have hdeeds := deeds_receive (w := { pool := p }) (m := m) (e := e) reusable v
  rcases receive_cases m e reusable v { pool := p } with ⟨hkeeps, -⟩ | ⟨-, hclosing, hpool⟩
  · simp only [Bool.and_eq_true, Bool.not_eq_true'] at hkeeps
    obtain ⟨⟨hreusable, hroom⟩, hopened⟩ := hkeeps
    rcases hno with hno | hno | hno
    · cases hno.symm.trans hreusable
    · cases hno.symm.trans hopened
    · cases hroom.symm.trans hno
  · have hgives := givesUp_dispatch (m := m) hpool hdeeds
    rwa [hclosing] at hgives

end Work

namespace Tenancy

def creatingFor (id : RequestId) (s : Record) (t : Tenancy) : Tenancy :=
  { t with pool := t.clearedPool id, creating := s :: t.creating }

def holding (id : RequestId) (d : Entry) (t : Tenancy) : Tenancy :=
  { t with pool := t.clearedPool id, entries := t.entries.put d.record.id d }

end Tenancy

namespace Life

variable {l k : Life} {id : RequestId} {s : Record} {x : Conn} {xs : List Conn} {o : Op}
  {reusable : Bool} {v : Option Span}

/-- From `l` to `k` the slot `s` of the request was given up, after `xs` were made for it. -/
structure GivesUp (m : Moment) (id : RequestId) (s : Record) (xs : List Conn) (l k : Life) : Prop where
  tenancy : { k.tenancy with tickets := k.tenancy.tickets.remove id } = { l.tenancy with
    pool := (Work.givingUp m s (l.tenancy.clearedPool id)).pool
    tickets := l.tenancy.tickets.remove id }
  made : k.made = xs ++ l.made
  closed : k.closed = l.closed ++ (xs ++ (Work.givingUp m s (l.tenancy.clearedPool id)).closing)
  deeds : k.reports.filter Report.isDeed =
    l.reports.filter Report.isDeed ++ (Work.givingUp m s (l.tenancy.clearedPool id)).deeds

theorem step_givesUp (hp : o.isPossible k.tenancy k.made)
    (hgives : Work.GivesUp m s (l.tenancy.clearedPool id) xs (k.tenancy.act m o).work)
    (htenancy : { (k.tenancy.act m o).tenancy with
        tickets := (k.tenancy.act m o).tenancy.tickets.remove id } = { l.tenancy with
        pool := (k.tenancy.act m o).work.pool
        tickets := l.tenancy.tickets.remove id })
    (hmade : o.makes k.made = xs ++ l.made) (hclosed : k.closed = l.closed)
    (hdeeds : k.reports.filter Report.isDeed = l.reports.filter Report.isDeed) :
    GivesUp m id s xs l (k.step m o) := by
  rw [step_of_isPossible hp]
  refine ⟨?_, hmade, ?_, ?_⟩
  · rw [← hgives.pool]
    exact htenancy
  · exact congrArg₂ (· ++ ·) hclosed hgives.closing
  · exact (List.filter_append ..).trans (congrArg₂ (· ++ ·) hdeeds hgives.deeds)

section

variable (h : l.tenancy.IsSound)
  (hid : l.tenancy.pool.requests.get? id = some { route := r, outcome := .granted (.create s) })
include hid

theorem step_get_create (n : Moment) (last : Bool) :
    l.step n (.get id last) = { l with tenancy := l.tenancy.creatingFor id s } := by
  have hlook : l.tenancy.look id last = (l.tenancy.collect id).reply () :=
    Tenancy.look_of_not_pending last (by simp [hid])
  rw [step_of_isPossible rfl, Tenancy.act, hlook, Tenancy.collect_create hid]
  dsimp only [Turn.reply]
  rw [List.append_nil, List.append_nil]
  rfl

include h

theorem cleared_create : l.tenancy.pool.isShut = false ∧
    Sound (.create s ::ₘ l.tenancy.out) (l.tenancy.clearedPool id) := by
  have hsound : Sound _ (l.tenancy.clearedPool id) := h.sound.collect hid rfl
  rw [Slot.grants_granted, Multiset.singleton_add] at hsound
  exact ⟨h.sound.isShut_eq_false_of_granted hid, hsound⟩

theorem dropRequest_givesUp : GivesUp m id s [] l (l.step m (.dropRequest id)) := by
  obtain ⟨hopen, hsound⟩ := cleared_create h hid
  have hgives := Work.vacate_givesUp (m := m)
    (w := (Work.cleared id { pool := l.tenancy.pool }).note (.dropReserved id s.id)) hsound hopen rfl
  rw [← Work.forget_create (w := { pool := l.tenancy.pool }) hid] at hgives
  refine step_givesUp rfl hgives ?_ rfl rfl rfl
  change ({ l.tenancy with
    pool := (Work.forget m id { pool := l.tenancy.pool }).pool
    tickets := (l.tenancy.tickets.remove id).remove id } : Tenancy) = _
  rw [Table.remove_remove]
  rfl

theorem connectFailed_givesUp (n : Moment) (last : Bool) (f : Failure) :
    GivesUp m id s [] l ((l.step n (.get id last)).step m (.connectFailed s f)) := by
  obtain ⟨hopen, hsound⟩ := cleared_create h hid
  have hgives := Work.vacate_givesUp (m := m)
    (w := Work.note (.connectFailed s.route f) { pool := l.tenancy.clearedPool id }) hsound hopen rfl
  have hp : Op.isPossible (l.tenancy.creatingFor id s) l.made (.connectFailed s f) :=
    decide_eq_true List.mem_cons_self
  rw [step_get_create hid]
  refine step_givesUp (l := l) hp hgives ?_ rfl rfl rfl
  change ({ l.tenancy with
    pool := (Work.vacate m s _).pool
    creating := (s :: l.tenancy.creating).erase s
    tickets := l.tenancy.tickets.remove id } : Tenancy) = _
  rw [List.erase_cons_head]
  rfl

theorem step_connected_create (n k : Moment) (last : Bool) (hx : x ∉ l.made) :
    (l.step n (.get id last)).step k (.connected s x) = { l with
      tenancy := l.tenancy.holding id { record := s, conn := x, reused := false }
      made := x :: l.made
      reports := l.reports ++ [.noted (.connected s.id s.route)] } := by
  have hp : Op.isPossible (l.tenancy.creatingFor id s) l.made (.connected s x) := by
    rw [Op.isPossible, Bool.and_eq_true]
    exact ⟨decide_eq_true List.mem_cons_self, decide_eq_true hx⟩
  rw [step_get_create hid, step_of_isPossible hp, Tenancy.act,
    Tenancy.connected_of_open (t := l.tenancy.creatingFor id s) (cleared_create h hid).1]
  dsimp only [Turn.reply, Tenancy.creatingFor, Op.makes]
  rw [List.append_nil, List.erase_cons_head]
  rfl

theorem handsIn_givesUp (n k : Moment) (last : Bool) (hx : x ∉ l.made)
    (ho : o.HandsIn s.id reusable v) (hno : reusable = false ∨ m.isOpen x = false ∨
      (l.tenancy.pool.freed s).isFull s.route) :
    GivesUp m id s [x] l (((l.step n (.get id last)).step k (.connected s x)).step m o) := by
  obtain ⟨hopen, hsound⟩ := cleared_create h hid
  let d : Entry := { record := s, conn := x, reused := false }
  have hnone : l.tenancy.entries.get? s.id = none :=
    h.filed.get?_eq_none (g := .create s) hsound.held_ids (Multiset.le_add_right _ _)
  have hheld : Sound (.reuse ⟨s, x⟩ ::ₘ l.tenancy.out) (l.tenancy.clearedPool id) :=
    hsound.of_held (fun _ => by simp [Grant.slot]) (by simp [Grant.id])
  have hd : (l.tenancy.holding id d).entries.get? s.id = some d := Table.get?_put_self ..
  have hp : o.isPossible (l.tenancy.holding id d) (x :: l.made) := by cases ho <;> rfl
  have hgives := Work.takeBack_givesUp (m := m) (e := ⟨s, x⟩) (v := v) hheld hopen hno
  have htenancy := Tenancy.tenancy_of_handsIn (m := m) ho hd
  have hwork : ((l.tenancy.holding id d).act m o).work = _ := Tenancy.work_of_handsIn ho hd
  have hentries : (l.tenancy.entries.put s.id d).remove s.id = l.tenancy.entries :=
    (Table.remove_put _ _ _).trans (Table.remove_of_get?_eq_none hnone)
  rw [step_connected_create h hid n k last hx]
  refine step_givesUp (l := l) hp (hwork ▸ hgives) ?_ (by cases ho <;> rfl) rfl ?_
  · dsimp only
    rw [htenancy, hwork]
    change ({ l.tenancy with
      entries := (l.tenancy.entries.put s.id d).remove s.id
      pool := _
      tickets := l.tenancy.tickets.remove id } : Tenancy) = _
    rw [hentries]
  · exact (List.filter_append ..).trans (List.append_nil _)

end

/-- What can be done with the slot `s` that was granted to a request, other than that a connection is
created and kept: the connections that are made for it, and the operations, the last one at `m`. -/
inductive Waives (m : Moment) (id : RequestId) (s : Record) (l : Life) :
    List Conn → List (Moment × Op) → Prop
  | drop : Waives m id s l [] [(m, .dropRequest id)]
  | fail (n : Moment) (last : Bool) (f : Failure) :
      Waives m id s l [] [(n, .get id last), (m, .connectFailed s f)]
  | handIn (n k : Moment) (last : Bool) {x : Conn} {o : Op} {reusable : Bool} {v : Option Span}
      (hx : x ∉ l.made) (ho : o.HandsIn s.id reusable v)
      (hno : reusable = false ∨ m.isOpen x = false ∨ (l.tenancy.pool.freed s).isFull s.route) :
      Waives m id s l [x] [(n, .get id last), (k, .connected s x), (m, o)]

theorem Waives.givesUp {os : List (Moment × Op)} (hos : l.Waives m id s xs os)
    (h : l.tenancy.IsSound)
    (hid : l.tenancy.pool.requests.get? id = some { route := r, outcome := .granted (.create s) }) :
    GivesUp m id s xs l (l.run os) := by
  cases hos with
  | drop => exact dropRequest_givesUp h hid
  | fail n last f => exact connectFailed_givesUp h hid n last f
  | handIn n k last hx ho hno => exact handsIn_givesUp h hid n k last hx ho hno

/-- However a slot is given up, it comes to the same, but that a connection that was made for it is
closed.  The tickets differ by that of the request, as long as that is not dropped.  A failure to create
the connection comes from upstream and is of the kind that the connector tells. -/
theorem giving_up_agrees (conf : Conf) (ops : List (Moment × Op)) (m : Moment)
    (hid : ((start conf).run ops).tenancy.pool.requests.get? id =
      some { route := r, outcome := .granted (.create s) }) :
    let l := (start conf).run ops
    let d := l.step m (.dropRequest id)
    (∀ xs os, l.Waives m id s xs os →
      let k := l.run os
      { k.tenancy with tickets := k.tenancy.tickets.remove id } = d.tenancy ∧
        k.made = xs ++ l.made ∧
        (∃ cs, d.closed = l.closed ++ cs ∧ k.closed = l.closed ++ (xs ++ cs)) ∧
        k.reports.filter Report.isDeed = d.reports.filter Report.isDeed) ∧
    ∀ n last f, let a := ((l.step n (.get id last)).tenancy.connectFailed m s f).answer
      a.kind = f.kind ∧ a.origin = .upstream := by
  intro l d
  have h : l.tenancy.IsSound := run_sound conf ops
  have hd : GivesUp m id s [] l d := dropRequest_givesUp h hid
  have htickets : { d.tenancy with tickets := d.tenancy.tickets.remove id } = d.tenancy := by
    have hremove : d.tenancy.tickets.remove id = d.tenancy.tickets := Table.remove_remove ..
    rw [hremove]
  refine ⟨fun xs os hos => ?_, fun n last f => ?_⟩
  · have hk := hos.givesUp h hid
    exact ⟨hk.tenancy.trans (hd.tenancy.symm.trans htickets), hk.made, ⟨_, hd.closed, hk.closed⟩,
      hk.deeds.trans hd.deeds.symm⟩
  · cases f <;> exact ⟨rfl, rfl⟩

theorem giving_up_agrees_discarded :
    let l := (start Sample.conf).run Sample.waits
    let d := l.step Sample.calm (.dropRequest ⟨1⟩)
    let k := l.run ([.get ⟨1⟩ false, .connected (Sample.slot 1) ⟨1⟩, .discard ⟨1⟩].map
      (Prod.mk Sample.calm))
    l.tenancy.pool.requests.get? ⟨1⟩ =
        some { route := Sample.route, outcome := .granted (.create (Sample.slot 1)) } ∧
      { k.tenancy with tickets := k.tenancy.tickets.remove ⟨1⟩ } = d.tenancy ∧
      (k.tenancy.pool.requests.get? ⟨3⟩ =
        some { route := Sample.route, outcome := .granted (.create (Sample.slot 3)) }) ∧
      d.closed = [] ∧ k.closed = [⟨1⟩] := by
  have hid : ((start Sample.conf).run Sample.waits).tenancy.pool.requests.get? ⟨1⟩ =
      some { route := Sample.route, outcome := .granted (.create (Sample.slot 1)) } := by decide
  have hpassed : (((start Sample.conf).run Sample.waits).step Sample.calm
      (.dropRequest ⟨1⟩)).tenancy.pool.requests.get? ⟨3⟩ =
        some { route := Sample.route, outcome := .granted (.create (Sample.slot 3)) } := by decide
  have hnone : ((start Sample.conf).run Sample.waits).closed = [] := by decide
  have hclosed : (((start Sample.conf).run Sample.waits).step Sample.calm
      (.dropRequest ⟨1⟩)).closed = [] := by decide
  have hmade : ⟨1⟩ ∉ ((start Sample.conf).run Sample.waits).made := by decide
  have hagrees := (giving_up_agrees Sample.conf Sample.waits Sample.calm hid).1
  generalize (start Sample.conf).run Sample.waits = l at *
  obtain ⟨hsame, -, ⟨cs, hcs, hmore⟩, -⟩ := hagrees [⟨1⟩] _
    (.handIn Sample.calm Sample.calm false hmade .discard (.inl rfl))
  rw [hclosed, hnone, List.nil_append] at hcs
  rw [← hcs, hnone] at hmore
  refine ⟨hid, hsame, ?_, hclosed, hmore⟩
  exact (congrArg (fun t : Tenancy => t.pool.requests.get? ⟨3⟩) hsame).trans hpassed

end Life

end ConnectionPool
