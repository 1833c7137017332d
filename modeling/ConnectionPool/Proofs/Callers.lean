import ConnectionPool.Proofs.Agreement
import ConnectionPool.Proofs.Housekeeping
import ConnectionPool.Proofs.Shutdown

namespace ConnectionPool

variable {conf : Conf} {t u : Tenancy} {o : Op} {a b : List Conn} {made : List Conn}
  {id x : RequestId} {r : Route} {m : Moment}

namespace Op

def request? : Op → Option RequestId
  | get id _ => some id
  | cancel id => some id
  | dropRequest id => some id
  | _ => none

def without (x : RequestId) : Op → Op
  | get id last => get (id.without x) last
  | cancel id => cancel (id.without x)
  | dropRequest id => dropRequest (id.without x)
  | o => o

def sweeps : Op → Bool
  | closeExpired => true
  | shutDown => true
  | _ => false

def ClosesSame (o : Op) (cs ds : List Conn) : Prop :=
  ∃ a b es, SameSweep a b ∧ (o.sweeps = false → a = [] ∧ b = []) ∧ cs = a ++ es ∧ ds = b ++ es

theorem ClosesSame.perm {cs ds : List Conn} (h : o.ClosesSame cs ds) : cs.Perm ds := by
  obtain ⟨a, b, es, hsweep, -, rfl, rfl⟩ := h
  exact hsweep.perm.append_right es

inductive Answer
  | lease (a : Except Failure RequestId)
  | get (a : Collected)
  | connected (a : Except Failure Entry)
  | connectFailed (a : Failure)
  | cancel (a : Bool)
  | release (a : Option Failure)
  | limit (a : Option Failure)
  | done

def Answer.without (x : RequestId) : Answer → Answer
  | lease a => lease (a.map (·.without x))
  | a => a

end Op

namespace Tenancy

def answer (m : Moment) (t : Tenancy) : Op → Op.Answer
  | .lease r timeout => .lease (t.lease m r timeout).answer
  | .get id last => .get (t.finds id last)
  | .connected s c => .connected (t.connected s c).answer
  | .connectFailed s f => .connectFailed (t.connectFailed m s f).answer
  | .cancel id => .cancel (t.cancel id).answer
  | .release id reusable v => .release (t.release m id reusable v).answer
  | .discard id => .release (t.discard m id).answer
  | .setMaxTotal max => .limit (t.setMaxTotal m max).answer
  | .setDefaultMax max => .limit (t.setDefaultMax m max).answer
  | .setMaxFor r max => .limit (t.setMaxFor m r max).answer
  | _ => .done

/-- The callers of the two pools hold the same but for `x`, and so do the pools. -/
structure Lacks (x : RequestId) (t u : Tenancy) : Prop where
  alike : t.pool.Alike u.pool
  requests : Pool.Lacks x t.pool u.pool
  tickets : t.tickets.Lacks x u.tickets
  creating : u.creating = t.creating
  entries : u.entries = t.entries

end Tenancy

structure Turn.Lacks {α β : Type} (x : RequestId) (a b : List Conn) (s : Turn α) (k : Turn β) :
    Prop where
  tenancy : s.tenancy.Lacks x k.tenancy
  closed : ∃ cs, s.closed = a ++ cs ∧ k.closed = b ++ cs
  deeds : k.reports.filter Report.isDeed = s.reports.filter Report.isDeed

namespace Turn.Lacks

variable {α β γ δ : Type} {s : Turn α} {k : Turn β}

theorem reply (h : Turn.Lacks x a b s k) (c : γ) (d : δ) :
    Turn.Lacks x a b (s.reply c) (k.reply d) :=
  ⟨h.tenancy, h.closed, h.deeds⟩

end Turn.Lacks

namespace Tenancy.Lacks

theorem out (h : t.Lacks x u) : u.out = t.out := by
  rw [Tenancy.out, h.entries, h.creating, Tenancy.out]

theorem start (h : t.Lacks x u) : Work.Lacks x [] [] { pool := t.pool } { pool := u.pool } :=
  ⟨⟨h.alike, ⟨[], rfl, rfl⟩, rfl⟩, h.requests⟩

theorem turn {α : Type} {work work' : Work → α × Work} (h : t.Lacks x u)
    (hw : Work.Lacks x a b (work { pool := t.pool }).2 (work' { pool := u.pool }).2) :
    Turn.Lacks x a b (t.turn work) (u.turn work') :=
  ⟨⟨hw.alike.pool, hw.requests, h.tickets, h.creating, h.entries⟩, hw.alike.closing, hw.alike.deeds⟩

theorem quiet {α : Type} (h : t.Lacks x u) (c d : α) :
    Turn.Lacks x [] [] { answer := c, tenancy := t } { answer := d, tenancy := u } :=
  ⟨h, ⟨[], rfl, rfl⟩, rfl⟩

end Tenancy.Lacks

namespace Tenancy

theorem lease_of_open (hopen : t.pool.isShut = false) (timeout : Option Span) :
    t.lease m r timeout =
      let w := (Work.lease m r { pool := t.pool }).2
      { answer := .ok t.pool.nextRequest
        tenancy := { t with
          pool := w.pool
          tickets := t.tickets.put t.pool.nextRequest
            { route := r, deadline := timeout.bind (Span.after m.now) } }
        reports := w.reports
        closed := w.closing } := by
  have hanswer : (Work.lease m r { pool := t.pool }).1 = .ok t.pool.nextRequest := by
    rw [Work.lease_answer, hopen]
    rfl
  simp only [lease, Tenancy.turn, hanswer]

theorem connected_of_open (hopen : t.pool.isShut = false) (s : Record) (c : Conn) :
    t.connected s c = {
      answer := .ok { record := s, conn := c, reused := false }
      tenancy := { t with
        creating := t.creating.erase s
        entries := t.entries.put s.id { record := s, conn := c, reused := false } }
      reports := [.noted (.connected s.id s.route)] } := by
  simp [connected, hopen]

end Tenancy

namespace Tenancy.Lacks

variable (h : t.Lacks x u) (ht : t.IsSound) (hu : u.IsSound)
include h

theorem sound (hu : u.IsSound) : Sound t.out u.pool := h.out ▸ hu.sound

theorem connected (s : Record) (c : Conn) :
    (u.connected s c).answer = (t.connected s c).answer ∧
      Turn.Lacks x [] [] (t.connected s c) (u.connected s c) := by
  have hcreating : u.creating.erase s = t.creating.erase s := congrArg (·.erase s) h.creating
  cases hshut : t.pool.isShut with
  | true =>
    rw [connected_of_shut hshut, connected_of_shut (h.alike.isShut.trans hshut)]
    exact ⟨rfl, { h with creating := hcreating }, ⟨[c], rfl, rfl⟩, rfl⟩
  | false =>
    rw [connected_of_open hshut, connected_of_open (h.alike.isShut.trans hshut)]
    refine ⟨rfl, { h with creating := hcreating, entries := ?_ }, ⟨[], rfl, rfl⟩, rfl⟩
    exact congrArg (Table.put · s.id { record := s, conn := c, reused := false }) h.entries

theorem look (hid : id ≠ x) (last : Bool) :
    u.finds (id.without x) last = t.finds id last ∧
      Turn.Lacks x [] [] (t.look id last) (u.look (id.without x) last) := by
  have hslot := h.requests.slot hid
  rcases t.pool.slot_cases id with hget | ⟨r, hget⟩ | ⟨⟨r, o⟩, hget, hs⟩
  · rw [hget] at hslot
    rw [finds_gone hget, finds_gone hslot, look_gone hget, look_gone hslot]
    exact ⟨rfl, h.quiet () ()⟩
  · rw [hget] at hslot
    have htimeOut : (u.timeOut (id.without x)).answer = (t.timeOut id).answer := by
      simp only [Tenancy.timeOut, Pool.timeOut, hget, hslot]
    refine ⟨?_, ?_⟩
    · unfold finds
      rw [collect_pending hget, collect_pending hslot, htimeOut]
    · rw [look_pending last hget, look_pending last hslot]
      cases last with
      | false => exact h.quiet () ()
      | true =>
        refine ⟨⟨?_, ?_, h.tickets, h.creating, h.entries⟩, ⟨[], rfl, rfl⟩, rfl⟩
        · change (t.pool.timeOut id).2.Alike (u.pool.timeOut (id.without x)).2
          rw [Pool.timeOut_eq, Pool.timeOut_eq]
          exact ((Pool.alike_withdraw _ _).symm.trans h.alike).trans (Pool.alike_withdraw _ _)
        · change Pool.Lacks x (t.pool.timeOut id).2 (u.pool.timeOut (id.without x)).2
          rw [Pool.timeOut_eq, Pool.timeOut_eq]
          exact h.requests.remove hid rfl rfl (Pool.lastRequest_withdraw _ _)
            (Pool.lastRequest_withdraw _ _)
  · rw [hget] at hslot
    have halike : (t.clearedPool id).Alike (u.clearedPool (id.without x)) :=
      ((Pool.alike_requests _).symm.trans h.alike).trans (Pool.alike_requests _)
    have hrequests : Pool.Lacks x (t.clearedPool id) (u.clearedPool (id.without x)) :=
      h.requests.remove hid rfl rfl rfl rfl
    have hnot := Pool.ne_pending hget hs
    have hnot' := Pool.ne_pending hslot hs
    rw [look_of_not_pending last hnot, look_of_not_pending last hnot', finds, finds]
    cases o with
    | pending => cases hs
    | failed f =>
      rw [collect_failed hget, collect_failed hslot]
      exact ⟨rfl, ⟨halike, hrequests, h.tickets, h.creating, h.entries⟩, ⟨[], rfl, rfl⟩, rfl⟩
    | granted g =>
      cases g with
      | reuse e =>
        have hentries (y : Entry) :
            u.entries.put e.record.id y = t.entries.put e.record.id y := by rw [h.entries]
        rw [collect_reuse hget, collect_reuse hslot]
        exact ⟨rfl, ⟨halike, hrequests, h.tickets, h.creating, hentries _⟩, ⟨[], rfl, rfl⟩, rfl⟩
      | create s =>
        rw [collect_create hget, collect_create hslot]
        exact ⟨rfl, ⟨halike, hrequests, h.tickets, congrArg (s :: ·) h.creating, h.entries⟩,
          ⟨[], rfl, rfl⟩, rfl⟩

theorem cancel (hid : id ≠ x) : (u.cancel (id.without x)).answer = (t.cancel id).answer ∧
    Turn.Lacks x [] [] (t.cancel id) (u.cancel (id.without x)) := by
  obtain ⟨hanswer, hwork⟩ := h.start.cancel hid
  exact ⟨hanswer, h.turn hwork⟩

variable (hin : t.pool.WithinLimits)
include ht hu hin

theorem lease (hs : t.pool.Settled) (timeout : Option Span) :
    (u.lease m r timeout).answer = (t.lease m r timeout).answer.map (·.without x) ∧
      Turn.Lacks x [] [] (t.lease m r timeout) (u.lease m r timeout) := by
  cases hshut : t.pool.isShut with
  | true =>
    rw [lease_of_shut hshut, lease_of_shut (h.alike.isShut.trans hshut)]
    exact ⟨rfl, h.quiet _ _⟩
  | false =>
    have hwork := h.start.lease (m := m) (r := r) ht.sound (h.sound hu) hin hs
    rw [lease_of_open hshut, lease_of_open (h.alike.isShut.trans hshut), h.requests.next]
    exact ⟨rfl, ⟨hwork.alike.pool, hwork.requests, h.tickets.put h.requests.next_ne _, h.creating,
      h.entries⟩, hwork.alike.closing, hwork.alike.deeds⟩

theorem connectFailed {s : Record} (hs : s ∈ t.creating) (f : Failure)
    (hx : ¬ (t.connectFailed m s f).tenancy.pool.HasGrant x) :
    (u.connectFailed m s f).answer = (t.connectFailed m s f).answer ∧
      Turn.Lacks x [] [] (t.connectFailed m s f) (u.connectFailed m s f) := by
  have hout : t.out = .create s ::ₘ Tenancy.out { t with creating := t.creating.erase s } :=
    out_erase hs
  have hsound := ht.sound
  have hsound' := h.sound hu
  rw [hout] at hsound hsound'
  have hwork := (h.start.note (.connectFailed s.route f)).vacate hsound hsound' hin hx
  exact ⟨rfl, Lacks.turn (t := { t with creating := t.creating.erase s })
    (u := { u with creating := u.creating.erase s })
    { h with creating := congrArg (·.erase s) h.creating } hwork⟩

theorem dropRequest (hid : id ≠ x) (hx : ¬ (t.dropRequest m id).tenancy.pool.HasGrant x) :
    Turn.Lacks x [] [] (t.dropRequest m id) (u.dropRequest m (id.without x)) :=
  Lacks.turn (t := { t with tickets := t.tickets.remove id })
    (u := { u with tickets := u.tickets.remove (id.without x) })
    { h with tickets := h.tickets.remove hid }
    (h.start.forget (m := m) ht.sound (h.sound hu) hid hin hx)

theorem release (e : EntryId) (reusable : Bool) (v : Option Span)
    (hx : ¬ (t.release m e reusable v).tenancy.pool.HasGrant x) :
    (u.release m e reusable v).answer = (t.release m e reusable v).answer ∧
      Turn.Lacks x [] [] (t.release m e reusable v) (u.release m e reusable v) := by
  cases he : t.entries.get? e with
  | none =>
    have he' : u.entries.get? e = none := by rw [h.entries, he]
    unfold Tenancy.release
    rw [he, he']
    exact ⟨rfl, h.quiet _ _⟩
  | some y =>
    have he' : u.entries.get? e = some y := by rw [h.entries, he]
    have hout : t.out = .reuse ⟨y.record, y.conn⟩ ::ₘ
        Tenancy.out { t with entries := t.entries.remove e } := out_remove ht he
    have hsound := ht.sound
    have hsound' := h.sound hu
    rw [hout] at hsound hsound'
    rw [release_eq he] at hx
    rw [release_eq he, release_eq he']
    obtain ⟨hanswer, hwork⟩ := h.start.takeBack (e := ⟨y.record, y.conn⟩) hsound hsound' hin
      reusable v hx
    exact ⟨hanswer, Lacks.turn (t := { t with entries := t.entries.remove e })
      (u := { u with entries := u.entries.remove e })
      { h with entries := congrArg (·.remove e) h.entries } hwork⟩

theorem dropEntry (e : EntryId) (hx : ¬ (t.dropEntry m e).tenancy.pool.HasGrant x) :
    Turn.Lacks x [] [] (t.dropEntry m e) (u.dropEntry m e) := by
  by_cases he : t.entries.has e
  · have he' : u.entries.has e := h.entries ▸ he
    unfold Tenancy.dropEntry at hx ⊢
    rw [if_pos he] at hx
    rw [if_pos he, if_pos he']
    obtain ⟨-, hturn⟩ := h.release ht hu hin e false none hx
    exact ⟨hturn.tenancy, hturn.closed, hturn.deeds⟩
  · have he' : ¬ u.entries.has e := h.entries ▸ he
    rw [dropEntry_of_not_has he, dropEntry_of_not_has he']
    exact h.quiet () ()

theorem act (hbefore : ¬ t.pool.HasGrant x) (hs : t.pool.Settled) (hp : o.isPossible t made)
    (hrise : t.pool.limits.Rise (o.limits t.pool.limits)) (ho : o.request? ≠ some x)
    (hx : ¬ (t.act m o).tenancy.pool.HasGrant x) :
    u.answer m (o.without x) = (t.answer m o).without x ∧
      ∃ a b, SameSweep a b ∧ (o.sweeps = false → a = [] ∧ b = []) ∧
        Turn.Lacks x a b (t.act m o) (u.act m (o.without x)) := by
  have hne {id : RequestId} (heq : o.request? = some id) : id ≠ x := fun hid => ho (hid ▸ heq)
  have hv := h.sound hu
  have hraised {f : Limits → Limits} (hf : o.limits t.pool.limits = f t.pool.limits) :
      (Work.changeLimits f { pool := t.pool }).pool.WithinLimits :=
    (hf ▸ hrise).withinLimits hin
  -- but for the sweeps, nothing is closed in an order of its own
  have hplain {c d : Op.Answer} {s k : Turn Unit} (hanswer : d = c.without x)
      (hturn : Turn.Lacks x [] [] s k) : d = c.without x ∧ ∃ a b, SameSweep a b ∧
        (o.sweeps = false → a = [] ∧ b = []) ∧ Turn.Lacks x a b s k :=
    ⟨hanswer, [], [], .nil, fun _ => ⟨rfl, rfl⟩, hturn⟩
  cases o with
  | lease r timeout =>
    obtain ⟨hanswer, hturn⟩ := h.lease (m := m) (r := r) ht hu hin hs timeout
    exact hplain (congrArg Op.Answer.lease hanswer) (hturn.reply () ())
  | get id last =>
    obtain ⟨hanswer, hturn⟩ := h.look (hne rfl) last
    exact hplain (congrArg Op.Answer.get hanswer) hturn
  | connected s c =>
    obtain ⟨hanswer, hturn⟩ := h.connected s c
    exact hplain (congrArg Op.Answer.connected hanswer) (hturn.reply () ())
  | connectFailed s f =>
    obtain ⟨hanswer, hturn⟩ := h.connectFailed ht hu hin (of_decide_eq_true hp) f hx
    exact hplain (congrArg Op.Answer.connectFailed hanswer) (hturn.reply () ())
  | cancel id =>
    obtain ⟨hanswer, hturn⟩ := h.cancel (hne rfl)
    exact hplain (congrArg Op.Answer.cancel hanswer) (hturn.reply () ())
  | dropRequest id => exact hplain rfl (h.dropRequest ht hu hin (hne rfl) hx)
  | release e reusable v =>
    obtain ⟨hanswer, hturn⟩ := h.release ht hu hin e reusable v hx
    exact hplain (congrArg Op.Answer.release hanswer) (hturn.reply () ())
  | discard e =>
    obtain ⟨hanswer, hturn⟩ := h.release ht hu hin e false none hx
    exact hplain (congrArg Op.Answer.release hanswer) (hturn.reply () ())
  | dropEntry e => exact hplain rfl (h.dropEntry ht hu hin e hx)
  | setMaxTotal max =>
    obtain ⟨hanswer, hwork⟩ := h.start.setMaxTotal ht.sound hv
      (fun hmax => hraised (if_neg hmax)) hx
    exact hplain (congrArg Op.Answer.limit hanswer) ((h.turn hwork).reply () ())
  | setDefaultMax max =>
    obtain ⟨hanswer, hwork⟩ := h.start.setDefaultMax ht.sound hv
      (fun hmax => hraised (if_neg hmax)) hx
    exact hplain (congrArg Op.Answer.limit hanswer) ((h.turn hwork).reply () ())
  | setMaxFor r max =>
    obtain ⟨hanswer, hwork⟩ := h.start.setMaxFor ht.sound hv
      (fun hmax => hraised (f := fun l => { l with overrides := l.overrides.put r max })
        (if_neg hmax)) hx
    exact hplain (congrArg Op.Answer.limit hanswer) ((h.turn hwork).reply () ())
  | closeIdle span =>
    have hturn : Turn.Lacks x [] [] (t.closeIdle m span) (u.closeIdle m span) :=
      h.turn (h.start.closeIdle ht.sound hv hin span hx)
    exact hplain rfl hturn
  | closeExpired =>
    have hturn : Turn.Lacks x _ _ (t.closeExpired m) (u.closeExpired m) :=
      h.turn (h.start.closeExpired ht.sound hv hin hx)
    rw [Work.closing_swept ht.sound, Work.closing_swept hv] at hturn
    exact ⟨rfl, _, _, h.alike.sweepable ht.sound.tidy hv.tidy (.refl []) _,
      fun hsweeps => absurd hsweeps Bool.noConfusion, hturn⟩
  | shutDown =>
    have hturn : Turn.Lacks x _ _ (t.turn Work.shutDown) (u.turn Work.shutDown) :=
      h.turn h.start.shutDown
    exact ⟨rfl, _, _, h.start.closing_shutDown ht.sound hv hbefore rfl rfl,
      fun hsweeps => absurd hsweeps Bool.noConfusion, hturn.tenancy, hturn.closed, hturn.deeds⟩

end Tenancy.Lacks

namespace Pool

structure SameBut (x : RequestId) (p q : Pool) : Prop where
  alike : p.Alike q
  slot : ∀ id, id ≠ x → q.requests.get? id = p.requests.get? id
  number : q.lastRequest = p.lastRequest

variable {p : Pool}

theorem sameBut_refl (p : Pool) : p.SameBut x p := ⟨Alike.refl p, fun _ _ => rfl, rfl⟩

theorem sameBut_remove : SameBut x p { p with requests := p.requests.remove x } :=
  ⟨alike_requests _, fun _ hid => Table.get?_remove_of_ne _ hid.symm, rfl⟩

theorem sameBut_withdraw {rs : Table RequestId Slot}
    (hrs : ∀ id, id ≠ x → rs.get? id = p.requests.get? id) :
    SameBut x p { p.withdraw x with requests := rs } :=
  ⟨alike_withdraw _ _, hrs, lastRequest_withdraw _ _⟩

end Pool

namespace Tenancy

/-- The turn is about the request `x` alone. -/
structure Concerns {α : Type} (x : RequestId) (t : Tenancy) (s : Turn α) : Prop where
  pool : t.pool.SameBut x s.tenancy.pool
  tickets : ∀ id, id ≠ x → s.tenancy.tickets.get? id = t.tickets.get? id
  creating : s.tenancy.creating = t.creating
  entries : s.tenancy.entries = t.entries
  closed : s.closed = []
  deeds : s.reports.filter Report.isDeed = []

theorem concerns_quiet {α : Type} {p : Pool} (hp : t.pool.SameBut x p) (c : α) :
    t.Concerns x { answer := c, tenancy := { t with pool := p } } :=
  ⟨hp, fun _ _ => rfl, rfl, rfl, rfl, rfl⟩

theorem Concerns.lacks {α : Type} {s : Turn α} (hs : t.Concerns x s) (h : t.Lacks x u) :
    s.tenancy.Lacks x u where
  alike := hs.pool.alike.symm.trans h.alike
  requests := {
    slots := h.requests.slots.left hs.pool.slot
    number := hs.pool.number ▸ h.requests.number
    known := hs.pool.number ▸ h.requests.known }
  tickets := h.tickets.left hs.tickets
  creating := h.creating.trans hs.creating.symm
  entries := h.entries.trans hs.entries.symm

theorem look_concerns (hx : ¬ t.pool.HasGrant x) (last : Bool) :
    t.Concerns x (t.look x last) := by
  rcases t.pool.slot_cases x with hget | ⟨r, hget⟩ | ⟨⟨r, o⟩, hget, hs⟩
  · rw [look_gone hget]
    exact concerns_quiet (Pool.sameBut_refl _) ()
  · rw [look_pending last hget]
    cases last with
    | false => exact concerns_quiet (Pool.sameBut_refl _) ()
    | true =>
      refine concerns_quiet (p := (t.pool.timeOut x).2) ?_ ()
      rw [Pool.timeOut_eq]
      exact Pool.sameBut_withdraw fun id hid => Table.get?_remove_of_ne _ hid.symm
  · rw [look_of_not_pending last (Pool.ne_pending hget hs)]
    cases o with
    | pending => cases hs
    | failed f =>
      rw [collect_failed hget]
      exact concerns_quiet Pool.sameBut_remove ()
    | granted g => exact absurd ⟨r, g, hget⟩ hx

theorem cancel_concerns : t.Concerns x (t.cancel x) := by
  by_cases hpending : ∃ r, t.pool.requests.get? x = some { route := r }
  · obtain ⟨r, hget⟩ := hpending
    have hwork := Work.cancel_eq (w := { pool := t.pool }) hget
    simp only [cancel, Tenancy.turn, hwork]
    exact ⟨Pool.sameBut_withdraw fun id hid => Table.get?_put_of_ne _ _ hid.symm, fun _ _ => rfl,
      rfl, rfl, rfl, rfl⟩
  · rw [cancel_of_done (not_exists.1 hpending)]
    exact concerns_quiet (Pool.sameBut_refl _) false

theorem dropRequest_concerns (hx : ¬ t.pool.HasGrant x) : t.Concerns x (t.dropRequest m x) := by
  have hturn {w : Work} (hw : Work.forget m x { pool := t.pool } = w)
      (hpool : t.pool.SameBut x w.pool) (hclosed : w.closing = [])
      (hdeeds : w.reports.filter Report.isDeed = []) : t.Concerns x (t.dropRequest m x) := by
    subst hw
    exact ⟨hpool, fun id hid => Table.get?_remove_of_ne _ hid.symm, rfl, rfl, hclosed, hdeeds⟩
  rcases t.pool.slot_cases x with hget | ⟨r, hget⟩ | ⟨⟨r, o⟩, hget, hs⟩
  · exact hturn (Work.forget_of_none hget) (Pool.sameBut_refl _) rfl rfl
  · exact hturn (Work.forget_pending hget)
      (Pool.sameBut_withdraw fun id hid => Table.get?_remove_of_ne _ hid.symm) rfl rfl
  · cases o with
    | pending => cases hs
    | failed f => exact hturn (Work.forget_failed hget) Pool.sameBut_remove rfl rfl
    | granted g => exact absurd ⟨r, g, hget⟩ hx

theorem act_concerns (hx : ¬ t.pool.HasGrant x) (ho : o.request? = some x) :
    t.Concerns x (t.act m o) := by
  cases o with
  | get id last =>
    obtain rfl : id = x := Option.some.inj ho
    exact look_concerns hx last
  | cancel id =>
    obtain rfl : id = x := Option.some.inj ho
    have hcancel : t.Concerns id (t.cancel id) := cancel_concerns
    exact ⟨hcancel.pool, hcancel.tickets, hcancel.creating, hcancel.entries, hcancel.closed,
      hcancel.deeds⟩
  | dropRequest id =>
    obtain rfl : id = x := Option.some.inj ho
    exact dropRequest_concerns hx
  | _ => cases ho

end Tenancy

end ConnectionPool
