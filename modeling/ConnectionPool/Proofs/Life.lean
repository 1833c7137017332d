import ConnectionPool.Proofs.Tenancy

/-! The life of a pool: what its callers and its connector do, in any order, from its start on. -/

namespace ConnectionPool

inductive Op
  | lease (route : Route) (timeout : Option Span)
  | get (id : RequestId) (last : Bool)
  | connected (slot : Record) (conn : Conn)
  | connectFailed (slot : Record) (failure : Failure)
  | cancel (id : RequestId)
  | dropRequest (id : RequestId)
  | release (id : EntryId) (reusable : Bool) (validFor : Option Span)
  | discard (id : EntryId)
  | dropEntry (id : EntryId)
  | setMaxTotal (max : Nat)
  | setDefaultMax (max : Nat)
  | setMaxFor (route : Route) (max : Nat)
  | closeExpired
  | closeIdle (span : Span)
  | shutDown

namespace Tenancy

def look (id : RequestId) (last : Bool) (t : Tenancy) : Turn Unit :=
  let turn := t.collect id
  match turn.answer with
  | .pending => if last then (turn.tenancy.timeOut id).reply () else turn.reply ()
  | _ => turn.reply ()

def act (m : Moment) (t : Tenancy) : Op → Turn Unit
  | .lease r timeout => (t.lease m r timeout).reply ()
  | .get id last => t.look id last
  | .connected s x => (t.connected s x).reply ()
  | .connectFailed s f => (t.connectFailed m s f).reply ()
  | .cancel id => (t.cancel id).reply ()
  | .dropRequest id => t.dropRequest m id
  | .release id reusable v => (t.release m id reusable v).reply ()
  | .discard id => (t.discard m id).reply ()
  | .dropEntry id => t.dropEntry m id
  | .setMaxTotal max => (t.setMaxTotal m max).reply ()
  | .setDefaultMax max => (t.setDefaultMax m max).reply ()
  | .setMaxFor r max => (t.setMaxFor m r max).reply ()
  | .closeExpired => t.closeExpired m
  | .closeIdle span => t.closeIdle m span
  | .shutDown => t.shutDown

end Tenancy

/-- A pool with its callers, the connections that were made for it and those that it closed, and
what it reported. -/
structure Life where
  tenancy : Tenancy
  made : List Conn := []
  closed : List Conn := []
  reports : List Report := []

namespace Op

def limits : Op → Limits → Limits
  | setMaxTotal max, l => if max = 0 then l else { l with total := max }
  | setDefaultMax max, l => if max = 0 then l else { l with perRoute := max }
  | setMaxFor r max, l => if max = 0 then l else { l with overrides := l.overrides.put r max }
  | _, l => l

def makes (made : List Conn) : Op → List Conn
  | connected _ x => x :: made
  | _ => made

def isPossible (t : Tenancy) (made : List Conn) : Op → Bool
  | connected s x => s ∈ t.creating && x ∉ made
  | connectFailed s _ => s ∈ t.creating
  | _ => true

def isLease : Op → Bool
  | lease _ _ => true
  | _ => false

def putsBack (t : Tenancy) : Op → Option Idle
  | dropRequest id =>
    match (t.pool.requests.get? id).map Slot.outcome with
    | some (.granted (.reuse e)) => some e
    | _ => none
  | _ => none

end Op

namespace Life

def start (c : Conf) : Life where
  tenancy := { pool := .ofConf c }

/-- One step.  What is not possible changes nothing. -/
def step (m : Moment) (o : Op) (l : Life) : Life :=
  if o.isPossible l.tenancy l.made then
    let turn := l.tenancy.act m o
    { tenancy := turn.tenancy
      made := o.makes l.made
      closed := l.closed ++ turn.closed
      reports := l.reports ++ turn.reports }
  else l

def run (l : Life) (ops : List (Moment × Op)) : Life := ops.foldl (fun l o => l.step o.1 o.2) l

/-- The clock never goes back.  A lease looks at it before it enters the pool, and others may look at
it and enter first; all others look at it inside. -/
abbrev Clocked (ops : List (Moment × Op)) : Prop :=
  ops.Pairwise fun x y => y.2.isLease ∨ x.1.now ≤ y.1.now

end Life

namespace Op

theorem putsBack_eq_some_iff {t : Tenancy} {id : RequestId} {e : Idle} :
    (dropRequest id).putsBack t = some e ↔
      ∃ r, t.pool.requests.get? id = some { route := r, outcome := .granted (.reuse e) } := by
  cases hid : t.pool.requests.get? id with
  | none => simp [putsBack, hid]
  | some s =>
    obtain ⟨r, o⟩ := s
    cases o with
    | pending => simp [putsBack, hid]
    | failed f => simp [putsBack, hid]
    | granted g => cases g <;> simp [putsBack, hid]

end Op

namespace Tenancy

variable {t : Tenancy} {c : Multiset Conn} {m : Moment} {id : RequestId}

def relimit (f : Limits → Limits) (t : Tenancy) : Tenancy :=
  { t with pool := { t.pool with limits := f t.pool.limits } }

theorem look_pending {r : Route} (last : Bool)
    (hid : t.pool.requests.get? id = some { route := r }) :
    t.look id last = if last then (t.timeOut id).reply () else { answer := (), tenancy := t } := by
  unfold look
  rw [collect_pending hid]
  rfl

theorem look_of_not_pending (last : Bool)
    (hid : ∀ r, t.pool.requests.get? id ≠ some { route := r }) :
    t.look id last = (t.collect id).reply () := by
  unfold look
  dsimp only
  split
  · next hpending =>
    obtain ⟨r, hr⟩ := exists_of_collect_pending hpending
    exact absurd hr (hid r)
  · rfl

theorem look_trades (h : t.IsSound) (last : Bool) :
    Trades m (t.scene c) ((t.look id last).scene c) ∧ Filed (t.look id last).tenancy.entries := by
  by_cases hid : ∃ r, t.pool.requests.get? id = some { route := r }
  · obtain ⟨r, hid⟩ := hid
    rw [look_pending last hid]
    cases last with
    | true => exact ⟨timeOut_trades hid, h.filed⟩
    | false => exact ⟨.refl, h.filed⟩
  · rw [look_of_not_pending last (not_exists.1 hid)]
    exact collect_trades h

theorem look_settled (h : t.IsSound) (last : Bool) (hs : t.pool.Settled) :
    (t.look id last).tenancy.pool.Settled := by
  by_cases hid : ∃ r, t.pool.requests.get? id = some { route := r }
  · obtain ⟨r, hid⟩ := hid
    rw [look_pending last hid]
    cases last with
    | true =>
      change (t.pool.timeOut id).2.Settled
      rw [Pool.timeOut_eq]
      exact Pool.settled_withdraw h.sound.queued hs hid _
    | false => exact hs
  · rw [look_of_not_pending last (not_exists.1 hid)]
    exact collect_settled hs

theorem dropEntry_of_has {e : EntryId} (he : t.entries.has e) :
    (t.dropEntry m e).tenancy = (t.discard m e).tenancy ∧
      (t.dropEntry m e).scene c = (t.discard m e).scene c := by
  unfold dropEntry
  rw [if_pos he]
  exact ⟨rfl, rfl⟩

theorem dropEntry_of_not_has {e : EntryId} (he : ¬ t.entries.has e) :
    t.dropEntry m e = { answer := (), tenancy := t } := by
  rw [dropEntry, if_neg he]

theorem dropEntry_trades (h : t.IsSound) (e : EntryId) :
    Trades m (t.scene c) ((t.dropEntry m e).scene c) ∧
      Filed (t.dropEntry m e).tenancy.entries := by
  by_cases he : t.entries.has e
  · obtain ⟨htenancy, hscene⟩ := dropEntry_of_has (m := m) (c := c) he
    rw [htenancy, hscene]
    exact release_trades h e false none
  · rw [dropEntry_of_not_has he]
    exact ⟨.refl, h.filed⟩

theorem act_trades (h : t.IsSound) {o : Op} {made : List Conn} (hp : o.isPossible t made)
    (hback : o.putsBack t = none) :
    Trades m ((t.relimit o.limits).scene made) ((t.act m o).scene (o.makes made)) ∧
      Filed (t.act m o).tenancy.entries := by
  cases o with
  | lease r timeout => exact ⟨lease_trades h timeout, lease_entries (t := t) timeout ▸ h.filed⟩
  | get id last => exact look_trades h last
  | connected s x =>
    have hs : s ∈ t.creating := of_decide_eq_true (Bool.and_eq_true_iff.1 hp).1
    exact connected_trades h hs x
  | connectFailed s f =>
    have hs : s ∈ t.creating := of_decide_eq_true hp
    exact ⟨connectFailed_trades h hs f, h.filed⟩
  | cancel id => exact ⟨Work.cancel_trades, h.filed⟩
  | dropRequest id =>
    refine ⟨Work.forget_trades h.sound fun r e hid => ?_, h.filed⟩
    cases hback.symm.trans (Op.putsBack_eq_some_iff.2 ⟨r, hid⟩)
  | release id reusable v => exact release_trades h id reusable v
  | discard id => exact release_trades h id false none
  | dropEntry id => exact dropEntry_trades h id
  | setMaxTotal max =>
    exact ⟨(Work.setMaxTotal_relimits (w := { pool := t.pool }) h.sound max).trades h.sound,
      h.filed⟩
  | setDefaultMax max =>
    exact ⟨(Work.setDefaultMax_relimits (w := { pool := t.pool }) h.sound max).trades h.sound,
      h.filed⟩
  | setMaxFor r max =>
    exact ⟨(Work.setMaxFor_relimits (w := { pool := t.pool }) h.sound r max).trades h.sound,
      h.filed⟩
  | closeExpired =>
    obtain ⟨v, hv, hu⟩ := Work.closeExpired_sheds (w := { pool := t.pool }) h.sound
    exact ⟨Work.trim_trades h.sound hv hu, h.filed⟩
  | closeIdle span =>
    obtain ⟨v, hv, hu⟩ := Work.closeIdle_sheds (w := { pool := t.pool }) h.sound span
    exact ⟨Work.trim_trades h.sound hv hu, h.filed⟩
  | shutDown => exact ⟨.single .shut, h.filed⟩

theorem act_moves (h : t.IsSound) {o : Op} {made : List Conn} (hp : o.isPossible t made) :
    Moves m ((t.relimit o.limits).scene made) ((t.act m o).scene (o.makes made)) ∧
      Filed (t.act m o).tenancy.entries := by
  cases hback : o.putsBack t with
  | none =>
    obtain ⟨htrades, hfiled⟩ := act_trades (m := m) h hp hback
    exact ⟨htrades.moves, hfiled⟩
  | some e =>
    cases o with
    | dropRequest id => exact ⟨Work.forget_moves h.sound, h.filed⟩
    | _ => cases hback

theorem relimit_sound (h : t.IsSound) (f : Limits → Limits) : (t.relimit f).IsSound :=
  ⟨Work.changeLimits_sound (w := { pool := t.pool }) h.sound f, h.filed⟩

theorem IsSound.scene (h : t.IsSound) : (t.scene c).IsSound := h.sound

theorem act_sound (h : t.IsSound) {o : Op} {made : List Conn} (hp : o.isPossible t made) :
    (t.act m o).tenancy.IsSound := by
  obtain ⟨hmoves, hfiled⟩ := act_moves (m := m) h hp
  exact ⟨(relimit_sound h o.limits).scene.moves hmoves, hfiled⟩

theorem act_limits (h : t.IsSound) {o : Op} {made : List Conn} (hp : o.isPossible t made) :
    (t.act m o).tenancy.pool.limits = o.limits t.pool.limits :=
  ((act_moves (m := m) h hp).1.grows (relimit_sound h o.limits).scene).limits

theorem release_settled (h : t.IsSound) (id : EntryId) (reusable : Bool) (v : Option Span)
    (hs : t.pool.Settled) : (t.release m id reusable v).tenancy.pool.Settled := by
  cases he : t.entries.get? id with
  | none =>
    obtain ⟨a, ha⟩ := release_of_none (m := m) he reusable v
    rwa [ha]
  | some e =>
    rw [release_eq he]
    exact Work.takeBack_settled (e := ⟨e.record, e.conn⟩) (out_remove h he ▸ h.sound) reusable v

theorem act_settled (h : t.IsSound) {o : Op} {made : List Conn} (hp : o.isPossible t made)
    (hs : t.pool.Settled) : (t.act m o).tenancy.pool.Settled := by
  cases o with
  | lease r timeout =>
    change (t.lease m r timeout).tenancy.pool.Settled
    rw [lease_pool]
    exact Work.lease_settled h.sound hs
  | get id last => exact look_settled h last hs
  | connected s x =>
    change (t.connected s x).tenancy.pool.Settled
    rwa [connected_pool]
  | connectFailed s f =>
    have hs : s ∈ t.creating := of_decide_eq_true hp
    exact Work.vacate_settled (out_erase hs ▸ h.sound)
  | cancel id => exact Work.cancel_settled h.sound hs
  | dropRequest id => exact Work.forget_settled h.sound hs
  | release id reusable v => exact release_settled h id reusable v hs
  | discard id => exact release_settled h id false none hs
  | dropEntry id =>
    change (t.dropEntry m id).tenancy.pool.Settled
    by_cases he : t.entries.has id
    · rw [(dropEntry_of_has (c := 0) he).1]
      exact release_settled h id false none hs
    · rwa [dropEntry_of_not_has he]
  | setMaxTotal max =>
    exact (Work.setMaxTotal_relimits (w := { pool := t.pool }) (c := 0) h.sound max).settled
      h.sound hs
  | setDefaultMax max =>
    exact (Work.setDefaultMax_relimits (w := { pool := t.pool }) (c := 0) h.sound max).settled
      h.sound hs
  | setMaxFor r max =>
    exact (Work.setMaxFor_relimits (w := { pool := t.pool }) (c := 0) h.sound r max).settled
      h.sound hs
  | closeExpired =>
    obtain ⟨v, hv, hu⟩ := Work.closeExpired_sheds (w := { pool := t.pool }) (c := 0) h.sound
    exact Work.trim_settled h.sound hv hu hs
  | closeIdle span =>
    obtain ⟨v, hv, hu⟩ := Work.closeIdle_sheds (w := { pool := t.pool }) (c := 0) h.sound span
    exact Work.trim_settled h.sound hv hu hs
  | shutDown =>
    have hshut : t.shutDown.tenancy.pool.isShut = true := Work.isShut_shutDown { pool := t.pool }
    have hp : Op.shutDown.isPossible t [] := rfl
    exact Pool.settled_of_shut (act_sound (m := m) h hp).sound hshut

theorem act_bounded (h : t.IsSound) {o : Op} {made : List Conn} (hp : o.isPossible t made)
    (hback : o.putsBack t = none) (hb : t.pool.Bounded) :
    (t.act m o).tenancy.pool.Bounded := by
  obtain ⟨htrades, -⟩ := act_trades (m := m) h hp hback
  cases o with
  | setMaxTotal max =>
    exact (Work.setMaxTotal_relimits (w := { pool := t.pool }) (c := 0) h.sound max).bounded
      h.sound hb
  | setDefaultMax max =>
    exact (Work.setDefaultMax_relimits (w := { pool := t.pool }) (c := 0) h.sound max).bounded
      h.sound hb
  | setMaxFor r max =>
    exact (Work.setMaxFor_relimits (w := { pool := t.pool }) (c := 0) h.sound r max).bounded
      h.sound hb
  | _ => exact htrades.bounded (s := t.scene made) h.sound hb

end Tenancy

namespace Life

variable {conf : Conf} {l : Life} {m : Moment}

theorem start_sound (conf : Conf) : (start conf).tenancy.IsSound := by
  refine ⟨?_, List.nodup_nil, fun x hx => absurd hx List.not_mem_nil⟩
  exact {
    tidy := List.nodup_nil
    queued := {
      queue := fun _ => rfl
      sorted := List.Pairwise.nil
      pending := fun id r => ⟨fun hid => absurd hid List.not_mem_nil, fun hid => nomatch hid⟩
      keys := List.nodup_nil
      numbers := fun id hid => absurd hid List.not_mem_nil }
    home := fun r e he => absurd he List.not_mem_nil
    idle := rfl
    leased := rfl
    slots := fun _ => rfl
    ids := Multiset.nodup_zero
    issued := fun g hg => absurd hg (Multiset.notMem_zero g)
    shut := fun hs => nomatch hs }

theorem step_of_isPossible {o : Op} (hp : o.isPossible l.tenancy l.made) : l.step m o = {
    tenancy := (l.tenancy.act m o).tenancy
    made := o.makes l.made
    closed := l.closed ++ (l.tenancy.act m o).closed
    reports := l.reports ++ (l.tenancy.act m o).reports } := if_pos hp

theorem step_of_not_isPossible {o : Op} (hp : ¬ o.isPossible l.tenancy l.made) :
    l.step m o = l := if_neg hp

theorem run_append_singleton (l : Life) (ops : List (Moment × Op)) (o : Moment × Op) :
    l.run (ops ++ [o]) = (l.run ops).step o.1 o.2 := List.foldl_append ..

/-- What is so at the start and stays so along every possible step is always so. -/
theorem run_induction {P : Life → Prop} (hstart : P l)
    (hstep : ∀ l m o, P l → o.isPossible l.tenancy l.made → P (l.step m o))
    (ops : List (Moment × Op)) : P (l.run ops) := by
  induction ops generalizing l with
  | nil => exact hstart
  | cons o ops ih =>
    apply ih
    change P (l.step o.1 o.2)
    by_cases hp : o.2.isPossible l.tenancy l.made
    · exact hstep l o.1 o.2 hstart hp
    · rwa [step_of_not_isPossible hp]

theorem step_tenancy {o : Op} (hp : o.isPossible l.tenancy l.made) :
    (l.step m o).tenancy = (l.tenancy.act m o).tenancy := by
  rw [step, if_pos hp]

theorem run_sound (conf : Conf) (ops : List (Moment × Op)) :
    ((start conf).run ops).tenancy.IsSound := by
  refine run_induction (P := fun l => l.tenancy.IsSound) (start_sound conf) ?_ ops
  intro l m o h hp
  rw [step_tenancy hp]
  exact Tenancy.act_sound h hp

theorem run_settled (conf : Conf) (ops : List (Moment × Op)) :
    ((start conf).run ops).tenancy.pool.Settled := by
  refine (run_induction (P := fun l => l.tenancy.IsSound ∧ l.tenancy.pool.Settled)
    ⟨start_sound conf, fun r hr => absurd rfl hr⟩ ?_ ops).2
  rintro l m o ⟨h, hs⟩ hp
  rw [step_tenancy hp]
  exact ⟨Tenancy.act_sound h hp, Tenancy.act_settled h hp hs⟩

end Life

/-! A small life to try things on. -/

namespace Sample

def conf : Conf := { maxTotal := 10, defaultMaxPerRoute := 2 }

def route : Route := { target := { hostname := "a", port := 80, scheme := .http } }

def otherRoute : Route := { target := { hostname := "b", port := 80, scheme := .http } }

def calm : Moment := { now := 0, isOpen := fun _ => true, isStale := none }

def slot (n : Nat) : Record := .fresh ⟨n⟩ route 0 none

def waits : List (Moment × Op) := (List.replicate 4 (Op.lease route none)).map (Prod.mk calm)

def regrants : List (Moment × Op) :=
  [.lease route none, .lease route none, .get ⟨1⟩ false, .get ⟨2⟩ false, .connected (slot 1) ⟨1⟩,
    .connected (slot 2) ⟨2⟩, .release ⟨1⟩ true none, .release ⟨2⟩ true none, .lease route none,
    .lease route none].map (Prod.mk calm)

end Sample

end ConnectionPool
