import ConnectionPool.Proofs.Custody
import ConnectionPool.Proofs.Outcome

namespace ConnectionPool

variable {conf : Conf} {l k : Life} {m : Moment} {o : Op} {t : Tenancy} {made : List Conn}
  {id : RequestId} {s s' : Scene} {ops more : List (Moment × Op)}

theorem Move.isShut (hs : s.IsSound) (h : Move m s s') (hshut : s.work.pool.isShut = true) :
    s'.work.pool.isShut = true := by
  cases h with
  | restore hopen => simp [hopen] at hshut
  | trade h =>
    cases h with
    | serve h => exact (h.draws hs).isShut.trans hshut
    | refuse => exact (Pool.draws_withdraw _ _).isShut.trans hshut
    | quit => exact (Pool.draws_withdraw _ _).isShut.trans hshut
    | shut => exact Work.isShut_shutDown _
    | _ => exact hshut

theorem Moves.isShut (hs : s.IsSound) (h : Moves m s s') (hshut : s.work.pool.isShut = true) :
    s'.work.pool.isShut = true := by
  induction h with
  | refl => exact hshut
  | tail hsu hst ih => exact hst.isShut (hs.moves hsu) ih

/-! A pool that is shut has nothing, and nothing comes of what its callers do. -/

namespace Sound

variable {held : Multiset Grant} {p : Pool}

theorem slots_of_shut (h : Sound held p) (hshut : p.isShut = true) : p.slots = 0 := by
  refine Multiset.eq_zero_of_forall_notMem fun x hx => ?_
  have hid := (Pool.mem_slots h.tidy).1 hx
  rw [h.available_eq_nil_of_shut hshut] at hid
  exact List.not_mem_nil hid

theorem stock_of_shut (h : Sound held p) (hshut : p.isShut = true) : p.stock = 0 := by
  refine Multiset.eq_zero_of_forall_notMem fun e he => ?_
  obtain ⟨r, he⟩ := (Pool.mem_stock h.tidy).1 he
  rw [h.available_eq_nil_of_shut hshut] at he
  exact List.not_mem_nil he

theorem totalStats_of_shut (h : Sound held p) (hshut : p.isShut = true) :
    p.totalStats = { max := p.limits.total } := by
  have hleased : p.leased = 0 := by rw [h.leased, h.slots_of_shut hshut, Multiset.card_zero]
  have hidle : p.idle = [] := by
    rw [← Multiset.coe_eq_zero, h.idle, h.stock_of_shut hshut, Multiset.map_zero]
  simp [Pool.totalStats, hleased, hidle, (h.shut hshut).2.1]

theorem stats_of_shut (h : Sound held p) (hshut : p.isShut = true) (r : Route) :
    p.stats r = { max := p.limits.forRoute r } := by
  simp [Pool.stats, h.available_eq_nil_of_shut hshut r]

theorem ne_granted_of_shut (h : Sound held p) (hshut : p.isShut = true) (r : Route) (g : Grant) :
    p.requests.get? id ≠ some { route := r, outcome := .granted g } := by
  intro hid
  rw [h.isShut_eq_false_of_granted hid] at hshut
  exact Bool.noConfusion hshut

end Sound

namespace Tenancy

theorem exists_of_finds_granted {last : Bool} {g : Grant} (h : t.finds id last = .granted g) :
    ∃ r, t.pool.requests.get? id = some { route := r, outcome := .granted g } := by
  rcases t.pool.slot_cases id with hid | ⟨r, hid⟩ | ⟨⟨r, d⟩, hid, hs⟩
  · simp [finds_gone hid] at h
  · rw [finds, collect_pending hid] at h
    cases last <;> cases h
  · cases d with
    | pending => simp [Slot.isPending] at hs
    | failed f => simp [finds_failed hid] at h
    | granted d =>
      have hcollect : (t.collect id).answer = .granted d := by
        cases d with
        | reuse e => rw [collect_reuse hid]
        | create s => rw [collect_create hid]
      rw [finds, hcollect] at h
      cases h
      exact ⟨r, hid⟩

theorem lease_of_shut (hshut : t.pool.isShut = true) (r : Route) (timeout : Option Span) :
    t.lease m r timeout = {
      answer := .error (.internally .poolClosed "connection pool is shut down")
      tenancy := t } := by
  simp [lease, Tenancy.turn, Work.lease, hshut]

theorem connected_of_shut (hshut : t.pool.isShut = true) (s : Record) (x : Conn) :
    t.connected s x = {
      answer := .error (.internally .poolClosed "connection pool is shut down")
      tenancy := { t with creating := t.creating.erase s }
      reports := [.noted (.shutWhileConnecting s.route)]
      closed := [x] } := by
  simp [connected, hshut]

theorem release_of_shut (hshut : t.pool.isShut = true) {x : EntryId} {e : Entry}
    (he : t.entries.get? x = some e) (reusable : Bool) (v : Option Span) :
    t.release m x reusable v = {
      answer := none
      tenancy := { t with entries := t.entries.remove x }
      closed := [e.conn] } := by
  rw [release_eq he]
  simp [Tenancy.turn, Work.takeBack, hshut, Work.close]

theorem dropEntry_of_shut (hshut : t.pool.isShut = true) {x : EntryId} {e : Entry}
    (he : t.entries.get? x = some e) :
    t.dropEntry m x = {
      answer := ()
      tenancy := { t with entries := t.entries.remove x }
      closed := [e.conn] } := by
  have hhas : t.entries.has x = true := by simp [Table.has, he]
  rw [dropEntry, if_pos hhas, discard, release_of_shut hshut he]
  rfl

structure Keeps (t u : Tenancy) : Prop where
  creating : ∀ s ∈ u.creating, s ∈ t.creating
  entries : ∀ x e, u.entries.get? x = some e → t.entries.get? x = some e

theorem Keeps.refl (t : Tenancy) : t.Keeps t := ⟨fun _ hs => hs, fun _ _ he => he⟩

theorem Keeps.trans {u v : Tenancy} (h : t.Keeps u) (k : u.Keeps v) : t.Keeps v :=
  ⟨fun s hs => h.creating s (k.creating s hs), fun x e he => h.entries x e (k.entries x e he)⟩

theorem get?_of_remove {es : Table EntryId Entry} {x y : EntryId} {e : Entry}
    (he : (es.remove x).get? y = some e) : es.get? y = some e := by
  by_cases hxy : x = y
  · simp [hxy] at he
  · rwa [Table.get?_remove_of_ne _ hxy] at he

theorem release_keeps (x : EntryId) (reusable : Bool) (v : Option Span) :
    t.Keeps (t.release m x reusable v).tenancy := by
  cases he : t.entries.get? x with
  | none =>
    obtain ⟨a, ha⟩ := release_of_none (m := m) he reusable v
    rw [ha]
    exact .refl t
  | some e =>
    rw [release_eq he]
    exact ⟨fun _ hs => hs, fun _ _ => get?_of_remove⟩

theorem collect_keeps (hid : ∀ r g, t.pool.requests.get? id ≠
    some { route := r, outcome := .granted g }) : t.Keeps (t.collect id).tenancy := by
  cases hs : t.pool.requests.get? id with
  | none =>
    rw [collect_gone hs]
    exact .refl t
  | some s =>
    obtain ⟨r, d⟩ := s
    cases d with
    | pending =>
      rw [collect_pending hs]
      exact .refl t
    | failed f =>
      rw [collect_failed hs]
      exact ⟨fun _ hs => hs, fun _ _ he => he⟩
    | granted g => exact absurd hs (hid r g)

theorem act_keeps (h : t.IsSound) (hshut : t.pool.isShut = true) (m : Moment) (o : Op) :
    t.Keeps (t.act m o).tenancy := by
  cases o with
  | lease r timeout =>
    change t.Keeps (t.lease m r timeout).tenancy
    rw [lease_of_shut hshut]
    exact .refl t
  | get id last =>
    have hcollect : t.Keeps (t.collect id).tenancy :=
      collect_keeps fun r g => h.sound.ne_granted_of_shut hshut r g
    have hpending (r : Route) : t.pool.requests.get? id ≠ some { route := r } := fun hid => by
      simp [h.sound.isShut_eq_false_of_pending hid] at hshut
    change t.Keeps (t.look id last).tenancy
    rw [look_of_not_pending last hpending]
    exact hcollect
  | connected s x =>
    change t.Keeps (t.connected s x).tenancy
    rw [connected_of_shut hshut]
    exact ⟨fun _ => List.mem_of_mem_erase, fun _ _ he => he⟩
  | connectFailed s f => exact ⟨fun _ => List.mem_of_mem_erase, fun _ _ he => he⟩
  | release x reusable v => exact release_keeps x reusable v
  | discard x => exact release_keeps x false none
  | dropEntry x =>
    change t.Keeps (t.dropEntry m x).tenancy
    by_cases hx : t.entries.has x
    · rw [(dropEntry_of_has (c := 0) hx).1]
      exact release_keeps x false none
    · rw [dropEntry_of_not_has hx]
      exact .refl t
  | _ => exact ⟨fun _ hs => hs, fun _ _ he => he⟩

theorem shutDown_closed_perm (h : t.IsSound) :
    t.shutDown.closed.Perm (t.unclaimed ++ t.available) := by
  change (Work.shutDown { pool := t.pool }).2.closing.Perm _
  cases hshut : t.pool.isShut with
  | false =>
    rw [Work.shutDown_of_open hshut]
    exact .refl _
  | true =>
    -- a pool that is shut has nothing left to close
    have hconns := connsOf_census t
    have hgrants : t.unclaimed = [] := by
      rw [← Multiset.coe_eq_zero, unclaimed, ← Pool.connsOf_grants, (h.sound.shut hshut).2.2]
      rfl
    have hstock : t.available = [] := by
      rw [← Multiset.coe_eq_zero, available, ← Pool.conns_stock, h.sound.stock_of_shut hshut,
        Multiset.map_zero]
    rw [Work.shutDown_of_shut hshut, hgrants, hstock]
    exact .refl _

end Tenancy

namespace Life

/-- How things are in a pool that was shut down at `l`, after it has come to `k`. -/
structure Down (l k : Life) : Prop where
  total : k.tenancy.pool.totalStats = { max := k.tenancy.pool.limits.total }
  route : ∀ r, k.tenancy.pool.stats r = { max := k.tenancy.pool.limits.forRoute r }
  /-- Nobody is granted anything, and no lease is accepted. -/
  ungranted : ∀ id r g,
    k.tenancy.pool.requests.get? id ≠ some { route := r, outcome := .granted g }
  refused : ∀ m r timeout, ∃ f, f.kind = .poolClosed ∧
    k.tenancy.lease m r timeout = { answer := .error f, tenancy := k.tenancy }
  /-- No get succeeds, nor has it a connection created. -/
  found : ∀ id last g, k.tenancy.finds id last ≠ .granted g
  /-- What is still being created was so at the shutdown, and is closed when it comes. -/
  creating : ∀ s ∈ k.tenancy.creating, s ∈ l.tenancy.creating ∧
    ∀ x, ∃ f, f.kind = .poolClosed ∧ (k.tenancy.connected s x).answer = .error f ∧
      (k.tenancy.connected s x).closed = [x] ∧
      (k.tenancy.connected s x).tenancy.entries = k.tenancy.entries
  /-- What the callers still have they had at the shutdown, and it is closed when it is given back,
  in whatever way, and no failure comes of it. -/
  returned : ∀ x e, k.tenancy.entries.get? x = some e → l.tenancy.entries.get? x = some e ∧
    ∀ m,
      (∀ reusable v, k.tenancy.release m x reusable v = {
        answer := none
        tenancy := { k.tenancy with entries := k.tenancy.entries.remove x }
        closed := [e.conn] }) ∧
      k.tenancy.discard m x = {
        answer := none
        tenancy := { k.tenancy with entries := k.tenancy.entries.remove x }
        closed := [e.conn] } ∧
      k.tenancy.dropEntry m x = {
        answer := ()
        tenancy := { k.tenancy with entries := k.tenancy.entries.remove x }
        closed := [e.conn] }
  /-- Each connection that was made was closed once, or a caller still has it. -/
  once : k.made.Nodup ∧ k.made.Perm (k.closed ++ k.tenancy.live)

theorem run_isShut (h : l.tenancy.IsSound) (hshut : l.tenancy.pool.isShut = true)
    (more : List (Moment × Op)) :
    (l.run more).tenancy.pool.isShut = true ∧ l.tenancy.Keeps (l.run more).tenancy := by
  refine (run_induction
    (P := fun k => k.tenancy.IsSound ∧ k.tenancy.pool.isShut = true ∧ l.tenancy.Keeps k.tenancy)
    ⟨h, hshut, .refl _⟩ ?_ more).2
  rintro k m o ⟨hk, hdown, hkeeps⟩ hp
  have hmoves := (Tenancy.act_moves (m := m) hk hp).1
  rw [step_tenancy hp]
  exact ⟨Tenancy.act_sound hk hp,
    hmoves.isShut (Tenancy.relimit_sound hk o.limits).scene hdown,
    hkeeps.trans (Tenancy.act_keeps hk hdown m o)⟩

theorem down_of_isShut (h : k.tenancy.IsSound) (hk : k.InCustody)
    (hshut : k.tenancy.pool.isShut = true) (hkeeps : l.tenancy.Keeps k.tenancy) : Down l k where
  total := h.sound.totalStats_of_shut hshut
  route := h.sound.stats_of_shut hshut
  ungranted _ := h.sound.ne_granted_of_shut hshut
  refused _ r timeout := ⟨_, rfl, Tenancy.lease_of_shut hshut r timeout⟩
  found id last g hfound := by
    obtain ⟨r, hid⟩ := Tenancy.exists_of_finds_granted hfound
    exact h.sound.ne_granted_of_shut hshut r g hid
  creating s hs := by
    refine ⟨hkeeps.creating s hs, fun x =>
      ⟨.internally .poolClosed "connection pool is shut down", rfl, ?_⟩⟩
    rw [Tenancy.connected_of_shut hshut]
    exact ⟨rfl, rfl, rfl⟩
  returned x e he := ⟨hkeeps.entries x e he, fun m =>
    ⟨Tenancy.release_of_shut hshut he, Tenancy.release_of_shut hshut he false none,
      Tenancy.dropEntry_of_shut hshut he⟩⟩
  once := by
    have hclosed := Tenancy.shutDown_closed_perm h
    change (Work.shutDown { pool := k.tenancy.pool }).2.closing.Perm _ at hclosed
    rw [Work.shutDown_of_shut hshut] at hclosed
    have hnil := List.append_eq_nil_iff.1 (List.nil_perm.1 hclosed)
    have hperm := hk.perm
    rw [hnil.1, hnil.2, List.append_nil, List.append_nil] at hperm
    exact ⟨hk.nodup, hperm⟩

/-- A shutdown closes what is available and what was granted and not collected, and interrupts those
who wait.  It lasts, whatever comes after it. -/
theorem shuts_down_for_good (conf : Conf) (ops : List (Moment × Op)) (m : Moment) :
    let l := (start conf).run ops
    let k := l.step m .shutDown
    (∃ cs, k.closed = l.closed ++ cs ∧ cs.Perm (l.tenancy.unclaimed ++ l.tenancy.available) ∧
      cs.Nodup ∧ ∀ x ∈ cs, x ∉ l.closed) ∧
    ∀ more, Down l (k.run more) ∧
      ∀ id, l.tenancy.pool.isDone id = false → (∀ x ∈ more, ¬ x.2.Takes id) →
        ∀ last, ∃ f, (k.run more).tenancy.finds id last = .failed f ∧ f.kind = .interrupted := by
  intro l k
  have h : l.tenancy.IsSound := run_sound conf ops
  have hrun (more : List (Moment × Op)) :
      k.run more = (start conf).run (ops ++ [(m, .shutDown)] ++ more) := by
    simp only [k, l, run, List.foldl_append, List.foldl_cons, List.foldl_nil]
  have hsound : k.tenancy.IsSound := step_sound h m .shutDown
  have hshut : k.tenancy.pool.isShut = true := Work.isShut_shutDown { pool := l.tenancy.pool }
  have hcustody : k.InCustody := (run_inCustody conf ops).step h rfl
  refine ⟨⟨l.tenancy.shutDown.closed, rfl, Tenancy.shutDown_closed_perm h, ?_⟩, fun more => ?_⟩
  · have hnodup : (l.closed ++ l.tenancy.shutDown.closed).Nodup :=
      ((hcustody.perm.nodup_iff.1 hcustody.nodup).sublist (List.sublist_append_left _ _))
    rw [List.nodup_append] at hnodup
    exact ⟨hnodup.2.1, fun x hx hclosed => hnodup.2.2 x hclosed x hx rfl⟩
  · obtain ⟨hdown, hkeeps⟩ := run_isShut hsound hshut more
    have hsame : l.tenancy.Keeps k.tenancy := ⟨fun _ hs => hs, fun _ _ he => he⟩
    refine ⟨down_of_isShut ?_ ?_ hdown (hsame.trans hkeeps), fun id hid hmore last => ?_⟩
    · rw [hrun]
      exact run_sound conf _
    · rw [hrun]
      exact run_inCustody conf _
    · exact (run_refused h hid m (.inr rfl) more).2 hmore last

end Life

end ConnectionPool
