import ConnectionPool.Proofs.Deadline
import ConnectionPool.Proofs.Surrender

namespace ConnectionPool

variable {m : Moment} {id : EntryId} {d : Entry}

namespace Tenancy

variable {t : Tenancy}

theorem mem_closed_discard (h : t.IsSound) (hd : t.entries.get? id = some d) :
    d.conn ∈ (t.discard m id).closed := by
  have hsound : Sound (.reuse ⟨d.record, d.conn⟩ ::ₘ _) t.pool := out_remove h hd ▸ h.sound
  have hclosed : (t.discard m id).closed =
      (Work.takeBack m d.record d.conn false none { pool := t.pool }).2.closing := by
    rw [discard, release_eq hd]
    rfl
  rw [hclosed]
  cases hshut : t.pool.isShut with
  | true =>
    rw [Work.takeBack_of_shut (w := { pool := t.pool }) (e := ⟨d.record, d.conn⟩) hshut]
    exact List.mem_singleton_self d.conn
  | false =>
    rw [(Work.takeBack_givesUp hsound hshut (.inl rfl)).closing]
    exact List.mem_append_left _ (List.mem_singleton_self d.conn)

theorem discard_answer (h : t.IsSound) (hd : t.entries.get? id = some d) :
    (t.discard m id).answer = none :=
  release_answer h (by rw [Table.has, hd]; rfl) false none

theorem dropEntry_eq_discard (h : t.IsSound) (hd : t.entries.get? id = some d) :
    t.dropEntry m id = (t.discard m id).reply () := by
  have hhas : t.entries.has id := by
    rw [Table.has, hd]
    rfl
  have hanswer := discard_answer (m := m) h hd
  rw [discard, release_eq hd] at hanswer
  rw [dropEntry, if_pos hhas, discard, release_eq hd]
  dsimp only
  rw [hanswer]
  rfl

end Tenancy

namespace Life

variable {l : Life}

theorem InCustody.closes (hl : l.InCustody) {cs : List Conn} (hclosed : l.closed = ds ++ cs) :
    cs.Nodup ∧ ∀ c ∈ cs, c ∈ l.made ∧ c ∉ ds := by
  have hperm := hl.perm
  have hn : l.closed.Nodup := (hperm.nodup_iff.1 hl.nodup).of_append_left
  rw [hclosed] at hn
  refine ⟨hn.of_append_right, fun c hc => ⟨?_, fun hd => ?_⟩⟩
  · exact hperm.mem_iff.2 (List.mem_append_left _ (hclosed ▸ List.mem_append_right ds hc))
  · exact List.disjoint_of_nodup_append hn hd hc

end Life

def Turn.events (turn : Turn α) : List Session.Event :=
  turn.reports.map .reported ++ turn.closed.map .closed ++ turn.afterwards.map (.reported ∘ .noted)

namespace Session

variable {s : Session} {a b p : PoolId} {t : Tenancy}

def after (p : PoolId) (turn : Turn α) (s : Session) : Session :=
  { s with
    pools := s.pools.put p turn.tenancy
    fleet := turn.closed.foldl (fun f c => f.close c) s.fleet
    events := s.events ++ turn.events }

theorem run_emit (e : Event) : (emit e).run s = some ((), { s with events := s.events ++ [e] }) := rfl

theorem run_emits (f : α → Event) (xs : List α) :
    (forM xs (emit ∘ f)).run s = some ((), { s with events := s.events ++ xs.map f }) := by
  induction xs generalizing s with
  | nil => simp
  | cons x xs ih =>
    rw [List.forM_cons, StateT.run_bind, Function.comp_apply, run_emit, Option.bind_eq_bind,
      Option.bind_some, ih]
    simp

theorem run_closes (cs : List Conn) : (forM cs close).run s = some ((), { s with
    fleet := cs.foldl (fun f c => f.close c) s.fleet
    events := s.events ++ cs.map .closed }) := by
  induction cs generalizing s with
  | nil => simp
  | cons c cs ih =>
    have hclose : (close c).run s = some ((), { s with
        fleet := s.fleet.close c, events := s.events ++ [.closed c] }) := rfl
    rw [List.forM_cons, StateT.run_bind, hclose, Option.bind_eq_bind, Option.bind_some, ih]
    simp

theorem run_turn_after {f : Tenancy → Turn α} (hp : s.pools.get? p = some t) :
    (turn p f).run s = some ((f t).answer, s.after p (f t)) := by
  unfold turn
  rw [StateT.run_bind, run_present hp]
  simp [run_emits, run_closes, after, Turn.events, List.append_assoc]

theorem run_dropEntry (hb : s.isAlive b) (hp : s.pools.get? b = some t) (h : t.IsSound)
    (hd : t.entries.get? id = some d) :
    (dropEntry (b, id)).run s = some ((), s.after b (t.discard s.moment id)) := by
  have hturn : (turn b (Tenancy.dropEntry s.moment id)).run s = _ := run_turn_after hp
  rw [Tenancy.dropEntry_eq_discard h hd] at hturn
  unfold dropEntry
  rw [StateT.run_bind, StateT.run_get, Option.pure_def, Option.bind_eq_bind, Option.bind_some,
    if_pos hb, hturn]
  rfl

section Release

variable {pool name : String} (hname : s.entries.get? name = some (b, id))
include hname

theorem run_takeEntry : (takeEntry name).run s =
    some ((b, id), { s with entries := s.entries.remove name }) := by
  have hentry : (entry name).run s = some ((b, id), s) := run_present hname
  unfold takeEntry
  rw [StateT.run_bind, hentry]
  rfl

theorem run_release_foreign (hab : a ≠ b) (ha : s.handles.get? pool = some a) (hb : s.isAlive b)
    (hp : s.pools.get? b = some t) (h : t.IsSound) (hd : t.entries.get? id = some d)
    (reusable : Bool) (v : Option Span) :
    (call (.release pool name reusable v)).run s = some
      (.failed (Failure.explain .invalidArgument
        "connection entry was not issued by this pool").toCaller,
      ({ s with
        entries := s.entries.remove name
        events := s.events ++ [.reported (.noted (.foreignEntry id))] } : Session).after b
          (t.discard s.moment id)) := by
  let u : Session := { s with
    entries := s.entries.remove name
    events := s.events ++ [.reported (.noted (.foreignEntry id))] }
  have hhandle : (handle pool).run s = some (a, s) := run_present ha
  have hdrop : (dropEntry (b, id)).run u = some ((), u.after b (t.discard s.moment id)) :=
    run_dropEntry (s := u) hb hp h hd
  unfold call
  rw [StateT.run_bind, hhandle, Option.bind_eq_bind, Option.bind_some, StateT.run_bind,
    run_takeEntry hname, Option.bind_eq_bind, Option.bind_some]
  -- the pool of the entry takes its turn before the refusal is answered
  unfold release
  rw [if_neg hab.symm, StateT.run_map, StateT.run_bind, run_emit, Option.bind_eq_bind,
    Option.bind_some, StateT.run_bind, hdrop]
  rfl

theorem run_discard_own (hb : s.handles.get? pool = some b) (hp : s.pools.get? b = some t)
    (h : t.IsSound) (hd : t.entries.get? id = some d) : (call (.discard pool name)).run s =
      some (.ok, { s with entries := s.entries.remove name }.after b (t.discard s.moment id)) := by
  let u : Session := { s with entries := s.entries.remove name }
  have hhandle : (handle pool).run s = some (b, s) := run_present hb
  have hturn : (turn b (Tenancy.release s.moment id false none)).run u =
    some ((t.discard s.moment id).answer, u.after b (t.discard s.moment id)) := run_turn_after hp
  unfold call
  rw [StateT.run_bind, hhandle, Option.bind_eq_bind, Option.bind_some, StateT.run_bind,
    run_takeEntry hname, Option.bind_eq_bind, Option.bind_some]
  unfold release
  rw [if_pos rfl, StateT.run_map, StateT.run_bind, StateT.run_get, Option.pure_def,
    Option.bind_eq_bind, Option.bind_some]
  rw [Tenancy.discard_answer h hd] at hturn
  exact congrArg (Option.map _) hturn

end Release

end Session

namespace Life

/-- An entry is released into a pool that it does not belong to, while its own pool lives.  That is
refused as a fault of the caller, and the pool stays as it is.  The pool of the entry goes on as if the
entry had been discarded there, down to what it reports and closes, and of this the connection of the
entry is closed once. -/
theorem foreign_entry_goes_home (confA confB : Conf) (opsA opsB : List (Moment × Op)) {s : Session}
    {a b : PoolId} {pool name : String} {id : EntryId} {d : Entry} (hab : a ≠ b)
    (ha : s.handles.get? pool = some a) (hb : s.isAlive b)
    (hpa : s.pools.get? a = some ((start confA).run opsA).tenancy)
    (hpb : s.pools.get? b = some ((start confB).run opsB).tenancy)
    (hname : s.entries.get? name = some (b, id))
    (hd : ((start confB).run opsB).tenancy.entries.get? id = some d) :
    let l := (start confB).run opsB
    let k := l.step s.moment (.discard id)
    let f := (Failure.explain .invalidArgument
      "connection entry was not issued by this pool").toCaller
    let note : Session.Event := .reported (.noted (.foreignEntry id))
    (f.kind = .invalidArgument ∧ f.origin = .caller) ∧
    ∃ rs cs, k.reports = l.reports ++ rs ∧ k.closed = l.closed ++ cs ∧
      cs.count d.conn = 1 ∧ (∀ c ∈ cs, c ∈ l.made ∧ c ∉ l.closed) ∧
      let after (events : List Session.Event) : Session := { s with
        entries := s.entries.remove name
        pools := s.pools.put b k.tenancy
        fleet := cs.foldl (fun fleet c => fleet.close c) s.fleet
        events := s.events ++ events ++ rs.map .reported ++ cs.map .closed }
      (∀ reusable v, (Session.call (.release pool name reusable v)).run s =
        some (.failed f, after [note])) ∧
      (Session.call (.discard pool name)).run s = some (.failed f, after [note]) ∧
      (after [note]).pools.get? a = some ((start confA).run opsA).tenancy ∧
      ∀ own, s.handles.get? own = some b →
        (Session.call (.discard own name)).run s = some (.ok, after []) := by
  intro l k f note
  have h : l.tenancy.IsSound := run_sound confB opsB
  have hk : k.InCustody := (run_inCustody confB opsB).step h rfl
  let turn := l.tenancy.discard s.moment id
  have hafterwards : turn.afterwards = [] := by
    unfold turn
    rw [Tenancy.discard, Tenancy.release_eq hd]
    rfl
  have hclosed : k.closed = l.closed ++ turn.closed := rfl
  obtain ⟨hn, hown⟩ := hk.closes hclosed
  have hevents (es : List Session.Event) : s.events ++ es ++ turn.events =
      s.events ++ es ++ turn.reports.map .reported ++ turn.closed.map .closed := by
    rw [Turn.events, hafterwards, List.map_nil, List.append_nil, List.append_assoc (s.events ++ es)]
  refine ⟨⟨rfl, rfl⟩, turn.reports, turn.closed, rfl, hclosed, ?_, hown, ?_⟩
  · exact List.count_eq_one_of_mem hn (Tenancy.mem_closed_discard h hd)
  intro after
  have hrelease (reusable : Bool) (v : Option Span) :
      (Session.call (.release pool name reusable v)).run s = some (.failed f, after [note]) := by
    rw [Session.run_release_foreign hname hab ha hb hpb h hd, Session.after, hevents]
    rfl
  refine ⟨hrelease, hrelease false none, ?_, fun own hhandle => ?_⟩
  · exact (Table.get?_put_of_ne s.pools k.tenancy hab.symm).trans hpa
  · have hevents : s.events ++ turn.events = s.events ++ [] ++ turn.reports.map .reported ++
        turn.closed.map .closed := by rw [← hevents, List.append_nil]
    rw [Session.run_discard_own hname hhandle hpb h hd, Session.after, hevents]
    rfl

theorem foreign_entry_goes_home_served :
    let ops (c : Conn) := Sample.waits ++
      [.get ⟨1⟩ false, .connected (Sample.slot 1) c].map (Prod.mk Sample.calm)
    let l (c : Conn) := (start Sample.conf).run (ops c)
    let s : Session := {
      routes := [Sample.route]
      pools := [(⟨1⟩, (l ⟨1⟩).tenancy), (⟨2⟩, (l ⟨2⟩).tenancy)]
      handles := [("a", ⟨1⟩), ("b", ⟨2⟩)]
      entries := [("d", ⟨1⟩, ⟨1⟩), ("e", ⟨2⟩, ⟨1⟩)] }
    (s.isAlive ⟨2⟩ ∧ (l ⟨2⟩).tenancy.entries.get? ⟨1⟩ = some ⟨Sample.slot 1, ⟨2⟩, false⟩) ∧
      ∃ f u t, (Session.call (.release "a" "e" true none)).run s = some (.failed f, u) ∧
        u.pools.get? ⟨1⟩ = s.pools.get? ⟨1⟩ ∧ u.pools.get? ⟨2⟩ = some t ∧
        t.pool.requests.get? ⟨3⟩ =
          some { route := Sample.route, outcome := .granted (.create (Sample.slot 3)) } := by
  intro ops l s
  have halive : s.isAlive ⟨2⟩ := by decide
  have hd : (l ⟨2⟩).tenancy.entries.get? ⟨1⟩ = some ⟨Sample.slot 1, ⟨2⟩, false⟩ := by decide
  have hserved : ((l ⟨2⟩).step s.moment (.discard ⟨1⟩)).tenancy.pool.requests.get? ⟨3⟩ =
      some { route := Sample.route, outcome := .granted (.create (Sample.slot 3)) } := by decide
  have hpa : s.pools.get? ⟨1⟩ = some (l ⟨1⟩).tenancy := rfl
  have hpb : s.pools.get? ⟨2⟩ = some (l ⟨2⟩).tenancy := rfl
  have hname : s.entries.get? "e" = some (⟨2⟩, ⟨1⟩) := rfl
  have hhandle : s.handles.get? "a" = some ⟨1⟩ := rfl
  have hne : (⟨1⟩ : PoolId) ≠ ⟨2⟩ := by decide
  clear_value s
  obtain ⟨-, rs, cs, -, -, -, -, hrelease, -, hstays, -⟩ :=
    foreign_entry_goes_home Sample.conf Sample.conf (ops ⟨1⟩) (ops ⟨2⟩) hne hhandle halive hpa hpb
      hname hd
  exact ⟨⟨halive, hd⟩, _, _, ((l ⟨2⟩).step s.moment (.discard ⟨1⟩)).tenancy, hrelease true none,
    hstays.trans hpa.symm, Table.get?_put_self s.pools ⟨2⟩ _, hserved⟩

end Life

end ConnectionPool
