import Mathlib.Data.PFun
import ConnectionPool.Proofs.Life

/-! A dispatch ends.  Its loops are bounded by what they can use up, which here are written as loops
without a bound: they come to an end all the same, and to the same end.  No request is tried twice and no
connection taken out twice.  All of it rests on the agreement of the records, for a queue that keeps a
request of which nobody else knows is served for ever. -/

namespace ConnectionPool

variable {held : Multiset Grant} {w u v : Work} {e : Idle} {g : Grant} {id : RequestId} {r : Route}
  {m : Moment}

section Loop

variable {α β : Type} {f : α →. β ⊕ α} {a b : α} {x : β}

/-- As an equation, so that the result can be put in its place in the loop around. -/
theorem fix_of_inl (h : f a = .some (.inl x)) : f.fix a = .some x :=
  Part.eq_some_iff.2 (PFun.fix_stop (Part.eq_some_iff.1 h))

theorem fix_of_inr (h : f a = .some (.inr b)) : f.fix a = f.fix b :=
  PFun.fix_fwd_eq (Part.eq_some_iff.1 h)

end Loop

/-- A try to find a connection for a request, and the available connections it took out. -/
structure Attempt where
  request : RequestId × Route
  taken : List Idle
  deriving DecidableEq

namespace Work

/-! The loops of a dispatch, without a bound: a round is repeated until it has a result, and a loop that
does not end has none.  Each also tells which available connections it took out. -/

def reuseRound (m : Moment) (route : Route) :
    List Idle × Work → (List Idle × Option Idle × Work) ⊕ (List Idle × Work)
  | (taken, w) =>
    match (w.pool.lane route).available with
    | [] => .inl (taken, none, w)
    | e :: rest =>
      let w := w.change fun p =>
        { p.updateLane route ({ · with available := rest }) with idle := p.idle.drop e.record.id }
      let w := w.report (e.inspection m w.pool.policy.validateAfter)
      if e.isFit m w.pool.policy.validateAfter then
        .inl (taken ++ [e], some e,
          (w.note (.reuse e.record.id route)).change (Pool.lease e.record))
      else .inr (taken ++ [e], (w.note (.closeInvalid e.record.id route)).close e.conn)

def reuseLoop (m : Moment) (route : Route) (taken : List Idle) (w : Work) :
    Part (List Idle × Option Idle × Work) :=
  PFun.fix (PFun.lift (reuseRound m route)) (taken, w)

def makeRoomRound (route : Route) :
    List Idle × Work → (List Idle × Bool × Work) ⊕ (List Idle × Work)
  | (taken, w) =>
    if w.pool.allocated < w.pool.limits.total then .inl (taken, true, w)
    else
      match w.evict with
      | (some e, w) =>
        .inr (taken ++ [e], (w.note (.evict e.record.id e.record.route route)).close e.conn)
      | (none, w) => .inl (taken, false, w)

def makeRoomLoop (route : Route) (taken : List Idle) (w : Work) :
    Part (List Idle × Bool × Work) :=
  PFun.fix (PFun.lift (makeRoomRound route)) (taken, w)

def seekLoop (m : Moment) (route : Route) (w : Work) :
    Part (List Idle × Option Grant × Work) := do
  match ← w.reuseLoop m route [] with
  | (taken, some e, w) => pure (taken, some (.reuse e), w)
  | (taken, none, w) =>
    let max := w.pool.limits.forRoute route
    if max ≤ (w.pool.lane route).allocated then pure (taken, none, w.note (.atLimit route max))
    else
      match ← w.makeRoomLoop route taken with
      | (taken, true, w) =>
        let (r, w) := w.reserve m route
        pure (taken, some (.create r), w)
      | (taken, false, w) => pure (taken, none, w)

def provideLoop (m : Moment) (route : Route) (w : Work) :
    Part (List Idle × Option Grant × Work) :=
  (w.change (Pool.openLane route)).seekLoop m route

def serveRound (m : Moment) (route : Route) :
    List Attempt × Work →. (List Attempt × Work) ⊕ (List Attempt × Work)
  | (attempts, w) =>
    match (w.pool.lane route).queue with
    | [] => pure (.inl (attempts, w))
    | id :: _ => do
      match ← w.provideLoop m route with
      | (taken, some g, w) => pure (.inr (attempts ++ [⟨(id, route), taken⟩], w.grant id g))
      | (taken, none, w) => pure (.inl (attempts ++ [⟨(id, route), taken⟩], w))

def serveLoop (m : Moment) (route : Route) (attempts : List Attempt) (w : Work) :
    Part (List Attempt × Work) :=
  PFun.fix (serveRound m route) (attempts, w)

def serveAllLoop (m : Moment) : (blocked : List Route) → List (RequestId × Route) →
    List Attempt → Work → Part (List Attempt × Work)
  | _, [], attempts, w => pure (attempts, w)
  | blocked, (id, route) :: rest, attempts, w =>
    if route ∈ blocked then serveAllLoop m blocked rest attempts w
    else do
      match ← w.provideLoop m route with
      | (taken, some g, w) =>
        serveAllLoop m blocked rest (attempts ++ [⟨(id, route), taken⟩]) (w.grant id g)
      | (taken, none, w) =>
        serveAllLoop m (route :: blocked) rest (attempts ++ [⟨(id, route), taken⟩]) w

def dispatchLoop (m : Moment) (first : Option Route) (w : Work) : Part (List Attempt × Work) := do
  let (attempts, w) ←
    match first with
    | some r => w.serveLoop m r []
    | none => pure ([], w)
  w.serveAllLoop m first.toList w.pool.waiting attempts

theorem reuseRound_cons (h : Sound held w.pool) (hr : e.record.route = r) {rest : List Idle}
    (ha : (w.pool.lane r).available = e :: rest) (taken : List Idle) :
    reuseRound m r (taken, w) =
      if e.isFit m w.pool.policy.validateAfter then
        .inl (taken ++ [e], some e,
          (((w.report (e.inspection m w.pool.policy.validateAfter)).note
            (.reuse e.record.id r)).change (Pool.takeOut e)).change (Pool.lease e.record))
      else
        .inr (taken ++ [e], (((w.report (e.inspection m w.pool.policy.validateAfter)).note
          (.closeInvalid e.record.id r)).change (Pool.takeOut e)).close e.conn) := by
  have hsplit : (w.pool.lane r).available = [] ++ e :: rest := ha
  have htake := h.takeOut_eq hr hsplit
  rw [List.nil_append] at htake
  rw [reuseRound, ha]
  simp only [change, htake]
  rfl

def Takes (w : Work) (taken : List Idle) (u : Work) : Prop :=
  (taken : Multiset Idle) + u.pool.stock = w.pool.stock

namespace Takes

variable {es ds : List Idle}

theorem of_stock (h : u.pool.stock = w.pool.stock) : w.Takes [] u := by
  rw [Takes, h]
  exact zero_add _

theorem cons (h : Sound held w.pool) (he : e ∈ (w.pool.lane e.record.route).available)
    (hu : (w.pool.takeOut e).Relanes u.pool) (hv : u.Takes es v) : w.Takes (e :: es) v := by
  rw [Takes, ← Pool.stock_takeOut he, ← Pool.stock_relane (h.takeOut he).tidy hu, ← hv,
    ← Multiset.cons_coe, Multiset.cons_add]

theorem trans (hu : w.Takes es u) (hv : u.Takes ds v) : w.Takes (es ++ ds) v := by
  rw [Takes, ← hu, ← hv, ← Multiset.coe_add, add_assoc]

end Takes

theorem reuseLoop_eq (h : Sound held w.pool) {l : List Idle} (ha : (w.pool.lane r).available = l)
    (before : List Idle) : ∃ taken,
      w.reuseLoop m r before = .some (before ++ taken, w.reuse m r l) ∧
        w.Takes taken (w.reuse m r l).2 := by
  induction l generalizing w before with
  | nil =>
    refine ⟨[], fix_of_inl (congrArg Part.some ?_), .of_stock rfl⟩
    rw [reuseRound, ha, List.append_nil]
    rfl
  | cons e rest ih =>
    have hr : e.record.route = r := h.home r e (by simp [ha])
    have hmem : e ∈ (w.pool.lane e.record.route).available := by simp [hr, ha]
    have hround := reuseRound_cons (m := m) h hr ha before
    rw [reuse_cons h hr ha]
    split at hround
    · next hfit =>
      rw [if_pos hfit]
      refine ⟨[e], fix_of_inl (congrArg Part.some hround), ?_⟩
      refine .cons h hmem (u := w.change (Pool.takeOut e)) (.refl _) (.of_stock ?_)
      exact Pool.stock_lease ..
    · next hfit =>
      rw [if_neg hfit]
      have hrest : ((w.pool.takeOut e).lane r).available = rest := by
        rw [Pool.lane_takeOut, if_pos hr.symm, hr, ha, List.erase_cons_head]
      obtain ⟨taken, hloop, htakes⟩ := ih (w := (((w.report
        (e.inspection m w.pool.policy.validateAfter)).note (.closeInvalid e.record.id r)).change
          (Pool.takeOut e)).close e.conn) (h.takeOut hmem) hrest (before ++ [e])
      rw [List.append_assoc] at hloop
      exact ⟨e :: taken, (fix_of_inr (congrArg Part.some hround)).trans hloop,
        .cons h hmem (.refl _) htakes⟩

theorem makeRoomLoop_of_done (n : Nat)
    (hdone : w.pool.allocated < w.pool.limits.total ∨ w.pool.idle = []) (before : List Idle) :
    ∃ taken, w.makeRoomLoop r before = .some (before ++ taken, w.makeRoom r n) ∧
      w.Takes taken (w.makeRoom r n).2 := by
  by_cases hlt : w.pool.allocated < w.pool.limits.total
  · rw [makeRoom_of_lt n hlt]
    refine ⟨[], fix_of_inl (congrArg Part.some ?_), .of_stock rfl⟩
    rw [makeRoomRound, if_pos hlt, List.append_nil]
  · have hi := hdone.resolve_left hlt
    rw [makeRoom_of_idle_eq_nil n hlt hi]
    refine ⟨[], fix_of_inl (congrArg Part.some ?_), .of_stock rfl⟩
    rw [makeRoomRound, if_neg hlt, evict_eq_none hi, List.append_nil]

theorem makeRoomLoop_eq (h : Sound held w.pool) {n : Nat} (hn : w.pool.idle.length ≤ n)
    (before : List Idle) : ∃ taken,
      w.makeRoomLoop r before = .some (before ++ taken, w.makeRoom r n) ∧
        w.Takes taken (w.makeRoom r n).2 := by
  induction n generalizing w before with
  | zero =>
    exact makeRoomLoop_of_done 0 (.inr (List.eq_nil_of_length_eq_zero (Nat.le_zero.1 hn))) before
  | succ n ih =>
    by_cases hdone : w.pool.allocated < w.pool.limits.total ∨ w.pool.idle = []
    · exact makeRoomLoop_of_done (n + 1) hdone before
    · -- the round evicts a connection, so one less is available for those after it
      obtain ⟨hlt, hi⟩ := not_or.1 hdone
      obtain ⟨k, ks, hidle⟩ := List.exists_cons_of_ne_nil hi
      obtain ⟨e, he, rfl, hevict⟩ := evict_eq h hidle
      have hlen : (w.pool.pull e).idle.length ≤ n := by
        rw [hidle] at hn
        rw [Pool.idle_pull_of_head hidle]
        exact Nat.le_of_succ_le_succ hn
      let v := ((w.change (Pool.pull e)).note
        (.evict e.record.id e.record.route r)).close e.conn
      have hround : makeRoomRound r (before, w) = .inr (before ++ [e], v) := by
        rw [makeRoomRound, if_neg hlt, hevict]
      obtain ⟨taken, hloop, htakes⟩ := ih (w := v) (h.pull he) hlen (before ++ [e])
      rw [List.append_assoc] at hloop
      rw [makeRoom_succ hlt hevict]
      exact ⟨e :: taken, (fix_of_inr (congrArg Part.some hround)).trans hloop,
        .cons h he (Pool.relanes_pull e w.pool) htakes⟩

theorem stock_reserve (m : Moment) (r : Route) (w : Work) :
    (w.reserve m r).2.pool.stock = w.pool.stock :=
  Pool.stock_lease (w.reserve m r).1 { w.pool with lastEntry := w.pool.lastEntry + 1 }

theorem seekLoop_eq (h : Sound held w.pool) : ∃ taken,
    w.seekLoop m r = .some (taken, w.seek m r) ∧ w.Takes taken (w.seek m r).2 := by
  obtain ⟨taken, hloop, htakes⟩ := reuseLoop_eq (m := m) h (r := r) rfl []
  obtain ⟨v, hv, hend⟩ := reuse_moves (m := m) (c := 0) h (r := r) rfl
  unfold seekLoop seek
  simp only [hloop, List.nil_append, Part.bind_eq_bind, Part.bind_some]
  rcases hend with ⟨-, hreuse⟩ | ⟨e, rest, -, -, -, hreuse⟩
  · have hsound : Sound held v.pool := Scene.IsSound.sheds (s := ⟨held, 0, w⟩) h hv
    rw [hreuse] at htakes ⊢
    dsimp only
    split
    · exact ⟨taken, rfl, htakes⟩
    · obtain ⟨evicted, hloop, hevicts⟩ := makeRoomLoop_eq (r := r) hsound le_rfl taken
      obtain ⟨u, hu, hend⟩ := makeRoom_moves (c := 0) hsound (r := r) (le_refl v.pool.idle.length)
      simp only [hloop, Part.bind_some]
      rcases hend with ⟨-, hroom⟩ | ⟨-, -, hroom⟩
      · rw [hroom] at hevicts ⊢
        refine ⟨taken ++ evicted, rfl, htakes.trans ?_⟩
        rwa [Takes, stock_reserve]
      · rw [hroom] at hevicts ⊢
        exact ⟨taken ++ evicted, rfl, htakes.trans hevicts⟩
  · rw [hreuse] at htakes ⊢
    exact ⟨taken, rfl, htakes⟩

theorem provideLoop_eq (h : Sound held w.pool) : ∃ taken,
    w.provideLoop m r = .some (taken, w.provide m r) ∧ w.Takes taken (w.provide m r).2 := by
  obtain ⟨taken, hloop, htakes⟩ :=
    seekLoop_eq (w := w.change (Pool.openLane r)) (m := m) (r := r) (h.openLane r)
  have hopen : w.Takes [] (w.change (Pool.openLane r)) :=
    .of_stock (Pool.stock_relane h.tidy (Pool.relanes_openLane w.pool r))
  exact ⟨taken, hloop, hopen.trans htakes⟩

theorem waiting_grant (h : Sound held w.pool)
    (hid : (w.pool.lane r).queue.head? = some id) (g : Grant) :
    (w.grant id g).pool.waiting = w.pool.waiting.remove id := by
  have hpending := h.head_pending hid
  rw [Work.grant_eq g hpending]
  exact Pool.waiting_withdraw (h.queued.get?_waiting.2 hpending)

theorem stock_grant (h : Sound held w.pool)
    (hid : (w.pool.lane r).queue.head? = some id) (g : Grant) :
    (w.grant id g).pool.stock = w.pool.stock := by
  have hpending := h.head_pending hid
  rw [Work.grant_eq g hpending]
  exact Pool.stock_withdraw h.tidy (h.queued.get?_waiting.2 hpending)

/-- Between `w` and `v` requests were tried, and these available connections taken out for them.  Who
waits in the end waited before. -/
structure Tries (w : Work) (attempts : List Attempt) (v : Work) : Prop where
  takes : w.Takes (attempts.flatMap Attempt.taken) v
  waiting : v.pool.waiting.Sublist w.pool.waiting

namespace Tries

variable {attempts others : List Attempt} {taken : List Idle}

theorem nil (w : Work) : w.Tries [] w := ⟨.of_stock rfl, List.Sublist.refl _⟩

theorem one {x : RequestId × Route} (htakes : w.Takes taken u)
    (hwaiting : u.pool.waiting.Sublist w.pool.waiting) : w.Tries [⟨x, taken⟩] u :=
  ⟨by rwa [List.flatMap_singleton], hwaiting⟩

theorem append (h : w.Tries attempts u) (k : u.Tries others v) : w.Tries (attempts ++ others) v := by
  refine ⟨?_, k.waiting.trans h.waiting⟩
  rw [List.flatMap_append]
  exact h.takes.trans k.takes

end Tries

theorem try_head (h : Sound held w.pool) {ids : List RequestId}
    (hq : (w.pool.lane r).queue = id :: ids) : ∃ taken,
    (∃ g u, w.provide m r = (some g, u) ∧ w.provideLoop m r = .some (taken, some g, u) ∧
      Served m held 0 [(id, g)] w (u.grant id g) ∧ w.Tries [⟨(id, r), taken⟩] (u.grant id g) ∧
      ∀ s, ((u.grant id g).pool.lane s).queue = if s = r then ids else (w.pool.lane s).queue) ∨
    ∃ u, w.provide m r = (none, u) ∧ w.provideLoop m r = .some (taken, none, u) ∧
      Served m held 0 [] w u ∧ w.Tries [⟨(id, r), taken⟩] u ∧ u.pool.Stuck r ∧
      ∀ s, (u.pool.lane s).queue = (w.pool.lane s).queue := by
  obtain ⟨taken, hloop, htakes⟩ := provideLoop_eq (m := m) h (r := r)
  refine ⟨taken, ?_⟩
  rcases serve_round (m := m) (c := 0) h hq with
    ⟨g, u, hprovide, rfl, hgain, hid, hqueue⟩ | ⟨u, hprovide, hstuck, hgain⟩
  · rw [hprovide] at hloop htakes
    have hu : Sound (g ::ₘ held) u.pool := Scene.IsSound.gains (s := ⟨held, 0, w⟩) h hgain
    refine .inl ⟨g, u, hprovide, hloop, .next hgain hid (.rest .refl), .one ?_ ?_, hqueue⟩
    · rwa [Takes, stock_grant hu hid]
    · rw [waiting_grant hu hid, Table.remove_eq_filter, hgain.sameQueues.waiting]
      exact List.filter_sublist
  · rw [hprovide] at hloop htakes
    refine .inr ⟨u, hprovide, hloop, .rest hgain, .one htakes ?_, hstuck, hgain.sameQueues.queue⟩
    exact hgain.sameQueues.waiting ▸ List.Sublist.refl _

section Round

variable {ids : List RequestId} {taken : List Idle}

theorem serveRound_of_some (hq : (w.pool.lane r).queue = id :: ids)
    (hloop : w.provideLoop m r = .some (taken, some g, u)) (before : List Attempt) :
    serveRound m r (before, w) = .some (.inr (before ++ [⟨(id, r), taken⟩], u.grant id g)) := by
  rw [serveRound, hq]
  simp only [hloop, Part.bind_eq_bind, Part.bind_some]
  rfl

theorem serveRound_of_none (hq : (w.pool.lane r).queue = id :: ids)
    (hloop : w.provideLoop m r = .some (taken, none, u)) (before : List Attempt) :
    serveRound m r (before, w) = .some (.inl (before ++ [⟨(id, r), taken⟩], u)) := by
  rw [serveRound, hq]
  simp only [hloop, Part.bind_eq_bind, Part.bind_some]
  rfl

end Round

theorem serveLoop_of_nil (hq : (w.pool.lane r).queue = []) (before : List Attempt) :
    w.serveLoop m r before = .some (before ++ [], w) := by
  refine fix_of_inl ?_
  rw [serveRound, hq, List.append_nil]
  rfl

theorem serveLoop_eq (h : Sound held w.pool) {n : Nat} (hn : (w.pool.lane r).queue.length ≤ n)
    (before : List Attempt) : ∃ attempts,
      w.serveLoop m r before = .some (before ++ attempts, w.serve m r n) ∧
      w.Tries attempts (w.serve m r n) ∧
        attempts.map Attempt.request <+: (w.pool.lane r).queue.map (·, r) := by
  induction n generalizing w before with
  | zero =>
    have hq := List.eq_nil_of_length_eq_zero (Nat.le_zero.1 hn)
    exact ⟨[], serveLoop_of_nil hq before, .nil w, List.nil_prefix⟩
  | succ n ih =>
    rw [serve]
    cases hq : (w.pool.lane r).queue with
    | nil => exact ⟨[], serveLoop_of_nil hq before, .nil w, List.nil_prefix⟩
    | cons id ids =>
      obtain ⟨taken, ⟨g, u, hprovide, hloop, hserved, htries, hqueue⟩ |
        ⟨u, hprovide, hloop, -, htries, -⟩⟩ := try_head (m := m) h hq
      · -- the head was served and left the queue, so the rest of it bounds the rounds to come
        have hrest : ((u.grant id g).pool.lane r).queue = ids := by rw [hqueue, if_pos rfl]
        rw [hq] at hn
        obtain ⟨attempts, hserve, hafter, hfront⟩ :=
          ih (hserved.sound h) (hrest ▸ Nat.le_of_succ_le_succ hn) (before ++ [⟨(id, r), taken⟩])
        rw [hrest] at hfront
        rw [List.append_assoc] at hserve
        simp only [hprovide]
        exact ⟨⟨(id, r), taken⟩ :: attempts,
          (fix_of_inr (serveRound_of_some hq hloop before)).trans hserve,
          htries.append hafter, List.cons_prefix_cons.2 ⟨rfl, hfront⟩⟩
      · simp only [hprovide]
        exact ⟨[⟨(id, r), taken⟩], fix_of_inl (serveRound_of_none hq hloop before), htries,
          List.cons_prefix_cons.2 ⟨rfl, List.nil_prefix⟩⟩

theorem serveAllLoop_eq (h : Sound held w.pool) {blocked : List Route}
    {rest : List (RequestId × Route)} (hrest : w.Round blocked rest) (before : List Attempt) :
    ∃ attempts,
      w.serveAllLoop m blocked rest before = .some (before ++ attempts, w.serveAll m blocked rest) ∧
      w.Tries attempts (w.serveAll m blocked rest) ∧
        (attempts.map Attempt.request).Sublist (rest.filter (·.2 ∉ blocked)) := by
  induction rest generalizing w blocked before with
  | nil =>
    refine ⟨[], ?_, .nil w, List.nil_sublist _⟩
    rw [List.append_nil]
    rfl
  | cons x rest ih =>
    obtain ⟨id, r⟩ := x
    rw [serveAllLoop, serveAll]
    split
    · next hmem =>
      rw [List.filter_cons_of_neg (by simpa using hmem)]
      exact ih h (hrest.pass hmem) before
    · next hmem =>
      rw [List.filter_cons_of_pos (by simpa using hmem)]
      obtain ⟨taken, ⟨g, u, hprovide, hloop, hserved, htries, hqueue⟩ |
        ⟨u, hprovide, hloop, hserved, htries, hstuck, hqueue⟩⟩ :=
          try_head (m := m) h (hrest.queue hmem)
      · obtain ⟨attempts, hserve, hafter, hsub⟩ :=
          ih (hserved.sound h) (hrest.serve hmem (hserved.draws h) hqueue)
            (before ++ [⟨(id, r), taken⟩])
        rw [List.append_assoc] at hserve
        simp only [hloop, hprovide, hserve, Part.bind_eq_bind, Part.bind_some]
        exact ⟨_, rfl, htries.append hafter, hsub.cons_cons _⟩
      · obtain ⟨attempts, hserve, hafter, hsub⟩ :=
          ih (hserved.sound h) (hrest.block (hserved.draws h) hqueue hstuck)
            (before ++ [⟨(id, r), taken⟩])
        have hfewer : (rest.filter (·.2 ∉ r :: blocked)).Sublist (rest.filter (·.2 ∉ blocked)) := by
          refine List.monotone_filter_right rest fun x hx => ?_
          simp only [List.mem_cons, not_or, decide_eq_true_eq] at hx ⊢
          exact hx.2
        rw [List.append_assoc] at hserve
        simp only [hloop, hprovide, hserve, Part.bind_eq_bind, Part.bind_some]
        exact ⟨_, rfl, htries.append hafter, (hsub.trans hfewer).cons_cons _⟩

theorem requests_of_route (h : Sound held w.pool) (r : Route) :
    (w.pool.lane r).queue.map (·, r) = w.pool.waiting.filter (·.2 = r) := by
  have hsame : ∀ x ∈ w.pool.waiting.filter (·.2 = r), (x.1, r) = x := by
    intro x hx
    rw [← of_decide_eq_true (List.mem_filter.1 hx).2]
  rw [h.queued.queue, List.map_map]
  exact (List.map_congr_left hsame).trans (List.map_id _)

theorem dispatchLoop_eq (h : Sound held w.pool) (m : Moment) (first : Option Route) :
    ∃ attempts, w.dispatchLoop m first = .some (attempts, w.dispatch m first) ∧
      w.Tries attempts (w.dispatch m first) ∧
        (attempts.map Attempt.request).Subperm w.pool.waiting := by
  cases first with
  | none =>
    obtain ⟨attempts, hloop, htries, hsub⟩ := serveAllLoop_eq (m := m) h (round_waiting h) []
    refine ⟨attempts, ?_, htries, (hsub.trans List.filter_sublist).subperm⟩
    rw [dispatchLoop, Part.bind_eq_bind, Part.pure_eq_some, Part.bind_some]
    exact hloop
  | some r =>
    obtain ⟨attempts, hloop, htries, hfront⟩ := serveLoop_eq (m := m) h (r := r) le_rfl []
    obtain ⟨_, hserved, -⟩ :=
      serve_served (m := m) (c := 0) (r := r) h (w.pool.lane r).queue.length
    obtain ⟨others, hloop', htries', hsub⟩ :=
      serveAllLoop_eq (m := m) (hserved.sound h) (round_serve h) attempts
    refine ⟨attempts ++ others, ?_, htries.append htries', ?_⟩
    · rw [dispatchLoop, Part.bind_eq_bind, hloop, Part.bind_some]
      exact hloop'
    · rw [requests_of_route h] at hfront
      have hnot : (fun x : RequestId × Route => decide (x.2 ∉ [r])) = fun x => !decide (x.2 = r) := by
        funext x
        simp
      have hback := hsub.trans (htries.waiting.filter (·.2 ∉ [r]))
      rw [hnot] at hback
      rw [List.map_append]
      exact (hfront.sublist.append hback).subperm.trans (List.filter_append_perm _ _).subperm

/-- A dispatch ends.  Each request that it serves leaves its queue and those who wait, and the records
agree again; so it tries to find a connection no more often than requests wait, for none of them twice.
The connections that it takes out on the way are different ones, and those that it leaves are the others. -/
theorem dispatch_ends (h : Sound held w.pool) (m : Moment) (first : Option Route) :
    let p := w.pool
    let v := w.dispatch m first
    (∀ r id ids g u, (p.lane r).queue = id :: ids → w.provide m r = (some g, u) →
      let q := (u.grant id g).pool
      Sound held q ∧ (id, r) ∈ p.waiting ∧ q.waiting = p.waiting.remove id ∧
        ∀ s, (q.lane s).queue = if s = r then ids else (p.lane s).queue) ∧
    ∃ attempts, w.dispatchLoop m first = .some (attempts, v) ∧
      (attempts.map (·.request.1)).Nodup ∧ (∀ x ∈ attempts, x.request ∈ p.waiting) ∧
      attempts.length ≤ p.waiting.length + (p.lanes.filter (·.2.queue ≠ [])).length ∧
      ((attempts.flatMap Attempt.taken).map Idle.id).Nodup ∧
      (attempts.flatMap Attempt.taken : Multiset Idle) + v.pool.stock = p.stock := by
  intro p v
  refine ⟨fun r id ids g u hq hprovide => ?_, ?_⟩
  · rcases serve_round (m := m) (c := 0) h hq with
      ⟨g', u', hsome, rfl, hgain, hid, hqueue⟩ | ⟨u', hnone, -⟩
    · obtain ⟨rfl, rfl⟩ : g' = g ∧ u' = u := by simpa [hsome] using hprovide
      have hu : Sound (g' ::ₘ held) u'.pool := Scene.IsSound.gains (s := ⟨held, 0, w⟩) h hgain
      have hpending : w.pool.requests.get? id = some { route := g'.record.route } :=
        h.head_pending (by rw [hq]; rfl)
      refine ⟨Served.sound_grant h hgain hid, (h.queued.pending _ _).2 hpending, ?_, hqueue⟩
      rw [waiting_grant hu hid, hgain.sameQueues.waiting]
    · simp [hnone] at hprovide
  · obtain ⟨attempts, hloop, htries, hsub⟩ := dispatchLoop_eq h m first
    have hlen := hsub.length_le
    rw [List.length_map] at hlen
    have hle : (attempts.flatMap Attempt.taken : Multiset Idle) ≤ p.stock :=
      htries.takes ▸ Multiset.le_add_right _ _
    refine ⟨attempts, hloop, ?_, fun x hx => hsub.subset (List.mem_map_of_mem hx),
      hlen.trans (Nat.le_add_right _ _), ?_, htries.takes⟩
    · obtain ⟨xs, hperm, hxs⟩ := hsub
      have hn : (xs.map Prod.fst).Nodup := h.queued.waiting_keys.sublist (hxs.map Prod.fst)
      rw [(hperm.map Prod.fst).nodup_iff, List.map_map] at hn
      exact hn
    · exact Multiset.coe_nodup.1 (Multiset.nodup_of_le (Multiset.map_le_map hle) h.stock_ids)

theorem dispatch_ends_evicting :
    let ops := [.lease Sample.route none, .lease Sample.route none, .lease Sample.route none,
      .lease Sample.otherRoute none, .get ⟨4⟩ false,
      .connected (.fresh ⟨3⟩ Sample.otherRoute 0 none) ⟨1⟩, .release ⟨3⟩ true none].map
        (Prod.mk Sample.calm)
    let t := ((Life.start { Sample.conf with maxTotal := 3 }).run ops).tenancy.relimit
      fun k => { k with perRoute := 3 }
    let w : Work := { pool := t.pool }
    let v := w.dispatch Sample.calm (some Sample.route)
    Sound t.out w.pool ∧ w.pool.waiting = [(⟨3⟩, Sample.route)] ∧ v.pool.waiting = [] ∧
      ∃ attempts, w.dispatchLoop Sample.calm (some Sample.route) = .some (attempts, v) ∧
        attempts.length ≤ 1 + 1 ∧ (attempts.flatMap Attempt.taken).map Idle.id = [⟨3⟩] := by
  intro ops t w v
  have h : Sound t.out w.pool := (Tenancy.relimit_sound (Life.run_sound _ ops) _).sound
  have hstock : w.pool.stock.map Idle.id = {⟨3⟩} := by decide
  have hnone : v.pool.stock = 0 := by decide
  obtain ⟨-, attempts, hloop, -, -, hlen, -, htaken⟩ :=
    dispatch_ends h Sample.calm (some Sample.route)
  have hall : (attempts.flatMap Attempt.taken : Multiset Idle) + v.pool.stock = w.pool.stock := htaken
  rw [hnone, add_zero] at hall
  have hids := congrArg (Multiset.map Idle.id) hall
  rw [hstock, Multiset.map_coe, Multiset.coe_eq_singleton] at hids
  exact ⟨h, by decide, by decide, attempts, hloop, hlen, hids⟩

/-- A slot is free for the first of the queue, who is in no other record. -/
structure Strays (w : Work) (r : Route) (id : RequestId) : Prop where
  queue : (w.pool.lane r).queue.head? = some id
  waiting : w.pool.waiting.get? id = none
  requests : w.pool.requests.get? id = none
  isShut : w.pool.isShut = false
  available : (w.pool.lane r).available = []
  route : (w.pool.lane r).leased.length < w.pool.limits.forRoute r
  total : w.pool.allocated < w.pool.limits.total

theorem length_erase_lease (l : Lane) (id : EntryId) :
    ((l.lease id).leased.erase id).length ≤ l.leased.length := by
  by_cases hid : id ∈ l.leased
  · rw [Lane.lease, List.insert_of_mem hid]
    exact List.erase_sublist.length_le
  · rw [Lane.lease, List.insert_of_not_mem hid, List.erase_cons_head]

theorem Strays.round (h : w.Strays r id) (m : Moment) :
    ∃ g u, w.provideLoop m r = .some ([], some g, u) ∧ (u.grant id g).Strays r id := by
  refine ⟨.create (w.reserve m r).1, (w.reserve m r).2, ?_, ?_⟩
  · have hroute : ¬ w.pool.limits.forRoute r ≤ (w.pool.lane r).allocated := by
      rw [Lane.allocated, h.available]
      exact not_le.2 h.route
    have hreuse : w.reuseLoop m r [] = .some ([], none, w) := by
      refine fix_of_inl (congrArg Part.some ?_)
      rw [reuseRound, h.available]
    have hroom : w.makeRoomLoop r [] = .some ([], true, w) := by
      refine fix_of_inl (congrArg Part.some ?_)
      rw [makeRoomRound, if_pos h.total]
    have hqueue : (w.pool.lane r).queue ≠ [] := by
      intro hq
      simpa [hq] using h.queue
    unfold provideLoop seekLoop
    rw [change_openLane hqueue]
    simp only [hreuse, Part.bind_eq_bind, Part.bind_some, if_neg hroute, hroom]
    rfl
  · let t := (w.reserve m r).1
    let q := (w.reserve m r).2.pool
    have hroute : r = t.route := rfl
    have hlane : q.lane r = (w.pool.lane r).lease t.id :=
      (Pool.lane_lease r).trans (if_pos hroute)
    have hfreed : q.unlease? t = some (q.freed t) := by
      refine Pool.unlease?_eq_some_iff.2 ⟨h.isShut, ?_, rfl⟩
      change t.id ∈ (q.lane r).leased
      rw [hlane]
      exact List.mem_insert_self
    have hwithdraw : q.withdraw id = q := by
      have hnone : q.waiting.get? id = none := h.waiting
      rw [Pool.withdraw, hnone]
    have hrequests : q.requests.get? id = none := h.requests
    have hgrant : ((w.reserve m r).2.grant id (.create t)).pool = (q.freed t).prune r := by
      simp only [Work.grant, pool_change, q, hwithdraw, hrequests, pool_note, hfreed,
        Option.getD_some]
      rfl
    have hprune := Pool.relanes_prune (q.freed t) r
    have hback : ((q.freed t).prune r).lane r =
        { w.pool.lane r with leased := ((w.pool.lane r).lease t.id).leased.erase t.id } := by
      rw [hprune.lane, Pool.lane_freed, if_pos hroute, ← hroute, hlane]
      rfl
    constructor
    case queue => rw [hgrant, hback]; exact h.queue
    case waiting => rw [hgrant, hprune.waiting]; exact h.waiting
    case requests => rw [hgrant, hprune.requests]; exact h.requests
    case isShut => rw [hgrant, hprune.draws.isShut]; exact h.isShut
    case available => rw [hgrant, hback]; exact h.available
    case route =>
      rw [hgrant, hback, hprune.draws.limits]
      exact (length_erase_lease _ _).trans_lt h.route
    case total => rw [hgrant, hprune.allocated, hprune.draws.limits]; exact h.total

/-- Where the first of a queue is in no other record the loop does not end. -/
theorem serveLoop_eq_none (h : w.Strays r id) (before : List Attempt) :
    w.serveLoop m r before = .none := by
  refine Part.eq_none_iff.2 fun x hx => ?_
  have hnever : ¬ (before, w).2.Strays r id := by
    refine PFun.fixInduction hx fun ⟨attempts, u⟩ _ ih hu => ?_
    obtain ⟨g, v, hprovide, hnext⟩ := hu.round m
    obtain ⟨ids, hq⟩ := List.head?_eq_some_iff.1 hu.queue
    exact ih _ (Part.eq_some_iff.1 (serveRound_of_some hq hprovide attempts)) hnext
  exact hnever h

example :
    let lane : Lane := { queue := [⟨1⟩] }
    Strays { pool := { Pool.ofConf Sample.conf with lanes := [(Sample.route, lane)] } }
      Sample.route ⟨1⟩ :=
  ⟨rfl, rfl, rfl, rfl, rfl, by decide, by decide⟩

end Work

end ConnectionPool
