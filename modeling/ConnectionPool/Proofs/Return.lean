import ConnectionPool.Proofs.Dispatch

namespace ConnectionPool

variable {held : Multiset Grant} {c : Multiset Conn} {w : Work} {e : Idle} {m : Moment}

namespace Work

theorem dispatch_tail {s : Scene} (hs : s.IsSound) (first : Option Route)
    (h : Trades m s ⟨held, c, w⟩) : Trades m s ⟨held, c, w.dispatch m first⟩ :=
  h.trans (dispatch_moves (hs.trades h) first).trades

theorem note_tail {s : Scene} (n : Notice) (hn : Report.isPlain (.noted n))
    (h : Trades m s ⟨held, c, w⟩) : Trades m s ⟨held, c, w.note n⟩ :=
  h.tail (.serve (.gain (.shed (shed_note n hn))))

theorem prune_tail {s : Scene} (r : Route) (h : Trades m s ⟨held, c, w⟩) :
    Trades m s ⟨held, c, w.change (Pool.prune r)⟩ :=
  h.tail (.serve (.gain (.shed (.relane (Pool.prune r) (Pool.relanes_prune w.pool r)))))

theorem putBack_moves (e : Idle) :
    Moves m ⟨.reuse e ::ₘ held, c, w⟩ ⟨held, c, w.putBack e⟩ := by
  cases hshut : w.pool.isShut with
  | false => exact .single (.restore hshut)
  | true =>
    have hnone : w.pool.unlease? e.record = none := by simp [Pool.unlease?, hshut]
    have hback : w.putBack e = w.close e.conn := by rw [putBack, hnone]
    rw [hback]
    exact .single (.trade (.lose (g := .reuse e) hshut))

theorem vacate_of_shut {t : Record} (hshut : w.pool.isShut = true) : w.vacate m t = w := by
  simp [vacate, Pool.unlease?, hshut]

theorem vacate_eq {t : Record} (h : Sound (.create t ::ₘ held) w.pool)
    (hopen : w.pool.isShut = false) :
    w.vacate m t = (({ w with pool := w.pool.freed t } : Work).dispatch m (some t.route)).change
      (Pool.prune t.route) := by
  have hf : w.pool.unlease? t = some (w.pool.freed t) := h.unlease?_eq hopen
  rw [vacate, hf]

theorem vacate_trades {t : Record} (h : Sound (.create t ::ₘ held) w.pool) :
    Trades m ⟨.create t ::ₘ held, c, w⟩ ⟨held, c, w.vacate m t⟩ := by
  cases hshut : w.pool.isShut with
  | true =>
    have hlose : Trade m ⟨.create t ::ₘ held, c, w⟩
        ⟨held, c, { w with closing := w.closing ++ (Grant.create t).conns }⟩ := .lose hshut
    rw [Grant.conns_create, List.append_nil] at hlose
    rw [vacate_of_shut hshut]
    exact .single hlose
  | false =>
    have hfree : Trade m ⟨.create t ::ₘ held, c, w⟩
        ⟨held, c, ⟨w.pool.freed t, w.closing ++ (Grant.create t).conns, w.reports⟩⟩ := .free hshut
    rw [Grant.conns_create, List.append_nil] at hfree
    rw [vacate_eq h hshut]
    exact prune_tail t.route
      (dispatch_tail (s := ⟨.create t ::ₘ held, c, w⟩) h (some t.route) (.single hfree))

theorem vacate_settled {t : Record} (h : Sound (.create t ::ₘ held) w.pool) :
    (w.vacate m t).pool.Settled := by
  cases hshut : w.pool.isShut with
  | true =>
    rw [vacate_of_shut hshut]
    exact Pool.settled_of_shut h hshut
  | false =>
    rw [vacate_eq h hshut]
    exact (dispatch_settled (h.freed (h.mem_leased hshut)) _).relane (Pool.relanes_prune _ _)

def receive (m : Moment) (e : Idle) (reusable : Bool) (v : Option Span) (w : Work) : Work :=
  let p := w.pool.freed e.record
  let full := p.limits.forRoute e.record.route ≤ (p.lane e.record.route).allocated ||
    p.limits.total ≤ p.allocated
  let w := { w with pool := p }
  let w := if reusable && !full then w.report [.askedOpen e.conn] else w
  if reusable && !full && m.isOpen e.conn then w.keep m e.record e.conn v
  else if full then (w.note (.closeOverLimit e.record.id e.record.route)).close e.conn
  else (w.note (.closeReleased e.record.id e.record.route)).close e.conn

theorem takeBack_eq (h : Sound (.reuse e ::ₘ held) w.pool) (hopen : w.pool.isShut = false)
    (reusable : Bool) (v : Option Span) :
    w.takeBack m e.record e.conn reusable v =
      (none, ((w.receive m e reusable v).dispatch m (some e.record.route)).change
        (Pool.prune e.record.route)) := by
  have hf : w.pool.unlease? e.record = some (w.pool.freed e.record) := h.unlease?_eq hopen
  unfold takeBack
  rw [hopen, hf]
  rfl

theorem receive_trades (hopen : w.pool.isShut = false) (reusable : Bool) (v : Option Span) :
    Trades m ⟨.reuse e ::ₘ held, c, w⟩ ⟨held, c, w.receive m e reusable v⟩ := by
  have hclose (w : Work) (n : Notice) (hopen : w.pool.isShut = false)
      (hn : Report.isPlain (.noted n)) : Trades m ⟨.reuse e ::ₘ held, c, w⟩
      ⟨held, c, (({ w with pool := w.pool.freed e.record } : Work).note n).close e.conn⟩ :=
    note_tail (w := { w with pool := w.pool.freed e.record, closing := w.closing ++ [e.conn] }) n
      hn (.single (.free (g := .reuse e) hopen))
  have hasked : Trades m ⟨.reuse e ::ₘ held, c, w⟩
      ⟨.reuse e ::ₘ held, c, w.report [.askedOpen e.conn]⟩ :=
    .single (.serve (.gain (.shed (.report _ (List.forall_mem_singleton.2 rfl)))))
  unfold receive
  dsimp only
  generalize hfull : (decide ((w.pool.freed e.record).limits.forRoute e.record.route ≤
      ((w.pool.freed e.record).lane e.record.route).allocated) ||
    decide ((w.pool.freed e.record).limits.total ≤ (w.pool.freed e.record).allocated)) = full
  cases full with
  | true =>
    simp only [Bool.not_true, Bool.and_false, Bool.false_and, Bool.false_eq_true, if_false, if_true]
    exact hclose w _ hopen rfl
  | false =>
    simp only [Bool.or_eq_false_iff, decide_eq_false_iff_not, not_le] at hfull
    cases reusable with
    | false =>
      simp only [Bool.false_and, Bool.false_eq_true, if_false]
      exact hclose w _ hopen rfl
    | true =>
      simp only [Bool.not_false, Bool.and_self, Bool.true_and, if_true, Bool.false_eq_true, if_false]
      cases m.isOpen e.conn with
      | true => exact hasked.tail (.keep v hopen hfull.1 hfull.2)
      | false => exact hasked.trans (hclose _ _ hopen rfl)

theorem takeBack_of_shut (hshut : w.pool.isShut = true) (reusable : Bool) (v : Option Span) :
    (w.takeBack m e.record e.conn reusable v).2 = w.close e.conn := by
  simp [takeBack, hshut]

theorem takeBack_trades (h : Sound (.reuse e ::ₘ held) w.pool) (reusable : Bool)
    (v : Option Span) : Trades m ⟨.reuse e ::ₘ held, c, w⟩
      ⟨held, c, (w.takeBack m e.record e.conn reusable v).2⟩ := by
  cases hshut : w.pool.isShut with
  | true =>
    rw [takeBack_of_shut hshut]
    exact .single (.lose (g := .reuse e) hshut)
  | false =>
    rw [takeBack_eq h hshut]
    exact prune_tail e.record.route
      (dispatch_tail (s := ⟨.reuse e ::ₘ held, c, w⟩) h _ (receive_trades hshut reusable v))

theorem takeBack_settled (h : Sound (.reuse e ::ₘ held) w.pool) (reusable : Bool)
    (v : Option Span) : (w.takeBack m e.record e.conn reusable v).2.pool.Settled := by
  cases hshut : w.pool.isShut with
  | true =>
    rw [takeBack_of_shut hshut]
    exact Pool.settled_of_shut h hshut
  | false =>
    rw [takeBack_eq h hshut]
    have hsound : Sound held (w.receive m e reusable v).pool :=
      Scene.IsSound.trades (m := m) (s := ⟨.reuse e ::ₘ held, 0, w⟩) h
        (receive_trades hshut reusable v)
    exact (dispatch_settled hsound _).relane (Pool.relanes_prune _ _)

end Work

end ConnectionPool
