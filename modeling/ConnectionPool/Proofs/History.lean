import ConnectionPool.Proofs.Arrival

namespace ConnectionPool

variable {conf : Conf} {l : Life} {m : Moment} {o : Op} {t : Tenancy} {id a b : RequestId}
  {ops more : List (Moment × Op)}

def Op.submits (m : Moment) (t : Tenancy) : Op → Option RequestId
  | lease r timeout => (t.lease m r timeout).answer.toOption
  | _ => none

theorem Op.number_of_submits (h : t.IsSound) (ho : o.submits m t = some id) :
    t.pool.lastRequest < id.number ∧ id.number ≤ (t.act m o).tenancy.pool.lastRequest := by
  cases o with
  | lease r timeout =>
    change (t.lease m r timeout).answer.toOption = some id at ho
    cases Tenancy.lease_leases (m := m) (r := r) h timeout with
    | refused f hturn => simp [hturn, Except.toOption] at ho
    | enters s ticket hanswer _ _ hnumber =>
      rw [hanswer, Except.toOption, Option.some.injEq] at ho
      exact ho ▸ ⟨Nat.lt_succ_self _, hnumber⟩
  | _ => simp [submits] at ho

namespace Life

section History

variable {α : Type} {f : Moment → Tenancy → Op → Option α}

def history (f : Moment → Tenancy → Op → Option α) : Life → List (Moment × Op) → List α
  | _, [] => []
  | l, o :: ops => (f o.1 l.tenancy o.2).toList ++ history f (l.step o.1 o.2) ops

theorem history_append (l : Life) (ops more : List (Moment × Op)) :
    l.history f (ops ++ more) = l.history f ops ++ (l.run ops).history f more := by
  induction ops generalizing l with
  | nil => rfl
  | cons o ops ih =>
    rw [List.cons_append, history, ih, history, List.append_assoc]
    rfl

theorem history_append_singleton (l : Life) (ops : List (Moment × Op)) (o : Moment × Op) :
    l.history f (ops ++ [o]) = l.history f ops ++ (f o.1 (l.run ops).tenancy o.2).toList := by
  rw [history_append, history, history, List.append_nil]

end History

theorem step_sound (h : l.tenancy.IsSound) (m : Moment) (o : Op) : (l.step m o).tenancy.IsSound := by
  by_cases hp : o.isPossible l.tenancy l.made
  · rw [step_tenancy hp]
    exact Tenancy.act_sound h hp
  · rwa [step_of_not_isPossible hp]

theorem step_lastRequest_le (h : l.tenancy.IsSound) (m : Moment) (o : Op) :
    l.tenancy.pool.lastRequest ≤ (l.step m o).tenancy.pool.lastRequest := by
  by_cases hp : o.isPossible l.tenancy l.made
  · rw [step_tenancy hp]
    exact Tenancy.act_lastRequest_le h hp
  · rw [step_of_not_isPossible hp]

theorem step_slot (h : l.tenancy.IsSound) (m : Moment) (o : Op)
    (hid : id.number ≤ l.tenancy.pool.lastRequest) :
    (l.step m o).tenancy.pool.requests.get? id = o.settle id (l.tenancy.pool.requests.get? id) ∨
      ∃ g, o.settle id (l.tenancy.pool.requests.get? id) = some { route := g.record.route } ∧
        (l.step m o).tenancy.pool.requests.get? id =
          some { route := g.record.route, outcome := .granted g } := by
  by_cases hp : o.isPossible l.tenancy l.made
  · rw [step_tenancy hp]
    exact Tenancy.act_slot h hp hid
  · rw [step_of_not_isPossible hp]
    -- what may be impossible concerns a connection, and leaves the slots of requests alone
    cases o with
    | connected => exact .inl rfl
    | connectFailed => exact .inl rfl
    | _ => exact absurd rfl hp

/-- What is over stays over, and to be told of it ends it.  So it is told once. -/
theorem nodup_history {α : Type} {f : Moment → Tenancy → Op → Option α}
    {P : Tenancy → α → Prop} (hstay : ∀ l : Life, l.tenancy.IsSound → ∀ m o x,
      P l.tenancy x → P (l.step m o).tenancy x)
    (htold : ∀ l : Life, l.tenancy.IsSound → ∀ m o x, f m l.tenancy o = some x →
      ¬ P l.tenancy x ∧ P (l.step m o).tenancy x) (conf : Conf) (ops : List (Moment × Op)) :
    ((start conf).history f ops).Nodup ∧
      ∀ x ∈ (start conf).history f ops, P ((start conf).run ops).tenancy x := by
  induction ops using List.reverseRecOn with
  | nil => exact ⟨List.nodup_nil, fun x hx => absurd hx List.not_mem_nil⟩
  | append_singleton ops o ih =>
    obtain ⟨hnodup, hover⟩ := ih
    have h := run_sound conf ops
    rw [history_append_singleton, run_append_singleton]
    generalize (start conf).run ops = l at hover h
    cases hf : f o.1 l.tenancy o.2 with
    | none =>
      rw [Option.toList_none, List.append_nil]
      exact ⟨hnodup, fun x hx => hstay l h o.1 o.2 x (hover x hx)⟩
    | some y =>
      obtain ⟨hnew, hend⟩ := htold l h o.1 o.2 y hf
      rw [Option.toList_some]
      refine ⟨List.nodup_append.2 ⟨hnodup, List.nodup_singleton y, ?_⟩, fun x hx => ?_⟩
      · rintro x hx z hz rfl
        exact hnew (List.mem_singleton.1 hz ▸ hover x hx)
      · rcases List.mem_append.1 hx with hx | hx
        · exact hstay l h o.1 o.2 x (hover x hx)
        · exact List.mem_singleton.1 hx ▸ hend

abbrev submissions (l : Life) (ops : List (Moment × Op)) : List RequestId := l.history Op.submits ops

theorem submissions_sorted (conf : Conf) (ops : List (Moment × Op)) :
    ((start conf).submissions ops).Pairwise (·.number < ·.number) ∧
      ∀ id ∈ (start conf).submissions ops,
        id.number ≤ ((start conf).run ops).tenancy.pool.lastRequest := by
  induction ops using List.reverseRecOn with
  | nil => exact ⟨List.Pairwise.nil, fun id hid => absurd hid List.not_mem_nil⟩
  | append_singleton ops o ih =>
    obtain ⟨hsorted, hle⟩ := ih
    have h := run_sound conf ops
    rw [submissions, history_append_singleton, run_append_singleton]
    have hlast := step_lastRequest_le h o.1 o.2
    cases ho : o.2.submits o.1 ((start conf).run ops).tenancy with
    | none =>
      rw [Option.toList_none, List.append_nil]
      exact ⟨hsorted, fun id hid => (hle id hid).trans hlast⟩
    | some id =>
      obtain ⟨hnew, hid⟩ := Op.number_of_submits h ho
      have hp : o.2.isPossible ((start conf).run ops).tenancy ((start conf).run ops).made := by
        cases hop : o.2 <;> first | rfl | simp [hop, Op.submits] at ho
      rw [Option.toList_some, List.pairwise_append]
      refine ⟨⟨hsorted, List.pairwise_singleton _ _, fun x hx y hy => ?_⟩, fun x hx => ?_⟩
      · rw [List.mem_singleton.1 hy]
        exact (hle x hx).trans_lt hnew
      · rcases List.mem_append.1 hx with hx | hx
        · exact (hle x hx).trans hlast
        · rw [step_tenancy hp, List.mem_singleton.1 hx]
          exact hid

theorem lt_of_submitted (h : [a, b].Sublist ((start conf).submissions ops)) :
    a.number < b.number := by
  have hpair := (submissions_sorted conf ops).1.sublist h
  simpa using hpair

theorem le_of_submitted (h : id ∈ (start conf).submissions ops) :
    id.number ≤ ((start conf).run ops).tenancy.pool.lastRequest :=
  (submissions_sorted conf ops).2 id h

end Life

end ConnectionPool
