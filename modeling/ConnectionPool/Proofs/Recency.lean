import ConnectionPool.Pool.Recency
import Mathlib.Data.List.Nodup

namespace ConnectionPool

variable {σ : Type} {c : Cache σ} {s : σ} {r : Recency} {m : Mark} {id : EntryId}

namespace Recency

theorem drop_eq_self (h : id ∉ r.map Mark.id) : r.drop id = r := by
  rw [drop, List.filter_eq_self]
  intro m hm
  have hne : m.id ≠ id := by
    rintro rfl
    exact h (List.mem_map_of_mem hm)
  simpa using hne

theorem drop_eq_erase (hn : (r.map Mark.id).Nodup) (hm : m ∈ r) : r.drop m.id = r.erase m := by
  induction r with
  | nil => rfl
  | cons n r ih =>
    simp only [List.map_cons, List.nodup_cons] at hn
    rcases List.mem_cons.1 hm with rfl | hm
    · rw [List.erase_cons_head, drop, List.filter_cons_of_neg (by simp)]
      exact drop_eq_self hn.1
    · have hid : n.id ≠ m.id := fun h => hn.1 (h ▸ List.mem_map_of_mem hm)
      have hne : n ≠ m := fun h => hid (h ▸ rfl)
      rw [List.erase_cons_tail (by simpa using hne), ← ih hn.2 hm, drop, drop,
        List.filter_cons_of_pos (by simpa using hid)]

theorem add_perm (h : m.id ∉ r.map Mark.id) : (r.add m).Perm (m :: r) := by
  rw [add, drop_eq_self h]
  exact List.perm_append_singleton m r

theorem renew_eq (hn : (r.map Mark.id).Nodup) (hm : m ∈ r) : r.renew m.id = r.add m := by
  have hfind : r.find? (·.id = m.id) = some m := by
    cases hf : r.find? (·.id = m.id) with
    | none => simpa using List.find?_eq_none.1 hf m hm
    | some k =>
      have hk : k.id = m.id := by simpa using List.find?_some hf
      exact congrArg some (List.inj_on_of_nodup_map hn (List.mem_of_find?_eq_some hf) hm hk)
  simp only [renew, hfind]

end Recency

namespace Cache

def marks (c : Cache σ) (s : σ) : Recency := (c.iter s).reverse

/-- What is put or promoted becomes the last used, the oldest is the first used, and all others stay
in order. -/
structure IsLawful (c : Cache σ) : Prop where
  iter_put (s : σ) (m : Mark) : c.iter (c.put m s) = m :: (c.iter s).filter (·.id ≠ m.id)
  iter_promote {s : σ} {m : Mark} (hn : ((c.iter s).map Mark.id).Nodup) (hm : m ∈ c.iter s) :
    c.iter (c.promote m.id s) = m :: (c.iter s).filter (·.id ≠ m.id)
  iter_pop (s : σ) (id : EntryId) : c.iter (c.pop id s) = (c.iter s).filter (·.id ≠ id)
  oldest_eq (s : σ) : c.oldest s = (c.iter s).getLast?

namespace IsLawful

variable (hc : c.IsLawful)
include hc

theorem marks_put : c.marks (c.put m s) = (c.marks s).add m := by
  rw [marks, hc.iter_put, List.reverse_cons, marks, Recency.add, Recency.drop, List.filter_reverse]

theorem marks_promote (hn : ((c.marks s).map Mark.id).Nodup) (hm : m ∈ c.marks s) :
    c.marks (c.promote m.id s) = (c.marks s).erase m ++ [m] := by
  have hiter : ((c.iter s).map Mark.id).Nodup := by
    rwa [marks, List.map_reverse, List.nodup_reverse] at hn
  rw [marks, hc.iter_promote hiter (List.mem_reverse.1 hm), List.reverse_cons,
    ← Recency.drop_eq_erase hn hm, marks, Recency.drop, List.filter_reverse]

theorem marks_foldl_promote {ns : List Mark} (hn : ((c.marks s).map Mark.id).Nodup) (hns : ns.Nodup)
    (hsub : ∀ n ∈ ns, n ∈ c.marks s) :
    c.marks (ns.foldl (fun s n => c.promote n.id s) s) = (c.marks s).diff ns ++ ns := by
  induction ns generalizing s with
  | nil => simp
  | cons n ns ih =>
    rw [List.nodup_cons] at hns
    -- what is promoted goes to the end, and stays ahead of those that are promoted after it
    have hmem : n ∈ c.marks s := hsub n List.mem_cons_self
    have hpromote := hc.marks_promote hn hmem
    have hperm : (c.marks (c.promote n.id s)).Perm (c.marks s) := by
      rw [hpromote]
      exact (List.perm_append_singleton n _).trans (List.perm_cons_erase hmem).symm
    have hn' : ((c.marks (c.promote n.id s)).map Mark.id).Nodup := (hperm.map Mark.id).nodup_iff.2 hn
    have hsub' : ∀ k ∈ ns, k ∈ c.marks (c.promote n.id s) :=
      fun k hk => hperm.mem_iff.2 (hsub k (List.mem_cons_of_mem n hk))
    have hdiff : ((c.marks s).erase n ++ [n]).diff ns = ((c.marks s).erase n).diff ns ++ [n] := by
      have herase : ((c.marks s).erase n ++ [n]).Nodup := hpromote ▸ hn'.of_map
      rw [herase.sdiff_eq_filter, (hn.of_map.erase n).sdiff_eq_filter, List.filter_append]
      simp [hns.1]
    rw [List.foldl_cons, ih hn' hns.2 hsub', hpromote, hdiff, List.diff_cons, List.append_assoc]
    rfl

theorem marks_restore (hn : ((c.marks s).map Mark.id).Nodup) (hm : m.id ∉ (c.marks s).map Mark.id) :
    c.marks (c.restore m s) = (c.marks s).filter (·.released ≤ m.released) ++
      m :: (c.marks s).filter (m.released < ·.released) := by
  have hput : c.marks (c.put m s) = c.marks s ++ [m] := by
    rw [hc.marks_put, Recency.add, Recency.drop_eq_self hm]
  have hn' : ((c.marks (c.put m s)).map Mark.id).Nodup := by
    rw [hput, ((List.perm_append_singleton m _).map Mark.id).nodup_iff]
    exact List.nodup_cons.2 ⟨hm, hn⟩
  have hlater : (c.marks (c.put m s)).filter (m.released < ·.released) =
      (c.marks s).filter (m.released < ·.released) := by
    simp [hput]
  have hdiff : (c.marks (c.put m s)).diff ((c.marks s).filter (m.released < ·.released)) =
      (c.marks s).filter (·.released ≤ m.released) ++ [m] := by
    rw [hn'.of_map.sdiff_eq_filter, hput, List.filter_append]
    congr 1
    · refine List.filter_congr fun k hk => ?_
      simp [hk]
    · simp
  change c.marks (((c.marks (c.put m s)).filter (m.released < ·.released)).foldl
    (fun s n => c.promote n.id s) (c.put m s)) = _
  have hsub : ∀ k ∈ (c.marks s).filter (m.released < ·.released), k ∈ c.marks (c.put m s) :=
    fun k hk => hput ▸ List.mem_append_left _ (List.mem_filter.1 hk).1
  rw [hlater, hc.marks_foldl_promote hn' (hn.of_map.filter _) hsub, hdiff, List.append_assoc]
  rfl

end IsLawful

end Cache

namespace Recency

theorem marks_cache (r : Recency) : cache.marks r = r := List.reverse_reverse r

theorem reverse_add (r : Recency) (m : Mark) :
    (r.add m).reverse = m :: r.reverse.filter (·.id ≠ m.id) := by
  rw [add, drop, List.reverse_concat, List.filter_reverse]

theorem cache_isLawful : cache.IsLawful where
  iter_put := reverse_add
  iter_promote {r m} hn hm := by
    have hids : (r.map Mark.id).Nodup := by
      rwa [← List.nodup_reverse, ← List.map_reverse]
    change (r.renew m.id).reverse = m :: r.reverse.filter (·.id ≠ m.id)
    rw [renew_eq hids (List.mem_reverse.1 hm), reverse_add]
  iter_pop _ _ := List.filter_reverse.symm
  oldest_eq _ := List.getLast?_reverse.symm

theorem reinsert_eq (hn : (r.map Mark.id).Nodup) (h : m.id ∉ r.map Mark.id) : r.reinsert m =
    r.filter (·.released ≤ m.released) ++ m :: r.filter (m.released < ·.released) := by
  have hplace := cache_isLawful.marks_restore (s := r) (m := m)
  simp only [marks_cache] at hplace
  exact hplace hn h

theorem reinsert_perm (hn : (r.map Mark.id).Nodup) (h : m.id ∉ r.map Mark.id) :
    (r.reinsert m).Perm (m :: r) := by
  have hnot : (fun k : Mark => decide (m.released < k.released)) =
      fun k => !decide (k.released ≤ m.released) := by
    funext k
    simp [← decide_not]
  rw [reinsert_eq hn h, hnot]
  exact List.perm_middle.trans ((List.filter_append_perm _ r).cons m)

end Recency

/-- Whatever is done with a lawful cache, its marks are those of the list. -/
theorem Cache.IsLawful.marks_eq (hc : c.IsLawful) (hn : ((c.marks s).map Mark.id).Nodup) :
    (∀ m, c.marks (c.put m s) = (c.marks s).add m) ∧
      (∀ id, c.marks (c.pop id s) = (c.marks s).drop id) ∧ c.oldest s = (c.marks s).head? ∧
      ∀ m, m.id ∉ (c.marks s).map Mark.id → c.marks (c.restore m s) = (c.marks s).reinsert m := by
  refine ⟨fun m => hc.marks_put, fun id => ?_, ?_, fun m hm => ?_⟩
  · rw [marks, hc.iter_pop, marks, Recency.drop, List.filter_reverse]
  · rw [hc.oldest_eq, marks, List.head?_reverse]
  · rw [hc.marks_restore hn hm, Recency.reinsert_eq hn hm]

end ConnectionPool
