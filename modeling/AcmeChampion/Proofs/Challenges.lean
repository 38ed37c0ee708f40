import AcmeChampion.Challenges
import AcmeChampion.Lib.Fifo

/-!
# The store is a bounded buffer

`set` is a push onto a buffer of `maxLen` challenges and `cleanup` a removal from it, so the store
after any operations is the buffer's (`run_eq_fifo`) and loses a challenge to a cleanup of it or to
`maxLen` later registrations only.
-/

namespace AcmeChampion

namespace StoreOp

def toFifo : StoreOp → Fifo.Op Challenge
  | set c => .push c
  | cleanup c => .remove c

theorem toFifo_inj {op op' : StoreOp} (h : op.toFifo = op'.toFifo) : op = op' := by
  cases op <;> cases op' <;> simp_all [toFifo]

end StoreOp

namespace Challenges

/-- The challenges that the operations register, in order. -/
def sets (ops : List StoreOp) : List Challenge :=
  ops.filterMap fun
    | .set c => some c
    | .cleanup _ => none

theorem list_set (cs : Challenges) (c : Challenge) :
    (cs.set c).list = Fifo.push maxLen cs.list c := by
  simp only [set, Fifo.push]
  split_ifs <;> rfl

theorem list_apply (cs : Challenges) (op : StoreOp) :
    (cs.apply op).list = Fifo.apply maxLen cs.list op.toFifo := by
  cases op with
  | set c => exact list_set cs c
  | cleanup c => rfl

theorem run_concat (ops : List StoreOp) (op : StoreOp) :
    run (ops ++ [op]) = (run ops).apply op := by
  simp [run]

theorem run_eq_fifo (ops : List StoreOp) :
    (run ops).list = Fifo.run maxLen (ops.map StoreOp.toFifo) := by
  induction ops using List.reverseRecOn with
  | nil => rfl
  | append_singleton ops op ih =>
    rw [run_concat, list_apply, ih, List.map_append, List.map_singleton, Fifo.run_concat]

theorem sets_eq_pushes (ops : List StoreOp) :
    sets ops = Fifo.pushes (ops.map StoreOp.toFifo) := by
  simp only [sets, Fifo.pushes, List.filterMap_map]
  congr 1
  funext op
  cases op <;> rfl

theorem length_run_le (ops : List StoreOp) : (run ops).list.length ≤ maxLen := by
  rw [run_eq_fifo]
  exact Fifo.length_run_le maxLen _

theorem run_sublist_sets (ops : List StoreOp) : (run ops).list.Sublist (sets ops) := by
  rw [run_eq_fifo, sets_eq_pushes]
  exact Fifo.run_sublist maxLen _

theorem run_eq_of_set (pre post : List StoreOp) (c : Challenge) (hclean : .cleanup c ∉ post)
    (hlen : (sets post).length < maxLen) :
    ∃ older newer, (run (pre ++ .set c :: post)).list = older ++ c :: newer ∧
      newer.Sublist (sets post) := by
  rw [sets_eq_pushes] at hlen
  simp only [run_eq_fifo, sets_eq_pushes, List.map_append, List.map_cons, StoreOp.toFifo]
  refine Fifo.run_eq_of_push maxLen _ _ c (fun h => ?_) hlen
  obtain ⟨op, hop, he⟩ := List.mem_map.1 h
  exact hclean (@StoreOp.toFifo_inj op (.cleanup c) he ▸ hop)

theorem not_mem_run_of_cleanup (pre post : List StoreOp) (c : Challenge) (hset : .set c ∉ post) :
    c ∉ (run (pre ++ .cleanup c :: post)).list := by
  simp only [run_eq_fifo, List.map_append, List.map_cons, StoreOp.toFifo]
  refine Fifo.not_mem_run_of_remove maxLen _ _ c fun h => ?_
  obtain ⟨op, hop, he⟩ := List.mem_map.1 h
  exact hset (@StoreOp.toFifo_inj op (.set c) he ▸ hop)

/-- What the store holds was registered, and not cleaned up since. -/
theorem exists_set_of_mem_run {ops : List StoreOp} {c : Challenge} (hc : c ∈ (run ops).list) :
    ∃ pre post, ops = pre ++ .set c :: post ∧ .cleanup c ∉ post := by
  induction ops using List.reverseRecOn with
  | nil => simp [run, new] at hc
  | append_singleton ops op ih =>
    by_cases hop : op = .set c
    · exact ⟨ops, [], by rw [hop], List.not_mem_nil⟩
    · rw [run_concat, list_apply] at hc
      have hmem : c ∈ (run ops).list ∧ op ≠ .cleanup c := by
        cases op with
        | set d =>
          have hpush := (Fifo.push_sublist maxLen _ d).subset hc
          rcases List.mem_append.1 hpush with h | h
          · exact ⟨h, by simp⟩
          · exact absurd (congrArg StoreOp.set (List.mem_singleton.1 h).symm) hop
        | cleanup d =>
          obtain ⟨h, hne⟩ := List.mem_filter.1 hc
          refine ⟨h, ?_⟩
          rintro heq
          cases heq
          simp at hne
      obtain ⟨pre, post, rfl, hclean⟩ := ih hmem.1
      refine ⟨pre, post ++ [op], by simp, ?_⟩
      simp only [List.mem_append, List.mem_singleton, not_or]
      exact ⟨hclean, Ne.symm hmem.2⟩

theorem list_set_run (ops : List StoreOp) (c : Challenge) :
    ((run ops).list.length < maxLen → ((run ops).set c).list = (run ops).list ++ [c]) ∧
    ((run ops).list.length = maxLen → ((run ops).set c).list = (run ops).list.tail ++ [c]) := by
  rw [list_set]
  refine ⟨fun h => Fifo.push_of_lt maxLen h c, fun h => ?_⟩
  rcases hl : (run ops).list with _ | ⟨x, xs⟩
  · simp [hl, maxLen] at h
  · exact Fifo.push_of_full maxLen (hl ▸ h) c

theorem filter_ne_of_not_mem {l : List Challenge} {c : Challenge} (hc : c ∉ l) :
    l.filter (· ≠ c) = l := by
  refine List.filter_eq_self.2 fun d hd => ?_
  have hne : d ≠ c := fun h => hc (h ▸ hd)
  simpa using hne

/-- A cleanup undoes a registration that evicted nothing, of a challenge that was not there. -/
theorem cleanup_set {cs : Challenges} {c : Challenge} (hlen : cs.list.length < maxLen)
    (hc : c ∉ cs.list) : (cs.set c).cleanup c = cs := by
  unfold cleanup
  rw [list_set, Fifo.push_of_lt maxLen hlen, List.filter_append, filter_ne_of_not_mem hc]
  simp

theorem set_inj {cs : Challenges} {c c' : Challenge} (h : cs.set c = cs.set c') : c = c' := by
  have hlist := congrArg list h
  rw [list_set, list_set] at hlist
  unfold Fifo.push at hlist
  simp only [List.length_append, List.length_singleton] at hlist
  split_ifs at hlist with hfull
  · have hne : cs.list ≠ [] := by
      intro hnil
      simp [hnil, maxLen] at hfull
    rw [List.tail_append_of_ne_nil hne, List.tail_append_of_ne_nil hne] at hlist
    simpa using hlist
  · simpa using hlist

/-- Two cleanups do the same to a store that holds neither challenge, and otherwise only if they
are of the same challenge. -/
theorem cleanup_eq_iff {cs : Challenges} {c c' : Challenge} :
    cs.cleanup c = cs.cleanup c' ↔ c = c' ∨ c ∉ cs.list ∧ c' ∉ cs.list := by
  unfold cleanup
  rw [Challenges.mk.injEq]
  constructor
  · intro h
    by_cases hc : c = c'
    · exact .inl hc
    refine .inr ⟨fun hmem => ?_, fun hmem => ?_⟩
    · have hkeep : c ∈ cs.list.filter (· ≠ c') := by simp [hmem, hc]
      rw [← h] at hkeep
      simp at hkeep
    · have hkeep : c' ∈ cs.list.filter (· ≠ c) := by simp [hmem, Ne.symm hc]
      rw [h] at hkeep
      simp at hkeep
  · rintro (rfl | ⟨hc, hc'⟩)
    · rfl
    · rw [filter_ne_of_not_mem hc, filter_ne_of_not_mem hc']

/-- After any operations: the store is within its bound and holds registered challenges in the
order of registration; a challenge registered and not cleaned up since is there unless `maxLen`
registrations have come since; one cleaned up and not registered since is not.  The next
registration evicts the oldest challenge, and only from a full store; the next cleanup drops the
copies of its challenge. -/
theorem run_keeps (ops : List StoreOp) :
    (run ops).list.length ≤ maxLen ∧
    (run ops).list.Sublist (sets ops) ∧
    (∀ pre c post, ops = pre ++ .set c :: post → .cleanup c ∉ post →
      (sets post).length < maxLen →
        ∃ older newer, (run ops).list = older ++ c :: newer ∧ newer.Sublist (sets post)) ∧
    (∀ pre c post, ops = pre ++ .cleanup c :: post → .set c ∉ post → c ∉ (run ops).list) ∧
    (∀ c, ((run ops).list.length < maxLen → ((run ops).set c).list = (run ops).list ++ [c]) ∧
      ((run ops).list.length = maxLen → ((run ops).set c).list = (run ops).list.tail ++ [c])) ∧
    (∀ c, ((run ops).cleanup c).list = (run ops).list.filter (· ≠ c)) := by
  refine ⟨length_run_le ops, run_sublist_sets ops, ?_, ?_, list_set_run ops, fun _ => rfl⟩
  · rintro pre c post rfl hclean hlen
    exact run_eq_of_set pre post c hclean hlen
  · rintro pre c post rfl hset
    exact not_mem_run_of_cleanup pre post c hset

theorem run_keeps_second :
    ∃ older newer, (run [.set ⟨"d", "n", "1"⟩, .set ⟨"d", "n", "2"⟩,
        .cleanup ⟨"d", "n", "1"⟩]).list = older ++ ⟨"d", "n", "2"⟩ :: newer ∧
      newer.Sublist (sets [.cleanup ⟨"d", "n", "1"⟩]) :=
  (run_keeps [.set ⟨"d", "n", "1"⟩, .set ⟨"d", "n", "2"⟩, .cleanup ⟨"d", "n", "1"⟩]).2.2.1
    [.set ⟨"d", "n", "1"⟩] ⟨"d", "n", "2"⟩ [.cleanup ⟨"d", "n", "1"⟩] rfl (by decide) (by decide)

end Challenges

end AcmeChampion
