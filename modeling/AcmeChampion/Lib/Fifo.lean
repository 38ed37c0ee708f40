import Mathlib.Data.List.Induction
import Mathlib.Tactic.SplitIfs

/-!
# A bounded buffer with removal

A buffer holds at most `cap` entries, oldest first.  A push onto a full buffer evicts the oldest
entry, and a removal drops every copy of a value.  An entry is lost only to a removal of it or to
`cap` pushes after it (`run_eq_of_push`): behind it stand entries pushed after it and no others,
so before it is the oldest of a full buffer, `cap` pushes have come after it.  While all pushes fit,
the operations on some values act on these alone (`filter_run`), so two clients that name different
values do not see each other (`filter_run_of_interleaving`).
-/

namespace Fifo

variable {α : Type*} (cap : ℕ)

inductive Op (α : Type*)
  | push (a : α)
  | remove (a : α)

/-- The value that an operation names. -/
def Op.value : Op α → α
  | push a => a
  | remove a => a

@[simp] theorem Op.value_push (a : α) : (push a).value = a := rfl

@[simp] theorem Op.value_remove (a : α) : (remove a).value = a := rfl

/-- The buffer after `a` is pushed: the oldest entry goes when there is no room. -/
def push (xs : List α) (a : α) : List α :=
  if cap < (xs ++ [a]).length then (xs ++ [a]).tail else xs ++ [a]

def pushes (ops : List (Op α)) : List α :=
  ops.filterMap fun
    | .push a => some a
    | .remove _ => none

@[simp] theorem pushes_concat_push (ops : List (Op α)) (a : α) :
    pushes (ops ++ [.push a]) = pushes ops ++ [a] := by
  simp [pushes]

@[simp] theorem pushes_concat_remove (ops : List (Op α)) (a : α) :
    pushes (ops ++ [.remove a]) = pushes ops := by
  simp [pushes]

theorem push_of_lt {xs : List α} (h : xs.length < cap) (a : α) : push cap xs a = xs ++ [a] := by
  simp only [push, List.length_append, List.length_singleton]
  rw [if_neg (by omega)]

theorem push_of_full {x : α} {xs : List α} (h : (x :: xs).length = cap) (a : α) :
    push cap (x :: xs) a = xs ++ [a] := by
  simp only [push, List.length_append, List.length_singleton]
  rw [if_pos (by omega)]
  simp

theorem push_sublist (xs : List α) (a : α) : (push cap xs a).Sublist (xs ++ [a]) := by
  unfold push
  split_ifs
  · exact List.tail_sublist _
  · exact List.Sublist.refl _

/-- The last list has the elements of the others, those of each in its order. -/
inductive Interleaving {β : Type*} : List β → List β → List β → Prop
  | nil : Interleaving [] [] []
  | left {as bs cs : List β} (a : β) (h : Interleaving as bs cs) :
    Interleaving (a :: as) bs (a :: cs)
  | right {as bs cs : List β} (b : β) (h : Interleaving as bs cs) :
    Interleaving as (b :: bs) (b :: cs)

theorem Interleaving.map {β γ : Type*} (f : β → γ) {as bs cs : List β}
    (h : Interleaving as bs cs) : Interleaving (as.map f) (bs.map f) (cs.map f) := by
  induction h with
  | nil => exact .nil
  | left a _ ih => exact .left (f a) ih
  | right b _ ih => exact .right (f b) ih

theorem Interleaving.symm {β : Type*} {as bs cs : List β} (h : Interleaving as bs cs) :
    Interleaving bs as cs := by
  induction h with
  | nil => exact .nil
  | left a _ ih => exact .right a ih
  | right b _ ih => exact .left b ih

theorem Interleaving.filterMap {β γ : Type*} (f : β → Option γ) {as bs cs : List β}
    (h : Interleaving as bs cs) :
    Interleaving (as.filterMap f) (bs.filterMap f) (cs.filterMap f) := by
  induction h with
  | nil => exact .nil
  | left a _ ih =>
    rcases ha : f a with _ | x
    · rwa [List.filterMap_cons_none ha, List.filterMap_cons_none ha]
    · rw [List.filterMap_cons_some ha, List.filterMap_cons_some ha]
      exact .left x ih
  | right b _ ih =>
    rcases hb : f b with _ | x
    · rwa [List.filterMap_cons_none hb, List.filterMap_cons_none hb]
    · rw [List.filterMap_cons_some hb, List.filterMap_cons_some hb]
      exact .right x ih

theorem Interleaving.sublist {β : Type*} {as bs cs : List β} (h : Interleaving as bs cs) :
    as.Sublist cs := by
  induction h with
  | nil => exact .slnil
  | left a _ ih => exact ih.cons_cons a
  | right b _ ih => exact ih.cons b

theorem Interleaving.mem_or {β : Type*} {as bs cs : List β} (h : Interleaving as bs cs) :
    ∀ c ∈ cs, c ∈ as ∨ c ∈ bs := by
  induction h with
  | nil => simp
  | left a _ ih =>
    intro c hc
    rcases List.mem_cons.1 hc with rfl | hc
    · simp
    · exact (ih c hc).imp_left (List.mem_cons_of_mem a)
  | right b _ ih =>
    intro c hc
    rcases List.mem_cons.1 hc with rfl | hc
    · simp
    · exact (ih c hc).imp_right (List.mem_cons_of_mem b)

theorem Interleaving.filter_eq {β : Type*} {p : β → Bool} {as bs cs : List β}
    (h : Interleaving as bs cs) (has : ∀ a ∈ as, p a) (hbs : ∀ b ∈ bs, ¬ p b) :
    cs.filter p = as := by
  induction h with
  | nil => rfl
  | left a _ ih =>
    rw [List.filter_cons_of_pos (has a (by simp)), ih (fun b hb => has b (by simp [hb])) hbs]
  | right b _ ih =>
    rw [List.filter_cons_of_neg (hbs b (by simp)), ih has fun c hc => hbs c (by simp [hc])]

variable [DecidableEq α]

def remove (xs : List α) (a : α) : List α := xs.filter (· ≠ a)

def apply (xs : List α) : Op α → List α
  | .push a => push cap xs a
  | .remove a => remove xs a

theorem apply_push (xs : List α) (a : α) : apply cap xs (.push a) = push cap xs a := rfl

theorem apply_remove (xs : List α) (a : α) : apply cap xs (.remove a) = xs.filter (· ≠ a) := rfl

def run (ops : List (Op α)) : List α := ops.foldl (apply cap) []

@[simp] theorem run_nil : run cap ([] : List (Op α)) = [] := rfl

@[simp] theorem run_concat (ops : List (Op α)) (op : Op α) :
    run cap (ops ++ [op]) = apply cap (run cap ops) op := by
  simp [run]

theorem length_run_le (ops : List (Op α)) : (run cap ops).length ≤ cap := by
  induction ops using List.reverseRecOn with
  | nil => simp
  | append_singleton ops op ih =>
    rw [run_concat]
    cases op with
    | push a =>
      simp only [apply, push]
      split_ifs with h <;> simp only [List.length_tail, List.length_append,
        List.length_singleton] at h ⊢ <;> omega
    | remove a => exact Nat.le_trans (List.length_filter_le _ _) ih

theorem run_sublist (ops : List (Op α)) : (run cap ops).Sublist (pushes ops) := by
  induction ops using List.reverseRecOn with
  | nil => simp
  | append_singleton ops op ih =>
    rw [run_concat]
    cases op with
    | push a =>
      rw [pushes_concat_push]
      exact (push_sublist cap _ a).trans (ih.append_right [a])
    | remove a =>
      rw [pushes_concat_remove]
      exact List.filter_sublist.trans ih

/-- One step keeps an entry that has fewer than `cap - 1` entries behind it and is not removed. -/
theorem apply_eq_of_mem (xs ys : List α) {a : α} {op : Op α} (hop : op ≠ .remove a)
    (hlen : (ys ++ pushes [op]).length < cap) :
    ∃ xs' ys', apply cap (xs ++ a :: ys) op = xs' ++ a :: ys' ∧
      ys'.Sublist (ys ++ pushes [op]) := by
  cases op with
  | push b =>
    have hb : (ys ++ [b]).length < cap := hlen
    simp only [apply, push, List.append_assoc, List.cons_append]
    split_ifs with hfull
    · rcases xs with _ | ⟨x, xs⟩
      · simp only [List.nil_append, List.length_cons] at hfull
        omega
      · exact ⟨xs, ys ++ [b], by simp, List.Sublist.refl _⟩
    · exact ⟨xs, ys ++ [b], rfl, List.Sublist.refl _⟩
  | remove b =>
    have hab : a ≠ b := fun h => hop (by rw [h])
    refine ⟨xs.filter (· ≠ b), ys.filter (· ≠ b), ?_, ?_⟩
    · simp [apply, remove, hab]
    · exact List.filter_sublist.trans (List.sublist_append_left _ _)

/-- An entry pushed and not removed since, with fewer than `cap` pushes since, is in the buffer,
and behind it stand only entries pushed after it. -/
theorem run_eq_of_push (pre post : List (Op α)) (a : α) (hrem : .remove a ∉ post)
    (hlen : (pushes post).length < cap) :
    ∃ xs ys, run cap (pre ++ .push a :: post) = xs ++ a :: ys ∧ ys.Sublist (pushes post) := by
  induction post using List.reverseRecOn with
  | nil =>
    have hcap : 0 < cap := by simpa [pushes] using hlen
    rw [run_concat]
    simp only [apply, push]
    split_ifs with hfull
    · rcases hx : run cap pre with _ | ⟨x, xs⟩
      · simp only [hx, List.nil_append, List.length_singleton] at hfull
        omega
      · exact ⟨xs, [], by simp, by simp⟩
    · exact ⟨run cap pre, [], rfl, by simp⟩
  | append_singleton post op ih =>
    have hp : pushes (post ++ [op]) = pushes post ++ pushes [op] := by simp [pushes]
    rw [hp, List.length_append] at hlen
    obtain ⟨xs, ys, hrun, hys⟩ := ih (fun h => hrem (by simp [h])) (by omega)
    have hop : op ≠ .remove a := fun h => hrem (by simp [h])
    have hcat : pre ++ .push a :: (post ++ [op]) = (pre ++ .push a :: post) ++ [op] := by simp
    rw [hcat, run_concat, hrun, hp]
    have hle := hys.length_le
    obtain ⟨xs', ys', h1, h2⟩ := apply_eq_of_mem cap xs ys hop
      (by rw [List.length_append]; omega)
    exact ⟨xs', ys', h1, h2.trans (hys.append_right _)⟩

theorem not_mem_run_of_remove (pre post : List (Op α)) (a : α) (hpush : .push a ∉ post) :
    a ∉ run cap (pre ++ .remove a :: post) := by
  induction post using List.reverseRecOn with
  | nil => simp [apply, remove]
  | append_singleton post op ih =>
    have hcat : pre ++ .remove a :: (post ++ [op]) = (pre ++ .remove a :: post) ++ [op] := by simp
    have hout := ih fun h => hpush (by simp [h])
    rw [hcat, run_concat]
    intro hmem
    cases op with
    | push b =>
      have hb : a ≠ b := fun h => hpush (by simp [h])
      have := (push_sublist cap _ b).subset hmem
      simp only [List.mem_append, List.mem_singleton] at this
      rcases this with h | h
      · exact hout h
      · exact hb h
    | remove b => exact hout ((List.mem_filter.1 hmem).1)

/-! ## Two clients -/

/-- With room for what it pushes, an operation acts on the entries among some values as on a buffer
of their own, and on the others not at all. -/
theorem filter_apply (p : α → Bool) (xs : List α) (op : Op α)
    (h : xs.length + (pushes [op]).length ≤ cap) :
    (apply cap xs op).filter p =
      if p op.value then apply cap (xs.filter p) op else xs.filter p := by
  cases op with
  | push a =>
    have hlt : xs.length < cap := h
    have hfilter := List.length_filter_le p xs
    rw [apply_push, apply_push, push_of_lt cap hlt, push_of_lt cap (by omega), List.filter_append,
      Op.value_push]
    split_ifs with ha
    · rw [List.filter_cons_of_pos ha, List.filter_nil]
    · rw [List.filter_cons_of_neg ha, List.filter_nil, List.append_nil]
  | remove a =>
    rw [apply_remove, apply_remove, List.filter_filter, List.filter_filter, Op.value_remove]
    split_ifs with ha
    · simp only [Bool.and_comm]
    · refine List.filter_congr fun b _ => ?_
      by_cases hb : b = a
      · rw [hb, Bool.eq_false_iff.2 ha, Bool.false_and]
      · simp [hb]

/-- While no more values are pushed than fit, the entries among some values are what the operations
on these values leave. -/
theorem filter_run (p : α → Bool) (ops : List (Op α)) (h : (pushes ops).length ≤ cap) :
    (run cap ops).filter p = run cap (ops.filter fun op => p op.value) := by
  induction ops using List.reverseRecOn with
  | nil => rfl
  | append_singleton ops op ih =>
    have hpushes : pushes (ops ++ [op]) = pushes ops ++ pushes [op] := by simp [pushes]
    rw [hpushes, List.length_append] at h
    have hle := (run_sublist cap ops).length_le
    rw [run_concat, filter_apply cap p _ op (by omega), ih (by omega), List.filter_append]
    split_ifs with hop
    · simp [hop]
    · simp [hop]

theorem filter_run_of_interleaving {p : α → Bool} {as bs cs : List (Op α)}
    (h : Interleaving as bs cs) (has : ∀ op ∈ as, p op.value) (hbs : ∀ op ∈ bs, ¬ p op.value)
    (hcap : (pushes cs).length ≤ cap) : (run cap cs).filter p = run cap as := by
  rw [filter_run cap p cs hcap, h.filter_eq has hbs]

end Fifo
