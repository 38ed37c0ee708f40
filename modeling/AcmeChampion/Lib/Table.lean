import Mathlib.Data.List.AList

/-!
# Tables with one entry for each key

The operations that Mathlib's association lists lack: dropping the entries that fail a test, which
may itself fail to return, and the number of entries, with what an insertion and a drop do to it.
-/

namespace AList

variable {α β : Type*}

def size (t : AList fun _ : α => β) : ℕ := t.entries.length

def retain (t : AList fun _ : α => β) (p : β → Bool) : AList fun _ : α => β :=
  ⟨t.entries.filter fun e => p e.2, t.nodupKeys.sublist List.filter_sublist⟩

theorem size_retain_le (t : AList fun _ : α => β) (p : β → Bool) : (t.retain p).size ≤ t.size :=
  List.length_filter_le _ _

variable [DecidableEq α]

theorem size_insert_le (t : AList fun _ : α => β) (a : α) (b : β) :
    (t.insert a b).size ≤ t.size + 1 := by
  simp only [size, AList.entries_insert, List.length_cons]
  exact Nat.succ_le_succ (List.kerase_sublist a t.entries).length_le

theorem lookup_retain (t : AList fun _ : α => β) (p : β → Bool) (a : α) :
    (t.retain p).lookup a = (t.lookup a).filter p := by
  ext b
  simp only [← Option.mem_def, AList.mem_lookup_iff, retain, List.mem_filter, Option.mem_filter_iff]

theorem size_retain_eq_zero {t : AList fun _ : α => β} {p : β → Bool}
    (h : ∀ a b, t.lookup a = some b → p b = false) : (t.retain p).size = 0 := by
  simp only [size, retain, List.length_eq_zero_iff, List.filter_eq_nil_iff]
  intro e he
  have := h e.1 e.2 (AList.mem_lookup_iff.2 he)
  simp [this]

end AList

namespace List

variable {α β ε : Type}

theorem dedupKeys_of_nodupKeys [DecidableEq α] {l : List (Σ _ : α, β)} (h : l.NodupKeys) :
    l.dedupKeys = l := by
  induction l with
  | nil => rfl
  | cons e l ih =>
    obtain ⟨hnot, hl⟩ := List.nodupKeys_cons.1 h
    rw [List.dedupKeys_cons, ih hl, List.kinsert_def, List.kerase_of_notMem_keys hnot]

theorem filterAuxM_ok {p : α → Except ε Bool} {q : α → Bool} :
    ∀ (l acc : List α), (∀ a ∈ l, p a = .ok (q a)) →
      l.filterAuxM p acc = .ok ((l.filter q).reverse ++ acc)
  | [], acc, _ => rfl
  | a :: l, acc, h => by
    have ih := fun acc => filterAuxM_ok l acc fun b hb => h b (by simp [hb])
    simp only [List.filterAuxM, h a (by simp), bind, Except.bind, ih]
    cases hq : q a <;> simp [hq]

theorem filterM_ok {p : α → Except ε Bool} {q : α → Bool} {l : List α}
    (h : ∀ a ∈ l, p a = .ok (q a)) : l.filterM p = .ok (l.filter q) := by
  simp [List.filterM, filterAuxM_ok l [] h, bind, Except.bind, pure, Except.pure]

end List

namespace AList

variable {α β ε : Type} [DecidableEq α]

def retainM {m : Type → Type} [Monad m] (t : AList fun _ : α => β) (p : β → m Bool) :
    m (AList fun _ : α => β) := do
  return (← t.entries.filterM fun e => p e.2).toAList

theorem retainM_ok {t : AList fun _ : α => β} {p : β → Except ε Bool} {q : β → Bool}
    (h : ∀ a b, t.lookup a = some b → p b = .ok (q b)) : t.retainM p = .ok (t.retain q) := by
  have hfilter : t.entries.filterM (fun e => p e.2) = .ok (t.entries.filter fun e => q e.2) :=
    List.filterM_ok fun e he => h e.1 e.2 (AList.mem_lookup_iff.2 he)
  have hnodup : (t.entries.filter fun e => q e.2).NodupKeys := (t.retain q).nodupKeys
  simp only [retainM, hfilter, bind, Except.bind, pure, Except.pure, Except.ok.injEq]
  exact AList.ext (List.dedupKeys_of_nodupKeys hnodup)

end AList
