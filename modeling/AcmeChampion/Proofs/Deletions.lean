import AcmeChampion.Proofs.Challenges

/-!
# Deletions and the lookup's notion of a name

`cleanup` drops the challenges that are equal to the deleted one, and a lookup ignores ASCII case.
A deletion leaves nothing that a lookup takes for what was deleted exactly when the store held no
other spelling of it (`deletes`).
-/

namespace AcmeChampion

open Text

/-- `e` has the value of `c`, and its name and domain but for letter case. -/
structure Challenge.Variant (e c : Challenge) : Prop where
  value : e.value = c.value
  name : e.matches c.name = true
  domain : eqIgnoreAsciiCase (utf8 e.domain) (utf8 c.domain) = true

namespace Challenges

/-- The store holds `c` in no spelling. -/
def Lacks (cs : Challenges) (c : Challenge) : Prop := ∀ e ∈ cs.list, ¬ e.Variant c

/-- Where `c` is lacking, its value is served for its name because of another domain only. -/
theorem Lacks.of_named {cs : Challenges} {c : Challenge} (h : cs.Lacks c)
    (hserved : c.value ∈ cs.named c.name) : ∃ e ∈ cs.list, e.matches c.name = true ∧
      e.value = c.value ∧ eqIgnoreAsciiCase (utf8 e.domain) (utf8 c.domain) = false := by
  unfold named at hserved
  obtain ⟨e, he, hvalue⟩ := List.mem_map.1 hserved
  obtain ⟨he, hname⟩ := List.mem_filter.1 he
  have hname : e.matches c.name = true := hname
  exact ⟨e, he, hname, hvalue, Bool.eq_false_iff.2 fun hdomain => h e he ⟨hvalue, hname, hdomain⟩⟩

theorem mem_cleanup {cs : Challenges} {c e : Challenge} :
    e ∈ (cs.cleanup c).list ↔ e ∈ cs.list ∧ e ≠ c := by
  simp [cleanup]

theorem lacks_cleanup_iff (cs : Challenges) (c : Challenge) :
    (cs.cleanup c).Lacks c ↔ ∀ e ∈ cs.list, e.Variant c → e = c := by
  constructor
  · intro h e he hvar
    by_contra hne
    exact h e (mem_cleanup.2 ⟨he, hne⟩) hvar
  · intro h e he hvar
    obtain ⟨he, hne⟩ := mem_cleanup.1 he
    exact hne (h e he hvar)

theorem mem_apply {cs : Challenges} {op : StoreOp} {e : Challenge}
    (h : e ∈ (cs.apply op).list) : e ∈ cs.list ∨ op = .set e := by
  cases op with
  | set c =>
    unfold apply at h
    rw [list_set] at h
    rcases List.mem_append.1 ((Fifo.push_sublist maxLen cs.list c).mem h) with h | h
    · exact .inl h
    · exact .inr (congrArg StoreOp.set (List.mem_singleton.1 h).symm)
  | cleanup c => exact .inl (mem_cleanup.1 h).1

theorem mem_run_append {pre post : List StoreOp} {e : Challenge}
    (h : e ∈ (run (pre ++ post)).list) : e ∈ (run pre).list ∨ .set e ∈ post := by
  induction post using List.reverseRecOn with
  | nil =>
    rw [List.append_nil] at h
    exact .inl h
  | append_singleton post op ih =>
    rw [← List.append_assoc, run_concat] at h
    rcases mem_apply h with h | rfl
    · exact (ih h).imp_right fun hset => List.mem_append_left _ hset
    · exact .inr (by simp)

/-- A challenge stays away until it is registered in some spelling. -/
theorem Lacks.run_append {pre post : List StoreOp} {c : Challenge} (h : (run pre).Lacks c)
    (hpost : ∀ e, .set e ∈ post → ¬ e.Variant c) : (run (pre ++ post)).Lacks c := by
  intro e he
  rcases mem_run_append he with he | he
  · exact h e he
  · exact hpost e he

/-- A registered challenge is deleted in the spelling that it was registered in. -/
def OneSpelling (ops : List StoreOp) : Prop :=
  ∀ e c, .set e ∈ ops → .cleanup c ∈ ops → e.Variant c → e = c

/-- A deletion leaves no spelling of its challenge exactly when the store held no other one.  So in
a run whose registrations are deleted as they are spelled, what was deleted is lacking until it is
registered again. -/
theorem deletes (ops : List StoreOp) :
    (∀ c, ((run ops).cleanup c).Lacks c ↔ ∀ e ∈ (run ops).list, e.Variant c → e = c) ∧
    (OneSpelling ops → ∀ pre c post, ops = pre ++ .cleanup c :: post →
      (∀ e, .set e ∈ post → ¬ e.Variant c) → (run ops).Lacks c) := by
  refine ⟨lacks_cleanup_iff (run ops), ?_⟩
  rintro hone pre c post rfl hpost
  have hpre : (run (pre ++ [.cleanup c])).Lacks c := by
    rw [run_concat]
    refine (lacks_cleanup_iff (run pre) c).2 fun e he hvar => ?_
    have hset : .set e ∈ pre := (@mem_run_append [] pre e he).resolve_left (by simp [run, new])
    exact hone e c (by simp [hset]) (by simp) hvar
  rw [List.append_cons]
  exact hpre.run_append hpost

theorem deletes_second :
    (run [.set ⟨"d", "n", "v"⟩, .cleanup ⟨"d", "n", "v"⟩, .set ⟨"d", "n", "w"⟩]).Lacks
      ⟨"d", "n", "v"⟩ := by
  have hother : ¬ Challenge.Variant ⟨"d", "n", "w"⟩ ⟨"d", "n", "v"⟩ :=
    fun hvar => absurd hvar.value (by decide)
  refine (deletes _).2 ?_ [.set ⟨"d", "n", "v"⟩] ⟨"d", "n", "v"⟩ [.set ⟨"d", "n", "w"⟩] rfl ?_
  · intro e c he hc hvar
    simp only [List.mem_cons, List.not_mem_nil, or_false, reduceCtorEq, false_or, StoreOp.set.injEq,
      StoreOp.cleanup.injEq] at he hc
    subst hc
    rcases he with rfl | rfl
    · rfl
    · exact absurd hvar hother
  · intro e he
    simp only [List.mem_singleton, StoreOp.set.injEq] at he
    exact he ▸ hother

/-- The challenge registered with capitals is still served after it is deleted without them. -/
theorem not_lacks_cleanup :
    ¬ ((run [.set ⟨"d", "_ACME-challenge", "v"⟩]).cleanup ⟨"d", "_acme-challenge", "v"⟩).Lacks
        ⟨"d", "_acme-challenge", "v"⟩ ∧
      ((run [.set ⟨"d", "_ACME-challenge", "v"⟩]).cleanup ⟨"d", "_acme-challenge", "v"⟩).named
        "_acme-challenge" = ["v"] := by
  refine ⟨fun h => ?_, by decide +kernel⟩
  exact h ⟨"d", "_ACME-challenge", "v"⟩ (by decide) ⟨rfl, by decide, by decide⟩

end Challenges

end AcmeChampion
