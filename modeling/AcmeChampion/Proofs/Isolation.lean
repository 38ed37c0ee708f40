import Mathlib.Data.List.Dedup
import Mathlib.Data.List.Induction
import Mathlib.Data.List.Perm.Subperm
import AcmeChampion.Proofs.RateLimiter

/-!
# Addresses apart

While fewer than `maxSize` addresses have sent requests the table is never full, so each address is
answered as though it were alone (`answered_alone`), and is refused only if it has itself sent
`rateLimit` requests within a window (`block_is_earned`).
-/

namespace AcmeChampion

namespace RateLimiter

/-- The requests come from fewer addresses than the table has room for. -/
def Roomy (rs : List Request) : Prop := (rs.map Prod.fst).dedup.length < maxSize

instance (rs : List Request) : Decidable (Roomy rs) := inferInstanceAs (Decidable (_ < _))

/-- A table whose addresses are among those of roomy requests. -/
def Within (rs : List Request) (l : RateLimiter) : Prop :=
  ∀ a s, l.entry a = some s → a ∈ (rs.map Prod.fst).dedup

variable {rs : List Request}

theorem within_new : Within rs new := fun a s h => by simp [entry, new] at h

theorem size_lt_of_within (hroom : Roomy rs) {l : RateLimiter} (hl : Within rs l) :
    l.states.size < maxSize := by
  have hkeys : l.states.keys ⊆ (rs.map Prod.fst).dedup := by
    intro a ha
    obtain ⟨s, hs⟩ := Option.isSome_iff_exists.1 (AList.lookup_isSome.2 ha)
    exact hl a s hs
  have hle := (List.subperm_of_subset l.states.keys_nodup hkeys).length_le
  have hsize : l.states.size = l.states.keys.length := (List.length_map _).symm
  unfold Roomy at hroom
  omega

/-- With room a request counts against its own entry and does nothing else. -/
theorem step_of_within (hroom : Roomy rs) {l : RateLimiter} (hl : Within rs l) (r : Request) :
    step l r = l.enter r.1 r.2 := by
  have hlt := size_lt_of_within hroom hl
  unfold step
  rw [increment_of_lt (by rwa [purged_of_lt hlt]), purged_of_lt hlt]

theorem within_step (hroom : Roomy rs) {l : RateLimiter} (hl : Within rs l) {r : Request}
    (hr : r ∈ rs) : Within rs (step l r).2 := by
  intro a s hs
  rw [step_of_within hroom hl] at hs
  by_cases ha : a = r.1
  · rw [ha, List.mem_dedup]
    exact List.mem_map_of_mem hr
  · rw [entry_enter_of_ne _ ha] at hs
    exact hl a s hs

/-- The limiter of one address: an entry, if there is one. -/
def stepEntry (entry : Option State) (r : Request) : RateLimitResult × Option State :=
  let counted := count r.2 (entry.getD (.knownSince r.2 0))
  (counted.1, some counted.2)

theorem filter_trace_stepEntry (hroom : Roomy rs) (a : IpAddr) :
    ∀ rs' ⊆ rs, (Machine.trace step new rs').filter (fun e => decide (e.1.1 = a)) =
      Machine.trace stepEntry none (rs'.filter fun r => decide (r.1 = a)) := by
  intro rs' hsub
  refine Machine.filter_trace step (R := fun l => l.entry a) (P := Within rs) (G := (· ∈ rs))
    (p := fun r => decide (r.1 = a)) (fun l r hl hr => within_step hroom hl hr) ?_ ?_ rs' new
    within_new fun r hr => hsub hr
  · intro l r hl ha
    obtain rfl : r.1 = a := by simpa using ha
    rw [step_of_within hroom hl]
    exact ⟨rfl, entry_enter_self l r.1 r.2⟩
  · intro l r hl ha
    rw [step_of_within hroom hl]
    exact entry_enter_of_ne r.2 (by simpa [eq_comm] using ha)

/-- While the table has room, an address is answered as it is when it alone sends its requests. -/
theorem answered_alone (hroom : Roomy rs) (a : IpAddr) :
    (Machine.trace step new rs).filter (fun e => decide (e.1.1 = a)) =
      Machine.trace step new (rs.filter fun r => decide (r.1 = a)) := by
  have halone := filter_trace_stepEntry hroom a (rs.filter fun r => decide (r.1 = a))
    (List.filter_subset_self _)
  have hall : ∀ e ∈ Machine.trace step new (rs.filter fun r => decide (r.1 = a)),
      decide (e.1.1 = a) := by
    intro e he
    obtain ⟨pre, post, hsplit, -⟩ := (Machine.mem_trace_iff _).1 he
    have hmem : e.1 ∈ rs.filter fun r => decide (r.1 = a) := by simp [hsplit]
    exact (List.mem_filter.1 hmem).2
  rw [List.filter_eq_self.2 hall, List.filter_filter] at halone
  rw [filter_trace_stepEntry hroom a rs (List.Subset.refl _), halone]
  simp only [Bool.and_self]

theorem answered_alone_pair :
    (Machine.trace step new [(.v4 1, 0), (.v4 2, 0), (.v4 1, 5)]).filter
        (fun e => decide (e.1.1 = .v4 1)) =
      Machine.trace step new [(.v4 1, 0), (.v4 1, 5)] :=
  answered_alone (by decide) (.v4 1)

/-! ## Blocks -/

/-- The requests of the address within a window, both ends included. -/
def during (a : IpAddr) (t : ℤ) (r : Request) : Bool := r.1 = a ∧ t ≤ r.2 ∧ r.2 ≤ t + windowSecs

/-- What an entry says of the requests so far: a counter, that so many came within a window since
its start, and a block, that `rateLimit` did, and that the block ends in time. -/
def Justified (a : IpAddr) (pre : List Request) : Option State → Prop
  | none => True
  | some (.knownSince start c) =>
    c < rateLimit ∧ c.toNat ≤ pre.countP (during a start) ∧ ∃ r ∈ pre, start = r.2
  | some (.blockedUntil last) =>
    ∃ t, rateLimit.toNat ≤ pre.countP (during a t) ∧ last ≤ t + windowSecs + blockDurationSecs

theorem justified_concat {a : IpAddr} {pre : List Request} {o : Option State}
    (h : Justified a pre o) (r : Request) : Justified a (pre ++ [r]) o := by
  have hle : ∀ t, pre.countP (during a t) ≤ (pre ++ [r]).countP (during a t) := fun t =>
    (List.sublist_append_left pre [r]).countP_le
  rcases o with _ | ⟨start, c⟩ | last
  · trivial
  · obtain ⟨hc, hcount, q, hq, hstart⟩ := h
    exact ⟨hc, Nat.le_trans hcount (hle start), q, by simp [hq], hstart⟩
  · obtain ⟨t, hcount, hlast⟩ := h
    exact ⟨t, Nat.le_trans hcount (hle t), hlast⟩

/-- A count that starts with a request is justified by it. -/
theorem justified_start (a : IpAddr) (pre : List Request) (now : ℤ) :
    Justified a (pre ++ [(a, now)]) (some (.knownSince now 1)) := by
  have hself : during a now (a, now) = true := by simp [during, windowSecs]
  refine ⟨by decide, ?_, (a, now), by simp, rfl⟩
  rw [List.countP_append, List.countP_singleton, if_pos hself]
  exact Nat.le_add_left _ _

theorem justified_count {a : IpAddr} {pre : List Request} {now : ℤ} {o : Option State}
    (h : Justified a pre o) (hmono : ∀ r ∈ pre, r.2 ≤ now) :
    Justified a (pre ++ [(a, now)]) (some (count now (o.getD (.knownSince now 0))).2) := by
  rcases o with _ | ⟨start, c⟩ | last
  · rw [Option.getD_none, count_new]
    exact justified_start a pre now
  · obtain ⟨hc, hcount, q, hq, rfl⟩ := h
    rw [Option.getD_some]
    have hfrom := hmono q hq
    have hself : now ≤ q.2 + windowSecs → (pre ++ [(a, now)]).countP (during a q.2) =
        pre.countP (during a q.2) + 1 := by
      intro hto
      rw [List.countP_append, List.countP_singleton, if_pos (by simp [during, hfrom, hto])]
    have hnext := toNat_count_succ hc
    rcases count_knownSince now q.2 c with ⟨-, h⟩ | ⟨hin, hlimit, h⟩ | ⟨hin, hlimit, h⟩ <;> rw [h]
    · exact justified_start a pre now
    · refine ⟨q.2, ?_, by omega⟩
      have hlimit : rateLimit.toNat ≤ (c + 1).toNat := hlimit
      rw [hself hin]
      omega
    · exact ⟨hlimit, by rw [hself hin]; omega, q, by simp [hq], rfl⟩
  · rw [Option.getD_some]
    rcases count_blockedUntil now last with ⟨-, hcount⟩ | ⟨-, hcount⟩ <;> rw [hcount]
    · exact justified_start a pre now
    · exact justified_concat h (a, now)

/-- What blocks is an entry that says so. -/
theorem blockedUntil_of_count {now : ℤ} {s : State} (h : (count now s).1 = .block) :
    ∃ last, (count now s).2 = .blockedUntil last ∧ now ≤ last := by
  cases s with
  | knownSince start c =>
    rcases count_knownSince now start c with ⟨-, h'⟩ | ⟨-, -, h'⟩ | ⟨-, -, h'⟩ <;> rw [h'] at h ⊢
    · cases h
    · exact ⟨_, rfl, by simp [blockDurationSecs]⟩
    · cases h
  | blockedUntil last =>
    rcases count_blockedUntil now last with ⟨-, h'⟩ | ⟨hin, h'⟩ <;> rw [h'] at h ⊢
    · cases h
    · exact ⟨last, rfl, hin⟩

theorem within_final (hroom : Roomy rs) {pre : List Request} (hsub : pre ⊆ rs) :
    Within rs (Machine.final step new pre) :=
  Machine.final_of_invariant step (P := Within rs) (G := (· ∈ rs))
    (fun _ _ hl hr => within_step hroom hl hr) pre new within_new fun _ hr => hsub hr

theorem justified_final (hroom : Roomy rs) (a : IpAddr) : ∀ pre : List Request, pre ⊆ rs →
    pre.Pairwise (fun r r' => r.2 ≤ r'.2) →
      Justified a pre ((Machine.final step new pre).entry a) := by
  intro pre
  induction pre using List.reverseRecOn with
  | nil => exact fun _ _ => trivial
  | append_singleton pre r ih =>
    intro hsub hmono
    have hpre : pre ⊆ rs := fun q hq => hsub (by simp [hq])
    have hlast : ∀ q ∈ pre, q.2 ≤ r.2 := fun q hq =>
      (List.pairwise_append.1 hmono).2.2 q hq r (by simp)
    have h := ih hpre (List.pairwise_append.1 hmono).1
    rw [Machine.final_concat, step_of_within hroom (within_final hroom hpre)]
    by_cases ha : a = r.1
    · subst ha
      rw [entry_enter_self]
      exact justified_count h hlast
    · rw [entry_enter_of_ne _ ha]
      exact justified_concat h r

/-- While the table has room and the clock does not go back, an address is refused only if it has
sent `rateLimit` requests within a window, the refused one counted, and no longer than a block
lasts. -/
theorem block_is_earned (hroom : Roomy rs) (hmono : (rs.map Prod.snd).Pairwise (· ≤ ·))
    {pre post : List Request} {r : Request} (hsplit : rs = pre ++ r :: post)
    (hblock : (step (Machine.final step new pre) r).1 = .block) :
    ∃ t, rateLimit.toNat ≤ (pre ++ [r]).countP (during r.1 t) ∧
      r.2 ≤ t + windowSecs + blockDurationSecs := by
  have hsub : pre ++ [r] ⊆ rs := by
    rw [hsplit]
    intro q hq
    simp only [List.mem_append, List.mem_cons] at hq ⊢
    tauto
  have hpairs : (pre ++ [r]).Pairwise fun q q' => q.2 ≤ q'.2 := by
    rw [List.pairwise_map] at hmono
    refine hmono.sublist ?_
    rw [hsplit]
    exact (List.Sublist.refl pre).append (by simp)
  have hpre : pre ⊆ rs := fun q hq => hsub (by simp [hq])
  have hjustified := justified_final hroom r.1 (pre ++ [r]) hsub hpairs
  rw [step_of_within hroom (within_final hroom hpre)] at hblock
  rw [Machine.final_concat, step_of_within hroom (within_final hroom hpre), entry_enter_self]
    at hjustified
  obtain ⟨last, hlast, hnow⟩ := blockedUntil_of_count hblock
  have hlast : (count r.2 ((Machine.final step new pre).current r.1 r.2)).2 = .blockedUntil last :=
    hlast
  rw [hlast] at hjustified
  obtain ⟨t, hcount, hend⟩ := hjustified
  exact ⟨t, hcount, by omega⟩

theorem block_is_earned_hundredth : ∃ t,
    100 ≤ (List.replicate 99 (IpAddr.v4 1, (0 : ℤ)) ++ [(IpAddr.v4 1, 60)]).countP
      (during (.v4 1) t) := by
  obtain ⟨t, hcount, -⟩ :=
    @block_is_earned (List.replicate 99 (IpAddr.v4 1, 0) ++ [(IpAddr.v4 1, 60)])
      (by decide +kernel) (by decide +kernel) _ _ _ rfl (by decide +kernel)
  exact ⟨t, hcount⟩

end RateLimiter

end AcmeChampion
