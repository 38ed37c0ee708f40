import AcmeChampion.Proofs.RateLimiter

/-!
# How often one address is let through

Fix an address and a window `[t, t + windowSecs)`.  An entry can still let through what is left of
its own count, and one full count more if a new count may start inside the window, which it may
not once a count has started there (`budget`).  Purging an entry and counting against it both pay
from this budget, so a run lets the address through at most twice a full count in the window.
-/

namespace AcmeChampion

namespace RateLimiter

def fullCount : ℕ := rateLimit.toNat - 1

/-- How often an entry can still let requests through in the window from `t`, once it is open. -/
def budget (t : ℤ) : Option State → ℕ
  | none => fullCount
  | some (.knownSince start c) =>
    if start < t then fullCount - c.toNat + fullCount else fullCount - c.toNat
  | some (.blockedUntil last) => if last < t + windowSecs then fullCount else 0

/-- The budget over time: all of it before the window opens, nothing after it closes. -/
def budgetAt (t : ℤ) (a : IpAddr) (r : Request) (l : RateLimiter) : ℕ :=
  if r.2 < t then 2 * fullCount
  else if r.2 < t + windowSecs then budget t (l.entry a)
  else 0

/-- A request of the address was let through in the window. -/
def passes (t : ℤ) (a : IpAddr) (e : Request × RateLimitResult) : Bool :=
  e.1.1 = a ∧ e.2 = .ok ∧ t ≤ e.1.2 ∧ e.1.2 < t + windowSecs

variable {t : ℤ} {a : IpAddr}

theorem budget_le (t : ℤ) (o : Option State) : budget t o ≤ 2 * fullCount := by
  rcases o with _ | ⟨start, c⟩ | last
  · simp only [budget]
    omega
  · simp only [budget]
    split_ifs <;> omega
  · simp only [budget]
    split_ifs <;> omega

theorem budget_none_le {now : ℤ} {s : State} (hnow : now < t + windowSecs)
    (hdead : unexpired now s = false) : budget t none ≤ budget t (some s) := by
  cases s with
  | knownSince start c =>
    rw [unexpired_knownSince] at hdead
    simp only [budget]
    rw [if_pos (by omega)]
    omega
  | blockedUntil last =>
    rw [unexpired_blockedUntil] at hdead
    simp only [budget]
    rw [if_pos (by omega)]

theorem budget_purged_le {l : RateLimiter} {now : ℤ} (hnow : now < t + windowSecs) :
    budget t ((l.purged now).entry a) ≤ budget t (l.entry a) := by
  rcases entry_purged l now a with h | ⟨h, s, hs, hdead⟩
  · rw [h]
  · rw [h, hs]
    exact budget_none_le hnow hdead

/-- A count that starts inside the window is the last one in it. -/
theorem budget_start {now : ℤ} (ht : t ≤ now) :
    budget t (some (.knownSince now 1)) = fullCount - 1 := by
  simp only [budget]
  rw [if_neg (by omega)]
  rfl

/-- A block set inside the window outlasts it. -/
theorem budget_blocked {now : ℤ} (ht : t ≤ now) :
    budget t (some (.blockedUntil (now + blockDurationSecs))) = 0 := by
  have hlong := windowSecs_le_blockDurationSecs
  simp only [budget]
  rw [if_neg (by omega)]

theorem budget_count {now : ℤ} {s : State} (ht : t ≤ now) (hnow : now < t + windowSecs)
    (hs : Counts s) :
    (if (count now s).1 = .ok then 1 else 0) + budget t (some (count now s).2)
      ≤ budget t (some s) := by
  have hfull : fullCount = 99 := rfl
  cases s with
  | knownSince start c =>
    have hc : c.toNat < 100 := hs
    rcases count_knownSince now start c with ⟨hold, h⟩ | ⟨-, -, h⟩ | ⟨-, hlimit, h⟩ <;> rw [h]
    · -- the count started more than a window ago, so before `t`
      rw [budget_start ht, if_pos rfl]
      simp only [budget]
      rw [if_pos (by omega)]
      omega
    · simp [budget_blocked ht]
    · have hnext : (c + 1).toNat < 100 := hlimit
      rw [if_pos rfl]
      simp only [budget, toNat_count_succ hs] at hnext ⊢
      split_ifs <;> omega
  | blockedUntil last =>
    rcases count_blockedUntil now last with ⟨hold, h⟩ | ⟨-, h⟩ <;> rw [h]
    · rw [budget_start ht, if_pos rfl]
      simp only [budget]
      rw [if_pos (by omega)]
      omega
    · simp

theorem budget_current {l : RateLimiter} {now : ℤ} (ht : t ≤ now) :
    budget t (some (l.current a now)) ≤ budget t (l.entry a) := by
  unfold current
  rcases l.entry a with _ | s
  · simp only [Option.getD_none, budget]
    rw [if_neg (by omega)]
    omega
  · exact le_rfl

theorem counts_current {l : RateLimiter} {now : ℤ} (hl : Counting l) :
    Counts ((l.purged now).current a now) := by
  unfold current
  rcases hs : (l.purged now).entry a with _ | s
  · exact (by decide : (0 : UInt8) < rateLimit)
  · rcases entry_purged l now a with h | ⟨h, -⟩
    · exact hl a s (h ▸ hs)
    · simp [h] at hs

/-- Every request pays from the budget for being let through. -/
theorem budgetAt_step {l : RateLimiter} {r : Request} (hl : Counting l) :
    (if passes t a (r, (step l r).1) then 1 else 0) + budgetAt t a r (step l r).2
      ≤ budgetAt t a r l := by
  by_cases hbefore : r.2 < t
  · have hpass : passes t a (r, (step l r).1) = false := by
      simp only [passes, decide_eq_false_iff_not]
      omega
    simp [hpass, budgetAt, hbefore]
  by_cases hnow : r.2 < t + windowSecs
  swap
  · have hpass : passes t a (r, (step l r).1) = false := by simp [passes, hnow]
    simp [hpass, budgetAt, hnow]
  have ht : t ≤ r.2 := by omega
  have hpurged := @budget_purged_le t a l r.2 hnow
  simp only [budgetAt, if_neg hbefore, if_pos hnow]
  unfold step
  rcases increment_cases l r.1 r.2 with ⟨-, h⟩ | ⟨-, h⟩
  · simp only [h, passes]
    simpa using hpurged
  rw [h]
  by_cases ha : a = r.1
  · subst ha
    have hcurrent := @budget_current t r.1 (l.purged r.2) r.2 ht
    have hpay := budget_count ht hnow (@counts_current r.1 l r.2 hl)
    rw [entry_enter_self, enter_fst]
    have hpass : (passes t r.1 (r, (count r.2 ((l.purged r.2).current r.1 r.2)).1) = true) ↔
        (count r.2 ((l.purged r.2).current r.1 r.2)).1 = .ok := by
      simp [passes, ht, hnow]
    simp only [hpass]
    omega
  · have hpass : passes t a (r, ((l.purged r.2).enter r.1 r.2).1) = false := by
      simp [passes, Ne.symm ha]
    rw [entry_enter_of_ne _ ha, hpass]
    simpa using hpurged

theorem budgetAt_mono {l : RateLimiter} {r r' : Request} (h : r.2 ≤ r'.2) :
    budgetAt t a r' l ≤ budgetAt t a r l := by
  have hle := budget_le t (l.entry a)
  simp only [budgetAt]
  split_ifs <;> omega

/-- In a run at non-decreasing clock readings, each address is let through at most
`2 * (rateLimit - 1)` times in any window `[t, t + windowSecs)`. -/
theorem countP_passes_le (rs : List Request) (hmono : (rs.map Prod.snd).Pairwise (· ≤ ·))
    (t : ℤ) (a : IpAddr) :
    (Machine.trace step new rs).countP (passes t a) ≤ 2 * (rateLimit.toNat - 1) := by
  rcases rs with _ | ⟨r, rs⟩
  · simp [Machine.trace]
  have hmono' : (r :: r :: rs).Pairwise fun r r' => r.2 ≤ r'.2 := by
    rw [List.pairwise_map] at hmono
    refine List.pairwise_cons.2 ⟨fun r' hr' => ?_, hmono⟩
    rcases List.mem_cons.1 hr' with rfl | hr'
    · exact Int.le_refl _
    · exact (List.pairwise_cons.1 hmono).1 r' hr'
  have hle := Machine.countP_trace_le step (budgetAt t a) (fun l r => @counting_step l r)
    (fun l r hl => @budgetAt_step t a l r hl) (fun l r r' _ h => @budgetAt_mono t a l r r' h)
    (r :: rs) new r counting_new hmono'
  have hb := budget_le t (new.entry a)
  refine Nat.le_trans hle ?_
  simp only [budgetAt, fullCount] at hb ⊢
  split_ifs <;> omega

theorem countP_passes_le_burst :
    (Machine.trace step new ((List.replicate 99 (.v4 1, 0)) ++
      List.replicate 100 (.v4 1, 61))).countP (passes 2 (.v4 1)) ≤ 2 * (rateLimit.toNat - 1) :=
  countP_passes_le _ (by decide +kernel) 2 (.v4 1)

end RateLimiter

end AcmeChampion
