import AcmeChampion.Proofs.RateLimiter

/-!
# Purged and expired entries

`cleanup` drops an entry from the second on in which it ends, `increment` treats it as expired from
the second after that.  So purging first changes what a request meets exactly when the entry of its
address ends in the second of the request (`purgeAgrees_iff`).
-/

namespace AcmeChampion

namespace RateLimiter

/-- The last second in which a request counts against the entry. -/
def lastSecond : State → ℤ
  | .knownSince start _ => start + windowSecs
  | .blockedUntil last => last

/-- A request treats the entry like that of an address it has not seen. -/
def Lapsed (now : ℤ) (s : State) : Prop := count now s = count now (.knownSince now 0)

/-- For requests of `a` at `now`, purging first makes no difference, and what it removes of `a` has
lapsed. -/
structure PurgeAgrees (l : RateLimiter) (a : IpAddr) (now : ℤ) : Prop where
  result : ((l.cleanup now).increment a now).1 = (l.increment a now).1
  entry : ((l.cleanup now).increment a now).2.entry a = (l.increment a now).2.entry a
  removed : ∀ s, l.entry a = some s → (l.cleanup now).entry a = none → Lapsed now s

theorem unexpired_eq (now : ℤ) (s : State) : unexpired now s = decide (now < lastSecond s) := by
  cases s <;> rfl

theorem lapsed_of_lt {now : ℤ} {s : State} (h : lastSecond s < now) : Lapsed now s := by
  unfold Lapsed
  rw [count_new]
  cases s with
  | knownSince start c =>
    rcases count_knownSince now start c with ⟨-, heq⟩ | ⟨hle, -⟩ | ⟨hle, -⟩
    · exact heq
    · exact absurd h (Int.not_lt.2 hle)
    · exact absurd h (Int.not_lt.2 hle)
  | blockedUntil last =>
    rcases count_blockedUntil now last with ⟨-, heq⟩ | ⟨hle, -⟩
    · exact heq
    · exact absurd h (Int.not_lt.2 hle)

/-- In its last second an entry is counted against. -/
theorem not_lapsed_of_eq {now : ℤ} {s : State} (h : lastSecond s = now) :
    (count now s).2 ≠ (count now (.knownSince now 0)).2 := by
  rw [count_new]
  cases s with
  | knownSince start c =>
    have hstart : start + windowSecs = now := h
    have hne : start ≠ now := by
      unfold windowSecs at hstart
      omega
    rcases count_knownSince now start c with ⟨hlt, -⟩ | ⟨-, -, heq⟩ | ⟨-, -, heq⟩
    · omega
    · simp [heq]
    · simp [heq, hne]
  | blockedUntil last =>
    have hlast : last = now := h
    rcases count_blockedUntil now last with ⟨hlt, -⟩ | ⟨-, heq⟩
    · omega
    · simp [heq]

/-- A purge leaves an entry until its last second, and removes it from then on. -/
theorem cleanup_cases (l : RateLimiter) (a : IpAddr) (now : ℤ) :
    (l.entry a = none ∧ (l.cleanup now).entry a = none) ∨
    (∃ s, l.entry a = some s ∧ now < lastSecond s ∧ (l.cleanup now).entry a = some s) ∨
    ∃ s, l.entry a = some s ∧ lastSecond s ≤ now ∧ (l.cleanup now).entry a = none := by
  rw [entry_cleanup]
  rcases hs : l.entry a with _ | s
  · exact .inl ⟨rfl, rfl⟩
  · by_cases hlive : now < lastSecond s
    · refine .inr (.inl ⟨s, rfl, hlive, ?_⟩)
      simp [unexpired_eq, hlive]
    · have hend : lastSecond s ≤ now := Int.not_lt.1 hlive
      refine .inr (.inr ⟨s, rfl, hend, ?_⟩)
      simp [unexpired_eq, hend]

section Agrees

variable {l : RateLimiter} {now : ℤ} (h : l.states.size < maxSize) (a : IpAddr)

include h

theorem increment_eq_enter : l.increment a now = l.enter a now := by
  have hpurged := @increment_of_lt l now (by rwa [purged_of_lt h]) a
  rwa [purged_of_lt h] at hpurged

theorem increment_cleanup_eq_enter :
    (l.cleanup now).increment a now = (l.cleanup now).enter a now :=
  increment_eq_enter (Nat.lt_of_le_of_lt (size_cleanup_le l now) h) a

theorem purgeAgrees_of_current (hcount : count now ((l.cleanup now).current a now)
    = count now (l.current a now))
    (hremoved : ∀ s, l.entry a = some s → (l.cleanup now).entry a = none → Lapsed now s) :
    PurgeAgrees l a now := by
  refine ⟨?_, ?_, hremoved⟩
  · rw [increment_eq_enter h, increment_cleanup_eq_enter h, enter_fst, enter_fst, hcount]
  · rw [increment_eq_enter h, increment_cleanup_eq_enter h, entry_enter_self, entry_enter_self,
      hcount]

/-- Purging first agrees with counting against the entry as it is exactly when the entry of the
address, if there is one, is not in its last second. -/
theorem purgeAgrees_iff : PurgeAgrees l a now ↔ ∀ s, l.entry a = some s → lastSecond s ≠ now := by
  rcases cleanup_cases l a now with ⟨hs, hpurged⟩ | ⟨s, hs, hlive, hpurged⟩ | ⟨s, hs, hend, hpurged⟩
  · refine iff_of_true (purgeAgrees_of_current h a ?_ ?_) ?_
    · unfold current
      rw [hpurged, hs]
    · intro s hs'
      simp [hs] at hs'
    · intro s hs'
      simp [hs] at hs'
  · refine iff_of_true (purgeAgrees_of_current h a ?_ ?_) ?_
    · unfold current
      rw [hpurged, hs]
    · intro s' _ hgone
      simp [hpurged] at hgone
    · intro s' hs'
      obtain rfl : s = s' := by simpa [hs] using hs'
      omega
  · have hcurrent : l.current a now = s ∧ (l.cleanup now).current a now = .knownSince now 0 := by
      unfold current
      rw [hpurged, hs]
      exact ⟨rfl, rfl⟩
    constructor
    · intro hagrees s' hs' hlast
      obtain rfl : s = s' := by simpa [hs] using hs'
      have hentry := hagrees.entry
      rw [increment_eq_enter h, increment_cleanup_eq_enter h, entry_enter_self, entry_enter_self,
        hcurrent.1, hcurrent.2, Option.some.injEq] at hentry
      exact not_lapsed_of_eq hlast hentry.symm
    · intro hlast
      have hne := hlast s hs
      have hlapsed := @lapsed_of_lt now s (by omega)
      refine purgeAgrees_of_current h a ?_ ?_
      · rw [hcurrent.1, hcurrent.2]
        exact hlapsed.symm
      · intro s' hs' _
        obtain rfl : s = s' := by simpa [hs] using hs'
        exact hlapsed

end Agrees

/-- The limiter after one request. -/
def once : RateLimiter := Machine.final step new [(.v4 1, 0)]

theorem entry_once : once.entry (.v4 1) = some (.knownSince 0 1) := by decide +kernel

theorem purgeAgrees_once : PurgeAgrees once (.v4 1) 61 := by
  refine (purgeAgrees_iff (by decide +kernel) (.v4 1)).2 fun s hs => ?_
  rw [entry_once, Option.some.injEq] at hs
  subst hs
  decide

/-- A minute after its first request an address is counted as before, and as new after a purge. -/
theorem not_purgeAgrees :
    ¬ ∀ (l : RateLimiter) (a : IpAddr) (now : ℤ), Reachable l → l.states.size < maxSize →
      PurgeAgrees l a now := by
  intro h
  have hentry := (h once (.v4 1) 60 ⟨[(.v4 1, 0)], rfl⟩ (by decide +kernel)).entry
  have hpurged : ((once.cleanup 60).increment (.v4 1) 60).2.entry (.v4 1)
      = some (.knownSince 60 1) := by decide +kernel
  have hcounted : (once.increment (.v4 1) 60).2.entry (.v4 1) = some (.knownSince 0 2) := by
    decide +kernel
  rw [hpurged, hcounted] at hentry
  revert hentry
  decide

end RateLimiter

end AcmeChampion
