import AcmeChampion.RateLimiter

/-!
# What a request does to an entry

A request first purges a full table and is refused if that frees nothing; else it counts against
its own address's entry (`increment_cases`).  So the entry of an address changes in two ways only:
it is purged when expired (`entry_purged`), or a request of that address counts against it
(`entry_enter_self`).
-/

namespace AcmeChampion

namespace RateLimiter

def entry (l : RateLimiter) (a : IpAddr) : Option State := l.states.lookup a

/-- The limiter after the purge that a request at `now` starts with. -/
def purged (l : RateLimiter) (now : ℤ) : RateLimiter :=
  if l.states.size ≥ maxSize then l.cleanup now else l

theorem unexpired_knownSince {now start : ℤ} {c : UInt8} :
    unexpired now (.knownSince start c) = false ↔ start + windowSecs ≤ now := by
  simp [unexpired]

theorem unexpired_blockedUntil {now last : ℤ} :
    unexpired now (.blockedUntil last) = false ↔ last ≤ now := by
  simp [unexpired]

theorem windowSecs_le_blockDurationSecs : windowSecs ≤ blockDurationSecs := by decide

theorem size_cleanup_le (l : RateLimiter) (now : ℤ) :
    (l.cleanup now).states.size ≤ l.states.size :=
  AList.size_retain_le _ _

theorem purged_of_lt {l : RateLimiter} {now : ℤ} (h : l.states.size < maxSize) :
    l.purged now = l := if_neg (by omega)

theorem purged_of_ge {l : RateLimiter} {now : ℤ} (h : maxSize ≤ l.states.size) :
    l.purged now = l.cleanup now := if_pos h

theorem entry_cleanup (l : RateLimiter) (now : ℤ) (a : IpAddr) :
    (l.cleanup now).entry a = (l.entry a).filter (unexpired now) :=
  AList.lookup_retain _ _ _

theorem entry_purged (l : RateLimiter) (now : ℤ) (a : IpAddr) :
    (l.purged now).entry a = l.entry a ∨
      (l.purged now).entry a = none ∧ ∃ s, l.entry a = some s ∧ unexpired now s = false := by
  unfold purged
  split_ifs with hfull
  · rw [entry_cleanup]
    rcases hs : l.entry a with _ | s
    · exact .inl rfl
    · cases hlive : unexpired now s
      · exact .inr ⟨by simp [hlive], s, rfl, hlive⟩
      · exact .inl (by simp [hlive])
  · exact .inl rfl

theorem entry_purged_of_unexpired {l : RateLimiter} {now : ℤ} {a : IpAddr} {s : State}
    (h : l.entry a = some s) (hlive : unexpired now s) : (l.purged now).entry a = some s := by
  rcases entry_purged l now a with h1 | ⟨-, s', hs', hdead⟩
  · rw [h1, h]
  · rw [h, Option.some.injEq] at hs'
    simp [← hs', hlive] at hdead

/-- A request is refused, the purge done, when the table stays full; else it counts. -/
theorem increment_cases (l : RateLimiter) (a : IpAddr) (now : ℤ) :
    (maxSize ≤ (l.purged now).states.size ∧ l.increment a now = (.block, l.purged now)) ∨
    ((l.purged now).states.size < maxSize ∧ l.increment a now = (l.purged now).enter a now) := by
  unfold increment
  by_cases hfull : l.states.size ≥ maxSize
  · rw [if_pos hfull, purged_of_ge hfull]
    by_cases hlive : (l.cleanup now).states.size ≥ maxSize
    · exact .inl ⟨hlive, if_pos hlive⟩
    · exact .inr ⟨by omega, if_neg hlive⟩
  · rw [if_neg hfull, purged_of_lt (by omega)]
    exact .inr ⟨by omega, rfl⟩

theorem increment_of_lt {l : RateLimiter} {now : ℤ}
    (h : (l.purged now).states.size < maxSize) (a : IpAddr) :
    l.increment a now = (l.purged now).enter a now := by
  rcases increment_cases l a now with ⟨h', -⟩ | ⟨-, h'⟩
  · omega
  · exact h'

theorem count_knownSince (now start : ℤ) (c : UInt8) :
    (start + windowSecs < now ∧
      count now (.knownSince start c) = (.ok, .knownSince now 1)) ∨
    (now ≤ start + windowSecs ∧ rateLimit ≤ c + 1 ∧
      count now (.knownSince start c) = (.block, .blockedUntil (now + blockDurationSecs))) ∨
    (now ≤ start + windowSecs ∧ c + 1 < rateLimit ∧
      count now (.knownSince start c) = (.ok, .knownSince start (c + 1))) := by
  simp only [count]
  split_ifs with hold hlimit
  · exact .inl ⟨hold, rfl⟩
  · exact .inr (.inl ⟨by omega, hlimit, rfl⟩)
  · exact .inr (.inr ⟨by omega, UInt8.not_le.1 hlimit, rfl⟩)

theorem count_blockedUntil (now last : ℤ) :
    (last < now ∧ count now (.blockedUntil last) = (.ok, .knownSince now 1)) ∨
    (now ≤ last ∧ count now (.blockedUntil last) = (.block, .blockedUntil last)) := by
  simp only [count]
  split_ifs with hold
  · exact .inl ⟨hold, rfl⟩
  · exact .inr ⟨by omega, rfl⟩

theorem count_new (now : ℤ) : count now (.knownSince now 0) = (.ok, .knownSince now 1) := by
  rcases count_knownSince now now 0 with ⟨hold, -⟩ | ⟨-, hlimit, -⟩ | ⟨-, -, h⟩
  · unfold windowSecs at hold
    omega
  · exact absurd hlimit (by decide)
  · exact h

/-- The entry a request of the address counts against. -/
def current (l : RateLimiter) (a : IpAddr) (now : ℤ) : State :=
  (l.entry a).getD (.knownSince now 0)

theorem enter_fst (l : RateLimiter) (a : IpAddr) (now : ℤ) :
    (l.enter a now).1 = (count now (l.current a now)).1 := rfl

theorem entry_enter_self (l : RateLimiter) (a : IpAddr) (now : ℤ) :
    (l.enter a now).2.entry a = some (count now (l.current a now)).2 :=
  AList.lookup_insert _

theorem entry_enter_of_ne {l : RateLimiter} {a b : IpAddr} (now : ℤ) (h : a ≠ b) :
    (l.enter b now).2.entry a = l.entry a :=
  AList.lookup_insert_ne h

/-- What a purge may do and what counting does, seen from the entry of one address: a property
that holds of no entry, that a purge keeps and that counting keeps, every request keeps. -/
theorem step_entry {P : Option State → Prop} {l : RateLimiter} {r : Request} {a : IpAddr}
    (hP : P (l.entry a)) (hpurge : ∀ s, P (some s) → unexpired r.2 s = false → P none)
    (hcount : ∀ s, P s → P (some (count r.2 (s.getD (.knownSince r.2 0))).2)) :
    P ((step l r).2.entry a) := by
  have hpurged : P ((l.purged r.2).entry a) := by
    rcases entry_purged l r.2 a with h | ⟨h, s, hs, hdead⟩
    · rwa [h]
    · rw [h]
      exact hpurge s (hs ▸ hP) hdead
  unfold step
  rcases increment_cases l r.1 r.2 with ⟨-, h⟩ | ⟨-, h⟩
  · rwa [h]
  · rw [h]
    by_cases ha : a = r.1
    · rw [← ha, entry_enter_self]
      exact hcount _ hpurged
    · rwa [entry_enter_of_ne _ ha]

/-! ## The counters -/

def Counts : State → Prop
  | .knownSince _ count => count < rateLimit
  | .blockedUntil _ => True

/-- Every counter in the table is below the limit. -/
def Counting (l : RateLimiter) : Prop := ∀ a s, l.entry a = some s → Counts s

theorem counting_new : Counting new := fun a s h => by simp [entry, new] at h

theorem counts_count (now : ℤ) (s : State) : Counts (count now s).2 := by
  have h1 : (1 : UInt8) < rateLimit := by decide
  cases s with
  | knownSince start c =>
    rcases count_knownSince now start c with ⟨-, h⟩ | ⟨-, -, h⟩ | ⟨-, hc, h⟩ <;> rw [h]
    · exact h1
    · trivial
    · exact hc
  | blockedUntil last =>
    rcases count_blockedUntil now last with ⟨-, h⟩ | ⟨-, h⟩ <;> rw [h]
    · exact h1
    · trivial

theorem counting_step {l : RateLimiter} {r : Request} (h : Counting l) :
    Counting (step l r).2 := fun a =>
  @step_entry (fun entry => ∀ st, entry = some st → Counts st) l r a (h a)
    (fun _ _ _ _ hs => nomatch hs) fun _ _ _ hs => Option.some.inj hs ▸ counts_count r.2 _

theorem toNat_count_succ {c : UInt8} (h : c < rateLimit) : (c + 1).toNat = c.toNat + 1 := by
  have hc : c.toNat < 100 := h
  rw [UInt8.toNat_add]
  simp
  omega

end RateLimiter

end AcmeChampion
