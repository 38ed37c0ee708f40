import AcmeChampion.Proofs.RateLimiter

/-!
# When an address is refused

A block holds until its last second in every continuation: no purge takes it, and no request of
its address gets past it (`refused_while_blocked`).  A known address below the limit is refused
only while the table is full of live entries (`increment_known`).  Stored times are bounded by the
readings seen, so a block duration after the last of them every entry has expired and every address
is let through (`increment_after`).
-/

namespace AcmeChampion

namespace RateLimiter

/-! ## A block is kept -/

/-- A request of `a` at `now` takes its counter to the limit. -/
structure TakesToLimit (l : RateLimiter) (a : IpAddr) (now start : ℤ) (c : UInt8) : Prop where
  /-- the table has room once purged, so the request is counted -/
  room : (l.purged now).states.size < maxSize
  entry : (l.purged now).entry a = some (.knownSince start c)
  open_window : now ≤ start + windowSecs
  limit : c + 1 = rateLimit

theorem TakesToLimit.blocks {l : RateLimiter} {a : IpAddr} {now start : ℤ} {c : UInt8}
    (h : TakesToLimit l a now start c) :
    (l.increment a now).1 = .block ∧
      (l.increment a now).2.entry a = some (.blockedUntil (now + blockDurationSecs)) := by
  have hcur : (l.purged now).current a now = .knownSince start c := by simp [current, h.entry]
  have hcount : count now (.knownSince start c)
      = (.block, .blockedUntil (now + blockDurationSecs)) := by
    rcases count_knownSince now start c with ⟨hold, -⟩ | ⟨-, -, hc⟩ | ⟨-, hlimit, -⟩
    · have := h.open_window
      omega
    · exact hc
    · rw [h.limit] at hlimit
      exact absurd hlimit (by decide)
  rw [increment_of_lt h.room, enter_fst, entry_enter_self, hcur, hcount]
  exact ⟨rfl, rfl⟩

variable {a : IpAddr} {last : ℤ}

theorem blocked_step {l : RateLimiter} {r : Request}
    (h : l.entry a = some (.blockedUntil last)) (hr : r.2 < last) :
    (step l r).2.entry a = some (.blockedUntil last) := by
  refine @step_entry (· = some (.blockedUntil last)) l r a h (fun s hs hdead => ?_) fun s hs => ?_
  · rw [Option.some.injEq] at hs
    subst hs
    rw [unexpired_blockedUntil] at hdead
    omega
  · rw [hs, Option.getD_some]
    rcases count_blockedUntil r.2 last with ⟨hold, -⟩ | ⟨-, hc⟩
    · omega
    · rw [hc]

theorem blocked_refused {l : RateLimiter} {now : ℤ}
    (h : l.entry a = some (.blockedUntil last)) (hnow : now < last) :
    (l.increment a now).1 = .block := by
  have hlive : unexpired now (.blockedUntil last) := by simpa [unexpired] using hnow
  have hpurged := entry_purged_of_unexpired h hlive
  rcases increment_cases l a now with ⟨-, h'⟩ | ⟨-, h'⟩
  · rw [h']
  · rw [h', enter_fst, current, hpurged, Option.getD_some]
    rcases count_blockedUntil now last with ⟨hold, -⟩ | ⟨-, hc⟩
    · omega
    · rw [hc]

/-- A request that takes an address to the limit is refused, and so is every request of that
address in every continuation at clock readings within the block, in any order. -/
theorem refused_while_blocked (l : RateLimiter) (a : IpAddr) (t start : ℤ) (c : UInt8)
    (hlimit : TakesToLimit l a t start c) (rs : List Request)
    (hrs : ∀ r ∈ rs, r.2 < t + blockDurationSecs) :
    (l.increment a t).1 = .block ∧
      ∀ e ∈ Machine.trace step (l.increment a t).2 rs, e.1.1 = a → e.2 = .block := by
  obtain ⟨hres, hentry⟩ := hlimit.blocks
  have hrefused : ∀ (l : RateLimiter) (r : Request),
      l.entry a = some (.blockedUntil (t + blockDurationSecs)) →
        r.2 < t + blockDurationSecs → r.1 = a → (step l r).1 = .block := by
    rintro l r hl hr rfl
    exact blocked_refused hl hr
  exact ⟨hres, @Machine.trace_of_invariant _ _ _ step _ _ (fun r res => r.1 = a → res = .block)
    (fun _ _ => blocked_step) hrefused rs _ hentry hrs⟩

theorem refused_while_blocked_burst :
    ((Machine.final step new (List.replicate 99 (.v4 1, 0))).increment (.v4 1) 60).1 = .block ∧
      (Machine.trace step
        ((Machine.final step new (List.replicate 99 (.v4 1, 0))).increment (.v4 1) 60).2
        [(.v4 1, 659), (.v4 1, 0)]).all (·.2 = .block) = true := by
  obtain ⟨h, hrs⟩ := refused_while_blocked (Machine.final step new (List.replicate 99 (.v4 1, 0)))
    (.v4 1) 60 0 99 ⟨by decide +kernel, by decide +kernel, by decide, by decide⟩
    [(.v4 1, 659), (.v4 1, 0)] (by decide)
  have haddr : ∀ e ∈ Machine.trace step
      ((Machine.final step new (List.replicate 99 (.v4 1, 0))).increment (.v4 1) 60).2
      [(.v4 1, 659), (.v4 1, 0)], e.1.1 = .v4 1 := by decide +kernel
  exact ⟨h, List.all_eq_true.2 fun e he => decide_eq_true (hrs e he (haddr e he))⟩

/-! ## A full table refuses -/

theorem size_purged_lt_iff (l : RateLimiter) (now : ℤ) :
    (l.purged now).states.size < maxSize ↔
      l.states.size < maxSize ∨ (l.cleanup now).states.size < maxSize := by
  have hle := size_cleanup_le l now
  unfold purged
  split_ifs <;> omega

/-- A known address below the limit, in its window, is let through unless the table is full and
the purge frees nothing. -/
theorem increment_known (l : RateLimiter) (a : IpAddr) (start now : ℤ) (c : UInt8)
    (hentry : l.entry a = some (.knownSince start c)) (hc : c + 1 < rateLimit)
    (hnow : now ≤ start + windowSecs) :
    (l.increment a now).1 = .ok ↔
      l.states.size < maxSize ∨ (l.cleanup now).states.size < maxSize := by
  rw [← size_purged_lt_iff]
  rcases increment_cases l a now with ⟨hfull, h⟩ | ⟨hroom, h⟩
  · rw [h]
    simp [hfull]
  have hok : (count now ((l.purged now).current a now)).1 = .ok := by
    unfold current
    rcases entry_purged l now a with hp | ⟨hp, -⟩
    · rw [hp, hentry, Option.getD_some]
      rcases count_knownSince now start c with ⟨hold, -⟩ | ⟨-, hlimit, -⟩ | ⟨-, -, hcount⟩
      · omega
      · exact absurd hc (UInt8.not_lt.2 hlimit)
      · rw [hcount]
    · -- purged in the last second of its window: the count starts again
      rw [hp, Option.getD_none]
      exact congrArg Prod.fst (count_new now)
  rw [h, enter_fst, hok]
  simp [hroom]

def fillTable : List Request := (List.range 100).map fun n => (.v4 (BitVec.ofNat 32 n), 0)

/-- Three addresses, two of them known and one blocked. -/
def threeKnown : RateLimiter := Machine.final step new
  ((.v4 1, 0) :: (.v6 7, 3) :: List.replicate 100 (.v4 2, 5))

/-- The second request of an address in its last second is let through. -/
theorem increment_known_second : (threeKnown.increment (.v4 1) 60).1 = .ok :=
  (increment_known threeKnown (.v4 1) 0 60 1 (by decide +kernel) (by decide) (by decide)).2
    (.inl (by decide +kernel))

/-- An address that sent one request is refused its second while ninety-nine others are live. -/
theorem not_increment_known_ok :
    ¬ ∀ (l : RateLimiter) (a : IpAddr) (start now : ℤ) (c : UInt8), Reachable l →
      l.entry a = some (.knownSince start c) → c + 1 < rateLimit → start ≤ now →
        now ≤ start + windowSecs → (l.increment a now).1 = .ok := by
  intro h
  have hok := h (Machine.final step new fillTable) (.v4 0) 0 0 1 ⟨fillTable, rfl⟩
    (by decide +kernel) (by decide) (by decide) (by decide)
  have hblock : ((Machine.final step new fillTable).increment (.v4 0) 0).1 = .block := by
    decide +kernel
  rw [hblock] at hok
  cases hok

/-! ## Everything expires -/

/-- The entry's times come from readings up to `T`. -/
def TimeLe (T : ℤ) : State → Prop
  | .knownSince start _ => start ≤ T
  | .blockedUntil last => last ≤ T + blockDurationSecs

theorem timeLe_count {T now : ℤ} {s : State} (hs : TimeLe T s) (hnow : now ≤ T) :
    TimeLe T (count now s).2 := by
  cases s with
  | knownSince start c =>
    rcases count_knownSince now start c with ⟨-, h⟩ | ⟨-, -, h⟩ | ⟨-, -, h⟩ <;> rw [h]
    · exact hnow
    · exact Int.add_le_add_right hnow _
    · exact hs
  | blockedUntil last =>
    rcases count_blockedUntil now last with ⟨-, h⟩ | ⟨-, h⟩ <;> rw [h]
    · exact hnow
    · exact hs

theorem timeLe_final {T : ℤ} {rs : List Request} (hrs : ∀ r ∈ rs, r.2 ≤ T) (a : IpAddr) :
    ∀ s, (Machine.final step new rs).entry a = some s → TimeLe T s := by
  refine @Machine.final_of_invariant _ _ _ step (fun l => ∀ s, l.entry a = some s → TimeLe T s)
    (·.2 ≤ T) (fun l r hl hr => ?_) rs new (fun s h => by simp [entry, new] at h) hrs
  refine @step_entry (fun entry => ∀ s, entry = some s → TimeLe T s) l r a hl
    (fun _ _ _ _ h => by cases h) fun e he s hs => ?_
  rw [← Option.some.inj hs]
  refine timeLe_count ?_ hr
  rcases e with _ | s'
  · exact hr
  · exact he s' rfl

theorem expired_of_timeLe {T now : ℤ} {s : State} (hs : TimeLe T s)
    (hnow : T + blockDurationSecs < now) :
    unexpired now s = false ∧ (count now s).1 = .ok := by
  have hlong := windowSecs_le_blockDurationSecs
  cases s with
  | knownSince start c =>
    have hs : start ≤ T := hs
    refine ⟨unexpired_knownSince.2 (by omega), ?_⟩
    rcases count_knownSince now start c with ⟨-, h⟩ | ⟨hin, -⟩ | ⟨hin, -⟩
    · rw [h]
    · omega
    · omega
  | blockedUntil last =>
    have hs : last ≤ T + blockDurationSecs := hs
    refine ⟨unexpired_blockedUntil.2 (by omega), ?_⟩
    rcases count_blockedUntil now last with ⟨-, h⟩ | ⟨hin, -⟩
    · rw [h]
    · omega

/-- After any requests at readings up to `T`, a request at a reading more than a block duration
past `T` is let through, whatever its address. -/
theorem increment_after (rs : List Request) (T now : ℤ) (a : IpAddr) (hrs : ∀ r ∈ rs, r.2 ≤ T)
    (hnow : T + blockDurationSecs < now) :
    ((Machine.final step new rs).increment a now).1 = .ok := by
  have htime := @timeLe_final T rs hrs
  have hroom : ((Machine.final step new rs).purged now).states.size < maxSize := by
    rw [size_purged_lt_iff]
    refine or_iff_not_imp_left.2 fun _ => ?_
    have hempty : ((Machine.final step new rs).cleanup now).states.size = 0 :=
      AList.size_retain_eq_zero fun b s hs => (expired_of_timeLe (htime b s hs) hnow).1
    rw [hempty]
    decide
  rw [increment_of_lt hroom, enter_fst, current]
  rcases entry_purged (Machine.final step new rs) now a with h | ⟨h, -⟩ <;> rw [h]
  · rcases hs : (Machine.final step new rs).entry a with _ | s
    · exact congrArg Prod.fst (count_new now)
    · exact (expired_of_timeLe (htime a s hs) hnow).2
  · exact congrArg Prod.fst (count_new now)

theorem increment_after_fill :
    ((Machine.final step new fillTable).increment (.v4 200) 601).1 = .ok :=
  increment_after fillTable 0 601 (.v4 200) (by decide +kernel) (by decide)

end RateLimiter

end AcmeChampion
