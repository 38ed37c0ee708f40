import AcmeChampion.Proofs.RateLimiter

/-!
# What the limiter's table can hold

At clock readings away from the ends of an `i64`, a reachable table holds at most `maxSize` entries
and no count of it is 0 or `rateLimit` (`Represents`).  On such a table the sums and differences of
the code stay in their types, so that `exactIncrement` is `increment` (`exactIncrement_eq`), which
keeps the table such (`represents_step`).
-/

namespace AcmeChampion

open MachineInt

namespace RateLimiter

/-- The readings that are away from the ends of an `i64`. -/
def Clock (now : ℤ) : Prop := -2 ^ 63 ≤ now ∧ now + blockDurationSecs < 2 ^ 63

/-- An entry that can be counted against. -/
def Countable : State → Prop
  | .knownSince start count => Clock start ∧ count < rateLimit
  | .blockedUntil last => -2 ^ 63 ≤ last ∧ last < 2 ^ 63

/-- An entry that the table can hold: one that something has been counted against. -/
def Held (s : State) : Prop := Countable s ∧ ∀ start, s ≠ .knownSince start 0

structure Represents (l : RateLimiter) : Prop where
  size_le : l.states.size ≤ maxSize
  held : ∀ a s, l.entry a = some s → Held s

/-! ## The sums stay in their types -/

theorem i64_windowSecs {start : ℤ} (h : Clock start) :
    i64 (start + windowSecs) = .ok (start + windowSecs) := by
  obtain ⟨hlo, hhi⟩ := h
  unfold blockDurationSecs at hhi
  unfold windowSecs
  exact i64_ok (by omega) (by omega)

theorem i64_blockDurationSecs {now : ℤ} (h : Clock now) :
    i64 (now + blockDurationSecs) = .ok (now + blockDurationSecs) := by
  obtain ⟨hlo, hhi⟩ := h
  unfold blockDurationSecs at hhi ⊢
  exact i64_ok (by omega) (by omega)

theorem exactUnexpired_eq {s : State} (now : ℤ) (h : Countable s) :
    exactUnexpired now s = .ok (unexpired now s) := by
  cases s with
  | knownSince start c =>
    simp only [exactUnexpired, i64_windowSecs h.1, ok_bind]
    rfl
  | blockedUntil last => rfl

theorem exactCleanup_eq {l : RateLimiter} (now : ℤ) (h : Represents l) :
    l.exactCleanup now = .ok (l.cleanup now) := by
  have hretain := AList.retainM_ok fun a s hs => exactUnexpired_eq now (h.held a s hs).1
  simp only [exactCleanup, hretain, ok_bind]
  rfl

theorem exactCount_eq {now : ℤ} {s : State} (hnow : Clock now) (hs : Countable s) :
    exactCount now s = .ok (count now s) := by
  cases s with
  | knownSince start c =>
    obtain ⟨hstart, hc⟩ := hs
    have hc' : c.toNat < 100 := hc
    obtain ⟨c', hc1, hc2⟩ := @u8_ok (c.toNat + 1) (by omega) (by omega)
    have hsucc : c' = c + 1 := by
      rw [← UInt8.toNat_inj, toNat_count_succ hc]
      omega
    simp only [exactCount, count, i64_windowSecs hstart, i64_blockDurationSecs hnow, hc1, hsucc,
      ok_bind]
    split_ifs <;> rfl
  | blockedUntil last =>
    simp only [exactCount, count]
    split_ifs <;> rfl

/-! ## A request keeps the table in its bounds -/

theorem held_start {now : ℤ} (hnow : Clock now) : Held (.knownSince now 1) :=
  ⟨⟨hnow, by decide⟩, fun _ h => by simp at h⟩

theorem held_count {now : ℤ} {s : State} (hnow : Clock now) (hs : Countable s) :
    Held (count now s).2 := by
  cases s with
  | knownSince start c =>
    obtain ⟨hstart, hc⟩ := hs
    rcases count_knownSince now start c with ⟨-, h⟩ | ⟨-, -, h⟩ | ⟨-, hlimit, h⟩ <;> rw [h]
    · exact held_start hnow
    · refine ⟨?_, fun _ h => by simp at h⟩
      unfold Clock blockDurationSecs at hnow
      simp only [Countable, blockDurationSecs]
      omega
    · refine ⟨⟨hstart, hlimit⟩, fun start' h => ?_⟩
      have hsucc := toNat_count_succ hc
      rw [(State.knownSince.inj h).2] at hsucc
      exact absurd hsucc (Nat.succ_ne_zero _).symm
  | blockedUntil last =>
    rcases count_blockedUntil now last with ⟨-, h⟩ | ⟨-, h⟩ <;> rw [h]
    · exact held_start hnow
    · exact ⟨hs, fun _ h => by simp at h⟩

theorem countable_getD {entry : Option State} {now : ℤ} (hnow : Clock now)
    (h : ∀ s, entry = some s → Held s) : Countable (entry.getD (.knownSince now 0)) := by
  rcases entry with _ | s
  · exact ⟨hnow, by decide⟩
  · exact (h s rfl).1

theorem represents_new : Represents new :=
  ⟨Nat.zero_le _, fun a s h => by simp [entry, new] at h⟩

theorem Represents.cleanup {l : RateLimiter} (h : Represents l) (now : ℤ) :
    Represents (l.cleanup now) where
  size_le := (size_cleanup_le l now).trans h.size_le
  held a s hs := by
    rw [entry_cleanup, Option.filter_eq_some_iff] at hs
    exact h.held a s hs.1

theorem size_step_le {l : RateLimiter} (h : l.states.size ≤ maxSize) (r : Request) :
    (step l r).2.states.size ≤ maxSize := by
  unfold step
  rcases increment_cases l r.1 r.2 with ⟨-, hinc⟩ | ⟨hlt, hinc⟩ <;> rw [hinc]
  · unfold purged
    split_ifs
    · exact (size_cleanup_le l r.2).trans h
    · exact h
  · exact (AList.size_insert_le (l.purged r.2).states r.1 _).trans hlt

theorem represents_step {l : RateLimiter} {r : Request} (h : Represents l) (hr : Clock r.2) :
    Represents (step l r).2 where
  size_le := size_step_le h.size_le r
  held a := @step_entry (fun entry => ∀ s, entry = some s → Held s) l r a (h.held a)
    (fun _ _ _ _ hs => nomatch hs)
    fun _ hentry _ hs => Option.some.inj hs ▸ held_count hr (countable_getD hr hentry)

/-! ## The code's own integers -/

theorem exactEnter_eq {l : RateLimiter} {now : ℤ} (h : Represents l) (hnow : Clock now)
    (a : IpAddr) : l.exactEnter a now = .ok (l.enter a now) := by
  have hcount := exactCount_eq hnow (countable_getD hnow (h.held a))
  unfold entry at hcount
  simp only [exactEnter, hcount, ok_bind]
  rfl

/-- On such a table no sum or difference leaves its type. -/
theorem exactIncrement_eq {l : RateLimiter} {now : ℤ} (h : Represents l) (hnow : Clock now)
    (a : IpAddr) : l.exactIncrement a now = .ok (l.increment a now) := by
  have hle := size_cleanup_le l now
  have hsize := h.size_le
  unfold maxSize at hsize
  have hpurged : usize (l.states.size - (l.cleanup now).states.size) =
      .ok (l.states.size - (l.cleanup now).states.size : ℤ).toNat :=
    usize_ok (by omega) (by omega)
  simp only [exactIncrement, increment, exactCleanup_eq now h, hpurged, ok_bind,
    exactEnter_eq h hnow, exactEnter_eq (h.cleanup now) hnow]
  split_ifs <;> rfl

theorem exactRun_eq : ∀ (rs : List Request) (l : RateLimiter), Represents l →
    (∀ r ∈ rs, Clock r.2) →
      rs.foldlM (fun l r => do return (← l.exactIncrement r.1 r.2).2) l
          = .ok (Machine.final step l rs) ∧
        Represents (Machine.final step l rs)
  | [], l, h, _ => ⟨rfl, h⟩
  | r :: rs, l, h, hrs => by
    have hr := hrs r (by simp)
    rw [List.foldlM_cons, exactIncrement_eq h hr]
    exact exactRun_eq rs _ (represents_step h hr) fun r' hr' => hrs r' (by simp [hr'])

/-- A request changes another address's entry only by purging it, when the table is full. -/
theorem entry_step_of_ne {l : RateLimiter} {r : Request} {a : IpAddr} (ha : a ≠ r.1) :
    (step l r).2.entry a = l.entry a ∨
      (maxSize ≤ l.states.size ∧ (step l r).2.entry a = none ∧
        (l.cleanup r.2).entry a = none) := by
  have hentry : (step l r).2.entry a = (l.purged r.2).entry a := by
    unfold step
    rcases increment_cases l r.1 r.2 with ⟨-, h⟩ | ⟨-, h⟩ <;> rw [h]
    rw [entry_enter_of_ne r.2 ha]
  rw [hentry]
  by_cases hfull : maxSize ≤ l.states.size
  · rw [← purged_of_ge hfull]
    rcases entry_purged l r.2 a with h | ⟨h, -⟩
    · exact .inl h
    · exact .inr ⟨hfull, h, h⟩
  · rw [purged_of_lt (by omega)]
    exact .inl rfl

/-- After every request of a run, at whatever readings away from the ends of an `i64`: the sums
and differences of all requests stayed in their types, the table is in its bounds, and the last
request changed no other address's entry but by purging a full table. -/
theorem increment_represents (rs : List Request) (r : Request)
    (hclock : ∀ r' ∈ rs ++ [r], Clock r'.2) :
    ∃ l result l', exactRun rs = .ok l ∧ l.exactIncrement r.1 r.2 = .ok (result, l') ∧
      l'.states.size ≤ maxSize ∧
      (∀ a start count, l'.entry a = some (.knownSince start count) →
        1 ≤ count ∧ count ≤ rateLimit - 1) ∧
      ∀ a, a ≠ r.1 → l'.entry a = l.entry a ∨
        (maxSize ≤ l.states.size ∧ l'.entry a = none ∧ (l.cleanup r.2).entry a = none) := by
  have hr : Clock r.2 := hclock r (by simp)
  obtain ⟨hrun, hl⟩ := exactRun_eq rs new represents_new fun r' hr' => hclock r' (by simp [hr'])
  have hstep := represents_step hl hr
  refine ⟨_, _, _, hrun, exactIncrement_eq hl hr r.1, hstep.size_le, ?_, fun a ha => ?_⟩
  · intro a start c ha
    obtain ⟨⟨-, hlt⟩, hne⟩ := hstep.held a _ ha
    have hlt' : c.toNat < 100 := hlt
    have hpos : c ≠ 0 := fun h => hne start (by rw [h])
    refine ⟨UInt8.pos_iff_ne_zero.2 hpos, UInt8.le_iff_toNat_le.2 (Nat.le_of_lt_succ hlt')⟩
  · exact entry_step_of_ne ha

theorem increment_represents_backwards :
    ∃ l result l', exactRun [(.v4 1, 100), (.v4 2, 50)] = .ok l ∧
      l.exactIncrement (.v4 1) 0 = .ok (result, l') ∧
      l'.states.size ≤ maxSize ∧
      (∀ a start count, l'.entry a = some (.knownSince start count) →
        1 ≤ count ∧ count ≤ rateLimit - 1) ∧
      ∀ a, a ≠ .v4 1 → l'.entry a = l.entry a ∨
        (maxSize ≤ l.states.size ∧ l'.entry a = none ∧ (l.cleanup 0).entry a = none) :=
  increment_represents [(.v4 1, 100), (.v4 2, 50)] (.v4 1, 0) fun r hr => by
    simp only [List.cons_append, List.nil_append, List.mem_cons, List.not_mem_nil, or_false] at hr
    rcases hr with rfl | rfl | rfl <;> exact ⟨by decide, by decide⟩

end RateLimiter

end AcmeChampion
