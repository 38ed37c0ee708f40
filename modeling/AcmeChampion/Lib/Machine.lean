import Mathlib.Data.List.Count
import Mathlib.Tactic.SplitIfs

/-!
# Runs of a machine that answers each input

A machine is a step `σ → ι → ο × σ`.  `trace` lists what it was given and what it answered, and
`final` is where it ends.  What every step keeps, a run keeps (`final_of_invariant`,
`trace_of_invariant`); and a budget that every step pays from, and that waiting never raises,
bounds how often a run answers in a given way (`countP_trace_le`).  A run that ends at an answer
that stops it takes a part of its inputs, `taken`; it takes them all when no answer but the last one
stops it (`taken_eq_iff`).  An answer depends on the inputs before it alone (`mem_trace_iff`), and a
part of the state that only some inputs step ends where these lead (`final_part`); they are answered
as though they were alone, if their answers depend on that part (`filter_trace`).
-/

namespace Machine

variable {σ ι ο : Type*} (step : σ → ι → ο × σ)

/-- Where a run from `s` on the inputs ends. -/
def final : σ → List ι → σ
  | s, [] => s
  | s, i :: is => final (step s i).2 is

/-- The inputs of a run from `s`, each with its answer. -/
def trace : σ → List ι → List (ι × ο)
  | _, [] => []
  | s, i :: is => (i, (step s i).1) :: trace (step s i).2 is

def Reachable (s t : σ) : Prop := ∃ is, final step s is = t

theorem final_of_invariant {P : σ → Prop} {G : ι → Prop}
    (hstep : ∀ s i, P s → G i → P (step s i).2) :
    ∀ (is : List ι) (s : σ), P s → (∀ i ∈ is, G i) → P (final step s is)
  | [], _, hs, _ => hs
  | i :: is, s, hs, hG => by
    refine final_of_invariant hstep is _ (hstep s i hs (hG i (by simp))) fun j hj => ?_
    exact hG j (by simp [hj])

/-- If moreover each such step answers `Q`, every answer of the run is `Q`. -/
theorem trace_of_invariant {P : σ → Prop} {G : ι → Prop} {Q : ι → ο → Prop}
    (hstep : ∀ s i, P s → G i → P (step s i).2) (hout : ∀ s i, P s → G i → Q i (step s i).1) :
    ∀ (is : List ι) (s : σ), P s → (∀ i ∈ is, G i) → ∀ e ∈ trace step s is, Q e.1 e.2
  | [], _, _, _ => by simp [trace]
  | i :: is, s, hs, hG => by
    have hi := hG i (by simp)
    have ih := trace_of_invariant hstep hout is _ (hstep s i hs hi) fun j hj => hG j (by simp [hj])
    intro e he
    simp only [trace, List.mem_cons] at he
    rcases he with rfl | he
    · exact hout s i hs hi
    · exact ih e he

/-- Amortised counting: inputs come in the order `R`, the budget `V i s` left at `s` when the
inputs have reached `i` pays for each step that counts, and later inputs never raise it.  Then a
run counts at most the budget it starts with. -/
theorem countP_trace_le {P : σ → Prop} {R : ι → ι → Prop} {p : ι × ο → Bool} (V : ι → σ → ℕ)
    (hP : ∀ s i, P s → P (step s i).2)
    (hpay : ∀ s i, P s → (if p (i, (step s i).1) then 1 else 0) + V i (step s i).2 ≤ V i s)
    (hwait : ∀ s i j, P s → R i j → V j s ≤ V i s) :
    ∀ (is : List ι) (s : σ) (i : ι), P s → (i :: is).Pairwise R →
      (trace step s is).countP p ≤ V i s
  | [], _, _, _, _ => by simp [trace]
  | j :: is, s, i, hs, hR => by
    have hij : R i j := (List.pairwise_cons.1 hR).1 j (by simp)
    have ih := countP_trace_le V hP hpay hwait is _ j (hP s j hs) (List.pairwise_cons.1 hR).2
    calc (trace step s (j :: is)).countP p
        = (trace step (step s j).2 is).countP p + (if p (j, (step s j).1) then 1 else 0) := by
          simp [trace, List.countP_cons]
      _ ≤ (if p (j, (step s j).1) then 1 else 0) + V j (step s j).2 := by omega
      _ ≤ V j s := hpay s j hs
      _ ≤ V i s := hwait s i j hs hij

/-- The inputs that a run from `s` takes which ends at the first answer that stops it. -/
def taken (stops : ο → Bool) : σ → List ι → List ι
  | _, [] => []
  | s, i :: is => i :: if stops (step s i).1 then [] else taken stops (step s i).2 is

theorem taken_prefix (stops : ο → Bool) : ∀ (is : List ι) (s : σ), taken step stops s is <+: is
  | [], _ => List.prefix_rfl
  | i :: is, s => by
    simp only [taken]
    split_ifs
    · exact List.cons_prefix_cons.2 ⟨rfl, List.nil_prefix⟩
    · exact List.cons_prefix_cons.2 ⟨rfl, taken_prefix stops is _⟩

/-- Whether a step stops may be read off a part `R s` of the state, if it is known what a step that
does not stop makes of that part. -/
theorem taken_eq_iff {τ : Type*} {stops : ο → Bool} {R : σ → τ} {next : τ → ι → τ}
    {Stops : τ → ι → Prop} (hstops : ∀ s i, stops (step s i).1 ↔ Stops (R s) i)
    (hnext : ∀ s i, stops (step s i).1 = false → R (step s i).2 = next (R s) i) :
    ∀ (is : List ι) (s : σ), taken step stops s is = is ↔
      ∀ js i ks, is = js ++ i :: ks → ks ≠ [] → ¬ Stops (js.foldl next (R s)) i
  | [], s => by simp [taken]
  | i :: is, s => by
    have ih := taken_eq_iff hstops hnext is (step s i).2
    simp only [taken, List.cons.injEq, true_and]
    cases h : stops (step s i).1
    · simp only [Bool.false_eq_true, if_false]
      rw [ih, hnext s i h]
      constructor
      · intro hall js j ks hsplit hks
        rcases js with _ | ⟨j', js⟩
        · obtain ⟨rfl, rfl⟩ := List.cons.inj hsplit
          rw [List.foldl_nil, ← hstops, h]
          exact Bool.false_ne_true
        · obtain ⟨rfl, rfl⟩ := List.cons.inj hsplit
          exact hall js j ks rfl hks
      · intro hall js j ks hsplit hks
        exact hall (i :: js) j ks (by rw [hsplit]; rfl) hks
    · simp only [if_true]
      constructor
      · rintro rfl js j ks hsplit hks
        have hlen := congrArg List.length hsplit
        have hpos := List.length_pos_iff.2 hks
        simp only [List.length_append, List.length_cons, List.length_nil] at hlen
        omega
      · intro hall
        by_contra hne
        exact hall [] i is rfl (Ne.symm hne) ((hstops s i).1 h)

/-! ## Parts of a run -/

theorem final_append : ∀ (is js : List ι) (s : σ),
    final step s (is ++ js) = final step (final step s is) js
  | [], _, _ => rfl
  | i :: is, js, s => final_append is js (step s i).2

theorem final_concat (is : List ι) (i : ι) (s : σ) :
    final step s (is ++ [i]) = (step (final step s is) i).2 := by
  rw [final_append]
  rfl

/-- An answer of a run is that to an input, at the state that the inputs before it lead to. -/
theorem mem_trace_iff {e : ι × ο} : ∀ {is : List ι} {s : σ}, e ∈ trace step s is ↔
    ∃ pre post, is = pre ++ e.1 :: post ∧ e.2 = (step (final step s pre) e.1).1
  | [], s => by simp [trace]
  | i :: is, s => by
    have ih := @mem_trace_iff e is (step s i).2
    rw [trace, List.mem_cons, ih]
    constructor
    · rintro (rfl | ⟨pre, post, rfl, heq⟩)
      · exact ⟨[], is, rfl, rfl⟩
      · exact ⟨i :: pre, post, rfl, heq⟩
    · rintro ⟨_ | ⟨j, pre⟩, post, his, heq⟩
      · obtain ⟨rfl, rfl⟩ := List.cons.inj his
        exact .inl (Prod.ext rfl heq)
      · obtain ⟨rfl, rfl⟩ := List.cons.inj his
        exact .inr ⟨pre, post, rfl, heq⟩

/-- A part of the state that every input steps as `next` does with what `f` makes of the input, if
anything, ends where these steps lead. -/
theorem final_part {τ κ : Type*} {R : σ → τ} {f : ι → Option κ} {next : τ → κ → τ}
    (h : ∀ s i, R (step s i).2 = (f i).elim (R s) (next (R s))) :
    ∀ (is : List ι) (s : σ), R (final step s is) = (is.filterMap f).foldl next (R s)
  | [], _ => rfl
  | i :: is, s => by
    have ih := final_part h is (step s i).2
    rw [final, ih, h, List.filterMap_cons]
    rcases f i with _ | k <;> rfl

/-- What a run answers that, input by input, another machine answers to what `f` makes of the input,
at a part of the state, the other machine answers at least as often. -/
theorem countP_trace_part {τ κ ω : Type*} {R : σ → τ} {f : ι → Option κ} {next : τ → κ → ω × τ}
    {p : ι × ο → Bool} {q : κ × ω → Bool}
    (h : ∀ s i, R (step s i).2 = (f i).elim (R s) fun k => (next (R s) k).2)
    (hp : ∀ s i, p (i, (step s i).1) → ∃ k, f i = some k ∧ q (k, (next (R s) k).1)) :
    ∀ (is : List ι) (s : σ),
      (trace step s is).countP p ≤ (trace next (R s) (is.filterMap f)).countP q
  | [], _ => by simp [trace]
  | i :: is, s => by
    have ih := countP_trace_part h hp is (step s i).2
    have hpi := hp s i
    rw [h] at ih
    rw [trace, List.countP_cons, List.filterMap_cons]
    rcases hf : f i with _ | k
    · have hnot : p (i, (step s i).1) = false := by
        by_contra hcon
        obtain ⟨k, hk, -⟩ := hpi (by simpa using hcon)
        rw [hf] at hk
        cases hk
      rw [hf] at ih
      simpa [hnot] using ih
    · rw [hf] at ih
      simp only [trace, List.countP_cons]
      refine Nat.add_le_add ih ?_
      split_ifs with h1 h2
      · exact Nat.le_refl _
      · obtain ⟨k', hk', hq⟩ := hpi h1
        rw [hf] at hk'
        exact absurd (Option.some.inj hk' ▸ hq) h2
      · exact Nat.zero_le _
      · exact Nat.le_refl _

/-- If some inputs step a part `R s` of the state as another machine does and are answered as it
answers, and the others leave that part alone, then the run answers them as that machine does when
it is given them alone. -/
theorem filter_trace {τ : Type*} {R : σ → τ} {next : τ → ι → ο × τ} {P : σ → Prop} {G : ι → Prop}
    {p : ι → Bool} (hkeep : ∀ s i, P s → G i → P (step s i).2)
    (hown : ∀ s i, P s → p i → (step s i).1 = (next (R s) i).1 ∧ R (step s i).2 = (next (R s) i).2)
    (hother : ∀ s i, P s → p i = false → R (step s i).2 = R s) :
    ∀ (is : List ι) (s : σ), P s → (∀ i ∈ is, G i) →
      (trace step s is).filter (fun e => p e.1) = trace next (R s) (is.filter p)
  | [], _, _, _ => rfl
  | i :: is, s, hs, hG => by
    have ih := filter_trace hkeep hown hother is _ (hkeep s i hs (hG i (by simp)))
      fun j hj => hG j (by simp [hj])
    cases hp : p i
    · rw [trace, List.filter_cons_of_neg (by simp [hp]), List.filter_cons_of_neg (by simp [hp]), ih,
        hother s i hs hp]
    · obtain ⟨hanswer, hstate⟩ := hown s i hs hp
      rw [trace, List.filter_cons_of_pos (by simp [hp]), List.filter_cons_of_pos (by simp [hp]), ih,
        trace, hanswer, hstate]

theorem final_eq_foldl : ∀ (is : List ι) (s : σ),
    final step s is = is.foldl (fun s i => (step s i).2) s
  | [], _ => rfl
  | i :: is, s => final_eq_foldl is (step s i).2

end Machine
