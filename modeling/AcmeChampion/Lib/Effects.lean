import Mathlib.Order.Defs.Unbundled

/-!
# Programs with a state that survives an error

`EStateM` programs leave a state when they fail as when they return.  A program goes `Along` a
relation if it takes every state to a related one, whatever comes of it; where the relation is a
preorder this composes (`Along.bind`).  `run_bind_ok_iff` takes a program that returns apart.
-/

namespace Effects

universe u

variable {ε σ α β : Type u}

/-- The state that a program leaves. -/
def left : EStateM.Result ε σ α → σ
  | .ok _ s => s
  | .error _ s => s

theorem run_bind_ok_iff {x : EStateM ε σ α} {f : α → EStateM ε σ β} {s s' : σ} {b : β} :
    (x >>= f).run s = .ok b s' ↔ ∃ a s1, x.run s = .ok a s1 ∧ (f a).run s1 = .ok b s' := by
  rw [EStateM.run_bind]
  rcases x.run s with ⟨a, s1⟩ | ⟨e, s1⟩
  · constructor
    · exact fun h => ⟨a, s1, rfl, h⟩
    · rintro ⟨a', s2, heq, h⟩
      obtain ⟨rfl, rfl⟩ := EStateM.Result.ok.inj heq
      exact h
  · simp

/-- Whatever comes of the program, it takes the state along `R`. -/
def Along (R : σ → σ → Prop) (x : EStateM ε σ α) : Prop := ∀ s, R s (left (x.run s))

variable {R : σ → σ → Prop}

/-- A program that reads the state first. -/
theorem Along.get_bind {f : σ → EStateM ε σ β} (hf : ∀ s, R s (left ((f s).run s))) :
    Along R (get >>= f) := hf

theorem Along.modify {f : σ → σ} (hf : ∀ s, R s (f s)) :
    Along R (modify f : EStateM ε σ PUnit) := hf

/-- A program along `R`, and then one along a relation that takes up what `R` has done. -/
theorem Along.bind_of {Q : σ → σ → Prop} (hstop : ∀ s s1, R s s1 → Q s s1)
    (hgo : ∀ s s1 s2, R s s1 → Q s1 s2 → Q s s2) {x : EStateM ε σ α} {f : α → EStateM ε σ β}
    (hx : Along R x) (hf : ∀ a, Along Q (f a)) : Along Q (x >>= f) := by
  intro s
  have hleft := hx s
  rw [EStateM.run_bind]
  rcases hrun : x.run s with ⟨a, s1⟩ | ⟨e, s1⟩ <;> rw [hrun] at hleft
  · exact hgo s s1 _ hleft (hf a s1)
  · exact hstop s s1 hleft

section

variable [IsPreorder σ R]

theorem Along.pure (a : α) : Along R (Pure.pure a : EStateM ε σ α) := fun s => refl_of R s

theorem Along.throw (e : ε) : Along R (throw e : EStateM ε σ α) := fun s => refl_of R s

theorem Along.bind {x : EStateM ε σ α} {f : α → EStateM ε σ β} (hx : Along R x)
    (hf : ∀ a, Along R (f a)) : Along R (x >>= f) :=
  Along.bind_of (R := R) (Q := R) (fun _ _ => id) (fun _ _ _ => trans_of R) hx hf

end

end Effects
