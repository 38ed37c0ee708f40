import Mathlib.Data.List.ReduceOption
import Mathlib.Logic.Function.Basic
import Mathlib.Tactic.SplitIfs

/-!
# Event loops

Items come to queues at any time, and an event has a loop empty one of the queues into a handler,
item by item, until a read brings nothing or the handler fails.  `handed` lists what is handled, and
from which queue.  Whatever the order of arrivals and events, the handler's state is that of
handling these items one after the other (`core_of_run`), and of each queue the items handled and
those that still wait are those that came, in order (`waiting_of_run`); none waits when the queue
has been woken and every read brought an item (`queue_of_wake`).  The loop goes on exactly while
nothing stops it and no item that is handled fails (`run_ok_iff`).
-/

namespace EventLoop

variable {κ α σ ε : Type}

/-- What reads of the queues will bring, `none` for a read that brings nothing, and the state of the
handler. -/
@[ext]
structure Loop (κ α σ : Type) where
  queue : κ → List (Option α)
  core : σ

inductive Input (κ α ε : Type)
  | arrive (k : κ) (item : Option α)
  | wake (k : κ)
  | stop (error : ε)

/-! ## One queue -/

section Drain

variable (handle : σ → α → Except ε σ)

/-- What is left of a queue, and the state of the handler, when the queue has been read. -/
def drain : List (Option α) → σ → Except ε (List (Option α) × σ)
  | [], core => .ok ([], core)
  | none :: items, core => .ok (items, core)
  | some a :: items, core => do drain items (← handle core a)

/-- The items that the handler is given. -/
def drained : List (Option α) → σ → List α
  | [], _ => []
  | none :: _, _ => []
  | some a :: items, core =>
    a :: match handle core a with
      | .ok core => drained items core
      | .error _ => []

variable {handle}

theorem drained_singleton (a : α) (core : σ) : drained handle [some a] core = [a] := by
  rw [drained]
  rcases handle core a with e | core' <;> rfl

theorem core_of_drain : ∀ (items : List (Option α)) (core : σ),
    (drain handle items core).map Prod.snd = (drained handle items core).foldlM handle core
  | [], _ => rfl
  | none :: _, _ => rfl
  | some a :: items, core => by
    have ih := core_of_drain items
    rw [drained, drain, List.foldlM_cons]
    rcases handle core a with e | core'
    · rfl
    · exact ih core'

theorem waiting_of_drain : ∀ {items rest : List (Option α)} {core core' : σ},
    drain handle items core = .ok (rest, core') →
      drained handle items core ++ rest.reduceOption = items.reduceOption
  | [], rest, core, core', h => by
    obtain ⟨rfl, rfl⟩ := Prod.mk.inj (Except.ok.inj h)
    rfl
  | none :: items, rest, core, core', h => by
    obtain ⟨rfl, rfl⟩ := Prod.mk.inj (Except.ok.inj h)
    rfl
  | some a :: items, rest, core, core', h => by
    rw [drain] at h
    rw [drained, List.reduceOption_cons_of_some]
    rcases hcall : handle core a with e | core1
    · simp [hcall, bind, Except.bind] at h
    · have hrest : drain handle items core1 = .ok (rest, core') := by
        simpa [hcall, bind, Except.bind] using h
      rw [List.cons_append, waiting_of_drain hrest]

theorem suffix_of_drain : ∀ {items rest : List (Option α)} {core core' : σ},
    drain handle items core = .ok (rest, core') → rest <:+ items
  | [], rest, core, core', h => by
    obtain ⟨rfl, rfl⟩ := Prod.mk.inj (Except.ok.inj h)
    exact List.suffix_rfl
  | none :: items, rest, core, core', h => by
    obtain ⟨rfl, rfl⟩ := Prod.mk.inj (Except.ok.inj h)
    exact List.suffix_cons _ _
  | some a :: items, rest, core, core', h => by
    rw [drain] at h
    rcases hcall : handle core a with e | core1
    · simp [hcall, bind, Except.bind] at h
    · have hrest : drain handle items core1 = .ok (rest, core') := by
        simpa [hcall, bind, Except.bind] using h
      exact (suffix_of_drain hrest).trans (List.suffix_cons _ _)

/-- A drain stops before the end only at a read that brings nothing. -/
theorem rest_of_drain : ∀ {items rest : List (Option α)} {core core' : σ},
    none ∉ items → drain handle items core = .ok (rest, core') → rest = []
  | [], rest, core, core', _, h => (Prod.mk.inj (Except.ok.inj h)).1.symm
  | none :: items, rest, core, core', hsome, h => absurd List.mem_cons_self hsome
  | some a :: items, rest, core, core', hsome, h => by
    rw [drain] at h
    rcases hcall : handle core a with e | core1
    · simp [hcall, bind, Except.bind] at h
    · have hrest : drain handle items core1 = .ok (rest, core') := by
        simpa [hcall, bind, Except.bind] using h
      exact rest_of_drain (fun hmem => hsome (List.mem_cons_of_mem _ hmem)) hrest

end Drain

/-! ## Runs -/

section Run

variable (handle : κ → σ → α → Except ε σ)

/-- The handler, given items one after the other. -/
def handleAll (core : σ) (items : List (κ × α)) : Except ε σ :=
  items.foldlM (fun core item => handle item.1 core item.2) core

theorem handleAll_append (core : σ) (items items' : List (κ × α)) :
    handleAll handle core (items ++ items') =
      (handleAll handle core items).bind (handleAll handle · items') :=
  List.foldlM_append

theorem handleAll_map (k : κ) (core : σ) (items : List α) :
    handleAll handle core (items.map (k, ·)) = items.foldlM (handle k) core := by
  unfold handleAll
  rw [List.foldlM_map]

variable [DecidableEq κ]

def Loop.arrive (loop : Loop κ α σ) (k : κ) (item : Option α) : Loop κ α σ :=
  { loop with queue := Function.update loop.queue k (loop.queue k ++ [item]) }

def step (loop : Loop κ α σ) : Input κ α ε → Except ε (Loop κ α σ)
  | .arrive k item => .ok (loop.arrive k item)
  | .wake k => do
    let (items, core) ← drain (handle k) (loop.queue k) loop.core
    return { queue := Function.update loop.queue k items, core }
  | .stop error => .error error

def run (loop : Loop κ α σ) (inputs : List (Input κ α ε)) : Except ε (Loop κ α σ) :=
  inputs.foldlM (step handle) loop

/-- The items that an input has handled, each with its queue. -/
def handedAt (loop : Loop κ α σ) : Input κ α ε → List (κ × α)
  | .arrive _ _ => []
  | .wake k => (drained (handle k) (loop.queue k) loop.core).map (k, ·)
  | .stop _ => []

/-- The items that a run handles, in order, until it ends. -/
def handed : Loop κ α σ → List (Input κ α ε) → List (κ × α)
  | _, [] => []
  | loop, input :: inputs =>
    handedAt handle loop input ++
      match step handle loop input with
      | .ok loop => handed loop inputs
      | .error _ => []

/-- What an input brings to a queue. -/
def Input.itemFor (k : κ) : Input κ α ε → Option (Option α)
  | .arrive k' item => if k' = k then some item else none
  | .wake _ => none
  | .stop _ => none

/-- What comes to a queue. -/
def arrived (k : κ) (inputs : List (Input κ α ε)) : List (Option α) :=
  inputs.filterMap (Input.itemFor k)

/-- The items among these that are of a queue. -/
def ofQueue (k : κ) (items : List (κ × α)) : List α :=
  items.filterMap fun item => if item.1 = k then some item.2 else none

theorem ofQueue_append (k : κ) (items items' : List (κ × α)) :
    ofQueue k (items ++ items') = ofQueue k items ++ ofQueue k items' := List.filterMap_append

theorem ofQueue_map (k k' : κ) (items : List α) :
    ofQueue k (items.map (k', ·)) = if k' = k then items else [] := by
  unfold ofQueue
  rw [List.filterMap_map]
  split_ifs with h
  · simp [h]
  · simp [h]

theorem arrived_cons (k : κ) (input : Input κ α ε) (inputs : List (Input κ α ε)) :
    arrived k (input :: inputs) = arrived k [input] ++ arrived k inputs := by
  rw [arrived, ← List.singleton_append, List.filterMap_append]
  rfl

variable {handle}

theorem core_of_step (loop : Loop κ α σ) {input : Input κ α ε}
    (hstop : ∀ error, input ≠ .stop error) :
    (step handle loop input).map Loop.core =
      handleAll handle loop.core (handedAt handle loop input) := by
  cases input with
  | arrive k item => rfl
  | wake k =>
    have h := @core_of_drain _ _ _ (handle k) (loop.queue k) loop.core
    rw [handedAt, handleAll_map, ← h, step]
    rcases drain (handle k) (loop.queue k) loop.core with e | ⟨items, core⟩ <;> rfl
  | stop error => exact absurd rfl (hstop error)

theorem step_wake_ok {loop loop' : Loop κ α σ} {k : κ}
    (h : step handle loop (.wake k) = .ok loop') :
    ∃ items core, drain (handle k) (loop.queue k) loop.core = .ok (items, core) ∧
      { queue := Function.update loop.queue k items, core } = loop' := by
  rw [step] at h
  rcases hdrain : drain (handle k) (loop.queue k) loop.core with e | ⟨items, core⟩
  · simp [hdrain, bind, Except.bind] at h
  · exact ⟨items, core, rfl, by simpa [hdrain, bind, Except.bind, pure, Except.pure] using h⟩

theorem waiting_of_step {loop loop' : Loop κ α σ} {input : Input κ α ε}
    (h : step handle loop input = .ok loop') (k : κ) :
    ofQueue k (handedAt handle loop input) ++ (loop'.queue k).reduceOption =
      (loop.queue k).reduceOption ++ (arrived k [input]).reduceOption := by
  cases input with
  | arrive k' item =>
    obtain rfl := Except.ok.inj h
    by_cases hk : k' = k
    · subst hk
      simp [Loop.arrive, handedAt, ofQueue, arrived, Input.itemFor, List.reduceOption_append]
    · simp [Loop.arrive, handedAt, ofQueue, arrived, Input.itemFor, hk,
        Function.update_of_ne (Ne.symm hk)]
  | wake k' =>
    obtain ⟨items, core, hdrain, rfl⟩ := step_wake_ok h
    rw [handedAt, ofQueue_map]
    by_cases hk : k' = k
    · subst hk
      have hwaiting := waiting_of_drain hdrain
      simpa [arrived, List.filterMap_cons, Input.itemFor] using hwaiting
    · simp [arrived, List.filterMap_cons, Input.itemFor, hk, Function.update_of_ne (Ne.symm hk)]
  | stop error => simp [step] at h

theorem run_cons (loop : Loop κ α σ) (input : Input κ α ε) (inputs : List (Input κ α ε)) :
    run handle loop (input :: inputs) = (step handle loop input).bind (run handle · inputs) :=
  List.foldlM_cons

theorem run_cons_ok {loop loop' : Loop κ α σ} {input : Input κ α ε} {inputs : List (Input κ α ε)}
    (h : run handle loop (input :: inputs) = .ok loop') :
    ∃ loop1, step handle loop input = .ok loop1 ∧ run handle loop1 inputs = .ok loop' := by
  rw [run_cons] at h
  rcases hstep : step handle loop input with e | loop1
  · simp [hstep, Except.bind] at h
  · exact ⟨loop1, rfl, by simpa [hstep, Except.bind] using h⟩

theorem run_append_ok : ∀ {inputs inputs' : List (Input κ α ε)} {loop loop' : Loop κ α σ},
    run handle loop (inputs ++ inputs') = .ok loop' →
      ∃ loop1, run handle loop inputs = .ok loop1 ∧ run handle loop1 inputs' = .ok loop'
  | [], _, loop, loop', h => ⟨loop, rfl, h⟩
  | input :: inputs, inputs', loop, loop', h => by
    obtain ⟨loop1, hstep, hrun⟩ := run_cons_ok h
    obtain ⟨loop2, hrun1, hrun2⟩ := run_append_ok hrun
    refine ⟨loop2, ?_, hrun2⟩
    rw [run_cons, hstep]
    exact hrun1

theorem handed_cons_ok {loop loop1 : Loop κ α σ} {input : Input κ α ε}
    (h : step handle loop input = .ok loop1) (inputs : List (Input κ α ε)) :
    handed handle loop (input :: inputs) =
      handedAt handle loop input ++ handed handle loop1 inputs := by
  rw [handed, h]

/-- Of each queue, what has been handled and what still waits are what came to it, in order. -/
theorem waiting_of_run : ∀ {inputs : List (Input κ α ε)} {loop loop' : Loop κ α σ},
    run handle loop inputs = .ok loop' → ∀ k,
      ofQueue k (handed handle loop inputs) ++ (loop'.queue k).reduceOption =
        (loop.queue k).reduceOption ++ (arrived k inputs).reduceOption
  | [], loop, loop', h, k => by
    obtain rfl := Except.ok.inj h
    simp [handed, ofQueue, arrived]
  | input :: inputs, loop, loop', h, k => by
    obtain ⟨loop1, hstep, hrun⟩ := run_cons_ok h
    have ih := waiting_of_run hrun k
    have hwaiting := waiting_of_step hstep k
    rw [handed_cons_ok hstep, ofQueue_append, List.append_assoc, ih, ← List.append_assoc, hwaiting,
      arrived_cons k input inputs, List.reduceOption_append, List.append_assoc]

/-- The handler's state is that of handling the items one after the other. -/
theorem core_of_run : ∀ {inputs : List (Input κ α ε)} {loop loop' : Loop κ α σ},
    run handle loop inputs = .ok loop' →
      handleAll handle loop.core (handed handle loop inputs) = .ok loop'.core
  | [], loop, loop', h => by
    obtain rfl := Except.ok.inj h
    rfl
  | input :: inputs, loop, loop', h => by
    obtain ⟨loop1, hstep, hrun⟩ := run_cons_ok h
    have ih := core_of_run hrun
    have hstop : ∀ error, input ≠ .stop error := by
      rintro error rfl
      simp [step] at hstep
    have hcore := @core_of_step _ _ _ _ handle _ loop _ hstop
    rw [hstep] at hcore
    rw [handed_cons_ok hstep, handleAll_append, ← hcore]
    exact ih

theorem suffix_of_step {loop loop' : Loop κ α σ} {input : Input κ α ε}
    (h : step handle loop input = .ok loop') (k : κ) :
    loop'.queue k <:+ loop.queue k ++ arrived k [input] := by
  cases input with
  | arrive k' item =>
    obtain rfl := Except.ok.inj h
    by_cases hk : k' = k
    · subst hk
      simp [Loop.arrive, arrived, Input.itemFor]
    · simp [Loop.arrive, arrived, Input.itemFor, hk, Function.update_of_ne (Ne.symm hk)]
  | wake k' =>
    obtain ⟨items, core, hdrain, rfl⟩ := step_wake_ok h
    by_cases hk : k' = k
    · subst hk
      simpa [arrived, List.filterMap_cons, Input.itemFor] using suffix_of_drain hdrain
    · simp [arrived, List.filterMap_cons, Input.itemFor, Function.update_of_ne (Ne.symm hk)]
  | stop error => simp [step] at h

theorem suffix_of_run : ∀ {inputs : List (Input κ α ε)} {loop loop' : Loop κ α σ},
    run handle loop inputs = .ok loop' → ∀ k, loop'.queue k <:+ loop.queue k ++ arrived k inputs
  | [], loop, loop', h, k => by
    obtain rfl := Except.ok.inj h
    simp [arrived]
  | input :: inputs, loop, loop', h, k => by
    obtain ⟨loop1, hstep, hrun⟩ := run_cons_ok h
    have ih := suffix_of_run hrun k
    obtain ⟨handled, hhandled⟩ := suffix_of_step hstep k
    rw [arrived_cons, ← List.append_assoc, ← hhandled, List.append_assoc]
    exact ih.trans (List.suffix_append _ _)

/-- A queue to which nothing comes that brings nothing is empty when it has been woken, until more
comes to it. -/
theorem queue_of_wake {pre post : List (Input κ α ε)} {loop loop' : Loop κ α σ} {k : κ}
    (h : run handle loop (pre ++ .wake k :: post) = .ok loop')
    (hsome : none ∉ loop.queue k ++ arrived k pre) (hpost : arrived k post = []) :
    loop'.queue k = [] := by
  obtain ⟨loop1, hpre, hrest⟩ := run_append_ok h
  obtain ⟨loop2, hwake, hrun⟩ := run_cons_ok hrest
  have hsome1 : none ∉ loop1.queue k := fun hmem => hsome ((suffix_of_run hpre k).subset hmem)
  have hempty : loop2.queue k = [] := by
    obtain ⟨items, core, hdrain, rfl⟩ := step_wake_ok hwake
    obtain rfl := rest_of_drain hsome1 hdrain
    simp
  have hsuffix := suffix_of_run hrun k
  rw [hempty, hpost] at hsuffix
  exact List.suffix_nil.1 hsuffix

/-- The loop goes on exactly while nothing stops it and the handler takes what it is given. -/
theorem run_ok_iff : ∀ (inputs : List (Input κ α ε)) (loop : Loop κ α σ),
    (∃ loop', run handle loop inputs = .ok loop') ↔ (∀ error, .stop error ∉ inputs) ∧
      ∃ core, handleAll handle loop.core (handed handle loop inputs) = .ok core
  | [], loop => iff_of_true ⟨loop, rfl⟩ ⟨by simp, loop.core, rfl⟩
  | input :: inputs, loop => by
    constructor
    · rintro ⟨loop', h⟩
      refine ⟨?_, _, core_of_run h⟩
      obtain ⟨loop1, hstep, hrun⟩ := run_cons_ok h
      have ih := ((run_ok_iff inputs loop1).1 ⟨loop', hrun⟩).1
      intro error hmem
      rcases List.mem_cons.1 hmem with rfl | hmem
      · simp [step] at hstep
      · exact ih error hmem
    · rintro ⟨hstops, core, hcore⟩
      have hstop : ∀ error, input ≠ .stop error := by
        rintro error rfl
        exact hstops error (by simp)
      have hstepcore := @core_of_step _ _ _ _ handle _ loop _ hstop
      rcases hstep : step handle loop input with e | loop1
      · rw [hstep] at hstepcore
        rw [handed, hstep, List.append_nil, ← hstepcore] at hcore
        simp [Except.map] at hcore
      · rw [hstep] at hstepcore
        rw [handed_cons_ok hstep, handleAll_append, ← hstepcore] at hcore
        obtain ⟨loop', hrun⟩ := (run_ok_iff inputs loop1).2
          ⟨fun error hmem => hstops error (by simp [hmem]), core, hcore⟩
        refine ⟨loop', ?_⟩
        rw [run_cons, hstep]
        exact hrun

end Run

end EventLoop
