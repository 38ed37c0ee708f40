import AcmeChampion.Proofs.Challenges

/-!
# Clients that name different challenges

Several clients share the store, and their operations come in any order.  While their registrations
fit in the store, each one's challenges are there as if it were alone (`run_interleaving`).
-/

namespace AcmeChampion

namespace StoreOp

def challenge : StoreOp → Challenge
  | set c => c
  | cleanup c => c

theorem value_toFifo (op : StoreOp) : op.toFifo.value = op.challenge := by
  cases op <;> rfl

end StoreOp

namespace Challenges

/-- The challenges that the operations name. -/
def challengesOf (ops : List StoreOp) : List Challenge := ops.map StoreOp.challenge

theorem mem_challengesOf {ops : List StoreOp} {op : StoreOp} (h : op ∈ ops) :
    op.challenge ∈ challengesOf ops := List.mem_map_of_mem h

theorem filter_run_of_interleaving {as bs cs : List StoreOp} (h : Fifo.Interleaving as bs cs)
    (hdiff : ∀ a ∈ as, ∀ b ∈ bs, a.challenge ≠ b.challenge) (hlen : (sets cs).length ≤ maxLen) :
    (run cs).list.filter (· ∈ challengesOf as) = (run as).list := by
  rw [run_eq_fifo, run_eq_fifo]
  rw [sets_eq_pushes] at hlen
  refine Fifo.filter_run_of_interleaving maxLen (h.map StoreOp.toFifo) ?_ ?_ hlen
  · intro op hop
    obtain ⟨a, ha, rfl⟩ := List.mem_map.1 hop
    rw [StoreOp.value_toFifo, decide_eq_true_eq]
    exact mem_challengesOf ha
  · intro op hop
    obtain ⟨b, hb, rfl⟩ := List.mem_map.1 hop
    rw [StoreOp.value_toFifo, decide_eq_true_eq]
    intro hmem
    obtain ⟨a, ha, heq⟩ := List.mem_map.1 hmem
    exact hdiff a ha b hb heq

/-- Of two clients that name different challenges and register at most 100 together, in whatever
order their operations come, the first one's challenges are in the store as it alone would leave
them; so for every name it contributes the same values. -/
theorem run_interleaving {as bs cs : List StoreOp} (h : Fifo.Interleaving as bs cs)
    (hdiff : ∀ a ∈ as, ∀ b ∈ bs, a.challenge ≠ b.challenge) (hlen : (sets cs).length ≤ maxLen) :
    (run cs).list.filter (· ∈ challengesOf as) = (run as).list ∧
      ∀ name, (((run cs).list.filter (·.matches name)).filter (· ∈ challengesOf as)).map (·.value)
        = (run as).named name := by
  have hfilter := filter_run_of_interleaving h hdiff hlen
  refine ⟨hfilter, fun name => ?_⟩
  unfold named
  rw [← hfilter, List.filter_comm]

/-- A client for a base domain and one for the wildcard, which share a name. -/
theorem run_interleaving_wildcard :
    (run [.set ⟨"d", "n", "1"⟩, .set ⟨"*.d", "n", "2"⟩, .cleanup ⟨"d", "n", "1"⟩]).list.filter
        (· ∈ challengesOf [.set ⟨"*.d", "n", "2"⟩])
      = (run [.set ⟨"*.d", "n", "2"⟩]).list :=
  (@run_interleaving [.set ⟨"*.d", "n", "2"⟩] [.set ⟨"d", "n", "1"⟩, .cleanup ⟨"d", "n", "1"⟩] _
    (.right _ (.left _ (.right _ .nil))) (by decide) (by decide)).1

end Challenges

end AcmeChampion
