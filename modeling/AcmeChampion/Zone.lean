import AcmeChampion.Challenges
import AcmeChampion.Config
import AcmeChampion.Dns.Types
import AcmeChampion.Lib.Wire

/-!
# The zone that the server serves

What the server is for, said on names and records: which data a name has for each type, given the
registered challenges and the server's addresses.
-/

namespace AcmeChampion

open Text Wire

/-- The challenges for the name, in any letter case, in the order of registration. -/
def challengesFor (challenges : List Challenge) (name : Name) : List Challenge :=
  challenges.filter fun c => eqIgnoreAsciiCase (utf8 c.name) (dotted name.labels)

def soaFor (name : Name) : Rdata := .soa name name 1 10800 3600 604800 30

/-- The data of the name's records of a type: TXT has the value of every challenge for the name, NS
delegates to the parent, SOA names the name itself, and A and AAAA have the server's addresses. -/
def zone (challenges : List Challenge) (serverIps : ServerIps) (name : Name) :
    ValidQueryType → List Rdata
  | .txt => (challengesFor challenges name).map fun c => .txt (charStringOctets [utf8 c.value])
  | .ns => if challengesFor challenges name = [] then [] else [.ns name.parent]
  | .soa => if challengesFor challenges name = [] then [] else [soaFor name]
  | .a => serverIps.v4.toList.map .a
  | .aaaa => serverIps.v6.toList.map .aaaa

def zoneRecord (name : Name) (data : Rdata) : Record := ⟨name, 1, 30, data⟩

section

variable {challenges : List Challenge} {ips : ServerIps} {name : Name} {t : ValidQueryType}
  {d : Rdata}

/-- What the data of each type is. -/
theorem mem_zone_cases (h : d ∈ zone challenges ips name t) :
    (t = .txt ∧ ∃ c ∈ challenges, d = .txt (charStringOctets [utf8 c.value])) ∨
      (t = .ns ∧ d = .ns name.parent) ∨ (t = .soa ∧ d = soaFor name) ∨
      (t = .a ∧ ∃ ip, d = .a ip) ∨ (t = .aaaa ∧ ∃ ip, d = .aaaa ip) := by
  cases t with
  | txt =>
    obtain ⟨c, hc, rfl⟩ := List.mem_map.1 h
    exact .inl ⟨rfl, c, List.mem_of_mem_filter hc, rfl⟩
  | ns =>
    obtain ⟨-, h⟩ := List.mem_ite_nil_left.1 h
    exact .inr (.inl ⟨rfl, List.mem_singleton.1 h⟩)
  | soa =>
    obtain ⟨-, h⟩ := List.mem_ite_nil_left.1 h
    exact .inr (.inr (.inl ⟨rfl, List.mem_singleton.1 h⟩))
  | a =>
    obtain ⟨ip, -, rfl⟩ := List.mem_map.1 h
    exact .inr (.inr (.inr (.inl ⟨rfl, ip, rfl⟩)))
  | aaaa =>
    obtain ⟨ip, -, rfl⟩ := List.mem_map.1 h
    exact .inr (.inr (.inr (.inr ⟨rfl, ip, rfl⟩)))

theorem rtype_of_mem_zone (h : d ∈ zone challenges ips name t) : d.rtype = t.toU16 := by
  obtain ⟨rfl, c, -, rfl⟩ | ⟨rfl, rfl⟩ | ⟨rfl, rfl⟩ | ⟨rfl, ip, rfl⟩ | ⟨rfl, ip, rfl⟩ :=
    mem_zone_cases h
  all_goals rfl

theorem length_of_mem_zone (hvalues : ∀ c ∈ challenges, (utf8 c.value).length < 4096)
    (h : d ∈ zone challenges ips name t) : d.octets.length < 2 ^ 16 := by
  have hname := name.valid.le_255
  have hparent := name.parent.valid.le_255
  obtain ⟨-, c, hc, rfl⟩ | ⟨-, rfl⟩ | ⟨-, rfl⟩ | ⟨-, ip, rfl⟩ | ⟨-, ip, rfl⟩ := mem_zone_cases h
  · have := hvalues c hc
    simp only [Rdata.octets, charStringOctets, List.length_cons, List.append_nil]
    omega
  · simp only [Rdata.octets, Name.octets]
    omega
  · simp only [soaFor, Rdata.octets, Name.octets, List.length_append, Bytes.length_bigEndian]
    omega
  · simp [Rdata.octets]
  · simp [Rdata.octets]

end

theorem length_zone_le (challenges : List Challenge) (ips : ServerIps) (name : Name)
    (t : ValidQueryType) : (zone challenges ips name t).length ≤ challenges.length + 1 := by
  have hfilter : (challengesFor challenges name).length ≤ challenges.length :=
    List.length_filter_le _ _
  cases t with
  | txt =>
    simp only [zone, List.length_map]
    omega
  | ns =>
    simp only [zone]
    split_ifs <;> simp
  | soa =>
    simp only [zone]
    split_ifs <;> simp
  | a => rcases hv : ips.v4 with _ | ip <;> simp [zone, hv]
  | aaaa => rcases hv : ips.v6 with _ | ip <;> simp [zone, hv]

end AcmeChampion
