import AcmeChampion.Proofs.Packets
import AcmeChampion.Proofs.Representation
import Mathlib.Algebra.Group.Action.Defs
import Mathlib.Algebra.Order.BigOperators.Group.List

/-!
# How much a server can come to hold

A challenge takes no more room than the request that names it, which has to fit in the buffer
(`room_of_op`), so whatever comes to a server, its store and its table stay in their bounds; and at
readings away from the ends of an `i64` its limiter is what the limiter's own integers make it
(`bounded_of_mainLoop`).
-/

namespace AcmeChampion

open Text

/-- The octets that a challenge takes. -/
def Challenge.room (c : Challenge) : ℕ :=
  (utf8 c.domain).length + (utf8 c.name).length + (utf8 c.value).length

theorem length_trimEndMatches_le (c : Char) (s : String) :
    (utf8 (trimEndMatches c s)).length ≤ (utf8 s).length := by
  obtain ⟨rest, hrest⟩ := s.toList.rdropWhile_prefix (· == c)
  have hsplit : trimEndMatches c s ++ String.ofList rest = s := by
    rw [← String.toList_inj, String.toList_append, trimEndMatches, String.toList_ofList,
      String.toList_ofList, hrest]
  calc (utf8 (trimEndMatches c s)).length
      ≤ (utf8 (trimEndMatches c s)).length + (utf8 (String.ofList rest)).length :=
        Nat.le_add_right _ _
    _ = (utf8 s).length := by rw [← List.length_append, ← utf8_append, hsplit]

namespace Request

/-- The octets of the path and of the headers' values. -/
def room (req : Request) : ℕ :=
  (req.path.elim 0 fun path => (utf8 path).length) +
    (req.headers.map fun header => header.value.length).sum

/-- Headers of different names are different parts of a request. -/
theorem length_header_add_le {req : Request} {name name' : String} {value value' : List UInt8}
    (hne : name ≠ name') (h : req.header name = some value) (h' : req.header name' = some value') :
    value.length + value'.length ≤ (req.headers.map fun header => header.value.length).sum := by
  obtain ⟨header, hfind, rfl⟩ := Option.map_eq_some_iff.1 h
  obtain ⟨header', hfind', rfl⟩ := Option.map_eq_some_iff.1 h'
  have hdiff : header ≠ header' := by
    rintro rfl
    have hname := List.find?_some hfind
    have hname' := List.find?_some hfind'
    simp only [beq_iff_eq] at hname hname'
    exact hne (hname.symm.trans hname')
  have hsub : [header, header'].Subperm req.headers := by
    refine List.subperm_of_subset (by simp [hdiff]) ?_
    simp [List.mem_of_find?_eq_some hfind, List.mem_of_find?_eq_some hfind']
  obtain ⟨headers, hperm, hsublist⟩ := hsub
  have hsum := (hperm.map fun header => header.value.length).sum_eq
  have hle := (hsublist.map fun header => header.value.length).sum_le_sum fun _ _ => Nat.zero_le _
  simp only [List.map_cons, List.map_nil, List.sum_cons, List.sum_nil, Nat.add_zero] at hsum
  exact hsum ▸ hle

theorem Names.room_le {req : Request} {c : Challenge} (h : req.Names c) :
    (utf8 registerPath).length + c.room ≤ req.room := by
  obtain ⟨domain, hpath, hdomain⟩ := h.domain
  obtain ⟨name, hname, htrim⟩ := h.name
  have hheaders := length_header_add_le (by decide) hname h.value
  have hdomainlen := length_trimEndMatches_le '.' domain
  have hnamelen := length_trimEndMatches_le '.' name
  rw [hdomain] at hdomainlen
  rw [htrim] at hnamelen
  unfold room Challenge.room
  rw [hpath, Option.elim_some, utf8_append, List.length_append]
  omega

end Request

section

variable {π : Type} {parse : List UInt8 → Except π (Status × Request)} {serverIps : ServerIps}

variable (parse) in
/-- The path and the headers' values of a whole request are parts of what is parsed that do not
overlap. -/
def Apart : Prop :=
  ∀ bytes offset req, parse bytes = .ok (.complete offset, req) → req.room ≤ bytes.length

/-- What is registered came in the buffer. -/
theorem room_of_op (hparse : Apart parse) {work : Work} {c : Challenge}
    (h : work.op parse = some (.set c)) : (utf8 registerPath).length + c.room ≤ bufLen := by
  rcases work with stream | d
  · by_cases hreq : ∃ req, Receives parse stream bufLen req
    · obtain ⟨req, hreceives⟩ := hreq
      rw [Work.op_of_receives hreceives] at h
      obtain ⟨-, hnames⟩ := Request.performs_of_op h
      obtain ⟨bytes, offset, hread, hbytes⟩ := hreceives
      exact (hnames.room_le.trans (hparse bytes offset req hbytes)).trans (length_read_le hread)
    · rw [Work.op_of_not_receives hreq] at h
      cases h
  · cases h

namespace Server

variable {sends4 sends6 : Option (List (Except IoError Unit))} {happenings : List Happening}
  {server' : Server}

/-- Whatever comes to a new server, in whichever order: its store has at most `maxLen` challenges,
which with the path to register them take no more room than so many buffers; its table has at most
`maxSize` entries; and the table is what the code's own integers make of the requests, none of
which leaves its type. -/
theorem bounded_of_mainLoop (hparse : Apart parse)
    (h : mainLoop parse serverIps (new sends4 sends6) happenings = .ok server')
    (hclock : ∀ r ∈ Responder.requests ((new sends4 sends6).handed parse serverIps happenings),
      RateLimiter.Clock r.2) :
    server'.challenges.list.length ≤ Challenges.maxLen ∧
      (server'.challenges.list.map fun c => (utf8 registerPath).length + c.room).sum ≤
        Challenges.maxLen * bufLen ∧
      RateLimiter.Represents server'.rateLimiter ∧
      RateLimiter.exactRun (Responder.requests
        ((new sends4 sends6).handed parse serverIps happenings)) = .ok server'.rateLimiter := by
  obtain ⟨hfinal, -⟩ := Core.handleAll_ok (EventLoop.core_of_run (run_of_mainLoop h))
  have hstore : server'.challenges = Challenges.run (Responder.ops parse
      ((new sends4 sends6).handed parse serverIps happenings)) :=
    (congrArg Responder.challenges hfinal).trans (Responder.challenges_after _)
  have hlimiter : server'.rateLimiter = Machine.final RateLimiter.step .new (Responder.requests
      ((new sends4 sends6).handed parse serverIps happenings)) :=
    (congrArg Responder.rateLimiter hfinal).trans (Responder.rateLimiter_after _)
  obtain ⟨hexact, hrepresents⟩ :=
    RateLimiter.exactRun_eq _ .new RateLimiter.represents_new hclock
  have hlen := Challenges.length_run_le (Responder.ops parse
    ((new sends4 sends6).handed parse serverIps happenings))
  rw [hstore, hlimiter]
  refine ⟨hlen, ?_, hrepresents, hexact⟩
  have hsum := List.sum_le_card_nsmul (((Challenges.run (Responder.ops parse
    ((new sends4 sends6).handed parse serverIps happenings))).list).map fun c =>
      (utf8 registerPath).length + c.room) bufLen fun room hroom => by
    obtain ⟨c, hc, rfl⟩ := List.mem_map.1 hroom
    obtain ⟨before, item, after, -, hop, -⟩ := exists_registration hc
    exact room_of_op hparse hop
  rw [List.length_map, smul_eq_mul] at hsum
  exact hsum.trans (Nat.mul_le_mul_right _ hlen)

theorem room_le_head (req : Request) : req.room ≤ req.head.length := by
  have hheaders : (req.headers.map fun header => header.value.length).sum ≤
      (req.headers.map fun header =>
        (utf8 (header.name ++ ": ") ++ header.value ++ utf8 "\r\n").length).sum := by
    refine List.sum_le_sum fun header _ => ?_
    simp only [List.length_append]
    omega
  unfold Request.room Request.head
  simp only [utf8_append, List.length_append, List.length_flatMap] at hheaders ⊢
  rcases req.path with _ | path
  · rw [Option.elim_none]
    omega
  · rw [Option.elim_some, Option.getD_some]
    omega

theorem apart_parseAmong (reqs : List Request) : Apart (parseAmong reqs) := by
  intro bytes offset req h
  unfold parseAmong at h
  split at h
  · rename_i req' hfind
    obtain ⟨-, rfl⟩ := Prod.mk.inj (Except.ok.inj h)
    have hprefix := List.find?_some hfind
    exact (room_le_head req').trans (List.isPrefixOf_iff_prefix.1 hprefix).length_le
  · split_ifs at h
    cases h

theorem bounded_of_mainLoop_registration : ∃ server',
    mainLoop (parseAmong [acmeRequest]) ⟨none, none⟩ (new (some []) none) registration =
      .ok server' ∧
    RateLimiter.exactRun [(.v4 1, 0)] = .ok server'.rateLimiter ∧
    (server'.challenges.list.map fun c => (utf8 registerPath).length + c.room).sum ≤ 409600 := by
  obtain ⟨_, -, hrun⟩ := mainLoop_registration
  have hrequests : Responder.requests ((new (some []) none).handed (parseAmong [acmeRequest])
      ⟨none, none⟩ registration) = [(.v4 1, 0)] := by
    rw [handed_registration]
    decide
  have hclock : ∀ r ∈ Responder.requests ((new (some []) none).handed (parseAmong [acmeRequest])
      ⟨none, none⟩ registration), RateLimiter.Clock r.2 := by
    rw [hrequests]
    unfold RateLimiter.Clock
    decide
  obtain ⟨-, hroom, -, hexact⟩ := bounded_of_mainLoop (apart_parseAmong _) hrun hclock
  rw [hrequests] at hexact
  exact ⟨_, hrun, hexact, hroom⟩

end Server

end

end AcmeChampion
