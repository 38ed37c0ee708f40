import AcmeChampion.Proofs.Drain
import AcmeChampion.Responder

/-!
# What a responder holds and answers

The store after some work is what the operations of the connections among it make of a new one, and
the limiter what the requests of the datagrams make of a new one (`challenges_after`,
`rateLimiter_after`).  So what a datagram is answered is known from the work before it
(`step_eq_some_iff`).
-/

namespace AcmeChampion

open Text

/-! ## The operation of a request -/

theorem Request.op_of_performs {req : Request} {op : StoreOp} (h : req.Performs op) :
    req.op = some op := by
  unfold Request.op
  cases op with
  | set c =>
    obtain ⟨hmethod, hc⟩ := h
    obtain ⟨domain, hpath, -⟩ := hc.domain
    simp only [hpath, startsWith_registerPath, challengeFromReq_of_names hc, hmethod, if_true]
  | cleanup c =>
    obtain ⟨hmethod, hc⟩ := h
    obtain ⟨domain, hpath, -⟩ := hc.domain
    have hne : ¬ some "DELETE" = some "POST" := by decide
    simp only [hpath, startsWith_registerPath, challengeFromReq_of_names hc, hmethod, if_true,
      if_neg hne]

theorem Request.performs_of_op {req : Request} {op : StoreOp} (h : req.op = some op) :
    req.Performs op := by
  unfold Request.op at h
  rcases hpath : req.path with _ | path
  · simp [hpath] at h
  simp only [hpath] at h
  cases hstarts : startsWith path registerPath
  · simp [hstarts] at h
  obtain ⟨domain, rfl⟩ := startsWith_iff.1 hstarts
  by_cases hnames : ∃ c, req.Names c
  · obtain ⟨c, hc⟩ := hnames
    simp only [hstarts, if_true, challengeFromReq_of_names hc] at h
    split_ifs at h with hpost hdelete
    · exact Option.some.inj h ▸ ⟨hpost, hc⟩
    · exact Option.some.inj h ▸ ⟨hdelete, hc⟩
  · simp [hstarts, challengeFromReq_of_not_names hpath hnames] at h

section

variable {π : Type} {parse : List UInt8 → Except π (Status × Request)} {serverIps : ServerIps}

theorem Work.op_of_receives {stream : Stream IoError} {req : Request}
    (h : Receives parse stream bufLen req) : (Work.connection stream).op parse = req.op := by
  obtain ⟨bytes, offset, hread, hparse⟩ := h
  simp only [Work.op, hread, hparse]

theorem Work.op_of_not_receives {stream : Stream IoError}
    (h : ¬ ∃ req, Receives parse stream bufLen req) : (Work.connection stream).op parse = none := by
  unfold Work.op
  rcases hread : (stream.read bufLen).1 with e | bytes
  · simp only [hread]
  · rcases hparse : parse bytes with e | ⟨offset | _, req⟩
    · simp only [hread, hparse]
    · exact absurd ⟨req, bytes, offset, hread, hparse⟩ h
    · simp only [hread, hparse]

theorem handleHttp_challenges (stream : Stream IoError) (cs : Challenges) :
    ∃ served, handleHttp parse stream bufLen cs = .ok served ∧
      served.challenges = ((Work.connection stream).op parse).elim cs cs.apply := by
  by_cases hreq : ∃ req, Receives parse stream bufLen req
  · obtain ⟨req, hreq⟩ := hreq
    rw [Work.op_of_receives hreq]
    rcases performs_or_declined req with ⟨op, hop⟩ | ⟨status, hdecl⟩
    · obtain ⟨served, hserved, hleaves⟩ := handleHttp_of_performs hreq hop cs
      refine ⟨served, hserved, ?_⟩
      rw [Request.op_of_performs hop]
      exact hleaves.challenges
    · obtain ⟨served, hserved, hleaves⟩ := handleHttp_of_declined hreq hdecl cs
      refine ⟨served, hserved, ?_⟩
      rcases hop : req.op with _ | op
      · exact hleaves.challenges
      · exact absurd (Request.performs_of_op hop) (hdecl.not_performs op)
  · obtain ⟨served, answers, hserved, hleaves, -⟩ := handleHttp_of_not_receives hreq cs
    rw [Work.op_of_not_receives hreq]
    exact ⟨served, hserved, hleaves.challenges⟩

/-! ## What a step does -/

namespace Responder

theorem step_connection (r : Responder) (token : Token) (stream : Stream IoError) :
    r.step parse serverIps (token, .connection stream) =
      (.ok none, { r with
        challenges := ((Work.connection stream).op parse).elim r.challenges
          r.challenges.apply }) := by
  obtain ⟨served, hserved, hchallenges⟩ := @handleHttp_challenges π parse stream r.challenges
  simp only [step, answer, hserved, hchallenges]

theorem step_datagram (r : Responder) (token : Token) (d : Datagram) :
    (r.step parse serverIps (token, .datagram d)).2 =
      { r with rateLimiter := limited r.rateLimiter d } := by
  unfold limited
  simp only [step, answer]
  cases validReturnAddress d.srcAddr
  · rfl
  · rcases r.rateLimiter.increment d.srcAddr.ip d.now with ⟨_ | _, l⟩ <;> rfl

theorem challenges_step (r : Responder) (item : Token × Work) :
    (r.step parse serverIps item).2.challenges =
      (item.2.op parse).elim r.challenges r.challenges.apply := by
  rcases item with ⟨token, stream | d⟩
  · rw [step_connection]
  · rw [step_datagram]
    rfl

theorem rateLimiter_step (r : Responder) (item : Token × Work) :
    (r.step parse serverIps item).2.rateLimiter =
      item.2.request.elim r.rateLimiter fun q => (r.rateLimiter.step q).2 := by
  rcases item with ⟨token, stream | d⟩
  · rw [step_connection]
    rfl
  · rw [step_datagram]
    simp only [limited, Work.request]
    cases validReturnAddress d.srcAddr <;> rfl

theorem challenges_final (r : Responder) (items : List (Token × Work)) :
    (Machine.final (step parse serverIps) r items).challenges =
      (ops parse items).foldl Challenges.apply r.challenges :=
  Machine.final_part (step parse serverIps) (R := Responder.challenges) challenges_step items r

theorem rateLimiter_final (r : Responder) (items : List (Token × Work)) :
    (Machine.final (step parse serverIps) r items).rateLimiter =
      Machine.final RateLimiter.step r.rateLimiter (requests items) := by
  rw [Machine.final_eq_foldl RateLimiter.step]
  exact Machine.final_part (step parse serverIps) (R := Responder.rateLimiter) rateLimiter_step
    items r

theorem challenges_after (items : List (Token × Work)) :
    (after parse serverIps items).challenges = Challenges.run (ops parse items) :=
  challenges_final new items

theorem rateLimiter_after (items : List (Token × Work)) :
    (after parse serverIps items).rateLimiter =
      Machine.final RateLimiter.step .new (requests items) :=
  rateLimiter_final new items

/-! ## What is answered -/

/-- A packet answers a datagram, from an address that can be answered, that the limiter lets
through. -/
structure Answers (serverIps : ServerIps) (r : Responder) (d : Datagram) (packet : Packet) :
    Prop where
  valid : validReturnAddress d.srcAddr
  passes : (r.rateLimiter.increment d.srcAddr.ip d.now).1 = .ok
  response : handleRequest d.message serverIps r.challenges = .ok (some packet.1)
  srcAddr : packet.2 = d.srcAddr

theorem step_eq_some_iff {r : Responder} {item : Token × Work} {packet : Packet} :
    (r.step parse serverIps item).1 = .ok (some packet) ↔
      ∃ d, item.2 = .datagram d ∧ r.Answers serverIps d packet := by
  rcases item with ⟨token, stream | d⟩
  · rw [step_connection]
    exact iff_of_false (by simp) (by simp)
  · constructor
    · intro h
      refine ⟨d, rfl, ?_⟩
      simp only [step, answer] at h
      split_ifs at h with hvalid
      · rcases hinc : r.rateLimiter.increment d.srcAddr.ip d.now with ⟨_ | _, l⟩
        · rw [hinc] at h
          rcases hresp : handleRequest d.message serverIps r.challenges with p | _ | bytes
          · simp [hresp, Except.map] at h
          · simp [hresp, Except.map] at h
          · obtain rfl : (bytes, d.srcAddr) = packet := by simpa [hresp, Except.map] using h
            exact ⟨hvalid, by rw [hinc], hresp, rfl⟩
        · rw [hinc] at h
          simp at h
      · simp at h
    · rintro ⟨d', hd, hvalid, hpasses, hresp, haddr⟩
      obtain rfl := Work.datagram.inj hd
      rcases hinc : r.rateLimiter.increment d.srcAddr.ip d.now with ⟨result, l⟩
      rw [hinc] at hpasses
      obtain rfl : result = .ok := hpasses
      obtain ⟨bytes, addr⟩ := packet
      obtain rfl : addr = d.srcAddr := haddr
      simp only [step, answer, hvalid, if_true, hinc, hresp, Except.map, Option.map_some]

theorem step_error_iff {r : Responder} {item : Token × Work} :
    (∃ panic, (r.step parse serverIps item).1 = .error panic) ↔
      ∃ d, item.2 = .datagram d ∧ Crashes r.rateLimiter d := by
  rcases item with ⟨token, stream | d⟩
  · rw [step_connection]
    exact iff_of_false (by simp) (by simp)
  · constructor
    · rintro ⟨panic, h⟩
      refine ⟨d, rfl, ?_⟩
      simp only [step, answer] at h
      split_ifs at h with hvalid
      · rcases hinc : r.rateLimiter.increment d.srcAddr.ip d.now with ⟨_ | _, l⟩
        · rw [hinc] at h
          by_cases hcut : StandardQuery d.message ∧ CutShort d.message
          · exact ⟨hvalid, by rw [hinc], hcut.1, hcut.2⟩
          · obtain ⟨o, ho⟩ := exists_handleRequest hcut serverIps r.challenges
            simp [ho, Except.map] at h
        · rw [hinc] at h
          simp at h
    · rintro ⟨d', hd, hvalid, hpasses, hstd, hcut⟩
      obtain rfl := Work.datagram.inj hd
      obtain ⟨panic, hpanic⟩ := panic_of_cutShort hstd hcut serverIps r.challenges
      rcases hinc : r.rateLimiter.increment d.srcAddr.ip d.now with ⟨result, l⟩
      rw [hinc] at hpasses
      obtain rfl : result = .ok := hpasses
      exact ⟨panic, by simp only [step, answer, hvalid, if_true, hinc, hpanic, Except.map]⟩

end Responder

end

end AcmeChampion
