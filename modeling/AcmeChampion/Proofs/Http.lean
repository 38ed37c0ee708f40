import AcmeChampion.HttpHandler
import AcmeChampion.Proofs.Challenges

/-!
# What the HTTP API answers and does

A request performs one operation on the store (`Request.Performs`) or is declined
(`Request.Declined`), and `serve` answers and does just that.  So the store changes through
registrations and their removal alone, and a DELETE undoes the POST that it matches
(`handleHttp_spec`).
-/

namespace AcmeChampion

open Text

/-! ## The challenge that a request names -/

namespace Request

/-- The challenge of the path and the headers, without dots at the end of its names. -/
structure Names (req : Request) (c : Challenge) : Prop where
  domain : ∃ domain, req.path = some (registerPath ++ domain) ∧ trimEndMatches '.' domain = c.domain
  name : ∃ name, req.header "X-ACME-Challenge-Name" = some (utf8 name) ∧
    trimEndMatches '.' name = c.name
  value : req.header "X-ACME-Challenge-Value" = some (utf8 c.value)

/-- The method and the path are those of a change of the store. -/
def Mutating (req : Request) : Prop :=
  (req.method = some "POST" ∨ req.method = some "DELETE") ∧
    ∃ domain, req.path = some (registerPath ++ domain)

/-- The operation that the request performs on the store. -/
def Performs (req : Request) : StoreOp → Prop
  | .set c => req.method = some "POST" ∧ req.Names c
  | .cleanup c => req.method = some "DELETE" ∧ req.Names c

end Request

def StoreOp.status : StoreOp → StatusCode
  | set _ => .created
  | cleanup _ => .noContent

/-- The status of a request that performs no operation. -/
inductive Request.Declined (req : Request) : StatusCode → Prop
  | unnamed (hmut : req.Mutating) (hc : ¬ ∃ c, req.Names c) : Declined req .badRequest
  | malformed (h : req.method = none ∨ req.path = none) : Declined req .badRequest
  | health (hmethod : req.method = some "GET") (hpath : req.path = some "/") : Declined req .ok
  | otherMethod {method domain : String} (hmethod : req.method = some method)
      (hpath : req.path = some (registerPath ++ domain)) (hmut : ¬ req.Mutating) :
      Declined req .methodNotAllowed
  | unknown {method path : String} (hmethod : req.method = some method)
      (hpath : req.path = some path) (hhealth : ¬ (method = "GET" ∧ path = "/"))
      (hreg : ¬ ∃ domain, path = registerPath ++ domain) : Declined req .notFound

theorem strFrom_append (pre rest : String) :
    strFrom (pre ++ rest) (utf8 pre).length = .ok rest := by
  have hlen : (utf8 pre).length ≤ (utf8 pre ++ utf8 rest).length := by simp
  unfold strFrom
  rw [utf8_append, slice_of_le hlen le_rfl, List.take_length, List.drop_left]
  simp only [bind, Except.bind, fromUtf8_utf8]
  rfl

theorem startsWith_registerPath (domain : String) :
    startsWith (registerPath ++ domain) registerPath = true := startsWith_iff.2 ⟨domain, rfl⟩

section Challenge

variable {req : Request}

theorem Request.Names.unique {c c' : Challenge} (h : req.Names c) (h' : req.Names c') : c = c' := by
  obtain ⟨⟨domain, hpath, hdomain⟩, ⟨name, hheader, hname⟩, hvalue⟩ := h
  obtain ⟨⟨domain', hpath', hdomain'⟩, ⟨name', hheader', hname'⟩, hvalue'⟩ := h'
  rw [hpath, Option.some.injEq, String.append_right_inj] at hpath'
  rw [hheader, Option.some.injEq] at hheader'
  rw [hvalue, Option.some.injEq] at hvalue'
  obtain ⟨d, n, v⟩ := c
  obtain ⟨d', n', v'⟩ := c'
  obtain rfl := utf8_inj hheader'
  subst hpath'
  rw [Challenge.mk.injEq]
  exact ⟨hdomain.symm.trans hdomain', hname.symm.trans hname', utf8_inj hvalue'⟩

theorem challengeFromReq_of_names {c : Challenge} (h : req.Names c) :
    challengeFromReq req = .ok (.ok c) := by
  obtain ⟨⟨domain, hpath, hdomain⟩, ⟨name, hheader, hname⟩, hvalue⟩ := h
  unfold challengeFromReq
  simp only [hpath, strFrom_append, hheader, hvalue, fromUtf8_utf8, hdomain, hname, bind,
    Except.bind]
  rfl

theorem challengeFromReq_of_not_names {domain : String}
    (hpath : req.path = some (registerPath ++ domain)) (h : ¬ ∃ c, req.Names c) :
    challengeFromReq req = .ok (.error ()) := by
  unfold challengeFromReq
  simp only [hpath, strFrom_append, bind, Except.bind]
  rcases hname : req.header "X-ACME-Challenge-Name" with _ | nameHeader
  · rfl
  rcases hutf : fromUtf8 nameHeader with _ | name
  · simp only [hutf]
    rfl
  rcases hvalue : req.header "X-ACME-Challenge-Value" with _ | valueHeader
  · simp only [hutf]
    rfl
  rcases hutf' : fromUtf8 valueHeader with _ | value
  · simp only [hutf, hutf']
    rfl
  · rw [fromUtf8_eq_some_iff] at hutf hutf'
    subst hutf hutf'
    exact absurd ⟨⟨trimEndMatches '.' domain, trimEndMatches '.' name, value⟩, ⟨domain, hpath, rfl⟩,
      ⟨name, hname, rfl⟩, hvalue⟩ h

end Challenge

/-! ## Serving a request -/

section Serve

variable {ε π : Type} {req : Request}

theorem serve_of_performs {op : StoreOp} (h : req.Performs op) (stream : Stream ε)
    (cs : Challenges) :
    serve stream req cs = .ok (emptyHttpResponse stream op.status (cs.apply op)) := by
  unfold serve
  cases op with
  | set c =>
    obtain ⟨hmethod, hc⟩ := h
    obtain ⟨domain, hpath, -⟩ := hc.domain
    have hstarts := startsWith_registerPath domain
    simp only [hmethod, hpath, hstarts, handleSetChallenge, handleChallenge,
      challengeFromReq_of_names hc]
    rfl
  | cleanup c =>
    obtain ⟨hmethod, hc⟩ := h
    obtain ⟨domain, hpath, -⟩ := hc.domain
    have hstarts := startsWith_registerPath domain
    simp only [hmethod, hpath, hstarts, handleUnsetChallenge, handleChallenge,
      challengeFromReq_of_names hc]
    rfl

theorem serve_of_declined {status : StatusCode} (h : req.Declined status) (stream : Stream ε)
    (cs : Challenges) : serve stream req cs = .ok (emptyHttpResponse stream status cs) := by
  have hslash : ∀ domain, registerPath ++ domain ≠ "/" := by
    intro domain h
    have := startsWith_iff.2 ⟨domain, h.symm⟩
    revert this
    decide
  unfold serve
  cases h with
  | unnamed hmut hc =>
    obtain ⟨hmethod, domain, hpath⟩ := hmut
    have hstarts := startsWith_registerPath domain
    rcases hmethod with hmethod | hmethod
    · simp only [hmethod, hpath, hstarts, handleSetChallenge, handleChallenge,
        challengeFromReq_of_not_names hpath hc]
      rfl
    · simp only [hmethod, hpath, hstarts, handleUnsetChallenge, handleChallenge,
        challengeFromReq_of_not_names hpath hc]
      rfl
  | malformed h =>
    rcases h with h | h
    · rw [h]
    · rcases hmethod : req.method with _ | method
      · rfl
      · rw [h]
  | health hmethod hpath =>
    rw [hmethod, hpath]
    rfl
  | @otherMethod method domain hmethod hpath hmut =>
    have hstarts := startsWith_registerPath domain
    have hpost : method ≠ "POST" := fun h => hmut ⟨.inl (h ▸ hmethod), domain, hpath⟩
    have hdelete : method ≠ "DELETE" := fun h => hmut ⟨.inr (h ▸ hmethod), domain, hpath⟩
    simp only [hmethod, hpath, hslash domain, hpost, hdelete, hstarts, and_false, false_and,
      if_false, if_true]
  | @unknown method path hmethod hpath hhealth hreg =>
    have hstarts : startsWith path registerPath = false :=
      Bool.eq_false_iff.2 fun h => hreg (startsWith_iff.1 h)
    simp only [hmethod, hpath, hhealth, hstarts, Bool.false_eq_true, and_false, if_false]

theorem Request.Performs.unique {op op' : StoreOp} (h : req.Performs op) (h' : req.Performs op') :
    op = op' := by
  cases op with
  | set c =>
    cases op' with
    | set c' => rw [h.2.unique h'.2]
    | cleanup c' =>
      have hmethod := h.1.symm.trans h'.1
      simp at hmethod
  | cleanup c =>
    cases op' with
    | set c' =>
      have hmethod := h.1.symm.trans h'.1
      simp at hmethod
    | cleanup c' => rw [h.2.unique h'.2]

theorem Request.Performs.mutating {op : StoreOp} (h : req.Performs op) :
    req.Mutating ∧ ∃ c, req.Names c := by
  cases op with
  | set c =>
    obtain ⟨domain, hpath, -⟩ := h.2.domain
    exact ⟨⟨.inl h.1, domain, hpath⟩, c, h.2⟩
  | cleanup c =>
    obtain ⟨domain, hpath, -⟩ := h.2.domain
    exact ⟨⟨.inr h.1, domain, hpath⟩, c, h.2⟩

theorem Request.Declined.not_performs {status : StatusCode} (h : req.Declined status)
    (op : StoreOp) : ¬ req.Performs op := by
  intro hop
  obtain ⟨hmut, hc⟩ := hop.mutating
  obtain ⟨hmethod, domain, hpath⟩ := hmut
  cases h with
  | unnamed _ hno => exact hno hc
  | malformed h => rcases h with h | h <;> simp_all
  | health hget _ => simp_all
  | otherMethod _ _ hno => exact hno ⟨hmethod, domain, hpath⟩
  | unknown _ hpath' _ hreg =>
    rw [hpath, Option.some.injEq] at hpath'
    exact hreg ⟨domain, hpath'.symm⟩

theorem performs_or_declined (req : Request) :
    (∃ op, req.Performs op) ∨ ∃ status, req.Declined status := by
  rcases hmethod : req.method with _ | method
  · exact .inr ⟨_, .malformed (.inl hmethod)⟩
  rcases hpath : req.path with _ | path
  · exact .inr ⟨_, .malformed (.inr hpath)⟩
  by_cases hreg : ∃ domain, path = registerPath ++ domain
  · obtain ⟨domain, rfl⟩ := hreg
    by_cases hmut : req.Mutating
    · by_cases hc : ∃ c, req.Names c
      · obtain ⟨c, hc⟩ := hc
        rcases hmut.1 with hpost | hdelete
        · exact .inl ⟨.set c, hpost, hc⟩
        · exact .inl ⟨.cleanup c, hdelete, hc⟩
      · exact .inr ⟨_, .unnamed hmut hc⟩
    · exact .inr ⟨_, .otherMethod hmethod hpath hmut⟩
  · by_cases hhealth : method = "GET" ∧ path = "/"
    · exact .inr ⟨_, .health (hhealth.1 ▸ hmethod) (hhealth.2 ▸ hpath)⟩
    · exact .inr ⟨_, .unknown hmethod hpath hhealth hreg⟩

/-! ## Serving a connection -/

/-- The first read brings the parser a whole request. -/
def Receives (parse : List UInt8 → Except π (Status × Request)) (stream : Stream ε) (len : ℕ)
    (req : Request) : Prop :=
  ∃ bytes offset, (stream.read len).1 = .ok bytes ∧ parse bytes = .ok (.complete offset, req)

variable {parse : List UInt8 → Except π (Status × Request)} {stream : Stream ε} {len : ℕ}

theorem Receives.unique {req' : Request} (h : Receives parse stream len req)
    (h' : Receives parse stream len req') : req = req' := by
  obtain ⟨bytes, offset, hread, hparse⟩ := h
  obtain ⟨bytes', offset', hread', hparse'⟩ := h'
  rw [hread, Except.ok.injEq] at hread'
  subst hread'
  rw [hparse] at hparse'
  exact (Prod.mk.inj (Except.ok.inj hparse')).2

theorem written_read (stream : Stream ε) (len : ℕ) :
    (stream.read len).2.written = stream.written := by
  unfold Stream.read
  split
  · rfl
  · rfl
  · split_ifs <;> rfl

theorem written_emptyHttpResponse (stream : Stream ε) (status : StatusCode) (cs : Challenges) :
    (emptyHttpResponse stream status cs).stream.written = stream.written ++ [responseText status] ∧
      (emptyHttpResponse stream status cs).challenges = cs := by
  unfold emptyHttpResponse Stream.write
  rcases stream.accepts (responseText status) with e | ⟨⟩ <;> exact ⟨rfl, rfl⟩

theorem handleHttp_of_receives (h : Receives parse stream len req) (cs : Challenges) :
    handleHttp parse stream len cs =
      (serve (stream.read len).2 req cs).map fun served => served.finish := by
  obtain ⟨bytes, offset, hread, hparse⟩ := h
  unfold handleHttp
  rcases hr : stream.read len with ⟨outcome, rest⟩
  rw [hr] at hread
  have hread : outcome = .ok bytes := hread
  subst hread
  simp only [hparse]
  rcases serve rest req cs with p | served <;> rfl

/-- A connection writes at most the one answer that `status` is, and leaves `challenges`. -/
structure Leaves (served : Served ε (HttpError ε π) Unit) (stream : Stream ε)
    (answers : List StatusCode) (challenges : Challenges) : Prop where
  written : served.stream.written = stream.written ++ answers.map responseText
  challenges : served.challenges = challenges

theorem leaves_finish (stream : Stream ε) (len : ℕ) (status : StatusCode) (cs : Challenges) :
    @Leaves ε π (emptyHttpResponse (stream.read len).2 status cs).finish stream [status] cs := by
  obtain ⟨hwritten, hchallenges⟩ := written_emptyHttpResponse (stream.read len).2 status cs
  rw [written_read] at hwritten
  exact ⟨hwritten, hchallenges⟩

theorem handleHttp_of_performs {op : StoreOp} (h : Receives parse stream len req)
    (hop : req.Performs op) (cs : Challenges) :
    ∃ served, handleHttp parse stream len cs = .ok served ∧
      Leaves served stream [op.status] (cs.apply op) := by
  rw [handleHttp_of_receives h, serve_of_performs hop]
  exact ⟨_, rfl, leaves_finish stream len op.status (cs.apply op)⟩

theorem handleHttp_of_declined {status : StatusCode} (h : Receives parse stream len req)
    (hdecl : req.Declined status) (cs : Challenges) :
    ∃ served, handleHttp parse stream len cs = .ok served ∧ Leaves served stream [status] cs := by
  rw [handleHttp_of_receives h, serve_of_declined hdecl]
  exact ⟨_, rfl, leaves_finish stream len status cs⟩

theorem handleHttp_of_incomplete {bytes : List UInt8} (hread : (stream.read len).1 = .ok bytes)
    (hparse : parse bytes = .ok (.incomplete, req)) (cs : Challenges) :
    ∃ served, handleHttp parse stream len cs = .ok served ∧
      Leaves served stream [.badRequest] cs := by
  have hleaves := @leaves_finish ε π stream len .badRequest cs
  unfold handleHttp
  rcases hr : stream.read len with ⟨outcome, rest⟩
  rw [hr] at hread hleaves
  have hread : outcome = .ok bytes := hread
  subst hread
  simp only [hparse]
  exact ⟨_, rfl, hleaves⟩

theorem handleHttp_of_not_receives (h : ¬ ∃ req, Receives parse stream len req) (cs : Challenges) :
    ∃ served answers, handleHttp parse stream len cs = .ok served ∧
      Leaves served stream answers cs ∧ (answers = [] ∨ answers = [.badRequest]) := by
  have hwritten := written_read stream len
  rcases hr : stream.read len with ⟨e | bytes, rest⟩
  · unfold handleHttp
    rw [hr] at hwritten ⊢
    exact ⟨_, [], rfl, ⟨by simpa using hwritten, rfl⟩, .inl rfl⟩
  rcases hp : parse bytes with e | ⟨offset | _, req⟩
  · unfold handleHttp
    rw [hr] at hwritten ⊢
    simp only [hp]
    exact ⟨_, [], rfl, ⟨by simpa using hwritten, rfl⟩, .inl rfl⟩
  · exact absurd ⟨req, bytes, offset, by rw [hr], hp⟩ h
  · obtain ⟨served, hserved, hleaves⟩ := handleHttp_of_incomplete (by rw [hr]) hp cs
    exact ⟨served, _, hserved, hleaves, .inr rfl⟩

theorem exists_handleHttp (parse : List UInt8 → Except π (Status × Request)) (stream : Stream ε)
    (len : ℕ) (cs : Challenges) : ∃ served, handleHttp parse stream len cs = .ok served := by
  by_cases hreq : ∃ req, Receives parse stream len req
  · obtain ⟨req, hreq⟩ := hreq
    rcases performs_or_declined req with ⟨op, hop⟩ | ⟨status, hdecl⟩
    · obtain ⟨served, hserved, -⟩ := handleHttp_of_performs hreq hop cs
      exact ⟨served, hserved⟩
    · obtain ⟨served, hserved, -⟩ := handleHttp_of_declined hreq hdecl cs
      exact ⟨served, hserved⟩
  · obtain ⟨served, -, hserved, -⟩ := handleHttp_of_not_receives hreq cs
    exact ⟨served, hserved⟩

end Serve

/-! ## Undoing a registration -/

/-- The texts differ at most in the dots at their ends. -/
def SameButDots (s t : String) : Prop :=
  ∃ body i j, s.toList = body ++ List.replicate i '.' ∧ t.toList = body ++ List.replicate j '.'

/-- The paths and the headers are the same but for dots at the ends of the names. -/
structure Request.SameButDots (req req' : Request) : Prop where
  domain : ∃ domain domain', req.path = some (registerPath ++ domain) ∧
    req'.path = some (registerPath ++ domain') ∧ AcmeChampion.SameButDots domain domain'
  name : ∃ name name', req.header "X-ACME-Challenge-Name" = some (utf8 name) ∧
    req'.header "X-ACME-Challenge-Name" = some (utf8 name') ∧ AcmeChampion.SameButDots name name'
  value : req'.header "X-ACME-Challenge-Value" = req.header "X-ACME-Challenge-Value"

theorem Request.Names.of_sameButDots {req req' : Request} {c : Challenge} (hc : req.Names c)
    (h : req.SameButDots req') : req'.Names c := by
  obtain ⟨⟨domain, hpath, hdomain⟩, ⟨name, hheader, hname⟩, hvalue⟩ := hc
  obtain ⟨d, d', hd, hd', hdots⟩ := h.domain
  obtain ⟨n, n', hn, hn', hdots'⟩ := h.name
  rw [hpath, Option.some.injEq, String.append_right_inj] at hd
  subst hd
  rw [hheader, Option.some.injEq] at hn
  obtain rfl := utf8_inj hn
  refine ⟨⟨d', hd', ?_⟩, ⟨n', hn', ?_⟩, h.value.trans hvalue⟩
  · rw [← hdomain, trimEndMatches_eq_iff.2 hdots]
  · rw [← hname, trimEndMatches_eq_iff.2 hdots']

theorem undo {ε π : Type} {parse : List UInt8 → Except π (Status × Request)}
    {stream stream' : Stream ε} {len : ℕ} {req req' : Request} {c : Challenge} {cs : Challenges}
    (h : Receives parse stream len req) (h' : Receives parse stream' len req')
    (hset : req.Performs (.set c)) (hmethod : req'.method = some "DELETE")
    (hdots : req.SameButDots req') (hlen : cs.list.length < Challenges.maxLen) (hc : c ∉ cs.list) :
    ∃ served served', handleHttp parse stream len cs = .ok served ∧
      handleHttp parse stream' len served.challenges = .ok served' ∧ served'.challenges = cs := by
  obtain ⟨served, hserved, hleaves⟩ := handleHttp_of_performs h hset cs
  have hcleanup : req'.Performs (.cleanup c) := ⟨hmethod, hset.2.of_sameButDots hdots⟩
  obtain ⟨served', hserved', hleaves'⟩ := handleHttp_of_performs h' hcleanup served.challenges
  refine ⟨served, served', hserved, hserved', ?_⟩
  rw [hleaves'.challenges, hleaves.challenges]
  exact Challenges.cleanup_set hlen hc

/-- Whatever the stream and the parser do, a connection is served.  The store changes by the
operation that a whole request performs, with its status as the only answer; without one it is left
as it is, and neither 201 nor 204 is attempted.  A DELETE undoes the POST it matches. -/
theorem handleHttp_spec {ε π : Type} (parse : List UInt8 → Except π (Status × Request)) (len : ℕ) :
    (∀ (stream : Stream ε) cs, ∃ served answers, handleHttp parse stream len cs = .ok served ∧
      served.stream.written = stream.written ++ answers.map responseText ∧
      (∀ req op, Receives parse stream len req → req.Performs op →
        served.challenges = cs.apply op ∧ answers = [op.status]) ∧
      ((¬ ∃ req op, Receives parse stream len req ∧ req.Performs op) →
        served.challenges = cs ∧ .created ∉ answers ∧ .noContent ∉ answers)) ∧
    ∀ (stream stream' : Stream ε) cs req req' c, Receives parse stream len req →
      Receives parse stream' len req' → req.Performs (.set c) → req'.method = some "DELETE" →
        req.SameButDots req' → cs.list.length < Challenges.maxLen → c ∉ cs.list →
          ∃ served served', handleHttp parse stream len cs = .ok served ∧
            handleHttp parse stream' len served.challenges = .ok served' ∧
              served'.challenges = cs := by
  refine ⟨fun stream cs => ?_, fun _ _ _ _ _ _ h h' hset hmethod hdots hlen hc =>
    undo h h' hset hmethod hdots hlen hc⟩
  by_cases hreq : ∃ req, Receives parse stream len req
  · obtain ⟨req, hreq⟩ := hreq
    rcases performs_or_declined req with ⟨op, hop⟩ | ⟨status, hdecl⟩
    · obtain ⟨served, hserved, hleaves⟩ := handleHttp_of_performs hreq hop cs
      refine ⟨served, _, hserved, hleaves.written, ?_, fun hno => absurd ⟨req, op, hreq, hop⟩ hno⟩
      intro req' op' hreq' hop'
      obtain rfl := hreq.unique hreq'
      obtain rfl := hop.unique hop'
      exact ⟨hleaves.challenges, rfl⟩
    · obtain ⟨served, hserved, hleaves⟩ := handleHttp_of_declined hreq hdecl cs
      refine ⟨served, _, hserved, hleaves.written, ?_, fun _ => ⟨hleaves.challenges, ?_⟩⟩
      · intro req' op hreq' hop
        obtain rfl := hreq.unique hreq'
        exact absurd hop (hdecl.not_performs op)
      · cases hdecl <;> simp
  · obtain ⟨served, answers, hserved, hleaves, hanswers⟩ := handleHttp_of_not_receives hreq cs
    refine ⟨served, answers, hserved, hleaves.written,
      fun req' _ hreq' _ => absurd ⟨req', hreq'⟩ hreq, fun _ => ⟨hleaves.challenges, ?_⟩⟩
    rcases hanswers with rfl | rfl <;> simp

/-! ## Requests on the wire -/

/-- The head of the request as it is sent. -/
def Request.head (req : Request) : List UInt8 :=
  utf8 (req.method.getD "" ++ " " ++ req.path.getD "" ++ " HTTP/1.1\r\n") ++
    req.headers.flatMap (fun h => utf8 (h.name ++ ": ") ++ h.value ++ utf8 "\r\n") ++ utf8 "\r\n"

/-- A parser that knows the heads of some requests. -/
def parseAmong (reqs : List Request) (bytes : List UInt8) : Except Unit (Status × Request) :=
  match reqs.find? fun req => req.head.isPrefixOf bytes with
  | some req => .ok (.complete req.head.length, req)
  | none =>
    if reqs.any fun req => bytes.isPrefixOf req.head then .ok (.incomplete, ⟨none, none, []⟩)
    else .error ()

/-- A connection that the bytes come in on, and that takes every answer. -/
def connection (reads : List (List UInt8)) : Stream Unit where
  reads := reads.map .ok
  accepts _ := .ok ()
  written := []

theorem receives_connection {π : Type} {parse : List UInt8 → Except π (Status × Request)}
    {bytes : List UInt8} (offset : ℕ) {req : Request} (hlen : bytes.length ≤ bufLen)
    (h : parse bytes = .ok (.complete offset, req)) :
    Receives parse (connection [bytes]) bufLen req := by
  refine ⟨bytes, offset, ?_, h⟩
  unfold Stream.read connection
  simp only [List.map_cons, if_pos hlen]

def postRequest : Request where
  method := some "POST"
  path := some "/register/d"
  headers := [⟨"X-ACME-Challenge-Name", utf8 "n"⟩, ⟨"X-ACME-Challenge-Value", utf8 "v"⟩]

def deleteRequest : Request where
  method := some "DELETE"
  path := some "/register/d."
  headers := [⟨"X-ACME-Challenge-Name", utf8 "n."⟩, ⟨"X-ACME-Challenge-Value", utf8 "v"⟩]

theorem receives_postRequest : Receives (parseAmong [postRequest, deleteRequest])
    (connection [postRequest.head]) bufLen postRequest :=
  receives_connection postRequest.head.length (by decide +kernel) (by decide +kernel)

theorem receives_deleteRequest : Receives (parseAmong [postRequest, deleteRequest])
    (connection [deleteRequest.head]) bufLen deleteRequest :=
  receives_connection deleteRequest.head.length (by decide +kernel) (by decide +kernel)

theorem performs_postRequest : postRequest.Performs (.set ⟨"d", "n", "v"⟩) :=
  ⟨rfl, ⟨"d", rfl, by decide⟩, ⟨"n", rfl, by decide⟩, rfl⟩

theorem handleHttp_spec_undo : ∃ served served',
    handleHttp (parseAmong [postRequest, deleteRequest]) (connection [postRequest.head]) bufLen
      Challenges.new = .ok served ∧
    handleHttp (parseAmong [postRequest, deleteRequest]) (connection [deleteRequest.head]) bufLen
      served.challenges = .ok served' ∧ served'.challenges = Challenges.new := by
  have hdots : postRequest.SameButDots deleteRequest :=
    ⟨⟨"d", "d.", rfl, rfl, ['d'], 0, 1, rfl, rfl⟩, ⟨"n", "n.", rfl, rfl, ['n'], 0, 1, rfl, rfl⟩,
      rfl⟩
  exact (handleHttp_spec (parseAmong [postRequest, deleteRequest]) bufLen).2 _ _ _ _ _
    ⟨"d", "n", "v"⟩ receives_postRequest receives_deleteRequest performs_postRequest rfl hdots
    (by decide) List.not_mem_nil

end AcmeChampion
