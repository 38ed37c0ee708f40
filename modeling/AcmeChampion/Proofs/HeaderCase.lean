import AcmeChampion.Proofs.Http

/-!
# Header names in another letter case

Headers are looked up by their exact spelling.  Two requests that differ in the letter case of
header names alone are answered alike exactly when they change nothing or name the same challenge,
or delete challenges that are not there (`servedAlike_iff`).
-/

namespace AcmeChampion

open Text

namespace Request

/-- The requests differ in the letter case of header names at most. -/
structure SameButCase (req req' : Request) : Prop where
  method : req.method = req'.method
  path : req.path = req'.path
  headers : List.Forall₂ (fun h h' : Header =>
    eqIgnoreAsciiCase (utf8 h.name) (utf8 h'.name) ∧ h.value = h'.value) req.headers req'.headers

/-- The requests name the same challenge, if any, or they delete two that are not in the store. -/
def SameChange (req req' : Request) (cs : Challenges) : Prop :=
  (∀ c, req.Names c ↔ req'.Names c) ∨
    req.method = some "DELETE" ∧
      ∃ c c', req.Names c ∧ req'.Names c' ∧ c ∉ cs.list ∧ c' ∉ cs.list

theorem Mutating.performs {req : Request} (h : req.Mutating) {c : Challenge} (hc : req.Names c) :
    ∃ op, req.Performs op := by
  rcases h.1 with hmethod | hmethod
  · exact ⟨.set c, hmethod, hc⟩
  · exact ⟨.cleanup c, hmethod, hc⟩

end Request

variable {ε π : Type}

/-- Both connections are served, with the same answers and the same store. -/
def ServedAlike (served served' : Checked (Served ε (HttpError ε π) Unit)) : Prop :=
  ∃ s s', served = .ok s ∧ served' = .ok s' ∧ s.stream.written = s'.stream.written ∧
    s.challenges = s'.challenges

theorem ServedAlike.symm {served served' : Checked (Served ε (HttpError ε π) Unit)}
    (h : ServedAlike served served') : ServedAlike served' served := by
  obtain ⟨s, s', hs, hs', hwritten, hchallenges⟩ := h
  exact ⟨s', s, hs', hs, hwritten.symm, hchallenges.symm⟩

theorem Leaves.servedAlike {served served' : Served ε (HttpError ε π) Unit}
    {stream stream' : Stream ε} {answers : List StatusCode} {cs : Challenges}
    (h : Leaves served stream answers cs) (h' : Leaves served' stream' answers cs)
    (hwritten : stream.written = stream'.written) :
    ServedAlike (.ok served) (.ok served') := by
  refine ⟨served, served', rfl, rfl, ?_, ?_⟩
  · rw [h.written, h'.written, hwritten]
  · rw [h.challenges, h'.challenges]

theorem responseText_inj {status status' : StatusCode}
    (h : responseText status = responseText status') : status = status' := by
  revert h
  cases status <;> cases status' <;> decide +kernel

/-- The answers that were written tell the status. -/
theorem Leaves.status_eq {served served' : Served ε (HttpError ε π) Unit}
    {stream stream' : Stream ε} {status status' : StatusCode} {cs cs' : Challenges}
    (h : Leaves served stream [status] cs) (h' : Leaves served' stream' [status'] cs')
    (hstream : stream.written = stream'.written)
    (hwritten : served.stream.written = served'.stream.written) : status = status' := by
  rw [h.written, h'.written, hstream, List.append_cancel_left_eq] at hwritten
  exact responseText_inj (List.cons.inj hwritten).1

section TwoRuns

variable {parse : List UInt8 → Except π (Status × Request)} {stream stream' : Stream ε} {len : ℕ}
  {req req' : Request} (h : Receives parse stream len req) (h' : Receives parse stream' len req')
  (hwritten : stream.written = stream'.written)

include h h' hwritten

theorem servedAlike_of_performs {op op' : StoreOp} (hop : req.Performs op)
    (hop' : req'.Performs op') (cs : Challenges) (hstatus : op.status = op'.status)
    (hstore : cs.apply op = cs.apply op') :
    ServedAlike (handleHttp parse stream len cs) (handleHttp parse stream' len cs) := by
  obtain ⟨served, hserved, hleaves⟩ := handleHttp_of_performs h hop cs
  obtain ⟨served', hserved', hleaves'⟩ := handleHttp_of_performs h' hop' cs
  rw [hserved, hserved']
  rw [hstatus, hstore] at hleaves
  exact hleaves.servedAlike hleaves' hwritten

theorem servedAlike_of_declined {status : StatusCode} (hdecl : req.Declined status)
    (hdecl' : req'.Declined status) (cs : Challenges) :
    ServedAlike (handleHttp parse stream len cs) (handleHttp parse stream' len cs) := by
  obtain ⟨served, hserved, hleaves⟩ := handleHttp_of_declined h hdecl cs
  obtain ⟨served', hserved', hleaves'⟩ := handleHttp_of_declined h' hdecl' cs
  rw [hserved, hserved']
  exact hleaves.servedAlike hleaves' hwritten

/-- The same answer to a request that performs an operation comes from one of the same kind. -/
theorem exists_performs_of_servedAlike {op : StoreOp} (hop : req.Performs op) {cs : Challenges}
    (hsame : ServedAlike (handleHttp parse stream len cs) (handleHttp parse stream' len cs)) :
    ∃ op', req'.Performs op' ∧ op'.status = op.status ∧ cs.apply op = cs.apply op' := by
  obtain ⟨s, s', hs, hs', hsw, hsc⟩ := hsame
  obtain ⟨served, hserved, hleaves⟩ := handleHttp_of_performs h hop cs
  obtain rfl : served = s := Except.ok.inj (hserved.symm.trans hs)
  rcases performs_or_declined req' with ⟨op', hop'⟩ | ⟨status, hdecl⟩
  · obtain ⟨served', hserved', hleaves'⟩ := handleHttp_of_performs h' hop' cs
    obtain rfl : served' = s' := Except.ok.inj (hserved'.symm.trans hs')
    refine ⟨op', hop', (hleaves.status_eq hleaves' hwritten hsw).symm, ?_⟩
    rw [← hleaves.challenges, ← hleaves'.challenges, hsc]
  · obtain ⟨served', hserved', hleaves'⟩ := handleHttp_of_declined h' hdecl cs
    obtain rfl : served' = s' := Except.ok.inj (hserved'.symm.trans hs')
    have hstatus := hleaves.status_eq hleaves' hwritten hsw
    cases op <;> cases hdecl <;> simp [StoreOp.status] at hstatus

theorem changes_of_servedAlike {op : StoreOp} (hop : req.Performs op) {cs : Challenges}
    (hsame : ServedAlike (handleHttp parse stream len cs) (handleHttp parse stream' len cs)) :
    req.SameChange req' cs := by
  obtain ⟨op', hop', hstatus, hstore⟩ := exists_performs_of_servedAlike h h' hwritten hop hsame
  have hboth : ∀ {c : Challenge}, req.Names c → req'.Names c → req.SameChange req' cs := by
    intro c hc hc'
    refine .inl fun d => ⟨fun hd => hc.unique hd ▸ hc', fun hd => hc'.unique hd ▸ hc⟩
  cases op with
  | set c =>
    cases op' with
    | set c' =>
      obtain rfl := Challenges.set_inj hstore
      exact hboth hop.2 hop'.2
    | cleanup c' => simp [StoreOp.status] at hstatus
  | cleanup c =>
    cases op' with
    | set c' => simp [StoreOp.status] at hstatus
    | cleanup c' =>
      rcases Challenges.cleanup_eq_iff.1 hstore with rfl | ⟨hc, hc'⟩
      · exact hboth hop.2 hop'.2
      · exact .inr ⟨hop.1, c, c', hop.2, hop'.2, hc, hc'⟩

end TwoRuns

theorem Request.SameButCase.symm {req req' : Request} (h : req.SameButCase req') :
    req'.SameButCase req := by
  refine ⟨h.method.symm, h.path.symm, ?_⟩
  refine List.Forall₂.flip (h.headers.imp fun a b hab => ?_)
  obtain ⟨hname, hvalue⟩ := hab
  rw [eqIgnoreAsciiCase_iff] at hname
  exact ⟨eqIgnoreAsciiCase_iff.2 hname.symm, hvalue.symm⟩

theorem Request.SameButCase.mutating {req req' : Request} (h : req.SameButCase req')
    (hmut : req.Mutating) : req'.Mutating := by
  unfold Request.Mutating
  rw [← h.method, ← h.path]
  exact hmut

/-- A request with the same change is declined with the same status. -/
theorem Request.Declined.of_sameButCase {req req' : Request} (h : req.SameButCase req')
    {cs : Challenges} (hchange : ¬ req.Mutating ∨ req.SameChange req' cs) {status : StatusCode}
    (hdecl : req.Declined status) : req'.Declined status := by
  cases hdecl with
  | unnamed hmut hc =>
    refine .unnamed (h.mutating hmut) fun ⟨c, hc'⟩ => ?_
    rcases hchange.resolve_left (not_not_intro hmut) with hnames | ⟨-, d, -, hd, -⟩
    · exact hc ⟨c, (hnames c).2 hc'⟩
    · exact hc ⟨d, hd⟩
  | malformed hno => exact .malformed (h.method ▸ h.path ▸ hno)
  | health hmethod hpath => exact .health (h.method ▸ hmethod) (h.path ▸ hpath)
  | otherMethod hmethod hpath hno =>
    exact .otherMethod (h.method ▸ hmethod) (h.path ▸ hpath) fun hmut => hno (h.symm.mutating hmut)
  | unknown hmethod hpath hhealth hreg =>
    exact .unknown (h.method ▸ hmethod) (h.path ▸ hpath) hhealth hreg

/-- Requests that differ in the letter case of header names are answered alike, and leave the same
store, exactly when they change no store or change this one alike. -/
theorem servedAlike_iff {ε π : Type} {parse : List UInt8 → Except π (Status × Request)}
    {stream stream' : Stream ε} {len : ℕ} {req req' : Request}
    (h : Receives parse stream len req) (h' : Receives parse stream' len req')
    (hwritten : stream.written = stream'.written) (hcase : req.SameButCase req')
    (cs : Challenges) :
    ServedAlike (handleHttp parse stream len cs) (handleHttp parse stream' len cs) ↔
      ¬ req.Mutating ∨ req.SameChange req' cs := by
  constructor
  · intro hsame
    by_cases hmut : req.Mutating
    · refine .inr ?_
      rcases performs_or_declined req with ⟨op, hop⟩ | ⟨status, hdecl⟩
      · exact changes_of_servedAlike h h' hwritten hop hsame
      · refine .inl fun c => ⟨fun hc => ?_, fun hc => ?_⟩
        · obtain ⟨op, hop⟩ := hmut.performs hc
          exact absurd hop (hdecl.not_performs op)
        · obtain ⟨op', hop'⟩ := (hcase.mutating hmut).performs hc
          obtain ⟨op, hop, -⟩ :=
            exists_performs_of_servedAlike h' h hwritten.symm hop' hsame.symm
          exact absurd hop (hdecl.not_performs op)
    · exact .inl hmut
  · intro hchange
    rcases performs_or_declined req with ⟨op, hop⟩ | ⟨status, hdecl⟩
    · rcases hchange.resolve_left fun hno => hno hop.mutating.1 with hnames | hdelete
      · have hop' : req'.Performs op := by
          cases op with
          | set c => exact ⟨hcase.method ▸ hop.1, (hnames c).1 hop.2⟩
          | cleanup c => exact ⟨hcase.method ▸ hop.1, (hnames c).1 hop.2⟩
        exact servedAlike_of_performs h h' hwritten hop hop' cs rfl rfl
      · obtain ⟨hmethod, c, c', hc, hc', hno, hno'⟩ := hdelete
        have hdrop : req.Performs (.cleanup c) := ⟨hmethod, hc⟩
        have hdrop' : req'.Performs (.cleanup c') := ⟨hcase.method ▸ hmethod, hc'⟩
        exact servedAlike_of_performs h h' hwritten hdrop hdrop' cs rfl
          (Challenges.cleanup_eq_iff.2 (.inr ⟨hno, hno'⟩))
    · have hdecl' : req'.Declined status := hdecl.of_sameButCase hcase hchange
      exact servedAlike_of_declined h h' hwritten hdecl hdecl' cs

/-- `postRequest` as a client sends it that writes header names in lower case. -/
def lowerCaseRequest : Request where
  method := some "POST"
  path := some "/register/d"
  headers := [⟨"x-acme-challenge-name", utf8 "n"⟩, ⟨"x-acme-challenge-value", utf8 "v"⟩]

section LowerCase

/-- How `req` is answered, with a new store. -/
def answer (req : Request) : Checked (Served Unit (HttpError Unit Unit) Unit) :=
  handleHttp (parseAmong [postRequest, lowerCaseRequest]) (connection [req.head]) bufLen
    Challenges.new

theorem receives_post : Receives (parseAmong [postRequest, lowerCaseRequest])
    (connection [postRequest.head]) bufLen postRequest :=
  receives_connection postRequest.head.length (by decide +kernel) (by decide +kernel)

theorem receives_lowerCase : Receives (parseAmong [postRequest, lowerCaseRequest])
    (connection [lowerCaseRequest.head]) bufLen lowerCaseRequest :=
  receives_connection lowerCaseRequest.head.length (by decide +kernel) (by decide +kernel)

theorem sameButCase_lowerCase : postRequest.SameButCase lowerCaseRequest := by
  refine ⟨rfl, rfl, .cons ⟨?_, rfl⟩ (.cons ⟨?_, rfl⟩ .nil)⟩
  · decide +kernel
  · decide +kernel

theorem servedAlike_iff_lowerCase : ServedAlike (answer postRequest) (answer lowerCaseRequest) ↔
    ¬ postRequest.Mutating ∨ postRequest.SameChange lowerCaseRequest Challenges.new :=
  servedAlike_iff receives_post receives_lowerCase rfl sameButCase_lowerCase Challenges.new

/-- The spelling of the documentation registers the challenge, the other one is refused. -/
theorem answer_lowerCase : postRequest.SameButCase lowerCaseRequest ∧
    ∃ served served', answer postRequest = .ok served ∧ answer lowerCaseRequest = .ok served' ∧
      served.stream.written = [responseText .created] ∧
      served.challenges.list = [⟨"d", "n", "v"⟩] ∧
      served'.stream.written = [responseText .badRequest] ∧ served'.challenges.list = [] := by
  have hlower : lowerCaseRequest.Declined .badRequest := by
    refine .unnamed ⟨.inl rfl, "d", rfl⟩ fun ⟨c, hc⟩ => ?_
    obtain ⟨name, hname, -⟩ := hc.name
    rw [show lowerCaseRequest.header "X-ACME-Challenge-Name" = none by decide +kernel] at hname
    cases hname
  obtain ⟨served, hserved, hleaves⟩ :=
    handleHttp_of_performs receives_post performs_postRequest Challenges.new
  obtain ⟨served', hserved', hleaves'⟩ :=
    handleHttp_of_declined receives_lowerCase hlower Challenges.new
  refine ⟨sameButCase_lowerCase, served, served', hserved, hserved', hleaves.written, ?_,
    hleaves'.written, ?_⟩
  · rw [hleaves.challenges]
    rfl
  · rw [hleaves'.challenges]
    rfl

end LowerCase

end AcmeChampion
