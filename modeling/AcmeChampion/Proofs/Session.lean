import AcmeChampion.Lib.Effects
import AcmeChampion.Proofs.Clients
import AcmeChampion.Proofs.HeaderCase
import AcmeChampion.Proofs.Packets
import AcmeChampion.Proofs.Teardown

/-!
# A session of the plugin with the server

`perform` asks for the challenges in turn until one is not accepted (`run_perform`).  A request that
the server receives whole performs an operation there, whose status is the one that the plugin waits
for (`session_agrees`), and only then is it answered with that status.  So when `perform` returns
the challenges are in the store (`session_registers`) and queries are answered with their values
(`session_is_answered`), and once the deletions have been answered with the status of a deletion the
store is as though the session had not been (`session_restores`), whatever else the server does
between the requests.  The names and the values are visible ASCII throughout: what else a header can
carry is not in the model.
-/

namespace AcmeChampion

open Text Wire Effects

namespace Plugin

variable {conf : AuthConf} {world : World}

/-! ## What the authentication does -/

/-- The script before is run, if there is one. -/
def setup (conf : AuthConf) : List Action := conf.scriptBefore.toList.map .run

/-- The requests of the challenges, as actions. -/
def registrations (conf : AuthConf) (cs : List Challenge) : List Action :=
  cs.map fun c => .request (performRequest conf c)

/-- The script before, if there is one, ends well. -/
def SetsUp (conf : AuthConf) (world : World) : Prop :=
  ∀ path ∈ conf.scriptBefore, world.run path = .ok ()

/-- The exchange comes to the status of a registration. -/
def Accepted (world : World) (k : ℕ) : Prop := world.exchange k = .ok 201

/-- A failure is the plugin's own when the plugin catches what the exchange came to. -/
def Reports (outcome : Except Raised ℕ) (e : Failure) : Prop :=
  Contained outcome ↔ ∃ text, e = .pluginError text

theorem run_raisingAs {α : Type} (failure : Raised → Failure) (body : Py α)
    (actions : List Action) : (raisingAs failure body).run actions =
      match body.run actions with
      | .ok a actions => .ok a actions
      | .error e actions => .error (failure e) actions := rfl

/-- `_perform` makes its request, and returns if it is accepted. -/
theorem run_registration (c : Challenge) (actions : List Action) :
    (Accepted world (requests actions).length ∧ (_perform world conf c).run actions =
        .ok () (actions ++ [.request (performRequest conf c)])) ∨
      (¬ Accepted world (requests actions).length ∧
        ∃ e, Reports (world.exchange (requests actions).length) e ∧
          (_perform world conf c).run actions =
            .error e (actions ++ [.request (performRequest conf c)])) := by
  unfold _perform Accepted
  simp only [EStateM.run_bind, run_raisingAs, run_exchange]
  rcases world.exchange (requests actions).length with e | status
  · refine .inr ⟨by simp, ?_⟩
    cases e with
    | httpException text | connectionError text =>
      exact ⟨_, iff_of_true trivial ⟨_, rfl⟩, rfl⟩
    | _ => exact ⟨_, iff_of_false not_false (by simp), rfl⟩
  · by_cases hstatus : status = 201
    · subst hstatus
      exact .inl ⟨rfl, rfl⟩
    · refine .inr ⟨by simp [hstatus],
        .pluginError ("Unexpected HTTP status setting challenge: " ++ status.repr),
        iff_of_true trivial ⟨_, rfl⟩, ?_⟩
      simp only [if_pos hstatus]
      rfl

theorem requests_map (f : Challenge → HttpRequest) (cs : List Challenge) :
    requests (cs.map fun c => .request (f c)) = cs.map f := by
  induction cs with
  | nil => rfl
  | cons c cs ih => exact congrArg (f c :: ·) ih

theorem requests_registrations (actions : List Action) (cs : List Challenge) :
    requests (actions ++ registrations conf cs) =
      requests actions ++ cs.map (performRequest conf) := by
  rw [requests_append, registrations, requests_map]

theorem accepted_succ {n len : ℕ} (h : Accepted world n)
    (hall : ∀ k < len, Accepted world (n + 1 + k)) : ∀ k < len + 1, Accepted world (n + k)
  | 0, _ => h
  | k + 1, hk => by
    have hsucc := hall k (by omega)
    rwa [Nat.add_assoc, Nat.add_comm 1 k] at hsucc

/-- The loop over the challenges makes every request up to the first that is not accepted, which
ends it. -/
theorem run_performs : ∀ (cs : List Challenge) (actions : List Action),
    ((∀ k < cs.length, Accepted world ((requests actions).length + k)) ∧
        (forM cs (_perform world conf)).run actions =
          .ok () (actions ++ registrations conf cs)) ∨
      ∃ e done c rest, cs = done ++ c :: rest ∧
        (∀ k < done.length, Accepted world ((requests actions).length + k)) ∧
        ¬ Accepted world ((requests actions).length + done.length) ∧
        Reports (world.exchange ((requests actions).length + done.length)) e ∧
        (forM cs (_perform world conf)).run actions =
          .error e (actions ++ registrations conf (done ++ [c]))
  | [], actions => .inl ⟨by simp, by simp [registrations]⟩
  | c :: cs, actions => by
    have hcount : (requests (actions ++ [.request (performRequest conf c)])).length =
        (requests actions).length + 1 := by
      simp [requests]
    rw [List.forM_cons, EStateM.run_bind]
    rcases @run_registration conf world c actions with
      ⟨haccepted, hrun⟩ | ⟨hrefused, e, he, hrun⟩ <;> rw [hrun]
    · rcases run_performs cs (actions ++ [.request (performRequest conf c)]) with
        ⟨hall, hrest⟩ | ⟨e, done, c', rest, rfl, hall, hlast, he, hrest⟩ <;> rw [hcount] at *
      · refine .inl ⟨accepted_succ haccepted hall, ?_⟩
        rw [List.append_assoc] at hrest
        exact hrest
      · refine .inr ⟨e, c :: done, c', rest, rfl, accepted_succ haccepted hall, ?_, ?_, ?_⟩
        · rwa [Nat.add_assoc, Nat.add_comm 1] at hlast
        · rwa [Nat.add_assoc, Nat.add_comm 1] at he
        · rw [List.append_assoc] at hrest
          exact hrest
    · exact .inr ⟨e, [], c, cs, rfl, by simp, hrefused, he, rfl⟩

theorem requests_setup : requests (setup conf) = [] := by
  unfold setup
  rcases conf.scriptBefore with _ | path <;> rfl

theorem run_setup (actions : List Action) :
    (SetsUp conf world ∧ (_runSetupScript world conf).run actions =
        .ok () (actions ++ setup conf)) ∨
      (¬ SetsUp conf world ∧
        ∃ e, (_runSetupScript world conf).run actions = .error e (actions ++ setup conf)) := by
  unfold _runSetupScript SetsUp setup
  rcases conf.scriptBefore with _ | path
  · exact .inl ⟨by simp, by simp [EStateM.run_pure]⟩
  · simp only [run_raisingAs, EStateM.run_bind, run_act, Option.mem_def, Option.some.injEq,
      forall_eq', Option.toList_some, List.map_cons, List.map_nil]
    rcases world.run path with e | ⟨⟩
    · exact .inr ⟨by simp, _, rfl⟩
    · exact .inl ⟨rfl, rfl⟩

/-- The base class calls `_perform` for each challenge in turn, lets exceptions through, and returns
the responses. -/
def RespondsInTurn {ρ : Type} (superPerform : (Challenge → Auth Unit) → List Challenge → Auth ρ)
    (responses : List Challenge → ρ) : Prop :=
  ∀ f challenges, superPerform f challenges = do
    forM challenges f
    return responses challenges

section

variable {ρ : Type} {superPerform : (Challenge → Auth Unit) → List Challenge → Auth ρ}
  {responses : List Challenge → ρ}

/-- `perform` ends with the script, with every challenge accepted, or at the first that is not. -/
theorem perform_cases (hsuper : RespondsInTurn superPerform responses) (conf : AuthConf)
    (world : World) (cs : List Challenge) :
    (SetsUp conf world ∧ (∀ k < cs.length, Accepted world k) ∧
        (perform world conf superPerform cs).run [] =
          .ok (responses cs) (setup conf ++ registrations conf cs)) ∨
      (¬ SetsUp conf world ∧
        ∃ e, (perform world conf superPerform cs).run [] = .error e (setup conf)) ∨
      (SetsUp conf world ∧ ∃ e done c rest, cs = done ++ c :: rest ∧
        (∀ k < done.length, Accepted world k) ∧ ¬ Accepted world done.length ∧
        Reports (world.exchange done.length) e ∧
        (perform world conf superPerform cs).run [] =
          .error e (setup conf ++ registrations conf (done ++ [c]))) := by
  have hcount : ∀ k, (requests (setup conf)).length + k = k := by
    simp [requests_setup]
  unfold perform
  rw [hsuper, EStateM.run_bind]
  rcases @run_setup conf world [] with ⟨hset, hrun⟩ | ⟨hset, e, hrun⟩ <;>
    simp only [hrun, List.nil_append]
  · rw [EStateM.run_bind]
    rcases @run_performs conf world cs (setup conf) with
      ⟨hall, hrest⟩ | ⟨e, done, c, rest, rfl, hall, hlast, he, hrest⟩ <;> simp only [hrest]
    · simp only [hcount] at hall
      exact .inl ⟨hset, hall, rfl⟩
    · rw [hcount] at hlast he
      simp only [hcount] at hall
      exact .inr (.inr ⟨hset, e, done, c, rest, rfl, hall, hlast, he, rfl⟩)
  · exact .inr (.inl ⟨hset, e, rfl⟩)

/-- If the script before fails nothing is asked for, and `perform` fails.  Otherwise the challenges
are asked for in turn: if each is accepted, all of them, and `perform` returns; and else those up to
the first that is not, which ends `perform`, with an error of the plugin unless the plugin does not
catch it. -/
theorem run_perform (hsuper : RespondsInTurn superPerform responses) (conf : AuthConf)
    (world : World) (cs : List Challenge) :
    (¬ SetsUp conf world →
        ∃ e, (perform world conf superPerform cs).run [] = .error e (setup conf)) ∧
      (SetsUp conf world → (∀ k < cs.length, Accepted world k) →
        (perform world conf superPerform cs).run [] =
          .ok (responses cs) (setup conf ++ registrations conf cs)) ∧
      (SetsUp conf world → ∀ done c rest, cs = done ++ c :: rest →
        (∀ k < done.length, Accepted world k) → ¬ Accepted world done.length →
        ∃ e, Reports (world.exchange done.length) e ∧
          (perform world conf superPerform cs).run [] =
            .error e (setup conf ++ registrations conf (done ++ [c]))) := by
  rcases perform_cases hsuper conf world cs with
    ⟨hset, hall, hrun⟩ | ⟨hset, hrun⟩ | ⟨hset, e, done, c, rest, rfl, hbefore, hlast, he, hrun⟩
  · refine ⟨fun h => absurd hset h, fun _ _ => hrun, ?_⟩
    rintro - done c rest rfl - hlast
    exact absurd (hall done.length (by simp)) hlast
  · exact ⟨fun _ => hrun, fun h => absurd h hset, fun h => absurd h hset⟩
  · refine ⟨fun h => absurd hset h, fun _ hall => absurd (hall done.length (by simp)) hlast, ?_⟩
    intro _ done' c' rest' hsplit hbefore' hlast'
    have hlen : done.length = done'.length := by
      rcases Nat.lt_trichotomy done.length done'.length with hlt | heq | hgt
      · exact absurd (hbefore' _ hlt) hlast
      · exact heq
      · exact absurd (hbefore _ hgt) hlast'
    obtain ⟨rfl, hrest⟩ := List.append_inj hsplit hlen
    obtain rfl : c = c' := (List.cons.inj hrest).1
    exact ⟨e, he, hrun⟩

end

end Plugin

/-! ## What reaches the server -/

/-- The number of a status line. -/
def StatusCode.number : StatusCode → ℕ
  | .ok => 200
  | .created => 201
  | .noContent => 204
  | .badRequest => 400
  | .notFound => 404
  | .methodNotAllowed => 405

/-- It is what the status line is written with. -/
theorem StatusCode.repr_number (status : StatusCode) : status.number.repr = status.asStr := by
  cases status <;> rfl

namespace Plugin

variable {conf : AuthConf} {world : World}

/-- The characters that a header's value has as they are: no blanks, and ASCII. -/
def Visible (s : String) : Prop := ∀ c ∈ s.toList, 33 ≤ c.toNat ∧ c.toNat ≤ 126

instance (s : String) : Decidable (Visible s) := List.decidableBAll _ s.toList

/-- What the server parses is the request that the plugin has made. -/
structure Carries (r : HttpRequest) (req : Request) : Prop where
  method : req.method = some r.method
  path : req.path = some r.url
  header : ∀ header ∈ r.headers, Visible header.2 → req.header header.1 = some (utf8 header.2)

/-- The name and the value of a challenge go into headers. -/
def Sendable (c : Challenge) : Prop := Visible c.name ∧ Visible c.value

/-- The challenge as the server stores it. -/
def trimmed (c : Challenge) : Challenge where
  domain := trimEndMatches '.' c.domain
  name := trimEndMatches '.' c.name
  value := c.value

theorem names_of_carries {r : HttpRequest} {req : Request} {c : Challenge} (h : Carries r req)
    (hc : Sendable c) (hurl : r.url = "/register/" ++ c.domain)
    (hheaders : r.headers = [("X-ACME-Challenge-Name", c.name),
      ("X-ACME-Challenge-Value", c.value)]) : req.Names (trimmed c) where
  domain := ⟨c.domain, hurl ▸ h.path, rfl⟩
  name := ⟨c.name, h.header ("X-ACME-Challenge-Name", c.name) (by simp [hheaders]) hc.1, rfl⟩
  value := h.header ("X-ACME-Challenge-Value", c.value) (by simp [hheaders]) hc.2

theorem performs_performRequest {req : Request} {c : Challenge}
    (h : Carries (performRequest conf c) req) (hc : Sendable c) :
    req.Performs (.set (trimmed c)) := ⟨h.method, names_of_carries h hc rfl rfl⟩

theorem performs_cleanupRequest {conf : Conf} {req : Request} {c : Challenge}
    (h : Carries (cleanupRequest conf c) req) (hc : Sendable c) :
    req.Performs (.cleanup (trimmed c)) := ⟨h.method, names_of_carries h hc rfl rfl⟩

section

variable {π : Type} (parse : List UInt8 → Except π (Status × Request))

/-- The server writes the status on the connection, with some store. -/
def Writes (stream : Stream IoError) (status : ℕ) : Prop :=
  ∃ (store : Challenges) (served : Served IoError (HttpError IoError π) Unit) (code : StatusCode),
    handleHttp parse stream bufLen store = .ok served ∧
    served.stream.written = stream.written ++ [responseText code] ∧ code.number = status

variable (world) in
/-- The work is a connection that brings nothing but the request, be it whole or not, and when the
exchange comes to a status it is the one that the server writes on this connection. -/
def Reaches (k : ℕ) (r : HttpRequest) (item : Token × Work) : Prop :=
  ∃ stream, item.2 = .connection stream ∧
    (∀ req, Receives parse stream bufLen req → Carries r req) ∧
    ∀ status, world.exchange k = .ok status → Writes parse stream status

variable (world) in
/-- The work that requests come to, in the order of the requests, when so many have been made
before.  A request whose exchange comes to no status may never have reached the server. -/
inductive Reached : ℕ → List HttpRequest → List (Token × Work) → Prop
  | nil (k : ℕ) : Reached k [] []
  | arrived {k : ℕ} {r : HttpRequest} {rs : List HttpRequest} {item : Token × Work}
      {items : List (Token × Work)} (h : Reaches world parse k r item)
      (rest : Reached (k + 1) rs items) : Reached k (r :: rs) (item :: items)
  | lost {k : ℕ} {r : HttpRequest} {rs : List HttpRequest} {items : List (Token × Work)}
      (h : ∀ status, world.exchange k ≠ .ok status) (rest : Reached (k + 1) rs items) :
      Reached k (r :: rs) items

variable {parse}

theorem writes_of_leaves {stream : Stream IoError} {store challenges : Challenges}
    {served : Served IoError (HttpError IoError π) Unit} {code : StatusCode}
    (h : handleHttp parse stream bufLen store = .ok served)
    (hleaves : Leaves served stream [code] challenges) : Writes parse stream code.number :=
  ⟨store, served, code, h, hleaves.written, rfl⟩

/-- What the server does not receive whole it answers with 400, if at all. -/
theorem status_of_not_receives {stream : Stream IoError} {status : ℕ}
    (h : ¬ ∃ req, Receives parse stream bufLen req) (hwrites : Writes parse stream status) :
    status = 400 := by
  obtain ⟨store, served, code, hserved, hwritten, rfl⟩ := hwrites
  obtain ⟨served', answers, hserved', hleaves, hanswers⟩ := handleHttp_of_not_receives h store
  obtain rfl : served = served' := by simpa [hserved] using hserved'
  have htexts := hleaves.written
  rw [hwritten, List.append_cancel_left_eq] at htexts
  rcases hanswers with rfl | rfl
  · cases htexts
  · rw [responseText_inj (List.cons.inj htexts).1]
    rfl

/-- A request that comes whole, in the first read, reaches the server, unless its exchange comes to
a status that the server does not answer. -/
theorem reaches_of_receives {k : ℕ} {r : HttpRequest} {op : StoreOp} {item : Token × Work}
    {stream : Stream IoError} {req : Request} (hitem : item.2 = .connection stream)
    (hreceives : Receives parse stream bufLen req) (hcarries : Carries r req)
    (hop : req.Performs op)
    (hk : ∀ status, world.exchange k = .ok status → op.status.number = status) :
    Reaches world parse k r item := by
  refine ⟨stream, hitem, fun req' hreq' => hreceives.unique hreq' ▸ hcarries, ?_⟩
  intro status hstatus
  obtain ⟨served, hserved, hleaves⟩ := handleHttp_of_performs hreceives hop Challenges.new
  obtain rfl := hk status hstatus
  exact writes_of_leaves hserved hleaves

/-- A request that reaches the server is performed there, unless it is answered with 400 or not at
all. -/
theorem op_of_reaches {k : ℕ} {r : HttpRequest} {op : StoreOp} {item : Token × Work}
    (h : Reaches world parse k r item) (hop : ∀ req, Carries r req → req.Performs op) :
    item.2.op parse = some op ∨
      (item.2.op parse = none ∧ ∀ status, world.exchange k = .ok status → status = 400) := by
  obtain ⟨stream, hitem, hbrings, hwrites⟩ := h
  rw [hitem]
  by_cases hreq : ∃ req, Receives parse stream bufLen req
  · obtain ⟨req, hreq⟩ := hreq
    left
    rw [Work.op_of_receives hreq, Request.op_of_performs (hop req (hbrings req hreq))]
  · exact .inr ⟨Work.op_of_not_receives hreq, fun status hstatus =>
      status_of_not_receives hreq (hwrites status hstatus)⟩

theorem reached_append {rs' : List HttpRequest} : ∀ {rs : List HttpRequest} {k : ℕ}
    {mine : List (Token × Work)}, Reached world parse k (rs ++ rs') mine →
    ∃ before after, mine = before ++ after ∧ Reached world parse k rs before ∧
      Reached world parse (k + rs.length) rs' after
  | [], k, mine, h => ⟨[], mine, rfl, .nil k, h⟩
  | r :: rs, k, mine, h => by
    have hlen : k + (r :: rs).length = k + 1 + rs.length := by
      rw [List.length_cons]
      omega
    rw [hlen]
    cases h with
    | arrived hr hrest =>
      obtain ⟨before, after, rfl, hbefore, hafter⟩ := reached_append hrest
      exact ⟨_ :: before, after, rfl, .arrived hr hbefore, hafter⟩
    | lost hr hrest =>
      obtain ⟨before, after, rfl, hbefore, hafter⟩ := reached_append hrest
      exact ⟨before, after, rfl, .lost hr hbefore, hafter⟩

theorem ops_cons (item : Token × Work) (items : List (Token × Work)) :
    Responder.ops parse (item :: items) =
      (item.2.op parse).toList ++ Responder.ops parse items := by
  unfold Responder.ops
  rw [List.filterMap_cons]
  rcases item.2.op parse with _ | op <;> rfl

/-- The operations of the work are those of some of the requests, in order, and of all of them when
each exchange comes to a status that is not 400. -/
theorem ops_of_reached {f : Challenge → HttpRequest} {g : Challenge → StoreOp} :
    ∀ {cs : List Challenge} {k : ℕ} {mine : List (Token × Work)},
      (∀ c ∈ cs, ∀ req, Carries (f c) req → req.Performs (g c)) →
      Reached world parse k (cs.map f) mine →
      ∃ sub : List Challenge, sub.Sublist cs ∧ Responder.ops parse mine = sub.map g ∧
        ((∀ j < cs.length, ∃ status, world.exchange (k + j) = .ok status ∧ status ≠ 400) →
          sub = cs)
  | [], _, _, _, h => by
    cases h
    exact ⟨[], .slnil, rfl, fun _ => rfl⟩
  | c :: cs, k, mine, hperforms, h => by
    have hcs : ∀ d ∈ cs, ∀ req, Carries (f d) req → req.Performs (g d) := fun d hd =>
      hperforms d (by simp [hd])
    cases h with
    | arrived hr hrest =>
      obtain ⟨sub, hsub, hops, hall⟩ := ops_of_reached hcs hrest
      rcases op_of_reaches hr (hperforms c (by simp)) with hop | ⟨hop, hstatus⟩
      · refine ⟨c :: sub, hsub.cons_cons c, ?_, fun hanswered => ?_⟩
        · rw [ops_cons, hop, hops]
          rfl
        · rw [hall fun j hj => ?_]
          obtain ⟨status, hstatus⟩ := hanswered (j + 1) (by simpa using hj)
          exact ⟨status, by rwa [Nat.add_assoc, Nat.add_comm 1 j]⟩
      · refine ⟨sub, hsub.cons c, ?_, fun hanswered => ?_⟩
        · rw [ops_cons, hop, hops]
          rfl
        · obtain ⟨status, hk, hne⟩ := hanswered 0 (by simp)
          exact absurd (hstatus status hk) hne
    | lost hr hrest =>
      obtain ⟨sub, hsub, hops, -⟩ := ops_of_reached hcs hrest
      refine ⟨sub, hsub.cons c, hops, fun hanswered => ?_⟩
      obtain ⟨status, hstatus, -⟩ := hanswered 0 (by simp)
      exact absurd hstatus (hr status)

end

/-! ## What the session asks for -/

theorem requests_performed (actions : List Action) :
    requests (performed actions) = requests actions := by
  unfold requests performed
  rw [List.filterMap_filter]
  refine List.filterMap_congr fun action _ => ?_
  cases action <;> rfl

theorem requests_of_performed {conf : Conf} {actions actions' : List Action}
    {cs : List Challenge} (h : performed actions' = performed actions ++ deletions conf cs) :
    requests actions' = requests actions ++ cs.map (cleanupRequest conf) := by
  rw [← requests_performed, h, requests_append, requests_performed, deletions, requests_map]

theorem left_eq_actionsOf {α : Type} (result : EStateM.Result Raised (List Action) α) :
    left result = actionsOf result := by
  cases result <;> rfl

/-- A cleanup whose exchanges all come to a status asks for every deletion. -/
theorem requests_cleanup {conf : Conf}
    {superCleanup : (Challenge → Py Unit) → List Challenge → Py Unit}
    (hsuper : CallsInTurn superCleanup) {cs : List Challenge} {actions : List Action}
    (hanswered : ∀ k < cs.length, ∃ status,
      world.exchange ((requests actions).length + k) = .ok status) :
    requests (left ((cleanup conf world superCleanup cs).run actions)) =
      requests actions ++ cs.map (cleanupRequest conf) := by
  unfold cleanup
  rw [hsuper, EStateM.run_bind, left_eq_actionsOf]
  rcases @run_cleanups conf world cs actions with
    ⟨actions', hrun, hdone, -⟩ | ⟨e, actions', done, c, rest, -, rfl, -, -, hlast⟩
  · have hteardown := @run_teardown conf world actions'
    rw [hdone] at hteardown
    have hrequests := congrArg requests hteardown
    have hscript : requests (conf.scriptAfter.toList.map .run) = [] := by
      rcases conf.scriptAfter with _ | path <;> rfl
    rw [← requests_of_performed hdone, ← requests_performed actions', hdone]
    simpa only [hrun, requests_performed, requests_append, hscript, List.append_nil]
      using hrequests
  · obtain ⟨status, hstatus⟩ := hanswered done.length (by simp)
    rw [hstatus] at hlast
    exact absurd trivial hlast

end Plugin

/-! ## What the session leaves in the store -/

namespace Challenges

theorem sets_map_set (cs : List Challenge) : sets (cs.map .set) = cs := by
  induction cs with
  | nil => rfl
  | cons c cs ih => exact congrArg (c :: ·) ih

theorem run_map_set {cs : List Challenge} (hlen : cs.length ≤ maxLen) :
    (run (cs.map .set)).list = cs := by
  induction cs using List.reverseRecOn with
  | nil => rfl
  | append_singleton cs c ih =>
    rw [List.length_append, List.length_singleton] at hlen
    have hcs := ih (by omega)
    have hset := (list_set_run (cs.map .set) c).1 (by rw [hcs]; omega)
    rw [List.map_append, List.map_singleton, run_concat]
    rw [hcs] at hset
    exact hset

theorem list_cleanups : ∀ (cs : List Challenge) (store : Challenges),
    ((cs.map .cleanup).foldl apply store).list = store.list.filter (· ∉ cs)
  | [], store => by simp
  | c :: cs, store => by
    rw [List.map_cons, List.foldl_cons, list_cleanups cs]
    simp only [apply, cleanup, List.filter_filter]
    refine List.filter_congr fun d _ => ?_
    by_cases hd : d = c <;> simp [hd]

/-- Whatever has been registered of some challenges, once all of them are cleaned up none is
left. -/
theorem run_sets_cleanups {sub cs : List Challenge} (h : sub ⊆ cs) :
    (run (sub.map .set ++ cs.map .cleanup)).list = [] := by
  have hrun : run (sub.map .set ++ cs.map .cleanup) =
      (cs.map .cleanup).foldl apply (run (sub.map .set)) := List.foldl_append
  rw [hrun, list_cleanups]
  refine List.filter_eq_nil_iff.2 fun c hc => ?_
  have hsub := (run_sublist_sets (sub.map .set)).subset hc
  rw [sets_map_set] at hsub
  simp [h hsub]

/-- A client that leaves nothing behind leaves no trace. -/
theorem run_eq_of_interleaving {as bs cs : List StoreOp} (h : Fifo.Interleaving as bs cs)
    (hdiff : ∀ a ∈ as, ∀ b ∈ bs, a.challenge ≠ b.challenge) (hlen : (sets cs).length ≤ maxLen)
    (hnone : (run as).list = []) : run cs = run bs := by
  have hleft := filter_run_of_interleaving h hdiff hlen
  have hright := filter_run_of_interleaving h.symm (fun b hb a ha => (hdiff a ha b hb).symm) hlen
  have hall : (run cs).list.filter (· ∈ challengesOf bs) = (run cs).list := by
    refine List.filter_eq_self.2 fun c hc => ?_
    obtain ⟨pre, post, hsplit, -⟩ := exists_set_of_mem_run hc
    have hset : StoreOp.set c ∈ cs := by simp [hsplit]
    rcases h.mem_or _ hset with ha | hb
    · have hmem : c ∈ (run cs).list.filter (· ∈ challengesOf as) :=
        List.mem_filter.2 ⟨hc, decide_eq_true (mem_challengesOf ha)⟩
      rw [hleft, hnone] at hmem
      exact absurd hmem List.not_mem_nil
    · exact decide_eq_true (mem_challengesOf hb)
  rw [hall] at hright
  exact congrArg Challenges.mk hright

end Challenges

namespace Plugin

section

variable {conf : AuthConf} {world : World} {π ρ : Type}
  {parse : List UInt8 → Except π (Status × Request)} {serverIps : ServerIps}
  {superPerform : (Challenge → Auth Unit) → List Challenge → Auth ρ}
  {superCleanup : (Challenge → Py Unit) → List Challenge → Py Unit}
  {responses : List Challenge → ρ} {cs : List Challenge}
  {mine others items : List (Token × Work)}

/-- What has been done when `perform` has ended, however it has. -/
def authenticated (conf : AuthConf) (world : World)
    (superPerform : (Challenge → Auth Unit) → List Challenge → Auth ρ) (cs : List Challenge) :
    List Action := left ((perform world conf superPerform cs).run [])

/-- What has been done when the cleanup behind it has ended. -/
def session (conf : AuthConf) (world : World)
    (superPerform : (Challenge → Auth Unit) → List Challenge → Auth ρ)
    (superCleanup : (Challenge → Py Unit) → List Challenge → Py Unit) (cs : List Challenge) :
    List Action :=
  left ((cleanup conf.toConf world superCleanup cs).run (authenticated conf world superPerform cs))

/-- However `perform` ends, it has asked for the first challenges. -/
theorem requests_authenticated (hsuper : RespondsInTurn superPerform responses) :
    ∃ done : List Challenge, done.Sublist cs ∧
      requests (authenticated conf world superPerform cs) = done.map (performRequest conf) := by
  unfold authenticated
  rcases perform_cases hsuper conf world cs with
    ⟨-, -, hrun⟩ | ⟨-, e, hrun⟩ | ⟨-, e, done, c, rest, rfl, -, -, -, hrun⟩ <;> rw [hrun]
  · refine ⟨cs, .refl cs, ?_⟩
    simp only [left, requests_registrations, requests_setup, List.nil_append]
  · exact ⟨[], List.nil_sublist cs, requests_setup⟩
  · refine ⟨done ++ [c], (List.Sublist.refl done).append (by simp), ?_⟩
    simp only [left, requests_registrations, requests_setup, List.nil_append]

theorem ops_of_interleaving (h : Fifo.Interleaving mine others items) :
    Fifo.Interleaving (Responder.ops parse mine) (Responder.ops parse others)
      (Responder.ops parse items) := h.filterMap _

theorem mem_challengesOf_set {ds : List Challenge} {d : Challenge} :
    d ∈ Challenges.challengesOf (ds.map .set) ↔ d ∈ ds := by
  simp [Challenges.challengesOf, StoreOp.challenge]

/-- When `perform` has returned it has been told of every challenge that it is in the store. -/
theorem accepted_of_perform (hsuper : RespondsInTurn superPerform responses) {actions : List Action}
    {result : ρ} (hrun : (perform world conf superPerform cs).run [] = .ok result actions) :
    (∀ k < cs.length, Accepted world k) ∧ requests actions = cs.map (performRequest conf) := by
  rcases perform_cases hsuper conf world cs with
    ⟨-, hall, h⟩ | ⟨-, e, h⟩ | ⟨-, e, done, c, rest, -, -, -, -, h⟩ <;> rw [h] at hrun
  · obtain ⟨-, rfl⟩ := EStateM.Result.ok.inj hrun
    rw [requests_registrations, requests_setup]
    exact ⟨hall, rfl⟩
  · cases hrun
  · cases hrun

/-- Its work is then to register the challenges, and they keep their order in the store. -/
theorem filter_run_of_perform (hsuper : RespondsInTurn superPerform responses)
    (hsend : ∀ c ∈ cs, Sendable c) {actions : List Action} {result : ρ}
    (hrun : (perform world conf superPerform cs).run [] = .ok result actions)
    (hreached : Reached world parse 0 (requests actions) mine)
    (hinter : Fifo.Interleaving mine others items)
    (hothers : ∀ op ∈ Responder.ops parse others, op.challenge ∉ cs.map trimmed)
    (hroom : (Challenges.sets (Responder.ops parse items)).length ≤ Challenges.maxLen) :
    (Challenges.run (Responder.ops parse items)).list.filter (· ∈ cs.map trimmed) =
      cs.map trimmed := by
  obtain ⟨hall, hasked⟩ := accepted_of_perform hsuper hrun
  rw [hasked] at hreached
  obtain ⟨sub, -, hops, hsub⟩ := ops_of_reached
    (fun c hc req hcarries => performs_performRequest hcarries (hsend c hc)) hreached
  rw [hsub fun j hj => ⟨201, by rw [Nat.zero_add]; exact hall j hj, by decide⟩] at hops
  have hinter := @ops_of_interleaving π parse _ _ _ hinter
  have hmine : Responder.ops parse mine = (cs.map trimmed).map .set := by
    rw [hops, List.map_map]
    rfl
  rw [hmine] at hinter
  have hdiff : ∀ a ∈ (cs.map trimmed).map StoreOp.set, ∀ b ∈ Responder.ops parse others,
      a.challenge ≠ b.challenge := by
    intro a ha b hb heq
    obtain ⟨d, hd, rfl⟩ := List.mem_map.1 ha
    exact hothers b hb (heq ▸ hd)
  have hlist := Challenges.filter_run_of_interleaving hinter hdiff hroom
  rw [Challenges.run_map_set] at hlist
  · simpa only [mem_challengesOf_set] using hlist
  · have hsets : Fifo.Interleaving (Challenges.sets ((cs.map trimmed).map .set))
        (Challenges.sets (Responder.ops parse others))
        (Challenges.sets (Responder.ops parse items)) := hinter.filterMap _
    rw [Challenges.sets_map_set] at hsets
    exact Nat.le_trans hsets.sublist.length_le hroom

theorem trimmed_mem {stored : List Challenge}
    (hfilter : stored.filter (· ∈ cs.map trimmed) = cs.map trimmed) {c : Challenge} (hc : c ∈ cs) :
    trimmed c ∈ stored := by
  have hmem : trimmed c ∈ stored.filter (· ∈ cs.map trimmed) := by
    rw [hfilter]
    exact List.mem_map_of_mem hc
  exact List.mem_of_mem_filter hmem

/-- When `perform` has returned, the challenges, their names and values of visible ASCII, are in the
store in the order in which they were given, whatever the server has done besides for others, if it
had room; so for every name that is asked for their values are there.  That the requests came whole
in the first read need not be assumed: the server has written 201 for each. -/
theorem session_registers (hsuper : RespondsInTurn superPerform responses)
    (hsend : ∀ c ∈ cs, Sendable c) {actions : List Action} {result : ρ}
    (hrun : (perform world conf superPerform cs).run [] = .ok result actions)
    (hreached : Reached world parse 0 (requests actions) mine)
    (hinter : Fifo.Interleaving mine others items)
    (hothers : ∀ op ∈ Responder.ops parse others, op.challenge ∉ cs.map trimmed)
    (hroom : (Challenges.sets (Responder.ops parse items)).length ≤ Challenges.maxLen) :
    (Responder.after parse serverIps items).challenges.list.filter (· ∈ cs.map trimmed) =
        cs.map trimmed ∧
      ∀ c ∈ cs, ∀ name, (trimmed c).matches name →
        c.value ∈ (Responder.after parse serverIps items).challenges.named name := by
  have hfilter := filter_run_of_perform hsuper hsend hrun hreached hinter hothers hroom
  rw [Responder.challenges_after]
  refine ⟨hfilter, fun c hc name hname => ?_⟩
  exact List.mem_map.2 ⟨trimmed c, List.mem_filter.2 ⟨trimmed_mem hfilter hc, hname⟩, rfl⟩

/-- So a datagram that asks for the TXT records of a name, from an address that is answered, is
answered with a packet in which the value of each challenge for the name can be read, if it has at
most 255 bytes. -/
theorem session_is_answered (hparse : Slices parse)
    (hsuper : RespondsInTurn superPerform responses) (hsend : ∀ c ∈ cs, Sendable c)
    {actions : List Action} {result : ρ}
    (hrun : (perform world conf superPerform cs).run [] = .ok result actions)
    (hreached : Reached world parse 0 (requests actions) mine)
    (hinter : Fifo.Interleaving mine others items)
    (hothers : ∀ op ∈ Responder.ops parse others, op.challenge ∉ cs.map trimmed)
    (hroom : (Challenges.sets (Responder.ops parse items)).length ≤ Challenges.maxLen)
    {q : StandardMessage} {d : Datagram} (hq : d.message = q.toBytes)
    (htxt : q.queryType = ValidQueryType.txt.toU16)
    (hacme : Query.startsAcmeChallenge q.name.labels) (hvalid : validReturnAddress d.srcAddr)
    (hpasses : ((Responder.after parse serverIps items).rateLimiter.increment d.srcAddr.ip
      d.now).1 = .ok) (token : Token) :
    ∃ bytes M, ((Responder.after parse serverIps items).step parse serverIps
        (token, .datagram d)).1 = .ok (some (bytes, d.srcAddr)) ∧
      decode bytes = some M ∧ M.id = q.id ∧
      ∀ c ∈ cs, (utf8 c.value).length ≤ 255 →
        eqIgnoreAsciiCase (utf8 (trimmed c).name) (dotted q.name.labels) →
        ∃ data, zoneRecord q.name data ∈ M.answers ∧ data.strings = some [utf8 c.value] := by
  have hfilter := filter_run_of_perform hsuper hsend hrun hreached hinter hothers hroom
  obtain ⟨bytes, M, hresponse, hM, hid, hanswers⟩ :=
    @exists_txt_answer _ _ serverIps hparse items q htxt hacme
  refine ⟨bytes, M, Responder.step_eq_some_iff.2 ⟨d, rfl, hvalid, hpasses, ?_, rfl⟩, hM, hid,
    fun c hc hvalue hname => hanswers (trimmed c) (trimmed_mem hfilter hc) hvalue hname⟩
  rw [hq, Responder.challenges_after]
  exact hresponse

/-- Once every deletion has come to the status 204 the store is what it would be if the session had
not been, however `perform` ended, and whichever of its requests were lost, came in pieces or were
refused. -/
theorem session_restores (hsuper : RespondsInTurn superPerform responses)
    (hsuper' : CallsInTurn superCleanup) (hsend : ∀ c ∈ cs, Sendable c)
    (hdeleted : ∀ k < cs.length,
      world.exchange ((requests (authenticated conf world superPerform cs)).length + k) = .ok 204)
    (hreached : Reached world parse 0
      (requests (session conf world superPerform superCleanup cs)) mine)
    (hinter : Fifo.Interleaving mine others items)
    (hothers : ∀ op ∈ Responder.ops parse others, op.challenge ∉ cs.map trimmed)
    (hroom : (Challenges.sets (Responder.ops parse items)).length ≤ Challenges.maxLen) :
    (Responder.after parse serverIps items).challenges =
      (Responder.after parse serverIps others).challenges := by
  obtain ⟨done, hdone, hasked⟩ := @requests_authenticated conf world ρ superPerform responses cs
    hsuper
  have hsession : requests (session conf world superPerform superCleanup cs) =
      done.map (performRequest conf) ++ cs.map (cleanupRequest conf.toConf) := by
    rw [← hasked]
    exact requests_cleanup hsuper' fun k hk => ⟨204, hdeleted k hk⟩
  rw [hsession] at hreached
  obtain ⟨before, after, rfl, hbefore, hafter⟩ := reached_append hreached
  obtain ⟨sub, hsub, hsets, -⟩ := ops_of_reached
    (fun c hc req hcarries => performs_performRequest hcarries (hsend c (hdone.subset hc))) hbefore
  obtain ⟨sub', -, hcleanups, hall⟩ := ops_of_reached
    (fun c hc req hcarries => performs_cleanupRequest hcarries (hsend c hc)) hafter
  have hlen : (done.map (performRequest conf)).length =
      (requests (authenticated conf world superPerform cs)).length := by rw [hasked]
  rw [Nat.zero_add, hlen] at hall
  rw [hall fun k hk => ⟨204, hdeleted k hk, by decide⟩] at hcleanups
  have hmine : Responder.ops parse (before ++ after) =
      (sub.map trimmed).map .set ++ (cs.map trimmed).map .cleanup := by
    rw [List.map_map, List.map_map]
    exact List.filterMap_append.trans (congrArg₂ (· ++ ·) hsets hcleanups)
  have hinter := @ops_of_interleaving π parse _ _ _ hinter
  rw [hmine] at hinter
  have hsubset : sub.map trimmed ⊆ cs.map trimmed := List.map_subset _ (hsub.trans hdone).subset
  have hdiff : ∀ a ∈ (sub.map trimmed).map StoreOp.set ++ (cs.map trimmed).map StoreOp.cleanup,
      ∀ b ∈ Responder.ops parse others, a.challenge ≠ b.challenge := by
    intro a ha b hb heq
    refine hothers b hb (heq ▸ ?_)
    rcases List.mem_append.1 ha with ha | ha <;> obtain ⟨d, hd, rfl⟩ := List.mem_map.1 ha
    · exact hsubset hd
    · exact hd
  rw [Responder.challenges_after, Responder.challenges_after]
  exact Challenges.run_eq_of_interleaving hinter hdiff hroom (Challenges.run_sets_cleanups hsubset)

end

end Plugin

/-! ## What the server answers -/

namespace Plugin

section

variable {conf : AuthConf} {world : World} {π ρ : Type}
  (parse : List UInt8 → Except π (Status × Request))
  {superPerform : (Challenge → Auth Unit) → List Challenge → Auth ρ}
  {superCleanup : (Challenge → Py Unit) → List Challenge → Py Unit}
  {responses : List Challenge → ρ} {cs : List Challenge}

variable (world) in
/-- The exchange comes to the status that the server writes on a connection that brings the
request, whatever its store is then. -/
def Answered (k : ℕ) (r : HttpRequest) : Prop :=
  ∃ (stream : Stream IoError) (req : Request) (store : Challenges)
    (served : Served IoError (HttpError IoError π) Unit) (status : StatusCode),
    Receives parse stream bufLen req ∧ Carries r req ∧
    handleHttp parse stream bufLen store = .ok served ∧
    served.stream.written = stream.written ++ [responseText status] ∧
    world.exchange k = .ok status.number

variable {parse}

theorem exchange_of_answered {k : ℕ} {r : HttpRequest} {op : StoreOp}
    (h : Answered world parse k r) (hop : ∀ req, Carries r req → req.Performs op) :
    world.exchange k = .ok op.status.number := by
  obtain ⟨stream, req, store, served, status, hreceives, hcarries, hserved, hwritten, hk⟩ := h
  obtain ⟨served', hserved', hleaves⟩ := handleHttp_of_performs hreceives (hop req hcarries) store
  rw [hserved] at hserved'
  have hwritten' := hleaves.written
  rw [← Except.ok.inj hserved', hwritten, List.append_cancel_left_eq] at hwritten'
  rw [hk, responseText_inj (List.cons.inj hwritten').1]

/-- A deletion that is answered as it is meant to be is not warned of. -/
theorem run_deletion {conf : Conf} {c : Challenge} {actions : List Action}
    (h : world.exchange (requests actions).length = .ok 204) :
    (_cleanup conf world c).run actions =
      .ok () (actions ++ [.request (cleanupRequest conf c)]) := by
  unfold _cleanup
  simp only [EStateM.run_bind, run_try, run_exchange, h, EStateM.run_pure]
  rfl

theorem run_deletions {conf : Conf} : ∀ (cs : List Challenge) (actions : List Action),
    (∀ k < cs.length, world.exchange ((requests actions).length + k) = .ok 204) →
    (forM cs (_cleanup conf world)).run actions = .ok () (actions ++ deletions conf cs)
  | [], actions, _ => by simp [deletions]
  | c :: cs, actions, h => by
    have hcount : (requests (actions ++ [.request (cleanupRequest conf c)])).length =
        (requests actions).length + 1 := by
      simp [requests]
    have hrest := @run_deletions conf cs (actions ++ [.request (cleanupRequest conf c)])
      fun k hk => by
        rw [hcount, Nat.add_assoc, Nat.add_comm 1]
        exact h (k + 1) (by simpa using hk)
    rw [List.forM_cons, EStateM.run_bind, run_deletion (h 0 (by simp))]
    rw [List.append_assoc] at hrest
    exact hrest

theorem run_teardown_ok {conf : Conf} (h : ∀ path ∈ conf.scriptAfter, world.run path = .ok ())
    (actions : List Action) : (_runTeardownScript conf world).run actions =
      .ok () (actions ++ conf.scriptAfter.toList.map .run) := by
  unfold _runTeardownScript
  rcases hscript : conf.scriptAfter with _ | path
  · simp [EStateM.run_pure]
  · simp only [run_try, EStateM.run_bind, run_act, h path hscript]
    rfl

/-- When the scripts end well, each request comes whole in the first read of a connection and its
exchange comes to what the server answers there, `perform` returns and the cleanup behind it warns
of nothing: for names and values of visible ASCII the two halves of the API agree on its
statuses. -/
theorem session_agrees (hsuper : RespondsInTurn superPerform responses)
    (hsuper' : CallsInTurn superCleanup) (hsend : ∀ c ∈ cs, Sendable c)
    (hbefore : SetsUp conf world) (hafter : ∀ path ∈ conf.scriptAfter, world.run path = .ok ())
    (hregistered : ∀ k c, cs[k]? = some c → Answered world parse k (performRequest conf c))
    (hdeleted : ∀ k c, cs[k]? = some c →
      Answered world parse (cs.length + k) (cleanupRequest conf.toConf c)) :
    (perform world conf superPerform cs).run [] =
        .ok (responses cs) (setup conf ++ registrations conf cs) ∧
      (cleanup conf.toConf world superCleanup cs).run (setup conf ++ registrations conf cs) =
        .ok () (setup conf ++ registrations conf cs ++ deletions conf.toConf cs ++
          conf.scriptAfter.toList.map .run) := by
  have hget : ∀ k < cs.length, ∃ c ∈ cs, cs[k]? = some c := fun k hk =>
    ⟨cs[k], List.getElem_mem hk, List.getElem?_eq_getElem hk⟩
  constructor
  · have hall : ∀ k < cs.length, Accepted world k := by
      intro k hk
      obtain ⟨c, hc, hkc⟩ := hget k hk
      have hperforms : ∀ req, Carries (performRequest conf c) req →
          req.Performs (.set (trimmed c)) := fun req hcarries =>
        performs_performRequest hcarries (hsend c hc)
      exact exchange_of_answered (hregistered k c hkc) hperforms
    rcases perform_cases hsuper conf world cs with
      ⟨-, -, hrun⟩ | ⟨hset, -⟩ | ⟨-, e, done, c, rest, rfl, -, hlast, -⟩
    · exact hrun
    · exact absurd hbefore hset
    · exact absurd (hall done.length (by simp)) hlast
  · have hcount : (requests (setup conf ++ registrations conf cs)).length = cs.length := by
      rw [requests_registrations, requests_setup, List.nil_append, List.length_map]
    unfold cleanup
    rw [hsuper', EStateM.run_bind, run_deletions cs]
    · exact run_teardown_ok hafter _
    · intro k hk
      obtain ⟨c, hc, hkc⟩ := hget k hk
      have hperforms : ∀ req, Carries (cleanupRequest conf.toConf c) req →
          req.Performs (.cleanup (trimmed c)) := fun req hcarries =>
        performs_cleanupRequest hcarries (hsend c hc)
      rw [hcount]
      exact exchange_of_answered (hdeleted k c hkc) hperforms

end

section Wildcard

def certbotConf : AuthConf := { teardownConf with scriptBefore := some "setup.sh" }

/-- A server that does what the session of two challenges asks for. -/
def obliging : World where
  exchange k := .ok (if k < 2 then 201 else 204)
  run _ := .ok ()

/-- A server that refuses the second registration. -/
def refusing : World where
  exchange
    | 0 => .ok 201
    | 1 => .ok 400
    | _ => .ok 204
  run _ := .ok ()

/-- A network that loses the second registration. -/
def lossy : World where
  exchange
    | 0 => .ok 201
    | 1 => .error (.timeoutError "timed out")
    | _ => .ok 204
  run _ := .ok ()

def asSent (r : HttpRequest) : Request where
  method := some r.method
  path := some r.url
  headers := r.headers.map fun header => ⟨header.1, utf8 header.2⟩

def wildcardRequests : List HttpRequest :=
  wildcardChallenges.map (performRequest certbotConf) ++
    wildcardChallenges.map (cleanupRequest certbotConf.toConf)

/-- The parser knows another client's request too. -/
def parseWildcard : List UInt8 → Except Unit (Status × Request) :=
  parseAmong (postRequest :: wildcardRequests.map asSent)

def arrival (req : Request) : Token × Work := (.tcpListener, .connection (client req).stream)

theorem receives_wildcard : ∀ r ∈ wildcardRequests,
    Receives parseWildcard (client (asSent r)).stream bufLen (asSent r) ∧ Carries r (asSent r) := by
  have hparse : ∀ r ∈ wildcardRequests, (asSent r).head.length ≤ bufLen ∧
      parseWildcard (asSent r).head = .ok (.complete (asSent r).head.length, asSent r) := by
    decide +kernel
  have hheader : ∀ r ∈ wildcardRequests, ∀ header ∈ r.headers,
      (asSent r).header header.1 = some (utf8 header.2) := by
    decide +kernel
  intro r hr
  obtain ⟨hlen, hcomplete⟩ := hparse r hr
  refine ⟨⟨_, _, ?_, hcomplete⟩, rfl, rfl, fun header hmem _ => hheader r hr header hmem⟩
  simp only [Stream.read, client, if_pos hlen]

theorem sendable_wildcard : ∀ c ∈ wildcardChallenges, Sendable c := by
  unfold Sendable
  decide +kernel

/-- What the base class does, with no response to the challenges. -/
def superPerform (f : Challenge → Auth Unit) (cs : List Challenge) : Auth Unit := do
  forM cs f
  return ()

theorem responds_superPerform : RespondsInTurn superPerform fun _ => () := fun _ _ => rfl

def superCleanup (f : Challenge → Py Unit) (cs : List Challenge) : Py Unit := forM cs f

/-- The timeout is let through. -/
theorem run_perform_lossy : ∃ e, (∀ text, e ≠ .pluginError text) ∧
    (perform lossy certbotConf superPerform wildcardChallenges).run [] =
      .error e (setup certbotConf ++ registrations certbotConf wildcardChallenges) := by
  have hrefused : ¬ Accepted lossy 1 := by simp [Accepted, lossy]
  have hfirst : ∀ k < 1, Accepted lossy k := by
    intro k hk
    obtain rfl : k = 0 := by omega
    rfl
  obtain ⟨e, he, hrun⟩ := (run_perform responds_superPerform certbotConf lossy
    wildcardChallenges).2.2 (fun _ _ => rfl) [⟨"d", "_acme-challenge.d", "1"⟩] _ [] rfl hfirst
      hrefused
  exact ⟨e, fun text h => he.2 ⟨text, h⟩, hrun⟩

theorem perform_wildcard : (perform obliging certbotConf superPerform wildcardChallenges).run [] =
    .ok () (setup certbotConf ++ registrations certbotConf wildcardChallenges) := rfl

theorem reaches_wildcard {world : World} {k : ℕ} {r : HttpRequest} {op : StoreOp}
    (hr : r ∈ wildcardRequests) (hop : ∀ req, Carries r req → req.Performs op)
    (hk : world.exchange k = .ok op.status.number) :
    Reaches world parseWildcard k r (arrival (asSent r)) := by
  obtain ⟨hreceives, hcarries⟩ := receives_wildcard r hr
  exact reaches_of_receives rfl hreceives hcarries (hop _ hcarries) fun status hstatus =>
    Except.ok.inj (hk.symm.trans hstatus)

theorem reaches_registration {world : World} {k : ℕ} {c : Challenge} (hc : c ∈ wildcardChallenges)
    (hk : world.exchange k = .ok 201) : Reaches world parseWildcard k
      (performRequest certbotConf c) (arrival (asSent (performRequest certbotConf c))) :=
  reaches_wildcard (List.mem_append_left _ (List.mem_map_of_mem hc))
    (fun _ hcarries => performs_performRequest hcarries (sendable_wildcard c hc)) hk

theorem reaches_deletion {world : World} {k : ℕ} {c : Challenge} (hc : c ∈ wildcardChallenges)
    (hk : world.exchange k = .ok 204) : Reaches world parseWildcard k
      (cleanupRequest certbotConf.toConf c)
      (arrival (asSent (cleanupRequest certbotConf.toConf c))) :=
  reaches_wildcard (List.mem_append_right _ (List.mem_map_of_mem hc))
    (fun _ hcarries => performs_cleanupRequest hcarries (sendable_wildcard c hc)) hk

theorem reached_wildcard : Reached obliging parseWildcard 0
    (requests (setup certbotConf ++ registrations certbotConf wildcardChallenges))
    [arrival (asSent wildcardRequests[0]), arrival (asSent wildcardRequests[1])] :=
  .arrived (reaches_registration List.mem_cons_self rfl)
    (.arrived (reaches_registration (List.mem_cons_of_mem _ List.mem_cons_self) rfl) (.nil _))

/-- Another client registers between the two requests. -/
def registeredItems : List (Token × Work) :=
  [arrival (asSent wildcardRequests[0]), arrival postRequest, arrival (asSent wildcardRequests[1])]

theorem session_registers_wildcard :
    (Responder.after parseWildcard ⟨none, none⟩ registeredItems).challenges.list.filter
      (· ∈ wildcardChallenges.map trimmed) = wildcardChallenges.map trimmed := by
  exact (session_registers responds_superPerform sendable_wildcard perform_wildcard reached_wildcard
    (.left _ (.right _ (.left _ .nil))) (by decide +kernel) (by decide +kernel)).1

def wildcardQuery : StandardMessage :=
  .plain challengeName ValidQueryType.txt.toU16 (by decide +kernel)

/-- Both values are in one answer. -/
theorem session_is_answered_wildcard : ∃ bytes M,
    ((Responder.after parseWildcard ⟨none, none⟩ registeredItems).step parseWildcard ⟨none, none⟩
      (.udpSocket4, .datagram ⟨wildcardQuery.toBytes, .v4 1 53, 0⟩)).1 =
        .ok (some (bytes, .v4 1 53)) ∧
    decode bytes = some M ∧ ∀ value ∈ ["1", "2"],
      ∃ data, zoneRecord challengeName data ∈ M.answers ∧ data.strings = some [utf8 value] := by
  have hpasses : ((Responder.after parseWildcard ⟨none, none⟩ registeredItems).rateLimiter.increment
      (.v4 1) 0).1 = .ok := by
    rw [Responder.rateLimiter_after]
    decide +kernel
  obtain ⟨bytes, M, hstep, hM, -, hanswers⟩ := session_is_answered
    (Server.slices_parseAmong (postRequest :: wildcardRequests.map asSent)) responds_superPerform
    sendable_wildcard perform_wildcard reached_wildcard
    (.left _ (.right _ (.left _ .nil)) : Fifo.Interleaving _ [arrival postRequest] registeredItems)
    (by decide +kernel) (by decide +kernel)
    (q := wildcardQuery) (d := ⟨wildcardQuery.toBytes, .v4 1 53, 0⟩) rfl rfl (by decide +kernel) rfl
    hpasses .udpSocket4
  refine ⟨bytes, M, hstep, hM, List.forall_mem_cons.2 ⟨?_, List.forall_mem_singleton.2 ?_⟩⟩
  · exact hanswers _ List.mem_cons_self (by decide +kernel) (by decide +kernel)
  · exact hanswers _ (List.mem_cons_of_mem _ List.mem_cons_self) (by decide +kernel)
      (by decide +kernel)

/-- A connection on which the second registration comes in two reads. -/
def piecesStream : Stream IoError where
  reads := [.ok ((asSent wildcardRequests[1]).head.take 20),
    .ok ((asSent wildcardRequests[1]).head.drop 20)]
  accepts _ := .ok ()
  written := []

theorem reaches_pieces : Reaches refusing parseWildcard 1 wildcardRequests[1]
    (.tcpListener, .connection piecesStream) := by
  have hread : (piecesStream.read bufLen).1 = .ok ((asSent wildcardRequests[1]).head.take 20) := by
    have hlen : ((asSent wildcardRequests[1]).head.take 20).length ≤ bufLen := by decide +kernel
    simp only [Stream.read, piecesStream, if_pos hlen]
  have hparse : parseWildcard ((asSent wildcardRequests[1]).head.take 20) =
      .ok (.incomplete, ⟨none, none, []⟩) := by decide +kernel
  refine ⟨piecesStream, rfl, ?_, ?_⟩
  · rintro req ⟨bytes, offset, hbytes, hcomplete⟩
    obtain rfl := Except.ok.inj (hread.symm.trans hbytes)
    rw [hparse] at hcomplete
    cases hcomplete
  · rintro _ ⟨⟩
    obtain ⟨served, hserved, hleaves⟩ := handleHttp_of_incomplete hread hparse Challenges.new
    exact writes_of_leaves hserved hleaves

/-- The second registration is refused, and both challenges are deleted. -/
theorem session_restores_refused :
    (Responder.after parseWildcard ⟨none, none⟩
        [arrival (asSent wildcardRequests[0]), (.tcpListener, .connection piecesStream),
          arrival postRequest, arrival (asSent wildcardRequests[2]),
          arrival (asSent wildcardRequests[3])]).challenges =
      (Responder.after parseWildcard ⟨none, none⟩ [arrival postRequest]).challenges := by
  have hreached : Reached refusing parseWildcard 0
      (requests (session certbotConf refusing superPerform superCleanup wildcardChallenges))
      [arrival (asSent wildcardRequests[0]), (.tcpListener, .connection piecesStream),
        arrival (asSent wildcardRequests[2]), arrival (asSent wildcardRequests[3])] :=
    .arrived (reaches_registration List.mem_cons_self rfl) (.arrived reaches_pieces
      (.arrived (reaches_deletion List.mem_cons_self rfl)
        (.arrived (reaches_deletion (List.mem_cons_of_mem _ List.mem_cons_self) rfl) (.nil _))))
  have hdeleted : ∀ k < wildcardChallenges.length, refusing.exchange
      ((requests (authenticated certbotConf refusing superPerform wildcardChallenges)).length + k) =
        .ok 204 := by
    have hcount : (requests (authenticated certbotConf refusing superPerform
      wildcardChallenges)).length = 2 := rfl
    intro k _
    rw [hcount, Nat.add_comm]
    rfl
  exact session_restores responds_superPerform (fun _ _ => rfl) sendable_wildcard hdeleted hreached
    (.left _ (.left _ (.right _ (.left _ (.left _ .nil))))) (by decide +kernel) (by decide +kernel)

theorem session_agrees_wildcard :
    (perform obliging certbotConf superPerform wildcardChallenges).run [] =
        .ok () (setup certbotConf ++ registrations certbotConf wildcardChallenges) ∧
      (cleanup certbotConf.toConf obliging superCleanup wildcardChallenges).run
          (setup certbotConf ++ registrations certbotConf wildcardChallenges) =
        .ok () (setup certbotConf ++ registrations certbotConf wildcardChallenges ++
          deletions certbotConf.toConf wildcardChallenges ++ [.run "teardown.sh"]) := by
  have hanswered : ∀ k r op, r ∈ wildcardRequests → (∀ req, Carries r req → req.Performs op) →
      obliging.exchange k = .ok op.status.number → Answered obliging parseWildcard k r := by
    intro k r op hr hop hk
    obtain ⟨hreceives, hcarries⟩ := receives_wildcard r hr
    obtain ⟨served, hserved, hleaves⟩ :=
      handleHttp_of_performs hreceives (hop _ hcarries) Challenges.new
    exact ⟨_, _, _, served, _, hreceives, hcarries, hserved, hleaves.written, hk⟩
  have hk : ∀ k c, wildcardChallenges[k]? = some c → k < 2 ∧ c ∈ wildcardChallenges :=
    fun k c h => ⟨(List.getElem?_eq_some_iff.1 h).1, List.mem_of_getElem? h⟩
  have hregistered : ∀ k c, wildcardChallenges[k]? = some c →
      Answered obliging parseWildcard k (performRequest certbotConf c) := by
    intro k c h
    obtain ⟨hlt, hc⟩ := hk k c h
    refine hanswered k _ (.set (trimmed c)) (List.mem_append_left _ (List.mem_map_of_mem hc))
      (fun req hcarries => performs_performRequest hcarries (sendable_wildcard c hc)) ?_
    show Except.ok (if k < 2 then 201 else 204) = Except.ok 201
    rw [if_pos hlt]
  have hdeleted : ∀ k c, wildcardChallenges[k]? = some c → Answered obliging parseWildcard
      (wildcardChallenges.length + k) (cleanupRequest certbotConf.toConf c) := by
    intro k c h
    obtain ⟨-, hc⟩ := hk k c h
    refine hanswered _ _ (.cleanup (trimmed c)) (List.mem_append_right _ (List.mem_map_of_mem hc))
      (fun req hcarries => performs_cleanupRequest hcarries (sendable_wildcard c hc)) ?_
    show Except.ok (if 2 + k < 2 then 201 else 204) = Except.ok 204
    rw [if_neg (Nat.not_lt.2 (Nat.le_add_right 2 k))]
  exact session_agrees responds_superPerform (fun _ _ => rfl) sendable_wildcard (fun _ _ => rfl)
    (fun _ _ => rfl) hregistered hdeleted

end Wildcard

end Plugin

end AcmeChampion
