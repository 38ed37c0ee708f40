import AcmeChampion.Plugin

/-!
# What the plugin's cleanup gets done

`_cleanup` attempts its request, and returns unless the exchange ends in an exception that it does
not catch (`run_cleanup`).  Such an exception ends the loop over the challenges and the cleanup with
it (`run_cleanups`): the requests behind it are not made, and the teardown script is not run.
-/

namespace AcmeChampion

namespace Plugin

/-- Everything that was done but for the log. -/
def performed (actions : List Action) : List Action :=
  actions.filter fun
    | .warning _ => false
    | _ => true

/-- The actions of a run, however it ended. -/
def actionsOf {α : Type} : EStateM.Result Raised (List Action) α → List Action
  | .ok _ actions => actions
  | .error _ actions => actions

/-- The exchange came to a status, or to an exception that `_cleanup` catches. -/
def Contained : Except Raised ℕ → Prop
  | .ok _ => True
  | .error (.httpException _) => True
  | .error (.connectionError _) => True
  | .error _ => False

theorem performed_append (as bs : List Action) :
    performed (as ++ bs) = performed as ++ performed bs := List.filter_append as bs

theorem requests_append (as bs : List Action) :
    requests (as ++ bs) = requests as ++ requests bs := List.filterMap_append

theorem run_try {α : Type} (body : Py α) (handler : Raised → Py α) (actions : List Action) :
    (tryCatch body handler).run actions =
      match body.run actions with
      | .ok a actions => .ok a actions
      | .error e actions => (handler e).run actions := by
  simp only [EStateM.run, tryCatch, tryCatchThe, MonadExceptOf.tryCatch, EStateM.tryCatch]
  cases body actions <;> rfl

theorem run_act (action : Action) (actions : List Action) :
    (act action).run actions = .ok () (actions ++ [action]) := rfl

theorem run_exchange (world : World) (r : HttpRequest) (actions : List Action) :
    (exchange world r).run actions =
      match world.exchange (requests actions).length with
      | .ok status => .ok status (actions ++ [.request r])
      | .error e => .error e (actions ++ [.request r]) := by
  simp only [exchange, EStateM.run_bind, EStateM.run_get, run_act]
  cases world.exchange (requests actions).length <;> rfl

variable {conf : Conf} {world : World}

/-- The actions of one call of `_cleanup`: its request, and perhaps a warning. -/
def Attempts (r : HttpRequest) (log : List Action) : Prop :=
  log = [.request r] ∨ ∃ text, log = [.request r, .warning text]

/-- `_cleanup` attempts its request, and returns if the exchange is contained. -/
theorem run_cleanup (c : Challenge) (actions : List Action) :
    ∃ log, Attempts (cleanupRequest conf c) log ∧
      ((Contained (world.exchange (requests actions).length) ∧
          (_cleanup conf world c).run actions = .ok () (actions ++ log)) ∨
        (¬ Contained (world.exchange (requests actions).length) ∧
          ∃ e, (_cleanup conf world c).run actions = .error e (actions ++ log))) := by
  unfold _cleanup
  rcases hx : world.exchange (requests actions).length with e | status
  · cases e with
    | httpException text | connectionError text =>
      refine ⟨_, .inr ⟨"Could not reach acme-champion on localhost: " ++ text, rfl⟩,
        .inl ⟨trivial, ?_⟩⟩
      simp only [EStateM.run_bind, run_try, run_exchange, hx, run_act, List.append_assoc]
      rfl
    | _ =>
      refine ⟨_, .inl rfl, .inr ⟨not_false, ?_⟩⟩
      simp only [EStateM.run_bind, run_try, run_exchange, hx]
      exact ⟨_, rfl⟩
  · by_cases hstatus : status = 204
    · refine ⟨_, .inl rfl, .inl ⟨trivial, ?_⟩⟩
      simp only [EStateM.run_bind, run_try, run_exchange, hx, hstatus, EStateM.run_pure]
      rfl
    · refine ⟨_, .inr ⟨"unexpected status code cleaning up " ++ c.name ++ ": " ++ status.repr, rfl⟩,
        .inl ⟨trivial, ?_⟩⟩
      simp only [EStateM.run_bind, run_try, run_exchange, hx, EStateM.run_pure, if_pos hstatus,
        run_act, List.append_assoc]
      rfl

theorem performed_of_attempts {r : HttpRequest} {log : List Action} (h : Attempts r log) :
    performed log = [.request r] ∧ requests log = [r] := by
  rcases h with rfl | ⟨text, rfl⟩ <;> exact ⟨rfl, rfl⟩

/-- The requests of the challenges, as actions. -/
def deletions (conf : Conf) (cs : List Challenge) : List Action :=
  cs.map fun c => .request (cleanupRequest conf c)

theorem contained_succ {n len : ℕ} (h : Contained (world.exchange n))
    (hall : ∀ k < len, Contained (world.exchange (n + 1 + k))) :
    ∀ k < len + 1, Contained (world.exchange (n + k))
  | 0, _ => h
  | k + 1, hk => by
    have hsucc := hall k (by omega)
    rwa [Nat.add_assoc, Nat.add_comm 1 k] at hsucc

/-- The loop over the challenges attempts every request up to the first exchange that is not
contained, which ends it. -/
theorem run_cleanups : ∀ (cs : List Challenge) (actions : List Action),
    (∃ actions', (forM cs (_cleanup conf world)).run actions = .ok () actions' ∧
        performed actions' = performed actions ++ deletions conf cs ∧
        ∀ k < cs.length, Contained (world.exchange ((requests actions).length + k))) ∨
      ∃ e actions' done c rest, (forM cs (_cleanup conf world)).run actions = .error e actions' ∧
        cs = done ++ c :: rest ∧
        performed actions' = performed actions ++ deletions conf (done ++ [c]) ∧
        (∀ k < done.length, Contained (world.exchange ((requests actions).length + k))) ∧
        ¬ Contained (world.exchange ((requests actions).length + done.length))
  | [], actions => .inl ⟨actions, rfl, by simp [deletions], by simp⟩
  | c :: cs, actions => by
    obtain ⟨log, hlog, ⟨hcontained, hrun⟩ | ⟨hcontained, e, hrun⟩⟩ :=
      @run_cleanup conf world c actions
    · obtain ⟨hperformed, hrequests⟩ := performed_of_attempts hlog
      have hcount : (requests (actions ++ log)).length = (requests actions).length + 1 := by
        simp [requests_append, hrequests]
      rw [List.forM_cons, EStateM.run_bind, hrun]
      rcases run_cleanups cs (actions ++ log) with
        ⟨actions', hrest, hdone, hall⟩ |
        ⟨e, actions', done, c', rest, hrest, rfl, hdone, hall, hlast⟩
      · refine .inl ⟨actions', hrest, ?_, ?_⟩
        · rw [hdone, performed_append, hperformed]
          simp [deletions]
        · rw [hcount] at hall
          exact contained_succ hcontained hall
      · refine .inr ⟨e, actions', c :: done, c', rest, hrest, rfl, ?_, ?_, ?_⟩
        · rw [hdone, performed_append, hperformed]
          simp [deletions]
        · rw [hcount] at hall
          exact contained_succ hcontained hall
        · rwa [hcount, Nat.add_assoc, Nat.add_comm 1] at hlast
    · obtain ⟨hperformed, -⟩ := performed_of_attempts hlog
      rw [List.forM_cons, EStateM.run_bind, hrun]
      refine .inr ⟨e, actions ++ log, [], c, cs, rfl, rfl, ?_, by simp, hcontained⟩
      rw [performed_append, hperformed]
      rfl

/-- `_runTeardownScript` runs the script, if there is one, and logs at most a warning. -/
theorem run_teardown (actions : List Action) :
    performed (actionsOf ((_runTeardownScript conf world).run actions)) =
      performed actions ++ conf.scriptAfter.toList.map .run := by
  unfold _runTeardownScript
  rcases conf.scriptAfter with _ | path
  · simp only [EStateM.run_pure, actionsOf, Option.toList_none, List.map_nil, List.append_nil]
  · have hperformed : performed (actions ++ [.run path]) = performed actions ++ [.run path] :=
      performed_append actions [.run path]
    simp only [run_try, EStateM.run_bind, run_act, Option.toList_some, List.map_cons, List.map_nil]
    rcases world.run path with e | ⟨⟩
    · cases e with
      | calledProcessError returncode stdout stderr =>
        refine (performed_append (actions ++ [.run path]) [.warning _]).trans ?_
        rw [hperformed]
        exact List.append_nil _
      | _ => exact hperformed
    · exact hperformed

/-- The base class calls `_cleanup` for each challenge in turn, and lets exceptions through. -/
def CallsInTurn (superCleanup : (Challenge → Py Unit) → List Challenge → Py Unit) : Prop :=
  ∀ f challenges, superCleanup f challenges = forM challenges f

/-- The plugin's cleanup attempts to delete every challenge and then runs the script exactly when
every exchange comes to a status or to an exception that is caught, but for the last one if there
is no script. -/
theorem cleanup_tears_down_iff {superCleanup : (Challenge → Py Unit) → List Challenge → Py Unit}
    (hsuper : CallsInTurn superCleanup) (conf : Conf) (world : World) (cs : List Challenge) :
    performed (actionsOf ((cleanup conf world superCleanup cs).run [])) =
        deletions conf cs ++ conf.scriptAfter.toList.map .run ↔
      ∀ k < cs.length, Contained (world.exchange k) ∨
        (conf.scriptAfter = none ∧ k + 1 = cs.length) := by
  unfold cleanup
  rw [hsuper, EStateM.run_bind]
  rcases @run_cleanups conf world cs [] with
    ⟨actions, hrun, hdone, hall⟩ | ⟨e, actions, done, c, rest, hrun, rfl, hdone, hall, hlast⟩
  · simp only [hrun, run_teardown, hdone]
    refine iff_of_true rfl fun k hk => .inl ?_
    have hk' := hall k hk
    rwa [show (requests []).length + k = k from Nat.zero_add k] at hk'
  · have hcount : ∀ k, (requests []).length + k = k := Nat.zero_add
    simp only [hcount] at hall hlast
    simp only [hrun, actionsOf, hdone]
    constructor
    · intro heq k hk
      have hlen := congrArg List.length heq
      simp only [deletions, performed, List.filter_nil, List.nil_append, List.length_append,
        List.length_map, List.length_cons, List.length_nil] at hlen hk ⊢
      have hscript : conf.scriptAfter = none := by
        rw [← Option.toList_eq_nil_iff, ← List.length_eq_zero_iff]
        omega
      rcases Nat.lt_or_ge k done.length with hlt | hge
      · exact .inl (hall k hlt)
      · exact .inr ⟨hscript, by omega⟩
    · intro hcond
      obtain ⟨hscript, hlen⟩ := (hcond done.length (by simp)).resolve_left hlast
      simp only [List.length_append, List.length_cons] at hlen
      obtain rfl : rest = [] := List.length_eq_zero_iff.1 (by omega)
      rw [hscript]
      simp [performed]

section Timeout

def teardownConf : Conf where
  httpPort := 8053
  scriptAfter := some "teardown.sh"

/-- The challenges of a domain and of its wildcard. -/
def wildcardChallenges : List Challenge :=
  [⟨"d", "_acme-challenge.d", "1"⟩, ⟨"*.d", "_acme-challenge.d", "2"⟩]

/-- A server that deletes what it is asked to. -/
def deleting : World where
  exchange _ := .ok 204
  run _ := .ok ()

/-- A server that takes longer over the first request than the plugin waits. -/
def slow : World where
  exchange
    | 0 => .error (.timeoutError "timed out")
    | _ => .ok 204
  run _ := .ok ()

theorem cleanup_tears_down_iff_deleting :
    performed (actionsOf ((cleanup teardownConf deleting (fun f cs => forM cs f)
          wildcardChallenges).run [])) =
        deletions teardownConf wildcardChallenges ++ [.run "teardown.sh"] :=
  (cleanup_tears_down_iff (fun _ _ => rfl) teardownConf deleting wildcardChallenges).2
    fun _ _ => .inl trivial

/-- The second challenge is not deleted, and the script is not run. -/
theorem cleanup_slow : CallsInTurn (fun f cs => forM cs f) ∧
    performed (actionsOf ((cleanup teardownConf slow (fun f cs => forM cs f)
          wildcardChallenges).run [])) =
        deletions teardownConf [⟨"d", "_acme-challenge.d", "1"⟩] ∧
      deletions teardownConf wildcardChallenges ++ teardownConf.scriptAfter.toList.map .run ≠
        deletions teardownConf [⟨"d", "_acme-challenge.d", "1"⟩] :=
  ⟨fun _ _ => rfl, rfl, by decide⟩

end Timeout

end Plugin

end AcmeChampion
