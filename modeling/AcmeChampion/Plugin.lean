import AcmeChampion.Challenges

/-!
# The certbot plugin

After certbot has its certificate it calls `cleanup`: the base class calls `_cleanup` for each
challenge, which asks the server to delete it, and then the teardown script is run.  Before, it
calls `perform`: the setup script is run, and the base class calls `_perform` for each challenge,
which asks the server to register it.  What the plugin does outside is the list of its `Action`s;
what the exchanges and the scripts come to is a `World`.
-/

namespace AcmeChampion

namespace Plugin

/-- An exception by its class, with what it is displayed as.  `osError` is an `OSError` that is
neither a `ConnectionError` nor a `TimeoutError`. -/
inductive Raised
  | httpException (text : String)
  | connectionError (text : String)
  | timeoutError (text : String)
  | osError (text : String)
  | calledProcessError (returncode : ℤ) (stdout stderr : String)
  deriving DecidableEq, Repr

/-- The plugin's options. -/
structure Conf where
  httpPort : ℕ
  scriptAfter : Option String

structure HttpRequest where
  port : ℕ
  method : String
  url : String
  headers : List (String × String)
  deriving DecidableEq, Repr

inductive Action
  | request (r : HttpRequest)
  | run (path : String)
  | warning (text : String)
  deriving DecidableEq, Repr

/-- What the exchanges of a run come to, in order, a status or an exception, and what running a
script comes to. -/
structure World where
  exchange : ℕ → Except Raised ℕ
  run : String → Except Raised Unit

/-- Code that acts, and that an exception may end. -/
abbrev Py := EStateM Raised (List Action)

def act (action : Action) : Py Unit := modify (· ++ [action])

/-- The requests that have been attempted. -/
def requests (actions : List Action) : List HttpRequest :=
  actions.filterMap fun
    | .request r => some r
    | _ => none

def raising {α : Type} : Except Raised α → Py α
  | .ok a => return a
  | .error e => throw e

/-- A request is made on a connection of its own; the status of the response. -/
def exchange (world : World) (r : HttpRequest) : Py ℕ := do
  let attempted := (requests (← get)).length
  act (.request r)
  raising (world.exchange attempted)

variable (conf : Conf) (world : World)

def cleanupRequest (challenge : Challenge) : HttpRequest where
  port := conf.httpPort
  method := "DELETE"
  url := "/register/" ++ challenge.domain
  headers := [("X-ACME-Challenge-Name", challenge.name),
    ("X-ACME-Challenge-Value", challenge.value)]

def _cleanup (challenge : Challenge) : Py Unit := do
  let response ← tryCatch (do return some (← exchange world (cleanupRequest conf challenge))) fun
    | .httpException text | .connectionError text => do
      act (.warning ("Could not reach acme-champion on localhost: " ++ text))
      return none
    | err => throw err
  match response with
  | none => return ()
  | some status =>
    if status ≠ 204 then
      act (.warning ("unexpected status code cleaning up " ++ challenge.name ++ ": " ++
        status.repr))

def _runTeardownScript : Py Unit :=
  match conf.scriptAfter with
  | none => return ()
  | some path =>
    tryCatch (do
      act (.run path)
      raising (world.run path)) fun
      | .calledProcessError returncode stdout stderr =>
        act (.warning ("teardown script exited with nonzero status: " ++ returncode.repr ++ "\n" ++
          stdout ++ "\n" ++ stderr ++ "\n"))
      | err => throw err

/-- `superCleanup` is what the base class does with `_cleanup` and the challenges. -/
def cleanup (superCleanup : (Challenge → Py Unit) → List Challenge → Py Unit)
    (challenges : List Challenge) : Py Unit := do
  superCleanup (_cleanup conf world) challenges
  _runTeardownScript conf world

/-! ## Authentication -/

/-- The options of authentication besides. -/
structure AuthConf extends Conf where
  scriptBefore : Option String

/-- What ends `perform`: a plugin error, one of several arguments, which its text is not formatted
with, or an exception that is let through. -/
inductive Failure
  | pluginError (text : String)
  | pluginErrorWith (text : String) (returncode : ℤ) (stdout stderr : String)
  | raised (e : Raised)
  deriving DecidableEq, Repr

abbrev Auth := EStateM Failure (List Action)

/-- The exceptions of the code are raised as failures. -/
def raisingAs {α : Type} (failure : Raised → Failure) (body : Py α) : Auth α := fun actions =>
  match body actions with
  | .ok a actions => .ok a actions
  | .error e actions => .error (failure e) actions

variable (conf : AuthConf)

def performRequest (challenge : Challenge) : HttpRequest where
  port := conf.httpPort
  method := "POST"
  url := "/register/" ++ challenge.domain
  headers := [("X-ACME-Challenge-Name", challenge.name),
    ("X-ACME-Challenge-Value", challenge.value)]

def _perform (challenge : Challenge) : Auth Unit := do
  let status ← raisingAs (fun
    | .httpException text | .connectionError text =>
      .pluginError ("Could not reach acme-champion on localhost: " ++ text)
    | err => .raised err) (exchange world (performRequest conf challenge))
  if status ≠ 201 then
    throw (.pluginError ("Unexpected HTTP status setting challenge: " ++ status.repr))

def _runSetupScript : Auth Unit :=
  match conf.scriptBefore with
  | none => return ()
  | some path =>
    raisingAs (fun
      | .calledProcessError returncode stdout stderr =>
        .pluginErrorWith "startup script exited with nonzero status: %d\n%s\n%s\n" returncode stdout
          stderr
      | err => .raised err) do
      act (.run path)
      raising (world.run path)

/-- `superPerform` is what the base class does with `_perform` and the challenges. -/
def perform {ρ : Type} (superPerform : (Challenge → Auth Unit) → List Challenge → Auth ρ)
    (challenges : List Challenge) : Auth ρ := do
  _runSetupScript world conf
  superPerform (_perform world conf) challenges

end Plugin

end AcmeChampion
