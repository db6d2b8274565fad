import Homelab.ControlApi.Handler
import Homelab.Effects.Oblivious

/-! # Requests without the token

A request that carries the token in neither place is answered before anything is read of the
host: by a refusal, by the health report or by the news that there is no such page. What it
is answered with is a function of the request alone.
-/

namespace Homelab.ControlApi

open Effects

def Request.tokenParam (cfg : Config) (request : Request) : Option Text.Line :=
  (Url.urlparse cfg.netlocAllowed request.path).map fun parsed => Url.param "token" "" parsed.query

/-- The configured token is not empty, and the request has it neither in its header nor in
its query. -/
structure WithoutToken (cfg : Config) (request : Request) : Prop where
  configured : cfg.token ≠ ""
  header : request.header "Authorization" ≠ "Bearer " ++ cfg.token
  query : request.tokenParam cfg ≠ some cfg.token.toList

/-- The answers to a request without the token: `none` where the address is refused, which
ends the handler without one. -/
def refusal (cfg : Config) (request : Request) : Option Response :=
  let unauthorized := ⟨401, .json (error "unauthorized")⟩
  match request.method with
  | .post => some unauthorized
  | .get =>
      (Url.urlparse cfg.netlocAllowed request.path).map fun parsed =>
        let path := String.ofList parsed.path
        if path = "/" then unauthorized
        else if path = "/health" then ⟨200, .json (status "ok")⟩
        else if (route path parsed.query).isSome then unauthorized
        else ⟨404, .json (error "not found")⟩

/-- The handler sends one response, or fails before it does. -/
def reply : Option Response → Api Unit
  | some response => ask (.send response)
  | none => throw .valueError

theorem guarded_refused {cfg : Config} {request : Request} (handler : Api Unit)
    (header : request.header "Authorization" ≠ "Bearer " ++ cfg.token) :
    guarded cfg request handler = ask (.send ⟨401, .json (error "unauthorized")⟩) := by
  simp only [guarded, checkAuth, if_pos header, sendJson]
  rfl

theorem handle_refused {cfg : Config} {request : Request} (without : WithoutToken cfg request) :
    handle cfg request = reply (refusal cfg request) := by
  cases which : request.method with
  | post => simp only [handle, refusal, which, doPost, guarded_refused _ without.header, reply]
  | get =>
      simp only [handle, refusal, which, doGet]
      cases address : Url.urlparse cfg.netlocAllowed request.path with
      | none => rfl
      | some parsed =>
          have noToken : ¬ checkTokenParam cfg parsed.query = true := by
            have query := without.query
            simpa [Request.tokenParam, address, checkTokenParam] using query
          -- the type of a reply depends on its operation, so the branch is chosen before
          simp only [Option.map_some, if_neg noToken]
          by_cases home : String.ofList parsed.path = "/"
          · rw [if_pos home, if_pos home]
            rfl
          · by_cases health : String.ofList parsed.path = "/health"
            · rw [if_neg home, if_pos health, if_neg home, if_pos health]
              rfl
            · rw [if_neg home, if_neg health, if_neg home, if_neg health]
              cases route (String.ofList parsed.path) parsed.query with
              | none => rfl
              | some handler => exact guarded_refused handler without.header

def refusedOutcome : Option Response → Except Exception Unit
  | some _ => .ok ()
  | none => .error .valueError

theorem reply_oblivious (response : Option Response) :
    (reply response).run.Oblivious (refusedOutcome response)
      (response.toList.map Operation.send) := by
  cases response with
  | none => exact ⟨rfl, rfl⟩
  | some response => exact ⟨[], rfl, fun _ => ⟨rfl, rfl⟩⟩

/-- Without the token, the handler does nothing to the host but send: in any two systems and
any two of their states it sends the same and ends the same way. -/
theorem without_token_nothing (cfg : Config) (request : Request)
    (without : WithoutToken cfg request) {World Other : Type}
    (system : System interface World) (other : System interface Other)
    {world final : World} {world' final' : Other}
    {moments : List (Effects.Moment interface World)}
    {moments' : List (Effects.Moment interface Other)}
    {outcome outcome' : Option (Except Exception Unit)}
    (execution : Executes system (handle cfg request).run world moments final outcome)
    (execution' : Executes other (handle cfg request).run world' moments' final' outcome') :
    (∀ moment ∈ moments, ∃ response, moment.operation = .send response) ∧
      (outcome.isSome → outcome'.isSome → asked moments = asked moments' ∧ outcome = outcome') := by
  rw [handle_refused without] at execution execution'
  have oblivious := reply_oblivious (refusal cfg request)
  constructor
  · intro moment member
    have listed : moment.operation ∈ asked moments := List.mem_map_of_mem member
    have sent := (oblivious.executes execution).1.subset listed
    rcases List.mem_map.mp sent with ⟨response, _, same⟩
    exact ⟨response, same.symm⟩
  · intro completes completes'
    rcases Option.isSome_iff_exists.mp completes with ⟨ended, rfl⟩
    rcases Option.isSome_iff_exists.mp completes' with ⟨ended', rfl⟩
    rcases oblivious.agree execution execution' with ⟨same, alike⟩
    exact ⟨same, congrArg some alike⟩

/-! ## One request in two worlds -/

/-- A wrong header, and no token in the query. -/
def stranger : Request :=
  ⟨.post, "/shutdown?token=guess".toList, [("authorization", "Bearer guess")]⟩

def guardedPanel : Config := ⟨"secret", "/opt/control", "/opt/backup.sh", "", fun _ => true⟩

/-- Everything may be answered with anything. -/
def anything (World : Type) : System interface World := ⟨fun _ _ _ _ => True⟩

theorem without_token_nothing_shutdown :
    ∃ moments moments' : List (Effects.Moment interface Nat),
      Executes (anything Nat) (handle guardedPanel stranger).run 0 moments 0 (some (.ok ())) ∧
      Executes (anything Nat) (handle guardedPanel stranger).run 1 moments' 1 (some (.ok ())) ∧
      asked moments = asked moments' ∧
      ∀ moment ∈ moments, ∃ response, moment.operation = .send response := by
  have without : WithoutToken guardedPanel stranger :=
    ⟨by decide, by decide, by decide +kernel⟩
  have refused : ∀ world : Nat, Executes (anything Nat) (handle guardedPanel stranger).run world
      [⟨world, .send ⟨401, .json (error "unauthorized")⟩, (), world⟩] world (some (.ok ())) := by
    intro world
    rw [handle_refused without]
    exact .call trivial (.done _ _)
  obtain ⟨sends, same⟩ := without_token_nothing guardedPanel stranger without (anything Nat)
    (anything Nat) (refused 0) (refused 1)
  exact ⟨_, _, refused 0, refused 1, (same rfl rfl).1, sends⟩

end Homelab.ControlApi
