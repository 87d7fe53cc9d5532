import Sosedi.Auth.AuthRuns
import Sosedi.Scripts

/-!
# Scripted runs of authentication

As `Scripts`, for the calls of authentication.  `AuthScenario` is the store in which the
examples start: the accounts of `Scenario`, and no sessions.
-/

namespace Sosedi

open Transactions

/-- One line of a script: a call arrives, or a client does up to `nodes` nodes. -/
inductive AuthLine where
  | call (c : AuthCall)
  | run (client nodes : Nat)

def AuthLine.moves (env : AuthEnv) : AuthLine → List (Move AuthSys)
  | call c => [.start (c.prog env)]
  | run client nodes => List.replicate nodes (.run client)

def playAuth (ok : AuthEvent → AuthStore → Prop) [∀ ev σ, Decidable (ok ev σ)] (env : AuthEnv)
    (s : State AuthSys) (script : List AuthLine) : State AuthSys :=
  attemptAll ok s (script.flatMap (AuthLine.moves env))

section Play

variable {ok : AuthEvent → AuthStore → Prop} [∀ ev σ, Decidable (ok ev σ)] {env : AuthEnv}
  {s₀ s : State AuthSys}

theorem authCalls_of_mem_moves {line : AuthLine} {p : Prog AuthSys Unit}
    (h : Move.start p ∈ line.moves env) : AuthCalls env p := by
  cases line with
  | call c =>
    simp only [AuthLine.moves, List.mem_singleton, Move.start.injEq] at h
    exact ⟨c, h⟩
  | run i n => simp [AuthLine.moves, List.mem_replicate] at h

theorem reaches_playAuth (script : List AuthLine) :
    Reaches (AuthCalls env) ok s (playAuth ok env s script) := by
  refine reaches_attemptAll .refl fun p hp => ?_
  obtain ⟨line, -, hline⟩ := List.mem_flatMap.mp hp
  exact authCalls_of_mem_moves hline

/-- **Every script is a run.** -/
theorem AuthRuns.play (h : AuthRuns env ok s₀ s) (script : List AuthLine) :
    AuthRuns env ok s₀ (playAuth ok env s script) := h.trans (reaches_playAuth script)

end Play

/-- Any event may happen. -/
def anyAuthEvent : AuthEvent → AuthStore → Prop := fun _ _ => True

instance (ev : AuthEvent) (σ : AuthStore) : Decidable (anyAuthEvent ev σ) := .isTrue trivial

/-! ## The store of the examples -/

namespace AuthScenario

/-- The digests are readable here. -/
def config : AuthEnv where
  jwtAccessSecret := some "access"
  jwtRefreshSecret := some "refresh"
  jwtAccessExpiresIn := none
  jwtRefreshExpiresIn := none
  adminSessionExpiresIn := none
  otpDeviceRateLimit := none
  otpIpRateLimit := none
  otpGlobalRateLimit := none
  bcryptDigest := fun code _ => code
  sha256 := fun text => text
  hmacSha1 := fun key message => key ++ message
  encrypt := fun text => .ok text
  decrypt := fun text => .ok text
  toUpperCase := fun text => text

def database : AuthDatabase := ⟨Scenario.database, .empty, .empty⟩

def world : AuthWorld := ⟨Scenario.world, .initial, .initial, .initial⟩

def state : State AuthSys := ⟨database, world, []⟩

/-- The runs that start in the scenario. -/
theorem runs (ok : AuthEvent → AuthStore → Prop) : AuthRuns config ok state state :=
  .refl rfl ⟨rfl, rfl, rfl, rfl, rfl⟩

def phone : String := "+79000000001"

/-- The code "123456" is sent to the phone. -/
def requestCode (client : Nat) (salt : Id) : List AuthLine :=
  [.call (.requestOtp phone ⟨"device", "ip"⟩ "123456" salt false), .run client 8]

/-- Somebody submits a code; a login makes the account 50 and a session. -/
def submit (code : String) (ticket refreshJti sid : Id) : AuthLine :=
  .call (.verifyOtp phone code "device" ticket 50 refreshJti sid)

/-- A login: the session 102 with the token 101. -/
def login : List AuthLine := requestCode 0 99 ++ [submit "123456" 100 101 102, .run 1 20]

/-- The tokens of the login. -/
def firstAccess : AccessToken := ⟨50, 0, epochSeconds Scenario.start + 900⟩

def firstToken : RefreshToken := ⟨50, 102, 101, 0, epochSeconds Scenario.start + 2592000⟩

end AuthScenario

end Sosedi
