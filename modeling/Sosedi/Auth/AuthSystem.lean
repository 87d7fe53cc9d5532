import Sosedi.Auth.SecondFactors
import Sosedi.Services.AdminService
import Sosedi.Transactions.Embedding

/-!
# The system around authentication

The database gets the rows of second factors, the world gets Redis.  Every Redis command is
one call; its effect is `AuthEvent.applyWorld` of its event.  Random identifiers are arguments
of the calls: `randomUUID` locks the identifier for the call and stops a call whose identifier
was drawn before.
-/

namespace Sosedi

open Transactions

structure AuthDatabase where
  base : Database
  credentials : Table Id MfaCredential
  recoveryCodes : Table String RecoveryCode

structure AuthWorld where
  base : World
  sessions : SessionStore
  otp : OtpStore
  mfa : MfaStore

inductive AuthKey where
  | base (key : LockKey)
  | uuid (id : Id)
  | userPhone (phone : String)
  | credentialRow (userId : Id)
  | recoveryRow (codeHash : String)
  deriving DecidableEq

inductive AuthEvent where
  /-- A step of a call that knows nothing of Redis. -/
  | base (event : Event)
  | session (event : SessionEvent)
  | otp (event : OtpEvent)
  | mfa (event : MfaEvent)
  | upsertUser (newId : Id) (phone : String)
  | bumpVersion (userId : Id)
  | enableMfa (userId : Id) (credential : MfaCredential) (codeHashes : List String)
  | useTotp (userId : Id) (timeStep : Int) (ticket : Id)
  | useRecoveryCode (userId : Id) (codeHash : String) (usedAt : Time) (ticket : Id)
  | audit

def AuthEvent.applyWorld : AuthEvent → AuthWorld → AuthWorld
  | session ev, w => { w with sessions := ev.apply w.base.now w.sessions }
  | otp ev, w => { w with otp := ev.apply w.base.now w.otp }
  | mfa ev, w => { w with mfa := ev.apply w.base.now w.mfa }
  | _, w => w

abbrev AuthSys : Signature where
  DB := AuthDatabase
  World := AuthWorld
  Key := AuthKey
  Event := AuthEvent
  Error := Error

/-- The system without Redis, as a part. -/
def basePart : Part Sys AuthSys where
  db := AuthDatabase.base
  setDb db base := { db with base }
  world := AuthWorld.base
  setWorld w base := { w with base }
  key := .base
  event := .base
  error := id
  db_setDb _ _ := rfl
  setDb_db _ := rfl
  setDb_setDb _ _ _ := rfl

/-! ## Statements -/

/-- A Redis command on sessions; the answer is read off the store that it found. -/
def onSessions {α : Type} (ev : SessionEvent) (out : Time → SessionStore → α) : Prog AuthSys α :=
  call (.session ev) (AuthEvent.applyWorld (.session ev)) fun w => out w.base.now w.sessions

def onOtp {α : Type} (ev : OtpEvent) (out : Time → OtpStore → α) : Prog AuthSys α :=
  call (.otp ev) (AuthEvent.applyWorld (.otp ev)) fun w => out w.base.now w.otp

def onMfa {α : Type} (ev : MfaEvent) (out : Time → MfaStore → α) : Prog AuthSys α :=
  call (.mfa ev) (AuthEvent.applyWorld (.mfa ev)) fun w => out w.base.now w.mfa

/-- A command without an answer. -/
def runSessions (ev : SessionEvent) : Prog AuthSys Unit := onSessions ev fun _ _ => ()

def runOtp (ev : OtpEvent) : Prog AuthSys Unit := onOtp ev fun _ _ => ()

def runMfa (ev : MfaEvent) : Prog AuthSys Unit := onMfa ev fun _ _ => ()

/-- The random identifier `id`; two draws never give the same one. -/
def randomUUID (id : Id) : Prog AuthSys Unit := do
  acquire (.uuid id)
  let isNew ← onSessions (.draw id) fun _ s => !s.drawn.contains id
  lift (ensure isNew (.internal "identifier drawn before"))

/-- `Date.now()`. -/
def authClock : Prog AuthSys Time := onSessions .read fun now _ => now

/-- `Math.floor(now / 1000)`. -/
def epochSeconds (now : Time) : Int := now / 1000

/-- `adminAuditLog.create`. -/
def createAuthAudit (entry : AuditEntry) : Prog AuthSys Unit :=
  write [] fun db => { db with
    base := { db.base with adminAuditLog := db.base.adminAuditLog ++ [entry] } }

/-! ## Configuration -/

structure AuthEnv where
  jwtAccessSecret : Option String
  jwtRefreshSecret : Option String
  jwtAccessExpiresIn : Option String
  jwtRefreshExpiresIn : Option String
  adminSessionExpiresIn : Option String
  /-- The numbers that the settings spell. -/
  otpDeviceRateLimit : Option Int
  otpIpRateLimit : Option Int
  otpGlobalRateLimit : Option Int
  bcryptDigest : String → Id → String
  sha256 : String → String
  hmacSha1 : Bytes → Bytes → Bytes
  encrypt : String → Except Error String
  decrypt : String → Except Error String
  toUpperCase : String → String

def getRequiredConfig (name : String) (value : Option String) : Except Error Unit :=
  ensure (value.any (· != "")) (.internal (name ++ " is not configured"))

def getPositiveIntegerConfig (name : String) (value : Option Int) (fallback : Int) :
    Except Error Int :=
  match value with
  | none => .ok fallback
  | some value =>
    if isSafeInteger value && 1 ≤ value then .ok value
    else .error (.internal (name ++ " должен быть положительным целым числом"))

/-- `/^(\d+)([smhd])?$/`. -/
def parseDurationToSeconds (value : String) : Except Error Nat :=
  let text := (trim value).toList
  let digits := text.takeWhile (·.isDigit)
  let multiplier : Option Nat :=
    match text.dropWhile (·.isDigit) with
    | [] => some 1
    | ['s'] => some 1
    | ['m'] => some 60
    | ['h'] => some (60 * 60)
    | ['d'] => some (24 * 60 * 60)
    | _ => none
  match digits, multiplier with
  | _ :: _, some multiplier =>
    .ok (digits.foldl (fun n c => 10 * n + (c.toNat - '0'.toNat)) 0 * multiplier)
  | _, _ => .error (.internal ("Invalid duration: " ++ value))

def normalizeRussianPhone (phone : String) : Except Error String :=
  let digits := phone.toList.filter (·.isDigit)
  if digits.length = 10 ∧ digits.head? = some '9' then .ok ("+7" ++ String.ofList digits)
  else if digits.length = 11 ∧ digits.head? = some '8' then
    .ok ("+7" ++ String.ofList digits.tail)
  else if digits.length = 11 ∧ digits.head? = some '7' then .ok ("+" ++ String.ofList digits)
  else .error (.badRequest "Некорректный номер телефона")

end Sosedi
