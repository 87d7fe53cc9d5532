import Sosedi.Auth.AuthService

/-!
# Authentication of administrators

`AdminMfaService` and `AdminSessionService`.
-/

namespace Sosedi

open Transactions

namespace AdminMfaService

/-- `secret` is the generated secret. -/
def beginTotpSetup (env : AuthEnv) (userId : Id) (secret : String) : Prog AuthSys Unit := do
  let existing ← select fun db => db.credentials.get userId
  lift (ensure existing.isNone (.conflict "TOTP уже подключён"))
  let encrypted ← lift (env.encrypt secret)
  runMfa (.setSetup userId encrypted)
  createAuthAudit ⟨some userId, "ADMIN_MFA_SETUP_STARTED", "User", some userId, none⟩
  commit .audit

def hashRecoveryCode (env : AuthEnv) (code : String) : String := env.sha256 (env.toUpperCase code)

/-- `adminRecoveryCode.createMany`. -/
def createRecoveryCodes (userId : Id) (codeHashes : List String) : Prog AuthSys Unit :=
  insertUnique (codeHashes.map .recoveryRow)
    (fun db => !decide codeHashes.Nodup || codeHashes.any fun h => (db.recoveryCodes.get h).isSome)
    (.conflict "TOTP уже подключён")
    fun db => { db with
      recoveryCodes := codeHashes.foldl (fun t h => t.insert h ⟨userId, none, none⟩)
        db.recoveryCodes }

/-- `recoveryCodes` are the generated codes, `now` is the clock in seconds. -/
def confirmTotpSetup (env : AuthEnv) (userId : Id) (code : String) (recoveryCodes : List String)
    (now : Int) : Prog AuthSys Unit := do
  let encryptedSecret ← onMfa .read fun now s => s.setup.read now userId
  let encryptedSecret ← lift (required encryptedSecret
    (.unauthorized "Настройка TOTP истекла, начните её заново"))
  let secret ← lift (env.decrypt encryptedSecret)
  let key ← lift (required (decodeBase32 env.toUpperCase secret)
    (.internal "Invalid Base32 TOTP secret"))
  let timeStep ← lift (required (verifyTotpCode env.hmacSha1 key code none now)
    (.unauthorized "Неверный код TOTP"))
  let codeHashes := recoveryCodes.map (hashRecoveryCode env)
  let totpSecretEncrypted ← lift (env.encrypt secret)
  let credential : MfaCredential := ⟨totpSecretEncrypted, timeStep, [(timeStep, none)]⟩
  insertUnique [.credentialRow userId] (fun db => (db.credentials.get userId).isSome)
    (.conflict "TOTP уже подключён")
    fun db => { db with credentials := db.credentials.insert userId credential }
  createRecoveryCodes userId codeHashes
  createAuthAudit ⟨some userId, "ADMIN_MFA_ENABLED", "User", some userId, none⟩
  commit (.enableMfa userId credential codeHashes)
  runMfa (.deleteSetup userId)

/-- The life of the counter and the number that the call gets. -/
def registerAttempt (userId ticket : Id) : Prog AuthSys (Nat × Nat) := do
  let attempts ← onMfa (.countAttempt userId ticket) fun now s =>
    (s.lifeOf now userId, s.attempt.next now userId)
  when (attempts.2 == 1) (runMfa (.expireAttempts userId))
  lift (ensure (attempts.2 ≤ maxMfaAttempts)
    (.tooManyRequests "Слишком много попыток MFA, повторите позже"))
  pure attempts

/-- `adminMfaCredential.updateMany` with `lastTotpStep: { lt: timeStep }`. -/
def useTimeStep (timeStep : Int) (ticket : Id) (credential : MfaCredential) : MfaCredential :=
  { credential with
    lastTotpStep := timeStep
    uses := credential.uses ++ [(timeStep, some ticket)] }

def verifyTotp (env : AuthEnv) (userId : Id) (code : String) (now : Int) (attempts : Nat × Nat)
    (ticket : Id) : Prog AuthSys Int := do
  let credential ← select fun db => db.credentials.get userId
  let credential ← lift (required credential (.unauthorized "Сначала подключите TOTP"))
  let secret ← lift (env.decrypt credential.totpSecretEncrypted)
  let key ← lift (required (decodeBase32 env.toUpperCase secret)
    (.internal "Invalid Base32 TOTP secret"))
  runMfa (.check userId attempts.1 attempts.2 ticket)
  let timeStep ← lift (required
    (verifyTotpCode env.hmacSha1 key code (some credential.lastTotpStep) now)
    (.unauthorized "Неверный или уже использованный код MFA"))
  let updated ← updateWhere (.credentialRow userId)
    (fun db => (db.credentials.get userId).any (·.lastTotpStep < timeStep)) fun db =>
      { db with credentials := db.credentials.modify userId (useTimeStep timeStep ticket) }
  lift (ensure updated (.unauthorized "Код MFA уже использован"))
  commit (.useTotp userId timeStep ticket)
  pure timeStep

def isUnused (userId : Id) (code : RecoveryCode) : Bool :=
  code.userId == userId && code.usedAt.isNone

def consumeRecoveryCode (env : AuthEnv) (userId : Id) (recoveryCode : String)
    (attempts : Nat × Nat) (ticket : Id) : Prog AuthSys String := do
  let codeHash := hashRecoveryCode env recoveryCode
  runMfa (.check userId attempts.1 attempts.2 ticket)
  let usedAt ← authClock
  let consumed ← updateWhere (.recoveryRow codeHash)
    (fun db => (db.recoveryCodes.get codeHash).any (isUnused userId)) fun db =>
      { db with
        recoveryCodes := db.recoveryCodes.modify codeHash
          ({ · with usedAt := some usedAt, usedBy := some ticket }) }
  lift (ensure consumed (.unauthorized "Неверный или уже использованный recovery code"))
  createAuthAudit ⟨some userId, "ADMIN_RECOVERY_CODE_USED", "User", some userId, none⟩
  commit (.useRecoveryCode userId codeHash usedAt ticket)
  pure codeHash

def verifyStepUp (env : AuthEnv) (userId : Id) (rawCode : String) (now : Int) (ticket : Id) :
    Prog AuthSys Unit := do
  let attempts ← registerAttempt userId ticket
  let code := env.toUpperCase rawCode
  let used ← if isSixDigits code then do
      let timeStep ← verifyTotp env userId code now attempts ticket
      pure (.totp timeStep)
    else do
      let codeHash ← consumeRecoveryCode env userId code attempts ticket
      pure (StepUpCode.recovery codeHash)
  runMfa (.clearAttempts userId)
  runMfa (.recordStepUp ⟨userId, used, ticket⟩)

end AdminMfaService

namespace AdminSessionService

def maxAdminSessionSeconds : Nat := 15 * 60

def getAdminSessionTtl (env : AuthEnv) : Except Error Nat := do
  let seconds ← parseDurationToSeconds (env.adminSessionExpiresIn.getD "5m")
  ensure (1 ≤ seconds && seconds ≤ maxAdminSessionSeconds)
    (.internal "ADMIN_SESSION_EXPIRES_IN должен быть не больше 15 минут")
  pure seconds

/-- The account may act as an administrator. -/
def isAdmin (user : User) : Bool := user.role == .admin && user.active

/-- `now` is the clock in seconds. -/
def stepUp (env : AuthEnv) (userId : Id) (code : String) (now : Int) (ticket sessionId : Id)
    (csrfToken : String) : Prog AuthSys Unit := do
  randomUUID ticket
  let user ← select fun db => db.base.users.get userId
  let user ← lift (required (user.filter isAdmin)
    (.unauthorized "Доступ администратора отозван"))
  let expiresInSeconds ← lift (getAdminSessionTtl env)
  AdminMfaService.verifyStepUp env userId code now ticket
  createAuthAudit ⟨some userId, "ADMIN_STEP_UP_SUCCEEDED", "User", some userId, none⟩
  commit .audit
  randomUUID sessionId
  runSessions (.setAdminSession sessionId
    ⟨userId, user.sessionVersion, env.sha256 csrfToken⟩ expiresInSeconds)

def authenticate (env : AuthEnv) (sessionId : Id) (csrfToken : Option String) (ticket : Id) :
    Prog AuthSys Unit := do
  randomUUID ticket
  let stored ← onSessions .read fun now s => s.adminSession.read now sessionId
  let stored ← lift (required stored (.unauthorized "Недействительная admin-сессия"))
  lift (ensure (csrfToken.all fun token => env.sha256 token == stored.csrfTokenHash)
    (.forbidden "Недействительный CSRF token"))
  let user ← select fun db => db.base.users.get stored.userId
  if user.any fun user => isAdmin user && stored.sessionVersion == user.sessionVersion then
    runSessions (.accept ⟨ticket, stored.userId, stored.sessionVersion⟩)
  else do
    runSessions (.deleteAdminSession sessionId)
    throwing (.unauthorized "Admin-сессия отозвана")

end AdminSessionService

/-! ## The calls -/

/-- The calls whose interleavings are studied; random identifiers and clocks that a call reads
itself are arguments. -/
inductive AuthCall where
  | requestOtp (rawPhone : String) (context : AuthService.OtpRequestContext) (code : String)
      (salt : Id) (smsFails : Bool)
  | verifyOtp (rawPhone code installationId : String) (ticket newUserId refreshJti newSid : Id)
  | refresh (token : RefreshToken) (ticket refreshJti newSid : Id)
  | logout (token : RefreshToken)
  | listSessions (userId : Id) (currentInstallationId : String)
  | revokeSession (userId sessionId : Id)
  | revokeAllSessions (userId : Id)
  | verifyUserStepUpOtp (userId : Id) (phone code : String) (purpose : UserStepUpPurpose)
      (ticket jti : Id)
  | consumeUserStepUpToken (token : UserStepUpToken) (userId : Id)
      (purpose : UserStepUpPurpose) (ticket : Id)
  | canActivate (token : AccessToken) (ticket : Id)
  | beginTotpSetup (userId : Id) (secret : String)
  | confirmTotpSetup (userId : Id) (code : String) (recoveryCodes : List String) (now : Int)
  | adminStepUp (userId : Id) (code : String) (now : Int) (ticket sessionId : Id)
      (csrfToken : String)
  | authenticate (sessionId : Id) (csrfToken : Option String) (ticket : Id)
  | adminBlockUser (adminId userId : Id) (reason : String)
  | decideReport (adminId reportId : Id) (dto : ReportsService.DecideReportDto)
  | deleteMe (userId : Id)
  | finalizeEligibleAccountClosures
  | tick (ms : Nat)

namespace AuthCall

/-- What a call returns to its client is dropped. -/
def discard {α : Type} (p : Prog AuthSys α) : Prog AuthSys Unit := p.bind fun _ => .ret ()

def prog (env : AuthEnv) : AuthCall → Prog AuthSys Unit
  | requestOtp rawPhone context code salt smsFails =>
    AuthService.requestOtp env rawPhone context code salt smsFails
  | verifyOtp rawPhone code installationId ticket newUserId refreshJti newSid =>
    discard (AuthService.verifyOtp env rawPhone code installationId ticket newUserId refreshJti
      newSid)
  | refresh token ticket refreshJti newSid =>
    discard (AuthService.refresh env token ticket refreshJti newSid)
  | logout token => AuthService.logout env token
  | listSessions userId currentInstallationId =>
    discard (AuthService.listSessions userId currentInstallationId)
  | revokeSession userId sessionId => AuthService.revokeSession userId sessionId
  | revokeAllSessions userId => AuthService.revokeAllSessions userId
  | verifyUserStepUpOtp userId phone code purpose ticket jti =>
    discard (AuthService.verifyUserStepUpOtp env userId phone code purpose ticket jti)
  | consumeUserStepUpToken token userId purpose ticket =>
    AuthService.consumeUserStepUpToken env token userId purpose ticket
  | canActivate token ticket => JwtAuthGuard.canActivate env token ticket
  | beginTotpSetup userId secret => AdminMfaService.beginTotpSetup env userId secret
  | confirmTotpSetup userId code recoveryCodes now =>
    AdminMfaService.confirmTotpSetup env userId code recoveryCodes now
  | adminStepUp userId code now ticket sessionId csrfToken =>
    AdminSessionService.stepUp env userId code now ticket sessionId csrfToken
  | authenticate sessionId csrfToken ticket =>
    AdminSessionService.authenticate env sessionId csrfToken ticket
  | adminBlockUser adminId userId reason =>
    discard ((AdminService.blockUser adminId userId reason).embed basePart)
  | decideReport adminId reportId dto => (ReportsService.decide adminId reportId dto).embed basePart
  | deleteMe userId => discard ((UsersService.deleteMe userId).embed basePart)
  | finalizeEligibleAccountClosures =>
    UsersService.finalizeEligibleAccountClosures.embed basePart
  | tick ms => (Sosedi.tick ms).embed basePart

end AuthCall

/-- The programs that clients run. -/
def AuthCalls (env : AuthEnv) (p : Prog AuthSys Unit) : Prop := ∃ c : AuthCall, p = c.prog env

end Sosedi
