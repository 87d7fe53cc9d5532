import Sosedi.Auth.AuthSystem

/-!
# Authentication

`AuthService` and `JwtAuthGuard`.  A call draws a `ticket`, which names it in ghost records.
-/

namespace Sosedi

open Transactions

namespace AuthService

structure AuthTokensResponse where
  accessToken : AccessToken
  refreshToken : RefreshToken

structure UserSessionResponse where
  sessionId : Id
  installationId : String
  createdAt : Time
  lastSeenAt : Time
  isCurrent : Bool
  deriving DecidableEq

def ensureUserCanLogin (user : User) : Except Error Unit := do
  ensure user.deletedAt.isNone (.unauthorized "Пользователь не найден")
  ensure (!user.isBlocked) (.forbidden "Пользователь заблокирован")

/-! ## One-time codes -/

def ensureOtpNotBlocked (phone : String) : Prog AuthSys Unit := do
  let blocked ← onOtp .read fun now s => s.block.read now phone
  lift (ensure blocked.isNone (.tooManyRequests "Ввод кода заблокирован на 30 минут"))

def incrWithExpire (key : String) (ttlSeconds : Nat) : Prog AuthSys Nat :=
  onOtp (.countSend key ttlSeconds) fun now s => s.send.next now key

structure OtpRequestContext where
  installationId : String
  ipAddress : String

/-- `smsFails`: the SMS provider rejects the message. -/
def requestOtp (env : AuthEnv) (rawPhone : String) (context : OtpRequestContext) (code : String)
    (salt : Id) (smsFails : Bool) : Prog AuthSys Unit := do
  let phone ← lift (normalizeRussianPhone rawPhone)
  ensureOtpNotBlocked phone
  let sendCount ← incrWithExpire ("auth:otp:send:" ++ phone) otpRateWindowSeconds
  let deviceCount ← incrWithExpire ("auth:otp:send:device:" ++ env.sha256 context.installationId)
    otpRateWindowSeconds
  let ipCount ← incrWithExpire ("auth:otp:send:ip:" ++ env.sha256 context.ipAddress)
    otpRateWindowSeconds
  lift (ensure (sendCount ≤ otpRateLimit)
    (.tooManyRequests "Можно запросить не больше 3 кодов за 10 минут"))
  let deviceLimit ← lift (getPositiveIntegerConfig "OTP_DEVICE_RATE_LIMIT" env.otpDeviceRateLimit 6)
  let ipLimit ← lift (getPositiveIntegerConfig "OTP_IP_RATE_LIMIT" env.otpIpRateLimit 60)
  lift (ensure ((deviceCount : Int) ≤ deviceLimit && (ipCount : Int) ≤ ipLimit)
    (.tooManyRequests "Слишком много запросов OTP. Повторите позже"))
  let globalCount ← incrWithExpire "auth:otp:send:global" otpGlobalRateWindowSeconds
  let globalLimit ← lift
    (getPositiveIntegerConfig "OTP_GLOBAL_RATE_LIMIT" env.otpGlobalRateLimit 1000)
  lift (ensure ((globalCount : Int) ≤ globalLimit)
    (.tooManyRequests "Временно невозможно отправить код. Повторите позже"))
  randomUUID salt
  let codeHash : OtpHash := ⟨salt, env.bcryptDigest code salt⟩
  runOtp (.setCode phone codeHash)
  when smsFails do
    runOtp (.withdraw phone codeHash)
    throwing (.internal "sms")

def registerOtpFailure (phone : String) (ticket : Id) : Prog AuthSys Unit := do
  let failCount ← onOtp (.countFailure phone ticket) fun now s => s.fail.next now phone
  if otpFailLimit ≤ failCount then do
    runOtp (.setBlock phone)
    runOtp (.dropCode phone)
    throwing (.tooManyRequests "Слишком много неверных кодов. Повторите через 30 минут")
  else throwing (.unauthorized "Неверный код")

def verifyAndConsumeOtp (env : AuthEnv) (phone code : String) (ticket : Id) :
    Prog AuthSys Unit := do
  ensureOtpNotBlocked phone
  let codeHash ← onOtp .read fun now s => s.code.read now phone
  match codeHash with
  | none => registerOtpFailure phone ticket
  | some codeHash =>
    let matched := env.bcryptDigest code codeHash.salt == codeHash.digest
    runOtp (.compare phone ticket matched)
    if matched then do
      let consumed ← onOtp (.consume phone codeHash ticket) fun now s =>
        s.code.read now phone == some codeHash
      lift (ensure consumed (.unauthorized "Неверный код"))
      runOtp (.resetFailures phone)
    else registerOtpFailure phone ticket

/-! ## Sessions -/

/-- The session that a refresh goes on with. -/
structure IssueContext where
  installationId : String
  sessionId : Option Id
  createdAt : Option Time

/-- `issueTokens` once the identifiers are drawn. -/
def storeTokens (userId : Id) (user : User) (context : IssueContext) (refreshJti sessionId : Id)
    (accessTtlSeconds refreshTtlSeconds : Nat) (redeemed : Option Redemption) :
    Prog AuthSys AuthTokensResponse := do
  let now ← authClock
  let accessToken : AccessToken :=
    ⟨userId, user.sessionVersion, epochSeconds now + accessTtlSeconds⟩
  let refreshToken : RefreshToken :=
    ⟨userId, sessionId, refreshJti, user.sessionVersion, epochSeconds now + refreshTtlSeconds⟩
  let session : RefreshSessionRecord :=
    ⟨userId, sessionId, refreshJti, context.installationId, context.createdAt.getD now, now⟩
  lift (ensure (0 < refreshTtlSeconds) (.internal "ERR invalid expire time in 'set' command"))
  runSessions (.setRefresh refreshToken session (redeemed.map (·.ticket)) refreshTtlSeconds)
  runSessions (.setSession session refreshTtlSeconds)
  runSessions (.indexSession session)
  runSessions (.expireIndex userId refreshTtlSeconds)
  runSessions (.handOut accessToken refreshToken redeemed)
  pure ⟨accessToken, refreshToken⟩

def issueTokens (env : AuthEnv) (userId : Id) (user : User) (context : IssueContext)
    (refreshJti newSid : Id) (redeemed : Option Redemption) :
    Prog AuthSys AuthTokensResponse := do
  lift (getRequiredConfig "JWT_ACCESS_SECRET" env.jwtAccessSecret)
  lift (getRequiredConfig "JWT_REFRESH_SECRET" env.jwtRefreshSecret)
  let accessTtlSeconds ← lift (parseDurationToSeconds (env.jwtAccessExpiresIn.getD "15m"))
  let refreshTtlSeconds ← lift (parseDurationToSeconds (env.jwtRefreshExpiresIn.getD "30d"))
  randomUUID refreshJti
  let sessionId ← match context.sessionId with
    | some sessionId => pure sessionId
    | none => do
      randomUUID newSid
      pure newSid
  storeTokens userId user context refreshJti sessionId accessTtlSeconds refreshTtlSeconds redeemed

/-- A row for the phone, unless there is one. -/
def newUser (phone : String) : User where
  phone
  name := none
  city := none
  avatarUrl := none
  role := .user
  adminCapabilities := []
  isBlocked := false
  sessionVersion := 0
  deletedAt := none
  anonymizedAt := none

def userOfPhone (phone : String) (db : AuthDatabase) : Option (Id × User) :=
  db.base.users.rows.find? fun r => r.2.phone == phone

/-- `user.upsert`. -/
def upsertUser (phone : String) (newId : Id) : Prog AuthSys (Id × User) := do
  insertMissing (.userPhone phone) (fun db => (userOfPhone phone db).isSome) fun db =>
    { db with base := { db.base with users := db.base.users.insert newId (newUser phone) } }
  commit (.upsertUser newId phone)
  let found ← select (userOfPhone phone)
  lift (required found (.internal "upsert"))

def verifyOtp (env : AuthEnv) (rawPhone code installationId : String)
    (ticket newUserId refreshJti newSid : Id) : Prog AuthSys AuthTokensResponse := do
  randomUUID ticket
  let phone ← lift (normalizeRussianPhone rawPhone)
  verifyAndConsumeOtp env phone code ticket
  let user ← upsertUser phone newUserId
  lift (ensureUserCanLogin user.2)
  issueTokens env user.1 user.2 ⟨installationId, none, none⟩ refreshJti newSid none

/-- The signature is that of a token handed out, and the token has not expired. -/
def verifyRefreshToken (env : AuthEnv) (token : RefreshToken) : Prog AuthSys Bool := do
  lift (getRequiredConfig "JWT_REFRESH_SECRET" env.jwtRefreshSecret)
  onSessions .read fun now s => s.refreshTokens.contains token && epochSeconds now < token.exp

def revokeSession (userId sessionId : Id) : Prog AuthSys Unit := do
  let session ← onSessions (.readSession userId sessionId) fun now s =>
    (s.session.read now (userId, sessionId)).filter (·.userId == userId)
  match session with
  | none => pure ()
  | some session => do
    runSessions (.revokeRefresh userId sessionId session.currentJti)
    runSessions (.deleteSession userId sessionId)
    runSessions (.unindex userId sessionId)
  runSessions (.revoked userId sessionId)

def refresh (env : AuthEnv) (token : RefreshToken) (ticket refreshJti newSid : Id) :
    Prog AuthSys AuthTokensResponse := do
  randomUUID ticket
  let valid ← verifyRefreshToken env token
  lift (ensure valid (.unauthorized "Недействительный refresh токен"))
  let stored ← onSessions (.redeem token ticket) fun now s => s.refresh.read now token.jti
  match stored.filter (·.userId == token.sub) with
  | none => do
    revokeSession token.sub token.sid
    throwing (.unauthorized "Refresh токен отозван")
  | some storedSession => do
    let user ← select fun db => db.base.users.get token.sub
    match user with
    | none => do
      runSessions (.deleteRefresh token.jti)
      throwing (.unauthorized "Пользователь не найден")
    | some user => do
      lift (ensure (token.sessionVersion == user.sessionVersion) (.unauthorized "Сессия отозвана"))
      lift (ensureUserCanLogin user)
      issueTokens env token.sub user
        ⟨storedSession.installationId, some storedSession.sessionId, some storedSession.createdAt⟩
        refreshJti newSid (some ⟨token, ticket⟩)

def logout (env : AuthEnv) (token : RefreshToken) : Prog AuthSys Unit := do
  let valid ← verifyRefreshToken env token
  when valid do
    let session ← onSessions .read fun now s => s.refresh.read now token.jti
    runSessions (.revokeRefresh token.sub token.sid token.jti)
    match session with
    | some session => do
      runSessions (.deleteSession session.userId session.sessionId)
      runSessions (.unindex session.userId session.sessionId)
    | none => pure ()
    runSessions (.revoked token.sub token.sid)

def smembers (userId : Id) : Prog AuthSys (List Id) :=
  onSessions .read fun now s => (s.userSessions.read now userId).getD []

/-- The loop of `listSessions`. -/
def collectSessions (userId : Id) (currentInstallationId : String) :
    List Id → Prog AuthSys (List UserSessionResponse)
  | [] => pure []
  | sessionId :: rest => do
    let session ← onSessions .read fun now s =>
      (s.session.read now (userId, sessionId)).filter (·.userId == userId)
    match session with
    | none => do
      runSessions (.unindex userId sessionId)
      collectSessions userId currentInstallationId rest
    | some session => do
      let sessions ← collectSessions userId currentInstallationId rest
      pure (⟨session.sessionId, session.installationId, session.createdAt, session.lastSeenAt,
        session.installationId == currentInstallationId⟩ :: sessions)

def listSessions (userId : Id) (currentInstallationId : String) :
    Prog AuthSys (List UserSessionResponse) := do
  let sessionIds ← smembers userId
  let sessions ← collectSessions userId currentInstallationId sessionIds
  pure (sessions.mergeSort fun left right => right.lastSeenAt ≤ left.lastSeenAt)

/-- The loop of `revokeAllSessions`: the current tokens of the sessions. -/
def currentTokens (userId : Id) : List Id → Prog AuthSys (List Id)
  | [] => pure []
  | sessionId :: rest => do
    let session ← onSessions .read fun now s =>
      (s.session.read now (userId, sessionId)).filter (·.userId == userId)
    let jtis ← currentTokens userId rest
    pure ((session.map (·.currentJti)).toList ++ jtis)

def bumpVersion (user : User) : User := { user with sessionVersion := user.sessionVersion + 1 }

def revokeAllSessions (userId : Id) : Prog AuthSys Unit := do
  let sessionIds ← smembers userId
  let jtis ← currentTokens userId sessionIds
  let updated ← updateWhere (.base (.userRow userId))
    (fun db => (db.base.users.get userId).isSome) fun db =>
      { db with base := UsersService.updateUser userId bumpVersion db.base }
  lift (ensure updated (.internal "Record to update not found"))
  commit (.bumpVersion userId)
  runSessions (.deleteAll userId jtis sessionIds)

/-! ## Step-up tokens -/

def verifyUserStepUpOtp (env : AuthEnv) (userId : Id) (phone code : String)
    (purpose : UserStepUpPurpose) (ticket jti : Id) : Prog AuthSys UserStepUpToken := do
  randomUUID ticket
  verifyAndConsumeOtp env phone code ticket
  let user ← select fun db => db.base.users.get userId
  let user ← lift (required (user.filter fun user => user.phone == phone && user.active)
    (.unauthorized "Пользователь недоступен"))
  randomUUID jti
  lift (getRequiredConfig "JWT_ACCESS_SECRET" env.jwtAccessSecret)
  let now ← authClock
  let token : UserStepUpToken :=
    ⟨userId, purpose, user.sessionVersion, jti, epochSeconds now + 5 * 60⟩
  runSessions (.setStepUp jti ⟨userId, purpose, user.sessionVersion⟩ (5 * 60))
  runSessions (.handOutStepUp token)
  pure token

def stepUpRequired : Error :=
  ⟨.unauthorized, some "STEP_UP_REQUIRED", "Требуется повторное подтверждение по SMS"⟩

def consumeUserStepUpToken (env : AuthEnv) (token : UserStepUpToken) (userId : Id)
    (purpose : UserStepUpPurpose) (ticket : Id) : Prog AuthSys Unit := do
  randomUUID ticket
  lift (getRequiredConfig "JWT_ACCESS_SECRET" env.jwtAccessSecret)
  let valid ← onSessions .read fun now s =>
    s.stepUpTokens.contains token && epochSeconds now < token.exp
  lift (ensure (valid && token.purpose == purpose && token.sub == userId) stepUpRequired)
  let user ← select fun db => db.base.users.get userId
  let stored ← onSessions (.takeStepUp token.jti) fun now s => s.userStepUp.read now token.jti
  lift (ensure (user.any fun user =>
    user.active && user.sessionVersion == token.sessionVersion) stepUpRequired)
  lift (ensure (stored == some ⟨userId, purpose, token.sessionVersion⟩) stepUpRequired)
  runSessions (.accept ⟨ticket, userId, token.sessionVersion⟩)

end AuthService

/-! ## The guard of the API -/

def JwtAuthGuard.canActivate (env : AuthEnv) (token : AccessToken) (ticket : Id) :
    Prog AuthSys Unit := do
  randomUUID ticket
  lift (ensure (env.jwtAccessSecret.any (· != "")) (.internal "Не настроен JWT access secret"))
  let valid ← onSessions .read fun now s =>
    s.accessTokens.contains token && epochSeconds now < token.exp
  lift (ensure valid (.unauthorized "Недействительный access токен"))
  let user ← select fun db => db.base.users.get token.sub
  let user ← lift (required (user.filter (·.deletedAt.isNone))
    (.unauthorized "Пользователь не найден"))
  lift (ensure (token.sessionVersion == user.sessionVersion) (.unauthorized "Сессия отозвана"))
  lift (ensure (!user.isBlocked) (.forbidden "Пользователь заблокирован"))
  runSessions (.accept ⟨ticket, token.sub, token.sessionVersion⟩)

end Sosedi
