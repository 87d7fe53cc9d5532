import Sosedi.Auth.AdminAuthService

/-!
# The contract of authentication

`AuthGuar` is one atomic step: what it does to users, second factors and Redis, and what
holds when it happens.  A client that holds the lock of a random identifier is the only one
that uses it.

`floor` is a parameter for statements about calls that start late: the versions of the users
when the call with a given ticket starts are at least `floor`.
-/

namespace Sosedi

open Transactions

abbrev AuthStore := AuthDatabase × AuthWorld

/-- Users stay, and their session versions do not decrease. -/
def UsersGrow (db db' : Database) : Prop :=
  ∀ u user, db.users.get u = some user →
    ∃ user', db'.users.get u = some user' ∧ user.sessionVersion ≤ user'.sessionVersion

/-- The user has at least this version. -/
def VersionLe (u : Id) (v : Nat) (σ : AuthStore) : Prop :=
  ∃ user, σ.1.base.users.get u = some user ∧ v ≤ user.sessionVersion

/-- The versions of all users are at least the floor of the call. -/
def AboveFloor (floor : Id → Id → Nat) (ticket : Id) (σ : AuthStore) : Prop :=
  ∀ u, floor ticket u = 0 ∨ VersionLe u (floor ticket u) σ

/-! ## Guards -/

/-- The record is that of the token. -/
structure RefreshToken.Records (token : RefreshToken) (record : RefreshSessionRecord) : Prop where
  sub : record.userId = token.sub
  sid : record.sessionId = token.sid
  jti : record.currentJti = token.jti

variable (floor : Id → Id → Nat) (K : List AuthKey) (a : AuthStore)

/-- What holds when a refresh call answers. -/
structure RedemptionGuard (r : Redemption) : Prop where
  key : .uuid r.ticket ∈ K
  consumed : a.2.sessions.consumed.get r.token.jti = some r.ticket
  token : r.token ∈ a.2.sessions.refreshTokens
  first : ∀ r' ∈ a.2.sessions.redeemed, r'.ticket ≠ r.ticket
  floor : floor r.ticket r.token.sub ≤ r.token.sessionVersion

def SessionEvent.Guard : SessionEvent → Prop
  | setRefresh token record holder _ =>
    .uuid token.jti ∈ K ∧ token.jti ∈ a.2.sessions.drawn ∧ token.sid ∈ a.2.sessions.drawn ∧
      a.2.sessions.minted.get token.jti = none ∧ token.Records record ∧
      VersionLe token.sub token.sessionVersion a ∧
      match holder with
      | none => .uuid token.sid ∈ K ∧ a.2.sessions.chains.get token.sid = none
      | some ticket => .uuid ticket ∈ K ∧
        ∃ clean, a.2.sessions.chains.get token.sid = some ⟨token.sub, .held ticket clean⟩
  | setSession record _ =>
    .uuid record.currentJti ∈ K ∧ ∃ token, token.Records record ∧
      a.2.sessions.minted.get token.jti = some token ∧
      a.2.sessions.chains.get token.sid = some ⟨token.sub, .live token.jti⟩
  | indexSession record =>
    .uuid record.currentJti ∈ K ∧ ∃ token, token.Records record ∧
      a.2.sessions.minted.get token.jti = some token
  | redeem token ticket =>
    token ∈ a.2.sessions.refreshTokens ∧ .uuid ticket ∈ K ∧ ticket ∈ a.2.sessions.drawn
  | handOut _ token redeemed =>
    a.2.sessions.minted.get token.jti = some token ∧ token.jti ∈ a.2.sessions.written ∧
      token.jti ∈ a.2.sessions.indexed ∧ ∀ r, redeemed = some r → RedemptionGuard floor K a r
  | revokeRefresh _ _ jti => jti ∈ a.2.sessions.written
  | accept use => floor use.ticket use.userId ≤ use.sessionVersion
  | _ => True

def OtpEvent.Guard : OtpEvent → Prop
  | setCode _ hash =>
    .uuid hash.salt ∈ K ∧ hash.salt ∈ a.2.sessions.drawn ∧
      ∀ phone, (phone, hash.salt) ∉ a.2.otp.issued
  | _ => True

def MfaEvent.Guard : MfaEvent → Prop
  | countAttempt _ ticket => .uuid ticket ∈ K ∧ ticket ∈ a.2.sessions.drawn
  | check _ life number ticket =>
    .uuid ticket ∈ K ∧ ticket ∈ a.2.sessions.drawn ∧ (life, number, ticket) ∈ a.2.mfa.admitted ∧
      number ≤ maxMfaAttempts ∧ ∀ c ∈ a.2.mfa.checks, c.ticket ≠ ticket
  | recordStepUp stepUp =>
    match stepUp.code with
    | .totp timeStep => ∃ credential, a.1.credentials.get stepUp.userId = some credential ∧
      (timeStep, some stepUp.ticket) ∈ credential.uses
    | .recovery codeHash => ∃ code, a.1.recoveryCodes.get codeHash = some code ∧
      code.userId = stepUp.userId ∧ code.usedAt.isSome ∧ code.usedBy = some stepUp.ticket
  | _ => True

def AuthEvent.Guard : AuthEvent → Prop
  | session ev => ev.Guard floor K a
  | otp ev => ev.Guard K a
  | mfa ev => ev.Guard K a
  | enableMfa userId credential codeHashes =>
    .credentialRow userId ∈ K ∧ a.1.credentials.get userId = none ∧
      credential.uses = [(credential.lastTotpStep, none)] ∧
      ∀ h ∈ codeHashes, .recoveryRow h ∈ K ∧ a.1.recoveryCodes.get h = none
  | useTotp userId timeStep _ =>
    .credentialRow userId ∈ K ∧ ∃ credential, a.1.credentials.get userId = some credential ∧
      credential.lastTotpStep < timeStep
  | useRecoveryCode userId codeHash _ _ =>
    .recoveryRow codeHash ∈ K ∧ ∃ code, a.1.recoveryCodes.get codeHash = some code ∧
      AdminMfaService.isUnused userId code = true
  | _ => True

/-- The identifiers to which the step refers for the first time. -/
def AuthEvent.introduces : AuthEvent → List Id
  | session (.setRefresh token _ none _) => [token.jti, token.sid]
  | session (.setRefresh token _ (some _) _) => [token.jti]
  | session (.handOut _ _ (some r)) => [r.ticket]
  | otp (.setCode _ hash) => [hash.salt]
  | mfa (.check _ _ _ ticket) => [ticket]
  | _ => []

/-! ## Steps -/

def AuthEvent.applyCredentials : AuthEvent → Table Id MfaCredential → Table Id MfaCredential
  | enableMfa userId credential _, t => t.insert userId credential
  | useTotp userId timeStep ticket, t =>
    t.modify userId (AdminMfaService.useTimeStep timeStep ticket)
  | _, t => t

def AuthEvent.applyRecoveryCodes :
    AuthEvent → Table String RecoveryCode → Table String RecoveryCode
  | enableMfa userId _ codeHashes, t =>
    codeHashes.foldl (fun t h => t.insert h ⟨userId, none, none⟩) t
  | useRecoveryCode _ codeHash usedAt ticket, t =>
    t.modify codeHash ({ · with usedAt := some usedAt, usedBy := some ticket })
  | _, t => t

/-- One atomic step of authentication. -/
structure AuthGuar (ev : AuthEvent) (K : List AuthKey) (a b : AuthStore) : Prop where
  users : UsersGrow a.1.base b.1.base
  credentials : b.1.credentials = ev.applyCredentials a.1.credentials
  recoveryCodes : b.1.recoveryCodes = ev.applyRecoveryCodes a.1.recoveryCodes
  now : a.2.base.now ≤ b.2.base.now
  sessions : b.2.sessions = (ev.applyWorld a.2).sessions
  otp : b.2.otp = (ev.applyWorld a.2).otp
  mfa : b.2.mfa = (ev.applyWorld a.2).mfa
  guard : ev.Guard floor K a

/-! ## The invariant -/

/-- Nothing refers to the identifier. -/
structure Unused (id : Id) (σ : AuthStore) : Prop where
  minted : σ.2.sessions.minted.get id = none
  chains : σ.2.sessions.chains.get id = none
  redeemed : ∀ r ∈ σ.2.sessions.redeemed, r.ticket ≠ id
  issued : ∀ phone, (phone, id) ∉ σ.2.otp.issued
  checks : ∀ c ∈ σ.2.mfa.checks, c.ticket ≠ id

structure AuthInv (σ : AuthStore) : Prop where
  unused : ∀ id, id ∉ σ.2.sessions.drawn → Unused id σ
  minted : ∀ jti token, σ.2.sessions.minted.get jti = some token →
    token.jti = jti ∧ VersionLe token.sub token.sessionVersion σ
  chains : ∀ jti token, σ.2.sessions.minted.get jti = some token →
    ∃ state, σ.2.sessions.chains.get token.sid = some ⟨token.sub, state⟩
  refresh : ∀ jti e, σ.2.sessions.refresh.get jti = some e →
    σ.2.sessions.consumed.get jti = none ∧
      ∃ token, σ.2.sessions.minted.get jti = some token ∧ token.Records e.value
  /-- A token that can be redeemed is the current one of its session. -/
  live : ∀ jti record, σ.2.sessions.refresh.read σ.2.base.now jti = some record →
    σ.2.sessions.chains.get record.sessionId = some ⟨record.userId, .live jti⟩
  consumed : ∀ jti ticket, σ.2.sessions.consumed.get jti = some ticket →
    (σ.2.sessions.minted.get jti).isSome ∧ ticket ∈ σ.2.sessions.drawn
  written : ∀ jti ∈ σ.2.sessions.written, (σ.2.sessions.minted.get jti).isSome
  indexed : ∀ jti ∈ σ.2.sessions.indexed, (σ.2.sessions.minted.get jti).isSome
  session : ∀ k e, σ.2.sessions.session.get k = some e →
    k = (e.value.userId, e.value.sessionId) ∧ e.value.currentJti ∈ σ.2.sessions.written
  handedOut : ∀ token ∈ σ.2.sessions.refreshTokens,
    σ.2.sessions.minted.get token.jti = some token ∧ token.jti ∈ σ.2.sessions.written ∧
      token.jti ∈ σ.2.sessions.indexed
  redeemed : ∀ r ∈ σ.2.sessions.redeemed,
    σ.2.sessions.consumed.get r.token.jti = some r.ticket ∧ r.token ∈ σ.2.sessions.refreshTokens

/-- The contract of authentication in the runs whose events satisfy `ok`; calls start above
their floors. -/
def authContract (ok : AuthEvent → AuthStore → Prop) : Contract AuthSys where
  inv := AuthInv
  ok ev σ := ok ev σ ∧ ∀ id, ev = .session (.draw id) → AboveFloor floor id σ
  guar := AuthGuar floor

end Sosedi
