import Sosedi.Data.Keyspace
import Sosedi.Domain.Basics

/-!
# Sessions in Redis

The records behind refresh tokens, step-up tokens and administrator sessions, the tokens that
the service handed out, and the Redis commands on them.  `SessionEvent.apply` is the effect of
a command; a token is known to nobody before it is handed out.

The ghost fields follow a session through its tokens: a session has one current token until a
refresh takes it (`live`), then it belongs to that refresh (`held`) until the successor is
stored.
-/

namespace Sosedi

/-! ## Tokens -/

inductive UserStepUpPurpose where
  | dataExport
  deriving DecidableEq

/-- `exp` is in seconds. -/
structure AccessToken where
  sub : Id
  sessionVersion : Nat
  exp : Int
  deriving DecidableEq

structure RefreshToken where
  sub : Id
  sid : Id
  jti : Id
  sessionVersion : Nat
  exp : Int
  deriving DecidableEq

structure UserStepUpToken where
  sub : Id
  purpose : UserStepUpPurpose
  sessionVersion : Nat
  jti : Id
  exp : Int
  deriving DecidableEq

/-! ## Records -/

structure RefreshSessionRecord where
  userId : Id
  sessionId : Id
  currentJti : Id
  installationId : String
  createdAt : Time
  lastSeenAt : Time
  deriving DecidableEq

structure UserStepUpRecord where
  userId : Id
  purpose : UserStepUpPurpose
  sessionVersion : Nat
  deriving DecidableEq

structure StoredAdminSession where
  userId : Id
  sessionVersion : Nat
  csrfTokenHash : String
  deriving DecidableEq

/-! ## Ghost records -/

/-- Whose turn it is in a session: a stored token, a refresh that took the last token (`clean`
until a revocation gets in between), or nobody any more. -/
inductive ChainState where
  | live (jti : Id)
  | held (ticket : Id) (clean : Bool)
  | closed
  deriving DecidableEq

/-- What a revocation does: a refresh that holds the session loses its claim, a session whose
token is dead is closed. -/
def ChainState.revoked (dead : Id → Bool) : ChainState → ChainState
  | live jti => if dead jti then closed else live jti
  | held ticket _ => held ticket false
  | closed => closed

structure Chain where
  userId : Id
  state : ChainState
  deriving DecidableEq

/-- A refresh call that succeeded, with the token that it was made with. -/
structure Redemption where
  token : RefreshToken
  ticket : Id
  deriving DecidableEq

/-- A revocation that returned, and the calls that had started by then. -/
structure Revocation where
  userId : Id
  sid : Id
  started : List Id
  deriving DecidableEq

/-- A credential of this version was accepted by the call `ticket`. -/
structure CredentialUse where
  ticket : Id
  userId : Id
  sessionVersion : Nat
  deriving DecidableEq

/-! ## The store -/

structure SessionStore where
  /-- `auth:refresh:<jti>`. -/
  refresh : Table Id (Entry RefreshSessionRecord)
  /-- `auth:session:<userId>:<sessionId>`. -/
  session : Table (Id × Id) (Entry RefreshSessionRecord)
  /-- `auth:sessions:<userId>`. -/
  userSessions : Table Id (Entry (List Id))
  /-- `auth:user-step-up:<jti>`. -/
  userStepUp : Table Id (Entry UserStepUpRecord)
  /-- `auth:admin-session:<sessionId>`. -/
  adminSession : Table Id (Entry StoredAdminSession)
  /-- The tokens handed out. -/
  accessTokens : List AccessToken
  refreshTokens : List RefreshToken
  stepUpTokens : List UserStepUpToken
  /-- Ghost: the random identifiers drawn so far. -/
  drawn : List Id
  /-- Ghost: the refresh tokens whose key was ever set. -/
  minted : Table Id RefreshToken
  /-- Ghost: those whose session record was set, and whose session was added to the index. -/
  written : List Id
  indexed : List Id
  /-- Ghost: which call took a token. -/
  consumed : Table Id Id
  chains : Table Id Chain
  redeemed : List Redemption
  /-- Ghost: the sessions that some call set out to revoke, and those whose revocation returned. -/
  attempted : List (Id × Id)
  revoked : List Revocation
  accepted : List CredentialUse

/-- Nothing was stored yet. -/
def SessionStore.initial : SessionStore :=
  ⟨.empty, .empty, .empty, .empty, .empty, [], [], [], [], .empty, [], [], .empty, .empty, [], [],
    [], []⟩

/-- A Redis command on sessions, or a ghost step. -/
inductive SessionEvent where
  /-- A read, or a look at the clock. -/
  | read
  /-- A random identifier is drawn. -/
  | draw (id : Id)
  /-- SET of `auth:refresh:<jti>`; a refresh names its call. -/
  | setRefresh (token : RefreshToken) (record : RefreshSessionRecord) (holder : Option Id)
      (ttl : Nat)
  | setSession (record : RefreshSessionRecord) (ttl : Nat)
  /-- SADD. -/
  | indexSession (record : RefreshSessionRecord)
  | expireIndex (userId : Id) (ttl : Nat)
  /-- GETDEL of the key of a token. -/
  | redeem (token : RefreshToken) (ticket : Id)
  /-- The answer of a login or of a refresh. -/
  | handOut (access : AccessToken) (token : RefreshToken) (redeemed : Option Redemption)
  | deleteRefresh (jti : Id)
  /-- GET of the record that is to be revoked. -/
  | readSession (userId sid : Id)
  /-- DEL of the token of a session that is to be revoked. -/
  | revokeRefresh (userId sid jti : Id)
  | deleteSession (userId sid : Id)
  /-- SREM. -/
  | unindex (userId sid : Id)
  /-- A revocation returns. -/
  | revoked (userId sid : Id)
  /-- DEL of tokens, records and the index of a user. -/
  | deleteAll (userId : Id) (jtis sids : List Id)
  | setStepUp (jti : Id) (record : UserStepUpRecord) (ttl : Nat)
  | handOutStepUp (token : UserStepUpToken)
  /-- GETDEL. -/
  | takeStepUp (jti : Id)
  | setAdminSession (id : Id) (stored : StoredAdminSession) (ttl : Nat)
  | deleteAdminSession (id : Id)
  | accept (use : CredentialUse)

/-- When a key that is set now expires. -/
def expiry (now : Time) (ttl : Nat) : Time := now + ttl * 1000

namespace SessionStore

variable (s : SessionStore)

/-- The token of a session is the deleted one, or its record was set and its key is gone. -/
def dead (now : Time) (deleted : Option Id) (jti : Id) : Bool :=
  deleted == some jti || (s.written.contains jti && (s.refresh.read now jti).isNone)

/-- A revocation comes to the session if `comes`, and deletes the token `deleted` or none. -/
def touch (now : Time) (comes : Bool) (userId sid : Id) (deleted : Option Id) : SessionStore :=
  { s with
    attempted :=
      if comes ∧ (s.chains.get sid).any (·.userId == userId) then (userId, sid) :: s.attempted
      else s.attempted
    chains := s.chains.modify sid fun chain =>
      if comes ∧ chain.userId = userId then
        { chain with state := chain.state.revoked (s.dead now deleted) }
      else chain }

end SessionStore

/-- The effect of a command. -/
def SessionEvent.apply (now : Time) : SessionEvent → SessionStore → SessionStore
  | read, s => s
  | draw id, s => { s with drawn := id :: s.drawn }
  | setRefresh token record _ ttl, s =>
    { s with
      refresh := s.refresh.set token.jti record (expiry now ttl)
      minted := s.minted.put token.jti token
      chains := s.chains.put token.sid ⟨token.sub, .live token.jti⟩ }
  | setSession record ttl, s =>
    { s with
      session := s.session.set (record.userId, record.sessionId) record (expiry now ttl)
      written := record.currentJti :: s.written }
  | indexSession record, s =>
    { s with
      userSessions := match s.userSessions.read now record.userId with
        | some ids =>
          if record.sessionId ∈ ids then s.userSessions
          else s.userSessions.modify record.userId fun e => { e with
            value := ids ++ [record.sessionId] }
        | none => s.userSessions.put record.userId ⟨[record.sessionId], none⟩
      indexed := record.currentJti :: s.indexed }
  | expireIndex userId ttl, s =>
    { s with
      userSessions := match s.userSessions.read now userId with
        | some ids => s.userSessions.set userId ids (expiry now ttl)
        | none => s.userSessions }
  | redeem token ticket, s =>
    { s with
      refresh := s.refresh.erase token.jti
      consumed :=
        if (s.refresh.read now token.jti).isSome then s.consumed.put token.jti ticket
        else s.consumed
      chains := match s.refresh.read now token.jti with
        | some record => s.chains.put record.sessionId ⟨record.userId, .held ticket true⟩
        | none => s.chains }
  | handOut access token redeemed, s =>
    { s with
      accessTokens := access :: s.accessTokens
      refreshTokens := token :: s.refreshTokens
      redeemed := redeemed.toList ++ s.redeemed
      accepted := (redeemed.map fun r =>
        ⟨r.ticket, r.token.sub, r.token.sessionVersion⟩).toList ++ s.accepted }
  | deleteRefresh jti, s => { s with refresh := s.refresh.erase jti }
  | readSession userId sid, s =>
    s.touch now (!(s.session.read now (userId, sid)).any (·.userId == userId)) userId sid none
  | revokeRefresh userId sid jti, s =>
    { s.touch now true userId sid (some jti) with refresh := s.refresh.erase jti }
  | deleteSession userId sid, s => { s with session := s.session.erase (userId, sid) }
  | unindex userId sid, s =>
    { s with
      userSessions := match s.userSessions.read now userId with
        | some ids =>
          if ids.filter (· != sid) = [] then s.userSessions.erase userId
          else s.userSessions.modify userId fun e => { e with value := ids.filter (· != sid) }
        | none => s.userSessions }
  | revoked userId sid, s =>
    { s with
      revoked :=
        if (userId, sid) ∈ s.attempted then ⟨userId, sid, s.drawn⟩ :: s.revoked else s.revoked }
  | deleteAll userId jtis sids, s =>
    { s with
      refresh := s.refresh.eraseAll jtis
      session := s.session.eraseAll (sids.map fun sid => (userId, sid))
      userSessions := s.userSessions.erase userId }
  | setStepUp jti record ttl, s =>
    { s with userStepUp := s.userStepUp.set jti record (expiry now ttl) }
  | handOutStepUp token, s => { s with stepUpTokens := token :: s.stepUpTokens }
  | takeStepUp jti, s => { s with userStepUp := s.userStepUp.erase jti }
  | setAdminSession id stored ttl, s =>
    { s with adminSession := s.adminSession.set id stored (expiry now ttl) }
  | deleteAdminSession id, s => { s with adminSession := s.adminSession.erase id }
  | accept use, s => { s with accepted := use :: s.accepted }

end Sosedi
