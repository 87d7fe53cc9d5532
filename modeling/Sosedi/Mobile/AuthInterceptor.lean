import Mathlib.Logic.Function.Basic
import Sosedi.Async.EventLoop
import Sosedi.Mobile.Riverpod

/-!
# The token refresh of the mobile client

A request that fails with 401 is retried with the stored access token, if it was sent with an
older one, or else after a refresh that all such requests share.  Logout and login write the same
storage.

Proved here:

* `handlerStep_of_resume`, `refreshStep_of_resume`, `logoutStep_of_resume`, `loginStep_of_resume`:
  what one step of each party does.
-/

namespace Sosedi

open Async

namespace Mobile

/-- Tokens are named by numbers: the server issues a new one each time. -/
abbrev Token := Nat

structure Tokens where
  accessToken : Token
  refreshToken : Token
  deriving DecidableEq

/-- The `Authorization` header of a request. -/
inductive Authorization where
  | bearer (token : Token)
  | other
  deriving DecidableEq

/-- What `onError` reads of an error. -/
structure RequestError where
  path : String
  statusCode : Option Nat
  authorization : Option Authorization
  authRetry : Bool := false
  skipAuthRefresh : Bool := false
  deriving DecidableEq

/-- A refresh: its number; and, not in the source, how often tokens had been cleared by a logout
and written by a login when it was started. -/
structure RefreshRun where
  number : Nat
  logouts : Nat
  logins : Nat
  deriving DecidableEq

inductive RefreshResult where
  | succeeded (tokens : Tokens)
  | rejected
  | failed
  /-- The future completes with an exception. -/
  | thrown
  deriving DecidableEq

structure ApiClient where
  accessToken : Option Token
  refreshToken : Option Token
  refreshFuture : Option RefreshRun := none
  results : RefreshRun → Option RefreshResult := fun _ => none
  /-- The names that the server has not used yet. -/
  nextToken : Nat
  /-- Requests that have failed, refreshes that have been started. -/
  requests : Nat := 0
  refreshes : Nat := 0
  /-- Not in the source: the requests whose handler is completed, those that were retried, the
  refresh tokens that have been stored, those whose rotation was answered, and how often a logout
  has cleared the tokens and a login has written them. -/
  completed : List Nat := []
  retried : List Nat := []
  written : List Token := []
  rotated : List Token := []
  logouts : Nat := 0
  logins : Nat := 0

inductive ApiCall where
  | onError (error : RequestError)
  | logout
  | verifyOtp
  deriving DecidableEq

/-- Where an `onError` is suspended. -/
inductive HandlerWait where
  | readAccess (authorization : Option Authorization)
  | retry (accessToken : Token)
  | refreshed (run : RefreshRun)
  | clearAccess (run : RefreshRun)
  | clearRefresh (run : RefreshRun)
  deriving DecidableEq

/-- Where `_doRefreshTokens` is suspended. -/
inductive RefreshWait where
  | readRefresh
  | clientHeaders (refreshToken : Token)
  | post (refreshToken : Token)
  | saveAccess (tokens : Tokens)
  | saveRefresh (tokens : Tokens)
  | whenComplete
  deriving DecidableEq

/-- Where `AuthService.logout` is suspended. -/
inductive LogoutWait where
  | readRefresh
  | post
  | clearAccess
  | clearRefresh
  deriving DecidableEq

/-- Where `AuthService.verifyOtp` is suspended. -/
inductive LoginWait where
  | post
  | saveAccess (tokens : Tokens)
  | saveRefresh (tokens : Tokens)
  deriving DecidableEq

inductive ApiWait where
  | handler (request : Nat) (w : HandlerWait)
  | refresh (run : RefreshRun) (w : RefreshWait)
  | logout (w : LogoutWait)
  | login (w : LoginWait)
  deriving DecidableEq

inductive ApiAnswer where
  | done
  | status (code : Nat)
  /-- A successful answer without the tokens it should have. -/
  | malformed
  | failed
  deriving DecidableEq

def shouldRefresh (error : RequestError) : Bool :=
  error.statusCode = some 401 && !(error.authRetry || error.skipAuthRefresh) &&
    !"/auth/otp".isPrefixOf error.path && error.path ≠ "/auth/refresh" &&
    error.path ≠ "/auth/logout"

def usedStaleAccessToken (authorization : Option Authorization)
    (currentAccessToken : Option Token) : Bool :=
  match currentAccessToken, authorization with
  | some current, some (.bearer token) => token ≠ current
  | _, _ => false

namespace ApiClient

variable (c : ApiClient)

/-! ## The interceptor -/

/-- The handler of a request is completed: with a response, or with an error. -/
def complete (request : Nat) : ApiClient × List ApiWait :=
  ({ c with completed := request :: c.completed }, [])

def retry (request : Nat) (accessToken : Token) : ApiClient × List ApiWait :=
  ({ c with retried := request :: c.retried }, [.handler request (.retry accessToken)])

def refreshTokens (request : Nat) : ApiClient × List ApiWait :=
  match c.refreshFuture with
  | some run => (c, [.handler request (.refreshed run)])
  | none =>
    let run : RefreshRun := ⟨c.refreshes, c.logouts, c.logins⟩
    ({ c with refreshFuture := some run, refreshes := c.refreshes + 1 },
      [.refresh run .readRefresh, .handler request (.refreshed run)])

def onError (error : RequestError) : ApiClient × List ApiWait :=
  let c' := { c with requests := c.requests + 1 }
  if shouldRefresh error then (c', [.handler c.requests (.readAccess error.authorization)])
  else complete c' c.requests

/-- `onError` from where it has read the access token. -/
def accessRead (request : Nat) (authorization : Option Authorization) :
    ApiClient × List ApiWait :=
  match c.accessToken with
  | some current =>
    if usedStaleAccessToken authorization (some current) then retry c request current
    else refreshTokens c request
  | none => refreshTokens c request

/-- `onError` from the result of the refresh on. -/
def afterRefresh (request : Nat) (run : RefreshRun) (result : RefreshResult) :
    ApiClient × List ApiWait :=
  match result with
  | .succeeded tokens => retry c request tokens.accessToken
  | .rejected => (c, [.handler request (.clearAccess run)])
  | .failed => complete c request
  | .thrown => complete c request

def resumeHandler (request : Nat) (w : HandlerWait) (a : ApiAnswer) :
    Option (ApiClient × List ApiWait) :=
  match w, a with
  | .readAccess authorization, .done => some (accessRead c request authorization)
  | .readAccess _, .failed => some (complete c request)
  | .retry _, _ => some (complete c request)
  | .refreshed run, .done =>
    if c.refreshFuture = some run then none
    else (c.results run).map (afterRefresh c request run)
  | .clearAccess run, .done =>
    some ({ c with accessToken := none }, [.handler request (.clearRefresh run)])
  | .clearAccess _, .failed => some (complete c request)
  | .clearRefresh _, .done => some (complete { c with refreshToken := none } request)
  | .clearRefresh _, .failed => some (complete c request)
  | _, _ => none

/-! ## The refresh -/

/-- The body of `_doRefreshTokens` is over. -/
def finish (run : RefreshRun) (result : RefreshResult) : ApiClient × List ApiWait :=
  ({ c with results := Function.update c.results run (some result) },
    [.refresh run .whenComplete])

/-- `_doRefreshTokens` from the answer of `/auth/refresh` on. -/
def posted (run : RefreshRun) (refreshToken : Token) (a : ApiAnswer) : ApiClient × List ApiWait :=
  match a with
  | .done =>
    ({ c with nextToken := c.nextToken + 2, rotated := refreshToken :: c.rotated },
      [.refresh run (.saveAccess ⟨c.nextToken, c.nextToken + 1⟩)])
  | .status code => if code ∈ [400, 401, 403] then finish c run .rejected else finish c run .failed
  | .malformed => finish c run .failed
  | .failed => finish c run .failed

def resumeRefresh (run : RefreshRun) (w : RefreshWait) (a : ApiAnswer) :
    Option (ApiClient × List ApiWait) :=
  match w, a with
  | .readRefresh, .done =>
    match c.refreshToken with
    | none => some (finish c run .rejected)
    | some refreshToken => some (c, [.refresh run (.clientHeaders refreshToken)])
  | .readRefresh, .failed => some (finish c run .thrown)
  | .clientHeaders refreshToken, .done => some (c, [.refresh run (.post refreshToken)])
  | .clientHeaders _, .failed => some (finish c run .thrown)
  | .post refreshToken, a => some (posted c run refreshToken a)
  | .saveAccess tokens, .done =>
    some ({ c with accessToken := some tokens.accessToken }, [.refresh run (.saveRefresh tokens)])
  | .saveAccess _, .failed => some (finish c run .rejected)
  | .saveRefresh tokens, .done =>
    some (finish { c with
      refreshToken := some tokens.refreshToken
      written := tokens.refreshToken :: c.written } run (.succeeded tokens))
  | .saveRefresh _, .failed => some (finish c run .rejected)
  | .whenComplete, .done => some ({ c with refreshFuture := none }, [])
  | _, _ => none

/-! ## Logout and login -/

def resumeLogout (w : LogoutWait) (a : ApiAnswer) : Option (ApiClient × List ApiWait) :=
  match w, a with
  | .readRefresh, .done =>
    match c.refreshToken with
    | some _ => some (c, [.logout .post])
    | none => some (c, [.logout .clearAccess])
  | .readRefresh, .failed => some (c, [.logout .clearAccess])
  | .post, _ => some (c, [.logout .clearAccess])
  | .clearAccess, .done => some ({ c with accessToken := none }, [.logout .clearRefresh])
  | .clearAccess, .failed => some (c, [])
  | .clearRefresh, .done => some ({ c with refreshToken := none, logouts := c.logouts + 1 }, [])
  | .clearRefresh, .failed => some (c, [])
  | _, _ => none

def resumeLogin (w : LoginWait) (a : ApiAnswer) : Option (ApiClient × List ApiWait) :=
  match w, a with
  | .post, .done =>
    some ({ c with nextToken := c.nextToken + 2 },
      [.login (.saveAccess ⟨c.nextToken, c.nextToken + 1⟩)])
  | .post, _ => some (c, [])
  | .saveAccess tokens, .done =>
    some ({ c with accessToken := some tokens.accessToken, logins := c.logins + 1 },
      [.login (.saveRefresh tokens)])
  | .saveAccess _, .failed => some (c, [])
  | .saveRefresh tokens, .done =>
    some ({ c with
      refreshToken := some tokens.refreshToken
      written := tokens.refreshToken :: c.written
      logins := c.logins + 1 }, [])
  | .saveRefresh _, .failed => some (c, [])
  | _, _ => none

def call (k : ApiCall) : ApiClient × List ApiWait :=
  match k with
  | .onError error => onError c error
  | .logout => (c, [.logout .readRefresh])
  | .verifyOtp => (c, [.login .post])

def resume (w : ApiWait) (a : ApiAnswer) : Option (ApiClient × List ApiWait) :=
  match w with
  | .handler request w => resumeHandler c request w a
  | .refresh run w => resumeRefresh c run w a
  | .logout w => resumeLogout c w a
  | .login w => resumeLogin c w a

end ApiClient

def apiLoop : Loop ApiClient ApiCall ApiWait ApiAnswer where
  call := fun k c => c.call k
  resume := fun w a c => c.resume w a

/-- The client at its start, with the tokens that the storage holds. -/
def apiStart (access refresh : Bool) : Config ApiClient ApiWait :=
  ⟨{ accessToken := if access then some 0 else none
     refreshToken := if refresh then some 1 else none
     nextToken := 2
     written := if refresh then [1] else [] }, []⟩

abbrev ApiEvent := Event ApiCall ApiWait ApiAnswer

/-- The request whose handler a suspended `onError` will complete. -/
def ApiWait.request : ApiWait → Option Nat
  | handler request _ => some request
  | _ => none

/-- The refresh whose future is not complete. -/
def ApiWait.run : ApiWait → Option RefreshRun
  | refresh run _ => some run
  | _ => none

/-- The token that a call of `/auth/refresh` presents. -/
def ApiWait.presented : ApiWait → Option Token
  | refresh _ (.post refreshToken) => some refreshToken
  | _ => none

/-- A refresh about to write tokens. -/
def ApiWait.saving : ApiWait → Option RefreshRun
  | refresh run (.saveAccess _) => some run
  | refresh run (.saveRefresh _) => some run
  | _ => none

/-- A refresh token about to be stored. -/
def ApiWait.pending : ApiWait → Option Token
  | refresh _ (.saveAccess tokens) => some tokens.refreshToken
  | refresh _ (.saveRefresh tokens) => some tokens.refreshToken
  | login (.saveAccess tokens) => some tokens.refreshToken
  | login (.saveRefresh tokens) => some tokens.refreshToken
  | _ => none

/-- A rejected refresh about to clear the tokens. -/
def ApiWait.clearing : ApiWait → Option RefreshRun
  | handler _ (.clearAccess run) => some run
  | handler _ (.clearRefresh run) => some run
  | _ => none

section Steps

/-- What one step of an `onError` does. -/
inductive HandlerStep (c : ApiClient) (request : Nat) (w : HandlerWait) :
    ApiClient → List ApiWait → Prop
  | completed (refreshToken : Option Token)
      (h : refreshToken = c.refreshToken ∨ refreshToken = none ∧ ∃ run, w = .clearRefresh run) :
      HandlerStep c request w
        { c with refreshToken := refreshToken, completed := request :: c.completed } []
  | retried (accessToken : Token) (h : ∀ t, w ≠ .retry t) :
      HandlerStep c request w { c with retried := request :: c.retried }
        [.handler request (.retry accessToken)]
  | joined (run : RefreshRun) (h : ∀ t, w ≠ .retry t) (hf : c.refreshFuture = some run) :
      HandlerStep c request w c [.handler request (.refreshed run)]
  | launched (h : ∀ t, w ≠ .retry t) (hf : c.refreshFuture = none) :
      HandlerStep c request w
        { c with
          refreshFuture := some ⟨c.refreshes, c.logouts, c.logins⟩
          refreshes := c.refreshes + 1 }
        [.refresh ⟨c.refreshes, c.logouts, c.logins⟩ .readRefresh,
          .handler request (.refreshed ⟨c.refreshes, c.logouts, c.logins⟩)]
  | rejected (run : RefreshRun) (h : w = .refreshed run) (hr : c.results run = some .rejected) :
      HandlerStep c request w c [.handler request (.clearAccess run)]
  | cleared (run : RefreshRun) (h : w = .clearAccess run) :
      HandlerStep c request w { c with accessToken := none }
        [.handler request (.clearRefresh run)]

/-- The answers on which a refresh is rejected. -/
def rejects (c : ApiClient) (w : RefreshWait) (a : ApiAnswer) : Bool :=
  match w, a with
  | .readRefresh, .done => c.refreshToken = none
  | .post _, .status code => code ∈ [400, 401, 403]
  | .saveAccess _, .failed => true
  | .saveRefresh _, .failed => true
  | _, _ => false

/-- What one step of a refresh does. -/
inductive RefreshStep (c : ApiClient) (run : RefreshRun) (w : RefreshWait) (a : ApiAnswer) :
    ApiClient → List ApiWait → Prop
  | finished (result : RefreshResult) (hw : w ≠ .whenComplete)
      (hs : (∀ tokens, w ≠ .saveAccess tokens ∧ w ≠ .saveRefresh tokens) ∨ a = .failed)
      (hr : result = .rejected → rejects c w a = true) :
      RefreshStep c run w a { c with results := Function.update c.results run (some result) }
        [.refresh run .whenComplete]
  | read (refreshToken : Token) (h : c.refreshToken = some refreshToken) (hw : w = .readRefresh) :
      RefreshStep c run w a c [.refresh run (.clientHeaders refreshToken)]
  | sent (refreshToken : Token) (hw : w = .clientHeaders refreshToken) :
      RefreshStep c run w a c [.refresh run (.post refreshToken)]
  | rotated (refreshToken : Token) (hw : w = .post refreshToken) (ha : a = .done) :
      RefreshStep c run w a
        { c with nextToken := c.nextToken + 2, rotated := refreshToken :: c.rotated }
        [.refresh run (.saveAccess ⟨c.nextToken, c.nextToken + 1⟩)]
  | savedAccess (tokens : Tokens) (hw : w = .saveAccess tokens) :
      RefreshStep c run w a { c with accessToken := some tokens.accessToken }
        [.refresh run (.saveRefresh tokens)]
  | savedRefresh (tokens : Tokens) (hw : w = .saveRefresh tokens) :
      RefreshStep c run w a
        { c with
          refreshToken := some tokens.refreshToken
          written := tokens.refreshToken :: c.written
          results := Function.update c.results run (some (.succeeded tokens)) }
        [.refresh run .whenComplete]
  | ended (hw : w = .whenComplete) : RefreshStep c run w a { c with refreshFuture := none } []

/-- What one step of a logout does. -/
inductive LogoutStep (c : ApiClient) (w : LogoutWait) : ApiClient → List ApiWait → Prop
  | moved (w' : LogoutWait) : LogoutStep c w c [.logout w']
  | stopped : LogoutStep c w c []
  | clearedAccess : LogoutStep c w { c with accessToken := none } [.logout .clearRefresh]
  | clearedRefresh (hw : w = .clearRefresh) :
      LogoutStep c w { c with refreshToken := none, logouts := c.logouts + 1 } []

/-- What one step of a login does. -/
inductive LoginStep (c : ApiClient) (w : LoginWait) : ApiClient → List ApiWait → Prop
  | issued (hw : w = .post) : LoginStep c w { c with nextToken := c.nextToken + 2 }
      [.login (.saveAccess ⟨c.nextToken, c.nextToken + 1⟩)]
  | stopped : LoginStep c w c []
  | savedAccess (tokens : Tokens) (hw : w = .saveAccess tokens) :
      LoginStep c w
        { c with accessToken := some tokens.accessToken, logins := c.logins + 1 }
        [.login (.saveRefresh tokens)]
  | savedRefresh (tokens : Tokens) (hw : w = .saveRefresh tokens) :
      LoginStep c w
        { c with
          refreshToken := some tokens.refreshToken
          written := tokens.refreshToken :: c.written
          logins := c.logins + 1 } []

variable {c c' : ApiClient} {new : List ApiWait} {a : ApiAnswer} {request : Nat}
  {run : RefreshRun}

theorem handlerStep_refreshTokens {w : HandlerWait} (h : ∀ t, w ≠ .retry t) :
    HandlerStep c request w (c.refreshTokens request).1 (c.refreshTokens request).2 := by
  unfold ApiClient.refreshTokens
  split
  · next run hf => exact .joined run h hf
  · next hf => exact .launched h hf

theorem handlerStep_of_resume {w : HandlerWait}
    (hr : c.resumeHandler request w a = some (c', new)) : HandlerStep c request w c' new := by
  have hcomplete : HandlerStep c request w (c.complete request).1 (c.complete request).2 :=
    .completed c.refreshToken (.inl rfl)
  unfold ApiClient.resumeHandler at hr
  split at hr
  · next authorization =>
    have haccess : HandlerStep c request (.readAccess authorization)
        (c.accessRead request authorization).1 (c.accessRead request authorization).2 := by
      unfold ApiClient.accessRead
      split
      · split
        · exact .retried _ (by simp)
        · exact handlerStep_refreshTokens (by simp)
      · exact handlerStep_refreshTokens (by simp)
    rwa [Option.some.inj hr] at haccess
  · cases hr
    exact hcomplete
  · cases hr
    exact hcomplete
  · next run =>
    split at hr
    · cases hr
    · obtain ⟨result, hresult, heq⟩ := Option.map_eq_some_iff.mp hr
      cases result with
      | succeeded tokens =>
        cases heq
        exact .retried _ (by simp)
      | rejected =>
        cases heq
        exact .rejected run rfl hresult
      | failed =>
        cases heq
        exact hcomplete
      | thrown =>
        cases heq
        exact hcomplete
  · next run =>
    cases hr
    exact .cleared run rfl
  · cases hr
    exact hcomplete
  · next run =>
    cases hr
    exact .completed none (.inr ⟨rfl, run, rfl⟩)
  · cases hr
    exact hcomplete
  · cases hr

theorem refreshStep_posted {refreshToken : Token} :
    RefreshStep c run (.post refreshToken) a (c.posted run refreshToken a).1
      (c.posted run refreshToken a).2 := by
  have hfailed : RefreshStep c run (.post refreshToken) a (c.finish run .failed).1
      (c.finish run .failed).2 := .finished _ (by simp) (.inl (by simp)) (by simp)
  cases a with
  | done => exact .rotated refreshToken rfl rfl
  | status code =>
    simp only [ApiClient.posted]
    split
    · next hcode => exact .finished _ (by simp) (.inl (by simp)) fun _ => by simpa [rejects] using hcode
    · exact hfailed
  | malformed => exact hfailed
  | failed => exact hfailed

theorem refreshStep_of_resume {w : RefreshWait} (hr : c.resumeRefresh run w a = some (c', new)) :
    RefreshStep c run w a c' new := by
  unfold ApiClient.resumeRefresh at hr
  split at hr
  · split at hr
    · next h =>
      cases hr
      exact .finished _ (by simp) (.inl (by simp)) fun _ => by simp [rejects, h]
    · next refreshToken h =>
      cases hr
      exact .read refreshToken h rfl
  · cases hr
    exact .finished _ (by simp) (.inl (by simp)) (by simp)
  · cases hr
    exact .sent _ rfl
  · cases hr
    exact .finished _ (by simp) (.inl (by simp)) (by simp)
  · next refreshToken =>
    have hposted : RefreshStep c run (.post refreshToken) a _ _ := refreshStep_posted
    rwa [Option.some.inj hr] at hposted
  · cases hr
    exact .savedAccess _ rfl
  · cases hr
    exact .finished _ (by simp) (.inr rfl) fun _ => rfl
  · cases hr
    exact .savedRefresh _ rfl
  · cases hr
    exact .finished _ (by simp) (.inr rfl) fun _ => rfl
  · cases hr
    exact .ended rfl
  · cases hr

theorem logoutStep_of_resume {w : LogoutWait} (hr : c.resumeLogout w a = some (c', new)) :
    LogoutStep c w c' new := by
  unfold ApiClient.resumeLogout at hr
  split at hr
  · split at hr
    · cases hr
      exact .moved _
    · cases hr
      exact .moved _
  · cases hr
    exact .moved _
  · cases hr
    exact .moved _
  · cases hr
    exact .clearedAccess
  · cases hr
    exact .stopped
  · cases hr
    exact .clearedRefresh rfl
  · cases hr
    exact .stopped
  · cases hr

theorem loginStep_of_resume {w : LoginWait} (hr : c.resumeLogin w a = some (c', new)) :
    LoginStep c w c' new := by
  unfold ApiClient.resumeLogin at hr
  split at hr
  · cases hr
    exact .issued rfl
  · cases hr
    exact .stopped
  · cases hr
    exact .savedAccess _ rfl
  · cases hr
    exact .stopped
  · cases hr
    exact .savedRefresh _ rfl
  · cases hr
    exact .stopped
  · cases hr

end Steps

end Mobile

end Sosedi
