import Mathlib.Tactic.ByContra
import Sosedi.Async.EventLoop
import Sosedi.Mobile.Riverpod

/-!
# Private state and the listing draft

Every assignment to the state of the authentication controller is seen by the clean-up, which
compares it with the state before.  The draft of the create-listing screen is written through a
queue of the screen, to a storage that carries out its operations in the order of their issue.

Proved here:

* `become_spec`: what an assignment to the authentication state does;
* `DraftInv.call`, `DraftInv.answer`: every event keeps the invariant;
* `draft_follows_account`: the draft is kept while its user stays signed in, and is gone after.
-/

namespace Sosedi

open Async

namespace Mobile

structure AuthUser where
  id : Id
  phone : String
  deriving DecidableEq

inductive AuthState where
  | loading
  | unauthenticated (errorMessage : Option String) (isSubmitting : Bool)
  | codeSent (phone : String) (expiresInSeconds : Nat) (errorMessage : Option String)
      (isSubmitting : Bool)
  | authenticated (user : AuthUser)
  deriving DecidableEq

def AuthState.isSubmitting : AuthState → Bool
  | unauthenticated _ isSubmitting => isSubmitting
  | codeSent _ _ _ isSubmitting => isSubmitting
  | _ => false

/-- The user id of an authenticated state. -/
def AuthState.userId : AuthState → Option Id
  | authenticated user => some user.id
  | _ => none

/-- What a screen saves; `account` is not in the source: how many accounts had been left when the
screen was opened. -/
structure LocalDraft (Content : Type) where
  account : Nat
  content : Content
  deriving DecidableEq

/-- `save` (of the write queue of a screen) or `clear`. -/
inductive StorageOp (Content : Type) where
  | save (screen : Nat) (draft : LocalDraft Content)
  | clear
  deriving DecidableEq

variable {Content : Type}

def StorageOp.screen : StorageOp Content → Option Nat
  | save screen _ => some screen
  | clear => none

structure PrivateApp (Content : Type) where
  auth : AuthState
  sessionRestore : Bool
  /-- What is stored, and the operations that the storage has still to carry out. -/
  stored : Option (LocalDraft Content)
  issued : List (StorageOp Content)
  /-- The writes that wait in the queue of their screen. -/
  draftWrites : List (Nat × LocalDraft Content)
  /-- The number of the create-listing screen that is open. -/
  screen : Nat
  /-- How often the clean-up has cleared the draft, and the state of the private controllers. -/
  clears : Nat := 0
  invalidations : Nat := 0
  /-- Not in the source: the accounts left so far, those at the opening of the screen, the user
  who authenticated last, and since when that user has stayed signed in. -/
  accountsLeft : Nat := 0
  screenAccount : Nat := 0
  account : Option Id
  signedIn : Option (Id × Nat × Nat) := none

inductive PrivateCall (Content : Type) where
  | restoreSession
  | validateSessionOnResume
  | requestOtp
  | verifyOtp (code : String)
  | logout
  /-- The event that the network layer raises when a refresh is refused. -/
  | sessionInvalidated
  | openScreen
  | persistDraft (content : Content)
  /-- The next write of the queue of a screen. -/
  | nextWrite (screen : Nat)
  /-- `clear`, as the screen calls it. -/
  | discard
  /-- The storage carries out its next operation, or fails to. -/
  | storage (ok : Bool)
  deriving DecidableEq

inductive PrivateWait where
  | readRefreshToken
  | readAccessToken
  /-- `clearSession` for want of a refresh token. -/
  | clearTokens
  | me
  /-- `clearSession` after the server has refused the session. -/
  | clearSession
  | requestOtp
  | verifyOtp (current : AuthState)
  deriving DecidableEq

inductive PrivateAnswer where
  | token (present : Bool)
  | done
  | user (user : AuthUser)
  | codeSent (phone : String) (expiresInSeconds : Nat)
  | failed (error : Thrown)
  deriving DecidableEq

/-- `_message`. -/
def authMessage (error : Thrown) : String := userFacingError error "Не удалось выполнить действие"

def invalidatesSession : Thrown → Bool
  | .apiException code _ => code = "UNAUTHORIZED" || code = "FORBIDDEN"
  | .other => false

namespace PrivateApp

variable (c : PrivateApp Content)

/-- `state = next`, with what `privateStateCleanupProvider` does on it. -/
def become (next : AuthState) : PrivateApp Content :=
  let leavingAccount := c.auth.userId.isSome && next.userId ≠ c.auth.userId
  let enteringAccount := next.userId.isSome && next.userId ≠ c.auth.userId
  let clears := if leavingAccount then c.clears + 1 else c.clears
  let invalidations :=
    if leavingAccount || enteringAccount then c.invalidations + 1 else c.invalidations
  { c with
    auth := next
    issued := if leavingAccount then c.issued ++ [.clear] else c.issued
    clears := clears
    invalidations := invalidations
    accountsLeft := match next.userId with
      | none => c.accountsLeft
      | some user => if c.account = some user then c.accountsLeft else c.accountsLeft + 1
    account := match next.userId with
      | none => c.account
      | some user => some user
    signedIn := match next with
      | .authenticated user =>
        if c.signedIn.map (·.1) = some user.id then c.signedIn
        else some (user.id, clears, invalidations)
      | .loading => c.signedIn
      | _ => none }

def requestOtp : PrivateApp Content × List PrivateWait :=
  if c.auth.isSubmitting then (c, []) else (c.become (.unauthenticated none true), [.requestOtp])

def verifyOtp : PrivateApp Content × List PrivateWait :=
  match c.auth with
  | .codeSent phone expires errorMessage isSubmitting =>
    if isSubmitting then (c, [])
    else (c.become (.codeSent phone expires none true),
      [.verifyOtp (.codeSent phone expires errorMessage isSubmitting)])
  | _ => (c, [])

def restoreSession : PrivateApp Content × List PrivateWait :=
  if c.sessionRestore then (c, [])
  else ({ c.become .loading with sessionRestore := true }, [.readRefreshToken])

def validateSessionOnResume : PrivateApp Content × List PrivateWait :=
  match c.auth with
  | .authenticated _ => restoreSession c
  | .unauthenticated (some _) _ => restoreSession c
  | _ => (c, [])

/-- The end of `_restoreSession`. -/
def restored (next : AuthState) : PrivateApp Content :=
  { c.become next with sessionRestore := false }

def logout : PrivateApp Content :=
  { c.become (.unauthenticated none false) with accountsLeft := c.accountsLeft + 1 }

def openScreen : PrivateApp Content :=
  { c with screen := c.screen + 1, screenAccount := c.accountsLeft }

def persistDraft (content : Content) : PrivateApp Content :=
  { c with draftWrites := c.draftWrites ++ [(c.screen, ⟨c.screenAccount, content⟩)] }

/-- A write is issued when the one before it of the same screen is over. -/
def nextWrite (screen : Nat) : PrivateApp Content :=
  if c.issued.any (·.screen = some screen) then c
  else
    match c.draftWrites.find? (·.1 = screen) with
    | none => c
    | some write => { c with
        issued := c.issued ++ [.save screen write.2]
        draftWrites := c.draftWrites.eraseP (·.1 = screen) }

def storage (ok : Bool) : PrivateApp Content :=
  match c.issued with
  | [] => c
  | .save _ draft :: rest => { c with
      stored := if ok then some draft else c.stored
      issued := rest }
  | .clear :: rest => { c with
      stored := if ok then none else c.stored
      issued := rest }

def call (k : PrivateCall Content) : PrivateApp Content × List PrivateWait :=
  match k with
  | .restoreSession => restoreSession c
  | .validateSessionOnResume => validateSessionOnResume c
  | .requestOtp => requestOtp c
  | .verifyOtp _ => verifyOtp c
  | .logout => (logout c, [])
  | .sessionInvalidated => (become c (.unauthenticated none false), [])
  | .openScreen => (openScreen c, [])
  | .persistDraft content => (persistDraft c content, [])
  | .nextWrite screen => (nextWrite c screen, [])
  | .discard => ({ c with issued := c.issued ++ [.clear] }, [])
  | .storage ok => (storage c ok, [])

/-- The `catch` clauses of `_restoreSession`. -/
def notRestored (e : Thrown) : PrivateApp Content × List PrivateWait :=
  if invalidatesSession e then (c, [.clearSession])
  else (restored c (.unauthenticated (some (authMessage e)) false), [])

def resume (w : PrivateWait) (a : PrivateAnswer) :
    Option (PrivateApp Content × List PrivateWait) :=
  match w, a with
  | .readRefreshToken, .token true => some (c, [.me])
  | .readRefreshToken, .token false => some (c, [.readAccessToken])
  | .readAccessToken, .token true => some (c, [.clearTokens])
  | .readAccessToken, .token false => some (restored c (.unauthenticated none false), [])
  | .clearTokens, .done => some (restored c (.unauthenticated none false), [])
  | .me, .user user => some (restored c (.authenticated user), [])
  | .clearSession, .done => some (restored c (.unauthenticated none false), [])
  -- thrown in a `catch` clause: the state stays as it is
  | .clearSession, .failed _ => some ({ c with sessionRestore := false }, [])
  | .requestOtp, .codeSent phone expires => some (become c (.codeSent phone expires none false), [])
  | .requestOtp, .failed e =>
    some (become c (.unauthenticated (some (authMessage e)) false), [])
  | .verifyOtp _, .user user => some (become c (.authenticated user), [])
  | .verifyOtp (.codeSent phone expires _ _), .failed e =>
    some (become c (.codeSent phone expires (some (authMessage e)) false), [])
  | .readRefreshToken, .failed e | .readAccessToken, .failed e | .clearTokens, .failed e
  | .me, .failed e => some (notRestored c e)
  | _, _ => none

end PrivateApp

def privateLoop : Loop (PrivateApp Content) (PrivateCall Content) PrivateWait PrivateAnswer where
  call := fun k c => c.call k
  resume := fun w a c => c.resume w a

/-- The start of the app, where an earlier run may have left the draft of a user. -/
def privateStart (left : Option (Id × Content)) : Config (PrivateApp Content) PrivateWait :=
  ⟨{ auth := .loading
     sessionRestore := false
     stored := left.map fun l => ⟨0, l.2⟩
     issued := []
     draftWrites := []
     screen := 0
     account := left.map (·.1) }, []⟩

abbrev PrivateEvent (Content : Type) := Event (PrivateCall Content) PrivateWait PrivateAnswer

/-- The drafts that may be in the storage when it has carried out what is issued. -/
def liveDrafts (stored : List (LocalDraft Content)) (issued : List (StorageOp Content)) :
    List (LocalDraft Content) :=
  issued.foldl (fun live op => match op with
    | .save _ draft => live ++ [draft]
    | .clear => []) stored

namespace PrivateApp

variable (c : PrivateApp Content)

def live : List (LocalDraft Content) := liveDrafts c.stored.toList c.issued

/-- The account can be left: no write waits in a queue, and the draft is cleared by that, or there
is none. -/
def leavesClean : Bool := c.draftWrites.isEmpty && (c.auth.userId.isSome || c.live.isEmpty)

/-- A user can authenticate: an account that is left by that can be left, and it is not the user
whose session a restore has been validating. -/
def authenticatesClean (user : AuthUser) : Bool :=
  (c.account = some user.id || c.leavesClean) &&
    !(c.auth = .loading && c.signedIn.map (·.1) = some user.id)

end PrivateApp

/-- Accounts are left and entered clean, drafts are edited in a screen of the account, and no
`clear` fails. -/
def followsAccount (e : PrivateEvent Content) (k : Config (PrivateApp Content) PrivateWait) :
    Bool :=
  match e with
  | .call .logout => k.state.leavesClean
  | .call (.persistDraft _) => k.state.screenAccount = k.state.accountsLeft
  | .call (.storage false) => k.state.issued.head?.all (·.screen.isSome)
  | .answer .me (.user user) => k.state.authenticatesClean user
  | .answer (.verifyOtp _) (.user user) => k.state.authenticatesClean user
  | _ => true

/-- The draft and the private controllers follow the account. -/
structure DraftFollowsAccount (c : PrivateApp Content) : Prop where
  /-- Since the user has signed in, nothing of theirs has been cleared. -/
  kept : ∀ user, c.auth = .authenticated user →
    c.signedIn = some (user.id, c.clears, c.invalidations)
  /-- With all writes finished, no draft of an account that has been left is stored. -/
  left : c.issued = [] → c.draftWrites = [] → ∀ draft, c.stored = some draft →
    draft.account = c.accountsLeft

section Invariant

variable {c : PrivateApp Content} {ws : List PrivateWait} {stored stored' : List (LocalDraft Content)}
  {issued : List (StorageOp Content)}

theorem liveDrafts_subset (h : stored ⊆ stored') :
    liveDrafts stored issued ⊆ liveDrafts stored' issued := by
  induction issued generalizing stored stored' with
  | nil => exact h
  | cons op rest ih =>
    cases op with
    | save screen draft => exact ih (List.append_subset.mpr
        ⟨List.Subset.trans h (List.subset_append_left _ _), List.subset_append_right _ _⟩)
    | clear => exact ih (List.Subset.refl [])

@[simp] theorem liveDrafts_concat_clear :
    liveDrafts stored (issued ++ [.clear]) = [] := by
  simp [liveDrafts]

@[simp] theorem liveDrafts_concat_save (screen : Nat) (draft : LocalDraft Content) :
    liveDrafts stored (issued ++ [.save screen draft]) = liveDrafts stored issued ++ [draft] := by
  simp [liveDrafts]

/-- What the storage carries out leaves no other drafts. -/
theorem live_storage (ok : Bool) (h : ok = true ∨ c.issued.head?.all (·.screen.isSome) = true) :
    (c.storage ok).live ⊆ c.live := by
  unfold PrivateApp.storage
  split
  · exact List.Subset.refl _
  · next screen draft rest hissued =>
    simp only [PrivateApp.live, hissued]
    have hstored : c.stored.toList ⊆ c.stored.toList ++ [draft] := by simp
    refine liveDrafts_subset ?_
    cases ok with
    | true => exact List.subset_append_right _ _
    | false => exact List.subset_append_left _ _
  · next rest hissued =>
    have hok : ok = true := by simpa [hissued, StorageOp.screen] using h
    subst hok
    simp only [PrivateApp.live, hissued]
    exact List.Subset.refl _

structure DraftInv (c : PrivateApp Content) : Prop where
  queued : ∀ w ∈ c.draftWrites, w.2.account = c.accountsLeft
  live : ∀ draft ∈ c.live, draft.account = c.accountsLeft
  account : ∀ user, c.auth.userId = some user → c.account = some user
  kept : ∀ user, c.auth.userId = some user →
    c.signedIn = some (user, c.clears, c.invalidations)
  apart : c.auth.userId = none → c.auth ≠ .loading → c.signedIn = none

/-- What an assignment to the authentication state leaves to be stored. -/
theorem live_become (next : AuthState) : (c.become next).live =
    if c.auth.userId.isSome && next.userId ≠ c.auth.userId then [] else c.live := by
  by_cases hleave : (c.auth.userId.isSome && decide (next.userId ≠ c.auth.userId)) = true
  · rw [if_pos hleave]
    simp only [PrivateApp.live, PrivateApp.become, hleave, if_true]
    exact liveDrafts_concat_clear
  · rw [if_neg hleave]
    simp only [PrivateApp.live, PrivateApp.become, hleave]
    rfl

theorem live_become_subset (next : AuthState) : (c.become next).live ⊆ c.live := by
  rw [live_become]
  split
  · exact List.nil_subset _
  · exact List.Subset.refl _

/-- An assignment of a state without a user. -/
theorem DraftInv.become_out (h : DraftInv c) {next : AuthState} (hn : next.userId = none) :
    DraftInv (c.become next) := by
  have hleft : (c.become next).accountsLeft = c.accountsLeft := by
    simp only [PrivateApp.become, hn]
  refine ⟨fun w hw => ?_, fun draft hd => ?_, fun user hu => ?_, fun user hu => ?_,
    fun _ hloading => ?_⟩
  · rw [hleft]
    exact h.queued w hw
  · rw [hleft]
    exact h.live draft (live_become_subset next hd)
  · cases hn.symm.trans hu
  · cases hn.symm.trans hu
  · cases next with
    | loading => exact absurd rfl hloading
    | unauthenticated errorMessage isSubmitting => rfl
    | codeSent phone expires errorMessage isSubmitting => rfl
    | authenticated user => cases hn

theorem leavesClean_live (h : c.leavesClean = true) {next : AuthState}
    (hn : next.userId ≠ c.auth.userId) :
    c.draftWrites = [] ∧ (c.become next).live = [] := by
  simp only [PrivateApp.leavesClean, Bool.and_eq_true, List.isEmpty_iff, Bool.or_eq_true] at h
  refine ⟨h.1, ?_⟩
  rw [live_become]
  split
  · rfl
  · next hstays =>
    refine h.2.resolve_left fun hsome => hstays ?_
    simp [hsome, hn]

/-- An assignment of an authenticated state. -/
theorem DraftInv.become_in (h : DraftInv c) {user : AuthUser}
    (hc : c.authenticatesClean user = true) : DraftInv (c.become (.authenticated user)) := by
  simp only [PrivateApp.authenticatesClean, Bool.and_eq_true, Bool.or_eq_true,
    decide_eq_true_eq] at hc
  have hdrafts : (∀ w ∈ c.draftWrites,
        w.2.account = (c.become (.authenticated user)).accountsLeft) ∧
      ∀ draft ∈ (c.become (.authenticated user)).live,
        draft.account = (c.become (.authenticated user)).accountsLeft := by
    by_cases hsame : c.account = some user.id
    · have hleft : (c.become (.authenticated user)).accountsLeft = c.accountsLeft := by
        simp [PrivateApp.become, AuthState.userId, hsame]
      rw [hleft]
      exact ⟨h.queued, fun draft hd => h.live draft (live_become_subset _ hd)⟩
    · have hne : (AuthState.authenticated user).userId ≠ c.auth.userId :=
        fun heq => hsame (h.account user.id heq.symm)
      obtain ⟨hqueue, hlive⟩ := leavesClean_live (hc.1.resolve_left hsame) hne
      exact ⟨by simp [hqueue], by simp [hlive]⟩
  refine ⟨hdrafts.1, hdrafts.2, fun u hu => hu, fun u hu => ?_, fun hnone => by cases hnone⟩
  obtain rfl : user.id = u := Option.some.inj hu
  by_cases hstays : c.signedIn.map (·.1) = some user.id
  · -- the user has stayed signed in: the assignment clears nothing
    have hauth : c.auth.userId = some user.id := by
      cases hid : c.auth.userId with
      | none =>
        have hloading : c.auth = .loading := by
          by_contra hother
          simp [h.apart hid hother] at hstays
        simp [hloading, hstays] at hc
      | some u =>
        rw [h.kept u hid] at hstays
        exact hstays
    have hnext : (AuthState.authenticated user).userId = some user.id := rfl
    simp [PrivateApp.become, hnext, hauth, h.kept user.id hauth]
  · simp only [PrivateApp.become, if_neg hstays]

theorem DraftInv.logout (h : DraftInv c) (hc : c.leavesClean = true) : DraftInv c.logout := by
  have hout : DraftInv (c.become (.unauthenticated none false)) := h.become_out rfl
  have hdrafts : c.draftWrites = [] ∧ (c.become (.unauthenticated none false)).live = [] := by
    simp only [PrivateApp.leavesClean, Bool.and_eq_true, List.isEmpty_iff, Bool.or_eq_true] at hc
    refine ⟨hc.1, ?_⟩
    rw [live_become]
    split
    · rfl
    · next hstays =>
      refine hc.2.resolve_left fun hsome => hstays ?_
      cases hid : c.auth.userId with
      | none => simp [hid] at hsome
      | some u => simp [AuthState.userId]
  refine ⟨fun w hw => ?_, fun draft hd => ?_, hout.account, hout.kept, hout.apart⟩
  · have hw : w ∈ c.draftWrites := hw
    simp [hdrafts.1] at hw
  · have hd : draft ∈ (c.become (.unauthenticated none false)).live := hd
    simp [hdrafts.2] at hd

/-- A change that concerns the drafts alone. -/
theorem DraftInv.of_drafts (h : DraftInv c) {c' : PrivateApp Content}
    (hq : ∀ w ∈ c'.draftWrites, w.2.account = c.accountsLeft)
    (hl : ∀ draft ∈ c'.live, draft.account = c.accountsLeft)
    (hsame : c'.auth = c.auth ∧ c'.accountsLeft = c.accountsLeft ∧ c'.account = c.account ∧
      c'.signedIn = c.signedIn ∧ c'.clears = c.clears ∧ c'.invalidations = c.invalidations) :
    DraftInv c' := by
  obtain ⟨hauth, hleft, haccount, hsigned, hclears, hinvalidations⟩ := hsame
  refine ⟨fun w hw => (hq w hw).trans hleft.symm, fun d hd => (hl d hd).trans hleft.symm, ?_, ?_, ?_⟩
  · rw [hauth, haccount]
    exact h.account
  · rw [hauth, hsigned, hclears, hinvalidations]
    exact h.kept
  · rw [hauth, hsigned]
    exact h.apart

theorem DraftInv.nextWrite (h : DraftInv c) (screen : Nat) : DraftInv (c.nextWrite screen) := by
  unfold PrivateApp.nextWrite
  split
  · exact h
  · split
    · exact h
    · next write hfind =>
      refine h.of_drafts (fun w hw => h.queued w (List.mem_of_mem_eraseP hw)) (fun d hd => ?_)
        ⟨rfl, rfl, rfl, rfl, rfl, rfl⟩
      simp only [PrivateApp.live, liveDrafts_concat_save, List.mem_append] at hd
      rcases hd with hd | hd
      · exact h.live d hd
      · rw [List.mem_singleton.mp hd]
        exact h.queued write (List.mem_of_find?_eq_some hfind)

theorem DraftInv.restored (h : DraftInv c) {sessionRestore : Bool} :
    DraftInv { c with sessionRestore := sessionRestore } :=
  h.of_drafts h.queued h.live ⟨rfl, rfl, rfl, rfl, rfl, rfl⟩

theorem DraftInv.restoreSession (h : DraftInv c) : DraftInv c.restoreSession.1 := by
  unfold PrivateApp.restoreSession
  split
  · exact h
  · exact (h.become_out rfl).restored

theorem DraftInv.call (h : DraftInv c) (k : PrivateCall Content)
    (hc : followsAccount (.call k) ⟨c, ws⟩ = true) : DraftInv (c.call k).1 := by
  cases k with
  | restoreSession => exact h.restoreSession
  | validateSessionOnResume =>
    simp only [PrivateApp.call, PrivateApp.validateSessionOnResume]
    split
    · exact h.restoreSession
    · exact h.restoreSession
    · exact h
  | requestOtp =>
    simp only [PrivateApp.call, PrivateApp.requestOtp]
    split
    · exact h
    · exact h.become_out rfl
  | verifyOtp code =>
    simp only [PrivateApp.call, PrivateApp.verifyOtp]
    split
    · split
      · exact h
      · exact h.become_out rfl
    · exact h
  | logout => exact h.logout hc
  | sessionInvalidated => exact h.become_out rfl
  | openScreen => exact h.of_drafts h.queued h.live ⟨rfl, rfl, rfl, rfl, rfl, rfl⟩
  | persistDraft content =>
    refine h.of_drafts (fun w hw => ?_) h.live ⟨rfl, rfl, rfl, rfl, rfl, rfl⟩
    rcases List.mem_append.mp hw with hw | hw
    · exact h.queued w hw
    · rw [List.mem_singleton.mp hw]
      simpa [followsAccount] using hc
  | nextWrite screen => exact h.nextWrite screen
  | discard =>
    refine h.of_drafts h.queued (fun d hd => ?_) ⟨rfl, rfl, rfl, rfl, rfl, rfl⟩
    simp [PrivateApp.call, PrivateApp.live] at hd
  | storage ok =>
    have hlive : (c.storage ok).live ⊆ c.live := by
      refine live_storage ok ?_
      cases ok with
      | true => exact .inl rfl
      | false => exact .inr hc
    have hsame : (c.storage ok).draftWrites = c.draftWrites ∧ (c.storage ok).auth = c.auth ∧
        (c.storage ok).accountsLeft = c.accountsLeft ∧ (c.storage ok).account = c.account ∧
        (c.storage ok).signedIn = c.signedIn ∧ (c.storage ok).clears = c.clears ∧
        (c.storage ok).invalidations = c.invalidations := by
      unfold PrivateApp.storage
      split
      · exact ⟨rfl, rfl, rfl, rfl, rfl, rfl, rfl⟩
      · exact ⟨rfl, rfl, rfl, rfl, rfl, rfl, rfl⟩
      · exact ⟨rfl, rfl, rfl, rfl, rfl, rfl, rfl⟩
    refine h.of_drafts (fun w hw => ?_) (fun d hd => h.live d (hlive hd)) hsame.2
    have hw : w ∈ (c.storage ok).draftWrites := hw
    rw [hsame.1] at hw
    exact h.queued w hw

theorem DraftInv.notRestored (h : DraftInv c) (e : Thrown) : DraftInv (c.notRestored e).1 := by
  unfold PrivateApp.notRestored
  split
  · exact h
  · exact (h.become_out rfl).restored

theorem DraftInv.answer (h : DraftInv c) {w : PrivateWait} {a : PrivateAnswer}
    {c' : PrivateApp Content} {new : List PrivateWait}
    (hc : followsAccount (.answer w a) ⟨c, ws⟩ = true) (hr : c.resume w a = some (c', new)) :
    DraftInv c' := by
  have hthrown {e : Thrown} (hr : some (c.notRestored e) = some (c', new)) : DraftInv c' := by
    have hfailed := h.notRestored e
    rwa [Option.some.inj hr] at hfailed
  unfold PrivateApp.resume at hr
  split at hr
  · cases hr
    exact h
  · cases hr
    exact h
  · cases hr
    exact h
  · cases hr
    exact (h.become_out rfl).restored
  · cases hr
    exact (h.become_out rfl).restored
  · cases hr
    exact (h.become_in hc).restored
  · cases hr
    exact (h.become_out rfl).restored
  · cases hr
    exact h.restored
  · cases hr
    exact h.become_out rfl
  · cases hr
    exact h.become_out rfl
  · cases hr
    exact h.become_in hc
  · cases hr
    exact h.become_out rfl
  · exact hthrown hr
  · exact hthrown hr
  · exact hthrown hr
  · exact hthrown hr
  · cases hr

theorem DraftInv.start (left : Option (Id × Content)) : DraftInv (privateStart left).state where
  queued w hw := by cases hw
  live draft hd := by
    cases left with
    | none => cases hd
    | some l =>
      rw [List.mem_singleton.mp hd]
      rfl
  account user hu := by cases hu
  kept user hu := by cases hu
  apart _ hloading := absurd rfl hloading

/-- As long as accounts are left and entered clean. -/
theorem draft_follows_account {left : Option (Id × Content)} {es : List (PrivateEvent Content)}
    {k : Config (PrivateApp Content) PrivateWait}
    (h : privateLoop.Runs (fun e k => followsAccount e k = true) (privateStart left) es k) :
    DraftFollowsAccount k.state := by
  have hinv : DraftInv k.state := by
    refine Loop.Runs.invariant (I := fun _ k => DraftInv k.state) (.start left) ?_ ?_ h
    · intro es call c ws h hc
      exact h.call call hc
    · intro es w a c c' ws new h hc hw hr
      exact h.answer hc hr
  refine ⟨fun user hu => hinv.kept user.id (by rw [hu]; rfl), fun hissued hqueue draft hd => ?_⟩
  refine hinv.live draft ?_
  simp [PrivateApp.live, liveDrafts, hissued, hd]

end Invariant

namespace PrivateScenario

def user (n : Id) : AuthUser := ⟨n, "+79990000000"⟩

/-- A session that is restored or validated. -/
def validated (n : Id) : List (PrivateEvent Nat) :=
  [.answer .readRefreshToken (.token true), .answer .me (.user (user n))]

/-- User 1 writes a draft and logs out; user 2 logs in. -/
def loggedOut : List (PrivateEvent Nat) :=
  .call .restoreSession :: validated 1 ++
    [.call .openScreen, .call (.persistDraft 7), .call (.nextWrite 1), .call (.storage true),
      .call .logout, .call .requestOtp, .answer .requestOtp (.codeSent "+79990000000" 60),
      .call (.verifyOtp "1234"),
      .answer (.verifyOtp (.codeSent "+79990000000" 60 none false)) (.user (user 2)),
      .call (.storage true)]

/-- The session of user 1 is validated when the app resumes. -/
def resumed : List (PrivateEvent Nat) :=
  .call .restoreSession :: validated 1 ++ .call .validateSessionOnResume :: validated 1

/-- User 1 logs out while the second of two edits waits for the first one to be stored. -/
def queued : List (PrivateEvent Nat) :=
  .call .restoreSession :: validated 1 ++
    [.call .openScreen, .call (.persistDraft 7), .call (.nextWrite 1), .call (.persistDraft 8),
      .call .logout, .call (.storage true), .call (.nextWrite 1), .call (.storage true),
      .call (.storage true)]

theorem draft_follows_account_loggedOut :
    ∃ k, privateLoop.play followsAccount loggedOut (privateStart none) = some k ∧
      k.state.auth = .authenticated (user 2) ∧ k.state.stored = none ∧
      DraftFollowsAccount k.state := by
  have h : ∃ k, privateLoop.play followsAccount loggedOut (privateStart none) = some k ∧
      k.state.auth = .authenticated (user 2) ∧ k.state.stored = none := ⟨_, rfl, rfl, rfl⟩
  obtain ⟨k, hk, hauth, hstored⟩ := h
  exact ⟨k, hk, hauth, hstored, draft_follows_account (Loop.runs_of_play hk)⟩

/-- The validation clears the draft of the user who stays signed in; and the draft of the user
who has logged out is stored after the clearing. -/
theorem draft_lost_and_leaked :
    (∃ k : Config (PrivateApp Nat) PrivateWait,
      privateLoop.Runs (fun _ _ => True) (privateStart none) resumed k ∧
        ¬ DraftFollowsAccount k.state) ∧
    ∃ k : Config (PrivateApp Nat) PrivateWait,
      privateLoop.Runs (fun _ _ => True) (privateStart none) queued k ∧
        ¬ DraftFollowsAccount k.state := by
  have hresumed : ∃ k, privateLoop.play (fun _ _ => true) resumed (privateStart none) = some k ∧
      k.state.auth = .authenticated (user 1) ∧ k.state.signedIn = some (1, 0, 1) ∧
      k.state.clears = 1 := ⟨_, rfl, rfl, rfl, rfl⟩
  have hqueued : ∃ k draft, privateLoop.play (fun _ _ => true) queued (privateStart none) =
      some k ∧ k.state.issued = [] ∧ k.state.draftWrites = [] ∧ k.state.stored = some draft ∧
      draft.account = 1 ∧ k.state.accountsLeft = 2 := ⟨_, _, rfl, rfl, rfl, rfl, rfl, rfl⟩
  constructor
  · obtain ⟨k, hk, hauth, hsigned, hclears⟩ := hresumed
    refine ⟨k, (Loop.runs_of_play hk).mono fun _ _ _ => trivial, fun h => ?_⟩
    have hkept := h.kept (user 1) hauth
    rw [hsigned, hclears] at hkept
    cases hkept
  · obtain ⟨k, draft, hk, hissued, hwrites, hstored, haccount, hleft⟩ := hqueued
    refine ⟨k, (Loop.runs_of_play hk).mono fun _ _ _ => trivial, fun h => ?_⟩
    have hown := h.left hissued hwrites draft hstored
    rw [haccount, hleft] at hown
    cases hown

end PrivateScenario

end Mobile

end Sosedi
