import Sosedi.Auth.AdminAuthSafety
import Sosedi.Transactions.Schedules

/-!
# The runs of authentication

The calls without Redis run embedded: all that matters of them is that users stay, that their
session versions do not decrease, and that time does not go back.

Proved here:

* `keeps_authCalls`: every call keeps to the contract;
* `AuthRuns.invariant`, `AuthRuns.step`: what every step keeps holds in every state of a run.
-/

namespace Sosedi

open Transactions

variable {floor : Id → Id → Nat} {ok : AuthEvent → AuthStore → Prop} {α : Type} {b : Bool}

/-! ## Calls without Redis -/

/-- Users only grow along the program, and time only passes. -/
def Grows (p : Prog Sys α) (Q : α → Bool → Prop) (b : Bool) : Prop :=
  p.track UsersGrow (fun w w' : World => w.now ≤ w'.now) Q b

theorem grows_bind (p : Prog Sys α) {β : Type} (f : α → Prog Sys β) (Q : β → Bool → Prop) :
    Grows (p.bind f) Q b ↔ Grows p (fun a b => Grows (f a) Q b) b := track_bind p f Q

theorem grows_lift (x : Except Error α) (Q : α → Bool → Prop) :
    Grows (lift x) Q b ↔ ∀ a, x = .ok a → Q a b := track_lift (S := Sys) x

theorem grows_select (f : Database → α) (Q : α → Bool → Prop) :
    Grows (select f) Q b ↔ ∀ db, Q (f db) b := Iff.rfl

theorem grows_write {rows : List LockKey} {f : Database → Database} {Q : Unit → Bool → Prop}
    (hf : ∀ db, UsersGrow db (f db)) (hQ : Q () true) : Grows (write rows f) Q b :=
  ⟨fun _ => hf, fun _ => hQ⟩

theorem grows_updateSnapshot [DecidableEq α] {row : LockKey} {read : Database → α}
    {snapshot : Database} {f : Database → Database} {Q : Unit → Bool → Prop}
    (hf : ∀ db, UsersGrow db (f db)) (hQ : Q () true) :
    Grows (updateSnapshot row read snapshot f) Q b := track_insertUnique _ _ _ _ _ hf hQ

theorem grows_clock {Q : Time → Bool → Prop} (hQ : ∀ t, Q t b) : Grows clock Q b :=
  ⟨fun _ => Int.le_refl _, fun w => hQ w.now⟩

theorem grows_createAdminAudit (entry : AuditEntry) {Q : Unit → Bool → Prop} (hQ : Q () true) :
    Grows (createAdminAudit entry) Q b :=
  grows_write (fun db => usersGrow_refl db _ rfl) hQ

theorem User.le_block (user : User) : user.sessionVersion ≤ user.block.sessionVersion :=
  Nat.le_succ _

theorem User.le_close (userId : Id) (requestedAt : Time) (anonymizedAt : Option Time)
    (user : User) : user.sessionVersion ≤ (user.close userId requestedAt anonymizedAt).sessionVersion := by
  cases anonymizedAt <;> exact Nat.le_succ _

theorem grows_updateWhere {row : LockKey} {cond : Database → Bool} {f : Database → Database}
    {Q : Bool → Bool → Prop} (hf : ∀ db, UsersGrow db (f db)) (hQ : ∀ matched, Q matched true) :
    Grows (updateWhere row cond f) Q b := by
  refine ⟨fun v db => ?_, fun v => hQ _⟩
  show UsersGrow db ((if cond v then f else id) db)
  split
  · exact hf db
  · exact usersGrow_refl db db rfl

theorem grows_insertUnique {rows : List LockKey} {taken : Database → Bool} {e : Error}
    {f : Database → Database} {Q : Unit → Bool → Prop} (hf : ∀ db, UsersGrow db (f db))
    (hQ : Q () true) : Grows (insertUnique rows taken e f) Q b :=
  track_insertUnique _ _ _ _ _ hf hQ

theorem grows_adminBlockUser (adminId userId : Id) (reason : String) :
    Grows (AdminService.blockUser adminId userId reason) (fun _ b => b = false) false := by
  simp only [AdminService.blockUser, Prog.bind_eq, grows_bind, grows_lift]
  intro _ _ v _ _
  refine grows_updateWhere (usersGrow_update userId User.le_block) fun updated => ?_
  intro v' user _ _ _
  exact grows_createAdminAudit _ rfl

theorem grows_deleteMe (userId : Id) :
    Grows (UsersService.deleteMe userId) (fun _ b => b = false) false := by
  simp only [UsersService.deleteMe, takeSnapshot, Prog.bind_eq, grows_bind, grows_lift]
  intro v _ _ snapshot
  refine grows_clock fun requestedAt => ?_
  intro _ _
  exact grows_updateSnapshot (usersGrow_update userId (User.le_close userId _ _)) rfl

theorem grows_finalizeEligibleAccountClosures :
    Grows UsersService.finalizeEligibleAccountClosures (fun _ b => b = false) false := by
  intro v
  refine track_forEach fun userId _ => ?_
  have hone : Grows (UsersService.finalizeOne userId) (fun _ b => b = false) false := by
    simp only [UsersService.finalizeOne, takeSnapshot, Prog.bind_eq, grows_bind, grows_select]
    intro snapshot
    split
    · rfl
    · simp only [grows_bind]
      refine grows_clock fun anonymizedAt => ?_
      split
      · simp only [grows_bind]
        exact grows_updateSnapshot (usersGrow_update userId fun _ => Nat.le_refl _) rfl
      · rfl
  exact (grows_bind ..).mpr hone

theorem grows_applyDecision (snapshot : Database) (adminId reportId : Id) (report : UserReport)
    (dto : ReportsService.DecideReportDto) {Q : AccountEvent → Bool → Prop} (hQ : ∀ ev b, Q ev b) :
    Grows (ReportsService.applyDecision snapshot adminId reportId report dto) Q b := by
  unfold ReportsService.applyDecision
  split
  · exact hQ _ _
  · simp only [Prog.bind_eq, grows_bind, grows_lift]
    intro _ _ _ _
    refine grows_clock fun _ => ?_
    exact grows_updateSnapshot (fun db => usersGrow_refl db _ rfl) (hQ _ _)
  · simp only [Prog.bind_eq, grows_bind, grows_lift]
    intro _ _
    refine grows_clock fun _ => ?_
    intro _ _
    exact grows_updateSnapshot (fun db => usersGrow_refl db _ rfl) (hQ _ _)
  · simp only [Prog.bind_eq, grows_bind, grows_lift]
    intro targetUserId _ _ _ _ _
    exact grows_updateSnapshot (usersGrow_update targetUserId User.le_block) (hQ _ _)

theorem grows_notifyDecision (snapshot : Database) (reportId : Id) (report : UserReport)
    (decision : ReportDecision) {Q : Unit → Bool → Prop} (hQ : ∀ b, Q () b) :
    Grows (ReportsService.notifyDecision snapshot reportId report decision) Q b := by
  have hnotify : ∀ notification (b : Bool), Grows (createNotification notification) Q b :=
    fun _ _ => grows_insertUnique (fun db => usersGrow_refl db _ rfl) (hQ _)
  unfold ReportsService.notifyDecision
  split
  · simp only [Prog.bind_eq, grows_bind, grows_lift]
    intro _ _
    exact hnotify _ _
  · simp only [Prog.bind_eq, grows_bind, grows_lift]
    intro _ _
    split
    · exact hnotify _ _
    · exact hQ _
  · exact hQ _

theorem grows_decide (adminId reportId : Id) (dto : ReportsService.DecideReportDto) :
    Grows (ReportsService.decide adminId reportId dto) (fun _ b => b = false) false := by
  simp only [ReportsService.decide, takeSnapshot, Prog.bind_eq, grows_bind, grows_lift]
  intro snapshot report _ _ _
  refine grows_applyDecision _ _ _ _ _ fun ev b => ?_
  refine grows_clock fun _ => ?_
  refine grows_updateSnapshot (fun db => usersGrow_refl db _ rfl) ?_
  refine grows_createAdminAudit _ ?_
  exact grows_notifyDecision _ _ _ _ fun b => rfl

theorem grows_tick (ms : Nat) : Grows (tick ms) (fun _ b => b = false) false :=
  ⟨fun _ => Int.le_add_of_nonneg_right (Int.natCast_nonneg _), fun _ => rfl⟩

theorem allowed_base : basePart.Allowed (authContract floor ok) UsersGrow
    fun w w' : World => w.now ≤ w'.now where
  refl _ := usersGrow_refl _ _ rfl
  trans _ _ _ h h' := by
    intro u user huser
    obtain ⟨user', huser', hle⟩ := h u user huser
    obtain ⟨user'', huser'', hle'⟩ := h' u user' huser'
    exact ⟨user'', huser'', Nat.le_trans hle hle'⟩
  commit _ _ _ _ h := ⟨h, rfl, rfl, Int.le_refl _, rfl, rfl, rfl, trivial⟩
  call _ _ _ _ h := ⟨usersGrow_refl _ _ rfl, rfl, rfl, h, rfl, rfl, rfl, trivial⟩

theorem keeps_embed {p : Prog Sys α} (h : Grows p (fun _ b => b = false) false) :
    Keeps (authContract floor ok) (p.embed basePart) := (Safe.embed allowed_base h).keeps

/-! ## Every call -/

theorem Keeps.discard {p : Prog AuthSys α} (h : Keeps (authContract floor ok) p) :
    Keeps (authContract floor ok) (AuthCall.discard p) := by
  intro σ
  rw [AuthCall.discard, wp_bind]
  exact wp_mono _ (fun _ _ _ _ _ => trivial) (h σ)

/-- **Every call keeps to the contract.** -/
theorem keeps_authCalls {env : AuthEnv} (p : Prog AuthSys Unit) (h : AuthCalls env p) :
    Keeps (authContract floor ok) p := by
  obtain ⟨c, rfl⟩ := h
  cases c with
  | requestOtp => exact AuthService.keeps_requestOtp _ _ _ _ _ _
  | verifyOtp => exact Keeps.discard (AuthService.keeps_verifyOtp _ _ _ _ _ _ _ _)
  | refresh => exact Keeps.discard (AuthService.keeps_refresh _ _ _ _ _)
  | logout => exact AuthService.keeps_logout _ _
  | listSessions => exact Keeps.discard (AuthService.free_listSessions _ _).keeps
  | revokeSession => exact (AuthService.free_revokeSession _ _).keeps
  | revokeAllSessions => exact AuthService.keeps_revokeAllSessions _
  | verifyUserStepUpOtp =>
    exact Keeps.discard (AuthService.keeps_verifyUserStepUpOtp _ _ _ _ _ _ _)
  | consumeUserStepUpToken => exact AuthService.keeps_consumeUserStepUpToken _ _ _ _ _
  | canActivate => exact JwtAuthGuard.keeps_canActivate _ _ _
  | beginTotpSetup => exact AdminMfaService.keeps_beginTotpSetup _ _ _
  | confirmTotpSetup => exact AdminMfaService.keeps_confirmTotpSetup _ _ _ _ _
  | adminStepUp => exact AdminSessionService.keeps_stepUp _ _ _ _ _ _ _
  | authenticate => exact AdminSessionService.keeps_authenticate _ _ _ _
  | adminBlockUser => exact Keeps.discard (keeps_embed (grows_adminBlockUser _ _ _))
  | decideReport => exact keeps_embed (grows_decide _ _ _)
  | deleteMe => exact Keeps.discard (keeps_embed (grows_deleteMe _))
  | finalizeEligibleAccountClosures => exact keeps_embed grows_finalizeEligibleAccountClosures
  | tick => exact keeps_embed (grows_tick _)

/-! ## Runs -/

/-- No sessions, codes and second factors yet; accounts and the clock are arbitrary. -/
structure AuthInitial (σ : AuthStore) : Prop where
  credentials : σ.1.credentials = .empty
  recoveryCodes : σ.1.recoveryCodes = .empty
  sessions : σ.2.sessions = .initial
  otp : σ.2.otp = .initial
  mfa : σ.2.mfa = .initial

theorem AuthInitial.inv {σ : AuthStore} (h : AuthInitial σ) : AuthInv σ := by
  constructor <;> simp [h.sessions, SessionStore.initial, Table.read]
  intro id
  constructor <;> simp [h.sessions, h.otp, h.mfa, SessionStore.initial, OtpStore.initial,
    MfaStore.initial]

/-- A run of authentication from an initial store with no client in flight. -/
structure AuthRuns (env : AuthEnv) (ok : AuthEvent → AuthStore → Prop) (s₀ s : State AuthSys) :
    Prop where
  threads : s₀.threads = []
  initial : AuthInitial s₀.store
  reaches : Reaches (AuthCalls env) ok s₀ s

/-- No call has a floor. -/
def noFloor : Id → Id → Nat := fun _ _ => 0

theorem aboveNoFloor (ticket : Id) (σ : AuthStore) : AboveFloor noFloor ticket σ :=
  fun _ => Or.inl rfl

namespace AuthRuns

variable {env : AuthEnv} {s₀ s s' : State AuthSys}

theorem refl (h : s₀.threads = []) (hi : AuthInitial s₀.store) : AuthRuns env ok s₀ s₀ :=
  ⟨h, hi, .refl⟩

/-- The run as one of the contract. -/
theorem reaches_contract (h : AuthRuns env ok s₀ s) :
    Reaches (AuthCalls env) (authContract noFloor ok).ok s₀ s :=
  h.reaches.mono fun _ _ hok => ⟨hok, fun _ _ => aboveNoFloor _ _⟩

theorem sound (h : AuthRuns env ok s₀ s) : Sound (authContract noFloor ok) s :=
  Transactions.sound (C := authContract noFloor ok) keeps_authCalls auth_preserved h.threads
    h.initial.inv h.reaches_contract

theorem inv (h : AuthRuns env ok s₀ s) : AuthInv s.store := h.sound.inv

/-- A move leaves the store alone or is a step of the contract. -/
theorem step (h : AuthRuns env ok s₀ s) {m : Move AuthSys}
    (hm : s.Admits (AuthCalls env) ok m) (hf : s.fire m = some s') : s'.store = s.store ∨
      ∃ ev K, ok ev s.store ∧ AuthGuar noFloor ev K s.store s'.store := by
  have hm' : s.Admits (AuthCalls env) (authContract noFloor ok).ok m :=
    hm.mono fun _ _ hok => ⟨hok, fun _ _ => aboveNoFloor _ _⟩
  rcases reaches_fire (C := authContract noFloor ok) keeps_authCalls auth_preserved h.threads
    h.initial.inv h.reaches_contract hm' hf with he | ⟨K, -, ev, hok, hg⟩
  · exact Or.inl he
  · exact Or.inr ⟨ev, K, hok.1, hg⟩

/-- The next command or commit of a client is a step of its event. -/
theorem guar (h : AuthRuns env ok s₀ s) {i : Nat} {ev : AuthEvent} (hev : s.event i = some ev)
    (hok : ok ev s.store) (hf : s.fire (.run i) = some s') :
    ∃ K, AuthGuar noFloor ev K s.store s'.store :=
  h.sound.guar hev ⟨hok, fun _ _ => aboveNoFloor _ _⟩ hf

/-- **Invariants**: what the initial stores satisfy and the steps of the contract keep holds in
every state that a run reaches. -/
theorem invariant {P : AuthStore → Prop} (h : AuthRuns env ok s₀ s)
    (hinit : ∀ σ, AuthInitial σ → P σ)
    (hstep : ∀ ev K a b, AuthInv a → ok ev a → AuthGuar noFloor ev K a b → P a → P b) :
    P s.store := by
  obtain ⟨hthreads, hi, hr⟩ := h
  induction hr with
  | refl => exact hinit _ hi
  | step m hr hm hf ih =>
    have hrun : AuthRuns env ok s₀ _ := ⟨hthreads, hi, hr⟩
    rcases hrun.step hm hf with he | ⟨ev, K, hok, hg⟩
    · rw [he]
      exact ih
    · exact hstep ev K _ _ hrun.inv hok hg ih

theorem trans (h : AuthRuns env ok s₀ s) (hr : Reaches (AuthCalls env) ok s s') :
    AuthRuns env ok s₀ s' := ⟨h.threads, h.initial, h.reaches.trans hr⟩

/-- What every step keeps, from a state of the run on. -/
theorem later {P : AuthStore → Prop} (h : AuthRuns env ok s₀ s)
    (hr : Reaches (AuthCalls env) ok s s')
    (hstep : ∀ ev K a b, AuthInv a → ok ev a → AuthGuar noFloor ev K a b → P a → P b)
    (hP : P s.store) : P s'.store := by
  induction hr with
  | refl => exact hP
  | step m hr hm hf ih =>
    rcases (h.trans hr).step hm hf with he | ⟨ev, K, hok, hg⟩
    · rw [he]
      exact ih
    · exact hstep ev K _ _ (h.trans hr).inv hok hg ih

end AuthRuns

end Sosedi
