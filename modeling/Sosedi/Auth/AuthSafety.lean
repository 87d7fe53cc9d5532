import Sosedi.Auth.AuthInvariant

/-!
# Authentication keeps to its contract

Proved here: every call of `AuthService`, of the guard of the API and of the services for
administrators keeps to `authContract`.
-/

namespace Sosedi

open Transactions

variable {floor : Id → Id → Nat} {ok : AuthEvent → AuthStore → Prop} {L : List AuthKey}
  {ω : List (AuthDatabase → AuthDatabase)} {σ a b : AuthStore} {id u : Id} {α β : Type}

/-! ## Users -/

theorem usersGrow_refl (db : Database) (db' : Database) (h : db'.users = db.users) :
    UsersGrow db db' := by
  intro u user huser
  exact ⟨user, h ▸ huser, Nat.le_refl _⟩

theorem usersGrow_update (userId : Id) {f : User → User}
    (hf : ∀ user, user.sessionVersion ≤ (f user).sessionVersion) (db : Database) :
    UsersGrow db (UsersService.updateUser userId f db) := by
  intro u user huser
  simp only [UsersService.updateUser, Table.get_modify, huser, Option.map_some]
  split
  · exact ⟨_, rfl, hf user⟩
  · exact ⟨_, rfl, Nat.le_refl _⟩

/-! ## What others leave alone -/

section Keeps

/-- A step by somebody else. -/
private theorem other_guar (h : (authContract floor ok).Other L a b) :
    AuthInv a ∧ ∃ ev K, (∀ k ∈ K, k ∉ L) ∧ AuthGuar floor ev K a b := by
  obtain ⟨K, hK, hinv, ev, -, hg⟩ := h
  exact ⟨hinv, ev, K, hK, hg⟩

theorem unused_keeps (hL : .uuid id ∈ L) (a b : AuthStore)
    (h : (authContract floor ok).Other L a b) (hu : Unused id a) : Unused id b := by
  obtain ⟨hinv, ev, K, hK, hg⟩ := other_guar h
  exact hu.step hinv hg fun hid => hK _ (hg.of_introduces hinv hid).1 hL

theorem persists_drawn (id : Id) :
    Persists (authContract floor ok) fun σ => id ∈ σ.2.sessions.drawn :=
  fun _ _ _ ⟨_, _, _, hg⟩ h => hg.drawn h

theorem persists_versionLe (u : Id) (v : Nat) :
    Persists (authContract floor ok) (VersionLe u v) :=
  fun _ _ _ ⟨_, _, _, hg⟩ h => hg.versionLe h

theorem persists_aboveFloor (ticket : Id) :
    Persists (authContract floor ok) (AboveFloor floor ticket) :=
  fun _ _ _ ⟨_, _, _, hg⟩ h u => (h u).imp_right hg.versionLe

theorem persists_minted (jti : Id) (token : RefreshToken) :
    Persists (authContract floor ok) fun σ => σ.2.sessions.minted.get jti = some token :=
  fun _ _ _ ⟨_, _, _, hg⟩ h => hg.get_minted h

theorem persists_written (jti : Id) :
    Persists (authContract floor ok) fun σ => jti ∈ σ.2.sessions.written :=
  fun _ _ _ ⟨_, _, _, hg⟩ h => hg.written h

theorem persists_indexed (jti : Id) :
    Persists (authContract floor ok) fun σ => jti ∈ σ.2.sessions.indexed :=
  fun _ _ _ ⟨_, _, _, hg⟩ h => hg.indexed h

theorem persists_refreshTokens (token : RefreshToken) :
    Persists (authContract floor ok) fun σ => token ∈ σ.2.sessions.refreshTokens :=
  fun _ _ _ ⟨_, _, _, hg⟩ h => hg.refreshTokens h

theorem persists_consumed (jti ticket : Id) :
    Persists (authContract floor ok) fun σ => σ.2.sessions.consumed.get jti = some ticket :=
  fun _ _ _ ⟨hinv, _, _, hg⟩ h => hg.get_consumed hinv h

/-- The refresh `ticket` took the last token of the session. -/
def Held (sid u ticket : Id) (σ : AuthStore) : Prop :=
  ∃ clean, σ.2.sessions.chains.get sid = some ⟨u, .held ticket clean⟩

theorem held_keeps {sid ticket : Id} (hL : .uuid ticket ∈ L) (a b : AuthStore)
    (h : (authContract floor ok).Other L a b) (hheld : Held sid u ticket a) :
    Held sid u ticket b := by
  obtain ⟨hinv, ev, K, hK, hg⟩ := other_guar h
  obtain ⟨clean, hheld⟩ := hheld
  rcases hg.sessions_cases with he | ⟨sev, rfl, he, hsev⟩
  · exact ⟨clean, he ▸ hheld⟩
  obtain ⟨chain, hc⟩ := Option.isSome_iff_exists.mp
    (hg.chains_isSome (Option.isSome_iff_exists.mpr ⟨_, hheld⟩))
  rcases sev.of_get_chains (he ▸ hc) with hb | ⟨token, record, holder, ttl, rfl, rfl, -⟩ |
    ⟨token, ticket', record, rfl, hread, rfl, -⟩ | ⟨deleted, before, -, hb, rfl⟩
  · rw [hheld] at hb
    exact ⟨clean, hc.trans hb.symm⟩
  · have hholder := hsev.2.2.2.2.2.2
    cases holder with
    | none =>
      rw [hheld] at hholder
      cases hholder.2
    | some ticket' =>
      obtain ⟨hkey, clean', hheld'⟩ := hholder
      rw [hheld] at hheld'
      simp only [Option.some.injEq, Chain.mk.injEq, ChainState.held.injEq] at hheld'
      exact absurd (hheld'.2.1 ▸ hL) (hK _ hkey)
  · have hlive := hinv.live _ _ hread
    rw [hheld] at hlive
    simp at hlive
  · rw [hheld] at hb
    cases hb
    exact ⟨false, hc⟩

/-- A refresh or a login stored the token, and has not set the record of the session yet. -/
structure Stored (token : RefreshToken) (σ : AuthStore) : Prop where
  minted : σ.2.sessions.minted.get token.jti = some token
  chain : σ.2.sessions.chains.get token.sid = some ⟨token.sub, .live token.jti⟩
  unwritten : token.jti ∉ σ.2.sessions.written

theorem stored_keeps {token : RefreshToken} (hL : .uuid token.jti ∈ L) (a b : AuthStore)
    (h : (authContract floor ok).Other L a b) (hs : Stored token a) : Stored token b := by
  obtain ⟨hinv, ev, K, hK, hg⟩ := other_guar h
  refine ⟨hg.get_minted hs.minted, ?_, ?_⟩
  · rcases hg.sessions_cases with he | ⟨sev, rfl, he, hsev⟩
    · exact he ▸ hs.chain
    obtain ⟨chain, hc⟩ := Option.isSome_iff_exists.mp
      (hg.chains_isSome (Option.isSome_iff_exists.mpr ⟨_, hs.chain⟩))
    rcases sev.of_get_chains (he ▸ hc) with hb | ⟨token', record, holder, ttl, rfl, hsid, -⟩ |
      ⟨token', ticket, record, rfl, hread, hsid, -⟩ | ⟨deleted, before, hrev, hb, rfl⟩
    · rw [hs.chain] at hb
      exact hc.trans hb.symm
    · have hholder := hsev.2.2.2.2.2.2
      cases holder with
      | none =>
        rw [hsid, hs.chain] at hholder
        cases hholder.2
      | some ticket =>
        obtain ⟨-, clean, hheld⟩ := hholder
        rw [hsid, hs.chain] at hheld
        simp at hheld
    · -- only a token that was handed out can be redeemed
      have hlive := hinv.live _ _ hread
      rw [hsid, hs.chain] at hlive
      simp only [Option.some.injEq, Chain.mk.injEq, ChainState.live.injEq] at hlive
      exact absurd (hlive.2 ▸ (hinv.handedOut _ hsev.1).2.1) hs.unwritten
    · rw [hs.chain] at hb
      cases hb
      have halive : a.2.sessions.dead a.2.base.now deleted token.jti = false := by
        rcases hrev with ⟨-, rfl⟩ | ⟨jti, rfl, rfl⟩
        · simp [SessionStore.dead, hs.unwritten]
        · have hne : jti ≠ token.jti := fun heq => hs.unwritten (heq ▸ hsev)
          simp [SessionStore.dead, hs.unwritten, hne]
      rw [hc]
      simp only [ChainState.revoked, halive, Bool.false_eq_true, if_false]
  · intro hw
    rcases hg.sessions_cases with he | ⟨sev, rfl, he, hsev⟩
    · exact hs.unwritten (he ▸ hw)
    · rcases sev.of_mem_written (he ▸ hw) with hw | ⟨record, ttl, rfl, hjti⟩
      · exact hs.unwritten hw
      · exact hK _ hsev.1 (hjti.symm ▸ hL)

theorem redemptionGuard_keeps {r : Redemption} (a b : AuthStore)
    (h : (authContract floor ok).Other L a b) (hr : RedemptionGuard floor L a r) :
    RedemptionGuard floor L b r := by
  obtain ⟨hinv, ev, K, hK, hg⟩ := other_guar h
  refine ⟨hr.key, hg.get_consumed hinv hr.consumed, hg.refreshTokens hr.token, ?_, hr.floor⟩
  intro r' hr'
  rcases hg.sessions_cases with he | ⟨sev, rfl, he, hsev⟩
  · exact hr.first r' (he ▸ hr')
  · rcases sev.of_mem_redeemed (he ▸ hr') with hr' | ⟨access, token, rfl⟩
    · exact hr.first r' hr'
    · intro heq
      exact hK _ (hsev.2.2.2 _ rfl).key (heq ▸ hr.key)

end Keeps

/-! ## Commands -/

/-- A command alone is a step, if its guard holds. -/
theorem guar_session {K : List AuthKey} {ev : SessionEvent} (h : ev.Guard floor K a) :
    AuthGuar floor (.session ev) K a (a.1, (AuthEvent.session ev).applyWorld a.2) where
  users := fun _ user huser => ⟨user, huser, Nat.le_refl _⟩
  credentials := rfl
  recoveryCodes := rfl
  now := Int.le_refl _
  sessions := rfl
  otp := rfl
  mfa := rfl
  guard := h

theorem guar_otp {K : List AuthKey} {ev : OtpEvent} (h : ev.Guard K a) :
    AuthGuar floor (.otp ev) K a (a.1, (AuthEvent.otp ev).applyWorld a.2) where
  users := fun _ user huser => ⟨user, huser, Nat.le_refl _⟩
  credentials := rfl
  recoveryCodes := rfl
  now := Int.le_refl _
  sessions := rfl
  otp := rfl
  mfa := rfl
  guard := h

theorem guar_mfa {K : List AuthKey} {ev : MfaEvent} (h : ev.Guard K a) :
    AuthGuar floor (.mfa ev) K a (a.1, (AuthEvent.mfa ev).applyWorld a.2) where
  users := fun _ user huser => ⟨user, huser, Nat.le_refl _⟩
  credentials := rfl
  recoveryCodes := rfl
  now := Int.le_refl _
  sessions := rfl
  otp := rfl
  mfa := rfl
  guard := h

/-- A command whose guard follows from what others leave alone. -/
theorem wp_onSessions {ev : SessionEvent} {out : Time → SessionStore → α}
    {Q : α → List AuthKey → List (AuthDatabase → AuthDatabase) → AuthStore → Prop}
    {P : AuthStore → Prop} (hP : ∀ a b, (authContract floor ok).Other L a b → P a → P b)
    (hσ : P σ)
    (h : ∀ σ', AuthInv σ' → P σ' → (authContract floor ok).ok (.session ev) σ' →
      ev.Guard floor L σ' ∧
        (AuthInv (σ'.1, (AuthEvent.session ev).applyWorld σ'.2) →
          Q (out σ'.2.base.now σ'.2.sessions) L ω
            (σ'.1, (AuthEvent.session ev).applyWorld σ'.2))) :
    wp (authContract floor ok) (onSessions ev out) Q L ω σ := by
  intro σ' hi hinv hok
  obtain ⟨hg, hQ⟩ := h σ' hinv (interference_keeps hP hi hσ) hok
  exact ⟨guar_session hg, hQ (hinv.step (guar_session hg))⟩

/-- A random identifier is new, and it stays so until its owner uses it. -/
theorem wp_randomUUID {Q : Unit → List AuthKey → List (AuthDatabase → AuthDatabase) →
      AuthStore → Prop} {P : AuthStore → Prop}
    (hP : ∀ a b, (authContract floor ok).Other L a b → P a → P b) (hσ : P σ)
    (h : ∀ σ', AuthInv σ' → P σ' → Unused id σ' → AboveFloor floor id σ' →
      Q () (.uuid id :: L) ω
        (σ'.1, (AuthEvent.session (.draw id)).applyWorld σ'.2)) :
    wp (authContract floor ok) (randomUUID id) Q L ω σ := by
  simp only [randomUUID, Prog.bind_eq, wp_bind, wp_acquire]
  intro σ₁ hi₁ hinv₁
  refine wp_onSessions (L := .uuid id :: L) (P := P)
    (fun a b hab => hP a b ?_) (interference_keeps hP hi₁ hσ) fun σ₂ hinv₂ hP₂ hok => ⟨trivial, fun _ => ?_⟩
  · obtain ⟨K, hK, hs⟩ := hab
    exact ⟨K, fun k hk hk' => hK k hk (List.mem_cons_of_mem _ hk'), hs⟩
  · rw [wp_lift]
    intro _ hnew
    have hnew : id ∉ σ₂.2.sessions.drawn := by
      intro hmem
      simp [ensure, hmem] at hnew
    exact h σ₂ hinv₂ hP₂ (hinv₂.unused id hnew) (hok.2 id rfl)

/-! ## Tokens -/

namespace AuthService

/-- The turn in the session is that of this call: a login has just drawn the session, a refresh
took its last token. -/
def Turn (floor : Id → Id → Nat) (L : List AuthKey) (sid u : Id) :
    Option Redemption → AuthStore → Prop
  | none, σ => .uuid sid ∈ L ∧ Unused sid σ
  | some r, σ => Held sid u r.ticket σ ∧ RedemptionGuard floor L σ r

theorem turn_keeps {sid : Id} {redeemed : Option Redemption} (a b : AuthStore)
    (h : (authContract floor ok).Other L a b) (ht : Turn floor L sid u redeemed a) :
    Turn floor L sid u redeemed b := by
  cases redeemed with
  | none => exact ⟨ht.1, unused_keeps ht.1 a b h ht.2⟩
  | some r => exact ⟨held_keeps ht.2.key a b h ht.1, redemptionGuard_keeps a b h ht.2⟩

/-- The call may store the token `jti` for the session. -/
structure Ready (floor : Id → Id → Nat) (L : List AuthKey) (jti sid u v : Id)
    (redeemed : Option Redemption) (σ : AuthStore) : Prop where
  unused : Unused jti σ
  jtiDrawn : jti ∈ σ.2.sessions.drawn
  sidDrawn : sid ∈ σ.2.sessions.drawn
  version : VersionLe u v σ
  turn : Turn floor L sid u redeemed σ

theorem ready_keeps {jti sid v : Id} {redeemed : Option Redemption} (hL : .uuid jti ∈ L)
    (a b : AuthStore) (h : (authContract floor ok).Other L a b)
    (hr : Ready floor L jti sid u v redeemed a) : Ready floor L jti sid u v redeemed b := by
  exact ⟨unused_keeps hL a b h hr.unused, (persists_drawn jti).keeps a b h hr.jtiDrawn,
    (persists_drawn sid).keeps a b h hr.sidDrawn, (persists_versionLe u v).keeps a b h hr.version,
    turn_keeps a b h hr.turn⟩

/-- The call has stored a token, and may tell its client of `redeemed`. -/
def Owed (floor : Id → Id → Nat) (L : List AuthKey) (redeemed : Option Redemption)
    (σ : AuthStore) : Prop :=
  ∀ r, redeemed = some r → RedemptionGuard floor L σ r

theorem owed_keeps {redeemed : Option Redemption} (a b : AuthStore)
    (h : (authContract floor ok).Other L a b) (ho : Owed floor L redeemed a) :
    Owed floor L redeemed b := fun r hr => redemptionGuard_keeps a b h (ho r hr)

theorem Owed.frame {redeemed : Option Redemption} (h : Owed floor L redeemed a)
    (hc : b.2.sessions.consumed = a.2.sessions.consumed)
    (ht : b.2.sessions.refreshTokens = a.2.sessions.refreshTokens)
    (hr : b.2.sessions.redeemed = a.2.sessions.redeemed) : Owed floor L redeemed b := by
  intro r hsome
  have hguard := h r hsome
  exact ⟨hguard.key, hc ▸ hguard.consumed, ht ▸ hguard.token, hr ▸ hguard.first, hguard.floor⟩

theorem Turn.owed {sid : Id} {redeemed : Option Redemption}
    (h : Turn floor L sid u redeemed σ) : Owed floor L redeemed σ := by
  rintro r rfl
  exact h.2

/-- **A token is stored** with its session and in the index before its client learns it. -/
theorem wp_storeTokens (user : User) (context : IssueContext) {jti sid : Id}
    (accessTtl refreshTtl : Nat) (redeemed : Option Redemption) (hL : .uuid jti ∈ L)
    (hr : Ready floor L jti sid u user.sessionVersion redeemed σ) :
    wp (authContract floor ok)
      (storeTokens u user context jti sid accessTtl refreshTtl redeemed)
      (fun _ _ _ _ => True) L ω σ := by
  simp only [storeTokens, Prog.bind_eq, wp_bind, wp_lift, runSessions, authClock]
  refine wp_onSessions (ready_keeps hL) hr fun σ₁ hinv₁ h₁ _ => ⟨trivial, fun _ => ?_⟩
  intro _ _
  refine wp_onSessions (ready_keeps hL) h₁ fun σ₂ hinv₂ h₂ _ => ⟨?_, fun hinv₂' => ?_⟩
  · refine ⟨hL, h₂.jtiDrawn, h₂.sidDrawn, h₂.unused.minted, ⟨rfl, rfl, rfl⟩, h₂.version, ?_⟩
    have hturn := h₂.turn
    cases redeemed with
    | none => exact ⟨hturn.1, hturn.2.chains⟩
    | some r => exact ⟨hturn.2.key, hturn.1⟩
  set token : RefreshToken := ⟨u, sid, jti, user.sessionVersion,
    epochSeconds σ₁.2.base.now + refreshTtl⟩
  set σ₃ := (σ₂.1, AuthEvent.applyWorld _ σ₂.2)
  have howed₃ : Owed floor L redeemed σ₃ := h₂.turn.owed.frame rfl rfl rfl
  have hstored₃ : Stored token σ₃ := by
    refine ⟨?_, ?_, fun hw => ?_⟩
    · exact (Table.get_put ..).trans (if_pos rfl)
    · exact (Table.get_put ..).trans (if_pos rfl)
    · have hsome := hinv₂.written _ hw
      rw [h₂.unused.minted] at hsome
      cases hsome
  refine wp_onSessions (P := fun σ => Stored token σ ∧ Owed floor L redeemed σ)
    (fun a b h hP => ⟨stored_keeps hL a b h hP.1, owed_keeps a b h hP.2⟩) ⟨hstored₃, howed₃⟩
    fun σ₄ _ h₄ _ => ⟨?_, fun _ => ?_⟩
  · exact ⟨hL, token, ⟨rfl, rfl, rfl⟩, h₄.1.minted, h₄.1.chain⟩
  have hkeeps := fun a b h => ((((persists_minted token.jti token :
    Persists (authContract floor ok) _)).and
    (persists_written jti)).keeps (L := L) a b h)
  refine wp_onSessions (P := fun σ => (σ.2.sessions.minted.get token.jti = some token ∧
      jti ∈ σ.2.sessions.written) ∧ Owed floor L redeemed σ)
    (fun a b h hP => ⟨hkeeps a b h hP.1, owed_keeps a b h hP.2⟩)
    ⟨⟨h₄.1.minted, List.mem_cons_self⟩, h₄.2.frame rfl rfl rfl⟩ fun σ₆ _ h₆ _ => ⟨?_, fun _ => ?_⟩
  · exact ⟨hL, token, ⟨rfl, rfl, rfl⟩, h₆.1.1⟩
  have hkeeps' := fun a b h => ((((persists_minted token.jti token :
    Persists (authContract floor ok) _)).and
    ((persists_written jti).and (persists_indexed jti))).keeps (L := L) a b h)
  have hP : ∀ a b, (authContract floor ok).Other L a b →
      ((a.2.sessions.minted.get token.jti = some token ∧ jti ∈ a.2.sessions.written ∧
        jti ∈ a.2.sessions.indexed) ∧ Owed floor L redeemed a) →
      (b.2.sessions.minted.get token.jti = some token ∧ jti ∈ b.2.sessions.written ∧
        jti ∈ b.2.sessions.indexed) ∧ Owed floor L redeemed b :=
    fun a b h hP => ⟨hkeeps' a b h hP.1, owed_keeps a b h hP.2⟩
  refine wp_onSessions hP ⟨⟨h₆.1.1, h₆.1.2, List.mem_cons_self⟩, h₆.2.frame rfl rfl rfl⟩
    fun σ₈ _ h₈ _ => ⟨trivial, fun _ => ?_⟩
  refine wp_onSessions hP ⟨h₈.1, h₈.2.frame rfl rfl rfl⟩ fun σ₉ _ h₉ _ =>
    ⟨⟨h₉.1.1, h₉.1.2.1, h₉.1.2.2, h₉.2⟩, fun _ => trivial⟩

/-- What a call needs to issue tokens: it starts a session, or goes on with one that it holds. -/
def MayIssue (floor : Id → Id → Nat) (L : List AuthKey) (context : IssueContext) (u : Id)
    (redeemed : Option Redemption) (σ : AuthStore) : Prop :=
  (context.sessionId = none ∧ redeemed = none) ∨
    ∃ sid r, context.sessionId = some sid ∧ redeemed = some r ∧
      sid ∈ σ.2.sessions.drawn ∧ Turn floor L sid u redeemed σ

theorem mayIssue_keeps {context : IssueContext} {redeemed : Option Redemption} (a b : AuthStore)
    (h : (authContract floor ok).Other L a b) (hm : MayIssue floor L context u redeemed a) :
    MayIssue floor L context u redeemed b := by
  rcases hm with hm | ⟨sid, r, hsid, hr, hdrawn, hturn⟩
  · exact Or.inl hm
  · exact Or.inr ⟨sid, r, hsid, hr, (persists_drawn sid).keeps a b h hdrawn,
      turn_keeps a b h hturn⟩

/-- The turn is not lost when more identifiers are drawn. -/
theorem Turn.draw {sid : Id} {redeemed : Option Redemption} (h : Turn floor L sid u redeemed σ) :
    Turn floor (.uuid id :: L) sid u redeemed
      (σ.1, (AuthEvent.session (.draw id)).applyWorld σ.2) := by
  cases redeemed with
  | none => exact ⟨List.mem_cons_of_mem _ h.1, ⟨h.2.minted, h.2.chains, h.2.redeemed, h.2.issued,
      h.2.checks⟩⟩
  | some r => exact ⟨h.1, List.mem_cons_of_mem _ h.2.key, h.2.consumed, h.2.token, h.2.first,
      h.2.floor⟩

theorem wp_issueTokens (env : AuthEnv) (user : User) (context : IssueContext)
    (refreshJti newSid : Id) (redeemed : Option Redemption)
    (hv : VersionLe u user.sessionVersion σ) (hm : MayIssue floor L context u redeemed σ) :
    wp (authContract floor ok)
      (issueTokens env u user context refreshJti newSid redeemed)
      (fun _ _ _ _ => True) L ω σ := by
  simp only [issueTokens, Prog.bind_eq, wp_bind, wp_lift]
  intro _ _ _ _ accessTtl _ refreshTtl _
  refine wp_randomUUID (P := fun σ => VersionLe u user.sessionVersion σ ∧
      MayIssue floor L context u redeemed σ)
    (fun a b h hP => ⟨(persists_versionLe u _).keeps a b h hP.1, mayIssue_keeps a b h hP.2⟩)
    ⟨hv, hm⟩ fun σ₁ hinv₁ h₁ hunused₁ _ => ?_
  have hunused₂ : Unused refreshJti
      (σ₁.1, (AuthEvent.session (.draw refreshJti)).applyWorld σ₁.2) :=
    ⟨hunused₁.minted, hunused₁.chains, hunused₁.redeemed, hunused₁.issued, hunused₁.checks⟩
  rcases h₁.2 with ⟨hnone, rfl⟩ | ⟨sid, r, hsome, rfl, hdrawn, hturn⟩
  · rw [hnone]
    simp only [wp_bind]
    have hL : .uuid refreshJti ∈ AuthKey.uuid refreshJti :: L := List.mem_cons_self
    refine wp_randomUUID (P := fun σ => Unused refreshJti σ ∧ refreshJti ∈ σ.2.sessions.drawn ∧
        VersionLe u user.sessionVersion σ)
      (fun a b h hP => ⟨unused_keeps hL a b h hP.1, (persists_drawn _).keeps a b h hP.2.1,
        (persists_versionLe u _).keeps a b h hP.2.2⟩) ⟨hunused₂, List.mem_cons_self, h₁.1⟩
      fun σ₃ _ h₃ hunused₃ _ => ?_
    refine wp_storeTokens user context accessTtl refreshTtl none (List.mem_cons_of_mem _ hL) ?_
    exact ⟨⟨h₃.1.minted, h₃.1.chains, h₃.1.redeemed, h₃.1.issued, h₃.1.checks⟩,
      List.mem_cons_of_mem _ h₃.2.1, List.mem_cons_self, h₃.2.2, List.mem_cons_self,
      ⟨hunused₃.minted, hunused₃.chains, hunused₃.redeemed, hunused₃.issued, hunused₃.checks⟩⟩
  · rw [hsome]
    exact wp_storeTokens user context accessTtl refreshTtl (some r) List.mem_cons_self
      ⟨hunused₂, List.mem_cons_self, List.mem_cons_of_mem _ hdrawn, h₁.1, hturn.draw⟩

end AuthService

/-! ## Calls that refer to nothing of their own -/

/-- A program that keeps to the contract whatever it holds, keeps what it holds, and leaves no
write open. -/
def Free (floor : Id → Id → Nat) (ok : AuthEvent → AuthStore → Prop) (p : Prog AuthSys α) :
    Prop :=
  ∀ L σ, wp (authContract floor ok) p (fun _ L' ω _ => (∀ k ∈ L, k ∈ L') ∧ ω = []) L [] σ

namespace Free

theorem ret (x : α) : Free floor ok (.ret x) := fun _ _ => ⟨fun _ h => h, rfl⟩

theorem throwing (e : Error) : Free floor ok (throwing e : Prog AuthSys α) := fun _ _ => trivial

theorem bind {p : Prog AuthSys α} {f : α → Prog AuthSys β} (hp : Free floor ok p)
    (hf : ∀ x, Free floor ok (f x)) : Free floor ok (p.bind f) := by
  intro L σ
  rw [wp_bind]
  refine wp_mono p ?_ (hp L σ)
  rintro x L' ω σ' ⟨hL, rfl⟩
  exact wp_mono _ (fun _ _ _ _ h => ⟨fun k hk => h.1 k (hL k hk), h.2⟩) (hf x L' σ')

theorem lift (x : Except Error α) : Free floor ok (lift x) := by
  cases x with
  | ok x => exact ret x
  | error e => exact throwing e

theorem select (f : AuthDatabase → α) : Free floor ok (select f) :=
  fun _ _ _ _ _ => ⟨fun _ h => h, rfl⟩

theorem onSessions {ev : SessionEvent} (out : Time → SessionStore → α)
    (h : ∀ L σ, ev.Guard floor L σ) : Free floor ok (onSessions ev out) :=
  fun _ _ _ _ _ _ => ⟨guar_session (h _ _), fun _ h => h, rfl⟩

theorem onOtp {ev : OtpEvent} (out : Time → OtpStore → α) (h : ∀ L σ, ev.Guard L σ) :
    Free floor ok (onOtp ev out) := fun _ _ _ _ _ _ => ⟨guar_otp (h _ _), fun _ h => h, rfl⟩

theorem onMfa {ev : MfaEvent} (out : Time → MfaStore → α) (h : ∀ L σ, ev.Guard L σ) :
    Free floor ok (onMfa ev out) := fun _ _ _ _ _ _ => ⟨guar_mfa (h _ _), fun _ h => h, rfl⟩

theorem randomUUID (id : Id) : Free floor ok (randomUUID id) := by
  intro L σ
  refine wp_randomUUID (P := fun _ => True) (fun _ _ _ h => h) trivial fun _ _ _ _ _ => ?_
  exact ⟨fun _ h => List.mem_cons_of_mem _ h, rfl⟩

theorem keeps {p : Prog AuthSys α} (h : Free floor ok p) : Keeps (authContract floor ok) p :=
  fun σ => wp_mono p (fun _ _ _ _ _ => trivial) (h [] σ)

end Free

namespace AuthService

theorem free_ensureOtpNotBlocked (phone : String) :
    Free floor ok (ensureOtpNotBlocked phone) :=
  Free.bind (Free.onOtp _ fun _ _ => trivial) fun _ => Free.lift _

theorem free_incrWithExpire (key : String) (ttl : Nat) : Free floor ok (incrWithExpire key ttl) :=
  Free.onOtp _ fun _ _ => trivial

theorem free_registerOtpFailure (phone : String) (ticket : Id) :
    Free floor ok (registerOtpFailure phone ticket) := by
  refine Free.bind (Free.onOtp _ fun _ _ => trivial) fun failCount => ?_
  split
  · exact Free.bind (Free.onOtp _ fun _ _ => trivial) fun _ =>
      Free.bind (Free.onOtp _ fun _ _ => trivial) fun _ => Free.throwing _
  · exact Free.throwing _

theorem free_verifyAndConsumeOtp (env : AuthEnv) (phone code : String) (ticket : Id) :
    Free floor ok (verifyAndConsumeOtp env phone code ticket) := by
  refine Free.bind (free_ensureOtpNotBlocked phone) fun _ =>
    Free.bind (Free.onOtp _ fun _ _ => trivial) fun codeHash => ?_
  cases codeHash with
  | none => exact free_registerOtpFailure phone ticket
  | some codeHash =>
    refine Free.bind (Free.onOtp _ fun _ _ => trivial) fun _ => ?_
    split
    · exact Free.bind (Free.onOtp _ fun _ _ => trivial) fun _ => Free.bind (Free.lift _) fun _ =>
        Free.onOtp _ fun _ _ => trivial
    · exact free_registerOtpFailure phone ticket

theorem keeps_requestOtp (env : AuthEnv) (rawPhone : String) (context : OtpRequestContext)
    (code : String) (salt : Id) (smsFails : Bool) : Keeps (authContract floor ok)
      (requestOtp env rawPhone context code salt smsFails) := by
  have hsend : ∀ phone, Free floor ok (do
      randomUUID salt
      runOtp (.setCode phone ⟨salt, env.bcryptDigest code salt⟩)
      when smsFails do
        runOtp (.withdraw phone ⟨salt, env.bcryptDigest code salt⟩)
        throwing (.internal "sms")) := by
    intro phone L σ
    simp only [Prog.bind_eq, wp_bind]
    refine wp_randomUUID (P := fun _ => True) (fun _ _ _ h => h) trivial fun σ₁ _ _ hunused _ => ?_
    intro σ₂ hi₂ _ _
    have hL : .uuid salt ∈ AuthKey.uuid salt :: L := List.mem_cons_self
    have h₂ := interference_keeps (C := authContract floor ok)
      (P := fun σ => Unused salt σ ∧ salt ∈ σ.2.sessions.drawn)
      (fun a b h hP => ⟨unused_keeps hL a b h hP.1, (persists_drawn salt).keeps a b h hP.2⟩) hi₂
      ⟨⟨hunused.minted, hunused.chains, hunused.redeemed, hunused.issued, hunused.checks⟩,
        List.mem_cons_self⟩
    refine ⟨guar_otp ⟨hL, h₂.2, h₂.1.issued⟩, ?_⟩
    cases smsFails with
    | false => exact ⟨fun _ h => List.mem_cons_of_mem _ h, rfl⟩
    | true => exact fun _ _ _ _ => ⟨guar_otp trivial, trivial⟩
  refine Free.keeps ?_
  refine Free.bind (Free.lift _) fun phone => Free.bind (free_ensureOtpNotBlocked phone) fun _ =>
    Free.bind (free_incrWithExpire _ _) fun _ => Free.bind (free_incrWithExpire _ _) fun _ =>
    Free.bind (free_incrWithExpire _ _) fun _ => Free.bind (Free.lift _) fun _ =>
    Free.bind (Free.lift _) fun _ => Free.bind (Free.lift _) fun _ => Free.bind (Free.lift _)
    fun _ => Free.bind (free_incrWithExpire _ _) fun _ => Free.bind (Free.lift _) fun _ =>
    Free.bind (Free.lift _) fun _ => hsend phone

theorem userOfPhone_get {phone : String} {db : AuthDatabase} {found : Id × User}
    (h : userOfPhone phone db = some found) : db.base.users.get found.1 = some found.2 :=
  Table.get_eq_some.mpr (List.mem_of_find?_eq_some h)

theorem wp_upsertUser (phone : String) (newId : Id)
    {Q : Id × User → List AuthKey → List (AuthDatabase → AuthDatabase) → AuthStore → Prop}
    (hQ : ∀ found σ', VersionLe found.1 found.2.sessionVersion σ' → Q found [] [] σ') :
    wp (authContract floor ok) (upsertUser phone newId) Q L [] σ := by
  simp only [upsertUser, Prog.bind_eq, wp_bind, wp_insertMissing, wp_commit, wp_select, wp_lift,
    List.nil_append]
  intro σ₁ _ _ σ₂ _ _ _
  have hgrow : ∀ db : AuthDatabase, UsersGrow db.base
      { db.base with users := db.base.users.insert newId (newUser phone) } := by
    intro db u user huser
    exact ⟨user, Table.get_insert_of_get huser, Nat.le_refl _⟩
  refine ⟨?_, fun σ₃ _ _ found hfound => hQ found σ₃ ?_⟩
  · split
    · exact ⟨fun _ user huser => ⟨user, huser, Nat.le_refl _⟩, rfl, rfl, Int.le_refl _, rfl, rfl,
        rfl, trivial⟩
    · exact ⟨hgrow _, rfl, rfl, Int.le_refl _, rfl, rfl, rfl, trivial⟩
  · have hfound := userOfPhone_get (required_eq_ok.mp hfound)
    exact ⟨found.2, hfound, Nat.le_refl _⟩

theorem keeps_verifyOtp (env : AuthEnv) (rawPhone code installationId : String)
    (ticket newUserId refreshJti newSid : Id) : Keeps (authContract floor ok)
      (verifyOtp env rawPhone code installationId ticket newUserId refreshJti newSid) := by
  intro σ
  simp only [verifyOtp, Prog.bind_eq, wp_bind, wp_lift]
  refine wp_mono _ ?_ (Free.randomUUID ticket [] σ)
  rintro - L₁ ω₁ σ₁ ⟨-, rfl⟩ phone -
  refine wp_mono _ ?_ (free_verifyAndConsumeOtp env phone code ticket L₁ σ₁)
  rintro - L₂ ω₂ σ₂ ⟨-, rfl⟩
  refine wp_upsertUser phone newUserId fun found σ₃ hfound => ?_
  intro _ _
  exact wp_issueTokens env found.2 _ refreshJti newSid none hfound (Or.inl ⟨rfl, rfl⟩)

/-- A record that is read was set with its token. -/
theorem written_of_read (hinv : AuthInv σ) {t : Time} {k : Id × Id}
    {record : RefreshSessionRecord} (h : σ.2.sessions.session.read t k = some record) :
    record.currentJti ∈ σ.2.sessions.written := by
  obtain ⟨e, he, -, rfl⟩ := Table.read_eq_some.mp h
  exact (hinv.session _ _ he).2

theorem free_revoked (u sid : Id) : Free floor ok (runSessions (.revoked u sid)) :=
  Free.onSessions _ fun _ _ => trivial

/-- The record and its index entry go, and the revocation returns. -/
theorem free_dropSession (u sid u' sid' : Id) : Free floor ok (do
    runSessions (.deleteSession u sid)
    runSessions (.unindex u sid)
    runSessions (.revoked u' sid')) :=
  Free.bind (Free.onSessions _ fun _ _ => trivial) fun _ =>
    Free.bind (Free.onSessions _ fun _ _ => trivial) fun _ => free_revoked u' sid'

theorem free_revokeSession (userId sessionId : Id) :
    Free floor ok (revokeSession userId sessionId) := by
  intro L σ
  simp only [revokeSession, Prog.bind_eq, wp_bind]
  refine wp_onSessions (P := fun _ => True) (fun _ _ _ h => h) trivial
    fun σ₁ hinv₁ _ _ => ⟨trivial, fun _ => ?_⟩
  cases hs : (σ₁.2.sessions.session.read σ₁.2.base.now (userId, sessionId)).filter
      (·.userId == userId) with
  | none => exact free_revoked userId sessionId L _
  | some session =>
    have hw := written_of_read hinv₁ (Option.filter_eq_some_iff.mp hs).1
    simp only [wp_bind]
    refine wp_onSessions ((persists_written session.currentJti).keeps) hw
      fun σ₂ _ h₂ _ => ⟨h₂, fun _ => ?_⟩
    simpa only [Prog.bind_eq, wp_bind] using
      free_dropSession userId sessionId userId sessionId L _

theorem keeps_logout (env : AuthEnv) (token : RefreshToken) :
    Keeps (authContract floor ok) (logout env token) := by
  intro σ
  simp only [logout, verifyRefreshToken, Prog.bind_eq, wp_bind, wp_lift, wp_when]
  intro _ _
  refine wp_onSessions (P := fun _ => True) (fun _ _ _ h => h) trivial
    fun σ₁ hinv₁ _ _ => ⟨trivial, fun _ => ⟨fun hvalid => ?_, fun _ => trivial⟩⟩
  have htoken : token ∈ σ₁.2.sessions.refreshTokens := by
    simp only [Bool.and_eq_true, List.contains_iff_mem] at hvalid
    exact hvalid.1
  have hw := (hinv₁.handedOut _ htoken).2.1
  refine wp_onSessions ((persists_written token.jti).keeps) hw fun σ₂ _ h₂ _ =>
    ⟨trivial, fun _ => ?_⟩
  refine wp_onSessions ((persists_written token.jti).keeps) h₂ fun σ₃ _ h₃ _ => ⟨h₃, fun _ => ?_⟩
  cases σ₂.2.sessions.refresh.read σ₂.2.base.now token.jti with
  | none => exact (free_revoked token.sub token.sid).keeps _
  | some session =>
    simpa only [Prog.bind_eq, wp_bind] using
      (free_dropSession session.userId session.sessionId token.sub token.sid).keeps _

/-- A refresh that took the token of its session. -/
structure Taken (floor : Id → Id → Nat) (token : RefreshToken) (ticket : Id)
    (record : RefreshSessionRecord) (σ : AuthStore) : Prop where
  unused : Unused ticket σ
  aboveFloor : AboveFloor floor ticket σ
  consumed : σ.2.sessions.consumed.get token.jti = some ticket
  token : token ∈ σ.2.sessions.refreshTokens
  sid : record.sessionId ∈ σ.2.sessions.drawn
  held : Held record.sessionId record.userId ticket σ

theorem taken_keeps {token : RefreshToken} {ticket : Id} {record : RefreshSessionRecord}
    (hL : .uuid ticket ∈ L) (a b : AuthStore) (h : (authContract floor ok).Other L a b)
    (ht : Taken floor token ticket record a) : Taken floor token ticket record b :=
  ⟨unused_keeps hL a b h ht.unused, (persists_aboveFloor _).keeps a b h ht.aboveFloor,
    (persists_consumed _ _).keeps a b h ht.consumed,
    (persists_refreshTokens _).keeps a b h ht.token, (persists_drawn _).keeps a b h ht.sid,
    held_keeps hL a b h ht.held⟩

/-- A version that is accepted when it equals that of the user is above the floor. -/
theorem le_of_aboveFloor {ticket : Id} {v : Nat} {user : User} (h : AboveFloor floor ticket σ)
    (hu : σ.1.base.users.get u = some user) (hv : v = user.sessionVersion) :
    floor ticket u ≤ v := by
  rcases h u with h | ⟨user', huser', hle⟩
  · omega
  · rw [hu] at huser'
    cases huser'
    omega

theorem keeps_refresh (env : AuthEnv) (token : RefreshToken) (ticket refreshJti newSid : Id) :
    Keeps (authContract floor ok) (refresh env token ticket refreshJti newSid) := by
  intro σ
  simp only [refresh, verifyRefreshToken, Prog.bind_eq, wp_bind, wp_lift]
  refine wp_randomUUID (P := fun _ => True) (fun _ _ _ h => h) trivial
    fun σ₁ _ _ hunused₁ hfloor₁ => ?_
  intro _ _
  have hL : .uuid ticket ∈ [AuthKey.uuid ticket] := List.mem_cons_self
  have hkeeps : ∀ a b, (authContract floor ok).Other [.uuid ticket] a b →
      (Unused ticket a ∧ ticket ∈ a.2.sessions.drawn ∧ AboveFloor floor ticket a) →
      Unused ticket b ∧ ticket ∈ b.2.sessions.drawn ∧ AboveFloor floor ticket b :=
    fun a b h hP => ⟨unused_keeps hL a b h hP.1, (persists_drawn _).keeps a b h hP.2.1,
      (persists_aboveFloor _).keeps a b h hP.2.2⟩
  refine wp_onSessions hkeeps
    ⟨⟨hunused₁.minted, hunused₁.chains, hunused₁.redeemed, hunused₁.issued, hunused₁.checks⟩,
      List.mem_cons_self, hfloor₁⟩ fun σ₂ _ h₂ _ => ⟨trivial, fun _ => ?_⟩
  intro _ hvalid
  have htoken₂ : token ∈ σ₂.2.sessions.refreshTokens := by
    simp only [ensure_eq_ok, Bool.and_eq_true, List.contains_iff_mem] at hvalid
    exact hvalid.1
  refine wp_onSessions (P := fun σ => (Unused ticket σ ∧ ticket ∈ σ.2.sessions.drawn ∧
      AboveFloor floor ticket σ) ∧ token ∈ σ.2.sessions.refreshTokens)
    (fun a b h hP => ⟨hkeeps a b h hP.1, (persists_refreshTokens _).keeps a b h hP.2⟩)
    ⟨h₂, htoken₂⟩ fun σ₃ hinv₃ h₃ _ => ⟨⟨h₃.2, hL, h₃.1.2.1⟩, fun hinv₃' => ?_⟩
  cases hs : (σ₃.2.sessions.refresh.read σ₃.2.base.now token.jti).filter
      (·.userId == token.sub) with
  | none =>
    simp only [wp_bind]
    exact wp_mono _ (fun _ _ _ _ _ => trivial) (free_revokeSession token.sub token.sid _ _)
  | some storedSession =>
    obtain ⟨hread, hsub⟩ := Option.filter_eq_some_iff.mp hs
    have htaken : Taken floor token ticket storedSession
        (σ₃.1, (AuthEvent.session (.redeem token ticket)).applyWorld σ₃.2) := by
      have hchain := hinv₃.live _ _ hread
      have hc : (AuthEvent.applyWorld (.session (.redeem token ticket)) σ₃.2).sessions.consumed.get
          token.jti = some ticket := by
        simp only [AuthEvent.applyWorld, SessionEvent.apply, hread, Option.isSome_some, if_true]
        exact (Table.get_put ..).trans (if_pos rfl)
      have hstep : AuthGuar floor (.session (.redeem token ticket)) [.uuid ticket] σ₃
          (σ₃.1, (AuthEvent.session (.redeem token ticket)).applyWorld σ₃.2) :=
        guar_session ⟨h₃.2, hL, h₃.1.2.1⟩
      have hunused := h₃.1.1.step hinv₃ hstep (by simp [AuthEvent.introduces])
      refine ⟨hunused, h₃.1.2.2, hc, h₃.2, ?_, true, ?_⟩
      · by_contra hdrawn
        rw [(hinv₃.unused _ hdrawn).chains] at hchain
        cases hchain
      · simp only [AuthEvent.applyWorld, SessionEvent.apply, hread]
        exact (Table.get_put ..).trans (if_pos rfl)
    simp only [wp_bind, wp_select]
    intro σ₄ hi₄ hinv₄
    have h₄ := interference_keeps (taken_keeps hL) hi₄ htaken
    cases huser : (view [] σ₄.1).base.users.get token.sub with
    | none =>
      simp only [wp_bind]
      exact wp_onSessions (P := fun _ => True) (fun _ _ _ h => h) trivial
        fun _ _ _ _ => ⟨trivial, fun _ => trivial⟩
    | some user =>
      simp only [wp_bind, wp_lift, ensure_eq_ok, beq_iff_eq]
      intro _ hversion _ _
      refine wp_issueTokens env user _ refreshJti newSid _ ⟨user, huser, Nat.le_refl _⟩
        (Or.inr ⟨_, _, rfl, rfl, h₄.sid, ?_, hL, h₄.consumed, h₄.token, h₄.unused.redeemed, ?_⟩)
      · rw [← beq_iff_eq.mp hsub]
        exact h₄.held
      · exact le_of_aboveFloor h₄.aboveFloor huser hversion

theorem free_smembers (userId : Id) : Free floor ok (smembers userId) :=
  Free.onSessions _ fun _ _ => trivial

theorem free_collectSessions (userId : Id) (currentInstallationId : String) (ids : List Id) :
    Free floor ok (collectSessions userId currentInstallationId ids) := by
  induction ids with
  | nil => exact Free.ret _
  | cons sessionId rest ih =>
    refine Free.bind (Free.onSessions _ fun _ _ => trivial) fun session => ?_
    cases session with
    | none => exact Free.bind (Free.onSessions _ fun _ _ => trivial) fun _ => ih
    | some session => exact Free.bind ih fun _ => Free.ret _

theorem free_listSessions (userId : Id) (currentInstallationId : String) :
    Free floor ok (listSessions userId currentInstallationId) :=
  Free.bind (free_smembers userId) fun ids =>
    Free.bind (free_collectSessions userId currentInstallationId ids) fun _ => Free.ret _

theorem free_currentTokens (userId : Id) (ids : List Id) :
    Free floor ok (currentTokens userId ids) := by
  induction ids with
  | nil => exact Free.ret _
  | cons sessionId rest ih =>
    exact Free.bind (Free.onSessions _ fun _ _ => trivial) fun _ => Free.bind ih fun _ =>
      Free.ret _

theorem keeps_revokeAllSessions (userId : Id) :
    Keeps (authContract floor ok) (revokeAllSessions userId) := by
  intro σ
  simp only [revokeAllSessions, Prog.bind_eq, wp_bind, wp_updateWhere, wp_lift, wp_commit]
  refine wp_mono _ ?_ (free_smembers userId [] σ)
  rintro sessionIds L₁ ω₁ σ₁ ⟨-, rfl⟩
  refine wp_mono _ ?_ (free_currentTokens userId sessionIds L₁ σ₁)
  rintro jtis L₂ ω₂ σ₂ ⟨-, rfl⟩ σ₃ - - _ hfound σ₄ - - -
  rw [ensure_eq_ok] at hfound
  rw [hfound, if_pos rfl]
  refine ⟨⟨usersGrow_update userId (fun _ => Nat.le_succ _) _, rfl, rfl, Int.le_refl _, rfl, rfl, rfl, trivial⟩, ?_⟩
  exact fun _ _ _ _ => ⟨guar_session trivial, trivial⟩

theorem keeps_verifyUserStepUpOtp (env : AuthEnv) (userId : Id) (phone code : String)
    (purpose : UserStepUpPurpose) (ticket jti : Id) : Keeps (authContract floor ok)
      (verifyUserStepUpOtp env userId phone code purpose ticket jti) := by
  refine Free.keeps ?_
  exact Free.bind (Free.randomUUID ticket) fun _ =>
    Free.bind (free_verifyAndConsumeOtp env phone code ticket) fun _ =>
    Free.bind (Free.select _) fun _ => Free.bind (Free.lift _) fun _ =>
    Free.bind (Free.randomUUID jti) fun _ => Free.bind (Free.lift _) fun _ =>
    Free.bind (Free.onSessions _ fun _ _ => trivial) fun _ =>
    Free.bind (Free.onSessions _ fun _ _ => trivial) fun _ =>
    Free.bind (Free.onSessions _ fun _ _ => trivial) fun _ => Free.ret _

theorem keeps_consumeUserStepUpToken (env : AuthEnv) (token : UserStepUpToken) (userId : Id)
    (purpose : UserStepUpPurpose) (ticket : Id) : Keeps (authContract floor ok)
      (consumeUserStepUpToken env token userId purpose ticket) := by
  intro σ
  simp only [consumeUserStepUpToken, Prog.bind_eq, wp_bind, wp_lift, wp_select]
  refine wp_randomUUID (P := fun _ => True) (fun _ _ _ h => h) trivial
    fun σ₁ _ _ _ hfloor₁ => ?_
  intro _ _
  have hkeeps := fun (L : List AuthKey) =>
    (persists_aboveFloor ticket : Persists (authContract floor ok) _).keeps (L := L)
  refine wp_onSessions (hkeeps _) hfloor₁ fun σ₂ _ h₂ _ => ⟨trivial, fun _ => ?_⟩
  intro _ _ σ₃ hi₃ _
  have h₃ := interference_keeps (hkeeps _) hi₃ h₂
  refine wp_onSessions (P := fun _ => True) (fun _ _ _ h => h) trivial
    fun σ₄ _ _ _ => ⟨trivial, fun _ => ?_⟩
  intro _ huser _ _
  obtain ⟨user, hget, hany⟩ := (Option.any_eq_true _ _).mp (ensure_eq_ok.mp huser)
  simp only [Bool.and_eq_true, beq_iff_eq] at hany
  have hle := le_of_aboveFloor h₃ hget hany.2.symm
  exact wp_onSessions (P := fun _ => True) (fun _ _ _ h => h) trivial
    fun σ₅ _ _ _ => ⟨hle, fun _ => trivial⟩

end AuthService

theorem JwtAuthGuard.keeps_canActivate (env : AuthEnv) (token : AccessToken) (ticket : Id) :
    Keeps (authContract floor ok) (canActivate env token ticket) := by
  intro σ
  simp only [canActivate, Prog.bind_eq, wp_bind, wp_lift, wp_select]
  refine wp_randomUUID (P := fun _ => True) (fun _ _ _ h => h) trivial
    fun σ₁ _ _ _ hfloor₁ => ?_
  intro _ _
  have hkeeps := fun (L : List AuthKey) =>
    (persists_aboveFloor ticket : Persists (authContract floor ok) _).keeps (L := L)
  refine wp_onSessions (hkeeps _) hfloor₁ fun σ₂ _ h₂ _ => ⟨trivial, fun _ => ?_⟩
  intro _ _ σ₃ hi₃ _ user huser _ hversion _ _
  have h₃ := interference_keeps (hkeeps _) hi₃ h₂
  have hget := (Option.filter_eq_some_iff.mp (required_eq_ok.mp huser)).1
  have hle := AuthService.le_of_aboveFloor h₃ hget (beq_iff_eq.mp (ensure_eq_ok.mp hversion))
  exact wp_onSessions (P := fun _ => True) (fun _ _ _ h => h) trivial
    fun σ₄ _ _ _ => ⟨hle, fun _ => trivial⟩

namespace AdminSessionService

theorem keeps_authenticate (env : AuthEnv) (sessionId : Id) (csrfToken : Option String)
    (ticket : Id) : Keeps (authContract floor ok)
      (authenticate env sessionId csrfToken ticket) := by
  intro σ
  simp only [authenticate, Prog.bind_eq, wp_bind, wp_lift, wp_select]
  refine wp_randomUUID (P := fun _ => True) (fun _ _ _ h => h) trivial
    fun σ₁ _ _ _ hfloor₁ => ?_
  have hkeeps := fun (L : List AuthKey) =>
    (persists_aboveFloor ticket : Persists (authContract floor ok) _).keeps (L := L)
  refine wp_onSessions (hkeeps _) hfloor₁ fun σ₂ _ h₂ _ => ⟨trivial, fun _ => ?_⟩
  intro stored _ _ _ σ₃ hi₃ _
  have h₃ := interference_keeps (hkeeps _) hi₃ h₂
  split
  · rename_i hany
    obtain ⟨user, hget, hmatch⟩ := (Option.any_eq_true _ _).mp hany
    simp only [Bool.and_eq_true, beq_iff_eq] at hmatch
    have hle := AuthService.le_of_aboveFloor h₃ hget hmatch.2
    exact wp_onSessions (P := fun _ => True) (fun _ _ _ h => h) trivial
      fun σ₄ _ _ _ => ⟨hle, fun _ => trivial⟩
  · simp only [wp_bind]
    exact wp_onSessions (P := fun _ => True) (fun _ _ _ h => h) trivial
      fun σ₄ _ _ _ => ⟨trivial, fun _ => trivial⟩

end AdminSessionService

end Sosedi
