import Sosedi.Auth.AuthSafety

/-!
# Second factors keep to the contract

Proved here: the calls of `AdminMfaService` and `AdminSessionService.stepUp` keep to
`authContract`; what others leave alone of the rows that they lock.
-/

namespace Sosedi

open Transactions

variable {floor : Id → Id → Nat} {ok : AuthEvent → AuthStore → Prop} {L K : List AuthKey}
  {ω : List (AuthDatabase → AuthDatabase)} {σ a b : AuthStore} {ev : AuthEvent} {id u : Id}

/-! ## Rows -/

theorem get_insertCodes (userId : Id) (hashes : List String) (t : Table String RecoveryCode)
    (h : String) : (hashes.foldl (fun t h => t.insert h ⟨userId, none, none⟩) t).get h =
      if h ∈ hashes ∧ t.get h = none then some ⟨userId, none, none⟩ else t.get h := by
  induction hashes generalizing t with
  | nil => simp
  | cons h' hashes ih =>
    rw [List.foldl_cons, ih]
    by_cases heq : h = h'
    · subst heq
      cases hget : t.get h with
      | none => simp [Table.get_insert_self _ hget]
      | some code => simp [Table.get_insert_of_get hget]
    · simp [Table.get_insert_ne _ _ heq, heq]

/-- What a step does to the credential of a user. -/
theorem AuthGuar.get_credentials (h : AuthGuar floor ev K a b) (u : Id) :
    b.1.credentials.get u = a.1.credentials.get u ∨ .credentialRow u ∈ K ∧
      ((∃ credential codeHashes, ev = .enableMfa u credential codeHashes ∧
        a.1.credentials.get u = none ∧ b.1.credentials.get u = some credential ∧
        credential.uses = [(credential.lastTotpStep, none)]) ∨
      ∃ credential timeStep ticket, ev = .useTotp u timeStep ticket ∧
        a.1.credentials.get u = some credential ∧ credential.lastTotpStep < timeStep ∧
        b.1.credentials.get u = some (AdminMfaService.useTimeStep timeStep ticket credential)) := by
  have hc := h.credentials
  have hg := h.guard
  cases ev with
  | enableMfa u' credential codeHashes =>
    obtain ⟨hK, hnone, huses, -⟩ := hg
    by_cases hu : u = u'
    · subst hu
      refine Or.inr ⟨hK, Or.inl ⟨credential, codeHashes, rfl, hnone, ?_, huses⟩⟩
      rw [hc, AuthEvent.applyCredentials, Table.get_insert_self _ hnone]
    · rw [hc, AuthEvent.applyCredentials, Table.get_insert_ne _ _ hu]
      exact Or.inl rfl
  | useTotp u' timeStep ticket =>
    obtain ⟨hK, credential, hget, hlt⟩ := hg
    by_cases hu : u = u'
    · subst hu
      refine Or.inr ⟨hK, Or.inr ⟨credential, timeStep, ticket, rfl, hget, hlt, ?_⟩⟩
      rw [hc, AuthEvent.applyCredentials, Table.get_modify_self, hget]
      rfl
    · rw [hc, AuthEvent.applyCredentials, Table.get_modify_ne _ _ hu]
      exact Or.inl rfl
  | _ => exact Or.inl (congrArg (·.get u) hc)

/-- What a step does to a recovery code. -/
theorem AuthGuar.get_recoveryCodes (h : AuthGuar floor ev K a b) (codeHash : String) :
    b.1.recoveryCodes.get codeHash = a.1.recoveryCodes.get codeHash ∨ .recoveryRow codeHash ∈ K ∧
      ((∃ userId, a.1.recoveryCodes.get codeHash = none ∧
        b.1.recoveryCodes.get codeHash = some ⟨userId, none, none⟩) ∨
      ∃ code usedAt ticket, ev = .useRecoveryCode code.userId codeHash usedAt ticket ∧
        a.1.recoveryCodes.get codeHash = some code ∧ code.usedAt = none ∧
        b.1.recoveryCodes.get codeHash =
          some { code with usedAt := some usedAt, usedBy := some ticket }) := by
  have hc := h.recoveryCodes
  have hg := h.guard
  cases ev with
  | enableMfa u' credential codeHashes =>
    obtain ⟨-, -, -, hcodes⟩ := hg
    by_cases hmem : codeHash ∈ codeHashes
    · obtain ⟨hK, hnone⟩ := hcodes codeHash hmem
      refine Or.inr ⟨hK, Or.inl ⟨u', hnone, ?_⟩⟩
      rw [hc, AuthEvent.applyRecoveryCodes, get_insertCodes, if_pos ⟨hmem, hnone⟩]
    · rw [hc, AuthEvent.applyRecoveryCodes, get_insertCodes, if_neg fun h => hmem h.1]
      exact Or.inl rfl
  | useRecoveryCode u' codeHash' usedAt ticket =>
    obtain ⟨hK, code, hget, hunused⟩ := hg
    by_cases heq : codeHash = codeHash'
    · subst heq
      simp only [AdminMfaService.isUnused, Bool.and_eq_true, beq_iff_eq,
        Option.isNone_iff_eq_none] at hunused
      obtain ⟨rfl, hnone⟩ := hunused
      refine Or.inr ⟨hK, Or.inr ⟨code, usedAt, ticket, rfl, hget, hnone, ?_⟩⟩
      rw [hc, AuthEvent.applyRecoveryCodes, Table.get_modify_self, hget]
      rfl
    · rw [hc, AuthEvent.applyRecoveryCodes, Table.get_modify_ne _ _ heq]
      exact Or.inl rfl
  | _ => exact Or.inl (congrArg (·.get codeHash) hc)

/-- A client that holds the row of a credential sees no change of it. -/
theorem credential_keeps (hL : .credentialRow u ∈ L)
    (hi : (authContract floor ok).Interference L a b) :
    b.1.credentials.get u = a.1.credentials.get u := by
  induction hi with
  | refl => rfl
  | tail _ hs ih =>
    obtain ⟨K, hK, -, ev, -, hg⟩ := hs
    rcases hg.get_credentials u with he | ⟨hrow, -⟩
    · exact he.trans ih
    · exact absurd hL (hK _ hrow)

theorem recoveryCode_keeps {codeHash : String} (hL : .recoveryRow codeHash ∈ L)
    (hi : (authContract floor ok).Interference L a b) :
    b.1.recoveryCodes.get codeHash = a.1.recoveryCodes.get codeHash := by
  induction hi with
  | refl => rfl
  | tail _ hs ih =>
    obtain ⟨K, hK, -, ev, -, hg⟩ := hs
    rcases hg.get_recoveryCodes codeHash with he | ⟨hrow, -⟩
    · exact he.trans ih
    · exact absurd hL (hK _ hrow)

/-- The time step was used by this call. -/
def UsedStep (userId : Id) (timeStep : Int) (ticket : Id) (σ : AuthStore) : Prop :=
  ∃ credential, σ.1.credentials.get userId = some credential ∧
    (timeStep, some ticket) ∈ credential.uses

/-- The recovery code was used by this call. -/
def UsedCode (userId : Id) (codeHash : String) (ticket : Id) (σ : AuthStore) : Prop :=
  ∃ code, σ.1.recoveryCodes.get codeHash = some code ∧ code.userId = userId ∧
    code.usedAt.isSome ∧ code.usedBy = some ticket

theorem UsedStep.step {timeStep : Int} {ticket : Id} (h : AuthGuar floor ev K a b)
    (hu : UsedStep u timeStep ticket a) : UsedStep u timeStep ticket b := by
  obtain ⟨credential, hget, hmem⟩ := hu
  rcases h.get_credentials u with he | ⟨-, ⟨_, _, -, hnone, -⟩ |
    ⟨credential', timeStep', ticket', -, hget', -, hb⟩⟩
  · exact ⟨credential, he.trans hget, hmem⟩
  · rw [hget] at hnone
    cases hnone
  · rw [hget] at hget'
    cases hget'
    exact ⟨_, hb, List.mem_append_left _ hmem⟩

theorem UsedCode.step {codeHash : String} {ticket : Id} (h : AuthGuar floor ev K a b)
    (hu : UsedCode u codeHash ticket a) : UsedCode u codeHash ticket b := by
  obtain ⟨code, hget, huser, hused, hby⟩ := hu
  rcases h.get_recoveryCodes codeHash with he | ⟨-, ⟨_, hnone, -⟩ |
    ⟨code', usedAt, ticket', -, hget', hnone, -⟩⟩
  · exact ⟨code, he.trans hget, huser, hused, hby⟩
  · rw [hget] at hnone
    cases hnone
  · rw [hget] at hget'
    cases hget'
    rw [hnone] at hused
    cases hused

theorem wp_onMfa {α : Type} {ev : MfaEvent} {out : Time → MfaStore → α}
    {Q : α → List AuthKey → List (AuthDatabase → AuthDatabase) → AuthStore → Prop}
    {P : AuthStore → Prop} (hP : ∀ a b, (authContract floor ok).Other L a b → P a → P b)
    (hσ : P σ)
    (h : ∀ σ', AuthInv σ' → P σ' → ev.Guard L σ' ∧ Q (out σ'.2.base.now σ'.2.mfa) L ω
      (σ'.1, (AuthEvent.mfa ev).applyWorld σ'.2)) :
    wp (authContract floor ok) (onMfa ev out) Q L ω σ := by
  intro σ' hi hinv _
  obtain ⟨hg, hQ⟩ := h σ' hinv (interference_keeps hP hi hσ)
  exact ⟨guar_mfa hg, hQ⟩

namespace AdminMfaService

theorem keeps_beginTotpSetup (env : AuthEnv) (userId : Id) (secret : String) :
    Keeps (authContract floor ok) (beginTotpSetup env userId secret) := by
  intro σ
  simp only [beginTotpSetup, createAuthAudit, Prog.bind_eq, wp_bind, wp_lift, wp_select, wp_write,
    wp_commit, List.nil_append]
  intro σ₁ _ _ _ _ _ _
  refine wp_onMfa (P := fun _ => True) (fun _ _ _ h => h) trivial fun σ₂ _ _ => ⟨trivial, ?_⟩
  intro σ₃ _ _ σ₄ _ _ _
  exact ⟨⟨usersGrow_refl _ _ rfl, rfl, rfl, Int.le_refl _, rfl, rfl, rfl, trivial⟩, trivial⟩

theorem keeps_confirmTotpSetup (env : AuthEnv) (userId : Id) (code : String)
    (recoveryCodes : List String) (now : Int) : Keeps (authContract floor ok)
      (confirmTotpSetup env userId code recoveryCodes now) := by
  intro σ
  simp only [confirmTotpSetup, createRecoveryCodes, createAuthAudit, Prog.bind_eq, wp_bind, wp_lift,
    wp_insertUnique, wp_write, wp_commit]
  refine wp_onMfa (P := fun _ => True) (fun _ _ _ h => h) trivial fun σ₂ _ _ => ⟨trivial, ?_⟩
  intro _ _ secret _ _ _ timeStep _ encrypted _ σ₃ hi₃ _ hnone₃ σ₄ hi₄ _ htaken₄ σ₅ hi₅ _
    σ₆ hi₆ _ _
  set codeHashes := recoveryCodes.map (hashRecoveryCode env)
  have hnone₆ : σ₆.1.credentials.get userId = none := by
    rw [credential_keeps (by simp) hi₆, credential_keeps (by simp) hi₅,
      credential_keeps (by simp) hi₄]
    simpa using hnone₃
  have hfree : ∀ h ∈ codeHashes, σ₆.1.recoveryCodes.get h = none := by
    intro h hh
    simp only [Bool.or_eq_false_iff, List.any_eq_false] at htaken₄
    rw [recoveryCode_keeps (by simp [hh]) hi₆, recoveryCode_keeps (by simp [hh]) hi₅]
    simpa using htaken₄.2 h hh
  refine ⟨⟨usersGrow_refl _ _ rfl, rfl, rfl, Int.le_refl _, rfl, rfl, rfl, ?_⟩, ?_⟩
  · exact ⟨by simp, hnone₆, rfl, fun h hh => ⟨by simp [hh], hfree h hh⟩⟩
  · exact wp_onMfa (P := fun _ => True) (fun _ _ _ h => h) trivial fun _ _ _ => ⟨trivial, trivial⟩

/-- A code is checked under a number that the counter gave to its call. -/
structure Admitted (attempts : Nat × Nat) (ticket : Id) (σ : AuthStore) : Prop where
  unused : Unused ticket σ
  drawn : ticket ∈ σ.2.sessions.drawn
  admitted : (attempts.1, attempts.2, ticket) ∈ σ.2.mfa.admitted

theorem admitted_keeps {attempts : Nat × Nat} {ticket : Id} (hL : .uuid ticket ∈ L)
    (a b : AuthStore) (h : (authContract floor ok).Other L a b)
    (ha : Admitted attempts ticket a) : Admitted attempts ticket b := by
  refine ⟨unused_keeps hL a b h ha.unused, (persists_drawn _).keeps a b h ha.drawn, ?_⟩
  obtain ⟨K, -, -, ev, -, hg⟩ := h
  rw [hg.mfa]
  cases ev with
  | mfa mev =>
    cases mev with
    | countAttempt u' ticket' => exact List.mem_cons_of_mem _ ha.admitted
    | _ => exact ha.admitted
  | _ => exact ha.admitted

theorem wp_registerAttempt (userId ticket : Id) (hL : .uuid ticket ∈ L)
    (hu : Unused ticket σ) (hd : ticket ∈ σ.2.sessions.drawn) :
    wp (authContract floor ok) (registerAttempt userId ticket)
      (fun attempts L' ω' σ' => L' = L ∧ ω' = ω ∧ attempts.2 ≤ maxMfaAttempts ∧
        Admitted attempts ticket σ') L ω σ := by
  simp only [registerAttempt, Prog.bind_eq, wp_bind, wp_lift, wp_when]
  refine wp_onMfa (P := fun σ => Unused ticket σ ∧ ticket ∈ σ.2.sessions.drawn)
    (fun a b h hP => ⟨unused_keeps hL a b h hP.1, (persists_drawn _).keeps a b h hP.2⟩) ⟨hu, hd⟩
    fun σ₁ _ h₁ => ⟨⟨hL, h₁.2⟩, ?_⟩
  have hadm : Admitted (σ₁.2.mfa.lifeOf σ₁.2.base.now userId,
      σ₁.2.mfa.attempt.next σ₁.2.base.now userId) ticket
      (σ₁.1, (AuthEvent.mfa (.countAttempt userId ticket)).applyWorld σ₁.2) :=
    ⟨⟨h₁.1.minted, h₁.1.chains, h₁.1.redeemed, h₁.1.issued, h₁.1.checks⟩, h₁.2,
      List.mem_cons_self⟩
  refine ⟨fun _ => ?_, fun _ _ hle => ⟨rfl, rfl, by simpa using hle, hadm⟩⟩
  refine wp_onMfa (admitted_keeps hL) hadm fun σ₂ _ h₂ => ⟨trivial, fun _ hle => ?_⟩
  exact ⟨rfl, rfl, by simpa using hle,
    ⟨⟨h₂.unused.minted, h₂.unused.chains, h₂.unused.redeemed, h₂.unused.issued,
      h₂.unused.checks⟩, h₂.drawn, h₂.admitted⟩⟩

theorem wp_verifyTotp (env : AuthEnv) (userId : Id) (code : String) (now : Int)
    (attempts : Nat × Nat) (ticket : Id) (hL : .uuid ticket ∈ L) (hn : attempts.2 ≤ maxMfaAttempts)
    (ha : Admitted attempts ticket σ) :
    wp (authContract floor ok) (verifyTotp env userId code now attempts ticket)
      (fun timeStep L' ω' σ' => L' = [] ∧ ω' = [] ∧ UsedStep userId timeStep ticket σ')
      L [] σ := by
  simp only [verifyTotp, Prog.bind_eq, wp_bind, wp_lift, wp_select, wp_updateWhere, wp_commit]
  intro σ₁ hi₁ _ _ _ _ _ _ _
  refine wp_onMfa (admitted_keeps hL) (interference_keeps (admitted_keeps hL) hi₁ ha)
    fun σ₂ _ h₂ => ⟨⟨hL, h₂.drawn, h₂.admitted, hn, h₂.unused.checks⟩, ?_⟩
  intro timeStep _ σ₃ _ _ _ hupdated σ₄ hi₄ _ _
  rw [ensure_eq_ok] at hupdated
  rw [hupdated, if_pos rfl] at hi₄
  obtain ⟨credential, hget₃, hlt⟩ := (Option.any_eq_true _ _).mp hupdated
  have hget₄ := (credential_keeps (by simp) hi₄).trans hget₃
  rw [hupdated, if_pos rfl]
  refine ⟨⟨usersGrow_refl _ _ rfl, rfl, rfl, Int.le_refl _, rfl, rfl, rfl, ?_⟩, rfl, rfl, ?_⟩
  · exact ⟨by simp, credential, hget₄, by simpa using hlt⟩
  · refine ⟨useTimeStep timeStep ticket credential, ?_, by simp [useTimeStep]⟩
    simp [hget₄]

theorem wp_consumeRecoveryCode (env : AuthEnv) (userId : Id) (recoveryCode : String)
    (attempts : Nat × Nat) (ticket : Id) (hL : .uuid ticket ∈ L) (hn : attempts.2 ≤ maxMfaAttempts)
    (ha : Admitted attempts ticket σ) :
    wp (authContract floor ok) (consumeRecoveryCode env userId recoveryCode attempts ticket)
      (fun codeHash L' ω' σ' => L' = [] ∧ ω' = [] ∧ UsedCode userId codeHash ticket σ')
      L [] σ := by
  simp only [consumeRecoveryCode, createAuthAudit, authClock, Prog.bind_eq, wp_bind, wp_lift,
    wp_updateWhere, wp_write, wp_commit]
  refine wp_onMfa (admitted_keeps hL) ha
    fun σ₁ _ h₁ => ⟨⟨hL, h₁.drawn, h₁.admitted, hn, h₁.unused.checks⟩, ?_⟩
  refine wp_onSessions (P := fun _ => True) (fun _ _ _ h => h) trivial
    fun σ₂ _ _ _ => ⟨trivial, fun _ => ?_⟩
  set codeHash := hashRecoveryCode env recoveryCode
  intro σ₃ _ _ _ hconsumed σ₄ hi₄ _ σ₅ hi₅ _ _
  rw [ensure_eq_ok] at hconsumed
  rw [hconsumed, if_pos rfl] at hi₄ hi₅
  obtain ⟨recovery, hget₃, hunused⟩ := (Option.any_eq_true _ _).mp hconsumed
  have hget₄ := (recoveryCode_keeps (by simp) hi₄).trans hget₃
  have hget₅ := (recoveryCode_keeps (by simp) hi₅).trans hget₄
  rw [hconsumed, if_pos rfl]
  refine ⟨⟨usersGrow_refl _ _ rfl, rfl, rfl, Int.le_refl _, rfl, rfl, rfl, ?_⟩, rfl, rfl, ?_⟩
  · exact ⟨by simp, recovery, hget₅, hunused⟩
  · have huser : recovery.userId = userId := by
      simp only [isUnused, Bool.and_eq_true, beq_iff_eq] at hunused
      exact hunused.1
    refine ⟨{ recovery with usedAt := some σ₂.2.base.now, usedBy := some ticket }, ?_, huser, rfl,
      rfl⟩
    simp [hget₅]

theorem wp_verifyStepUp (env : AuthEnv) (userId : Id) (rawCode : String) (now : Int)
    (ticket : Id) (hL : .uuid ticket ∈ L) (hu : Unused ticket σ)
    (hd : ticket ∈ σ.2.sessions.drawn) :
    wp (authContract floor ok) (verifyStepUp env userId rawCode now ticket)
      (fun _ L' ω' _ => L' = [] ∧ ω' = []) L [] σ := by
  simp only [verifyStepUp, Prog.bind_eq, wp_bind]
  refine wp_mono _ ?_ (wp_registerAttempt userId ticket hL hu hd)
  rintro attempts L₁ ω₁ σ₁ ⟨rfl, rfl, hn, hadm⟩
  -- the use is recorded after its commit, when nothing is locked any more
  have hrest : ∀ (used : StepUpCode) (P : AuthStore → Prop) σ₂, P σ₂ →
      (∀ a b, (authContract floor ok).Other [] a b → P a → P b) →
      (∀ σ, P σ → MfaEvent.Guard [] σ (.recordStepUp ⟨userId, used, ticket⟩)) →
      (∀ σ, P σ → P (σ.1, (AuthEvent.mfa (.clearAttempts userId)).applyWorld σ.2)) →
      wp (authContract floor ok) (do
        runMfa (.clearAttempts userId)
        runMfa (.recordStepUp ⟨userId, used, ticket⟩)) (fun _ L' ω' _ => L' = [] ∧ ω' = [])
        [] [] σ₂ := by
    intro used P σ₂ hP₂ hkeeps hguard hclear
    simp only [Prog.bind_eq, wp_bind]
    refine wp_onMfa hkeeps hP₂ fun σ₃ _ h₃ => ⟨trivial, ?_⟩
    exact wp_onMfa hkeeps (hclear _ h₃) fun σ₄ _ h₄ => ⟨hguard _ h₄, rfl, rfl⟩
  split
  · simp only [wp_bind]
    refine wp_mono _ ?_ (wp_verifyTotp env userId _ now attempts ticket hL hn hadm)
    rintro timeStep L₂ ω₂ σ₂ ⟨rfl, rfl, hused⟩
    refine (wp_bind ..).mp (hrest (.totp timeStep) (UsedStep userId timeStep ticket) σ₂ hused ?_
      (fun _ h => h) fun _ h => h)
    rintro a b ⟨K, -, -, ev, -, hg⟩ h
    exact h.step hg
  · simp only [wp_bind]
    refine wp_mono _ ?_ (wp_consumeRecoveryCode env userId _ attempts ticket hL hn hadm)
    rintro codeHash L₂ ω₂ σ₂ ⟨rfl, rfl, hused⟩
    refine (wp_bind ..).mp (hrest (.recovery codeHash) (UsedCode userId codeHash ticket) σ₂ hused ?_
      (fun _ h => h) fun _ h => h)
    rintro a b ⟨K, -, -, ev, -, hg⟩ h
    exact h.step hg

end AdminMfaService

theorem AdminSessionService.keeps_stepUp (env : AuthEnv) (userId : Id) (code : String) (now : Int)
    (ticket sessionId : Id) (csrfToken : String) : Keeps (authContract floor ok)
      (stepUp env userId code now ticket sessionId csrfToken) := by
  intro σ
  simp only [stepUp, createAuthAudit, Prog.bind_eq, wp_bind, wp_lift, wp_select, wp_write,
    wp_commit, List.nil_append]
  refine wp_randomUUID (P := fun _ => True) (fun _ _ _ h => h) trivial fun σ₁ _ _ hu₁ _ => ?_
  intro σ₂ hi₂ _ user _ ttl _
  have hL : .uuid ticket ∈ [AuthKey.uuid ticket] := List.mem_cons_self
  have h₂ : Unused ticket σ₂ ∧ ticket ∈ σ₂.2.sessions.drawn :=
    ⟨interference_keeps (unused_keeps hL) hi₂ ⟨hu₁.minted, hu₁.chains, hu₁.redeemed, hu₁.issued,
      hu₁.checks⟩, interference_keeps (persists_drawn ticket).keeps hi₂ List.mem_cons_self⟩
  refine wp_mono _ ?_ (AdminMfaService.wp_verifyStepUp env userId code now ticket hL h₂.1 h₂.2)
  rintro - L₃ ω₃ σ₃ ⟨rfl, rfl⟩ σ₄ - - σ₅ - - -
  refine ⟨⟨usersGrow_refl _ _ rfl, rfl, rfl, Int.le_refl _, rfl, rfl, rfl, trivial⟩, ?_⟩
  refine wp_randomUUID (P := fun _ => True) (fun _ _ _ h => h) trivial fun σ₆ _ _ _ _ => ?_
  exact wp_onSessions (P := fun _ => True) (fun _ _ _ h => h) trivial
    fun _ _ _ _ => ⟨trivial, fun _ => trivial⟩

end Sosedi
