import Sosedi.Auth.AuthScripts

/-!
# Refresh tokens rotate

A refresh takes the key of its token before it answers, and a session has one key at a time:
the chain of a session names the only token whose key can be live.

Proved here:

* `rotation`: a token is redeemed at most once, and at every moment at most one token of a
  session would be accepted.
-/

namespace Sosedi

open Transactions

variable {env : AuthEnv} {ok : AuthEvent → AuthStore → Prop} {s₀ s : State AuthSys}
  {σ : AuthStore} {α β : Type}

/-- A refresh with the token that runs now, and alone, succeeds. -/
def Accepts (env : AuthEnv) (σ : AuthStore) (token : RefreshToken) : Prop :=
  ∃ ticket refreshJti newSid answer,
    ((AuthService.refresh env token ticket refreshJti newSid).alone [] σ).1 = .ok answer

theorem accepts_of_isOk {token : RefreshToken} (ticket refreshJti newSid : Id)
    (h : (((AuthService.refresh env token ticket refreshJti newSid).alone [] σ).1).isOk = true) :
    Accepts env σ token := by
  cases hx : ((AuthService.refresh env token ticket refreshJti newSid).alone [] σ).1 with
  | ok answer => exact ⟨ticket, refreshJti, newSid, answer, hx⟩
  | error e =>
    rw [hx] at h
    cases h

/-! ## A call alone -/

theorem alone_onSessions (ev : SessionEvent) (out : Time → SessionStore → α)
    (f : α → Prog AuthSys β) (ω : List (AuthDatabase → AuthDatabase)) (σ : AuthStore) :
    ((onSessions ev out).bind f).alone ω σ = (f (out σ.2.base.now σ.2.sessions)).alone ω
      (σ.1, (AuthEvent.session ev).applyWorld σ.2) := rfl

theorem alone_randomUUID {id : Id} {f : Unit → Prog AuthSys β}
    {ω : List (AuthDatabase → AuthDatabase)} {b : β}
    (h : (((randomUUID id).bind f).alone ω σ).1 = .ok b) :
    ((f ()).alone ω (σ.1, (AuthEvent.session (.draw id)).applyWorld σ.2)).1 = .ok b := by
  simp only [randomUUID, Prog.bind_eq, Prog.bind_assoc, Prog.alone_acquire, alone_onSessions,
    Prog.alone_lift] at h
  split at h
  · exact h
  · cases h

/-- A call that throws after a computation of its own does not succeed. -/
theorem alone_bind_throwing (p : Prog AuthSys α) (e : Error)
    (ω : List (AuthDatabase → AuthDatabase)) (σ : AuthStore) (b : β) :
    ((p.bind fun _ => (throwing e : Prog AuthSys β)).alone ω σ).1 ≠ .ok b := by
  induction p generalizing ω σ with
  | ret a => exact nofun
  | throw e => exact nofun
  | lock k next ih => exact ih ω σ
  | query next ih => exact ih _ ω σ
  | exec rows write next ih => exact ih _ _ σ
  | commit ev next ih => exact ih _ _
  | call ev f next ih => exact ih _ ω _

/-- What is accepted was handed out, and its key is there. -/
theorem Accepts.live {token : RefreshToken} (h : Accepts env σ token) :
    token ∈ σ.2.sessions.refreshTokens ∧
      ∃ record, σ.2.sessions.refresh.read σ.2.base.now token.jti = some record := by
  obtain ⟨ticket, refreshJti, newSid, answer, h⟩ := h
  simp only [AuthService.refresh, AuthService.verifyRefreshToken, Prog.bind_eq] at h
  replace h := alone_randomUUID h
  simp only [Prog.bind_assoc, Prog.alone_lift] at h
  split at h
  · simp only [alone_onSessions, Prog.alone_lift] at h
    split at h
    · rename_i hvalid
      simp only [ensure_eq_ok, Bool.and_eq_true, List.contains_iff_mem] at hvalid
      refine ⟨hvalid.1, ?_⟩
      split at h
      · exact absurd h (alone_bind_throwing _ _ _ _ _)
      · rename_i record hrecord
        exact ⟨record, (Option.filter_eq_some_iff.mp hrecord).1⟩
    · cases h
  · cases h

/-! ## Rotation -/

/-- The tokens that were redeemed are distinct. -/
theorem nodup_redeemed (h : AuthRuns env ok s₀ s) :
    (s.store.2.sessions.redeemed.map (·.token)).Nodup := by
  refine h.invariant (P := fun σ => (σ.2.sessions.redeemed.map (·.token)).Nodup) ?_ ?_
  · intro σ hi
    rw [hi.sessions]
    exact List.nodup_nil
  · intro ev K a b hinv _ hg hnodup
    rcases hg.sessions_cases with he | ⟨sev, rfl, he, hsev⟩
    · rw [he]
      exact hnodup
    rcases sev.redeemed_apply a.2.base.now a.2.sessions with hr |
      ⟨access, token, r, rfl, hr⟩
    · rw [he, hr]
      exact hnodup
    · rw [he, hr, List.map_cons, List.nodup_cons]
      refine ⟨fun hmem => ?_, hnodup⟩
      obtain ⟨r', hr', htoken⟩ := List.mem_map.mp hmem
      -- the token was taken by one call, and that call answers once
      have hguard := hsev.2.2.2 r rfl
      have htaken := (hinv.redeemed r' hr').1
      rw [htoken, hguard.consumed] at htaken
      exact hguard.first r' hr' (Option.some.inj htaken).symm

/-- **Refresh-token rotation**: every token is redeemed at most once, and of the tokens of a
session at most one would be accepted by a refresh that starts now. -/
theorem rotation (h : AuthRuns env anyAuthEvent s₀ s) :
    (s.store.2.sessions.redeemed.map (·.token)).Nodup ∧
      ∀ token token', Accepts env s.store token → Accepts env s.store token' →
        token.sid = token'.sid → token = token' := by
  refine ⟨nodup_redeemed h, fun token token' ht ht' hsid => ?_⟩
  obtain ⟨hout, record, hread⟩ := ht.live
  obtain ⟨hout', record', hread'⟩ := ht'.live
  obtain ⟨t, hm, hrec, hchain⟩ := h.inv.live_of_read hread
  obtain ⟨t', hm', hrec', hchain'⟩ := h.inv.live_of_read hread'
  have hmint := (h.inv.handedOut _ hout).1
  have hmint' := (h.inv.handedOut _ hout').1
  rw [hmint] at hm
  rw [hmint'] at hm'
  cases hm
  cases hm'
  rw [hsid, hchain'] at hchain
  simp only [Option.some.injEq, Chain.mk.injEq, ChainState.live.injEq] at hchain
  rw [hchain.2, hmint] at hmint'
  exact Option.some.inj hmint'

namespace AuthScenario

/-- A login, and a refresh with its token. -/
def refreshed : List AuthLine :=
  login ++ [.call (.refresh firstToken 103 104 105), .run 2 13]

theorem rotation_refreshed :
    (playAuth anyAuthEvent config state refreshed).store.2.sessions.redeemed.map (·.token) =
        [firstToken] ∧
      ((playAuth anyAuthEvent config state refreshed).store.2.sessions.redeemed.map
        (·.token)).Nodup ∧
      ∀ token token', Accepts config (playAuth anyAuthEvent config state refreshed).store token →
        Accepts config (playAuth anyAuthEvent config state refreshed).store token' →
        token.sid = token'.sid → token = token' :=
  ⟨by decide +kernel, rotation ((runs _).play refreshed)⟩

end AuthScenario

end Sosedi
