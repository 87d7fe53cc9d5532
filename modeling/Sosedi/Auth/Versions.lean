import Sosedi.Auth.AuthScripts

/-!
# Session versions

A raised session version closes everything that carries an older one: whoever starts later
reads a version at least as high, and accepts a credential only if the versions are equal.

Proved here:

* `credentials_current`: a call that starts after a state accepts no credential whose version
  is below that of its user in this state.
-/

namespace Sosedi

open Transactions

variable {env : AuthEnv} {ok : AuthEvent → AuthStore → Prop} {s₀ s s' : State AuthSys}
  {floor : Id → Id → Nat}

/-- The version of the user, 0 if there is none. -/
def sessionVersion (σ : AuthStore) (u : Id) : Nat :=
  ((σ.1.base.users.get u).map (·.sessionVersion)).getD 0

theorem versionLe_sessionVersion (σ : AuthStore) (u : Id) :
    sessionVersion σ u = 0 ∨ VersionLe u (sessionVersion σ u) σ := by
  unfold sessionVersion
  cases h : σ.1.base.users.get u with
  | none => exact Or.inl rfl
  | some user => exact Or.inr ⟨user, h, Nat.le_refl _⟩

/-- The floor of the calls that start after `σ`: the versions of all users in `σ`. -/
def floorAfter (σ : AuthStore) : Id → Id → Nat := fun ticket u =>
  if ticket ∈ σ.2.sessions.drawn then 0 else sessionVersion σ u

/-- A draw adds the identifier. -/
theorem AuthGuar.drawn_draw {K : List AuthKey} {a b : AuthStore} {id : Id}
    (h : AuthGuar floor (.session (.draw id)) K a b) : id ∈ b.2.sessions.drawn := by
  rw [h.sessions]
  exact List.mem_cons_self ..

/-- Up to `s`, every call is above the floor of what starts after `s`. -/
theorem AuthRuns.reaches_floor_before (h : AuthRuns env ok s₀ s) {σ : AuthStore}
    (hdrawn : ∀ id ∈ s.store.2.sessions.drawn, id ∈ σ.2.sessions.drawn) :
    Reaches (AuthCalls env) (authContract (floorAfter σ) ok).ok s₀ s := by
  obtain ⟨hthreads, hi, hr⟩ := h
  induction hr with
  | refl => exact .refl
  | @step s₁ s₂ m hr hm hf ih =>
    have hrun : AuthRuns env ok s₀ s₁ := ⟨hthreads, hi, hr⟩
    have hmono : ∀ id ∈ s₁.store.2.sessions.drawn, id ∈ s₂.store.2.sessions.drawn := by
      intro id hid
      rcases hrun.step hm hf with he | ⟨ev, K, -, hg⟩
      · exact he ▸ hid
      · exact hg.drawn hid
    refine (ih fun id hid => hdrawn id (hmono id hid)).step m ?_ hf
    cases m with
    | start p => exact hm
    | crash i => trivial
    | run i =>
      intro ev hev
      refine ⟨hm ev hev, ?_⟩
      rintro id rfl u
      obtain ⟨K, hg⟩ := hrun.guar hev (hm _ hev) hf
      exact Or.inl (if_pos (hdrawn id hg.drawn_draw))

/-- After `s`, too. -/
theorem AuthRuns.reaches_floor (h : AuthRuns env ok s₀ s)
    (hr : Reaches (AuthCalls env) ok s s') :
    Reaches (AuthCalls env) (authContract (floorAfter s.store) ok).ok s₀ s' := by
  induction hr with
  | refl => exact h.reaches_floor_before fun _ hid => hid
  | @step s₁ s₂ m hr hm hf ih =>
    refine ih.step m ?_ hf
    cases m with
    | start p => exact hm
    | crash i => trivial
    | run i =>
      intro ev hev
      refine ⟨hm ev hev, ?_⟩
      rintro id rfl u
      unfold floorAfter
      split
      · exact Or.inl rfl
      · refine (versionLe_sessionVersion s.store u).imp_right fun hv => ?_
        exact h.later (P := VersionLe u (sessionVersion s.store u)) hr
          (fun _ _ _ _ _ _ hg => hg.versionLe) hv

/-- Every credential that was accepted is above the floor of the call that accepted it. -/
theorem accepted_above {C : Contract AuthSys} (hC : C = authContract floor ok)
    (h : s₀.threads = []) (hi : AuthInitial s₀.store) (hr : Reaches (AuthCalls env) C.ok s₀ s) :
    ∀ use ∈ s.store.2.sessions.accepted, floor use.ticket use.userId ≤ use.sessionVersion := by
  subst hC
  induction hr with
  | refl =>
    rw [hi.sessions]
    exact nofun
  | step m hr hm hf ih =>
    intro use huse
    rcases reaches_fire (C := authContract floor ok) keeps_authCalls auth_preserved h hi.inv hr hm
      hf with he | ⟨K, -, ev, -, hg⟩
    · exact ih use (he ▸ huse)
    · rcases hg.sessions_cases with he | ⟨sev, rfl, he, hsev⟩
      · exact ih use (he ▸ huse)
      · rcases sev.of_mem_accepted (he ▸ huse) with huse | rfl | ⟨access, token, r, rfl, rfl⟩
        · exact ih use huse
        · exact hsev
        · exact (hsev.2.2.2 r rfl).floor

/-- **Session versions**: a call that starts after `s` accepts no credential of a version below
that of its user in `s`. -/
theorem credentials_current (h : AuthRuns env anyAuthEvent s₀ s)
    (hr : Reaches (AuthCalls env) anyAuthEvent s s') (use : CredentialUse)
    (huse : use ∈ s'.store.2.sessions.accepted)
    (hstart : use.ticket ∉ s.store.2.sessions.drawn) :
    sessionVersion s.store use.userId ≤ use.sessionVersion := by
  have habove := accepted_above rfl h.threads h.initial (h.reaches_floor hr) use huse
  simpa only [floorAfter, if_neg hstart] using habove

namespace AuthScenario

/-- A login, and the end of all sessions of its user. -/
def signedOut : List AuthLine := login ++ [.call (.revokeAllSessions 50), .run 2 5]

/-- A new login; the guard sees the old access token and the new one. -/
def signedIn : List AuthLine :=
  requestCode 3 199 ++ [submit "123456" 200 201 202, .run 4 20,
    .call (.canActivate firstAccess 203), .run 5 5,
    .call (.canActivate ⟨50, 1, epochSeconds Scenario.start + 900⟩ 204), .run 6 5]

theorem credentials_current_signedIn :
    (playAuth anyAuthEvent config (playAuth anyAuthEvent config state signedOut)
        signedIn).store.2.sessions.accepted = [⟨204, 50, 1⟩] ∧
      sessionVersion (playAuth anyAuthEvent config state signedOut).store 50 ≤ 1 := by
  have haccepted : (playAuth anyAuthEvent config (playAuth anyAuthEvent config state signedOut)
      signedIn).store.2.sessions.accepted = [⟨204, 50, 1⟩] := by decide +kernel
  exact ⟨haccepted, credentials_current ((runs _).play signedOut) (reaches_playAuth signedIn)
    ⟨204, 50, 1⟩ (haccepted ▸ List.mem_cons_self) (by decide +kernel)⟩

end AuthScenario

end Sosedi
