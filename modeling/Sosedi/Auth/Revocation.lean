import Sosedi.Auth.Rotation

/-!
# Revoked sessions

A revocation deletes the token that it read, which need not be the current one, and a refresh
that took its token before stores the successor after.  Where neither happens, a revoked
session is over: it gets no token and no record again.

Proved here:

* `revocation_final`: in the runs in which every revocation finds the current token and no
  refresh goes on past a revocation, nothing is redeemed or written in a revoked session.
-/

namespace Sosedi

open Transactions

section Runs

variable {env : AuthEnv} {s₀ s : State AuthSys} {K : List AuthKey} {a b : AuthStore}
  {ev : AuthEvent}

/-- A revocation that deletes `deleted` leaves the session without a token. -/
def SessionStore.covers (s : SessionStore) (now : Time) (u sid : Id) (deleted : Option Id) : Bool :=
  (s.chains.get sid).all fun chain => chain.userId != u ||
    match chain.state with
    | .live jti => s.dead now deleted jti
    | _ => true

/-- The refresh took the token, and no revocation came since. -/
def SessionStore.holdsClean (s : SessionStore) (sid : Id) : Bool :=
  (s.chains.get sid).any fun chain =>
    match chain.state with
    | .held _ clean => clean
    | _ => false

/-- The current token of a session is the one that its revocation deletes, and a refresh stores
a successor only if no revocation came since it took its token. -/
def revocationsInTime (ev : AuthEvent) (σ : AuthStore) : Bool :=
  match ev with
  | .session (.readSession u sid) =>
    (σ.2.sessions.session.read σ.2.base.now (u, sid)).any (·.userId == u) ||
      σ.2.sessions.covers σ.2.base.now u sid none
  | .session (.revokeRefresh u sid jti) => σ.2.sessions.covers σ.2.base.now u sid (some jti)
  | .session (.setRefresh token _ (some _) _) => σ.2.sessions.holdsClean token.sid
  | _ => true

/-- No token is stored, and no refresh may store one. -/
def ChainState.over : ChainState → Bool
  | live _ => false
  | held _ clean => !clean
  | closed => true

theorem ChainState.over_revoked (dead : Id → Bool) (state : ChainState)
    (h : ∀ jti, state = .live jti → dead jti = true) : (state.revoked dead).over = true := by
  cases state with
  | live jti => simp [revoked, h jti rfl, ChainState.over]
  | held ticket clean => rfl
  | closed => rfl

/-- The sessions that a revocation came to are over. -/
structure RevokedOver (σ : AuthStore) : Prop where
  chain : ∀ u sid, (u, sid) ∈ σ.2.sessions.attempted →
    ∃ state, σ.2.sessions.chains.get sid = some ⟨u, state⟩ ∧ state.over = true
  attempted : ∀ R ∈ σ.2.sessions.revoked, (R.userId, R.sid) ∈ σ.2.sessions.attempted
  /-- The tokens of a revoked session were taken by calls that had started. -/
  started : ∀ R ∈ σ.2.sessions.revoked, ∀ jti token ticket,
    σ.2.sessions.minted.get jti = some token → token.sid = R.sid →
    σ.2.sessions.consumed.get jti = some ticket → ticket ∈ R.started

/-- A session that is over stays over. -/
private theorem over_step (hinv : AuthInv a) (hok : revocationsInTime ev a = true)
    (hg : AuthGuar noFloor ev K a b) {u sid : Id} {state : ChainState}
    (hc : a.2.sessions.chains.get sid = some ⟨u, state⟩) (hover : state.over = true) :
    ∃ state', b.2.sessions.chains.get sid = some ⟨u, state'⟩ ∧ state'.over = true := by
  rcases hg.sessions_cases with he | ⟨sev, rfl, he, hsev⟩
  · exact ⟨state, he ▸ hc, hover⟩
  obtain ⟨chain, hc'⟩ := Option.isSome_iff_exists.mp
    (hg.chains_isSome (Option.isSome_iff_exists.mpr ⟨_, hc⟩))
  rcases sev.of_get_chains (he ▸ hc') with hb | ⟨token, record, holder, ttl, rfl, rfl, -⟩ |
    ⟨token, ticket, record, rfl, hread, rfl, -⟩ | ⟨deleted, before, hrev, hb, rfl⟩
  · rw [hc] at hb
    exact ⟨state, hc'.trans hb.symm, hover⟩
  · -- only a refresh that no revocation passed over goes on
    cases holder with
    | none =>
      have hnone := hsev.2.2.2.2.2.2.2
      rw [hc] at hnone
      cases hnone
    | some ticket =>
      simp only [revocationsInTime, SessionStore.holdsClean, hc, Option.any_some] at hok
      cases state with
      | live jti => cases hok
      | held ticket' clean =>
        simp only at hok
        simp [ChainState.over, hok] at hover
      | closed => cases hok
  · have hlive := hinv.live _ _ hread
    rw [hc] at hlive
    cases hlive
    cases hover
  · rw [hc] at hb
    cases hb
    refine ⟨_, hc', ChainState.over_revoked _ _ ?_⟩
    rintro jti rfl
    cases hover

theorem revokedOver_step (hinv : AuthInv a) (hok : revocationsInTime ev a = true)
    (hg : AuthGuar noFloor ev K a b) (h : RevokedOver a) : RevokedOver b where
  chain u sid hmem := by
    have hold : (u, sid) ∈ a.2.sessions.attempted →
        ∃ state, b.2.sessions.chains.get sid = some ⟨u, state⟩ ∧ state.over = true := by
      intro hmem
      obtain ⟨state, hc, hover⟩ := h.chain u sid hmem
      exact over_step hinv hok hg hc hover
    rcases hg.sessions_cases with he | ⟨sev, rfl, he, hsev⟩
    · exact hold (he ▸ hmem)
    rcases sev.of_mem_attempted (he ▸ hmem) with hmem | ⟨deleted, before, hrev, hunread, hb, rfl,
      hafter⟩
    · exact hold hmem
    refine ⟨_, he ▸ hafter, ChainState.over_revoked _ _ ?_⟩
    intro jti hlive
    rcases hrev with ⟨rfl, rfl⟩ | ⟨jti', rfl, rfl⟩
    · simpa [revocationsInTime, hunread rfl, SessionStore.covers, hb, hlive] using hok
    · simpa [revocationsInTime, SessionStore.covers, hb, hlive] using hok
  attempted R hR := by
    rcases hg.sessions_cases with he | ⟨sev, rfl, he, hsev⟩
    · exact he ▸ h.attempted R (he ▸ hR)
    rw [he] at hR ⊢
    rcases sev.of_mem_revoked hR with hR | ⟨-, hmem, -⟩
    · exact sev.attempted_subset (h.attempted R hR)
    · exact sev.attempted_subset hmem
  started R hR jti token ticket hm hsid hconsumed := by
    have hold : a.2.sessions.consumed.get jti = some ticket →
        (R ∈ a.2.sessions.revoked ∨ R.started = a.2.sessions.drawn) → ticket ∈ R.started := by
      intro hc hR
      obtain ⟨token', hm'⟩ := Option.isSome_iff_exists.mp (hinv.consumed _ _ hc).1
      have heq := hg.get_minted hm'
      rw [hm] at heq
      cases heq
      rcases hR with hR | hR
      · exact h.started R hR jti token ticket hm' hsid hc
      · exact hR ▸ (hinv.consumed _ _ hc).2
    rcases hg.sessions_cases with he | ⟨sev, rfl, he, hsev⟩
    · exact hold (he ▸ hconsumed) (Or.inl (he ▸ hR))
    rcases sev.of_get_consumed (he ▸ hconsumed) with hc | ⟨token', record, rfl, rfl, hread⟩
    · refine hold hc ?_
      rcases sev.of_mem_revoked (he ▸ hR) with hR | ⟨-, -, hR⟩
      · exact Or.inl hR
      · exact Or.inr hR
    · -- a session that is over has no token to take
      obtain ⟨token'', hm'', hrec, hchain⟩ := hinv.live_of_read hread
      have heq := hg.get_minted hm''
      rw [hm] at heq
      cases heq
      rw [he] at hR
      obtain ⟨state, hover, hstate⟩ := h.chain _ _ (h.attempted R hR)
      rw [← hsid, hchain, Option.some.injEq, Chain.mk.injEq] at hover
      rw [← hover.2] at hstate
      cases hstate

/-- **Revocation is final**: once a revocation of a session has returned, no refresh that starts
later succeeds with a token of the session, and nobody is about to set its record. -/
theorem revocation_final
    (h : AuthRuns env (fun ev σ => revocationsInTime ev σ = true) s₀ s) :
    ∀ R ∈ s.store.2.sessions.revoked,
      (∀ r ∈ s.store.2.sessions.redeemed, r.token.sid = R.sid → r.ticket ∈ R.started) ∧
      ∀ i record ttl, s.event i = some (.session (.setSession record ttl)) →
        record.sessionId ≠ R.sid := by
  have hover : RevokedOver s.store := by
    refine h.invariant ?_ fun ev K a b hinv hok hg => revokedOver_step hinv hok hg
    intro σ hi
    constructor <;> simp [hi.sessions, SessionStore.initial]
  intro R hR
  constructor
  · intro r hr hsid
    obtain ⟨hconsumed, hout⟩ := h.inv.redeemed r hr
    exact hover.started R hR _ _ _ (h.inv.handedOut _ hout).1 hsid hconsumed
  · rintro i record ttl hev hsid
    obtain ⟨s', hf⟩ := State.fire_of_event hev
    obtain ⟨K, hg⟩ := h.guar hev rfl hf
    obtain ⟨-, token, hrec, -, hchain⟩ := hg.guard
    obtain ⟨state, hc, hstate⟩ := hover.chain _ _ (hover.attempted R hR)
    rw [← hsid, hrec.sid, hchain, Option.some.injEq, Chain.mk.injEq] at hc
    rw [← hc.2] at hstate
    cases hstate

end Runs

namespace AuthScenario

abbrev inTime (ev : AuthEvent) (σ : AuthStore) : Prop := revocationsInTime ev σ = true

/-- The session of a login is refreshed and revoked; its last token is tried again. -/
def revokedInTime : List AuthLine :=
  refreshed ++ [.call (.revokeSession 50 102), .run 3 5,
    .call (.refresh { firstToken with jti := 104 } 106 107 108), .run 4 13]

theorem revocation_final_inTime :
    (playAuth inTime config state revokedInTime).store.2.sessions.revoked.map (·.sid) =
        [102, 102] ∧
      ∀ R ∈ (playAuth inTime config state revokedInTime).store.2.sessions.revoked,
        (∀ r ∈ (playAuth inTime config state revokedInTime).store.2.sessions.redeemed,
          r.token.sid = R.sid → r.ticket ∈ R.started) ∧
        ∀ i record ttl, (playAuth inTime config state revokedInTime).event i =
          some (.session (.setSession record ttl)) → record.sessionId ≠ R.sid :=
  ⟨by decide +kernel, revocation_final ((runs inTime).play revokedInTime)⟩

/-- A refresh takes the token, the session is revoked, the refresh goes on; then the successor
is redeemed. -/
def revokedInFlight : List AuthLine :=
  login ++ [.call (.refresh firstToken 103 104 105), .run 2 4,
    .call (.revokeSession 50 102), .run 3 5, .run 2 9,
    .call (.refresh { firstToken with jti := 104 } 106 107 108), .run 4 13]

theorem revocation_race :
    AuthRuns config anyAuthEvent state (playAuth anyAuthEvent config state revokedInFlight) ∧
      ¬ ∀ R ∈ (playAuth anyAuthEvent config state revokedInFlight).store.2.sessions.revoked,
        ∀ r ∈ (playAuth anyAuthEvent config state revokedInFlight).store.2.sessions.redeemed,
          r.token.sid = R.sid → r.ticket ∈ R.started :=
  ⟨(runs anyAuthEvent).play revokedInFlight, by decide +kernel⟩

end AuthScenario

end Sosedi
