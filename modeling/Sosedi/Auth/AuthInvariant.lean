import Sosedi.Auth.SessionSteps

/-!
# Every step keeps the invariant

Proved here:

* what is drawn, set, taken or handed out stays so (`AuthGuar.get_minted`, ..);
* `AuthInv.step`: the invariant survives every step of the contract.
-/

namespace Sosedi

open Transactions

variable {floor : Id → Id → Nat} {K : List AuthKey} {a b : AuthStore} {ev : AuthEvent}
  {id jti sid u : Id}

namespace AuthGuar

/-- The sessions stay as they are, or a command on them ran. -/
theorem sessions_cases (h : AuthGuar floor ev K a b) :
    b.2.sessions = a.2.sessions ∨ ∃ sev, ev = .session sev ∧
      b.2.sessions = sev.apply a.2.base.now a.2.sessions ∧ sev.Guard floor K a := by
  have hs := h.sessions
  have hg := h.guard
  cases ev with
  | session sev => exact Or.inr ⟨sev, rfl, hs, hg⟩
  | _ => exact Or.inl hs

theorem versionLe (h : AuthGuar floor ev K a b) {v : Nat} (hv : VersionLe u v a) :
    VersionLe u v b := by
  obtain ⟨user, huser, hle⟩ := hv
  obtain ⟨user', huser', hle'⟩ := h.users u user huser
  exact ⟨user', huser', Nat.le_trans hle hle'⟩

theorem drawn (h : AuthGuar floor ev K a b) (hid : id ∈ a.2.sessions.drawn) :
    id ∈ b.2.sessions.drawn := by
  rcases h.sessions_cases with he | ⟨sev, -, he, -⟩
  · exact he ▸ hid
  · exact he ▸ sev.drawn_subset hid

theorem written (h : AuthGuar floor ev K a b) (hjti : jti ∈ a.2.sessions.written) :
    jti ∈ b.2.sessions.written := by
  rcases h.sessions_cases with he | ⟨sev, -, he, -⟩
  · exact he ▸ hjti
  · exact he ▸ sev.written_subset hjti

theorem indexed (h : AuthGuar floor ev K a b) (hjti : jti ∈ a.2.sessions.indexed) :
    jti ∈ b.2.sessions.indexed := by
  rcases h.sessions_cases with he | ⟨sev, -, he, -⟩
  · exact he ▸ hjti
  · exact he ▸ sev.indexed_subset hjti

theorem refreshTokens (h : AuthGuar floor ev K a b) {token : RefreshToken}
    (ht : token ∈ a.2.sessions.refreshTokens) : token ∈ b.2.sessions.refreshTokens := by
  rcases h.sessions_cases with he | ⟨sev, -, he, -⟩
  · exact he ▸ ht
  · exact he ▸ sev.refreshTokens_subset ht

/-- A token that was set keeps its identifier. -/
theorem get_minted (h : AuthGuar floor ev K a b) {token : RefreshToken}
    (ht : a.2.sessions.minted.get jti = some token) :
    b.2.sessions.minted.get jti = some token := by
  rcases h.sessions_cases with he | ⟨sev, -, he, hg⟩
  · rw [he, ht]
  · rw [he]
    cases sev with
    | setRefresh token' record holder ttl =>
      simp only [SessionEvent.apply, Table.get_put]
      split
      · rename_i hjti
        have hnone := hg.2.2.2.1
        rw [← hjti, ht] at hnone
        cases hnone
      · exact ht
    | _ => exact ht

theorem minted_isSome (h : AuthGuar floor ev K a b)
    (ht : (a.2.sessions.minted.get jti).isSome) : (b.2.sessions.minted.get jti).isSome := by
  obtain ⟨token, htoken⟩ := Option.isSome_iff_exists.mp ht
  rw [h.get_minted htoken]
  rfl

/-- A token is taken once. -/
theorem get_consumed (h : AuthGuar floor ev K a b) (hinv : AuthInv a) {ticket : Id}
    (hc : a.2.sessions.consumed.get jti = some ticket) :
    b.2.sessions.consumed.get jti = some ticket := by
  rcases h.sessions_cases with he | ⟨sev, -, he, -⟩
  · rw [he, hc]
  · rw [he]
    cases sev with
    | redeem token ticket' =>
      simp only [SessionEvent.apply]
      split
      · rename_i hread
        rw [Table.get_put]
        split
        · rename_i hjti
          obtain ⟨record, hrecord⟩ := Option.isSome_iff_exists.mp hread
          obtain ⟨e, hget, -⟩ := Table.read_eq_some.mp hrecord
          rw [hjti, (hinv.refresh _ _ hget).1] at hc
          cases hc
        · exact hc
      · exact hc
    | _ => exact hc

theorem chains_isSome (h : AuthGuar floor ev K a b)
    (hc : (a.2.sessions.chains.get sid).isSome) : (b.2.sessions.chains.get sid).isSome := by
  rcases h.sessions_cases with he | ⟨sev, -, he, -⟩
  · exact he ▸ hc
  · exact he ▸ sev.chains_isSome hc

end AuthGuar

namespace AuthInv

/-- The key of a session's current token. -/
theorem live_of_read (hinv : AuthInv a) {record : RefreshSessionRecord}
    (h : a.2.sessions.refresh.read a.2.base.now jti = some record) :
    ∃ token, a.2.sessions.minted.get jti = some token ∧ token.Records record ∧
      a.2.sessions.chains.get token.sid = some ⟨token.sub, .live token.jti⟩ := by
  obtain ⟨e, hget, -, rfl⟩ := Table.read_eq_some.mp h
  obtain ⟨-, token, htoken, hrec⟩ := hinv.refresh _ _ hget
  refine ⟨token, htoken, hrec, ?_⟩
  rw [← hrec.sid, ← hrec.sub, (hinv.minted _ _ htoken).1]
  exact hinv.live _ _ h

end AuthInv

/-- A step refers to no identifier but those that it introduces. -/
theorem Unused.step (hinv : AuthInv a) (h : AuthGuar floor ev K a b) (hu : Unused id a)
    (hid : id ∉ ev.introduces) : Unused id b := by
  refine ⟨?_, ?_, ?_, ?_, ?_⟩
  · cases hm : b.2.sessions.minted.get id with
    | none => rfl
    | some token =>
      rcases h.sessions_cases with he | ⟨sev, rfl, he, -⟩
      · rw [he, hu.minted] at hm
        cases hm
      · rcases sev.of_get_minted (he ▸ hm) with hm | ⟨record, holder, ttl, rfl, rfl⟩
        · rw [hu.minted] at hm
          cases hm
        · cases holder <;> simp [AuthEvent.introduces] at hid
  · cases hc : b.2.sessions.chains.get id with
    | none => rfl
    | some chain =>
      rcases h.sessions_cases with he | ⟨sev, rfl, he, hg⟩
      · rw [he, hu.chains] at hc
        cases hc
      · rcases sev.of_get_chains (he ▸ hc) with hc | ⟨token, record, holder, ttl, rfl, rfl, -⟩ |
          ⟨token, ticket, record, rfl, hread, rfl, -⟩ | ⟨deleted, before, -, hc, -⟩
        · rw [hu.chains] at hc
          cases hc
        · cases holder with
          | none => simp [AuthEvent.introduces] at hid
          | some ticket =>
            obtain ⟨-, clean, hheld⟩ := hg.2.2.2.2.2.2
            rw [hu.chains] at hheld
            cases hheld
        · have hlive := hinv.live _ _ hread
          rw [hu.chains] at hlive
          cases hlive
        · rw [hu.chains] at hc
          cases hc
  · intro r hr
    rcases h.sessions_cases with he | ⟨sev, rfl, he, hg⟩
    · exact hu.redeemed r (he ▸ hr)
    · rcases sev.of_mem_redeemed (he ▸ hr) with hr | ⟨access, token, rfl⟩
      · exact hu.redeemed r hr
      · rintro rfl
        simp [AuthEvent.introduces] at hid
  · intro phone hissued
    rw [h.otp] at hissued
    cases ev with
    | otp oev =>
      rcases oev.of_mem_issued hissued with hissued | ⟨hash, rfl, rfl⟩
      · exact hu.issued phone hissued
      · simp [AuthEvent.introduces] at hid
    | _ => exact hu.issued phone hissued
  · intro c hc
    rw [h.mfa] at hc
    cases ev with
    | mfa mev =>
      rcases mev.of_mem_checks hc with hc | rfl
      · exact hu.checks c hc
      · rintro rfl
        simp [AuthEvent.introduces] at hid
    | _ => exact hu.checks c hc

/-- The client of a step holds the identifiers that the step introduces, and drew them. -/
theorem AuthGuar.of_introduces (hinv : AuthInv a) (h : AuthGuar floor ev K a b)
    (hid : id ∈ ev.introduces) : .uuid id ∈ K ∧ id ∈ a.2.sessions.drawn := by
  have hg := h.guard
  unfold AuthEvent.introduces at hid
  split at hid
  · rcases List.mem_pair.mp hid with rfl | rfl
    · exact ⟨hg.1, hg.2.1⟩
    · exact ⟨hg.2.2.2.2.2.2.1, hg.2.2.1⟩
  · obtain rfl := List.mem_singleton.mp hid
    exact ⟨hg.1, hg.2.1⟩
  · obtain rfl := List.mem_singleton.mp hid
    have hr := hg.2.2.2 _ rfl
    exact ⟨hr.key, (hinv.consumed _ _ hr.consumed).2⟩
  · obtain rfl := List.mem_singleton.mp hid
    exact ⟨hg.1, hg.2.1⟩
  · obtain rfl := List.mem_singleton.mp hid
    exact ⟨hg.1, hg.2.1⟩
  · cases hid

namespace AuthInv

section Step

variable (hinv : AuthInv a) (h : AuthGuar floor ev K a b)
include hinv h

private theorem step_unused (hid : id ∉ b.2.sessions.drawn) : Unused id b := by
  have hida : id ∉ a.2.sessions.drawn := fun hid' => hid (h.drawn hid')
  exact (hinv.unused id hida).step hinv h fun hid' => hida (h.of_introduces hinv hid').2

/-- A session keeps its user. -/
theorem step_chain {state : ChainState} (hc : a.2.sessions.chains.get sid = some ⟨u, state⟩) :
    ∃ state', b.2.sessions.chains.get sid = some ⟨u, state'⟩ := by
  rcases h.sessions_cases with he | ⟨sev, -, he, hg⟩
  · exact ⟨state, he ▸ hc⟩
  obtain ⟨⟨u', state'⟩, hc'⟩ := Option.isSome_iff_exists.mp
    (h.chains_isSome (Option.isSome_iff_exists.mpr ⟨_, hc⟩))
  have hu : u' = u := by
    rw [he] at hc'
    rcases sev.of_get_chains hc' with hb | ⟨token, record, holder, ttl, rfl, rfl, hchain⟩ |
      ⟨token, ticket, record, rfl, hread, rfl, hchain⟩ | ⟨deleted, before, -, hb, hchain⟩
    · rw [hc] at hb
      cases hb
      rfl
    · cases hchain
      have hholder := hg.2.2.2.2.2.2
      cases holder with
      | none =>
        rw [hc] at hholder
        cases hholder.2
      | some ticket =>
        obtain ⟨-, clean, hheld⟩ := hholder
        rw [hc] at hheld
        cases hheld
        rfl
    · cases hchain
      rw [hinv.live _ _ hread] at hc
      cases hc
      rfl
    · rw [hc] at hb
      cases hb
      cases hchain
      rfl
  exact ⟨state', hu ▸ hc'⟩

private theorem step_minted {token : RefreshToken}
    (ht : b.2.sessions.minted.get jti = some token) :
    token.jti = jti ∧ VersionLe token.sub token.sessionVersion b ∧
      ∃ state, b.2.sessions.chains.get token.sid = some ⟨token.sub, state⟩ := by
  have hold : a.2.sessions.minted.get jti = some token → token.jti = jti ∧
      VersionLe token.sub token.sessionVersion b ∧
      ∃ state, b.2.sessions.chains.get token.sid = some ⟨token.sub, state⟩ := by
    intro hm
    obtain ⟨state, hchain⟩ := hinv.chains _ _ hm
    exact ⟨(hinv.minted _ _ hm).1, h.versionLe (hinv.minted _ _ hm).2, step_chain hinv h hchain⟩
  rcases h.sessions_cases with he | ⟨sev, -, he, hg⟩
  · exact hold (he ▸ ht)
  · rcases sev.of_get_minted (he ▸ ht) with hm | ⟨record, holder, ttl, rfl, hjti⟩
    · exact hold hm
    · refine ⟨hjti, h.versionLe hg.2.2.2.2.2.1, .live token.jti, ?_⟩
      rw [he, SessionEvent.apply, Table.get_put, if_pos rfl]

private theorem step_refresh {e : Entry RefreshSessionRecord}
    (hr : b.2.sessions.refresh.get jti = some e) : b.2.sessions.consumed.get jti = none ∧
      ∃ token, b.2.sessions.minted.get jti = some token ∧ token.Records e.value := by
  have hconsumed : a.2.sessions.consumed.get jti = none →
      (∀ token ticket, ev ≠ .session (.redeem token ticket) ∨ token.jti ≠ jti) →
      b.2.sessions.consumed.get jti = none := by
    intro hnone hev
    cases hc : b.2.sessions.consumed.get jti with
    | none => rfl
    | some ticket =>
      rcases h.sessions_cases with he | ⟨sev, rfl, he, -⟩
      · rw [he, hnone] at hc
        cases hc
      · rcases sev.of_get_consumed (he ▸ hc) with hc | ⟨token, record, rfl, hjti, -⟩
        · rw [hnone] at hc
          cases hc
        · rcases hev token ticket with hne | hne
          · exact absurd rfl hne
          · exact absurd hjti hne
  have hold : b.2.sessions.refresh.get jti = some e → a.2.sessions.refresh.get jti = some e →
      b.2.sessions.consumed.get jti = none ∧
        ∃ token, b.2.sessions.minted.get jti = some token ∧ token.Records e.value := by
    intro hb ha
    obtain ⟨hnone, token, htoken, hrec⟩ := hinv.refresh _ _ ha
    refine ⟨hconsumed hnone fun token ticket => ?_, token, h.get_minted htoken, hrec⟩
    by_contra hne
    obtain ⟨rfl, rfl⟩ : ev = .session (.redeem token ticket) ∧ token.jti = jti := by
      simpa only [ne_eq, not_or, not_not] using hne
    rw [h.sessions] at hb
    exact (Table.of_get_erase hb).1 rfl
  rcases h.sessions_cases with he | ⟨sev, rfl, he, hg⟩
  · exact hold hr (he ▸ hr)
  · rcases sev.of_get_refresh (he ▸ hr) with hr' | ⟨token, record, holder, ttl, rfl, rfl, rfl⟩
    · exact hold hr hr'
    · have hnone : a.2.sessions.consumed.get token.jti = none := by
        cases hc : a.2.sessions.consumed.get token.jti with
        | none => rfl
        | some ticket =>
          have hsome := (hinv.consumed _ _ hc).1
          rw [hg.2.2.2.1] at hsome
          cases hsome
      refine ⟨hconsumed hnone fun _ _ => Or.inl nofun, token, ?_, hg.2.2.2.2.1⟩
      rw [he, SessionEvent.apply, Table.get_put, if_pos rfl]

private theorem step_live {record : RefreshSessionRecord}
    (hr : b.2.sessions.refresh.read b.2.base.now jti = some record) :
    b.2.sessions.chains.get record.sessionId = some ⟨record.userId, .live jti⟩ := by
  have hr' := Table.read_of_le h.now hr
  obtain ⟨e, hget, hlive, rfl⟩ := Table.read_eq_some.mp hr'
  rcases h.sessions_cases with he | ⟨sev, rfl, he, hg⟩
  · rw [he] at hr' ⊢
    exact hinv.live _ _ hr'
  rcases sev.of_get_refresh (he ▸ hget) with ha | ⟨token, record, holder, ttl, rfl, rfl, rfl⟩
  · have hread := Table.read_eq_some.mpr ⟨e, ha, hlive, rfl⟩
    have hchain := hinv.live _ _ hread
    obtain ⟨chain, hc⟩ := Option.isSome_iff_exists.mp
      (h.chains_isSome (Option.isSome_iff_exists.mpr ⟨_, hchain⟩))
    rw [hc]
    rw [he] at hc
    rcases sev.of_get_chains hc with hb | ⟨token, record, holder, ttl, rfl, hsid, -⟩ |
      ⟨token, ticket, record, rfl, hread', hsid, -⟩ | ⟨deleted, before, hrev, hb, rfl⟩
    · rw [← hb, hchain]
    · -- a session whose token can be redeemed gets no other token
      have hholder := hg.2.2.2.2.2.2
      cases holder with
      | none =>
        rw [hsid, hchain] at hholder
        cases hholder.2
      | some ticket =>
        obtain ⟨-, clean, hheld⟩ := hholder
        rw [hsid, hchain] at hheld
        simp at hheld
    · have hchain' := hinv.live _ _ hread'
      rw [hsid, hchain] at hchain'
      simp only [Option.some.injEq, Chain.mk.injEq, ChainState.live.injEq] at hchain'
      obtain ⟨-, rfl⟩ := hchain'
      rw [he] at hget
      exact absurd rfl (Table.of_get_erase hget).1
    · rw [hchain] at hb
      cases hb
      have halive : a.2.sessions.dead a.2.base.now deleted jti = false := by
        rw [SessionStore.dead, hread]
        rcases hrev with ⟨-, rfl⟩ | ⟨jti', rfl, rfl⟩
        · simp
        · rw [he] at hget
          have hne := (Table.of_get_erase hget).1
          simp [hne.symm]
      simp only [ChainState.revoked, halive, Bool.false_eq_true, if_false]
  · obtain ⟨hsub, hsid, -⟩ := hg.2.2.2.2.1
    rw [he, SessionEvent.apply, hsid, hsub, Table.get_put, if_pos rfl]

private theorem step_session {k : Id × Id} {e : Entry RefreshSessionRecord}
    (hs : b.2.sessions.session.get k = some e) :
    k = (e.value.userId, e.value.sessionId) ∧ e.value.currentJti ∈ b.2.sessions.written := by
  rcases h.sessions_cases with he | ⟨sev, rfl, he, hg⟩
  · rw [he] at hs ⊢
    exact hinv.session _ _ hs
  · rcases sev.of_get_session (he ▸ hs) with hs | ⟨record, ttl, rfl, rfl, rfl⟩
    · exact ⟨(hinv.session _ _ hs).1, h.written (hinv.session _ _ hs).2⟩
    · rw [he]
      exact ⟨rfl, List.mem_cons_self ..⟩

private theorem step_handedOut {token : RefreshToken}
    (ht : token ∈ b.2.sessions.refreshTokens) :
    b.2.sessions.minted.get token.jti = some token ∧ token.jti ∈ b.2.sessions.written ∧
      token.jti ∈ b.2.sessions.indexed := by
  have hold : (a.2.sessions.minted.get token.jti = some token ∧
      token.jti ∈ a.2.sessions.written ∧ token.jti ∈ a.2.sessions.indexed) →
      b.2.sessions.minted.get token.jti = some token ∧ token.jti ∈ b.2.sessions.written ∧
        token.jti ∈ b.2.sessions.indexed :=
    fun ⟨hm, hw, hi⟩ => ⟨h.get_minted hm, h.written hw, h.indexed hi⟩
  rcases h.sessions_cases with he | ⟨sev, rfl, he, hg⟩
  · exact hold (hinv.handedOut _ (he ▸ ht))
  · rcases sev.of_mem_refreshTokens (he ▸ ht) with ht | ⟨access, redeemed, rfl⟩
    · exact hold (hinv.handedOut _ ht)
    · exact hold ⟨hg.1, hg.2.1, hg.2.2.1⟩

private theorem step_redeemed {r : Redemption} (hr : r ∈ b.2.sessions.redeemed) :
    b.2.sessions.consumed.get r.token.jti = some r.ticket ∧
      r.token ∈ b.2.sessions.refreshTokens := by
  have hold : (a.2.sessions.consumed.get r.token.jti = some r.ticket ∧
      r.token ∈ a.2.sessions.refreshTokens) → b.2.sessions.consumed.get r.token.jti =
        some r.ticket ∧ r.token ∈ b.2.sessions.refreshTokens :=
    fun ⟨hc, ht⟩ => ⟨h.get_consumed hinv hc, h.refreshTokens ht⟩
  rcases h.sessions_cases with he | ⟨sev, rfl, he, hg⟩
  · exact hold (hinv.redeemed r (he ▸ hr))
  · rcases sev.of_mem_redeemed (he ▸ hr) with hr | ⟨access, token, rfl⟩
    · exact hold (hinv.redeemed r hr)
    · exact hold ⟨(hg.2.2.2 r rfl).consumed, (hg.2.2.2 r rfl).token⟩

private theorem step_consumed {ticket : Id}
    (hc : b.2.sessions.consumed.get jti = some ticket) :
    (b.2.sessions.minted.get jti).isSome ∧ ticket ∈ b.2.sessions.drawn := by
  rcases h.sessions_cases with he | ⟨sev, rfl, he, hg⟩
  · rw [he] at hc ⊢
    exact hinv.consumed _ _ hc
  · rcases sev.of_get_consumed (he ▸ hc) with hc | ⟨token, record, rfl, -, hread⟩
    · exact ⟨h.minted_isSome (hinv.consumed _ _ hc).1, h.drawn (hinv.consumed _ _ hc).2⟩
    · obtain ⟨token', hm, -⟩ := hinv.live_of_read hread
      exact ⟨h.minted_isSome (Option.isSome_iff_exists.mpr ⟨_, hm⟩), h.drawn hg.2.2⟩

private theorem step_written (hw : jti ∈ b.2.sessions.written) :
    (b.2.sessions.minted.get jti).isSome := by
  rcases h.sessions_cases with he | ⟨sev, rfl, he, hg⟩
  · exact h.minted_isSome (hinv.written _ (he ▸ hw))
  · rcases sev.of_mem_written (he ▸ hw) with hw | ⟨record, ttl, rfl, rfl⟩
    · exact h.minted_isSome (hinv.written _ hw)
    · obtain ⟨-, token, hrec, hm, -⟩ := hg
      exact hrec.jti ▸ h.minted_isSome (Option.isSome_iff_exists.mpr ⟨_, hm⟩)

private theorem step_indexed (hw : jti ∈ b.2.sessions.indexed) :
    (b.2.sessions.minted.get jti).isSome := by
  rcases h.sessions_cases with he | ⟨sev, rfl, he, hg⟩
  · exact h.minted_isSome (hinv.indexed _ (he ▸ hw))
  · rcases sev.of_mem_indexed (he ▸ hw) with hw | ⟨record, rfl, rfl⟩
    · exact h.minted_isSome (hinv.indexed _ hw)
    · obtain ⟨-, token, hrec, hm⟩ := hg
      exact hrec.jti ▸ h.minted_isSome (Option.isSome_iff_exists.mpr ⟨_, hm⟩)

/-- **Every step keeps the invariant.** -/
theorem step : AuthInv b where
  unused _ := step_unused hinv h
  minted _ _ ht := ⟨(step_minted hinv h ht).1, (step_minted hinv h ht).2.1⟩
  chains _ _ ht := (step_minted hinv h ht).2.2
  refresh _ _ := step_refresh hinv h
  live _ _ := step_live hinv h
  consumed _ _ := step_consumed hinv h
  written _ := step_written hinv h
  indexed _ := step_indexed hinv h
  session _ _ := step_session hinv h
  handedOut _ := step_handedOut hinv h
  redeemed _ := step_redeemed hinv h

end Step

end AuthInv

theorem auth_preserved {ok : AuthEvent → AuthStore → Prop} :
    (authContract floor ok).Preserved := fun _ _ _ ⟨hinv, _, _, hg⟩ => hinv.step hg

end Sosedi
