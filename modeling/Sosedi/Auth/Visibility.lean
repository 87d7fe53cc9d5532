import Sosedi.Auth.Rotation

/-!
# Live sessions are listed

The token of a session, its record and its entry in the index are separate keys.  Where no
call deletes a record or an entry on the word of an older token, a token that a refresh accepts
has both.

Proved here:

* `live_sessions_listed`: in the runs in which every deletion is up to date, the session of an
  acceptable token is among those that `listSessions` returns.
-/

namespace Sosedi

open Transactions

section Runs

variable {env : AuthEnv} {s₀ s : State AuthSys} {K : List AuthKey} {a b σ : AuthStore}
  {ev : AuthEvent} {u : Id}

/-! ## What `listSessions` returns -/

/-- The sessions that `listSessions` returns when it runs now, and alone. -/
def listedSessions (σ : AuthStore) (userId : Id) (currentInstallationId : String) : List Id :=
  match ((AuthService.listSessions userId currentInstallationId).alone [] σ).1 with
  | .ok sessions => sessions.map (·.sessionId)
  | .error _ => []

/-- The session of an entry of the index. -/
def SessionStore.entrySession (s : SessionStore) (now : Time) (u sid : Id) : Option Id :=
  ((s.session.read now (u, sid)).filter (·.userId == u)).map (·.sessionId)

theorem alone_collectSessions (u : Id) (inst : String) (ids : List Id) (σ : AuthStore) :
    ∃ sessions σ', sessions.map (·.sessionId) =
        ids.filterMap (σ.2.sessions.entrySession σ.2.base.now u) ∧
      ∀ {β : Type} (f : List AuthService.UserSessionResponse → Prog AuthSys β),
        ((AuthService.collectSessions u inst ids).bind f).alone [] σ =
          (f sessions).alone [] σ' := by
  induction ids generalizing σ with
  | nil => exact ⟨[], σ, rfl, fun f => rfl⟩
  | cons sid rest ih =>
    cases hs : (σ.2.sessions.session.read σ.2.base.now (u, sid)).filter (·.userId == u) with
    | none =>
      obtain ⟨sessions, σ', hmap, hrest⟩ :=
        ih (σ.1, (AuthEvent.session (.unindex u sid)).applyWorld σ.2)
      refine ⟨sessions, σ', ?_, fun f => ?_⟩
      · rw [hmap, List.filterMap_cons, SessionStore.entrySession, hs]
        rfl
      · refine Eq.trans ?_ (hrest f)
        simp only [AuthService.collectSessions, Prog.bind_eq, Prog.bind_assoc, alone_onSessions,
          runSessions, hs]
        rfl
    | some session =>
      obtain ⟨sessions, σ', hmap, hrest⟩ := ih σ
      set first : AuthService.UserSessionResponse := ⟨session.sessionId, session.installationId,
        session.createdAt, session.lastSeenAt, session.installationId == inst⟩
      refine ⟨first :: sessions, σ', ?_, fun f => ?_⟩
      · rw [List.map_cons, hmap, List.filterMap_cons, SessionStore.entrySession, hs]
        rfl
      · refine Eq.trans ?_ (hrest fun sessions => f (first :: sessions))
        simp only [AuthService.collectSessions, Prog.bind_eq, Prog.bind_assoc, alone_onSessions,
          hs]
        rfl

theorem mem_listedSessions {inst : String} {sid : Id} : sid ∈ listedSessions σ u inst ↔
    ∃ id ∈ (σ.2.sessions.userSessions.read σ.2.base.now u).getD [],
      σ.2.sessions.entrySession σ.2.base.now u id = some sid := by
  obtain ⟨sessions, σ', hmap, hrest⟩ := alone_collectSessions u inst
    ((σ.2.sessions.userSessions.read σ.2.base.now u).getD []) σ
  have halone : ((AuthService.listSessions u inst).alone [] σ).1 =
      .ok (sessions.mergeSort fun left right => right.lastSeenAt ≤ left.lastSeenAt) :=
    congrArg Prod.fst (hrest _)
  rw [listedSessions, halone]
  simp only [List.mem_map, List.mem_mergeSort]
  rw [← List.mem_map, hmap, List.mem_filterMap]

/-! ## Deletions that are up to date -/

/-- No key of the sessions has expired. -/
def SessionStore.noneExpired (s : SessionStore) (now : Time) : Bool :=
  !(s.refresh.any fun _ e => !e.live now) && !(s.session.any fun _ e => !e.live now) &&
    !(s.userSessions.any fun _ e => !e.live now)

/-- A deletion is up to date: no stored token still needs the record or the entry. -/
def deletionsInTime (ev : AuthEvent) (σ : AuthStore) : Bool :=
  match ev with
  | .session (.deleteSession u sid) => !σ.2.sessions.refresh.any fun jti e =>
    e.value.userId == u && e.value.sessionId == sid && σ.2.sessions.written.contains jti
  | .session (.unindex u sid) => !σ.2.sessions.refresh.any fun jti e =>
    e.value.userId == u && e.value.sessionId == sid && σ.2.sessions.indexed.contains jti
  | .session (.deleteAll u jtis sids) => !σ.2.sessions.refresh.any fun jti e =>
    e.value.userId == u && !jtis.contains jti && (σ.2.sessions.indexed.contains jti ||
      (sids.contains e.value.sessionId && σ.2.sessions.written.contains jti))
  | _ => true

def sessionsInTime (ev : AuthEvent) (σ : AuthStore) : Bool :=
  σ.2.sessions.noneExpired σ.2.base.now && deletionsInTime ev σ

theorem SessionStore.noneExpired_iff {s : SessionStore} {now : Time} :
    s.noneExpired now = true ↔ (∀ jti e, s.refresh.get jti = some e → e.live now = true) ∧
      (∀ k e, s.session.get k = some e → e.live now = true) ∧
      ∀ u e, s.userSessions.get u = some e → e.live now = true := by
  simp [noneExpired, Table.any_eq_false, and_assoc]

/-! ## Tokens have their records and entries -/

/-- A stored token has the record and the entry that were set for it. -/
structure Visible (σ : AuthStore) : Prop where
  session : ∀ jti e, σ.2.sessions.refresh.get jti = some e → jti ∈ σ.2.sessions.written →
    (σ.2.sessions.session.get (e.value.userId, e.value.sessionId)).isSome
  index : ∀ jti e, σ.2.sessions.refresh.get jti = some e → jti ∈ σ.2.sessions.indexed →
    ∃ e', σ.2.sessions.userSessions.get e.value.userId = some e' ∧ e.value.sessionId ∈ e'.value

/-- A token that was written before is not one that is stored now. -/
private theorem get_refresh_of_minted {sev : SessionEvent} {jti : Id}
    {e : Entry RefreshSessionRecord} (hsev : sev.Guard noFloor K a)
    (h : (sev.apply a.2.base.now a.2.sessions).refresh.get jti = some e)
    (hm : (a.2.sessions.minted.get jti).isSome) : a.2.sessions.refresh.get jti = some e := by
  rcases sev.of_get_refresh h with h | ⟨token, record, holder, ttl, rfl, rfl, -⟩
  · exact h
  · rw [hsev.2.2.2.1] at hm
    cases hm

private theorem visible_session (hinv : AuthInv a) (hok : sessionsInTime ev a = true)
    (hg : AuthGuar noFloor ev K a b) (h : Visible a) {jti : Id} {e : Entry RefreshSessionRecord}
    (he : b.2.sessions.refresh.get jti = some e) (hw : jti ∈ b.2.sessions.written) :
    (b.2.sessions.session.get (e.value.userId, e.value.sessionId)).isSome := by
  rcases hg.sessions_cases with hs | ⟨sev, rfl, hs, hsev⟩
  · rw [hs] at he hw ⊢
    exact h.session jti e he hw
  rw [hs] at he hw ⊢
  have hno := (Bool.and_eq_true_iff.mp hok).2
  rcases sev.of_mem_written hw with hwa | ⟨record, ttl, rfl, rfl⟩
  · have ha := get_refresh_of_minted hsev he (hinv.written _ hwa)
    obtain ⟨e', he'⟩ := Option.isSome_iff_exists.mp (h.session jti e ha hwa)
    rcases sev.session_stays he' with hstay | rfl | ⟨jtis, sids, rfl, hsid⟩
    · exact hstay
    · -- no record is deleted on the word of a token that is gone
      simp only [deletionsInTime, Bool.not_eq_true', Table.any_eq_false] at hno
      have hfalse := hno jti e ha
      simp [hwa] at hfalse
    · simp only [deletionsInTime, Bool.not_eq_true', Table.any_eq_false] at hno
      have hfalse := hno jti e ha
      have hjti : jti ∉ jtis := by
        intro hmem
        rw [SessionEvent.apply, Table.get_eraseAll, if_pos hmem] at he
        cases he
      simp only at hsid
      simp [hwa, hsid, hjti] at hfalse
  · obtain ⟨token, hrec, hm, -⟩ := hsev.2
    have ha := get_refresh_of_minted hsev he
      (Option.isSome_iff_exists.mpr ⟨token, hrec.jti ▸ hm⟩)
    obtain ⟨-, token', hm', hrec'⟩ := hinv.refresh _ _ ha
    rw [hrec.jti, hm, Option.some.injEq] at hm'
    subst hm'
    rw [hrec'.sub, hrec'.sid, ← hrec.sub, ← hrec.sid]
    exact SessionEvent.get_session_setSession record ttl

private theorem visible_index (hinv : AuthInv a) (hok : sessionsInTime ev a = true)
    (hg : AuthGuar noFloor ev K a b) (h : Visible a) {jti : Id} {e : Entry RefreshSessionRecord}
    (he : b.2.sessions.refresh.get jti = some e) (hi : jti ∈ b.2.sessions.indexed) :
    ∃ e', b.2.sessions.userSessions.get e.value.userId = some e' ∧
      e.value.sessionId ∈ e'.value := by
  rcases hg.sessions_cases with hs | ⟨sev, rfl, hs, hsev⟩
  · rw [hs] at he hi ⊢
    exact h.index jti e he hi
  rw [hs] at he hi ⊢
  have hno := (Bool.and_eq_true_iff.mp hok).2
  have hlive := (SessionStore.noneExpired_iff.mp (Bool.and_eq_true_iff.mp hok).1).2.2
  rcases sev.of_mem_indexed hi with hia | ⟨record, rfl, rfl⟩
  · have ha := get_refresh_of_minted hsev he (hinv.indexed _ hia)
    obtain ⟨e', he', hmem⟩ := h.index jti e ha hia
    rcases sev.index_stays he' (hlive _ _ he') hmem with hstay | rfl | ⟨jtis, sids, rfl⟩
    · exact hstay
    · simp only [deletionsInTime, Bool.not_eq_true', Table.any_eq_false] at hno
      have hfalse := hno jti e ha
      simp [hia] at hfalse
    · simp only [deletionsInTime, Bool.not_eq_true', Table.any_eq_false] at hno
      have hfalse := hno jti e ha
      have hjti : jti ∉ jtis := by
        intro hmem
        rw [SessionEvent.apply, Table.get_eraseAll, if_pos hmem] at he
        cases he
      simp [hia, hjti] at hfalse
  · obtain ⟨token, hrec, hm⟩ := hsev.2
    have ha := get_refresh_of_minted hsev he
      (Option.isSome_iff_exists.mpr ⟨token, hrec.jti ▸ hm⟩)
    obtain ⟨-, token', hm', hrec'⟩ := hinv.refresh _ _ ha
    rw [hrec.jti, hm, Option.some.injEq] at hm'
    subst hm'
    rw [hrec'.sub, hrec'.sid, ← hrec.sub, ← hrec.sid]
    exact SessionEvent.get_index_indexSession record

theorem visible_step (hinv : AuthInv a) (hok : sessionsInTime ev a = true)
    (hg : AuthGuar noFloor ev K a b) (h : Visible a) : Visible b :=
  ⟨fun _ _ => visible_session hinv hok hg h, fun _ _ => visible_index hinv hok hg h⟩

/-- **Every live session is listed**: the session of a token that a refresh would accept is
among those that `listSessions` returns to its user. -/
theorem live_sessions_listed
    (h : AuthRuns env (fun ev σ => sessionsInTime ev σ = true) s₀ s)
    (hlive : s.store.2.sessions.noneExpired s.store.2.base.now = true) (token : RefreshToken)
    (ht : Accepts env s.store token) (currentInstallationId : String) :
    token.sid ∈ listedSessions s.store token.sub currentInstallationId := by
  have hvisible : Visible s.store := by
    refine h.invariant ?_ fun ev K a b hinv hok hg => visible_step hinv hok hg
    intro σ hi
    constructor <;> simp [hi.sessions, SessionStore.initial]
  obtain ⟨-, hsessions, hindexes⟩ := SessionStore.noneExpired_iff.mp hlive
  obtain ⟨hout, record, hread⟩ := ht.live
  obtain ⟨hm, hwritten, hindexed⟩ := h.inv.handedOut _ hout
  obtain ⟨e, hget, -, rfl⟩ := Table.read_eq_some.mp hread
  obtain ⟨-, token', hm', hrec⟩ := h.inv.refresh _ _ hget
  rw [hm, Option.some.injEq] at hm'
  subst hm'
  obtain ⟨e', he', hmem⟩ := hvisible.index _ _ hget hindexed
  obtain ⟨e'', he''⟩ := Option.isSome_iff_exists.mp (hvisible.session _ _ hget hwritten)
  rw [hrec.sub, hrec.sid] at he''
  rw [hrec.sub] at he'
  rw [hrec.sid] at hmem
  have hkey := (h.inv.session _ _ he'').1
  rw [Prod.mk.injEq] at hkey
  have hread' := Table.read_eq_some.mpr ⟨e'', he'', hsessions _ _ he'', rfl⟩
  rw [mem_listedSessions, Table.read_eq_some.mpr ⟨e', he', hindexes _ _ he', rfl⟩]
  refine ⟨token.sid, hmem, ?_⟩
  rw [SessionStore.entrySession, hread', Option.filter_some, if_pos (by simp [hkey.1])]
  exact congrArg some hkey.2.symm

end Runs

namespace AuthScenario

abbrev upToDate (ev : AuthEvent) (σ : AuthStore) : Prop := sessionsInTime ev σ = true

theorem live_sessions_listed_refreshed :
    Accepts config (playAuth upToDate config state refreshed).store { firstToken with jti := 104 } ∧
      102 ∈ listedSessions (playAuth upToDate config state refreshed).store 50 "device" := by
  have haccepts : Accepts config (playAuth upToDate config state refreshed).store
      { firstToken with jti := 104 } := accepts_of_isOk 300 301 302 (by decide +kernel)
  exact ⟨haccepts, live_sessions_listed ((runs upToDate).play refreshed) (by decide +kernel) _
    haccepts "device"⟩

/-- A new login arrives while all sessions are being revoked: the index goes last. -/
def loggedInMeanwhile : List AuthLine :=
  login ++ [.call (.revokeAllSessions 50), .run 2 4] ++ requestCode 3 199 ++
    [submit "123456" 200 201 202, .run 4 20, .run 2 1]

/-- The token of the new login. -/
def secondToken : RefreshToken := ⟨50, 202, 201, 1, epochSeconds Scenario.start + 2592000⟩

theorem session_unlisted :
    AuthRuns config anyAuthEvent state (playAuth anyAuthEvent config state loggedInMeanwhile) ∧
      (playAuth anyAuthEvent config state loggedInMeanwhile).store.2.sessions.noneExpired
        Scenario.start = true ∧
      Accepts config (playAuth anyAuthEvent config state loggedInMeanwhile).store secondToken ∧
      ∀ inst, secondToken.sid ∉
        listedSessions (playAuth anyAuthEvent config state loggedInMeanwhile).store 50 inst := by
  refine ⟨(runs anyAuthEvent).play loggedInMeanwhile, by decide +kernel,
    accepts_of_isOk 300 301 302 (by decide +kernel), fun inst => ?_⟩
  have hindex : ((playAuth anyAuthEvent config state loggedInMeanwhile).store.2.sessions.userSessions.read
      (playAuth anyAuthEvent config state loggedInMeanwhile).store.2.base.now 50).getD [] = [] := by
    decide +kernel
  rw [mem_listedSessions, hindex]
  exact nofun

end AuthScenario

end Sosedi
