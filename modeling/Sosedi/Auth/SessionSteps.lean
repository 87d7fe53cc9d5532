import Sosedi.Auth.AuthContract

/-!
# What a session command changes

Proved here, for each table and list of the sessions, where a row comes from after a command
(`of_get_minted`, `of_get_refresh`, ..) and which rows stay.
-/

namespace Sosedi

variable {now t : Time} {ev : SessionEvent} {s : SessionStore} {id jti sid : Id}

theorem SessionStore.get_chains_touch (s : SessionStore) (now : Time) (comes : Bool)
    (u sid : Id) (deleted : Option Id) (sid' : Id) :
    (s.touch now comes u sid deleted).chains.get sid' = (s.chains.get sid').map fun chain =>
      if sid' = sid ∧ comes ∧ chain.userId = u then
        { chain with state := chain.state.revoked (s.dead now deleted) }
      else chain := by
  simp only [SessionStore.touch, Table.get_modify]
  by_cases h : sid' = sid
  · simp [h]
  · simp [h]

namespace SessionEvent

theorem drawn_subset (h : id ∈ s.drawn) : id ∈ (ev.apply now s).drawn := by
  cases ev with
  | draw id' => exact List.mem_cons_of_mem _ h
  | _ => exact h

theorem of_mem_drawn (h : id ∈ (ev.apply now s).drawn) : id ∈ s.drawn ∨ ev = .draw id := by
  cases ev with
  | draw id' =>
    rcases List.mem_cons.mp h with rfl | h
    · exact Or.inr rfl
    · exact Or.inl h
  | _ => exact Or.inl h

theorem of_get_minted {token : RefreshToken}
    (h : (ev.apply now s).minted.get jti = some token) : s.minted.get jti = some token ∨
      ∃ record holder ttl, ev = .setRefresh token record holder ttl ∧ token.jti = jti := by
  cases ev with
  | setRefresh token' record holder ttl =>
    simp only [apply, Table.get_put] at h
    split at h
    · rename_i hjti
      cases h
      exact Or.inr ⟨record, holder, ttl, rfl, hjti.symm⟩
    · exact Or.inl h
  | _ => exact Or.inl h

/-- A key is set with its token. -/
theorem of_get_refresh {e : Entry RefreshSessionRecord}
    (h : (ev.apply now s).refresh.get jti = some e) : s.refresh.get jti = some e ∨
      ∃ token record holder ttl, ev = .setRefresh token record holder ttl ∧ token.jti = jti ∧
        e = ⟨record, some (expiry now ttl)⟩ := by
  cases ev with
  | setRefresh token record holder ttl =>
    simp only [apply, Table.set, Table.get_put] at h
    split at h
    · rename_i hjti
      cases h
      exact Or.inr ⟨token, record, holder, ttl, rfl, hjti.symm, rfl⟩
    · exact Or.inl h
  | redeem token ticket => exact Or.inl (Table.of_get_erase h).2
  | deleteRefresh jti' => exact Or.inl (Table.of_get_erase h).2
  | revokeRefresh u sid jti' => exact Or.inl (Table.of_get_erase h).2
  | deleteAll u jtis sids =>
    simp only [apply, Table.get_eraseAll] at h
    split at h
    · cases h
    · exact Or.inl h
  | _ => exact Or.inl h

theorem of_get_session {k : Id × Id} {e : Entry RefreshSessionRecord}
    (h : (ev.apply now s).session.get k = some e) : s.session.get k = some e ∨
      ∃ record ttl, ev = .setSession record ttl ∧ k = (record.userId, record.sessionId) ∧
        e = ⟨record, some (expiry now ttl)⟩ := by
  cases ev with
  | setSession record ttl =>
    simp only [apply, Table.set, Table.get_put] at h
    split at h
    · rename_i hk
      cases h
      exact Or.inr ⟨record, ttl, rfl, hk, rfl⟩
    · exact Or.inl h
  | deleteSession u sid => exact Or.inl (Table.of_get_erase h).2
  | deleteAll u jtis sids =>
    simp only [apply, Table.get_eraseAll] at h
    split at h
    · cases h
    · exact Or.inl h
  | _ => exact Or.inl h

/-- A record goes when it is deleted. -/
theorem session_stays {k : Id × Id} {e : Entry RefreshSessionRecord}
    (h : s.session.get k = some e) : ((ev.apply now s).session.get k).isSome ∨
      ev = .deleteSession k.1 k.2 ∨ ∃ jtis sids, ev = .deleteAll k.1 jtis sids ∧ k.2 ∈ sids := by
  cases ev with
  | setSession record ttl =>
    simp only [apply, Table.set, Table.get_put]
    split
    · exact Or.inl rfl
    · exact Or.inl (by simp [h])
  | deleteSession u sid' =>
    by_cases hk : k = (u, sid')
    · subst hk
      exact Or.inr (Or.inl rfl)
    · refine Or.inl ?_
      simp only [apply, Table.get_erase, if_neg hk, h]
      rfl
  | deleteAll u jtis sids =>
    by_cases hk : k ∈ sids.map fun sid => (u, sid)
    · obtain ⟨sid', hsid, rfl⟩ := List.mem_map.mp hk
      exact Or.inr (Or.inr ⟨jtis, sids, rfl, hsid⟩)
    · refine Or.inl ?_
      simp only [apply, Table.get_eraseAll, if_neg hk, h]
      rfl
  | _ => exact Or.inl (Option.isSome_iff_exists.mpr ⟨e, h⟩)

/-- An entry of the index goes when it is removed, or with the whole index. -/
theorem index_stays {u : Id} {e : Entry (List Id)} (h : s.userSessions.get u = some e)
    (hlive : e.live now = true) (hmem : sid ∈ e.value) :
    (∃ e', (ev.apply now s).userSessions.get u = some e' ∧ sid ∈ e'.value) ∨
      ev = .unindex u sid ∨ ∃ jtis sids, ev = .deleteAll u jtis sids := by
  have hread : s.userSessions.read now u = some e.value := Table.read_eq_some.mpr ⟨e, h, hlive, rfl⟩
  cases ev with
  | indexSession record =>
    refine Or.inl ?_
    by_cases hu : record.userId = u
    · subst hu
      simp only [apply, hread]
      split
      · exact ⟨e, h, hmem⟩
      · rw [Table.get_modify_self, h]
        exact ⟨_, rfl, List.mem_append_left _ hmem⟩
    · refine ⟨e, ?_, hmem⟩
      simp only [apply]
      split
      · split
        · exact h
        · rw [Table.get_modify_ne _ _ (Ne.symm hu), h]
      · rw [Table.get_put, if_neg (Ne.symm hu), h]
  | expireIndex u' ttl =>
    refine Or.inl ?_
    simp only [apply]
    split
    · rename_i ids hids
      simp only [Table.set, Table.get_put]
      split
      · rename_i hu
        rw [← hu, hread, Option.some.injEq] at hids
        exact ⟨_, rfl, hids ▸ hmem⟩
      · exact ⟨e, h, hmem⟩
    · exact ⟨e, h, hmem⟩
  | unindex u' sid' =>
    by_cases hu : u' = u
    · subst hu
      by_cases hsid : sid' = sid
      · subst hsid
        exact Or.inr (Or.inl rfl)
      · have hfilter : sid ∈ e.value.filter (· != sid') :=
          List.mem_filter.mpr ⟨hmem, by simpa using Ne.symm hsid⟩
        refine Or.inl ?_
        simp only [apply, hread]
        rw [if_neg (List.ne_nil_of_mem hfilter), Table.get_modify_self, h]
        exact ⟨_, rfl, hfilter⟩
    · refine Or.inl ⟨e, ?_, hmem⟩
      simp only [apply]
      split
      · split
        · rw [Table.get_erase, if_neg (Ne.symm hu), h]
        · rw [Table.get_modify_ne _ _ (Ne.symm hu), h]
      · exact h
  | deleteAll u' jtis sids =>
    by_cases hu : u' = u
    · subst hu
      exact Or.inr (Or.inr ⟨jtis, sids, rfl⟩)
    · refine Or.inl ⟨e, ?_, hmem⟩
      simp only [apply, Table.get_erase, if_neg (Ne.symm hu), h]
  | _ => exact Or.inl ⟨e, h, hmem⟩

theorem get_session_setSession (record : RefreshSessionRecord) (ttl : Nat) :
    (((setSession record ttl).apply now s).session.get
      (record.userId, record.sessionId)).isSome := by
  simp [apply, Table.set, Table.get_put]

theorem get_index_indexSession (record : RefreshSessionRecord) :
    ∃ e, ((indexSession record).apply now s).userSessions.get record.userId = some e ∧
      record.sessionId ∈ e.value := by
  cases hread : s.userSessions.read now record.userId with
  | none =>
    simp only [apply, hread, Table.get_put, if_pos]
    exact ⟨_, rfl, List.mem_singleton_self _⟩
  | some ids =>
    obtain ⟨e, he, -, rfl⟩ := Table.read_eq_some.mp hread
    simp only [apply, hread]
    split
    · exact ⟨e, he, ‹_›⟩
    · rw [Table.get_modify_self, he]
      exact ⟨_, rfl, List.mem_append_right _ (List.mem_singleton_self _)⟩

theorem written_subset (h : jti ∈ s.written) : jti ∈ (ev.apply now s).written := by
  cases ev with
  | setSession record ttl => exact List.mem_cons_of_mem _ h
  | _ => exact h

theorem of_mem_written (h : jti ∈ (ev.apply now s).written) : jti ∈ s.written ∨
    ∃ record ttl, ev = .setSession record ttl ∧ record.currentJti = jti := by
  cases ev with
  | setSession record ttl =>
    rcases List.mem_cons.mp h with rfl | h
    · exact Or.inr ⟨record, ttl, rfl, rfl⟩
    · exact Or.inl h
  | _ => exact Or.inl h

theorem indexed_subset (h : jti ∈ s.indexed) : jti ∈ (ev.apply now s).indexed := by
  cases ev with
  | indexSession record => exact List.mem_cons_of_mem _ h
  | _ => exact h

theorem of_mem_indexed (h : jti ∈ (ev.apply now s).indexed) : jti ∈ s.indexed ∨
    ∃ record, ev = .indexSession record ∧ record.currentJti = jti := by
  cases ev with
  | indexSession record =>
    rcases List.mem_cons.mp h with rfl | h
    · exact Or.inr ⟨record, rfl, rfl⟩
    · exact Or.inl h
  | _ => exact Or.inl h

theorem of_get_consumed {ticket : Id} (h : (ev.apply now s).consumed.get jti = some ticket) :
    s.consumed.get jti = some ticket ∨ ∃ token record, ev = .redeem token ticket ∧
      token.jti = jti ∧ s.refresh.read now jti = some record := by
  cases ev with
  | redeem token ticket' =>
    simp only [apply] at h
    split at h
    · rename_i hread
      rw [Table.get_put] at h
      split at h
      · rename_i hjti
        cases h
        obtain ⟨record, hrecord⟩ := Option.isSome_iff_exists.mp hread
        exact Or.inr ⟨token, record, rfl, hjti.symm, hjti ▸ hrecord⟩
      · exact Or.inl h
    · exact Or.inl h
  | _ => exact Or.inl h

theorem of_mem_refreshTokens {token : RefreshToken}
    (h : token ∈ (ev.apply now s).refreshTokens) : token ∈ s.refreshTokens ∨
      ∃ access redeemed, ev = .handOut access token redeemed := by
  cases ev with
  | handOut access token' redeemed =>
    rcases List.mem_cons.mp h with rfl | h
    · exact Or.inr ⟨access, redeemed, rfl⟩
    · exact Or.inl h
  | _ => exact Or.inl h

theorem refreshTokens_subset {token : RefreshToken} (h : token ∈ s.refreshTokens) :
    token ∈ (ev.apply now s).refreshTokens := by
  cases ev with
  | handOut access token' redeemed => exact List.mem_cons_of_mem _ h
  | _ => exact h

variable (ev now s) in
theorem redeemed_apply : (ev.apply now s).redeemed = s.redeemed ∨
    ∃ access token r, ev = .handOut access token (some r) ∧
      (ev.apply now s).redeemed = r :: s.redeemed := by
  cases ev with
  | handOut access token redeemed =>
    cases redeemed with
    | none => exact Or.inl rfl
    | some r => exact Or.inr ⟨access, token, r, rfl, rfl⟩
  | _ => exact Or.inl rfl

theorem of_mem_redeemed {r : Redemption} (h : r ∈ (ev.apply now s).redeemed) :
    r ∈ s.redeemed ∨ ∃ access token, ev = .handOut access token (some r) := by
  rcases redeemed_apply now ev s with he | ⟨access, token, r', rfl, he⟩
  · exact Or.inl (he ▸ h)
  · rcases List.mem_cons.mp (he ▸ h) with rfl | h
    · exact Or.inr ⟨access, token, rfl⟩
    · exact Or.inl h

theorem of_mem_accepted {use : CredentialUse} (h : use ∈ (ev.apply now s).accepted) :
    use ∈ s.accepted ∨ ev = .accept use ∨ ∃ access token r, ev = .handOut access token (some r) ∧
      use = ⟨r.ticket, r.token.sub, r.token.sessionVersion⟩ := by
  cases ev with
  | handOut access token redeemed =>
    cases redeemed with
    | none => exact Or.inl h
    | some r =>
      rcases List.mem_cons.mp h with rfl | h
      · exact Or.inr (Or.inr ⟨access, token, r, rfl, rfl⟩)
      · exact Or.inl h
  | accept use' =>
    rcases List.mem_cons.mp h with rfl | h
    · exact Or.inr (Or.inl rfl)
    · exact Or.inl h
  | _ => exact Or.inl h

/-- The command is a revocation of the session that deletes the token `deleted`, or none. -/
def Revokes (userId sid : Id) (deleted : Option Id) (ev : SessionEvent) : Prop :=
  (ev = .readSession userId sid ∧ deleted = none) ∨
    ∃ jti, ev = .revokeRefresh userId sid jti ∧ deleted = some jti

/-- **Whose turn it is**: a token was stored, or taken, or a revocation came. -/
theorem of_get_chains {chain : Chain} (h : (ev.apply now s).chains.get sid = some chain) :
    s.chains.get sid = some chain ∨
      (∃ token record holder ttl, ev = .setRefresh token record holder ttl ∧ token.sid = sid ∧
        chain = ⟨token.sub, .live token.jti⟩) ∨
      (∃ token ticket record, ev = .redeem token ticket ∧
        s.refresh.read now token.jti = some record ∧ record.sessionId = sid ∧
        chain = ⟨record.userId, .held ticket true⟩) ∨
      ∃ deleted before, ev.Revokes chain.userId sid deleted ∧ s.chains.get sid = some before ∧
        chain = { before with state := before.state.revoked (s.dead now deleted) } := by
  have htouch : ∀ {comes u sid' deleted},
      (s.touch now comes u sid' deleted).chains.get sid = some chain →
      (∀ u', sid = sid' → u = u' → ev.Revokes u' sid deleted) → s.chains.get sid = some chain ∨
        ∃ deleted before, ev.Revokes chain.userId sid deleted ∧
          s.chains.get sid = some before ∧
          chain = { before with state := before.state.revoked (s.dead now deleted) } := by
    intro comes u sid' deleted hchain hrevokes
    rw [SessionStore.get_chains_touch, Option.map_eq_some_iff] at hchain
    obtain ⟨before, hbefore, rfl⟩ := hchain
    split
    · rename_i hc
      exact Or.inr ⟨deleted, before, hrevokes _ hc.1 hc.2.2.symm, hbefore, rfl⟩
    · exact Or.inl hbefore
  cases ev with
  | setRefresh token record holder ttl =>
    simp only [apply, Table.get_put] at h
    split at h
    · rename_i hsid
      cases h
      exact Or.inr (Or.inl ⟨token, record, holder, ttl, rfl, hsid.symm, rfl⟩)
    · exact Or.inl h
  | redeem token ticket =>
    simp only [apply] at h
    split at h
    · rename_i record hrecord
      rw [Table.get_put] at h
      split at h
      · rename_i hsid
        cases h
        exact Or.inr (Or.inr (Or.inl ⟨token, ticket, record, rfl, hrecord, hsid.symm, rfl⟩))
      · exact Or.inl h
    · exact Or.inl h
  | readSession u sid' =>
    refine (htouch h ?_).imp_right fun h => Or.inr (Or.inr h)
    rintro u' rfl rfl
    exact Or.inl ⟨rfl, rfl⟩
  | revokeRefresh u sid' jti =>
    refine (htouch h ?_).imp_right fun h => Or.inr (Or.inr h)
    rintro u' rfl rfl
    exact Or.inr ⟨jti, rfl, rfl⟩
  | _ => exact Or.inl h

theorem of_mem_attempted {u : Id} (h : (u, sid) ∈ (ev.apply now s).attempted) :
    (u, sid) ∈ s.attempted ∨ ∃ deleted before, ev.Revokes u sid deleted ∧
      (deleted = none → (s.session.read now (u, sid)).any (·.userId == u) = false) ∧
      s.chains.get sid = some before ∧ before.userId = u ∧
      (ev.apply now s).chains.get sid =
        some { before with state := before.state.revoked (s.dead now deleted) } := by
  have htouch : ∀ {comes u' sid' deleted}, (u, sid) ∈ (s.touch now comes u' sid' deleted).attempted →
      (u, sid) ∈ s.attempted ∨ u = u' ∧ sid = sid' ∧ comes = true ∧
        ∃ before, s.chains.get sid = some before ∧ before.userId = u ∧
          (s.touch now comes u' sid' deleted).chains.get sid =
            some { before with state := before.state.revoked (s.dead now deleted) } := by
    intro comes u' sid' deleted hmem
    rw [SessionStore.get_chains_touch]
    simp only [SessionStore.touch] at hmem
    split at hmem
    · rename_i hc
      rcases List.mem_cons.mp hmem with heq | hmem
      · cases heq
        obtain ⟨before, hbefore, hu⟩ := (Option.any_eq_true _ _).mp hc.2
        refine Or.inr ⟨rfl, rfl, hc.1, before, hbefore, beq_iff_eq.mp hu, ?_⟩
        simp [hbefore, hc.1, beq_iff_eq.mp hu]
      · exact Or.inl hmem
    · exact Or.inl hmem
  cases ev with
  | readSession u' sid' =>
    rcases htouch h with h | ⟨rfl, rfl, hcomes, before, hbefore, hu, hafter⟩
    · exact Or.inl h
    · exact Or.inr ⟨none, before, Or.inl ⟨rfl, rfl⟩, fun _ => by simpa using hcomes, hbefore, hu,
        hafter⟩
  | revokeRefresh u' sid' jti =>
    rcases htouch h with h | ⟨rfl, rfl, -, before, hbefore, hu, hafter⟩
    · exact Or.inl h
    · exact Or.inr ⟨some jti, before, Or.inr ⟨jti, rfl, rfl⟩, by simp, hbefore, hu, hafter⟩
  | _ => exact Or.inl h

theorem attempted_subset {u : Id} (h : (u, sid) ∈ s.attempted) :
    (u, sid) ∈ (ev.apply now s).attempted := by
  cases ev with
  | readSession u' sid' =>
    simp only [apply, SessionStore.touch]
    split
    · exact List.mem_cons_of_mem _ h
    · exact h
  | revokeRefresh u' sid' jti =>
    simp only [apply, SessionStore.touch]
    split
    · exact List.mem_cons_of_mem _ h
    · exact h
  | _ => exact h

theorem of_mem_revoked {R : Revocation} (h : R ∈ (ev.apply now s).revoked) : R ∈ s.revoked ∨
    ev = .revoked R.userId R.sid ∧ (R.userId, R.sid) ∈ s.attempted ∧ R.started = s.drawn := by
  cases ev with
  | revoked u sid' =>
    simp only [apply] at h
    split at h
    · rename_i hattempted
      rcases List.mem_cons.mp h with rfl | h
      · exact Or.inr ⟨rfl, hattempted, rfl⟩
      · exact Or.inl h
    · exact Or.inl h
  | _ => exact Or.inl h

/-- A session stays a session. -/
theorem chains_isSome (h : (s.chains.get sid).isSome) :
    ((ev.apply now s).chains.get sid).isSome := by
  cases ev with
  | setRefresh token record holder ttl =>
    simp only [apply, Table.get_put]
    split
    · rfl
    · exact h
  | redeem token ticket =>
    simp only [apply]
    split
    · rw [Table.get_put]
      split
      · rfl
      · exact h
    · exact h
  | readSession u sid' => simpa [apply, SessionStore.get_chains_touch] using h
  | revokeRefresh u sid' jti => simpa [apply, SessionStore.get_chains_touch] using h
  | _ => exact h

end SessionEvent

/-! ## Codes -/

theorem OtpEvent.of_mem_issued {ev : OtpEvent} {s : OtpStore} {phone : String} {salt : Id}
    (h : (phone, salt) ∈ (ev.apply now s).issued) : (phone, salt) ∈ s.issued ∨
      ∃ hash, ev = .setCode phone hash ∧ hash.salt = salt := by
  cases ev with
  | setCode phone' hash =>
    rcases List.mem_cons.mp h with h | h
    · cases h
      exact Or.inr ⟨hash, rfl, rfl⟩
    · exact Or.inl h
  | withdraw phone' hash => simp only [apply] at h; split at h <;> exact Or.inl h
  | compare phone' ticket matched => simp only [apply] at h; split at h <;> exact Or.inl h
  | countFailure phone' ticket => simp only [apply] at h; split at h <;> exact Or.inl h
  | consume phone' hash ticket => simp only [apply] at h; split at h <;> exact Or.inl h
  | _ => exact Or.inl h

theorem MfaEvent.of_mem_checks {ev : MfaEvent} {s : MfaStore} {c : MfaCheck}
    (h : c ∈ (ev.apply now s).checks) : c ∈ s.checks ∨
      ev = .check c.userId c.life c.number c.ticket := by
  cases ev with
  | check u life number ticket =>
    rcases List.mem_cons.mp h with rfl | h
    · exact Or.inr rfl
    · exact Or.inl h
  | _ => exact Or.inl h

end Sosedi
