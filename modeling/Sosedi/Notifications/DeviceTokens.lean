import Sosedi.Notifications.NotifyScripts

/-!
# Device tokens have one owner

Proved here: in every state of a run a token is registered once, and an installation has one
token of each provider; what is handed to a provider names a token that belonged to a recipient
of the event when the worker read it; the answer that a token is invalid removes that token only
(`device_tokens_owned`).
-/

namespace Sosedi

open Transactions

/-- What holds of the device tokens in a state `s` of a run from `s₀`. -/
structure DeviceTokensOwned (s₀ s : State NotifySys) : Prop where
  tokens : ∀ id id' row row', s.db.tokens.get id = some row → s.db.tokens.get id' = some row' →
    row.provider = row'.provider → row.token = row'.token → id = id'
  installations : ∀ id id' row row', s.db.tokens.get id = some row →
    s.db.tokens.get id' = some row' → row.userId = row'.userId →
    row.installationId = row'.installationId → row.provider = row'.provider → id = id'
  /-- A request to a provider names a token as the worker read it, and it was a recipient's. -/
  sends : ∀ i id token, s.event i = some (.send id token) →
    ∃ s₁, Reaches NotifyCalls (fun _ _ => True) s₀ s₁ ∧
      Reaches NotifyCalls (fun _ _ => True) s₁ s ∧
      (∃ delivery, PushDeliveryProcessor.findDelivery id s₁.db = some (delivery, token)) ∧
      ∃ event, s₁.db.outbox.get id.eventId = some event ∧
        token.userId ∈ event.recipientIds s₁.db
  /-- Whoever drops a token was told that it is invalid. -/
  rejected : ∀ i id token, s.event i = some (.dropToken id token) →
    (∃ s₁, Reaches NotifyCalls (fun _ _ => True) s₀ s₁ ∧
      Reaches NotifyCalls (fun _ _ => True) s₁ s ∧ s₁.event i = some (.send id token)) ∧
    ∃ s₁, Reaches NotifyCalls (fun _ _ => True) s₀ s₁ ∧
      Reaches NotifyCalls (fun _ _ => True) s₁ s ∧
      s₁.event i = some (.answer id token (some .invalidToken))
  /-- It removes that token only. -/
  drops : ∀ i id token s', s.event i = some (.dropToken id token) →
    s.fire (.run i) = some s' → ∀ tokenId row, s.db.tokens.get tokenId = some row →
      s'.db.tokens.get tokenId = none → row.provider = token.provider ∧ row.token = token.token

section Runs

variable {s₀ s s' : State NotifySys} {i : Nat} {id : DeliveryId} {token : DevicePushToken}

theorem persists_provider (id : Id) (provider : PushTokenProvider) :
    Persists (notifyContract fun _ _ => True) fun σ => id ∈ σ.1.issuedTokenIds ∧
      ∀ row, σ.1.tokens.get id = some row → row.provider = provider := by
  rintro K a _ ⟨-, ev, -, rfl, hg⟩ ⟨hissued, h⟩
  refine ⟨ev.issued_step hissued, fun row hrow => ?_⟩
  rcases ev.tokens_inv hrow with ⟨removed, rfl⟩ | ⟨old, hold, -, -, -, hprovider, -⟩
  · exact absurd hissued (RegisterGuard.fresh hg rfl).1
  · rw [hprovider]
    exact h old hold

theorem findDelivery_token {db : NotifyDatabase} {found : PushDelivery × DevicePushToken}
    (h : PushDeliveryProcessor.findDelivery id db = some found) :
    db.tokens.get id.tokenId = some found.2 := by
  obtain ⟨delivery, -, hmap⟩ := Option.bind_eq_some_iff.mp h
  obtain ⟨token, htoken, rfl⟩ := Option.map_eq_some_iff.mp hmap
  exact htoken

/-- The token of a request is as it was read in an earlier state. -/
theorem NotifyRuns.sent (h : NotifyRuns s₀ s) (hev : s.event i = some (.send id token)) :
    ∃ s₁, Reaches NotifyCalls (fun _ _ => True) s₀ s₁ ∧
      Reaches NotifyCalls (fun _ _ => True) s₁ s ∧
      ∃ delivery, PushDeliveryProcessor.findDelivery id s₁.db = some (delivery, token) := by
  obtain ⟨past, hpast, db, hread, hfound⟩ := h.justified hev
  obtain ⟨s₁, h₁, hr, rfl⟩ := hpast.reads db hread
  exact ⟨s₁, h₁, hr, hfound⟩

/-- A token keeps the provider that it was read with. -/
theorem NotifyRuns.provider_of_sent (h : NotifyRuns s₀ s) {s₁ : State NotifySys}
    (h₁ : Reaches NotifyCalls (fun _ _ => True) s₀ s₁)
    (hr : Reaches NotifyCalls (fun _ _ => True) s₁ s) (hev : s₁.event i = some (.send id token))
    {row : DevicePushToken} (hrow : s.db.tokens.get id.tokenId = some row) :
    row.provider = token.provider := by
  have hrun₁ : NotifyRuns s₀ s₁ := ⟨h.threads, h.initial, h₁⟩
  obtain ⟨s₂, h₂, hr₂, delivery, hfound⟩ := hrun₁.sent hev
  have hrun₂ : NotifyRuns s₀ s₂ := ⟨h.threads, h.initial, h₂⟩
  have htoken := findDelivery_token hfound
  refine (hrun₂.later (hr₂.trans hr) (persists_provider id.tokenId token.provider) ?_).2 row hrow
  refine ⟨hrun₂.inv.issued _ token htoken, fun row' hrow' => ?_⟩
  have hsame : some row' = some token := hrow'.symm.trans htoken
  rw [Option.some.inj hsame]

/-- **Device tokens have one owner.** -/
theorem device_tokens_owned (h : NotifyRuns s₀ s) : DeviceTokensOwned s₀ s where
  tokens := h.inv.tokenOnce
  installations := h.inv.installationOnce
  sends i id token hev := by
    obtain ⟨s₁, h₁, hr, delivery, hfound⟩ := h.sent hev
    have hrun₁ : NotifyRuns s₀ s₁ := ⟨h.threads, h.initial, h₁⟩
    refine ⟨s₁, h₁, hr, ⟨delivery, hfound⟩, ?_⟩
    exact PushDeliveryProcessor.addressed_of_findDelivery (a := s₁.store) hrun₁.inv hfound
  rejected i id token hev := by
    obtain ⟨past, hpast, hanswer, hsend⟩ := h.justified hev
    exact ⟨hpast.events _ hsend, hpast.events _ hanswer⟩
  drops i id token s' hev hf tokenId row hrow hgone := by
    obtain ⟨past, hpast, -, hsend⟩ := h.justified hev
    obtain ⟨s₁, h₁, hr, hev₁⟩ := hpast.events _ hsend
    obtain ⟨hstore, -⟩ := h.guar hev hf
    have hremoved : tokenId ∈ NotifyEvent.removes (.dropToken id token) s.db := by
      by_contra hno
      obtain ⟨row', hrow', -⟩ := NotifyEvent.tokens_step (.dropToken id token) hrow hno
      have hdb : s'.db = NotifyEvent.applyDb (.dropToken id token) s.db :=
        congrArg Prod.fst hstore
      rw [hdb, hrow'] at hgone
      cases hgone
    simp only [NotifyEvent.removes, NotifyDatabase.matching] at hremoved
    split at hremoved
    · rename_i hany
      rw [List.mem_singleton] at hremoved
      subst hremoved
      rw [hrow, Option.any_some, beq_iff_eq] at hany
      exact ⟨h.provider_of_sent h₁ hr hev₁ hrow, hany⟩
    · cases hremoved

end Runs

namespace NotifyScenario

/-- The provider rejects the token of user 2, who registers another phone meanwhile. -/
def rejected : List NotifyLine :=
  delivered ++ [.call (.processPushes (fun _ => some .invalidToken) 0), .run 3 6,
    .call (.register (fun _ => true) 3 "phone-2" (phone "token-2") 8), .run 4 40, .run 3 40]

theorem device_tokens_owned_rejected :
    (playNotify state rejected).db.tokens.rows.map Prod.fst = [8] ∧
      DeviceTokensOwned state (playNotify state rejected) :=
  ⟨by decide +kernel, device_tokens_owned (runs.play rejected)⟩

end NotifyScenario

end Sosedi
