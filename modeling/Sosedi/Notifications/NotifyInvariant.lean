import Sosedi.Notifications.NotifyContract

/-!
# Every step of notifications keeps the invariant

Proved here:

* `processed_of_fanOut`: after a fan-out its event is processed;
* `tokens_cases`: a token is unchanged or as the registration writes it;
* `notify_preserved`: the invariant survives every step of the contract.
-/

namespace Sosedi

open Transactions NotifyDatabase

namespace NotifyEvent

variable {ev : NotifyEvent} {db : NotifyDatabase} {K : List NotifyKey}

/-- After a fan-out the event is processed, by it or by an earlier one. -/
theorem processed_of_fanOut {eventId : Id} {event : NotificationOutboxEvent}
    {recipientIds tokenIds began : List Id} {dbNow processedAt : Time} {marks : Bool}
    (hg : FanOutGuard K db eventId event recipientIds tokenIds began marks) :
    ∃ event', (applyDb (.fanOut eventId event recipientIds tokenIds began dbNow processedAt marks)
      db).outbox.get eventId = some event' ∧ event.core = event'.core ∧ event'.processedAt.isSome ∧
        recipientIds = event'.recipientIds db := by
  obtain ⟨cur, hcur, hcore, rfl, hmarks⟩ := hg.event
  cases marks with
  | false =>
    refine ⟨cur, hcur, hcore, ?_, rfl⟩
    cases hp : cur.processedAt with
    | none =>
      rw [hp] at hmarks
      cases hmarks
    | some _ => rfl
  | true =>
    have hget := (Table.get_modify_self db.outbox eventId fun event =>
      { event with
        processedAt := some processedAt
        began }).trans (congrArg _ hcur)
    exact ⟨_, hget, hcore, rfl, rfl⟩

/-- A processed event stays as it is. -/
theorem processed_step (hg : ev.Guard K db) {e : Id} {event : NotificationOutboxEvent}
    (h : db.outbox.get e = some event) (hp : event.processedAt.isSome) :
    (ev.applyDb db).outbox.get e = some event := by
  obtain ⟨event', hevent', -, hfixed⟩ := ev.outbox_step hg h
  rw [hevent', hfixed hp]

/-- An event that is processed after a step was processed before, or is processed by it. -/
theorem processed_cases (hg : ev.Guard K db) {e : Id} {event' : NotificationOutboxEvent}
    (h : (ev.applyDb db).outbox.get e = some event') (hp : event'.processedAt.isSome) :
    db.outbox.get e = some event' ∨ ∃ event recipientIds tokenIds dbNow processedAt,
      ev = .fanOut e event recipientIds tokenIds event'.began dbNow processedAt true ∧
        recipientIds = event'.recipientIds db := by
  rcases ev.outbox_inv h with rfl | ⟨event, hevent, hcore, rfl | ⟨row, _, _, _, _, rfl, -⟩⟩
  · obtain ⟨-, -, hnone, -⟩ := hg
    rw [hnone] at hp
    cases hp
  · exact Or.inl hevent
  · right
    obtain ⟨cur, hcur, -, hrecipients, -⟩ := FanOutGuard.event hg
    rw [hevent, Option.some.injEq] at hcur
    subst hcur
    refine ⟨_, _, _, _, _, rfl, hrecipients.trans ?_⟩
    exact (NotificationOutboxEvent.recipientIds_congr hcore rfl rfl).symm

/-- A token is unchanged or as the registration writes it. -/
theorem tokens_cases (hg : ev.Guard K db) {id : Id} {row : DevicePushToken}
    (h : (ev.applyDb db).tokens.get id = some row) :
    (db.tokens.get id = some row ∧ id ∉ ev.removes db) ∨ ∃ removed new isNew,
      ev = .register removed id new isNew ∧ row.userId = new.userId ∧
        row.installationId = new.installationId ∧ row.provider = new.provider ∧
        row.token = new.token := by
  rcases ev.tokens_inv h with ⟨removed, rfl⟩ | ⟨old, hold, hno, hsame⟩
  · exact Or.inr ⟨removed, row, true, rfl, rfl, rfl, rfl, rfl⟩
  · obtain ⟨huser, hinstallation, hprovider, rfl | ⟨removed, new, rfl, htoken⟩⟩ := hsame
    · exact Or.inl ⟨hold, hno⟩
    · right
      obtain ⟨-, old', hold', hown⟩ := RegisterGuard.own hg rfl
      rw [hold, Option.some.injEq] at hold'
      subst hold'
      simp only [DeviceTokensService.ofInstallation, Bool.and_eq_true, beq_iff_eq] at hown
      obtain ⟨⟨hu, hi⟩, hp⟩ := hown
      exact ⟨removed, new, false, rfl, huser.trans hu, hinstallation.trans hi,
        hprovider.trans hp, htoken⟩

/-- A delivery that goes only with its token still does. -/
theorem delivery_step (hg : ev.Guard K db) {key : DeliveryId}
    (hissued : key.tokenId ∈ db.issuedTokenIds)
    (h : (db.tokens.get key.tokenId).isSome → (db.deliveries.get key).isSome)
    (htoken : ((ev.applyDb db).tokens.get key.tokenId).isSome) :
    ((ev.applyDb db).deliveries.get key).isSome := by
  obtain ⟨row, hrow⟩ := Option.isSome_iff_exists.mp htoken
  rcases ev.tokens_inv hrow with ⟨removed, rfl⟩ | ⟨old, hold, hno, -⟩
  · exact absurd hissued (RegisterGuard.fresh hg rfl).1
  · obtain ⟨delivery, hdelivery⟩ := Option.isSome_iff_exists.mp (h (by rw [hold]; rfl))
    rw [get_deliveries_apply, if_neg hno, hdelivery]
    rfl

end NotifyEvent

/-! ## The invariant -/

section Step

open NotifyEvent

variable {ev : NotifyEvent} {db : NotifyDatabase} {K : List NotifyKey} (h : NotifyInv db)
  (hg : ev.Guard K db)
include h hg

theorem recipients_inv {e : Id} {event : NotificationOutboxEvent}
    (hget : (ev.applyDb db).outbox.get e = some event) :
    event.recipientIds (ev.applyDb db) ≠ [] := by
  rcases ev.outbox_inv hget with rfl | ⟨old, hold, hcore, -⟩
  · obtain ⟨-, -, -, -, hne⟩ := hg
    rw [recipientIds_apply _ _ rfl]
    exact hne
  · rw [ev.recipientIds_apply db hcore]
    exact h.recipients e old hold

theorem inbox_inv {key : InboxId} {row : InboxEvent}
    (hget : (ev.applyDb db).inbox.get key = some row) : ∃ event,
      (ev.applyDb db).outbox.get key.eventId = some event ∧ event.processedAt.isSome ∧
        key.recipientId ∈ event.recipientIds (ev.applyDb db) ∧ row = event.toInbox := by
  rw [get_inbox_apply] at hget
  cases hold : db.inbox.get key with
  | some old =>
    rw [hold, Option.some_or, Option.some.injEq] at hget
    subst hget
    obtain ⟨event, hevent, hp, hmem, rfl⟩ := h.inbox key old hold
    refine ⟨event, processed_step hg hevent hp, hp, ?_, rfl⟩
    rw [recipientIds_apply _ _ rfl]
    exact hmem
  | none =>
    rw [hold, Option.none_or] at hget
    unfold addressed at hget
    split at hget
    · split at hget
      · rename_i hkey
        obtain ⟨rfl, hmem⟩ := hkey
        cases hget
        obtain ⟨event', hevent', hcore, hp, rfl⟩ := processed_of_fanOut hg
        refine ⟨event', hevent', hp, ?_, ?_⟩
        · rw [recipientIds_apply _ _ rfl]
          exact hmem
        · simp only [NotificationOutboxEvent.core, NotificationOutboxEvent.mk.injEq] at hcore
          simp only [NotificationOutboxEvent.toInbox, hcore]
      · cases hget
    · cases hget

theorem addressed_inv {e : Id} {event : NotificationOutboxEvent}
    (hget : (ev.applyDb db).outbox.get e = some event) (hp : event.processedAt.isSome)
    {recipientId : Id} (hmem : recipientId ∈ event.recipientIds (ev.applyDb db)) :
    ((ev.applyDb db).inbox.get ⟨e, recipientId⟩).isSome := by
  rw [recipientIds_apply _ _ rfl] at hmem
  rw [get_inbox_apply]
  rcases processed_cases hg hget hp with hold | ⟨_, _, _, _, _, rfl, rfl⟩
  · obtain ⟨row, hrow⟩ := Option.isSome_iff_exists.mp (h.addressed e event hold hp _ hmem)
    rw [hrow]
    rfl
  · cases db.inbox.get ⟨e, recipientId⟩ with
    | some _ => rfl
    | none =>
      simp only [addressed, hmem, and_self, if_true]
      rfl

omit h in
theorem nodup_inboxKeys : ev.inboxKeys.Nodup := by
  cases ev with
  | fanOut eventId event recipientIds tokenIds began dbNow processedAt marks =>
    obtain ⟨cur, -, -, rfl, -⟩ := FanOutGuard.event hg
    exact (cur.nodup_recipientIds db).map fun a b hab => (InboxId.mk.inj hab).2
  | _ => exact List.nodup_nil

omit h hg in
theorem mem_inboxKeys {key : InboxId} : key ∈ ev.inboxKeys ↔ (ev.addressed key).isSome := by
  cases ev with
  | fanOut =>
    rw [inboxKeys, mem_map_inboxId, addressed]
    split <;> simp_all
  | _ => simp [inboxKeys, addressed]

theorem inboxOnce_inv : (ev.applyDb db).inboxInserts.Nodup ∧ ∀ key,
    key ∈ (ev.applyDb db).inboxInserts ↔ ((ev.applyDb db).inbox.get key).isSome := by
  obtain ⟨hnodup, hmem⟩ := h.inboxOnce
  rw [inboxInserts_apply]
  refine ⟨List.nodup_append.mpr ⟨hnodup, (nodup_inboxKeys hg).filter _, ?_⟩, fun key => ?_⟩
  · rintro key hkey _ hnew rfl
    have hnone := (List.mem_filter.mp hnew).2
    rw [Option.isNone_iff_eq_none] at hnone
    have hsome := (hmem key).mp hkey
    rw [hnone] at hsome
    cases hsome
  · rw [get_inbox_apply, List.mem_append, List.mem_filter, hmem, mem_inboxKeys]
    cases db.inbox.get key <;> simp

theorem deliveries_of_processed {key : DeliveryId} {row : PushDelivery}
    (hget : (ev.applyDb db).deliveries.get key = some row) : ∃ event token,
      (ev.applyDb db).outbox.get key.eventId = some event ∧ event.processedAt.isSome ∧
        (ev.applyDb db).tokens.get key.tokenId = some token ∧
        token.userId ∈ event.recipientIds (ev.applyDb db) := by
  obtain ⟨hno, ⟨-, hnew⟩ | ⟨old, hold, -⟩⟩ := ev.deliveries_inv hget
  · -- the fan-out has found the token under its lock
    obtain ⟨-, _, _, _, _, _, _, _, rfl, hmem⟩ := inserted_eq_some hnew
    obtain ⟨event, hevent, -, hp, rfl⟩ := processed_of_fanOut hg
    obtain ⟨-, token, htoken, huser⟩ := FanOutGuard.tokens hg _ hmem
    obtain ⟨token', htoken', hsame, -⟩ := tokens_step _ htoken hno
    refine ⟨event, token', hevent, hp, htoken', ?_⟩
    rw [recipientIds_apply _ _ rfl, hsame]
    exact huser
  · obtain ⟨event, token, hevent, hp, htoken, huser⟩ := h.deliveries key old hold
    obtain ⟨token', htoken', hsame, -⟩ := ev.tokens_step htoken hno
    refine ⟨event, token', processed_step hg hevent hp, hp, htoken', ?_⟩
    rw [recipientIds_apply _ _ rfl, hsame]
    exact huser

theorem pushed_inv {e : Id} {event : NotificationOutboxEvent}
    (hget : (ev.applyDb db).outbox.get e = some event) (hp : event.processedAt.isSome) {id : Id}
    (hid : id ∈ event.began) : id ∈ (ev.applyDb db).issuedTokenIds ∧
      (((ev.applyDb db).tokens.get id).isSome →
        ((ev.applyDb db).deliveries.get ⟨e, id⟩).isSome) := by
  rcases processed_cases hg hget hp with hold | ⟨_, _, _, _, _, rfl, -⟩
  · obtain ⟨hissued, hpushed⟩ := h.pushed e event hold hp id hid
    exact ⟨ev.issued_step hissued, fun htoken => delivery_step hg hissued hpushed htoken⟩
  · obtain ⟨hissued, hfound⟩ := FanOutGuard.began hg id hid
    refine ⟨issued_step _ hissued, fun htoken => ?_⟩
    have hmem := hfound htoken
    rw [get_deliveries_apply]
    simp only [removes, List.not_mem_nil, if_false, inserted, hmem, and_self, if_true]
    cases db.deliveries.get ⟨e, id⟩ <;> rfl

theorem deliveryInserts_inv {key : DeliveryId} (hkey : key ∈ (ev.applyDb db).deliveryInserts) :
    key.tokenId ∈ (ev.applyDb db).issuedTokenIds ∧
      (((ev.applyDb db).tokens.get key.tokenId).isSome →
        ((ev.applyDb db).deliveries.get key).isSome) := by
  rw [deliveryInserts_apply, List.mem_append, List.mem_filter] at hkey
  rcases hkey with hkey | ⟨hkey, -⟩
  · obtain ⟨hissued, hkept⟩ := h.inserted key hkey
    exact ⟨ev.issued_step hissued, delivery_step hg hissued hkept⟩
  · cases ev with
    | fanOut eventId event recipientIds tokenIds began dbNow processedAt marks =>
      obtain ⟨rfl, hmem⟩ := mem_map_deliveryId.mp hkey
      obtain ⟨-, token, htoken, -⟩ := FanOutGuard.tokens hg _ hmem
      refine ⟨issued_step _ (h.issued _ token htoken), fun _ => ?_⟩
      rw [get_deliveries_apply]
      simp only [removes, List.not_mem_nil, if_false, inserted, hmem, and_self, if_true]
      cases db.deliveries.get key <;> rfl
    | _ => cases hkey

theorem nodup_deliveryInserts : (ev.applyDb db).deliveryInserts.Nodup := by
  rw [deliveryInserts_apply]
  cases ev with
  | fanOut eventId event recipientIds tokenIds began dbNow processedAt marks =>
    have hkeys : (tokenIds.map (DeliveryId.mk eventId)).Nodup :=
      (FanOutGuard.nodup hg).map fun a b hab => (DeliveryId.mk.inj hab).2
    refine List.nodup_append.mpr ⟨h.deliveryOnce, hkeys.filter _, ?_⟩
    -- a delivery that was there before is there still, since its token is
    rintro key hkey _ hnew rfl
    obtain ⟨hwant, hnone⟩ := List.mem_filter.mp hnew
    obtain ⟨-, hmem⟩ := mem_map_deliveryId.mp hwant
    obtain ⟨-, token, htoken, -⟩ := FanOutGuard.tokens hg _ hmem
    have hsome := (h.inserted key hkey).2 (by rw [htoken]; rfl)
    rw [Option.isNone_iff_eq_none] at hnone
    rw [hnone] at hsome
    cases hsome
  | _ => exact (List.append_nil db.deliveryInserts).symm ▸ h.deliveryOnce

theorem issued_inv {id : Id} {row : DevicePushToken}
    (hget : (ev.applyDb db).tokens.get id = some row) :
    id ∈ (ev.applyDb db).issuedTokenIds := by
  rcases ev.tokens_inv hget with ⟨removed, rfl⟩ | ⟨old, hold, -⟩
  · rw [issuedTokenIds_apply]
    exact List.mem_append_right _ (List.mem_singleton_self id)
  · exact ev.issued_step (h.issued id old hold)

omit h in
/-- The registered row is the only one with its token. -/
private theorem registered_token {removed : List Id} {id id' : Id} {new : DevicePushToken}
    {isNew : Bool} (hev : ev = .register removed id new isNew) {row' : DevicePushToken}
    (hget : db.tokens.get id' = some row') (hno : id' ∉ ev.removes db)
    (hprovider : row'.provider = new.provider) (htoken : row'.token = new.token) : id = id' := by
  subst hev
  by_contra hne
  have hfree := RegisterGuard.free hg id' row' hget (Ne.symm hne) hno
  simp [DeviceTokensService.hasToken, hprovider, htoken] at hfree

/-- The registered row is the only one of its installation. -/
private theorem registered_installation {removed : List Id} {id id' : Id} {new : DevicePushToken}
    {isNew : Bool} (hev : ev = .register removed id new isNew) {row' : DevicePushToken}
    (hget : db.tokens.get id' = some row') (huser : row'.userId = new.userId)
    (hinstallation : row'.installationId = new.installationId)
    (hprovider : row'.provider = new.provider) : id = id' := by
  subst hev
  cases isNew with
  | true =>
    have hfree := (RegisterGuard.fresh hg rfl).2 id' row' hget
    simp [DeviceTokensService.ofInstallation, huser, hinstallation, hprovider] at hfree
  | false =>
    obtain ⟨-, old, hold, hown⟩ := RegisterGuard.own hg rfl
    simp only [DeviceTokensService.ofInstallation, Bool.and_eq_true, beq_iff_eq] at hown
    obtain ⟨⟨hu, hi⟩, hp⟩ := hown
    exact h.installationOnce id id' old row' hold hget (hu.trans huser.symm)
      (hi.trans hinstallation.symm) (hp.trans hprovider.symm)

theorem tokenOnce_inv {id id' : Id} {row row' : DevicePushToken}
    (hget : (ev.applyDb db).tokens.get id = some row)
    (hget' : (ev.applyDb db).tokens.get id' = some row') (hprovider : row.provider = row'.provider)
    (htoken : row.token = row'.token) : id = id' := by
  rcases tokens_cases hg hget with ⟨hold, hno⟩ | ⟨removed, new, isNew, hev, -, -, hp, ht⟩ <;>
    rcases tokens_cases hg hget' with ⟨hold', hno'⟩ | ⟨removed', new', isNew', hev', -, -, hp', ht'⟩
  · exact h.tokenOnce id id' row row' hold hold' hprovider htoken
  · exact (registered_token hg hev' hold hno (hprovider.trans hp') (htoken.trans ht')).symm
  · exact registered_token hg hev hold' hno' (hprovider.symm.trans hp) (htoken.symm.trans ht)
  · rw [hev, register.injEq] at hev'
    exact hev'.2.1

theorem installationOnce_inv {id id' : Id} {row row' : DevicePushToken}
    (hget : (ev.applyDb db).tokens.get id = some row)
    (hget' : (ev.applyDb db).tokens.get id' = some row') (huser : row.userId = row'.userId)
    (hinstallation : row.installationId = row'.installationId)
    (hprovider : row.provider = row'.provider) : id = id' := by
  rcases tokens_cases hg hget with ⟨hold, -⟩ | ⟨removed, new, isNew, hev, hu, hi, hp, -⟩ <;>
    rcases tokens_cases hg hget' with ⟨hold', -⟩ | ⟨removed', new', isNew', hev', hu', hi', hp', -⟩
  · exact h.installationOnce id id' row row' hold hold' huser hinstallation hprovider
  · exact (registered_installation h hg hev' hold (huser.trans hu') (hinstallation.trans hi')
      (hprovider.trans hp')).symm
  · exact registered_installation h hg hev hold' (huser.symm.trans hu) (hinstallation.symm.trans hi)
      (hprovider.symm.trans hp)
  · rw [hev, register.injEq] at hev'
    exact hev'.2.1

theorem NotifyInv.step : NotifyInv (ev.applyDb db) where
  recipients _ _ := recipients_inv h hg
  inbox _ _ := inbox_inv h hg
  addressed _ _ hget hp _ := addressed_inv h hg hget hp
  inboxOnce := inboxOnce_inv h hg
  deliveries _ _ := deliveries_of_processed h hg
  pushed _ _ hget hp _ := pushed_inv h hg hget hp
  deliveryOnce := nodup_deliveryInserts h hg
  inserted _ := deliveryInserts_inv h hg
  issued _ _ := issued_inv h hg
  tokenOnce _ _ _ _ := tokenOnce_inv h hg
  installationOnce _ _ _ _ := installationOnce_inv h hg

end Step

/-- **Every step keeps the invariant.** -/
theorem notify_preserved {ok : NotifyEvent → NotifyStore → Prop} :
    (notifyContract ok).Preserved := by
  rintro K a b ⟨hinv, ev, -, rfl, hg⟩
  exact hinv.step hg

end Sosedi
