import Sosedi.Notifications.NotifyServices
import Sosedi.Transactions.RelyGuarantee

/-!
# The contract of notifications

A step is `NotifyEvent.apply` of its event, under the guard of the event.

Proved here: what a step does to each table (`outbox_step`, `outbox_inv`, `get_inbox_apply`,
`tokens_inv`, `tokens_step`, `get_deliveries_apply`).
-/

namespace Sosedi

open Transactions NotifyDatabase

namespace NotificationOutboxEvent

/-- All but the columns that the processing sets. -/
def core (event : NotificationOutboxEvent) : NotificationOutboxEvent :=
  { event with
    processedAt := none
    began := [] }

/-- Equal columns and equal participants give equal recipients. -/
theorem recipientIds_congr {event event' : NotificationOutboxEvent} {db db' : NotifyDatabase}
    (hcore : event'.core = event.core) (hbookings : db'.bookings = db.bookings)
    (htickets : db'.tickets = db.tickets) : event'.recipientIds db' = event.recipientIds db := by
  simp only [core, mk.injEq] at hcore
  simp only [recipientIds, hcore, hbookings, htickets]

end NotificationOutboxEvent

/-! ## Guards -/

/-- The locks under which token rows are deleted. -/
structure DeletesTokens (K : List NotifyKey) (db : NotifyDatabase) (ids : List Id) : Prop where
  rows : ∀ id ∈ ids, .tokenRow id ∈ K
  deliveries : ∀ key row, db.deliveries.get key = some row → key.tokenId ∈ ids →
    .deliveryRow key ∈ K

structure FanOutGuard (K : List NotifyKey) (db : NotifyDatabase) (eventId : Id)
    (event : NotificationOutboxEvent) (recipientIds tokenIds began : List Id) (marks : Bool) :
    Prop where
  event : ∃ cur, db.outbox.get eventId = some cur ∧ event.core = cur.core ∧
    recipientIds = cur.recipientIds db ∧ cur.processedAt.isNone = marks
  row : marks = true → .outboxRow eventId ∈ K
  nodup : tokenIds.Nodup
  tokens : ∀ id ∈ tokenIds, .tokenRow id ∈ K ∧
    ∃ row, db.tokens.get id = some row ∧ row.userId ∈ recipientIds
  began : ∀ id ∈ began, id ∈ db.issuedTokenIds ∧ ((db.tokens.get id).isSome → id ∈ tokenIds)

structure RegisterGuard (K : List NotifyKey) (db : NotifyDatabase) (removed : List Id) (id : Id)
    (row : DevicePushToken) (isNew : Bool) : Prop where
  deletes : DeletesTokens K db removed
  tokenRow : .tokenRow id ∈ K
  tokenIndex : .tokenIndex row.provider row.token ∈ K
  installationIndex : isNew = true →
    .installationIndex row.userId row.installationId row.provider ∈ K
  free : ∀ id' other, db.tokens.get id' = some other → id' ≠ id → id' ∉ removed →
    DeviceTokensService.hasToken row.provider row.token other = false
  fresh : isNew = true → id ∉ db.issuedTokenIds ∧ ∀ id' other,
    db.tokens.get id' = some other →
      DeviceTokensService.ofInstallation row.userId row.installationId row.provider other = false
  own : isNew = false → id ∉ removed ∧ ∃ old, db.tokens.get id = some old ∧
    DeviceTokensService.ofInstallation row.userId row.installationId row.provider old = true

/-- What holds when the event happens; `K` are the locks of its client. -/
def NotifyEvent.Guard (K : List NotifyKey) (db : NotifyDatabase) : NotifyEvent → Prop
  | enqueue id event => .outboxRow id ∈ K ∧ db.outbox.get id = none ∧
    event.processedAt = none ∧ event.began = [] ∧ event.recipientIds db ≠ []
  | fanOut eventId event recipientIds tokenIds began _ _ marks =>
    FanOutGuard K db eventId event recipientIds tokenIds began marks
  | register removed id row isNew => RegisterGuard K db removed id row isNew
  | remove userId id => DeletesTokens K db (db.matching id fun row => row.userId == userId)
  | dropToken id token =>
    DeletesTokens K db (db.matching id.tokenId fun row => row.token == token.token)
  | claim id now _ => .deliveryRow id ∈ K ∧ ∃ row, db.deliveries.get id = some row ∧
    PushDeliveryProcessor.claimable now row = true
  | complete id _ => .deliveryRow id ∈ K
  | send id token => ∃ event, db.outbox.get id.eventId = some event ∧
    token.userId ∈ event.recipientIds db
  | _ => True

/-- What holds of the committed tables. -/
structure NotifyInv (db : NotifyDatabase) : Prop where
  recipients : ∀ e event, db.outbox.get e = some event → event.recipientIds db ≠ []
  inbox : ∀ key row, db.inbox.get key = some row → ∃ event,
    db.outbox.get key.eventId = some event ∧ event.processedAt.isSome ∧
      key.recipientId ∈ event.recipientIds db ∧ row = event.toInbox
  addressed : ∀ e event, db.outbox.get e = some event → event.processedAt.isSome →
    ∀ recipientId ∈ event.recipientIds db, (db.inbox.get ⟨e, recipientId⟩).isSome
  inboxOnce : db.inboxInserts.Nodup ∧ ∀ key, key ∈ db.inboxInserts ↔ (db.inbox.get key).isSome
  deliveries : ∀ key row, db.deliveries.get key = some row → ∃ event token,
    db.outbox.get key.eventId = some event ∧ event.processedAt.isSome ∧
      db.tokens.get key.tokenId = some token ∧ token.userId ∈ event.recipientIds db
  pushed : ∀ e event, db.outbox.get e = some event → event.processedAt.isSome →
    ∀ id ∈ event.began, id ∈ db.issuedTokenIds ∧
      ((db.tokens.get id).isSome → (db.deliveries.get ⟨e, id⟩).isSome)
  deliveryOnce : db.deliveryInserts.Nodup
  /-- A delivery goes only with its token. -/
  inserted : ∀ key ∈ db.deliveryInserts, key.tokenId ∈ db.issuedTokenIds ∧
    ((db.tokens.get key.tokenId).isSome → (db.deliveries.get key).isSome)
  issued : ∀ id row, db.tokens.get id = some row → id ∈ db.issuedTokenIds
  tokenOnce : ∀ id id' row row', db.tokens.get id = some row → db.tokens.get id' = some row' →
    row.provider = row'.provider → row.token = row'.token → id = id'
  installationOnce : ∀ id id' row row', db.tokens.get id = some row →
    db.tokens.get id' = some row' → row.userId = row'.userId →
    row.installationId = row'.installationId → row.provider = row'.provider → id = id'

def notifyContract (ok : NotifyEvent → NotifyStore → Prop) : Contract NotifySys where
  inv σ := NotifyInv σ.1
  ok := ok
  guar ev K a b := b = ev.apply a ∧ ev.Guard K a.1

/-! ## Tables after a step -/

namespace NotifyDatabase

variable {db : NotifyDatabase} {ids : List Id}

theorem get_tokens_deleteTokens (ids : List Id) (db : NotifyDatabase) (id : Id) :
    (db.deleteTokens ids).tokens.get id = if id ∈ ids then none else db.tokens.get id := by
  rw [deleteTokens, Table.get_eraseWhere]
  by_cases h : id ∈ ids <;> cases db.tokens.get id <;> simp [h]

theorem get_deliveries_deleteTokens (ids : List Id) (db : NotifyDatabase) (key : DeliveryId) :
    (db.deleteTokens ids).deliveries.get key =
      if key.tokenId ∈ ids then none else db.deliveries.get key := by
  rw [deleteTokens, Table.get_eraseWhere]
  by_cases h : key.tokenId ∈ ids <;> cases db.deliveries.get key <;> simp [h]

theorem mem_map_deliveryId {eventId : Id} {tokenIds : List Id} {key : DeliveryId} :
    key ∈ tokenIds.map (DeliveryId.mk eventId) ↔
      key.eventId = eventId ∧ key.tokenId ∈ tokenIds := by
  rw [List.mem_map]
  constructor
  · rintro ⟨id, hid, rfl⟩
    exact ⟨rfl, hid⟩
  · rintro ⟨rfl, hid⟩
    exact ⟨key.tokenId, hid, rfl⟩

theorem mem_map_inboxId {eventId : Id} {recipientIds : List Id} {key : InboxId} :
    key ∈ recipientIds.map (InboxId.mk eventId) ↔
      key.eventId = eventId ∧ key.recipientId ∈ recipientIds := by
  rw [List.mem_map]
  constructor
  · rintro ⟨id, hid, rfl⟩
    exact ⟨rfl, hid⟩
  · rintro ⟨rfl, hid⟩
    exact ⟨key.recipientId, hid, rfl⟩

end NotifyDatabase

namespace NotifyEvent

variable {ev : NotifyEvent} {db : NotifyDatabase} {K : List NotifyKey}

/-- The ids of the tokens that the step deletes. -/
def removes : NotifyEvent → NotifyDatabase → List Id
  | register removed _ _ _, _ => removed
  | remove userId id, db => db.matching id fun row => row.userId == userId
  | dropToken id token, db => db.matching id.tokenId fun row => row.token == token.token
  | _, _ => []

theorem bookings_apply (ev : NotifyEvent) (db : NotifyDatabase) :
    (ev.applyDb db).bookings = db.bookings := by
  cases ev with
  | fanOut _ _ _ _ _ _ _ marks => cases marks <;> rfl
  | register _ _ _ isNew => cases isNew <;> rfl
  | _ => rfl

theorem tickets_apply (ev : NotifyEvent) (db : NotifyDatabase) :
    (ev.applyDb db).tickets = db.tickets := by
  cases ev with
  | fanOut _ _ _ _ _ _ _ marks => cases marks <;> rfl
  | register _ _ _ isNew => cases isNew <;> rfl
  | _ => rfl

/-- The recipients of an event never change. -/
theorem recipientIds_apply (ev : NotifyEvent) (db : NotifyDatabase)
    {event event' : NotificationOutboxEvent} (h : event'.core = event.core) :
    event'.recipientIds (ev.applyDb db) = event.recipientIds db :=
  NotificationOutboxEvent.recipientIds_congr h (ev.bookings_apply db) (ev.tickets_apply db)

/-- An event of the outbox stays; once processed it does not change. -/
theorem outbox_step (hg : ev.Guard K db) {e : Id} {event : NotificationOutboxEvent}
    (h : db.outbox.get e = some event) : ∃ event', (ev.applyDb db).outbox.get e = some event' ∧
      event'.core = event.core ∧ (event.processedAt.isSome → event' = event) := by
  cases ev with
  | enqueue id new => exact ⟨event, Table.get_insert_of_get h, rfl, fun _ => rfl⟩
  | fanOut eventId _ _ _ began _ processedAt marks =>
    cases marks with
    | false => exact ⟨event, h, rfl, fun _ => rfl⟩
    | true =>
      simp only [applyDb, if_true, markProcessed, createDeliveries, createInbox]
      rw [Table.get_modify]
      by_cases he : e = eventId
      · subst he
        rw [if_pos rfl, h]
        refine ⟨_, rfl, rfl, fun hs => ?_⟩
        obtain ⟨event', hget, -, -, hnone⟩ := hg.event
        rw [h, Option.some.injEq] at hget
        subst hget
        rw [Option.isNone_iff_eq_none] at hnone
        rw [hnone] at hs
        cases hs
      · rw [if_neg he]
        exact ⟨event, h, rfl, fun _ => rfl⟩
  | register _ _ _ isNew =>
    cases isNew <;> exact ⟨event, h, rfl, fun _ => rfl⟩
  | _ => exact ⟨event, h, rfl, fun _ => rfl⟩

/-- An event is new or was there, and only a fan-out processes it. -/
theorem outbox_inv {e : Id} {event' : NotificationOutboxEvent}
    (h : (ev.applyDb db).outbox.get e = some event') : ev = .enqueue e event' ∨
      ∃ event, db.outbox.get e = some event ∧ event'.core = event.core ∧ (event' = event ∨
        ∃ row recipientIds tokenIds dbNow processedAt, ev = .fanOut e row recipientIds tokenIds
          event'.began dbNow processedAt true ∧ event'.processedAt = some processedAt) := by
  cases ev with
  | enqueue id new =>
    rcases Table.of_get_insert h with ⟨rfl, rfl⟩ | h
    · exact Or.inl rfl
    · exact Or.inr ⟨event', h, rfl, Or.inl rfl⟩
  | fanOut eventId row recipientIds tokenIds began dbNow processedAt marks =>
    right
    cases marks with
    | false => exact ⟨event', h, rfl, Or.inl rfl⟩
    | true =>
      simp only [applyDb, if_true, markProcessed, createDeliveries, createInbox] at h
      rw [Table.get_modify] at h
      split at h
      · rename_i he
        subst he
        obtain ⟨event, hget, rfl⟩ := Option.map_eq_some_iff.mp h
        refine ⟨event, hget, rfl, Or.inr ?_⟩
        exact ⟨row, recipientIds, tokenIds, dbNow, processedAt, rfl, rfl⟩
      · exact ⟨event', h, rfl, Or.inl rfl⟩
  | register _ _ _ isNew =>
    cases isNew <;> exact Or.inr ⟨event', h, rfl, Or.inl rfl⟩
  | _ => exact Or.inr ⟨event', h, rfl, Or.inl rfl⟩

/-- A token is new or was there, and keeps its owner. -/
theorem tokens_inv {id : Id} {row : DevicePushToken}
    (h : (ev.applyDb db).tokens.get id = some row) :
    (∃ removed, ev = .register removed id row true) ∨ ∃ old, db.tokens.get id = some old ∧
      id ∉ ev.removes db ∧ row.userId = old.userId ∧ row.installationId = old.installationId ∧
      row.provider = old.provider ∧ (row = old ∨ ∃ removed new,
        ev = .register removed id new false ∧ row.token = new.token) := by
  have hdelete : ∀ ids, (db.deleteTokens ids).tokens.get id = some row →
      db.tokens.get id = some row ∧ id ∉ ids := by
    intro ids hget
    rw [get_tokens_deleteTokens] at hget
    split at hget
    · cases hget
    · exact ⟨hget, ‹_›⟩
  cases ev with
  | fanOut _ _ _ _ _ _ _ marks =>
    cases marks <;>
      exact Or.inr ⟨row, h, by simp [removes], rfl, rfl, rfl, Or.inl rfl⟩
  | register removed id' new isNew =>
    cases isNew with
    | true =>
      rcases Table.of_get_insert h with ⟨rfl, rfl⟩ | h
      · exact Or.inl ⟨removed, rfl⟩
      · obtain ⟨hget, hno⟩ := hdelete removed h
        exact Or.inr ⟨row, hget, hno, rfl, rfl, rfl, Or.inl rfl⟩
    | false =>
      right
      simp only [applyDb, Bool.false_eq_true, if_false, updateToken] at h
      rw [Table.get_modify] at h
      split at h
      · rename_i hid
        subst hid
        obtain ⟨old, hold, rfl⟩ := Option.map_eq_some_iff.mp h
        rw [get_tokens_deleteTokens] at hold
        split at hold
        · cases hold
        · exact ⟨old, hold, ‹_›, rfl, rfl, rfl, Or.inr ⟨removed, new, rfl, rfl⟩⟩
      · obtain ⟨hget, hno⟩ := hdelete removed h
        exact ⟨row, hget, hno, rfl, rfl, rfl, Or.inl rfl⟩
  | remove userId id' =>
    obtain ⟨hget, hno⟩ := hdelete _ h
    exact Or.inr ⟨row, hget, hno, rfl, rfl, rfl, Or.inl rfl⟩
  | dropToken id' token =>
    obtain ⟨hget, hno⟩ := hdelete _ h
    exact Or.inr ⟨row, hget, hno, rfl, rfl, rfl, Or.inl rfl⟩
  | _ => exact Or.inr ⟨row, h, by simp [removes], rfl, rfl, rfl, Or.inl rfl⟩

/-- A token that the step does not delete stays, with its owner. -/
theorem tokens_step (ev : NotifyEvent) {id : Id} {row : DevicePushToken}
    (h : db.tokens.get id = some row) (hno : id ∉ ev.removes db) :
    ∃ row', (ev.applyDb db).tokens.get id = some row' ∧ row'.userId = row.userId ∧
      row'.installationId = row.installationId ∧ row'.provider = row.provider := by
  have hdelete : ∀ ids, id ∉ ids → (db.deleteTokens ids).tokens.get id = some row := by
    intro ids hids
    rw [get_tokens_deleteTokens, if_neg hids, h]
  cases ev with
  | fanOut _ _ _ _ _ _ _ marks => cases marks <;> exact ⟨row, h, rfl, rfl, rfl⟩
  | register removed id' new isNew =>
    cases isNew with
    | true => exact ⟨row, Table.get_insert_of_get (hdelete removed hno), rfl, rfl, rfl⟩
    | false =>
      simp only [applyDb, Bool.false_eq_true, if_false, updateToken]
      rw [Table.get_modify]
      split
      · rename_i hid
        subst hid
        rw [hdelete removed hno]
        exact ⟨_, rfl, rfl, rfl, rfl⟩
      · exact ⟨row, hdelete removed hno, rfl, rfl, rfl⟩
  | remove | dropToken => exact ⟨row, hdelete _ hno, rfl, rfl, rfl⟩
  | _ => exact ⟨row, h, rfl, rfl, rfl⟩

/-- What the step does to a delivery that it keeps. -/
def updateOf : NotifyEvent → DeliveryId → PushDelivery → PushDelivery
  | claim id _ processingUntil, key, row =>
    if key = id then
      { row with
        status := .processing
        processingUntil := some processingUntil }
    else row
  | complete id completion, key, row => if key = id then row.completeWith completion else row
  | _, _, row => row

/-- The delivery that the step inserts where there is none. -/
def inserted : NotifyEvent → DeliveryId → Option PushDelivery
  | fanOut eventId _ _ tokenIds _ dbNow _ _, key =>
    if key.eventId = eventId ∧ key.tokenId ∈ tokenIds then
      some { nextAttemptAt := dbNow, createdAt := dbNow }
    else none
  | _, _ => none

theorem get_deliveries_apply (ev : NotifyEvent) (db : NotifyDatabase) (key : DeliveryId) :
    (ev.applyDb db).deliveries.get key = if key.tokenId ∈ ev.removes db then none
      else ((db.deliveries.get key).map (ev.updateOf key)).or (ev.inserted key) := by
  cases ev with
  | fanOut eventId event recipientIds tokenIds began dbNow processedAt marks =>
    have hget : (applyDb (.fanOut eventId event recipientIds tokenIds began dbNow processedAt marks)
        db).deliveries = db.deliveries.insertAll (tokenIds.map (DeliveryId.mk eventId)) fun _ =>
          { nextAttemptAt := dbNow, createdAt := dbNow } := by
      cases marks <;> rfl
    rw [hget, Table.get_insertAll]
    simp only [mem_map_deliveryId, removes, List.not_mem_nil, if_false, inserted]
    cases h : db.deliveries.get key with
    | none => simp
    | some row => simp [updateOf]
  | register removed id row isNew =>
    have hget : (applyDb (.register removed id row isNew) db).deliveries =
        (db.deleteTokens removed).deliveries := by
      cases isNew <;> rfl
    rw [hget, get_deliveries_deleteTokens]
    cases db.deliveries.get key <;> rfl
  | remove | dropToken =>
    simp only [applyDb, deleteTokenWhere]
    rw [get_deliveries_deleteTokens]
    cases db.deliveries.get key <;> rfl
  | claim id now processingUntil =>
    simp only [applyDb, updateDelivery, removes, List.not_mem_nil, if_false, inserted,
      Option.or_none]
    rw [Table.get_modify]
    by_cases hkey : key = id
    · subst hkey
      rw [if_pos rfl]
      cases db.deliveries.get key <;> simp [updateOf]
    · rw [if_neg hkey]
      cases db.deliveries.get key <;> simp [updateOf, hkey]
  | complete id completion =>
    simp only [applyDb, updateDelivery, removes, List.not_mem_nil, if_false, inserted,
      Option.or_none]
    rw [Table.get_modify]
    by_cases hkey : key = id
    · subst hkey
      rw [if_pos rfl]
      cases db.deliveries.get key <;> simp [updateOf]
    · rw [if_neg hkey]
      cases db.deliveries.get key <;> simp [updateOf, hkey]
  | _ =>
    simp only [applyDb, removes, List.not_mem_nil, if_false]
    cases db.deliveries.get key <;> rfl

/-- A delivery that is there after a step is new or was there. -/
theorem deliveries_inv {key : DeliveryId} {row : PushDelivery}
    (h : (ev.applyDb db).deliveries.get key = some row) : key.tokenId ∉ ev.removes db ∧
      ((db.deliveries.get key = none ∧ ev.inserted key = some row) ∨
        ∃ old, db.deliveries.get key = some old ∧ row = ev.updateOf key old) := by
  rw [get_deliveries_apply] at h
  split at h
  · cases h
  · refine ⟨‹_›, ?_⟩
    cases hget : db.deliveries.get key with
    | none =>
      rw [hget] at h
      exact Or.inl ⟨rfl, h⟩
    | some old =>
      rw [hget, Option.map_some, Option.some_or, Option.some.injEq] at h
      exact Or.inr ⟨old, rfl, h.symm⟩

theorem inserted_eq_some {key : DeliveryId} {row : PushDelivery}
    (h : ev.inserted key = some row) : row.status = .pending ∧
      ∃ event recipientIds tokenIds began dbNow processedAt marks, ev = .fanOut key.eventId event
        recipientIds tokenIds began dbNow processedAt marks ∧ key.tokenId ∈ tokenIds := by
  unfold inserted at h
  split at h
  · split at h
    · rename_i hkey
      cases h
      obtain ⟨rfl, hmem⟩ := hkey
      exact ⟨rfl, _, _, _, _, _, _, _, rfl, hmem⟩
    · cases h
  · cases h

/-- The keys of the inbox rows that the step wants. -/
def inboxKeys : NotifyEvent → List InboxId
  | fanOut eventId _ recipientIds _ _ _ _ _ => recipientIds.map (InboxId.mk eventId)
  | _ => []

/-- The row of the inbox that the step inserts where there is none. -/
def addressed : NotifyEvent → InboxId → Option InboxEvent
  | fanOut eventId event recipientIds _ _ _ _ _, key =>
    if key.eventId = eventId ∧ key.recipientId ∈ recipientIds then some event.toInbox else none
  | _, _ => none

theorem get_inbox_apply (ev : NotifyEvent) (db : NotifyDatabase) (key : InboxId) :
    (ev.applyDb db).inbox.get key = (db.inbox.get key).or (ev.addressed key) := by
  cases ev with
  | fanOut eventId event recipientIds tokenIds began dbNow processedAt marks =>
    have hget : (applyDb (.fanOut eventId event recipientIds tokenIds began dbNow processedAt marks)
        db).inbox = db.inbox.insertAll (recipientIds.map (InboxId.mk eventId)) fun _ =>
          event.toInbox := by
      cases marks <;> rfl
    rw [hget, Table.get_insertAll]
    simp only [mem_map_inboxId, addressed]
    cases h : db.inbox.get key <;> simp
  | register _ _ _ isNew => cases isNew <;> exact (Option.or_none).symm
  | _ => exact (Option.or_none).symm

theorem inboxInserts_apply (ev : NotifyEvent) (db : NotifyDatabase) :
    (ev.applyDb db).inboxInserts = db.inboxInserts ++
      ev.inboxKeys.filter fun key => (db.inbox.get key).isNone := by
  cases ev with
  | fanOut _ _ _ _ _ _ _ marks => cases marks <;> rfl
  | register _ _ _ isNew => cases isNew <;> exact (List.append_nil _).symm
  | _ => exact (List.append_nil _).symm

/-- The keys of the deliveries that the step wants. -/
def deliveryKeys : NotifyEvent → List DeliveryId
  | fanOut eventId _ _ tokenIds _ _ _ _ => tokenIds.map (DeliveryId.mk eventId)
  | _ => []

theorem deliveryInserts_apply (ev : NotifyEvent) (db : NotifyDatabase) :
    (ev.applyDb db).deliveryInserts = db.deliveryInserts ++
      ev.deliveryKeys.filter fun key => (db.deliveries.get key).isNone := by
  cases ev with
  | fanOut _ _ _ _ _ _ _ marks => cases marks <;> rfl
  | register _ _ _ isNew => cases isNew <;> exact (List.append_nil _).symm
  | _ => exact (List.append_nil _).symm

/-- The ids that the step gives to tokens. -/
def issues : NotifyEvent → List Id
  | register _ id _ true => [id]
  | _ => []

theorem issuedTokenIds_apply (ev : NotifyEvent) (db : NotifyDatabase) :
    (ev.applyDb db).issuedTokenIds = db.issuedTokenIds ++ ev.issues := by
  cases ev with
  | fanOut _ _ _ _ _ _ _ marks => cases marks <;> exact (List.append_nil _).symm
  | register _ _ _ isNew =>
    cases isNew
    · exact (List.append_nil _).symm
    · rfl
  | _ => exact (List.append_nil _).symm

theorem issued_step (ev : NotifyEvent) {id : Id} (h : id ∈ db.issuedTokenIds) :
    id ∈ (ev.applyDb db).issuedTokenIds := by
  rw [issuedTokenIds_apply]
  exact List.mem_append_left _ h

end NotifyEvent

end Sosedi
