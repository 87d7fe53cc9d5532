import Sosedi.Notifications.NotifyInvariant

/-!
# The services of notifications keep to the contract

Proved here:

* what others leave alone while a client holds a lock (`tokenRow_keeps`, `delivery_keeps`,
  `free_keeps`), and what everybody leaves alone (`persists_outbox`, `persists_owner`);
* `keeps_notifyCalls`: every call keeps to the contract.
-/

namespace Sosedi

open Transactions NotifyDatabase

variable {ok : NotifyEvent → NotifyStore → Prop} {L : List NotifyKey} {σ a b : NotifyStore}
  {id : Id}

/-! ## What others leave alone -/

/-- The step of somebody else. -/
private theorem other_apply (h : (notifyContract ok).Other L a b) :
    NotifyInv a.1 ∧ ∃ (ev : NotifyEvent) (K : List NotifyKey), (∀ k ∈ K, k ∉ L) ∧
      b = ev.apply a ∧ ev.Guard K a.1 := by
  obtain ⟨K, hK, hinv, ev, -, hb, hg⟩ := h
  exact ⟨hinv, ev, K, hK, hb, hg⟩

namespace NotifyEvent

variable {ev : NotifyEvent} {K : List NotifyKey} {db : NotifyDatabase}

theorem deletesTokens_removes (hg : ev.Guard K db) : DeletesTokens K db (ev.removes db) := by
  cases ev with
  | register => exact RegisterGuard.deletes hg
  | remove | dropToken => exact hg
  | _ => exact ⟨fun _ h => absurd h List.not_mem_nil, fun _ _ _ h => absurd h List.not_mem_nil⟩

theorem updateOf_eq_self (hg : ev.Guard K db) {key : DeliveryId} (hkey : .deliveryRow key ∉ K)
    (row : PushDelivery) : ev.updateOf key row = row := by
  cases ev with
  | claim id _ _ =>
    have hne : key ≠ id := fun he => hkey (he ▸ hg.1)
    simp [updateOf, hne]
  | complete id _ =>
    have hne : key ≠ id := fun he => hkey (he ▸ hg)
    simp [updateOf, hne]
  | _ => rfl

end NotifyEvent

theorem tokenRow_keeps (hL : .tokenRow id ∈ L) (h : (notifyContract ok).Other L a b) :
    b.1.tokens.get id = a.1.tokens.get id := by
  obtain ⟨-, ev, K, hK, rfl, hg⟩ := other_apply h
  have hkey : .tokenRow id ∉ K := fun hk => hK _ hk hL
  cases hb : (ev.applyDb a.1).tokens.get id with
  | some row =>
    rcases NotifyEvent.tokens_cases hg hb with ⟨hold, -⟩ | ⟨_, _, _, rfl, -⟩
    · exact hb.trans hold.symm
    · exact absurd (RegisterGuard.tokenRow hg) hkey
  | none =>
    cases ha : a.1.tokens.get id with
    | none => exact hb
    | some row =>
      have hno : id ∉ ev.removes a.1 := fun hid =>
        hkey ((NotifyEvent.deletesTokens_removes hg).rows id hid)
      obtain ⟨row', hrow', -⟩ := ev.tokens_step ha hno
      rw [hb] at hrow'
      cases hrow'

theorem delivery_keeps {key : DeliveryId} {row : PushDelivery} (hL : .deliveryRow key ∈ L)
    (h : (notifyContract ok).Other L a b) (ha : a.1.deliveries.get key = some row) :
    b.1.deliveries.get key = some row := by
  obtain ⟨-, ev, K, hK, rfl, hg⟩ := other_apply h
  have hkey : .deliveryRow key ∉ K := fun hk => hK _ hk hL
  have hno : key.tokenId ∉ ev.removes a.1 := fun hid =>
    hkey ((NotifyEvent.deletesTokens_removes hg).deliveries key row ha hid)
  show (ev.applyDb a.1).deliveries.get key = some row
  rw [NotifyEvent.get_deliveries_apply, if_neg hno, ha, Option.map_some, Option.some_or,
    NotifyEvent.updateOf_eq_self hg hkey]

/-- The deliveries of a token, all of them locked. -/
def DeliveriesLocked (L : List NotifyKey) (id : Id) (db : NotifyDatabase) : Prop :=
  ∀ key row, db.deliveries.get key = some row → key.tokenId = id → .deliveryRow key ∈ L

theorem deliveriesLocked_keeps (hL : .tokenRow id ∈ L) (h : (notifyContract ok).Other L a b)
    {L' : List NotifyKey} (ha : DeliveriesLocked L' id a.1) : DeliveriesLocked L' id b.1 := by
  obtain ⟨-, ev, K, hK, rfl, hg⟩ := other_apply h
  rintro key row hrow rfl
  obtain ⟨-, ⟨-, hnew⟩ | ⟨old, hold, -⟩⟩ := ev.deliveries_inv hrow
  · obtain ⟨-, _, _, _, _, _, _, _, rfl, hmem⟩ := NotifyEvent.inserted_eq_some hnew
    exact absurd hL (hK _ (FanOutGuard.tokens hg _ hmem).1)
  · exact ha key old hold rfl

/-- No other row holds the token. -/
def TokenFree (id : Id) (removed : List Id) (row : DevicePushToken) (db : NotifyDatabase) : Prop :=
  ∀ id' other, db.tokens.get id' = some other → id' ≠ id → id' ∉ removed →
    DeviceTokensService.hasToken row.provider row.token other = false

theorem tokenFree_keeps {removed : List Id} {row : DevicePushToken}
    (hL : .tokenIndex row.provider row.token ∈ L) (h : (notifyContract ok).Other L a b)
    (ha : TokenFree id removed row a.1) : TokenFree id removed row b.1 := by
  obtain ⟨-, ev, K, hK, rfl, hg⟩ := other_apply h
  intro id' other hother hne hno
  rcases NotifyEvent.tokens_cases hg hother with ⟨hold, -⟩ |
    ⟨_, new, _, rfl, -, -, hprovider, htoken⟩
  · exact ha id' other hold hne hno
  · -- whoever writes the token holds its index entry
    have hindex := hK _ (RegisterGuard.tokenIndex hg)
    rw [← hprovider, ← htoken] at hindex
    by_contra hhas
    simp only [DeviceTokensService.hasToken, Bool.not_eq_false, Bool.and_eq_true,
      beq_iff_eq] at hhas
    rw [hhas.1, hhas.2] at hindex
    exact hindex hL

/-- The installation has no row. -/
def InstallationFree (row : DevicePushToken) (db : NotifyDatabase) : Prop :=
  ∀ id' other, db.tokens.get id' = some other →
    DeviceTokensService.ofInstallation row.userId row.installationId row.provider other = false

theorem installationFree_keeps {row : DevicePushToken}
    (hL : .installationIndex row.userId row.installationId row.provider ∈ L)
    (h : (notifyContract ok).Other L a b) (ha : InstallationFree row a.1) :
    InstallationFree row b.1 := by
  obtain ⟨-, ev, K, hK, rfl, hg⟩ := other_apply h
  intro id' other hother
  rcases NotifyEvent.tokens_inv hother with ⟨removed, rfl⟩ |
    ⟨old, hold, -, huser, hinstallation, hprovider, -⟩
  · have hindex := hK _ (RegisterGuard.installationIndex hg rfl)
    by_contra hhas
    simp only [DeviceTokensService.ofInstallation, Bool.not_eq_false, Bool.and_eq_true,
      beq_iff_eq] at hhas
    obtain ⟨⟨hu, hi⟩, hp⟩ := hhas
    rw [hu, hi, hp] at hindex
    exact hindex hL
  · have hfree := ha id' old hold
    rw [DeviceTokensService.ofInstallation, huser, hinstallation, hprovider]
    exact hfree

theorem unissued_keeps (hL : .tokenRow id ∈ L) (h : (notifyContract ok).Other L a b)
    (ha : id ∉ a.1.issuedTokenIds) : id ∉ b.1.issuedTokenIds := by
  obtain ⟨-, ev, K, hK, rfl, hg⟩ := other_apply h
  show id ∉ (ev.applyDb a.1).issuedTokenIds
  rw [NotifyEvent.issuedTokenIds_apply, List.mem_append, not_or]
  refine ⟨ha, fun hnew => ?_⟩
  unfold NotifyEvent.issues at hnew
  split at hnew
  · rw [List.mem_singleton] at hnew
    subst hnew
    exact hK _ (RegisterGuard.tokenRow hg) hL
  · cases hnew

theorem outboxRow_keeps (hL : .outboxRow id ∈ L) (h : (notifyContract ok).Other L a b) :
    b.1.outbox.get id = a.1.outbox.get id := by
  obtain ⟨-, ev, K, hK, rfl, hg⟩ := other_apply h
  have hkey : .outboxRow id ∉ K := fun hk => hK _ hk hL
  cases hb : (ev.applyDb a.1).outbox.get id with
  | some event =>
    rcases ev.outbox_inv hb with rfl | ⟨old, hold, -, rfl | ⟨_, _, _, _, _, rfl, -⟩⟩
    · exact absurd hg.1 hkey
    · exact hb.trans hold.symm
    · exact absurd (FanOutGuard.row hg rfl) hkey
  | none =>
    cases ha : a.1.outbox.get id with
    | none => exact hb
    | some event =>
      obtain ⟨event', hevent', -⟩ := ev.outbox_step hg ha
      rw [hb] at hevent'
      cases hevent'

/-! ## What everybody leaves alone -/

/-- The recipients of an event never change. -/
theorem persists_recipients (event : NotificationOutboxEvent) (recipientIds : List Id) :
    Persists (notifyContract ok) fun σ => event.recipientIds σ.1 = recipientIds := by
  rintro K a _ ⟨-, ev, -, rfl, -⟩ h
  exact (ev.recipientIds_apply a.1 rfl).trans h

/-- An event of the outbox stays, with its recipients. -/
def Queued (e : Id) (event : NotificationOutboxEvent) (recipientIds : List Id)
    (σ : NotifyStore) : Prop :=
  ∃ cur, σ.1.outbox.get e = some cur ∧ event.core = cur.core ∧
    recipientIds = cur.recipientIds σ.1

theorem persists_queued (e : Id) (event : NotificationOutboxEvent) (recipientIds : List Id) :
    Persists (notifyContract ok) (Queued e event recipientIds) := by
  rintro K a _ ⟨-, ev, -, rfl, hg⟩ ⟨cur, hcur, hcore, rfl⟩
  obtain ⟨cur', hcur', hcore', -⟩ := ev.outbox_step hg hcur
  exact ⟨cur', hcur', hcore.trans hcore'.symm, (ev.recipientIds_apply a.1 hcore').symm⟩

theorem persists_processed (e : Id) : Persists (notifyContract ok) fun σ =>
    ∃ cur, σ.1.outbox.get e = some cur ∧ cur.processedAt.isSome := by
  rintro K a _ ⟨-, ev, -, rfl, hg⟩ ⟨cur, hcur, hp⟩
  exact ⟨cur, NotifyEvent.processed_step hg hcur hp, hp⟩

theorem persists_issuedTokenId (id : Id) :
    Persists (notifyContract ok) fun σ => id ∈ σ.1.issuedTokenIds := by
  rintro K a _ ⟨-, ev, -, rfl, -⟩ h
  exact ev.issued_step h

/-- A token keeps its owner, and one that is gone does not come back. -/
def OwnedBy (id : Id) (P : Id → Prop) (σ : NotifyStore) : Prop :=
  id ∈ σ.1.issuedTokenIds ∧ ∀ row, σ.1.tokens.get id = some row → P row.userId

theorem persists_ownedBy (id : Id) (P : Id → Prop) :
    Persists (notifyContract ok) (OwnedBy id P) := by
  rintro K a _ ⟨-, ev, -, rfl, hg⟩ ⟨hissued, h⟩
  refine ⟨ev.issued_step hissued, fun row hrow => ?_⟩
  rcases ev.tokens_inv hrow with ⟨removed, rfl⟩ | ⟨old, hold, -, huser, -⟩
  · exact absurd hissued (RegisterGuard.fresh hg rfl).1
  · rw [huser]
    exact h old hold

/-! ## Producers -/

theorem safe_notifyTick (ms : Nat) : Safe (notifyContract ok) (notifyTick ms) :=
  fun _ _ _ _ _ => ⟨⟨rfl, trivial⟩, rfl, rfl⟩

theorem safe_enqueue (producer : Producer) (createdAt : Time) (newId : Id) :
    Safe (notifyContract ok) (enqueue producer createdAt newId) := by
  intro σ
  simp only [enqueue, Prog.bind_eq, wp_bind, wp_insertUnique, view_nil, List.nil_append,
    List.append_nil, Bool.or_eq_false_iff, Bool.not_eq_false']
  rintro σ₁ - - ⟨⟨hnone, hreferences⟩, -⟩ σ₂ hi - -
  have hne : (producer.event createdAt).recipientIds σ₂.1 ≠ [] := by
    have hsame : (producer.event createdAt).recipientIds σ₂.1 =
        (producer.event createdAt).recipientIds σ₁.1 :=
      (persists_recipients _ _).interference hi rfl
    rw [hsame]
    exact Producer.recipientIds_ne_nil hreferences
  have hfree : σ₂.1.outbox.get newId = none := by
    have hL : NotifyKey.outboxRow newId ∈ [NotifyKey.outboxRow newId,
        NotifyKey.outboxKey (producer.event createdAt).deduplicationKey] := List.mem_cons_self ..
    refine interference_keeps (P := fun σ : NotifyStore => σ.1.outbox.get newId = none) ?_ hi ?_
    · intro a b hother ha
      exact (outboxRow_keeps hL hother).trans ha
    · rw [← Option.not_isSome_iff_eq_none, hnone]
      simp
  refine ⟨⟨rfl, List.mem_cons_self .., hfree, ?_, ?_, hne⟩, rfl, rfl⟩
  · cases producer <;> rfl
  · cases producer <;> rfl

/-! ## The outbox -/

namespace BookingOutboxProcessor

theorem findEvent_eq_some {eventId : Id} {db : NotifyDatabase}
    {found : NotificationOutboxEvent × List Id × List Id}
    (h : findEvent eventId db = some found) : db.outbox.get eventId = some found.1 ∧
      found.1.processedAt = none ∧ found.2.1 = found.1.recipientIds db ∧
        found.2.2 = db.tokensOf found.2.1 := by
  obtain ⟨event, hevent, rfl⟩ := Option.map_eq_some_iff.mp h
  rw [Option.filter_eq_some_iff, unprocessed, Option.isNone_iff_eq_none] at hevent
  exact ⟨hevent.1, hevent.2, rfl, rfl⟩

theorem mem_tokensOf {db : NotifyDatabase} {userIds : List Id} {id : Id} :
    id ∈ db.tokensOf userIds ↔ ∃ row, db.tokens.get id = some row ∧ row.userId ∈ userIds := by
  simp [tokensOf, Table.mem_keysWhere]

/-- The tokens of the deliveries, all of them locked. -/
def TokensHeld (L : List NotifyKey) (tokenIds recipientIds : List Id) (db : NotifyDatabase) :
    Prop :=
  ∀ id ∈ tokenIds, .tokenRow id ∈ L ∧
    ∃ row, db.tokens.get id = some row ∧ row.userId ∈ recipientIds

theorem tokensHeld_keeps {tokenIds recipientIds : List Id} {L' : List NotifyKey}
    (hL : ∀ k ∈ L', k ∈ L) (h : (notifyContract ok).Interference L a b)
    (ha : TokensHeld L' tokenIds recipientIds a.1) :
    TokensHeld L tokenIds recipientIds b.1 := by
  intro id hid
  obtain ⟨hkey, row, hrow, huser⟩ := ha id hid
  have hkey := hL _ hkey
  refine ⟨hkey, row, ?_, huser⟩
  refine interference_keeps (P := fun σ : NotifyStore => σ.1.tokens.get id = some row) ?_ h hrow
  intro c d hs hc
  exact (tokenRow_keeps hkey hs).trans hc

theorem ownedBy_of_mem_tokensOf (hinv : NotifyInv a.1) {userIds : List Id}
    (hid : id ∈ a.1.tokensOf userIds) : OwnedBy id (· ∈ userIds) a := by
  obtain ⟨row, hrow, huser⟩ := mem_tokensOf.mp hid
  refine ⟨hinv.issued id row hrow, fun row' hrow' => ?_⟩
  rw [hrow, Option.some.injEq] at hrow'
  exact hrow' ▸ huser

/-- A token that had a recipient as its owner and is still there is among those found later. -/
theorem found_of_began {recipientIds began tokenIds : List Id} {L₁ L₂ : List NotifyKey}
    {σ₁ σ₂ σ₃ : NotifyStore} (hinv : NotifyInv σ₁.1) (hbegan : began = σ₁.1.tokensOf recipientIds)
    (htokens : tokenIds = σ₂.1.tokensOf recipientIds)
    (h₁₂ : (notifyContract ok).Interference L₁ σ₁ σ₂)
    (h₂₃ : (notifyContract ok).Interference L₂ σ₂ σ₃) {id : Id} (hid : id ∈ began) :
    id ∈ σ₃.1.issuedTokenIds ∧ ((σ₃.1.tokens.get id).isSome → id ∈ tokenIds) := by
  subst hbegan htokens
  have howned₂ := (persists_ownedBy id _).interference h₁₂ (ownedBy_of_mem_tokensOf hinv hid)
  refine ⟨((persists_issuedTokenId id).interference h₂₃ howned₂.1), fun hsome => ?_⟩
  cases hget : σ₂.1.tokens.get id with
  | some row' => exact mem_tokensOf.mpr ⟨row', hget, howned₂.2 row' hget⟩
  | none =>
    -- it was gone by then, and does not come back
    have hgone : OwnedBy id (fun _ => False) σ₂ := by
      refine ⟨howned₂.1, fun row' hrow' => ?_⟩
      rw [hget] at hrow'
      cases hrow'
    obtain ⟨row', hrow'⟩ := Option.isSome_iff_exists.mp hsome
    exact (((persists_ownedBy id _).interference h₂₃ hgone).2 row' hrow').elim

/-- The mark is this transaction's, or another has set it before. -/
theorem marks_keeps {eventId : Id} {event : NotificationOutboxEvent} {recipientIds : List Id}
    {L' : List NotifyKey} (hqueued : Queued eventId event recipientIds a) {marks : Bool}
    (hmarks : (a.1.outbox.get eventId).any unprocessed = marks)
    (hL : marks = true → .outboxRow eventId ∈ L')
    (h : (notifyContract ok).Interference L' a b) :
    ∃ cur, b.1.outbox.get eventId = some cur ∧ event.core = cur.core ∧
      recipientIds = cur.recipientIds b.1 ∧ cur.processedAt.isNone = marks := by
  obtain ⟨cur', hcur', hcore', hrecipients'⟩ :=
    (persists_queued eventId event recipientIds).interference h hqueued
  refine ⟨cur', hcur', hcore', hrecipients', ?_⟩
  obtain ⟨cur, hcur, -⟩ := hqueued
  rw [hcur, Option.any_some] at hmarks
  cases marks with
  | true =>
    have hsame : b.1.outbox.get eventId = some cur := by
      refine interference_keeps
        (P := fun σ : NotifyStore => σ.1.outbox.get eventId = some cur) ?_ h hcur
      intro c d hs hc
      exact (outboxRow_keeps (hL rfl) hs).trans hc
    rw [hcur', Option.some.injEq] at hsame
    exact hsame ▸ hmarks
  | false =>
    have hp : cur.processedAt.isSome := by
      cases hp : cur.processedAt with
      | none => simp [unprocessed, hp] at hmarks
      | some _ => rfl
    obtain ⟨cur₂, hcur₂, hp₂⟩ := (persists_processed eventId).interference h ⟨cur, hcur, hp⟩
    rw [hcur', Option.some.injEq] at hcur₂
    rw [hcur₂, ← Option.not_isSome, hp₂]
    rfl

theorem not_isNone_of_any_eq_false {β : Type} {l : List Id} {f : Id → Option β}
    (h : (l.any fun id => (f id).isNone) = false) {id : Id} (hid : id ∈ l) : (f id).isSome := by
  rw [List.any_eq_false] at h
  have hsome := h id hid
  cases hf : f id with
  | none => simp [hf] at hsome
  | some _ => rfl

/-- Without locks others may do more. -/
theorem interference_weaken (h : (notifyContract ok).Interference L a b) :
    (notifyContract ok).Interference [] a b :=
  interference_mono (fun _ hk => absurd hk List.not_mem_nil) h

theorem safe_deliver (eventId : Id) (dbNow : Time) :
    Safe (notifyContract ok) (deliver eventId dbNow) := by
  intro σ
  simp only [deliver, Prog.bind_eq, wp_bind, wp_select, view_nil]
  intro σ₁ _ hinv₁
  cases hfound : findEvent eventId σ₁.1 with
  | none =>
    simp only [wp_bind, wp_commit]
    exact fun σ₂ _ _ _ => ⟨⟨rfl, trivial⟩, rfl, rfl⟩
  | some found =>
    obtain ⟨event, recipientIds, began⟩ := found
    obtain ⟨hevent, -, hrecipients, hbegan⟩ := findEvent_eq_some hfound
    simp only [createDeliveries, notifyClock, wp_bind, wp_lift, wp_write, wp_select,
      wp_insertUnique, wp_call, wp_updateWhere, wp_commit]
    intro _ _ σ₂ h₂ _ σ₃ h₃ hinv₃ σ₄ h₄ _ hthere σ₅ h₅ _ _
    refine ⟨⟨rfl, trivial⟩, fun σ₆ h₆ _ σ₇ h₇ _ _ => ?_⟩
    have hheld₄ : TokensHeld ((σ₃.1.tokensOf recipientIds).map .tokenRow)
        (σ₃.1.tokensOf recipientIds) recipientIds σ₄.1 := by
      intro id hid
      refine ⟨List.mem_map_of_mem hid, ?_⟩
      obtain ⟨row, hrow⟩ := Option.isSome_iff_exists.mp
        (not_isNone_of_any_eq_false hthere hid)
      have howned : OwnedBy id (· ∈ recipientIds) σ₃ := ownedBy_of_mem_tokensOf hinv₃ hid
      exact ⟨row, hrow, ((persists_ownedBy id _).interference h₄ howned).2 row hrow⟩
    have hqueued₁ : Queued eventId event recipientIds σ₁ := ⟨event, hevent, rfl, hrecipients⟩
    have h₃₆ : (notifyContract ok).Interference [] σ₃ σ₆ :=
      interference_trans (interference_weaken h₄)
        (interference_trans (interference_weaken h₅) (interference_weaken h₆))
    have h₁₃ : (notifyContract ok).Interference [] σ₁ σ₃ :=
      interference_trans h₂ (interference_weaken h₃)
    have hqueued₆ := (persists_queued eventId event recipientIds).interference
      (interference_trans h₁₃ h₃₆) hqueued₁
    refine ⟨⟨?_, ⟨marks_keeps hqueued₆ rfl ?_ h₇, ?_, Table.nodup_keysWhere _ _, ?_, ?_⟩⟩, rfl, rfl⟩
    · -- the writes are the step, whoever marks
      split <;> rename_i hmarks <;> simp only [hmarks] <;> rfl
    · intro hmarks
      rw [if_pos hmarks]
      exact List.mem_append_left _ (List.mem_singleton_self _)
    · intro hmarks
      rw [if_pos hmarks]
      exact List.mem_append_left _ (List.mem_singleton_self _)
    · have hheld₅ := tokensHeld_keeps (fun k hk => List.mem_append_left _
        (List.mem_append_left _ hk)) h₅ hheld₄
      have hheld₆ := tokensHeld_keeps (fun k hk => hk) h₆ hheld₅
      exact tokensHeld_keeps (fun k hk => List.mem_append_right _ hk) h₇ hheld₆
    · exact fun id hid => found_of_began hinv₁ hbegan rfl h₁₃
        (interference_trans h₃₆ (interference_weaken h₇)) hid

theorem safe_processPending (dbNow : Time) :
    Safe (notifyContract ok) (processPending dbNow) :=
  Safe.select.bind fun _ => Safe.forEach fun eventId _ =>
    (safe_deliver eventId dbNow).bind fun _ => Safe.ret ()

end BookingOutboxProcessor

/-! ## Device tokens -/

/-- A statement that locks what it finds. -/
private theorem wp_exec {α : Type} {rows : NotifyDatabase → List NotifyKey}
    {f : NotifyDatabase → NotifyDatabase → NotifyDatabase}
    {next : NotifyDatabase → Prog NotifySys α}
    {Q : α → List NotifyKey → List (NotifyDatabase → NotifyDatabase) → NotifyStore → Prop}
    {ω : List (NotifyDatabase → NotifyDatabase)} :
    wp (notifyContract ok) (.exec rows f next) Q L ω σ =
      ∀ σ', (notifyContract ok).Interference L σ σ' → NotifyInv σ'.1 →
        wp (notifyContract ok) (next (view ω σ'.1)) Q (rows (view ω σ'.1) ++ L)
          (ω ++ [f (view ω σ'.1)]) σ' := rfl

theorem tokenRow_mem_tokenLocks (db : NotifyDatabase) (id : Id) :
    .tokenRow id ∈ db.tokenLocks id := List.mem_append_left _ (List.mem_cons_self ..)

theorem deliveriesLocked_tokenLocks (db : NotifyDatabase) (id : Id) :
    DeliveriesLocked (db.tokenLocks id) id db := by
  intro key row hrow hid
  refine List.mem_append_right _ (List.mem_map_of_mem ?_)
  rw [deliveriesOf, Table.mem_keysWhere]
  exact ⟨row, hrow, by simpa using hid⟩

/-- A token whose row and deliveries are locked. -/
structure TokenLocked (L : List NotifyKey) (id : Id) (db : NotifyDatabase) : Prop where
  row : .tokenRow id ∈ L
  deliveries : DeliveriesLocked L id db

theorem tokenLocked_keeps {L' : List NotifyKey} (hL : ∀ k ∈ L', k ∈ L)
    (h : (notifyContract ok).Interference L a b) (ha : TokenLocked L' id a.1) :
    TokenLocked L id b.1 := by
  refine ⟨hL _ ha.row, ?_⟩
  refine interference_keeps (P := fun σ : NotifyStore => DeliveriesLocked L id σ.1) ?_ h ?_
  · exact fun c d hs hc => deliveriesLocked_keeps (hL _ ha.row) hs hc
  · exact fun key row hrow hid => hL _ (ha.deliveries key row hrow hid)

theorem deletesTokens_of_locked {K : List NotifyKey} {db : NotifyDatabase} {ids : List Id}
    (h : ∀ id ∈ ids, TokenLocked K id db) : DeletesTokens K db ids where
  rows id hid := (h id hid).row
  deliveries key row hrow hid := (h _ hid).deliveries key row hrow rfl

/-- The row of a token, under its lock. -/
theorem tokenRow_interference (hL : .tokenRow id ∈ L)
    (h : (notifyContract ok).Interference L a b) : b.1.tokens.get id = a.1.tokens.get id := by
  refine interference_keeps
    (P := fun σ : NotifyStore => σ.1.tokens.get id = a.1.tokens.get id) ?_ h rfl
  exact fun c d hs hc => (tokenRow_keeps hL hs).trans hc

namespace DeviceTokensService

/-- A deletion of one token, with the event of its transaction. -/
theorem safe_deleteWhere {α : Type} (f : Bool → α) {p : DevicePushToken → Bool} {ev : NotifyEvent}
    (hev : ∀ σ : NotifyStore, ev.apply σ = (σ.1.deleteTokenWhere id p, σ.2))
    (hguard : ∀ K db, DeletesTokens K db (db.matching id p) → ev.Guard K db) :
    Safe (notifyContract ok) ((deleteWhere id p).bind fun removed =>
      (commit ev : Prog NotifySys Unit).bind fun _ => .ret (f removed)) := by
  intro σ
  simp only [wp_bind, deleteWhere, wp_exec, wp_ret, wp_commit, view_nil, List.append_nil,
    List.nil_append]
  intro σ₁ _ _ σ₂ h₂ _ _
  have hlocked := tokenLocked_keeps (fun k hk => hk) h₂
    ⟨tokenRow_mem_tokenLocks σ₁.1 id, deliveriesLocked_tokenLocks σ₁.1 id⟩
  refine ⟨⟨(hev σ₂).symm, hguard _ _ (deletesTokens_of_locked fun id' hid' => ?_)⟩, trivial, trivial⟩
  unfold matching at hid'
  split at hid'
  · rw [List.mem_singleton] at hid'
    exact hid' ▸ hlocked
  · cases hid'

theorem safe_remove (userId id : Id) : Safe (notifyContract ok) (remove userId id) := by
  refine safe_deleteWhere (fun removed => removed) ?_ ?_
  · exact fun _ => rfl
  · exact fun _ _ h => h

theorem findToken_eq_some {db : NotifyDatabase} {p : DevicePushToken → Bool} {id : Id}
    (h : db.findToken p = some id) : ∃ row, db.tokens.get id = some row ∧ p row = true := by
  have hmem : id ∈ db.tokens.keysWhere fun _ token => p token := by
    rw [NotifyDatabase.findToken] at h
    exact List.mem_of_mem_head? h
  exact Table.mem_keysWhere.mp hmem

variable {userId : Id} {installationId : String} {dto : RegisterDeviceTokenDto}

theorem of_mem_staleTokens {db : NotifyDatabase} {id : Id}
    (h : id ∈ staleTokens db userId installationId dto) : ∃ row, db.tokens.get id = some row ∧
      ofInstallation userId installationId dto.provider row = false := by
  obtain ⟨row, hrow, hstale⟩ := Table.mem_keysWhere.mp h
  refine ⟨row, hrow, ?_⟩
  simp only [Bool.and_eq_true, Bool.not_eq_true'] at hstale
  rw [ofInstallation, hstale.2, Bool.false_and]

/-- What holds once the stale rows are deleted, and not committed yet. -/
structure StaleDeleted (L : List NotifyKey) (stale : List Id) (snapshot db : NotifyDatabase) :
    Prop where
  locked : ∀ id ∈ stale, TokenLocked L id db
  same : ∀ id ∈ stale, db.tokens.get id = snapshot.tokens.get id

theorem staleDeleted_keeps {L' : List NotifyKey} {stale : List Id} {snapshot : NotifyDatabase}
    (hL : ∀ k ∈ L', k ∈ L) (h : (notifyContract ok).Interference L a b)
    (ha : StaleDeleted L' stale snapshot a.1) : StaleDeleted L stale snapshot b.1 where
  locked id hid := tokenLocked_keeps hL h (ha.locked id hid)
  same id hid := (tokenRow_interference (hL _ (ha.locked id hid).row) h).trans (ha.same id hid)

private theorem wp_deleteStale {snapshot : NotifyDatabase} {stale : List Id}
    {Q : Unit → List NotifyKey → List (NotifyDatabase → NotifyDatabase) → NotifyStore → Prop}
    (hQ : ∀ L σ, StaleDeleted L stale snapshot σ.1 → Q () L [deleteTokens stale] σ) :
    wp (notifyContract ok) (deleteStale snapshot stale) Q [] [] σ := by
  simp only [deleteStale, wp_exec, wp_lift, ensure_eq_ok, view_nil, List.append_nil,
    List.nil_append]
  intro σ₁ _ _ _ hsame
  simp only [List.all_eq_true, beq_iff_eq] at hsame
  refine hQ _ σ₁ ⟨fun id hid => ?_, hsame⟩
  have hmem : ∀ k ∈ σ₁.1.tokenLocks id, k ∈ stale.flatMap σ₁.1.tokenLocks := fun k hk =>
    List.mem_flatMap.mpr ⟨id, hid, hk⟩
  exact ⟨hmem _ (tokenRow_mem_tokenLocks σ₁.1 id), fun key row hrow hkey =>
    hmem _ (deliveriesLocked_tokenLocks σ₁.1 id key row hrow hkey)⟩

/-- The check of the unique index, before the deletion is committed. -/
theorem tokenFree_of_check {db : NotifyDatabase} {stale : List Id} {row : DevicePushToken}
    (h : tokenTaken row id (db.deleteTokens stale) = false) : TokenFree id stale row db := by
  intro id' other hother hne hno
  have hget : (db.deleteTokens stale).tokens.get id' = some other := by
    rw [get_tokens_deleteTokens, if_neg hno, hother]
  have hfree := Table.any_eq_false.mp h id' other hget
  simpa [hne] using hfree

theorem safe_registerOnce (userId : Id) (installationId : String) (dto : RegisterDeviceTokenDto)
    (newId : Id) :
    Safe (notifyContract ok) (registerOnce userId installationId dto newId) := by
  intro σ
  simp only [registerOnce, Prog.bind_eq, wp_bind, wp_select, view_nil, id_eq]
  intro σ₁ _ _
  have hother : ∀ id ∈ staleTokens σ₁.1 userId installationId dto, ∃ row,
      σ₁.1.tokens.get id = some row ∧
        ofInstallation userId installationId dto.provider row = false := fun _ =>
    of_mem_staleTokens
  generalize staleTokens σ₁.1 userId installationId dto = stale at hother ⊢
  refine wp_deleteStale fun L₂ σ₂ hstale₂ => ?_
  cases hfound : σ₁.1.findToken (ofInstallation userId installationId dto.provider) with
  | some tokenId =>
    obtain ⟨old, hold, hown⟩ := findToken_eq_some hfound
    simp only [updateOwn, Prog.bind_eq, wp_bind, wp_exec, wp_lift, wp_commit,
      ensure_eq_ok, beq_iff_eq, Bool.not_eq_true']
    intro σ₃ h₃ _ _ hsame _ hfree σ₄ h₄ _ _
    rw [hold, view_cons, view_nil, get_tokens_deleteTokens] at hsame
    have hno : tokenId ∉ stale := by
      intro hmem
      rw [if_pos hmem] at hsame
      cases hsame
    rw [if_neg hno] at hsame
    have hstale₄ := staleDeleted_keeps (fun k hk => List.mem_append_right _ hk) h₄
      (staleDeleted_keeps (fun k hk => hk) h₃ hstale₂)
    have hindex : NotifyKey.tokenIndex dto.provider dto.token ∈
        NotifyKey.tokenIndex dto.provider dto.token ::
          (view [deleteTokens stale] σ₃.1).tokenLocks tokenId ++ L₂ :=
      List.mem_append_left _ (List.mem_cons_self ..)
    have hkey := List.mem_append_left L₂ (List.mem_cons_of_mem
      (NotifyKey.tokenIndex dto.provider dto.token)
      (tokenRow_mem_tokenLocks (view [deleteTokens stale] σ₃.1) tokenId))
    refine ⟨⟨rfl, ?_⟩, rfl, rfl⟩
    exact {
      deletes := deletesTokens_of_locked hstale₄.locked
      tokenRow := hkey
      tokenIndex := hindex
      installationIndex := fun h => absurd h Bool.false_ne_true
      free := interference_keeps
        (P := fun σ : NotifyStore => TokenFree tokenId stale (dto.row userId installationId) σ.1)
        (fun _ _ hs hc => tokenFree_keeps hindex hs hc) h₄ (tokenFree_of_check hfree)
      fresh := fun h => absurd h Bool.false_ne_true
      own := fun _ => ⟨hno, old, (tokenRow_interference hkey h₄).trans hsame, hown⟩ }
  | none =>
    simp only [insertOwn, Prog.bind_eq, wp_bind, wp_exec, wp_lift, wp_commit,
      ensure_eq_ok, Bool.not_eq_true']
    intro σ₃ h₃ _ _ hnone _ hfree _ hfresh σ₄ h₄ _ _
    have hstale₃ := staleDeleted_keeps (fun k hk => hk) h₃ hstale₂
    have hstale₄ := staleDeleted_keeps (fun k hk => List.mem_append_right _ hk) h₄ hstale₃
    have hinstallation : InstallationFree (dto.row userId installationId) σ₃.1 := by
      intro id' other hget
      by_cases hmem : id' ∈ stale
      · -- a stale row belongs to another installation
        obtain ⟨other', hget', hfree'⟩ := hother id' hmem
        rw [hstale₃.same id' hmem, hget', Option.some.injEq] at hget
        exact hget ▸ hfree'
      · have hview : (view [deleteTokens stale] σ₃.1).tokens.get id' = some other := by
          rw [view_cons, view_nil, get_tokens_deleteTokens, if_neg hmem, hget]
        exact Table.any_eq_false.mp hnone id' other hview
    refine ⟨⟨rfl, ?_⟩, rfl, rfl⟩
    exact {
      deletes := deletesTokens_of_locked hstale₄.locked
      tokenRow := List.mem_cons_self ..
      tokenIndex := List.mem_cons_of_mem _ (List.mem_cons_self ..)
      installationIndex := fun _ =>
        List.mem_cons_of_mem _ (List.mem_cons_of_mem _ (List.mem_cons_self ..))
      free := interference_keeps
        (P := fun σ : NotifyStore => TokenFree newId stale (dto.row userId installationId) σ.1)
        (fun _ _ hs hc => tokenFree_keeps
          (List.mem_cons_of_mem _ (List.mem_cons_self ..)) hs hc) h₄ (tokenFree_of_check hfree)
      fresh := fun _ => ⟨interference_keeps
        (P := fun σ : NotifyStore => newId ∉ σ.1.issuedTokenIds)
        (fun _ _ hs hc => unissued_keeps (List.mem_cons_self ..) hs hc) h₄
        (by simpa [deleteTokens] using hfresh),
        interference_keeps
          (P := fun σ : NotifyStore => InstallationFree (dto.row userId installationId) σ.1)
          (fun _ _ hs hc => installationFree_keeps (List.mem_cons_of_mem _
            (List.mem_cons_of_mem _ (List.mem_cons_self ..))) hs hc) h₄ hinstallation⟩
      own := fun h => absurd h.symm Bool.false_ne_true }

theorem safe_register (isUUID : String → Bool) (userId : Id) (installationId : String)
    (dto : RegisterDeviceTokenDto) (newId : Id) :
    Safe (notifyContract ok) (register isUUID userId installationId dto newId) :=
  (Safe.lift _).bind fun _ => (Safe.lift _).bind fun _ =>
    safe_registerOnce userId installationId dto newId

end DeviceTokensService

/-! ## Pushes -/

namespace PushDeliveryProcessor

theorem safe_complete (id : DeliveryId) (completion : PushCompletion) :
    Safe (notifyContract ok) (complete id completion) := by
  intro σ
  simp only [complete, Prog.bind_eq, wp_bind, wp_write, wp_commit]
  intro σ₁ _ _ σ₂ _ _ _
  exact ⟨⟨rfl, List.mem_append_left _ (List.mem_singleton_self _)⟩, trivial, trivial⟩

/-- The row of a delivery, under its lock. -/
theorem delivery_interference {key : DeliveryId} {row : PushDelivery} (hL : .deliveryRow key ∈ L)
    (h : (notifyContract ok).Interference L a b) (ha : a.1.deliveries.get key = some row) :
    b.1.deliveries.get key = some row := by
  refine interference_keeps
    (P := fun σ : NotifyStore => σ.1.deliveries.get key = some row) ?_ h ha
  exact fun c d hs hc => delivery_keeps hL hs hc

/-- The token of a delivery belongs to a recipient of its event. -/
def Addressed (id : DeliveryId) (token : DevicePushToken) (σ : NotifyStore) : Prop :=
  ∃ event, σ.1.outbox.get id.eventId = some event ∧ token.userId ∈ event.recipientIds σ.1

theorem persists_addressed (id : DeliveryId) (token : DevicePushToken) :
    Persists (notifyContract ok) (Addressed id token) := by
  rintro K a _ ⟨-, ev, -, rfl, hg⟩ ⟨event, hevent, huser⟩
  obtain ⟨event', hevent', hcore, -⟩ := ev.outbox_step hg hevent
  exact ⟨event', hevent', (NotifyEvent.recipientIds_apply ev a.1 hcore).symm ▸ huser⟩

theorem addressed_of_findDelivery {id : DeliveryId} {found : PushDelivery × DevicePushToken}
    (hinv : NotifyInv a.1) (h : findDelivery id a.1 = some found) : Addressed id found.2 a := by
  obtain ⟨delivery, hdelivery, hmap⟩ := Option.bind_eq_some_iff.mp h
  obtain ⟨token, htoken, rfl⟩ := Option.map_eq_some_iff.mp hmap
  obtain ⟨event, token', hevent, -, htoken', huser⟩ := hinv.deliveries id delivery hdelivery
  rw [htoken, Option.some.injEq] at htoken'
  exact ⟨event, hevent, htoken' ▸ huser⟩

theorem safe_deliver (answer : DeliveryId → Option PushDeliveryOutcome) (id : DeliveryId)
    (now : Time) : Safe (notifyContract ok) (deliver answer id now) := by
  intro σ
  simp only [deliver, Prog.bind_eq, wp_bind, wp_updateWhere, view_nil, List.append_nil,
    List.nil_append]
  intro σ₁ _ _
  by_cases hclaim : (σ₁.1.deliveries.get id).any (claimable now) = true
  · simp only [hclaim, if_true, wp_bind, wp_commit, wp_select, view_nil]
    intro σ₂ h₂ _ _
    have hkey : NotifyKey.deliveryRow id ∈ [NotifyKey.deliveryRow id] := List.mem_singleton_self _
    cases hrow : σ₁.1.deliveries.get id with
    | none =>
      rw [hrow] at hclaim
      cases hclaim
    | some row =>
      rw [hrow, Option.any_some] at hclaim
      refine ⟨⟨rfl, hkey, row, delivery_interference hkey h₂ hrow, hclaim⟩, ?_⟩
      intro σ₃ _ hinv₃
      cases hfound : findDelivery id σ₃.1 with
      | none => exact ⟨rfl, rfl⟩
      | some found =>
        obtain ⟨delivery, token⟩ := found
        have haddressed := addressed_of_findDelivery hinv₃ hfound
        simp only [wp_bind, wp_call]
        intro σ₄ h₄ _ _
        refine ⟨⟨rfl, (persists_addressed id token).interference h₄ haddressed⟩, ?_⟩
        intro σ₅ _ _ _
        refine ⟨⟨rfl, trivial⟩, ?_⟩
        have hcomplete : ∀ completion σ, wp (notifyContract ok) ((complete id completion).bind
            fun _ => .ret 1) (fun _ L ω _ => L = [] ∧ ω = []) [] [] σ := fun completion σ =>
          ((safe_complete id completion).bind fun _ => Safe.ret 1) σ
        split
        · exact hcomplete _ _
        · have hdrop : Safe (notifyContract ok) ((DeviceTokensService.deleteWhere id.tokenId
              fun row => row.token == token.token).bind fun _ =>
                (commit (.dropToken id token) : Prog NotifySys Unit).bind fun _ => .ret 1) := by
            refine DeviceTokensService.safe_deleteWhere (fun _ => 1) ?_ ?_
            · exact fun _ => rfl
            · exact fun _ _ h => h
          exact hdrop _
        · exact hcomplete _ _
        · exact hcomplete _ _
  · rw [Bool.not_eq_true] at hclaim
    simp only [hclaim, Bool.false_eq_true, if_false, wp_bind, wp_commit]
    exact fun σ₂ _ _ _ => ⟨⟨rfl, trivial⟩, rfl, rfl⟩

theorem safe_processPending (answer : DeliveryId → Option PushDeliveryOutcome) (now : Time) :
    Safe (notifyContract ok) (processPending answer now) :=
  Safe.select.bind fun _ => Safe.forEach fun id _ =>
    (safe_deliver answer id now).bind fun _ => Safe.ret ()

end PushDeliveryProcessor

/-! ## Calls -/

/-- **Every call keeps to the contract.** -/
theorem keeps_notifyCalls {p : Prog NotifySys Unit} (h : NotifyCalls p) :
    Keeps (notifyContract ok) p := by
  obtain ⟨c, rfl⟩ := h
  cases c with
  | enqueue producer createdAt newId => exact (safe_enqueue producer createdAt newId).keeps
  | processOutbox dbNow => exact (BookingOutboxProcessor.safe_processPending dbNow).keeps
  | register isUUID userId installationId dto newId =>
    exact ((DeviceTokensService.safe_register isUUID userId installationId dto newId).bind
      fun _ => Safe.ret ()).keeps
  | remove userId id =>
    exact ((DeviceTokensService.safe_remove userId id).bind fun _ => Safe.ret ()).keeps
  | processPushes answer now =>
    exact (PushDeliveryProcessor.safe_processPending answer now).keeps
  | tick ms => exact (safe_notifyTick ms).keeps

end Sosedi
