import Sosedi.Notifications.NotifyScripts
import Sosedi.Transactions.Continued

/-!
# A delivered push is not sent again

The stage of a worker is what it does with its delivery.  `leasesKept` are the runs in which no
worker claims a delivery that another one is working on, and no worker dies between the answer
of the provider and its completing write.

Proved here:

* `careful_notifyCalls`: each worker goes through its stages, and fails at none of them;
* `Worked.step`: a delivery that is worked on is being processed, by one worker;
* `Pushed.step`: once delivered, a push stays delivered;
* `push_once`: after the provider has answered that it delivered, nobody sends the push again.
-/

namespace Sosedi

open Transactions NotifyDatabase

/-- What a worker does. -/
inductive PushStage where
  | idle
  | claimed (id : DeliveryId)
  | sent (id : DeliveryId)
  | answered (id : DeliveryId) (outcome : Option PushDeliveryOutcome)
  deriving DecidableEq

namespace PushStage

/-- The delivery that the worker works on. -/
def delivery : PushStage → Option DeliveryId
  | idle => none
  | claimed id | sent id | answered id _ => some id

def act (φ : PushStage) : NotifyEvent → PushStage
  | .claim id _ _ => claimed id
  | .send id _ => sent id
  | .answer id _ outcome => answered id outcome
  | .complete _ _ | .dropToken _ _ => idle
  | _ => φ

/-- The event comes after this stage. -/
def Allows (φ : PushStage) : NotifyEvent → Prop
  | .claim _ _ _ => φ = idle ∨ ∃ id, φ = claimed id
  | .send id _ => φ = claimed id
  | .answer id _ _ => φ = sent id
  | .complete id (.delivered _) => φ = answered id (some .delivered)
  | .complete id (.retry _ _) => ∃ outcome, φ = answered id outcome ∧ outcome ≠ some .delivered
  | .dropToken id _ => φ = answered id (some .invalidToken)
  | _ => True

end PushStage

/-- The stages of the workers. -/
def pushStages : Observer NotifySys PushStage where
  start := .idle
  see φ _ := φ
  act := PushStage.act
  allows := PushStage.Allows

/-! ## The stages of a call -/

section Careful

variable {φ : PushStage}

/-- Between two deliveries. -/
private def Unoccupied (φ : PushStage) : Prop := φ = .idle ∨ ∃ id, φ = .claimed id

private theorem careful_push (answer : DeliveryId → Option PushDeliveryOutcome) (id : DeliveryId)
    (now : Time) {ω : List (NotifyDatabase → NotifyDatabase)} (hφ : Unoccupied φ) :
    (PushDeliveryProcessor.deliver answer id now).Careful pushStages (fun _ φ => φ = .idle)
      (fun _ φ _ => Unoccupied φ) φ ω := by
  simp only [PushDeliveryProcessor.deliver, Prog.bind_eq, careful_bind, careful_updateWhere]
  intro db
  by_cases hclaim : ((view ω db).deliveries.get id).any (PushDeliveryProcessor.claimable now) = true
  · simp only [hclaim, if_true, careful_bind, careful_commit, careful_select]
    refine ⟨hφ, fun db₁ => ?_⟩
    cases PushDeliveryProcessor.findDelivery id (view [] db₁) with
    | none => exact Or.inr ⟨id, rfl⟩
    | some found =>
      simp only [careful_bind, careful_call]
      refine ⟨rfl, fun _ => ⟨rfl, fun _ => ?_⟩⟩
      cases hanswer : answer id with
      | none => exact fun _ => ⟨⟨none, rfl, by simp⟩, Or.inl rfl⟩
      | some outcome =>
        cases outcome with
        | delivered => exact fun _ => ⟨rfl, Or.inl rfl⟩
        | retry => exact fun _ => ⟨⟨_, rfl, by simp⟩, Or.inl rfl⟩
        | invalidToken => exact fun _ => ⟨rfl, Or.inl rfl⟩
  · simp only [hclaim]
    exact ⟨trivial, hφ⟩

private theorem careful_outbox (eventId : Id) (dbNow : Time)
    {ω : List (NotifyDatabase → NotifyDatabase)} (hφ : φ = .idle) :
    (BookingOutboxProcessor.deliver eventId dbNow).Careful pushStages (fun _ φ => φ = .idle)
      (fun _ φ _ => φ = .idle) φ ω := by
  simp only [BookingOutboxProcessor.deliver, Prog.bind_eq, careful_bind, careful_select]
  intro db
  cases BookingOutboxProcessor.findEvent eventId (view ω db) with
  | none => exact ⟨trivial, hφ⟩
  | some found =>
    simp only [BookingOutboxProcessor.createDeliveries, notifyClock, careful_bind,
      careful_write, careful_select, careful_updateWhere, careful_call, careful_commit]
    refine careful_lift (fun _ _ => hφ) fun _ _ _ _ => ?_
    exact careful_insertUnique _ _ _ _ (fun _ _ => hφ) fun _ _ =>
      ⟨trivial, fun _ _ => ⟨trivial, hφ⟩⟩

private theorem careful_register (userId : Id) (installationId : String)
    (dto : DeviceTokensService.RegisterDeviceTokenDto) (newId : Id) (hφ : φ = .idle) :
    (DeviceTokensService.registerOnce userId installationId dto newId).Careful pushStages
      (fun _ φ => φ = .idle) (fun _ _ _ => True) φ [] := by
  simp only [DeviceTokensService.registerOnce, Prog.bind_eq, careful_bind, careful_select]
  intro db db₁
  refine careful_lift (fun _ _ => hφ) fun _ _ => ?_
  cases (id (view [] db)).findToken
      (DeviceTokensService.ofInstallation userId installationId dto.provider) with
  | some tokenId =>
    intro db₂
    simp only [Prog.bind_eq, careful_bind]
    exact careful_lift (fun _ _ => hφ) fun _ _ => careful_lift (fun _ _ => hφ) fun _ _ =>
      ⟨trivial, trivial⟩
  | none =>
    intro db₂
    simp only [Prog.bind_eq, careful_bind]
    exact careful_lift (fun _ _ => hφ) fun _ _ => careful_lift (fun _ _ => hφ) fun _ _ =>
      careful_lift (fun _ _ => hφ) fun _ _ => ⟨trivial, trivial⟩

/-- Every call goes through the stages, and throws at none but the first. -/
theorem careful_notifyCalls (p : Prog NotifySys Unit) (h : NotifyCalls p) :
    p.Careful pushStages (fun _ φ => φ = pushStages.start) (fun _ _ _ => True) pushStages.start
      [] := by
  obtain ⟨c, rfl⟩ := h
  cases c with
  | enqueue producer createdAt newId =>
    simp only [NotifyCall.prog, enqueue, Prog.bind_eq, careful_bind]
    exact careful_insertUnique _ _ _ _ (fun _ _ => rfl) fun _ _ => ⟨trivial, trivial⟩
  | processOutbox dbNow =>
    simp only [NotifyCall.prog, BookingOutboxProcessor.processPending, Prog.bind_eq, careful_bind,
      careful_select]
    intro db
    refine (careful_forEach (I := fun φ _ => φ = .idle) ?_ rfl).mono fun _ _ _ _ => trivial
    rintro eventId - φ ω hφ
    rw [careful_bind]
    exact careful_outbox eventId dbNow hφ
  | register isUUID userId installationId dto newId =>
    simp only [NotifyCall.prog, DeviceTokensService.register, Prog.bind_eq, careful_bind]
    refine careful_lift (fun _ _ => rfl) fun _ _ => careful_lift (fun _ _ => rfl) fun _ _ => ?_
    exact careful_register userId installationId dto newId rfl
  | remove userId id => exact fun _ => ⟨trivial, trivial⟩
  | processPushes answer now =>
    simp only [NotifyCall.prog, PushDeliveryProcessor.processPending, Prog.bind_eq, careful_bind,
      careful_select]
    intro db
    refine (careful_forEach (I := fun φ _ => Unoccupied φ) ?_ (Or.inl rfl)).mono
      fun _ _ _ _ => trivial
    rintro id - φ ω hφ
    rw [careful_bind]
    exact careful_push answer id now hφ
  | tick ms => exact ⟨trivial, fun _ => trivial⟩

end Careful

/-! ## What one event does -/

/-- The delivery of a token that is there is in a state with `P`. -/
def Delivers (db : NotifyDatabase) (key : DeliveryId) (P : PushDelivery → Prop) : Prop :=
  (db.tokens.get key.tokenId).isSome → ∃ row, db.deliveries.get key = some row ∧ P row

namespace NotifyEvent

variable {ev : NotifyEvent} {db : NotifyDatabase} {K : List NotifyKey} {key : DeliveryId}
  {P P' : PushDelivery → Prop}

/-- A delivery goes only with its token, and changes only as the event says. -/
theorem delivers_step (hg : ev.Guard K db) (hissued : key.tokenId ∈ db.issuedTokenIds)
    (h : Delivers db key P) (hP : ∀ row, db.deliveries.get key = some row → P row →
      P' (ev.updateOf key row)) : Delivers (ev.applyDb db) key P' := by
  intro htoken
  obtain ⟨token, hget⟩ := Option.isSome_iff_exists.mp htoken
  rcases ev.tokens_inv hget with ⟨removed, rfl⟩ | ⟨old, hold, hno, -⟩
  · exact absurd hissued (RegisterGuard.fresh hg rfl).1
  · obtain ⟨row, hrow, hp⟩ := h (by rw [hold]; rfl)
    refine ⟨ev.updateOf key row, ?_, hP row hrow hp⟩
    rw [get_deliveries_apply, if_neg hno, hrow, Option.map_some, Option.some_or]

/-- The stage after an event is another one of the same delivery, or the first of a new one. -/
theorem delivery_act {φ : PushStage} (ha : φ.Allows ev) (h : (φ.act ev).delivery = some key) :
    (∃ now processingUntil, ev = .claim key now processingUntil) ∨ φ.delivery = some key := by
  cases ev with
  | claim id now processingUntil =>
    simp only [PushStage.act, PushStage.delivery, Option.some.injEq] at h
    exact Or.inl ⟨now, processingUntil, by rw [h]⟩
  | send id token | answer id token outcome =>
    have hφ : φ = _ := ha
    rw [hφ]
    exact Or.inr h
  | complete id completion | dropToken id token => cases h
  | _ => exact Or.inr h

/-- An event changes no delivery but one that its client claims or has worked on. -/
theorem updateOf_cases {φ : PushStage} (key : DeliveryId) (ha : φ.Allows ev) (row : PushDelivery) :
    ev.updateOf key row = row ∨ (∃ now processingUntil, ev = .claim key now processingUntil) ∨
      ∃ completion, ev = .complete key completion ∧ φ.delivery = some key := by
  cases ev with
  | claim id now processingUntil =>
    by_cases hkey : key = id
    · subst hkey
      exact Or.inr (Or.inl ⟨now, processingUntil, rfl⟩)
    · exact Or.inl (if_neg hkey)
  | complete id completion =>
    by_cases hkey : key = id
    · subst hkey
      refine Or.inr (Or.inr ⟨completion, rfl, ?_⟩)
      cases completion with
      | delivered now =>
        have hφ : φ = _ := ha
        rw [hφ]
        rfl
      | retry nextAttemptAt lastErrorCode =>
        obtain ⟨outcome, rfl, -⟩ := ha
        rfl
    · exact Or.inl (if_neg hkey)
  | _ => exact Or.inl rfl

end NotifyEvent

/-! ## Leases -/

/-- No worker claims a delivery that another one works on, and none dies between the answer and
the completing write. -/
def leasesKept (φ : Nat → PushStage) (s : State NotifySys) : Move NotifySys → Bool
  | .start _ => true
  | .run i =>
    match s.event i with
    | some (.claim id _ _) =>
      (List.range s.threads.length).all fun j => j == i || (φ j).delivery != some id
    | _ => true
  | .crash i =>
    match φ i with
    | .answered _ (some .delivered) => false
    | _ => true

def LeasesKept (φ : Nat → PushStage) (s : State NotifySys) (m : Move NotifySys) : Prop :=
  leasesKept φ s m = true

instance (φ : Nat → PushStage) (s : State NotifySys) (m : Move NotifySys) :
    Decidable (LeasesKept φ s m) := inferInstanceAs (Decidable (leasesKept φ s m = true))

/-- The delivery is being processed, as long as its token is there. -/
structure InWork (db : NotifyDatabase) (key : DeliveryId) : Prop where
  issued : key.tokenId ∈ db.issuedTokenIds
  delivers : Delivers db key (·.status = .processing)

/-- What the workers work on. -/
structure Worked (φ : Nat → PushStage) (db : NotifyDatabase) : Prop where
  alone : ∀ i j key, (φ i).delivery = some key → (φ j).delivery = some key → i = j
  inWork : ∀ i key, (φ i).delivery = some key → InWork db key

/-- The provider has answered that the push was delivered. -/
structure Pushed (key : DeliveryId) (φ : Nat → PushStage) (db : NotifyDatabase) : Prop where
  issued : key.tokenId ∈ db.issuedTokenIds
  stage : ∀ i, (φ i).delivery = some key → φ i = .answered key (some .delivered)
  delivers : Delivers db key fun row => row.status = .delivered ∨
    row.status = .processing ∧ ∃ i, φ i = .answered key (some .delivered)

section Step

open NotifyEvent

variable {φ : Nat → PushStage} {ev : NotifyEvent} {db : NotifyDatabase} {K : List NotifyKey}
  {i : Nat} {key : DeliveryId}

/-- A delivery that is claimed is in the hands of the one who claims it. -/
private def Undisturbed (φ : Nat → PushStage) (i : Nat) (ev : NotifyEvent) : Prop :=
  ∀ key now processingUntil, ev = .claim key now processingUntil →
    ∀ j, j ≠ i → (φ j).delivery ≠ some key

private theorem issued_of_claim (hinv : NotifyInv db) {now processingUntil : Time}
    (hg : (NotifyEvent.claim key now processingUntil).Guard K db) :
    key.tokenId ∈ db.issuedTokenIds := by
  obtain ⟨-, row, hrow, -⟩ := hg
  obtain ⟨-, token, -, -, htoken, -⟩ := hinv.deliveries key row hrow
  exact hinv.issued _ token htoken

theorem Worked.step (h : Worked φ db) (hinv : NotifyInv db) (hg : ev.Guard K db)
    (ha : (φ i).Allows ev) (hl : Undisturbed φ i ev) :
    Worked (Function.update φ i ((φ i).act ev)) (ev.applyDb db) := by
  constructor
  · intro j k key hj hk
    simp only [Function.update_apply] at hj hk
    split at hj <;> split at hk
    · rename_i hji hki
      rw [hji, hki]
    · rename_i hji hki
      rcases delivery_act ha hj with ⟨now, processingUntil, hclaim⟩ | hbefore
      · exact absurd hk (hl key now processingUntil hclaim k hki)
      · exact hji.trans (h.alone i k key hbefore hk)
    · rename_i hji hki
      rcases delivery_act ha hk with ⟨now, processingUntil, hclaim⟩ | hbefore
      · exact absurd hj (hl key now processingUntil hclaim j hji)
      · exact (h.alone j i key hj hbefore).trans hki.symm
    · exact h.alone j k key hj hk
  · intro j key hj
    simp only [Function.update_apply] at hj
    split at hj
    · rename_i hji
      rcases delivery_act ha hj with ⟨now, processingUntil, rfl⟩ | hbefore
      · -- the claim itself
        have hissued := issued_of_claim hinv hg
        obtain ⟨-, row, hrow, -⟩ := hg
        refine ⟨hissued, fun _ => ⟨{ row with
          status := .processing
          processingUntil := some processingUntil }, ?_, rfl⟩⟩
        rw [get_deliveries_apply]
        simp [removes, hrow, updateOf]
      · obtain ⟨hissued, hdelivers⟩ := h.inWork i key hbefore
        refine ⟨ev.issued_step hissued, delivers_step hg hissued hdelivers fun row _ hrow => ?_⟩
        rcases updateOf_cases key ha row with hsame | ⟨now, processingUntil, rfl⟩ |
          ⟨completion, rfl, -⟩
        · rw [hsame]
          exact hrow
        · simp [updateOf]
        · cases hj
    · rename_i hji
      obtain ⟨hissued, hdelivers⟩ := h.inWork j key hj
      refine ⟨ev.issued_step hissued, delivers_step hg hissued hdelivers fun row _ hrow => ?_⟩
      rcases updateOf_cases key ha row with hsame | ⟨now, processingUntil, rfl⟩ |
        ⟨completion, rfl, hbefore⟩
      · rw [hsame]
        exact hrow
      · simp [updateOf]
      · exact absurd (h.alone j i key hj hbefore) hji

/-- A settled delivery is not claimed. -/
private theorem Pushed.not_claimed (h : Pushed key φ db) (hinv : NotifyInv db)
    {now processingUntil : Time} (hg : (NotifyEvent.claim key now processingUntil).Guard K db)
    (ha : (φ i).Allows (.claim key now processingUntil))
    (hl : Undisturbed φ i (.claim key now processingUntil)) : False := by
  obtain ⟨-, row, hrow, hclaimable⟩ := hg
  obtain ⟨-, token, -, -, htoken, -⟩ := hinv.deliveries key row hrow
  obtain ⟨row', hrow', hstatus⟩ := h.delivers (by rw [htoken]; rfl)
  rw [hrow, Option.some.injEq] at hrow'
  subst hrow'
  rcases hstatus with hdelivered | ⟨-, j, hj⟩
  · simp [PushDeliveryProcessor.claimable, hdelivered] at hclaimable
  · by_cases hji : j = i
    · subst hji
      rcases ha with hidle | ⟨id, hclaimed⟩
      · rw [hj] at hidle
        cases hidle
      · rw [hj] at hclaimed
        cases hclaimed
    · exact hl key now processingUntil rfl j hji (by rw [hj]; rfl)

/-- After the answer the worker completes, or turns to nothing else. -/
private theorem act_answered (ha : (PushStage.answered key (some .delivered)).Allows ev) :
    (PushStage.answered key (some .delivered)).act ev = .answered key (some .delivered) ∨
      ∃ now, ev = .complete key (.delivered now) := by
  cases ev with
  | claim id now processingUntil =>
    rcases ha with ha | ⟨_, ha⟩ <;> cases ha
  | send id token | answer id token outcome | dropToken id token => cases ha
  | complete id completion =>
    cases completion with
    | delivered now =>
      cases ha
      exact Or.inr ⟨now, rfl⟩
    | retry nextAttemptAt lastErrorCode =>
      obtain ⟨outcome, houtcome, hne⟩ := ha
      cases houtcome
      exact absurd rfl hne
  | _ => exact Or.inl rfl

theorem Pushed.step (h : Pushed key φ db) (hinv : NotifyInv db) (hg : ev.Guard K db)
    (ha : (φ i).Allows ev) (hl : Undisturbed φ i ev) :
    Pushed key (Function.update φ i ((φ i).act ev)) (ev.applyDb db) := by
  refine ⟨ev.issued_step h.issued, fun j hj => ?_, ?_⟩
  · simp only [Function.update_apply] at hj ⊢
    split at hj
    · rename_i hji
      rw [if_pos hji]
      rcases delivery_act ha hj with ⟨now, processingUntil, rfl⟩ | hbefore
      · exact (h.not_claimed hinv hg ha hl).elim
      · have hstage := h.stage i hbefore
        rw [hstage] at ha hj ⊢
        rcases act_answered ha with hact | ⟨now, rfl⟩
        · exact hact
        · cases hj
    · rename_i hji
      rw [if_neg hji]
      exact h.stage j hj
  · refine delivers_step hg h.issued h.delivers fun row hrow hstatus => ?_
    rcases updateOf_cases key ha row with hsame | ⟨now, processingUntil, rfl⟩ |
      ⟨completion, rfl, hbefore⟩
    · rw [hsame]
      refine hstatus.imp_right fun ⟨hprocessing, j, hj⟩ => ⟨hprocessing, j, ?_⟩
      by_cases hji : j = i
      · subst hji
        rw [Function.update_self]
        rw [hj] at ha ⊢
        rcases act_answered ha with hact | ⟨now, rfl⟩
        · exact hact
        · -- its completion would change the row
          have hdone := congrArg PushDelivery.status hsame
          simp [updateOf, PushDelivery.completeWith, hprocessing, PushCompletion.update] at hdone
      · rw [Function.update_of_ne hji]
        exact hj
    · exact (h.not_claimed hinv hg ha hl).elim
    · rw [h.stage i hbefore] at ha
      rcases act_answered ha with hact | ⟨now, hcomplete⟩
      · cases hact
      · cases hcomplete
        left
        simp only [updateOf, if_true, PushDelivery.completeWith]
        rcases hstatus with hdelivered | ⟨hprocessing, -⟩
        · rw [if_neg (by rw [hdelivered]; decide)]
          exact hdelivered
        · rw [if_pos hprocessing]
          rfl

end Step

/-! ## Runs -/

/-- The runs whose leases are kept. -/
structure PushRuns (s₀ : State NotifySys) (φ : Nat → PushStage) (s : State NotifySys) : Prop where
  threads : s₀.threads = []
  initial : NotifyInitial s₀.store
  watched : Watched pushStages NotifyCalls LeasesKept s₀ φ s

namespace PushRuns

variable {s₀ s₁ s s' : State NotifySys} {φ₁ φ : Nat → PushStage} {i : Nat}
  {P : (Nat → PushStage) → NotifyDatabase → Prop}

theorem notify (h : PushRuns s₀ φ s) : NotifyRuns s₀ s :=
  ⟨h.threads, h.initial, h.watched.reaches⟩

theorem allows (h : PushRuns s₀ φ s) {ev : NotifyEvent} (hev : s.event i = some ev) :
    (φ i).Allows ev := h.watched.allows careful_notifyCalls h.threads hev

private theorem not_idle {key : DeliveryId} : pushStages.start.delivery ≠ some key := by
  intro hnone
  cases hnone

private theorem undisturbed (h : PushRuns s₀ φ s) (hl : LeasesKept φ s (.run i)) {ev : NotifyEvent}
    (hev : s.event i = some ev) : Undisturbed φ i ev := by
  rintro key now processingUntil rfl j hji
  by_cases hj : j < s.threads.length
  · simp only [LeasesKept, leasesKept, hev, List.all_eq_true, List.mem_range, Bool.or_eq_true,
      beq_iff_eq, bne_iff_ne] at hl
    exact (hl j hj).resolve_left hji
  · rw [h.watched.start_of_length_le (Nat.le_of_not_lt hj)]
    exact fun hnone => not_idle hnone

/-- What every event keeps, and every worker that stops before the answer, holds later on. -/
private theorem later
    (hevent : ∀ φ db i ev K, NotifyInv db → ev.Guard K db → (φ i).Allows ev →
      Undisturbed φ i ev → P φ db → P (Function.update φ i ((φ i).act ev)) (ev.applyDb db))
    (hstop : ∀ φ db i, (∀ key, φ i ≠ .answered key (some .delivered)) → P φ db →
      P (Function.update φ i .idle) db)
    (h₁ : PushRuns s₀ φ₁ s₁) (hc : Continued pushStages NotifyCalls LeasesKept φ₁ s₁ φ s)
    (hP : P φ₁ s₁.db) : P φ s.db := by
  refine Continued.keeps (P := fun φ s => P φ s.db) h₁.watched ?_ hP hc
  intro φ s m s' hw hm hl hf hP
  have h : PushRuns s₀ φ s := ⟨h₁.threads, h₁.initial, hw⟩
  cases m with
  | start p =>
    simp only [State.fire, Option.some.injEq] at hf
    subst hf
    have hidle : φ s.threads.length = .idle := hw.start_of_length_le (Nat.le_refl _)
    simp only [Observer.after]
    rw [show pushStages.start = φ s.threads.length from hidle.symm, Function.update_eq_self]
    exact hP
  | crash i =>
    simp only [State.fire, Option.some.injEq] at hf
    subst hf
    refine hstop φ s.db i (fun key hkey => ?_) hP
    simp [LeasesKept, leasesKept, hkey] at hl
  | run i =>
    cases hev : s.event i with
    | none =>
      rw [hw.after_of_event_none careful_notifyCalls (fun _ _ => rfl) h.threads hev]
      have hstore := congrArg Prod.fst (State.store_of_event_none hev hf)
      rw [show s'.db = s.db from hstore]
      exact hP
    | some ev =>
      obtain ⟨hstore, K, hg⟩ := h.notify.guar hev hf
      have hdb : s'.db = ev.applyDb s.db := congrArg Prod.fst hstore
      rw [Observer.after_of_event hev, hdb]
      exact hevent φ s.db i ev K h.notify.inv hg (h.allows hev) (h.undisturbed hl hev) hP

/-- A delivery that is worked on is being processed, by one worker. -/
theorem worked (h : PushRuns s₀ φ s) : Worked φ s.db := by
  refine later (P := Worked) (fun φ db i ev K hinv hg ha hl hP => hP.step hinv hg ha hl)
    (fun φ db i _ hP => ?_) ⟨h.threads, h.initial, .refl⟩ h.watched.from_start ?_
  · have hother : ∀ j key, (Function.update φ i .idle j).delivery = some key →
        (φ j).delivery = some key := by
      intro j key hj
      rw [Function.update_apply] at hj
      split at hj
      · cases hj
      · exact hj
    exact ⟨fun j k key hj hk => hP.alone j k key (hother j key hj) (hother k key hk),
      fun j key hj => hP.inWork j key (hother j key hj)⟩
  · exact ⟨fun _ _ _ hnone => (not_idle hnone).elim, fun _ _ hnone => (not_idle hnone).elim⟩

theorem pushed {key : DeliveryId} (h₁ : PushRuns s₀ φ₁ s₁)
    (hc : Continued pushStages NotifyCalls LeasesKept φ₁ s₁ φ s) (hP : Pushed key φ₁ s₁.db) :
    Pushed key φ s.db := by
  refine later (P := Pushed key) (fun φ db i ev K hinv hg ha hl hP => hP.step hinv hg ha hl)
    (fun φ db i hi hP => ⟨hP.issued, fun j hj => ?_, fun htoken => ?_⟩) h₁ hc hP
  · rw [Function.update_apply] at hj ⊢
    split at hj
    · cases hj
    · rename_i hji
      rw [if_neg hji]
      exact hP.stage j hj
  · obtain ⟨row, hrow, hstatus⟩ := hP.delivers htoken
    refine ⟨row, hrow, hstatus.imp_right fun ⟨hprocessing, j, hj⟩ => ⟨hprocessing, j, ?_⟩⟩
    have hji : j ≠ i := by
      rintro rfl
      exact hi key hj
    rw [Function.update_of_ne hji]
    exact hj

end PushRuns

/-- **A delivered push is not sent again.**  In a run whose leases are kept, once the provider has
answered that it delivered a push, no worker sends it again; its row is delivered, or about to be
by the worker that had the answer, as long as its token is there. -/
theorem push_once {s₀ s₁ s₂ s : State NotifySys} {φ₁ φ : Nat → PushStage} {i : Nat}
    {key : DeliveryId} {token : DevicePushToken} (h : PushRuns s₀ φ₁ s₁)
    (hev : s₁.event i = some (.answer key token (some .delivered)))
    (hf : s₁.fire (.run i) = some s₂)
    (hc : Continued pushStages NotifyCalls LeasesKept (pushStages.after s₁ φ₁ (.run i)) s₂ φ s) :
    (∀ j token', s.event j ≠ some (.send key token')) ∧
      ((s.db.tokens.get key.tokenId).isSome → ∃ row, s.db.deliveries.get key = some row ∧
        (row.status = .delivered ∨
          row.status = .processing ∧ ∃ j, φ j = .answered key (some .delivered))) := by
  have h₂ : PushRuns s₀ (pushStages.after s₁ φ₁ (.run i)) s₂ := by
    refine ⟨h.threads, h.initial, h.watched.step (.run i) (fun _ _ => trivial) ?_ hf⟩
    simp [LeasesKept, leasesKept, hev]
  have hanswered : pushStages.after s₁ φ₁ (.run i) i = .answered key (some .delivered) := by
    rw [Observer.after_of_event hev, Function.update_self]
    rfl
  obtain ⟨hissued, hdelivers⟩ := h₂.worked.inWork i key (by rw [hanswered]; rfl)
  have hpushed : Pushed key (pushStages.after s₁ φ₁ (.run i)) s₂.db := by
    refine ⟨hissued, fun j hj => ?_, fun htoken => ?_⟩
    · rw [h₂.worked.alone j i key hj (by rw [hanswered]; rfl)]
      exact hanswered
    · obtain ⟨row, hrow, hprocessing⟩ := hdelivers htoken
      exact ⟨row, hrow, Or.inr ⟨hprocessing, i, hanswered⟩⟩
  have hlater := h₂.pushed hc hpushed
  refine ⟨fun j token' hsend => ?_, hlater.delivers⟩
  have hclaimed : φ j = .claimed key :=
    PushRuns.allows ⟨h.threads, h.initial, h₂.watched.continued hc⟩ hsend
  have hstage := hlater.stage j (by rw [hclaimed]; rfl)
  rw [hclaimed] at hstage
  cases hstage

namespace NotifyScenario

/-- The moves of a script that keep the leases. -/
def watch (w : (Nat → PushStage) × State NotifySys) (script : List NotifyLine) :
    (Nat → PushStage) × State NotifySys :=
  (script.flatMap NotifyLine.moves).foldl (pushStages.attempt LeasesKept) w

theorem continued_watch (w : (Nat → PushStage) × State NotifySys) (script : List NotifyLine) :
    Continued pushStages NotifyCalls LeasesKept w.1 w.2 (watch w script).1
      (watch w script).2 := by
  refine Continued.attempts (fun p hp => ?_) .refl
  obtain ⟨line, -, hline⟩ := List.mem_flatMap.mp hp
  exact notifyCalls_of_mem_moves hline

/-- A worker has sent the push of the confirmed booking; another one starts when the lease is
over. -/
def pushing : (Nat → PushStage) × State NotifySys :=
  watch (fun _ => .idle, state) (delivered ++ [.call (.processPushes (fun _ => some .delivered) 5),
    .run 3 5, .call (.processPushes (fun _ => some .delivered) 70000)])

/-- The provider has answered, and both workers go on. -/
def pushed : (Nat → PushStage) × State NotifySys :=
  watch (pushStages.after pushing.2 pushing.1 (.run 3), (pushing.2.fire (.run 3)).getD pushing.2)
    [.run 4 1, .run 3 20, .run 4 20]

theorem push_once_delivered :
    (pushed.2.db.deliveries.get ⟨1, 7⟩).map (fun row => (row.status, row.attempts)) =
        some (.delivered, 1) ∧
      ∀ j token', pushed.2.event j ≠ some (.send ⟨1, 7⟩ token') := by
  have hev : pushing.2.event 3 = some (.answer ⟨1, 7⟩ ⟨2, "phone-1", .fcm, .android, "token-1"⟩
      (some .delivered)) := by decide +kernel
  obtain ⟨s₂, hf⟩ := pushing.2.fire_of_event hev
  have hidle : Watched pushStages NotifyCalls LeasesKept state (fun _ => .idle) state := .refl
  have hruns : PushRuns state pushing.1 pushing.2 :=
    ⟨rfl, runs.initial, hidle.continued (continued_watch (fun _ => .idle, state) _)⟩
  have hlater := continued_watch (pushStages.after pushing.2 pushing.1 (.run 3), s₂)
    [.run 4 1, .run 3 20, .run 4 20]
  have honce := push_once hruns hev hf hlater
  have hstart : (pushing.2.fire (.run 3)).getD pushing.2 = s₂ := by rw [hf, Option.getD_some]
  rw [← hstart] at honce
  exact ⟨by decide +kernel, honce.1⟩

/-- Where a lease is outrun, the push is sent again. -/
example : (playNotify state (delivered ++ [.call (.processPushes (fun _ => some .delivered) 5),
    .run 3 6, .call (.processPushes (fun _ => some .delivered) 70000), .run 4 4])).event 4 =
      some (.send ⟨1, 7⟩ ⟨2, "phone-1", .fcm, .android, "token-1"⟩) := by decide +kernel

end NotifyScenario

end Sosedi
