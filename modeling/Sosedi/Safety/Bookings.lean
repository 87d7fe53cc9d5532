import Sosedi.Accounts.Facts
import Sosedi.Deals.Batch
import Sosedi.Safety.Deposits
import Sosedi.Uploads.Facts

/-!
# Booking requests keep to the contract

Proved here: `BookingService.create`, `confirm` and `cancelPending`, the expiry job,
`UsersService.blockUser` and the owner's calendar are safe.
-/

namespace Sosedi

open Transactions

variable {sha256 : Bytes → String} {ok : Event → Store → Prop}

/-! ## Expiry -/

namespace BookingExpiryService

theorem safe_expireOne (id : Id) (now : Time) :
    Safe (contract sha256 ok) (expireOne id now) := by
  intro σ
  simp only [expireOne, Prog.bind_eq, wp_bind, wp_acquire]
  intro σ₁ _ _
  have h₁ : Batch sha256 ok (fun l => l) (fun _ => True) (fun _ x => x) [.booking id] [.booking id]
      [] σ₁ :=
    .start (fun _ _ => trivial) fun _ h => h
  refine h₁.updateWhere (fun σ₂ h₂ hinv hc L ω h => ?_) fun σ₂ h₂ hc L ω h => ?_
  · obtain ⟨d, hd, hexpired⟩ : ∃ d, σ₂.1.deals.get id = some d ∧ expired now d.booking := by
      obtain ⟨booking, hb, hexpired⟩ := (Option.any_eq_true _ _).mp hc
      obtain ⟨d, hd, rfl⟩ := Option.map_eq_some_iff.mp hb
      rw [h₂.writes.now.deals, Table.mapRows_id] at hd
      exact ⟨d, hd, hexpired⟩
    have hp : d.booking.status = .pending := by
      simp only [expired, Bool.and_eq_true, beq_iff_eq] at hexpired
      exact hexpired.1
    have hu : d.Unpaid := hinv.pending id d hd hp
    have h' := (h.assume (R := fun σ => σ.1.deals.get id = some d) hd fun a b hs _ ha =>
      Other.frozen hu (Or.inl ⟨hp, h.locks _ (List.mem_cons_self ..)⟩) hs ha).weaken
        (fun _ => And.right) fun _ h => h
    simp only [if_true, wp_bind]
    refine h'.cancelDeposit (c := id) (fun σ hσ => ⟨d, hσ, hu, Or.inl (by simp)⟩) (by simp)
      fun _ L ω σ h => ?_
    refine h.onDeal fun L ω σ h => ?_
    refine h.onDeal fun L ω σ h => ?_
    refine h.createOutbox fun L ω σ h => ?_
    refine h.commit trivial rfl ?_ (fun _ _ _ hp => hp) (fun _ _ => trivial) fun _ => ⟨rfl, rfl⟩
    intro σ hσ c x hx
    by_cases hk : c = id
    · subst hk
      rw [hσ, Option.some.injEq] at hx
      subst hx
      refine ⟨by simp [Event.move, DealMove.apply, Action.apply], ?_, ?_⟩
      · simpa [Event.move, DealMove.guard, Action.guard] using hexpired
      · simp [Event.move, DealMove.keys, Action.writesBooking, Action.operationId]
    · simp [Event.move, hk, Over, DealMove.apply, DealMove.guard, DealMove.keys]
  · simp only [Bool.false_eq_true, if_false, wp_bind]
    exact h.commit_noop fun _ => ⟨rfl, rfl⟩

theorem safe_expirePending (now : Time) : Safe (contract sha256 ok) (expirePending now) :=
  Safe.select.bind fun _ => Safe.forEach fun _ _ => (safe_expireOne _ now).bind fun _ => Safe.ret _

end BookingExpiryService

/-! ## Cancellation -/

namespace BookingService

variable {k : Id} {d : Deal} {ks L : List LockKey} {ω : List (Database → Database)} {σ : Store}
  {Q : Unit → List LockKey → List (Database → Database) → Store → Prop}

/-- What a cancellation does to the deposit that it read. -/
def releaseDeposit (depositRead : Option BookingDeposit) (refundId : Id) (dbNow : Time)
    (d : Deal) : Deal :=
  d.onlyIf (depositRead.any (·.status == .pending)) (Deal.setDepositStatus .cancelled)
    |> Action.preHandoverRefund depositRead refundId dbNow

private theorem batch_cancelDeposit {P : Store → Prop} {F : Id → Deal → Deal}
    (h : Batch sha256 ok id P F ks L ω σ) {refundId : Id} {dbNow : Time}
    {depositRead : Option BookingDeposit}
    (hheld : ∀ dep, depositRead = some dep → dep.status ≠ .held)
    (hQ : ∀ L ω σ, Batch sha256 ok id P
      (fun c x => Over [k] (releaseDeposit depositRead refundId dbNow) c (F c x)) ks L ω σ →
        Q () L ω σ) :
    wp (contract sha256 ok) (cancelDeposit k refundId dbNow depositRead) Q L ω σ := by
  have hrefund : ∀ x, Action.preHandoverRefund depositRead refundId dbNow x = x := by
    intro x
    cases depositRead with
    | none => rfl
    | some dep => simp only [Action.preHandoverRefund, beq_false_of_ne (hheld dep rfl),
        Deal.onlyIf_false]
  simp only [cancelDeposit, Prog.bind_eq, wp_bind, wp_when]
  cases depositRead with
  | none =>
    refine ⟨fun hp => by simp at hp, fun _ => hQ _ _ _ (h.congr fun _ _ c x _ => ?_)⟩
    simp [releaseDeposit, hrefund, Over]
  | some dep =>
    have hne : (dep.status == .held) = false := by simpa using hheld dep rfl
    simp only [hne, when, Bool.false_eq_true, if_false, wp_ret]
    refine ⟨fun hp => h.onDeal fun L ω σ h => hQ _ _ _ ?_, fun hp => hQ _ _ _ ?_⟩
    · refine (h.weaken (fun _ => id) fun key hkey => List.mem_append_right _ hkey).congr ?_
      intro _ _ c x _
      have hrelease : releaseDeposit (some dep) refundId dbNow = Deal.setDepositStatus .cancelled :=
        funext fun y => by simp only [releaseDeposit, hrefund, hp, Deal.onlyIf_true]
      rw [hrelease]
    · refine h.congr fun _ _ c x _ => ?_
      simp [releaseDeposit, hrefund, hp, Over]

private theorem local_cancelDeposit {g : Deal → Deal} (h : Local k d g ks L ω σ) {refundId : Id}
    {dbNow : Time} {depositRead : Option BookingDeposit}
    (hQ : (∀ dep, depositRead = some dep → dep.status = .held →
        Action.Fresh (g d) refundId .preHandoverRefund) → ∀ L ω σ,
      Local k d (fun x => releaseDeposit depositRead refundId dbNow (g x)) ks L ω σ → Q () L ω σ) :
    wp (contract sha256 ok) (cancelDeposit k refundId dbNow depositRead) Q L ω σ := by
  simp only [cancelDeposit, Prog.bind_eq, wp_bind, wp_when]
  cases depositRead with
  | none =>
    refine ⟨fun hp => by simp at hp, fun _ => hQ (by simp) L ω σ h⟩
  | some dep =>
    refine ⟨fun hp => ?_, fun hp => ?_⟩
    · have hs : dep.status = .pending := by simpa using hp
      refine h.onDeal (Deal.blind_setDepositStatus .cancelled) fun L ω σ h => ?_
      simp only [hs, when, reduceCtorEq, beq_iff_eq, if_false, wp_ret]
      refine hQ (by simp [hs]) L ω σ ((h.congr ?_).drop fun key hkey =>
        List.mem_append_right _ hkey)
      intro x _
      simp only [releaseDeposit, hp, Action.preHandoverRefund, hs]
      rfl
    · simp only [wp_when, wp_bind]
      refine ⟨fun hheld => ?_, fun hheld => ?_⟩
      · refine h.onDeal (Deal.blind_setDepositStatus .resolving) fun L ω σ h => ?_
        refine h.createOperation fun hfresh L ω σ h => ?_
        refine hQ (fun _ _ _ => ⟨hfresh.id, hfresh.key⟩) L ω σ ((h.congr ?_).drop
          fun key hkey => List.mem_append_right _ hkey)
        intro x _
        simp only [releaseDeposit, hp, Action.preHandoverRefund, hheld, Deal.onlyIf_false,
          Deal.onlyIf_true]
      · refine hQ (fun dep' hdep hs => ?_) L ω σ (h.congr ?_)
        · cases hdep
          simp [hs] at hheld
        · intro x _
          simp only [releaseDeposit, hp, Action.preHandoverRefund, hheld, Deal.onlyIf_false]

theorem safe_cancelPending (env : Env) (actorId bookingId : Id) (now dbNow : Time)
    (refundId : Id) :
    Safe (contract sha256 ok) (cancelPending env actorId bookingId now dbNow refundId) := by
  intro σ
  simp only [cancelPending, Prog.bind_eq, wp_bind, wp_acquire, wp_select, wp_lift, required_eq_ok,
    view_nil]
  intro σ₁ _ _ σ₂ _ hinv booking hb σ₃ hi₃ _
  have hL : .booking bookingId ∈ [LockKey.booking bookingId] := List.mem_singleton_self _
  rw [Option.filter_eq_some_iff] at hb
  obtain ⟨hb, hpart⟩ := hb
  obtain ⟨d, hd, rfl⟩ := Option.map_eq_some_iff.mp hb
  have hreason : (if (d.booking.borrowerId == actorId) = true then
      CancellationReason.borrowerCancelled else .lenderDeclined) =
        cancellationReasonOf (d.booking.borrowerId == actorId) := rfl
  rw [hreason]
  generalize hisBorrower : (d.booking.borrowerId == actorId) = isBorrower
  by_cases hrepeat : (d.booking.status == .cancelled &&
      d.booking.cancellationReason == some (cancellationReasonOf isBorrower)) = true
  · rw [if_pos hrepeat, wp_bind]
    exact wp_commit_noop (fun _ _ => rfl) fun _ => ⟨rfl, rfl⟩
  · rw [if_neg hrepeat]
    simp only [wp_bind, wp_lift, ensure_eq_ok]
    intro fake hfake _ hmay _ hdeposit
    by_cases hp : d.booking.status = .pending
    · have hu : d.Unpaid := hinv.pending bookingId d hd hp
      obtain ⟨d₃, hd₃, hsince⟩ : Asked bookingId d σ₃ :=
        interference_keeps (fun _ _ => Other.asked (Or.inl hL)) hi₃ ⟨d, hd, Deal.Since.refl hu⟩
      have hu₃ := hsince.unpaid
      have hdeposit₃ : σ₃.1.deposit bookingId = d₃.deposit := by
        rw [Database.deposit, hd₃]
        rfl
      have hheld : ∀ dep, d₃.deposit = some dep → dep.status ≠ .held := by
        intro dep hdep hs
        rcases hu₃.deposit dep hdep with h | h <;> simp [hs] at h
      rw [hdeposit₃, hp]
      have h : Batch sha256 ok id (Asked bookingId d₃) (fun _ x => x) [.booking bookingId]
          [.booking bookingId] [] σ₃ :=
        .start (.of_keeps ⟨d₃, hd₃, Deal.Since.refl hu₃⟩ fun _ _ => Other.asked (Or.inl hL))
          fun _ => id
      refine h.onDeal fun L ω σ h => ?_
      refine batch_cancelDeposit h hheld fun L ω σ h => ?_
      refine h.onDeal fun L ω σ h => ?_
      refine h.onDeal fun L ω σ h => ?_
      refine h.createOutbox fun L ω σ h => ?_
      refine h.commit trivial rfl ?_ (fun _ _ _ hp => hp) (fun _ _ => trivial) fun _ => ⟨rfl, rfl⟩
      rintro σ ⟨x, hx, hs⟩ c y hy
      by_cases hk : c = bookingId
      · subst hk
        rw [hx, Option.some.injEq] at hy
        subst hy
        have hterms := hs.terms.trans hsince.terms
        refine ⟨by simp [Event.move, DealMove.apply, Action.apply, releaseDeposit], ?_, ?_⟩
        · simp only [Event.move, if_true]
          refine ⟨?_, ?_, Or.inl ⟨rfl, hs.unpaid, hheld, hs.deposit⟩⟩
          · rw [hasParticipant_of_terms hterms]
            exact hpart
          · rw [borrowerId_of_terms hterms, hisBorrower]
        · simp [Event.move, DealMove.keys, Action.writesBooking, Action.operationId]
      · simp [Event.move, hk, Over, DealMove.apply, DealMove.guard, DealMove.keys]
    · have hfake' : fake = true := by
        simpa [Database.unexpiredPending, hp] using hmay
      subst hfake'
      obtain ⟨hconfirmed, hscenario⟩ : d.booking.status = .confirmed ∧
          d.booking.boundSnapshot.any (·.paymentScenario == .fakeSafeDeal) := by
        by_contra hno
        rw [isConfirmedFake, if_neg hno] at hfake
        cases hfake
      obtain ⟨snapshot, hsnapshot, hfakeTerms⟩ := (Option.any_eq_true _ _).mp hscenario
      have h₂ : Local bookingId d id [] [.booking bookingId] [] σ₂ :=
        Local.start hL hd fun hu => hu.status_ne.1 hconfirmed
      have h₃ := h₂.interference hi₃
      rw [show σ₃.1.deposit bookingId = d.deposit from h₃.deposit] at hdeposit ⊢
      refine h₃.onDeal (Deal.blind_cancelBooking _) fun L ω σ h => ?_
      refine local_cancelDeposit h fun hfresh L ω σ h => ?_
      refine h.onDeal (Deal.blind_addMessage _) fun L ω σ h => ?_
      refine h.onDeal (Deal.blind_addTransition _) fun L ω σ h => ?_
      refine h.createOutbox fun L ω σ h => ?_
      refine h.commit (fun x _ => rfl) ?_ (by simp [Local.rowsOf, Action.writesBooking,
        Action.operationId]) fun _ => ⟨rfl, rfl⟩
      intro x σ' _ _ hx
      have hbooking := Deal.booking_of_forget hx
      refine ⟨?_, ?_, Or.inr ⟨hconfirmed, ?_, ⟨snapshot, ?_⟩, ?_, ?_⟩⟩
      · rw [hbooking]
        exact hpart
      · rw [hbooking, hisBorrower]
      · rw [hbooking]
        exact hconfirmed
      · rw [Action.FakeTerms, hbooking]
        exact ⟨hsnapshot, by simpa using hfakeTerms⟩
      · exact Deal.deposit_of_forget hx
      · intro dep hdep
        have hs : dep.status = .pending ∨ dep.status = .held := by
          simpa [hdep, or_iff_not_imp_left] using hdeposit
        refine hs.imp_right fun hs => ⟨hs, ?_⟩
        exact Action.Fresh.congr hx.symm
          (show Action.Fresh d _ _ from ⟨(hfresh dep hdep hs).id, (hfresh dep hdep hs).key⟩)

end BookingService

/-! ## Creation -/

namespace BookingService

/-- A client that has inserted the request `k` with the rows of `d`. -/
structure Inserting (booking : Booking) (k : Id) (d : Deal) (L : List LockKey)
    (ω : List (Database → Database)) (σ : Store) : Prop where
  request : RequestGuard L σ booking
  lock : .bookingRow k ∈ L
  absent : σ.1.deals.get k = none
  deals : ∀ db, db.deals.get k = none → (view ω db).deals = db.deals.insert k d
  frame : ∀ db, (view ω db).periods = db.periods ∧ (view ω db).uploads = db.uploads ∧
    SameAccounts db (view ω db)

namespace Inserting

variable {booking : Booking} {k : Id} {d : Deal} {L : List LockKey}
  {ω : List (Database → Database)} {σ σ' : Store} {f : Deal → Deal}
  {Q : Unit → List LockKey → List (Database → Database) → Store → Prop}

theorem interference (h : Inserting booking k d L ω σ)
    (hi : (contract sha256 ok).Interference L σ σ') : Inserting booking k d L ω σ' :=
  { h with
    request := interference_keeps (fun _ _ => Other.requestGuard) hi h.request
    absent := interference_keeps (fun _ _ => Other.absent h.lock) hi h.absent }

theorem push (h : Inserting booking k d L ω σ) (rows : List LockKey) (f : Deal → Deal) :
    Inserting booking k (f d) (rows ++ L) (ω ++ [Database.modifyDeal k f]) σ where
  request := h.request.mono fun _ hk => List.mem_append_right _ hk
  lock := List.mem_append_right _ h.lock
  absent := h.absent
  deals := by
    intro db hdb
    rw [view_append, view_cons, view_nil]
    show (view ω db).deals.modify k f = _
    rw [h.deals db hdb, Table.modify_insert _ _ hdb]
  frame := by
    intro db
    rw [view_append, view_cons, view_nil]
    obtain ⟨hperiods, huploads, hsame⟩ := h.frame db
    exact ⟨hperiods, huploads, hsame.trans ⟨rfl, rfl, rfl⟩⟩

theorem onDeal (h : Inserting booking k d L ω σ) {rows : List LockKey}
    (hQ : ∀ L ω σ, Inserting booking k (f d) L ω σ → Q () L ω σ) :
    wp (contract sha256 ok) (Sosedi.onDeal rows k f) Q L ω σ :=
  fun _ hi _ => hQ _ _ _ ((h.interference hi).push rows f)

theorem createOutbox (h : Inserting booking k d L ω σ) {eventType : BookingEventType}
    (hQ : ∀ L ω σ, Inserting booking k (d.addOutbox eventType) L ω σ → Q () L ω σ) :
    wp (contract sha256 ok) (Sosedi.createOutbox k eventType) Q L ω σ := by
  rw [Sosedi.createOutbox, wp_insertUnique]
  intro σ' hi _ _
  exact hQ _ _ _ ((h.interference hi).push _ (Deal.addOutbox eventType))

end Inserting

private theorem owner_active {db : Database} {itemId : Id} {bookable : BookableItem}
    (h : db.bookableItem itemId = some bookable) : bookable.owner.active = true := by
  simp only [Database.bookableItem, Option.bind_eq_some_iff, Option.map_eq_some_iff,
    Option.filter_eq_some_iff, Bool.and_eq_true] at h
  obtain ⟨item, -, owner, ⟨-, -, hactive⟩, rfl⟩ := h
  exact hactive

private theorem wp_insertDraft {k : Id} {draft : BookingDraft} {L : List LockKey} {σ : Store}
    {Q : Unit → List LockKey → List (Database → Database) → Store → Prop}
    (hr : RequestGuard L σ draft.booking)
    (hQ : ∀ L ω σ, Inserting draft.booking k draft.deal L ω σ → Q () L ω σ) :
    wp (contract sha256 ok) (insertDraft k draft) Q L [] σ := by
  simp only [insertDraft, Prog.bind_eq, wp_bind, wp_insertUnique, view_nil]
  intro σ₁ hi₁ _ htaken
  have hr₁ := interference_keeps (fun _ _ => Other.requestGuard) hi₁ hr
  have h₁ : Inserting draft.booking k (Deal.ofBooking draft.booking)
      ([.bookingRow k, .clientRequest draft.booking.borrowerId draft.booking.clientRequestId] ++ L)
      ([] ++ [Database.insertDeal k (Deal.ofBooking draft.booking)]) σ₁ := by
    refine ⟨hr₁.mono fun _ hk => List.mem_append_right _ hk, by simp, ?_, fun db _ => rfl, fun db => ⟨rfl, rfl, ⟨rfl, rfl, rfl⟩⟩⟩
    rw [Bool.or_eq_false_iff] at htaken
    simpa [Database.booking] using htaken.1
  have hrest : ∀ L ω σ, Inserting draft.booking k { Deal.ofBooking draft.booking with deposit := draft.deposit }
      L ω σ → wp (contract sha256 ok)
        (onDeal [] k (Deal.addMessage "Заявка отправлена. Владелец ответит в течение 12 часов."))
        (fun _ => wp (contract sha256 ok) (onDeal [] k (Deal.addTransition
            ⟨some draft.booking.borrowerId, .borrower, .create, none, .pending, none⟩))
          (fun _ => wp (contract sha256 ok) (createOutbox k .created) Q)) L ω σ := by
    intro L ω σ h
    refine h.onDeal fun L ω σ h => ?_
    refine h.onDeal fun L ω σ h => ?_
    exact h.createOutbox hQ
  rw [wp_when]
  refine ⟨fun _ => h₁.onDeal fun L ω σ h => hrest L ω σ h, fun hnone => hrest _ _ _ ?_⟩
  have heq : draft.deposit = none := by simpa using hnone
  rw [heq]
  exact h₁

/-- What a draft takes from its request. -/
private theorem draftBooking_terms {policy : MarketplacePolicy} {terms : MarketplaceTerms}
    {borrowerId itemId : Id} {item : Item} {name : Option String} {period : BookingPeriod}
    {requestId hash : String} {now dbNow : Time} {draft : BookingDraft}
    (h : draftBooking policy terms borrowerId itemId item name period requestId hash now dbNow =
      .ok draft) : draft.booking.borrowerId = borrowerId ∧ draft.booking.itemId = itemId ∧
      draft.booking.clientRequestId = requestId ∧ draft.booking.startDate = period.startDate ∧
      draft.booking.endDate = period.endDate ∧
      draft.booking.expiresAt = some (now + bookingPendingTtlMs) := by
  simp only [draftBooking, bind_eq_ok] at h
  obtain ⟨price, -, moneyMinor, -, h⟩ := h
  cases h
  exact ⟨rfl, rfl, rfl, rfl, rfl, rfl⟩

theorem safe_create (env : Env) (borrowerId : Id) (dto : CreateBookingDto)
    (requestId clientRequestHash : String) (today now dbNow : Time) (newId : Id) :
    Safe (contract sha256 ok) (create env borrowerId dto requestId clientRequestHash today now
      dbNow newId) := by
  intro σ
  simp only [create, Prog.bind_eq, wp_bind, wp_acquire, wp_select, wp_lift]
  intro terms _ _ _ period _ σ₁ _ _ σ₂ _ _
  cases hrepeated : (view [] σ₂.1).bookingByRequest borrowerId requestId with
  | some row =>
    simp only [wp_bind, wp_lift]
    intro _ _
    exact wp_commit_noop (fun _ _ => rfl) fun _ => ⟨rfl, rfl⟩
  | none =>
    simp only [checkBorrower, checkItem, Prog.bind_eq, wp_bind, wp_acquire, wp_select, wp_lift,
      Prog.pure_eq, wp_ret]
    intro σ₃ hi₃ _ _ hactive σ₄ hi₄ _ σ₅ hi₅ _ bookable hbookable _ _ _ _ _ _ σ₆ hi₆ _ _ _
      σ₇ hi₇ _ _ _ σ₈ hi₈ _ _ _ σ₉ hi₉ _ _ hcompeting draft hdraft
    obtain ⟨hborrower, hitem, hrequest, hstart, hend, hexpires⟩ := draftBooking_terms hdraft
    rw [ensure_eq_ok, decide_eq_true_eq] at hactive hcompeting
    have hafter : ∀ {P : Store → Prop}, (∀ L a b, .user borrowerId ∈ L →
        (contract sha256 ok).Other L a b → P a → P b) → P σ₃ → P σ₉ := by
      intro P hP h₃
      have h₄ := interference_keeps (fun a b => hP _ a b (by simp)) hi₄ h₃
      have h₅ := interference_keeps (fun a b => hP _ a b (by simp)) hi₅ h₄
      have h₆ := interference_keeps (fun a b => hP _ a b (by simp)) hi₆ h₅
      have h₇ := interference_keeps (fun a b => hP _ a b (by simp)) hi₇ h₆
      have h₈ := interference_keeps (fun a b => hP _ a b (by simp)) hi₈ h₇
      exact interference_keeps (fun a b => hP _ a b (by simp)) hi₉ h₈
    have hguard : RequestGuard [.item dto.itemId, .user borrowerId] σ₉ draft.booking := by
      refine ⟨by simp [hborrower], by simp [hitem], ?_, now, hexpires, ?_, ?_⟩
      · rw [hborrower, hrequest]
        refine hafter (fun L a b hL => Other.bookingByRequest hL) ?_
        exact interference_keeps (fun a b => Other.bookingByRequest (by simp)) hi₃ hrepeated
      · rw [hborrower]
        refine hafter (P := fun σ => σ.1.countActivePending borrowerId now <
          bookingMaxActivePending) (fun L a b hL h hlt => ?_) hactive
        exact Nat.lt_of_le_of_lt (Other.countActivePending hL h) hlt
      · rw [hitem, hstart, hend]
        exact hcompeting
    refine wp_insertDraft hguard fun L ω σ h => ?_
    intro σ' hi _ _
    have h' := h.interference hi
    obtain ⟨hperiods, huploads, hsame⟩ := h'.frame σ'.1
    refine ⟨⟨⟨h'.lock, h'.absent, ?_, h'.request, h'.deals _ h'.absent⟩, hperiods, trivial,
      ⟨huploads, rfl, trivial, by simp [Event.uploadKeys, Event.consumed, Event.rowKeys]⟩,
      ⟨hsame.users, hsame.items, hsame.blocks, ?_⟩⟩, rfl, rfl⟩
    · exact ⟨_, _, _, _, _, _, _, _, _, _, hdraft, rfl⟩
    · exact owner_active (required_eq_ok.mp hbookable)

end BookingService

/-! ## Confirmation -/

namespace BookingService

/-- What a confirmation knows until it commits: its own request as it found it, the range of
the item free, and the competitors still without payment. -/
structure Confirming (k : Id) (d : Deal) (competitors : List Id) (σ : Store) : Prop where
  found : σ.1.deals.get k = some d
  calendar : σ.1.calendarConflict d.booking.itemId d.booking.startDate d.booking.endDate = false
  reserved : σ.1.reservedConflict (some k) d.booking.itemId d.booking.startDate
    d.booking.endDate = false
  requested : ∀ c ∈ competitors, Requested [.item d.booking.itemId] c σ

private theorem itemId_of_requested {itemId c : Id} {x : Deal} {σ : Store}
    (h : Requested [.item itemId] c σ) (hx : σ.1.deals.get c = some x) :
    x.booking.itemId = itemId := by
  obtain ⟨x', hx', -, hitem⟩ := h
  rw [hx', Option.some.injEq] at hx
  subst hx
  simpa using hitem

private theorem wp_confirmStatements {k lenderId : Id} {d : Deal} {competitors : List Id}
    {σ : Store} (hp : d.booking.status = .pending) (hu : d.Unpaid)
    (hlender : d.booking.lenderId = lenderId) (hk : k ∉ competitors) (hn : competitors.Nodup)
    (h : Batch sha256 ok id (Confirming k d competitors) (fun _ x => x)
      [.item d.booking.itemId, .booking k] [.item d.booking.itemId, .booking k] [] σ) :
    wp (contract sha256 ok) (do
      onDeal [.bookingRow k] k (Deal.updateBooking
        ({ · with status := .confirmed, cancellationReason := none, expiresAt := none }))
      cancelCompetitors competitors
      write [] fun db =>
        (db.modifyDeal k (Deal.addMessage "Владелец подтвердил заявку.")).modifyDeals
          competitors (Deal.addMessage "Владелец подтвердил другую заявку на эти даты.")
      write [] fun db =>
        (db.modifyDeal k (Deal.addTransition (confirmTransition lenderId))).modifyDeals
          competitors (Deal.addTransition (competingTransition lenderId))
      createOutboxMissing k .confirmed
      forEach competitors fun id => createOutboxMissing id .competingCancelled
      commit (.confirm k lenderId competitors)) (fun _ L ω _ => L = [] ∧ ω = [])
      [.item d.booking.itemId, .booking k] [] σ := by
  simp only [cancelCompetitors, Prog.bind_eq, wp_bind]
  have hne : ∀ c ∈ competitors, c ≠ k := fun c hc hck => hk (hck ▸ hc)
  refine h.onDeal fun L ω σ h => ?_
  have hP : ∀ ks : List LockKey, .item d.booking.itemId ∈ ks → ∀ σ, Confirming k d competitors σ →
      ∀ c ∈ competitors, Requested ks c σ := by
    intro ks hks σ hσ c hc
    refine (hσ.requested c hc).mono fun key hkey => ?_
    rw [List.mem_singleton] at hkey
    exact hkey ▸ hks
  refine h.cancelRequests hn (hP _ (by simp))
    (fun c hc x => by simp [Over, hne c hc]) fun ks hks L ω σ h => ?_
  have hitem : .item d.booking.itemId ∈ ks := hks _ (by simp)
  have hbooking : .booking k ∈ ks := hks _ (by simp)
  refine h.forEach Deal.cancelPendingDeposit hn (fun c hc F hF L ω σ h => ?_) fun L ω σ h => ?_
  · simp only [wp_bind]
    refine h.cancelDeposit (fun σ hσ => hP _ hitem σ hσ.1 c hc) (fun x => ?_)
      fun _ L ω σ h => h
    rw [hF, Over.of_mem _ _ hc, Over.of_not_mem _ _ (by simpa using hne c hc)]
    unfold Deal.cancelIfPending
    rw [Deal.deposit_onlyIf]
    split <;> rfl
  refine h.write (fun db => (Rewrites.modifyDeal db k _).trans
    (Rewrites.modifyDeals _ competitors _)) fun L ω σ h => ?_
  refine h.write (fun db => (Rewrites.modifyDeal db k _).trans
    (Rewrites.modifyDeals _ competitors _)) fun L ω σ h => ?_
  simp only [List.nil_append] at h
  refine h.createOutboxMissing (fun σ hσ => ⟨d, hσ.1.found⟩) (fun x => ?_) ?_ fun L ω σ h => ?_
  · simp [Over, hk]
  · intro L a b x x' hL hs ha hx hx'
    have hb := Other.frozen hu (Or.inr ⟨hL _ hbooking, hL _ hitem⟩) hs ha.1.found
    rw [ha.1.found, Option.some.injEq] at hx
    rw [hb, Option.some.injEq] at hx'
    rw [← hx, ← hx']
  refine h.forEach (fun d => d.onlyIf (!d.outbox.contains .competingCancelled)
    (Deal.addOutbox .competingCancelled)) hn (fun c hc F hF L ω σ h => ?_) fun L ω σ h => ?_
  · refine h.createOutboxMissing (fun σ hσ => ?_) (fun x => ?_) ?_ fun _ _ _ h => h
    · obtain ⟨x, hx, -⟩ := hσ.1.requested c hc
      exact ⟨x, hx⟩
    · rw [hF]
      by_cases hx : x.booking.status = .pending <;>
        simp [Over, hc, hne c hc, Deal.cancelPendingDeposit, Deal.cancelIfPending, hx]
    · intro L a b x x' hL hs ha hx hx'
      have hreq := ha.1.requested c hc
      obtain ⟨m, hb, hguard, hkeys⟩ := Other.get hs hx
      rw [hb, Option.some.injEq] at hx'
      subst hx'
      refine DealMove.competingCancelled_apply (hreq.unpaid hx) hguard ?_
      rintro l rfl
      refine hkeys (.item d.booking.itemId) ?_ (hL _ hitem)
      simp [DealMove.keys, itemId_of_requested hreq hx]
  refine h.commit trivial rfl ?_ ?_ (fun _ _ => trivial) fun _ => ⟨rfl, rfl⟩
  · rintro σ ⟨hσ, hsec⟩ c x hx
    by_cases hck : c = k
    · subst hck
      rw [hσ.found, Option.some.injEq] at hx
      subst hx
      simp only [Event.move, if_true]
      refine ⟨?_, ⟨hp, hlender⟩, ?_⟩
      · simp [Over, hk, DealMove.apply, Deal.confirm]
      · simp only [DealMove.keys, List.mem_cons, List.not_mem_nil, or_false]
        rintro key (rfl | rfl | rfl)
        · exact hbooking
        · exact hks _ (by simp)
        · exact hitem
    · by_cases hc : c ∈ competitors
      · have hreq := hσ.requested c hc
        simp only [Event.move, if_neg hck, if_pos hc]
        refine ⟨?_, hreq.unpaid hx, ?_⟩
        · simp [Over, hc, hck, DealMove.apply, Deal.compete]
        · simp only [DealMove.keys, itemId_of_requested hreq hx, List.mem_cons]
          rintro key (rfl | hkey)
          · exact hitem
          · split at hkey
            · rename_i hpending
              rw [List.mem_singleton] at hkey
              exact hkey ▸ hsec c hc x hx hpending
            · cases hkey
      · simp [Event.move, hck, hc, Over, DealMove.apply, DealMove.guard, DealMove.keys]
  · rintro σ db ⟨hσ, -⟩ hperiods
    refine ⟨hperiods, fun x hx => ?_⟩
    rw [hσ.found, Option.some.injEq] at hx
    subst hx
    exact ⟨hσ.calendar, hσ.reserved⟩

theorem safe_confirm (lenderId bookingId : Id) (now : Time) :
    Safe (contract sha256 ok) (confirm lenderId bookingId now) := by
  intro σ
  simp only [confirm, Prog.bind_eq, wp_bind, wp_acquire, wp_select, wp_lift, required_eq_ok,
    ensure_eq_ok, view_nil]
  intro σ₁ _ _ σ₂ _ _ candidate hcandidate σ₃ hi₃ _ σ₄ hi₄ hinv₄ booking hbooking _ hpending
    σ₅ hi₅ _ _ hcalendar σ₆ hi₆ _ _ hreserved σ₇ hi₇ hinv₇
  rw [Option.filter_eq_some_iff] at hcandidate hbooking
  obtain ⟨d₂, hd₂, rfl⟩ := Option.map_eq_some_iff.mp hcandidate.1
  obtain ⟨d, hd, rfl⟩ := Option.map_eq_some_iff.mp hbooking.1
  have hitem : d₂.booking.itemId = d.booking.itemId := by
    obtain ⟨x, hx, ht⟩ := interference_keeps (fun _ _ => Other.terms)
      (interference_trans hi₃ (interference_mono (by simp +contextual) hi₄)) ⟨d₂, hd₂, rfl⟩
    rw [hd, Option.some.injEq] at hx
    exact (itemId_of_terms (hx ▸ ht)).symm
  have hp : d.booking.status = .pending := by
    simp only [Database.unexpiredPending, Bool.and_eq_true, beq_iff_eq] at hpending
    exact hpending.1
  have hu : d.Unpaid := hinv₄.pending bookingId d hd hp
  simp only [Bool.not_eq_true'] at hcalendar hreserved
  rw [hitem] at hi₄ hi₅ hi₆ hi₇ ⊢
  generalize hL : [LockKey.item d.booking.itemId, .booking bookingId] = L at hi₄ hi₅ hi₆ hi₇ ⊢
  have hLitem : .item d.booking.itemId ∈ L := by simp [← hL]
  have hLbooking : .booking bookingId ∈ L := by simp [← hL]
  generalize hcs : σ₇.1.competingPending (some bookingId) d.booking.itemId now
    d.booking.startDate d.booking.endDate = competitors
  have hmem : ∀ c ∈ competitors, c ≠ bookingId ∧ ∃ x, σ₇.1.deals.get c = some x ∧
      x.booking.itemId = d.booking.itemId ∧ x.booking.status = .pending := by
    intro c hc
    rw [← hcs, Database.competingPending, Table.mem_keysWhere] at hc
    obtain ⟨x, hx, hc⟩ := hc
    simp only [Database.unexpiredPending, Bool.and_eq_true, bne_iff_ne, ne_eq,
      Option.some.injEq, beq_iff_eq] at hc
    exact ⟨hc.1.1.1, x, hx, hc.1.1.2, hc.1.2.1⟩
  have hconfirming : Always (contract sha256 ok) L (Confirming bookingId d competitors) σ₇ := by
    intro σ' hi
    refine ⟨?_, ?_, ?_, fun c hc => ?_⟩
    · exact interference_keeps (fun _ _ => Other.frozen hu (Or.inr ⟨hLbooking, hLitem⟩))
        (interference_trans hi₅ (interference_trans hi₆ (interference_trans hi₇ hi))) hd
    · exact interference_keeps (fun _ _ => Other.calendarFree hLitem)
        (interference_trans hi₆ (interference_trans hi₇ hi)) hcalendar
    · exact interference_keeps (fun _ _ => Other.reservedFree hLitem)
        (interference_trans hi₇ hi) hreserved
    · obtain ⟨-, x, hx, hxitem, hxp⟩ := hmem c hc
      refine interference_keeps (P := Requested [.item d.booking.itemId] c)
        (fun _ _ hs h => h.keeps (by simpa using hLitem) hs) hi
        ⟨x, hx, hinv₇.pending c x hx hxp, Or.inr (by simp [hxitem])⟩
  have h := wp_confirmStatements hp hu (show d.booking.lenderId = lenderId by simpa using hbooking.2)
    (fun hk => (hmem _ hk).1 rfl)
    (hcs ▸ Table.nodup_keysWhere _ _)
    (.start (hL ▸ hconfirming) fun _ => id)
  simp only [Prog.bind_eq, wp_bind] at h
  exact hL ▸ h

end BookingService

/-! ## Blocking -/

namespace UsersService

variable {B : List (Id × Id) → List (Id × Id)} {P : Store → Prop} {ks L : List LockKey}
  {ω : List (Database → Database)} {σ : Store}
  {Q : Unit → List LockKey → List (Database → Database) → Store → Prop}

/-- What a block knows until it commits: no other request of the pair is open at `now`, and
those that it cancels are still without payment. -/
structure Sweeping (ks : List LockKey) (blockerId blockedId : Id) (cancelled seen : List Id)
    (now : Time) (σ : Store) : Prop where
  clock : now ≤ σ.2.now
  swept : Swept blockerId blockedId cancelled seen now σ.1
  requested : ∀ c ∈ cancelled, Requested ks c σ

/-- The locks of the requests, taken one after the other. -/
private theorem wp_lockBookings {ids : List Id}
    (h : Batch sha256 ok B P (fun _ x => x) ks L ω σ)
    (hQ : ∀ L ω σ, Batch sha256 ok B P (fun _ x => x) (ids.map .booking ++ ks) L ω σ →
      Q () L ω σ) :
    wp (contract sha256 ok) (forEach ids fun id => acquire (.booking id)) Q L ω σ := by
  refine wp_forEach (I := fun done => Batch sha256 ok B P (fun _ x => x)
    (done.map .booking ++ ks)) ids ?_ h hQ
  intro done c rest _ L ω σ h
  refine h.acquire fun L ω σ h => h.weaken (fun _ => id) fun key hkey => ?_
  simp only [List.map_append, List.map_cons, List.map_nil, List.mem_append, List.mem_cons,
    List.not_mem_nil, or_false] at hkey ⊢
  rcases hkey with (hkey | hkey) | hkey
  · exact Or.inr (Or.inl hkey)
  · exact Or.inl hkey
  · exact Or.inr (Or.inr hkey)

private theorem wp_cancelRequests {blockerId blockedId : Id} {cancelled seen : List Id}
    {now : Time} (hn : cancelled.Nodup) (hks : ∀ c ∈ cancelled, .booking c ∈ ks)
    (hrow : .userBlockRow blockerId blockedId ∈ ks)
    (hB : (Event.block blockerId blockedId cancelled seen now).applyBlocks = B)
    (h : Batch sha256 ok B (Sweeping ks blockerId blockedId cancelled seen now) (fun _ x => x)
      ks L ω σ) :
    wp (contract sha256 ok) (cancelRequests blockerId cancelled)
      (fun _ => wp (contract sha256 ok) (commit (.block blockerId blockedId cancelled seen now))
        fun _ L ω _ => L = [] ∧ ω = []) L ω σ := by
  simp only [cancelRequests, Prog.bind_eq, wp_bind]
  refine h.cancelRequests hn (fun σ hσ => hσ.requested) (fun c hc x => rfl)
    fun ks' hks' L ω σ h => ?_
  refine h.write (Rewrites.modifyDeals · cancelled _) fun L ω σ h => ?_
  refine h.write (Rewrites.modifyDeals · cancelled _) fun L ω σ h => ?_
  refine h.forEach (Deal.addOutbox .cancelled) hn (fun c hc F hF L ω σ h => ?_) fun L ω σ h => ?_
  · exact h.createOutbox fun L ω σ h => h
  refine h.commit trivial hB ?_ (fun _ _ _ hp => hp) ?_ fun _ => ⟨rfl, rfl⟩
  · rintro σ ⟨hσ, hsec⟩ c x hx
    by_cases hc : c ∈ cancelled
    · simp only [Event.move, if_pos hc]
      refine ⟨by simp [Over, hc, DealMove.apply, Deal.blocked], (hσ.requested c hc).unpaid hx, ?_⟩
      simp only [DealMove.keys, List.mem_cons]
      rintro key (rfl | hkey)
      · exact hks' _ (hks c hc)
      · split at hkey
        · rename_i hpending
          rw [List.mem_singleton] at hkey
          exact hkey ▸ hsec c hc x hx hpending
        · cases hkey
    · simp [Event.move, hc, Over, DealMove.apply, DealMove.guard, DealMove.keys]
  · rintro σ ⟨hσ, -⟩
    exact ⟨h.locks _ (hks' _ hrow), hσ.clock, hσ.swept⟩

/-- The insert of a block, as the commit will see it. -/
private theorem always_insertBlock {blockerId blockedId : Id} (cancelled seen : List Id)
    (now : Time) (σ : Store) :
    Always (contract sha256 ok) [.userBlockRow blockerId blockedId] (fun σ' =>
      Rewrites (Event.block blockerId blockedId cancelled seen now).applyBlocks (fun _ x => x) σ'.1
        ((if σ.1.userBlocks.contains (blockerId, blockedId) then id else fun db : Database =>
          { db with userBlocks := db.userBlocks ++ [(blockerId, blockedId)] }) σ'.1)) σ := by
  intro σ' hi
  have hc : σ'.1.userBlocks.contains (blockerId, blockedId) =
      σ.1.userBlocks.contains (blockerId, blockedId) :=
    interference_keeps (fun _ _ => Other.contains_userBlocks (List.mem_singleton_self _)) hi rfl
  by_cases h : σ.1.userBlocks.contains (blockerId, blockedId) = true
  · rw [h] at hc
    rw [if_pos h]
    exact ⟨(Table.mapRows_id _).symm, rfl, rfl, rfl, rfl,
      by simp only [Event.applyBlocks, hc, if_true]; rfl⟩
  · rw [Bool.not_eq_true] at h
    rw [h] at hc
    simp only [h, Bool.false_eq_true, if_false]
    exact ⟨(Table.mapRows_id _).symm, rfl, rfl, rfl, rfl,
      by simp only [Event.applyBlocks, hc, Bool.false_eq_true, if_false]⟩

/-- The requests found open, of those that the scan for the pair had found. -/
private theorem sweeping_filter {blockerId blockedId : Id} {candidates seen : List Id}
    {now : Time} (hinv : Inv sha256 σ) (hnow : now ≤ σ.2.now)
    (hswept : Swept blockerId blockedId candidates seen now σ.1)
    (hks : ∀ c ∈ candidates, .booking c ∈ ks) :
    Sweeping ks blockerId blockedId (candidates.filter fun id =>
      (σ.1.booking id).any (Database.unexpiredPending now)) seen now σ := by
  have hopen : ∀ {c d}, σ.1.deals.get c = some d → ((σ.1.booking c).any
      (Database.unexpiredPending now) = true ↔ Database.unexpiredPending now d.booking = true) := by
    intro c d hd
    simp [Database.booking, hd]
  refine ⟨hnow, fun k hk => ?_, fun c hc => ?_⟩
  · obtain ⟨d, hd, h⟩ := hswept k hk
    exact ⟨d, hd, fun hbetween hpending =>
      List.mem_filter.mpr ⟨h hbetween hpending, (hopen hd).mpr hpending⟩⟩
  · rw [List.mem_filter, Option.any_eq_true] at hc
    obtain ⟨hc, booking, hb, hpending⟩ := hc
    obtain ⟨d, hd, rfl⟩ := Option.map_eq_some_iff.mp hb
    simp only [Database.unexpiredPending, Bool.and_eq_true, beq_iff_eq] at hpending
    exact ⟨d, hd, hinv.pending c d hd hpending.1, Or.inl (hks c hc)⟩

/-- The scan finds every open request of the pair. -/
private theorem swept_scan (blockerId blockedId : Id) (now : Time) {db db' : Database}
    (h : db'.deals = db.deals) :
    Swept blockerId blockedId ((db'.deals.keysWhere fun _ d =>
      Database.unexpiredPending now d.booking &&
        betweenUsers blockerId blockedId d.booking).insertionSort (· ≤ ·)) db'.bookingIds now db := by
  intro k hk
  obtain ⟨d, hd, -⟩ := Table.mem_keysWhere.mp hk
  rw [h] at hd
  refine ⟨d, hd, fun hbetween hpending => ?_⟩
  rw [List.mem_insertionSort, Table.mem_keysWhere, h]
  exact ⟨d, hd, by simp [hbetween, hpending]⟩

theorem safe_blockUser (blockerId blockedId : Id) :
    Safe (contract sha256 ok) (blockUser blockerId blockedId) := by
  intro σ
  simp only [blockUser, clock, Prog.bind_eq, wp_bind, wp_acquire, wp_select, wp_lift,
    required_eq_ok, ensure_eq_ok]
  intro _ _ σ₁ _ _ σ₂ _ _ _ _
  rw [wp_insertMissing]
  intro σ₃ _ _
  refine wp_call_noop fun σ₄ hi₄ _ σ₅ hi₅ hinv₅ => ?_
  generalize hnow : σ₄.2.now = now
  generalize hω : [] ++ [if (view [] σ₃.1).userBlocks.contains (blockerId, blockedId) then id
    else fun db : Database =>
      { db with userBlocks := db.userBlocks ++ [(blockerId, blockedId)] }] = ω
  have hwrites : Always (contract sha256 ok)
      [.userBlockRow blockerId blockedId, pairKey blockerId blockedId] (fun σ =>
        Rewrites (Event.block blockerId blockedId [] [] 0).applyBlocks (fun _ x => x) σ.1
          (view ω σ.1)) σ₅ := by
    rw [← hω]
    exact ((always_insertBlock [] [] 0 σ₃).grow (by simp)).later (interference_trans hi₄ hi₅)
  have hdeals : (view ω σ₅.1).deals = σ₅.1.deals := by
    rw [hwrites.now.deals, Table.mapRows_id]
  have hclock : now ≤ σ₅.2.now :=
    (persists_now now).interference hi₅ (Int.le_of_eq hnow.symm)
  have hswept := swept_scan blockerId blockedId now hdeals
  generalize hcs : List.insertionSort (fun a b : Sosedi.Id => a ≤ b) _ = candidates at hswept ⊢
  generalize (view ω σ₅.1).bookingIds = seen at hswept ⊢
  have hn : candidates.Nodup := by
    rw [← hcs, (List.perm_insertionSort _ _).nodup_iff]
    exact Table.nodup_keysWhere _ _
  have h₅ : Batch sha256 ok (Event.block blockerId blockedId [] [] 0).applyBlocks
      (fun σ => now ≤ σ.2.now ∧ Swept blockerId blockedId candidates seen now σ.1) (fun _ x => x)
      [.userBlockRow blockerId blockedId]
      [.userBlockRow blockerId blockedId, pairKey blockerId blockedId] ω σ₅ := by
    refine ⟨by simp, ?_, hwrites⟩
    exact fun σ' hi => ((persists_now now).and (persists_swept _ _ _ _ _)).interference hi
      ⟨hclock, hswept⟩
  refine wp_lockBookings h₅ fun L ω σ₆ h σ₇ hi₇ hinv₇ => ?_
  replace h := h.interference hi₇
  have hview : ∀ c, (view ω σ₇.1).booking c = σ₇.1.booking c := by
    intro c
    rw [Database.booking, Database.booking, h.writes.now.deals, Table.mapRows_id]
  simp only [hview]
  have hks : ∀ c ∈ candidates, LockKey.booking c ∈ candidates.map LockKey.booking ++
      [.userBlockRow blockerId blockedId] := fun c hc =>
    List.mem_append_left _ (List.mem_map_of_mem hc)
  have hsweeping := sweeping_filter hinv₇ h.base.now.1 h.base.now.2 hks
  generalize hcancelled : candidates.filter (fun id =>
    (σ₇.1.booking id).any (Database.unexpiredPending now)) = cancelled at hsweeping ⊢
  replace h := (h.assume hsweeping fun a b hs _ ha =>
    ⟨(persists_now now).interference (.single hs) ha.clock,
      (persists_swept _ _ _ _ _).interference (.single hs) ha.swept,
      fun c hc => (ha.requested c hc).keeps h.locks hs⟩).weaken (fun _ => And.right) fun _ => id
  rw [wp_when]
  refine ⟨fun _ => wp_cancelRequests (hcancelled ▸ hn.filter _) (fun c hc => hks c ?_) (by simp)
    rfl h, fun hempty => ?_⟩
  · rw [← hcancelled] at hc
    exact List.mem_of_mem_filter hc
  · obtain rfl : cancelled = [] := by simpa using hempty
    exact h.commit trivial rfl (fun _ _ c x _ => by
      simp [Event.move, DealMove.apply, DealMove.guard, DealMove.keys]) (fun _ _ _ hp => hp)
      (fun σ hσ => ⟨h.locks _ (by simp), hσ.clock, hσ.swept⟩) fun _ => ⟨rfl, rfl⟩

end UsersService

/-! ## The owner's calendar -/

namespace BookingAvailabilityService

theorem safe_create (ownerId itemId : Id) (dto : CreateUnavailablePeriodDto) (today : Time)
    (newId : Id) : Safe (contract sha256 ok) (create ownerId itemId dto today newId) := by
  intro σ
  simp only [create, requireOwnedItem, Prog.bind_eq, wp_bind, wp_acquire, wp_select, wp_lift,
    required_eq_ok, ensure_eq_ok, wp_insertUnique, view_nil, Bool.not_eq_true']
  intro period _ σ₁ _ _ σ₂ _ _ _ _ σ₃ _ _ _ hreserved σ₄ hi₄ _ _ hcalendar σ₅ hi₅ _ _
    σ₆ hi₆ _ _
  have hL : .item itemId ∈ [LockKey.item itemId] := List.mem_singleton_self _
  have hL' : .item itemId ∈ [LockKey.periodRow newId] ++ [LockKey.item itemId] := by simp
  refine ⟨⟨movesDeals_idle (fun _ => rfl) rfl, ⟨hL', ?_, ?_, rfl⟩, trivial,
    ⟨rfl, rfl, trivial, by simp [Event.uploadKeys, Event.consumed, Event.rowKeys]⟩,
    .of_same trivial ⟨rfl, rfl, rfl⟩⟩, rfl, rfl⟩
  · exact interference_keeps (fun _ _ => Other.reservedFree hL') hi₆
      (interference_keeps (fun _ _ => Other.reservedFree hL) (interference_trans hi₄ hi₅) hreserved)
  · exact interference_keeps (fun _ _ => Other.calendarFree hL') hi₆
      (interference_keeps (fun _ _ => Other.calendarFree hL) hi₅ hcalendar)

theorem safe_remove (ownerId itemId periodId : Id) :
    Safe (contract sha256 ok) (remove ownerId itemId periodId) := by
  intro σ
  simp only [remove, requireOwnedItem, Prog.bind_eq, wp_bind, wp_acquire, wp_select, wp_lift,
    required_eq_ok, ensure_eq_ok, wp_updateWhere, view_nil]
  intro σ₁ _ _ σ₂ _ _ _ _ σ₃ _ _ _ hmatched σ₄ hi₄ _ _
  have hL : .item itemId ∈ [LockKey.periodRow periodId] ++ [LockKey.item itemId] := by simp
  simp only [hmatched, if_true] at hi₄ ⊢
  obtain ⟨p, hp, hitem⟩ := (Option.any_eq_true _ _).mp hmatched
  obtain ⟨p', hp', hitem'⟩ := interference_keeps (fun _ _ => Other.period hL) hi₄
    ⟨p, hp, by simpa using hitem⟩
  refine ⟨⟨movesDeals_idle (fun _ => rfl) rfl, ⟨hL, fun q hq => ?_, rfl⟩, trivial,
    ⟨rfl, rfl, trivial, by simp [Event.uploadKeys, Event.consumed, Event.rowKeys]⟩,
    .of_same trivial ⟨rfl, rfl, rfl⟩⟩, rfl, rfl⟩
  rw [hp', Option.some.injEq] at hq
  exact hq ▸ hitem'

end BookingAvailabilityService

end Sosedi
