import Sosedi.Accounts.Steps
import Sosedi.Deals.Actions
import Sosedi.Transactions.RelyGuarantee
import Sosedi.Uploads.Invariant

/-!
# The contract of the system

Every event moves every deal: `Event.move` says how, `DealMove.guard` what the deal
satisfies at that moment and `DealMove.keys` which locks the client holds.  `Guar` puts the
parts of a step together: deals, calendar, checkouts, uploads, accounts and listings.

Proved here: the inversion of a step at one deal (`Guar.get_of_get`, `Guar.get_inv`).
-/

namespace Sosedi

open Transactions

abbrev Store := Database × World

/-! ## Moves of one deal -/

inductive DealMove where
  | idle
  | act (action : Action)
  | createAct (stage : BookingActStage) (act : BookingAct)
  | confirm (lenderId : Id)
  | compete (lenderId : Id)
  | blocked (blockerId : Id)
  | claim (operationId : Id) (now processingUntil : Time)

namespace DealMove

def apply (k : Id) : DealMove → Deal → Deal
  | idle, d => d
  | act action, d => action.apply k d
  | createAct stage a, d => d.setAct stage (some a)
  | confirm lenderId, d => d.confirm lenderId
  | compete lenderId, d => d.compete lenderId
  | blocked blockerId, d => d.blocked blockerId
  | claim operationId _ processingUntil, d => d.claim operationId processingUntil

def guard (k : Id) : DealMove → Deal → World → Prop
  | idle, _, _ => True
  | act action, d, w => action.guard k d w
  | createAct stage a, d, _ =>
    d.act stage = none ∧ d.booking.status = BookingActService.expectedStatus stage ∧
      a.authorId = BookingActService.expectedActor stage d.booking ∧ a.confirmedAt = none ∧
      a.confirmedById = none
  | confirm lenderId, d, _ => d.booking.status = .pending ∧ d.booking.lenderId = lenderId
  | compete _, d, _ => d.Unpaid
  | blocked _, d, _ => d.Unpaid
  | claim operationId now _, d, _ => ∃ op, d.operations.get operationId = some op ∧
      DepositOperationProcessor.claimable now op

/-- The locks behind a move.  A competing confirmation does not hold the lock of the
booking it cancels, and a claim holds none but its row. -/
def keys (k : Id) (d : Deal) : DealMove → List LockKey
  | idle => []
  | act action => .booking k :: ((if action.writesBooking then [.bookingRow k] else []) ++
      (action.operationId.map (.operationRow k)).toList)
  | createAct .. => [.booking k]
  | confirm _ => [.booking k, .bookingRow k, .item d.booking.itemId]
  | compete _ =>
    .item d.booking.itemId :: (if d.booking.status = .pending then [.bookingRow k] else [])
  | blocked _ => .booking k :: (if d.booking.status = .pending then [.bookingRow k] else [])
  | claim operationId _ _ => [.operationRow k operationId]

end DealMove

/-- What an event does to the deal `k`. -/
def Event.move (k : Id) : Event → DealMove
  | .confirm id lenderId competitors =>
    if k = id then .confirm lenderId
    else if k ∈ competitors then .compete lenderId
    else .idle
  | .block blockerId _ cancelled _ _ => if k ∈ cancelled then .blocked blockerId else .idle
  | .deal id action => if k = id then .act action else .idle
  | .createAct id stage a _ _ _ _ => if k = id then .createAct stage a else .idle
  | .claim id operationId now processingUntil =>
    if k = id then .claim operationId now processingUntil else .idle
  | _ => .idle

/-- Only a confirmation of the deal itself confirms it. -/
theorem Event.confirm_of_move {ev : Event} {k l : Id} (h : ev.move k = .confirm l) :
    ∃ competitors, ev = .confirm k l competitors := by
  cases ev with
  | confirm id l' competitors =>
    simp only [move] at h
    split at h
    · rename_i hid
      subst hid
      cases h
      exact ⟨competitors, rfl⟩
    · split at h <;> cases h
  | block | deal | createAct | claim => simp only [move] at h; split at h <;> cases h
  | _ => cases h

/-! ## The parts of a step -/

/-- A request is inserted under the locks of its borrower and its item; its request id is new,
and the quotas, counted at the clock of the call, leave room for it. -/
structure RequestGuard (K : List LockKey) (a : Store) (booking : Booking) : Prop where
  user : .user booking.borrowerId ∈ K
  item : .item booking.itemId ∈ K
  isNew : a.1.bookingByRequest booking.borrowerId booking.clientRequestId = none
  quotas : ∃ now, booking.expiresAt = some (now + bookingPendingTtlMs) ∧
    a.1.countActivePending booking.borrowerId now < bookingMaxActivePending ∧
    (a.1.competingPending none booking.itemId now booking.startDate booking.endDate).length <
      bookingMaxCompetingPending

theorem RequestGuard.mono {K K' : List LockKey} {a : Store} {booking : Booking}
    (h : RequestGuard K a booking) (hK : ∀ k ∈ K, k ∈ K') : RequestGuard K' a booking :=
  ⟨hK _ h.user, hK _ h.item, h.isNew, h.quotas⟩

/-- A step of the deals that inserts none. -/
def MovesDeals (ev : Event) (K : List LockKey) (a b : Store) : Prop :=
  b.1.deals = a.1.deals.mapRows (fun k d => (ev.move k).apply k d) ∧
    ∀ k d, a.1.deals.get k = some d →
      (ev.move k).guard k d a.2 ∧ ∀ key ∈ (ev.move k).keys k d, key ∈ K

def DealsStep (ev : Event) (K : List LockKey) (a b : Store) : Prop :=
  match ev with
  | .create id deal read =>
    .bookingRow id ∈ K ∧ a.1.deals.get id = none ∧ DraftedFrom read deal ∧
      RequestGuard K a deal.booking ∧ b.1.deals = a.1.deals.insert id deal
  | ev => MovesDeals ev K a b

def CalendarStep (ev : Event) (K : List LockKey) (a b : Store) : Prop :=
  match ev with
  | .addPeriod id p =>
    .item p.itemId ∈ K ∧ a.1.reservedConflict none p.itemId p.startDate p.endDate = false ∧
      a.1.calendarConflict p.itemId p.startDate p.endDate = false ∧
      b.1.periods = a.1.periods.insert id p
  | .removePeriod id itemId =>
    .item itemId ∈ K ∧ (∀ p, a.1.periods.get id = some p → p.itemId = itemId) ∧
      b.1.periods = a.1.periods.erase id
  | .confirm id _ _ =>
    b.1.periods = a.1.periods ∧ ∀ d, a.1.deals.get id = some d →
      a.1.calendarConflict d.booking.itemId d.booking.startDate d.booking.endDate = false ∧
      a.1.reservedConflict (some id) d.booking.itemId d.booking.startDate d.booking.endDate =
        false
  | _ => b.1.periods = a.1.periods

/-- A checkout reaches the provider under the lock of its confirmed booking, with the total
of the terms. -/
def CheckoutGuard (K : List LockKey) (a : Store) : Event → Prop
  | .provider id (.checkout _ bookingId amountMinor _) =>
    bookingId = id ∧ .booking id ∈ K ∧ ∃ d snapshot, a.1.deals.get id = some d ∧
      d.booking.status = .confirmed ∧ Action.FakeTerms d snapshot ∧
      amountMinor = snapshot.moneyMinor.total
  | _ => True

/-- One atomic step of the system. -/
structure Guar (sha256 : Bytes → String) (ev : Event) (K : List LockKey) (a b : Store) : Prop where
  deals : DealsStep ev K a b
  calendar : CalendarStep ev K a b
  checkout : CheckoutGuard K a ev
  uploads : UploadStep sha256 ev K a b
  accounts : AccountStep ev K a b

/-- Nothing was paid for a request that waits for its answer. -/
def PendingUnpaid (σ : Store) : Prop :=
  ∀ k d, σ.1.deals.get k = some d → d.booking.status = .pending → d.Unpaid

/-- What holds of the store between steps. -/
structure Inv (sha256 : Bytes → String) (σ : Store) : Prop where
  pending : PendingUnpaid σ
  uploads : UploadInv sha256 σ

/-- The contract of the system for the runs that satisfy `ok`. -/
def contract (sha256 : Bytes → String) (ok : Event → Store → Prop) : Contract Sys where
  inv := Inv sha256
  ok := ok
  guar := Guar sha256

/-! ## Inversion -/

variable {sha256 : Bytes → String} {ok : Event → Store → Prop} {ev : Event} {K L : List LockKey}
  {a b : Store} {k : Id} {d : Deal}

/-- What a step does to a deal that is there. -/
theorem Guar.get_of_get (h : Guar sha256 ev K a b) (hk : a.1.deals.get k = some d) :
    b.1.deals.get k = some ((ev.move k).apply k d) ∧ (ev.move k).guard k d a.2 ∧
      ∀ key ∈ (ev.move k).keys k d, key ∈ K := by
  have hd := h.deals
  unfold DealsStep at hd
  split at hd
  · rename_i id deal read
    obtain ⟨-, hnone, -, -, hb⟩ := hd
    have hne : k ≠ id := by
      rintro rfl
      rw [hnone] at hk
      cases hk
    rw [hb, Table.get_insert_ne _ _ hne, hk]
    exact ⟨rfl, trivial, by simp [Event.move, DealMove.keys]⟩
  · obtain ⟨hb, hg⟩ := hd
    rw [hb, Table.get_mapRows, hk]
    exact ⟨rfl, hg k d hk⟩

/-- Where a deal comes from. -/
theorem Guar.get_inv (h : Guar sha256 ev K a b) {d' : Deal} (hk : b.1.deals.get k = some d') :
    (∃ d, a.1.deals.get k = some d ∧ d' = (ev.move k).apply k d ∧ (ev.move k).guard k d a.2 ∧
      ∀ key ∈ (ev.move k).keys k d, key ∈ K) ∨
    a.1.deals.get k = none ∧ ∃ read, ev = .create k d' read ∧ DraftedFrom read d' := by
  cases ha : a.1.deals.get k with
  | some d =>
    obtain ⟨hb, hg, hK⟩ := h.get_of_get ha
    rw [hk, Option.some.injEq] at hb
    exact Or.inl ⟨d, rfl, hb, hg, hK⟩
  | none =>
    refine Or.inr ⟨rfl, ?_⟩
    have hd := h.deals
    unfold DealsStep at hd
    split at hd
    · rename_i id deal read
      obtain ⟨-, -, hnew, -, hb⟩ := hd
      rw [hb, Table.get_insert, ha] at hk
      split at hk
      · rename_i hid
        obtain ⟨rfl, -⟩ := hid
        cases hk
        exact ⟨read, rfl, hnew⟩
      · cases hk
    · rw [hd.1, Table.get_mapRows, ha] at hk
      cases hk

/-- The guard of a request. -/
theorem Guar.requestGuard {id : Id} {deal : Deal} {read : BookableItem}
    (h : Guar sha256 (.create id deal read) K a b) : RequestGuard K a deal.booking :=
  h.deals.2.2.2.1

/-- A step of another client, with what it knows. -/
theorem Contract.Other.elim (h : (contract sha256 ok).Other L a b) :
    ∃ ev K, (∀ key ∈ K, key ∉ L) ∧ Inv sha256 a ∧ ok ev a ∧ Guar sha256 ev K a b := by
  obtain ⟨K, hK, hinv, ev, hok, hg⟩ := h
  exact ⟨ev, K, hK, hinv, hok, hg⟩

end Sosedi
