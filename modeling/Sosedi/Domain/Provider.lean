import Sosedi.Data.Table
import Sosedi.Domain.Basics

/-!
# The fake safe-deal provider

The provider keeps one record for each idempotency key: the request that made it and the
result.  A request with a known key either is the same request, and gets the recorded
result, or is refused.
-/

namespace Sosedi

abbrev Bytes := List UInt8

def utf8 (s : String) : Bytes := s.toUTF8.toList

inductive FakeOperationOutcome where
  | success
  | decline
  | timeout
  deriving DecidableEq

inductive DepositOperationKind where
  | hold
  | cancel
  | refund
  | releaseToLender
  deriving DecidableEq

/-- The two kinds of request; the currency of both is `RUB`. -/
inductive ProviderRequest where
  | checkout (idempotencyKey : String) (bookingId : Id) (amountMinor : Int)
      (outcome : FakeOperationOutcome)
  | deposit (idempotencyKey : String) (depositId : Id) (kind : DepositOperationKind)
      (amountMinor : Int) (outcome : FakeOperationOutcome)
  deriving DecidableEq

namespace ProviderRequest

def idempotencyKey : ProviderRequest → String
  | checkout key _ _ _ => key
  | deposit key _ _ _ _ => key

def amountMinor : ProviderRequest → Int
  | checkout _ _ amount _ => amount
  | deposit _ _ _ amount _ => amount

def outcome : ProviderRequest → FakeOperationOutcome
  | checkout _ _ _ outcome => outcome
  | deposit _ _ _ _ outcome => outcome

def command : ProviderRequest → String
  | checkout .. => "checkout"
  | deposit .. => "deposit"

end ProviderRequest

inductive ProviderOperationResult where
  | succeeded (providerOperationId : String)
  | declined (errorCode : String)
  | timeout
  deriving DecidableEq

/-- The fingerprint is the JSON text of the request, which determines the request. -/
structure StoredOperation where
  fingerprint : ProviderRequest
  result : ProviderOperationResult
  deriving DecidableEq

abbrev FakeSafeDealProvider := Table String StoredOperation

namespace FakeSafeDealProvider

def validate (request : ProviderRequest) : Except Error Unit := do
  ensure (isNonEmptyString request.idempotencyKey)
    (.badRequest "Idempotency key and operation target are required")
  ensure (0 < request.amountMinor)
    (.badRequest "Fake operation requires a positive RUB amount in minor units")

def result (sha256 : Bytes → String) (request : ProviderRequest) : ProviderOperationResult :=
  match request.outcome with
  | .decline => .declined "FAKE_DECLINED"
  | .timeout => .timeout
  | .success =>
    .succeeded ("fake_" ++ request.command ++ "_" ++
      String.ofList
        ((sha256 (utf8 (request.command ++ ":" ++ request.idempotencyKey))).toList.take 24))

/-- What the caller gets, and the record afterwards. -/
def execute (sha256 : Bytes → String) (operations : FakeSafeDealProvider)
    (request : ProviderRequest) : Except Error ProviderOperationResult × FakeSafeDealProvider :=
  match validate request with
  | .error e => (.error e, operations)
  | .ok () =>
    match operations.get request.idempotencyKey with
    | some existing =>
      if existing.fingerprint ≠ request then
        (.error (.conflict "Idempotency key already belongs to another fake operation"),
          operations)
      else (.ok existing.result, operations)
    | none =>
      (.ok (result sha256 request),
        operations.insert request.idempotencyKey ⟨request, result sha256 request⟩)

variable {sha256 : Bytes → String} {operations : FakeSafeDealProvider}
  {request : ProviderRequest}

/-- The records after a request. -/
theorem get_execute (key : String) : (execute sha256 operations request).2.get key =
    if key = request.idempotencyKey ∧ operations.get key = none ∧ validate request = .ok () then
      some ⟨request, result sha256 request⟩
    else operations.get key := by
  unfold execute
  split
  · rename_i e hv
    simp [hv]
  · rename_i hv
    split
    · rename_i existing he
      have hcond : ¬(key = request.idempotencyKey ∧ operations.get key = none ∧
          validate request = .ok ()) := by
        rintro ⟨rfl, hnone, -⟩
        rw [he] at hnone
        cases hnone
      rw [if_neg hcond]
      split <;> rfl
    · rename_i hnone
      rw [Table.get_insert]
      by_cases hk : key = request.idempotencyKey
      · subst hk
        simp [hv]
      · simp [hk]

/-- The answer depends on the record of the key only. -/
theorem execute_congr {operations' : FakeSafeDealProvider}
    (h : operations.get request.idempotencyKey = operations'.get request.idempotencyKey) :
    (execute sha256 operations request).1 = (execute sha256 operations' request).1 := by
  unfold execute
  rw [h]
  split
  · rfl
  · split
    · split <;> rfl
    · rfl

/-- A record is never changed or removed. -/
theorem get_execute_of_get {key : String} {stored : StoredOperation}
    (h : operations.get key = some stored) :
    (execute sha256 operations request).2.get key = some stored := by
  unfold execute
  split
  · exact h
  · split
    · split <;> exact h
    · rename_i hnone
      rw [Table.get_insert, if_neg]
      · exact h
      · rintro ⟨rfl, -⟩
        rw [hnone] at h
        cases h

/-- A record that was not there before is the one of the request. -/
theorem eq_of_get_execute {key : String} {stored : StoredOperation}
    (h : (execute sha256 operations request).2.get key = some stored) :
    operations.get key = some stored ∨
      validate request = .ok () ∧ operations.get key = none ∧ key = request.idempotencyKey ∧
        stored = ⟨request, result sha256 request⟩ := by
  unfold execute at h
  split at h
  · exact Or.inl h
  · rename_i hvalid
    split at h
    · split at h <;> exact Or.inl h
    · rename_i hnone
      rw [Table.get_insert] at h
      split at h
      · rename_i hk
        exact Or.inr ⟨hvalid, hk.1 ▸ hnone, hk.1, (Option.some.inj h).symm⟩
      · exact Or.inl h

/-- An answer is the recorded result of the same request. -/
theorem get_of_execute_ok {res : ProviderOperationResult}
    (h : (execute sha256 operations request).1 = .ok res) :
    (execute sha256 operations request).2.get request.idempotencyKey =
      some ⟨request, res⟩ := by
  cases hv : validate request with
  | error e => simp [execute, hv] at h
  | ok u =>
    cases he : operations.get request.idempotencyKey with
    | none =>
      simp only [execute, hv, he, Except.ok.injEq] at h ⊢
      subst h
      exact Table.get_insert_self _ he
    | some existing =>
      simp only [execute, hv, he] at h ⊢
      split at h
      · cases h
      · rename_i hf
        simp only [hf, if_false]
        cases h
        rw [ne_eq, not_not] at hf
        subst hf
        exact he

end FakeSafeDealProvider

end Sosedi
