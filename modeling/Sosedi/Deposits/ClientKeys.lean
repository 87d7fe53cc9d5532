import Sosedi.Scripts

/-!
# Keys that clients choose

A checkout is sent to the provider under a key that the borrower chose, a deposit operation
under a key that the server made.  Both are looked up in one table.

Proved here:

* `client_keys_harmless`: in the runs in which no deposit operation is sent under the key of an
  earlier checkout, the provider answers the deposit operations as if every checkout had used a
  fresh key.
-/

namespace Sosedi

open Transactions

namespace ProviderRequest

/-- The server made the key of the request. -/
def isDeposit : ProviderRequest → Bool
  | checkout .. => false
  | deposit .. => true

/-- The same request, under another key if a client chose it. -/
def withClientKey (key : String) : ProviderRequest → ProviderRequest
  | checkout _ bookingId amountMinor outcome => checkout key bookingId amountMinor outcome
  | request => request

end ProviderRequest

/-- The request of an event to the provider. -/
def Event.request : Event → Option ProviderRequest
  | provider _ request => some request
  | _ => none

/-- The requests of a run, in order. -/
def requests (evs : List Sys.Event) : List ProviderRequest := evs.filterMap Event.request

/-- The i-th request under the key `fresh i`, if it is a checkout. -/
def rekeyed (fresh : Nat → String) (rs : List ProviderRequest) : List ProviderRequest :=
  rs.mapIdx fun i r => r.withClientKey (fresh i)

namespace FakeSafeDealProvider

variable (sha256 : Bytes → String)

/-- The provider after the requests. -/
def serve (operations : FakeSafeDealProvider) (rs : List ProviderRequest) :
    FakeSafeDealProvider :=
  rs.foldl (fun operations r => (execute sha256 operations r).2) operations

/-- The requests with their answers. -/
def answers : FakeSafeDealProvider → List ProviderRequest →
    List (ProviderRequest × Except Error ProviderOperationResult)
  | _, [] => []
  | operations, r :: rs =>
    (r, (execute sha256 operations r).1) :: answers (execute sha256 operations r).2 rs

/-- What a new provider answers to the deposit operations among the requests. -/
def depositAnswers (rs : List ProviderRequest) :
    List (ProviderRequest × Except Error ProviderOperationResult) :=
  (answers sha256 .empty rs).filter (·.1.isDeposit)

variable {sha256} {operations operations' : FakeSafeDealProvider} {fresh : Nat → String}
  {rs : List ProviderRequest} {r : ProviderRequest}

theorem serve_append (rs' : List ProviderRequest) : serve sha256 operations (rs ++ rs') =
    serve sha256 (serve sha256 operations rs) rs' := by
  simp [serve]

theorem answers_append (rs' : List ProviderRequest) : answers sha256 operations (rs ++ rs') =
    answers sha256 operations rs ++ answers sha256 (serve sha256 operations rs) rs' := by
  induction rs generalizing operations with
  | nil => rfl
  | cons r rs ih => simp only [List.cons_append, answers, ih, serve, List.foldl_cons]

theorem depositAnswers_concat : depositAnswers sha256 (rs ++ [r]) = depositAnswers sha256 rs ++
    if r.isDeposit then [(r, (execute sha256 (serve sha256 .empty rs) r).1)] else [] := by
  rw [depositAnswers, answers_append, List.filter_append]
  cases h : r.isDeposit <;> simp [answers, h, depositAnswers]

/-- The second provider has the records of the first one under the keys that are not fresh,
unless a checkout has the key. -/
def Agree (fresh : Nat → String) (operations operations' : FakeSafeDealProvider) : Prop :=
  ∀ key, (∀ i, fresh i ≠ key) →
    (∀ stored, operations.get key = some stored → stored.fingerprint.isDeposit = true) →
    operations.get key = operations'.get key

namespace Agree

/-- A deposit operation whose key no checkout has used. -/
theorem deposit (h : Agree fresh operations operations')
    (hfresh : ∀ i, fresh i ≠ r.idempotencyKey)
    (hkey : ∀ stored, operations.get r.idempotencyKey = some stored →
      stored.fingerprint.isDeposit = true) :
    (execute sha256 operations r).1 = (execute sha256 operations' r).1 ∧
      Agree fresh (execute sha256 operations r).2 (execute sha256 operations' r).2 := by
  have hsame := h r.idempotencyKey hfresh hkey
  refine ⟨execute_congr hsame, fun key hnot hdeposit => ?_⟩
  by_cases hk : key = r.idempotencyKey
  · subst hk
    rw [get_execute, get_execute, hsame]
  · rw [get_execute, if_neg fun hc => hk hc.1] at hdeposit ⊢
    rw [get_execute, if_neg fun hc => hk hc.1]
    exact h key hnot hdeposit

/-- A checkout, under its own key and under a fresh one. -/
theorem checkout (h : Agree fresh operations operations') (hr : r.isDeposit = false) (i : Nat) :
    Agree fresh (execute sha256 operations r).2
      (execute sha256 operations' (r.withClientKey (fresh i))).2 := by
  intro key hnot hdeposit
  have hne : key ≠ (r.withClientKey (fresh i)).idempotencyKey := by
    cases r with
    | checkout => exact (hnot i).symm
    | deposit => cases hr
  rw [@get_execute _ _ (r.withClientKey (fresh i)), if_neg fun hc => hne hc.1]
  rw [get_execute] at hdeposit ⊢
  split
  · -- the record that a checkout makes is not one of a deposit operation
    rename_i hmade
    have hfalse := hdeposit _ (if_pos hmade)
    rw [hr] at hfalse
    cases hfalse
  · rename_i hmade
    rw [if_neg hmade] at hdeposit
    exact h key hnot hdeposit

end Agree

end FakeSafeDealProvider

open FakeSafeDealProvider

/-- No checkout has used the key under which a deposit operation is sent. -/
def keysApart (ev : Event) (σ : Store) : Bool :=
  match ev with
  | .provider _ (.deposit key _ _ _ _) =>
    (σ.2.provider.get key).all (·.fingerprint.isDeposit)
  | _ => true

variable {sha256 : Bytes → String} {ok : Event → Store → Prop} {s₀ s : State Sys}
  {evs : List Sys.Event}

theorem rekeyed_concat (fresh : Nat → String) (rs : List ProviderRequest) (r : ProviderRequest) :
    rekeyed fresh (rs ++ [r]) = rekeyed fresh rs ++ [r.withClientKey (fresh rs.length)] := by
  rw [rekeyed, List.mapIdx_concat]
  rfl

theorem requests_append (evs evs' : List Sys.Event) :
    requests (evs ++ evs') = requests evs ++ requests evs' := List.filterMap_append

/-- A run ends with the provider that served its requests. -/
theorem provider_of_traces (hthreads : s₀.threads = []) (hi : Initial s₀.store)
    (h : Traces (Calls sha256) ok s₀ evs s) :
    s.store.2.provider = serve sha256 .empty (requests evs) := by
  induction h with
  | refl => exact hi.provider
  | @step evs s s' m h hm hf ih =>
    have hrun : Runs sha256 ok s₀ s := ⟨hthreads, hi, h.reaches⟩
    rw [requests_append, serve_append, ← ih]
    cases m with
    | start p =>
      cases hf
      rfl
    | crash i =>
      cases hf
      rfl
    | run i =>
      simp only [State.eventsOf]
      cases hev : s.event i with
      | none => rw [State.store_of_event_none hev hf]; rfl
      | some ev =>
        obtain ⟨K, hg⟩ := hrun.sound.guar hev (hm ev hev) hf
        rw [hg.uploads.world]
        cases ev with
        | upload uev => cases uev <;> rfl
        | _ => rfl

/-- What the keys of the checkouts do not change. -/
structure KeysHarmless (sha256 : Bytes → String) (fresh : Nat → String)
    (rs : List ProviderRequest) : Prop where
  answers : depositAnswers sha256 rs = depositAnswers sha256 (rekeyed fresh rs)
  agree : Agree fresh (serve sha256 .empty rs) (serve sha256 .empty (rekeyed fresh rs))

/-- One more request keeps the answers. -/
theorem KeysHarmless.concat {fresh : Nat → String} {rs : List ProviderRequest}
    {r : ProviderRequest} (h : KeysHarmless sha256 fresh rs)
    (hfresh : r.isDeposit = true → ∀ i, fresh i ≠ r.idempotencyKey)
    (hkey : r.isDeposit = true → ∀ stored,
      (serve sha256 .empty rs).get r.idempotencyKey = some stored →
        stored.fingerprint.isDeposit = true) : KeysHarmless sha256 fresh (rs ++ [r]) := by
  cases hr : r.isDeposit with
  | false =>
    have hr' : (r.withClientKey (fresh rs.length)).isDeposit = false := by
      cases r with
      | checkout => rfl
      | deposit => cases hr
    refine ⟨?_, ?_⟩
    · rw [rekeyed_concat, depositAnswers_concat, depositAnswers_concat, hr, hr', h.answers]
      rfl
    · rw [rekeyed_concat, serve_append, serve_append]
      exact h.agree.checkout hr _
  | true =>
    have hsame : r.withClientKey (fresh rs.length) = r := by
      cases r with
      | checkout => cases hr
      | deposit => rfl
    obtain ⟨hanswer, hagree⟩ := h.agree.deposit (hfresh hr) (hkey hr)
    refine ⟨?_, ?_⟩
    · rw [rekeyed_concat, hsame, depositAnswers_concat, depositAnswers_concat, h.answers, hanswer]
    · rw [rekeyed_concat, hsame, serve_append, serve_append]
      exact hagree

/-- **The keys of clients do not reach the deposit operations**: as long as no deposit operation
is sent under the key of an earlier checkout, the provider of a run answers the deposit
operations as it would if every checkout had been sent under a fresh key. -/
theorem client_keys_harmless (hthreads : s₀.threads = []) (hi : Initial s₀.store)
    (h : Traces (Calls sha256) (fun ev σ => keysApart ev σ = true) s₀ evs s)
    (fresh : Nat → String)
    (hfresh : ∀ i, ∀ r ∈ requests evs, r.isDeposit = true → fresh i ≠ r.idempotencyKey) :
    s.store.2.provider = serve sha256 .empty (requests evs) ∧
      depositAnswers sha256 (requests evs) =
        depositAnswers sha256 (rekeyed fresh (requests evs)) := by
  refine ⟨provider_of_traces hthreads hi h, KeysHarmless.answers ?_⟩
  induction h with
  | refl => exact ⟨rfl, fun _ _ _ => rfl⟩
  | @step evs s s' m h hm hf ih =>
    rw [requests_append] at hfresh ⊢
    have hold := ih fun i r hr => hfresh i r (List.mem_append_left _ hr)
    have hprovider := provider_of_traces hthreads hi h
    cases m with
    | start p => simpa [State.eventsOf, requests] using hold
    | crash i => simpa [State.eventsOf, requests] using hold
    | run i =>
      cases hev : s.event i with
      | none => simpa [State.eventsOf, hev, requests] using hold
      | some ev =>
        have hok := hm ev hev
        cases hreq : ev.request with
        | none => simpa [State.eventsOf, hev, requests, hreq] using hold
        | some r =>
          have hone : requests (s.eventsOf (.run i)) = [r] := by
            simp [State.eventsOf, hev, requests, hreq]
          rw [hone] at hfresh ⊢
          refine hold.concat (fun hr i => hfresh i r (by simp) hr) fun hr stored hstored => ?_
          rw [← hprovider] at hstored
          cases ev with
          | provider id request =>
            obtain rfl := Option.some.inj hreq
            cases request with
            | checkout => cases hr
            | deposit key depositId kind amountMinor outcome =>
              simp only [keysApart, Option.all_eq_true] at hok
              exact hok stored hstored
          | _ => cases hreq

namespace Scenario

abbrev keysApartIn (ev : Event) (σ : Store) : Prop := keysApart ev σ = true

/-- A paid deal; the borrower chose the key of the checkout. -/
def paidUnder (key : String) : List Line :=
  [.call (create 1 10 "r1"), .run 0 15, .call (.confirmBooking 2 10 start), .run 1 12,
    .call (.checkout env 1 10 .success key 20 start start), .run 2 10]

theorem client_keys_harmless_paid :
    requests (observe keysApartIn hash state (paidUnder "pay-1")) =
        [.checkout "pay-1" 10 35000 .success, .deposit "deposit:10:hold" 10 .hold 5000 .success] ∧
      (play keysApartIn hash state (paidUnder "pay-1")).store.2.provider =
        serve hash .empty (requests (observe keysApartIn hash state (paidUnder "pay-1"))) ∧
      depositAnswers hash (requests (observe keysApartIn hash state (paidUnder "pay-1"))) =
        depositAnswers hash (rekeyed (fun _ => "fresh")
          (requests (observe keysApartIn hash state (paidUnder "pay-1")))) := by
  have hrequests : requests (observe keysApartIn hash state (paidUnder "pay-1")) =
      [.checkout "pay-1" 10 35000 .success,
        .deposit "deposit:10:hold" 10 .hold 5000 .success] := by decide +kernel
  have htraces : Traces (Calls hash) keysApartIn state
      (observe keysApartIn hash state (paidUnder "pay-1"))
      (play keysApartIn hash state (paidUnder "pay-1")) := traces_observe _
  refine ⟨hrequests, client_keys_harmless rfl initial htraces (fun _ => "fresh") ?_⟩
  rw [hrequests]
  intro _
  decide +kernel

/-- The borrower sends the checkout under the key of the hold. -/
theorem client_keys_collide :
    Traces (Calls hash) anyEvent state (observe anyEvent hash state (paidUnder "deposit:10:hold"))
        (play anyEvent hash state (paidUnder "deposit:10:hold")) ∧
      (∀ r ∈ requests (observe anyEvent hash state (paidUnder "deposit:10:hold")),
        r.isDeposit = true → "fresh" ≠ r.idempotencyKey) ∧
      depositAnswers hash (requests (observe anyEvent hash state (paidUnder "deposit:10:hold"))) ≠
        depositAnswers hash (rekeyed (fun _ => "fresh")
          (requests (observe anyEvent hash state (paidUnder "deposit:10:hold")))) := by
  have hrequests : requests (observe anyEvent hash state (paidUnder "deposit:10:hold")) =
      [.checkout "deposit:10:hold" 10 35000 .success,
        .deposit "deposit:10:hold" 10 .hold 5000 .success] := by decide +kernel
  refine ⟨traces_observe _, ?_, fun heq => ?_⟩
  · rw [hrequests]
    decide +kernel
  · have hok := congrArg (List.map fun answer => answer.2.isOk) heq
    rw [hrequests] at hok
    revert hok
    decide +kernel

end Scenario

end Sosedi
