import Sosedi.Notifications.NotifySafety
import Sosedi.Transactions.Observers

/-!
# The runs of notifications

Runs start from empty tables; the bookings and tickets, and the clock, are arbitrary.

Proved here:

* `NotifyRuns.inv`, `NotifyRuns.step`: the invariant holds in every state of a run, and a move
  leaves the store alone or is a step of the contract;
* `NotifyRuns.justified`: what a fan-out, a request to a provider and the removal of a token
  rest on was read, or answered, earlier in the run.
-/

namespace Sosedi

open Transactions

/-! ## Runs -/

/-- Nothing has been queued, registered or delivered yet. -/
structure NotifyInitial (σ : NotifyStore) : Prop where
  outbox : σ.1.outbox = .empty
  inbox : σ.1.inbox = .empty
  inboxInserts : σ.1.inboxInserts = []
  tokens : σ.1.tokens = .empty
  issuedTokenIds : σ.1.issuedTokenIds = []
  deliveries : σ.1.deliveries = .empty
  deliveryInserts : σ.1.deliveryInserts = []

theorem NotifyInitial.inv {σ : NotifyStore} (h : NotifyInitial σ) : NotifyInv σ.1 := by
  constructor <;> simp [h.outbox, h.inbox, h.inboxInserts, h.tokens, h.deliveries,
    h.deliveryInserts]

/-- A run of notifications from an initial store with no client in flight. -/
structure NotifyRuns (s₀ s : State NotifySys) : Prop where
  threads : s₀.threads = []
  initial : NotifyInitial s₀.store
  reaches : Reaches NotifyCalls (fun _ _ => True) s₀ s

namespace NotifyRuns

variable {s₀ s s' : State NotifySys}

theorem refl (h : s₀.threads = []) (hi : NotifyInitial s₀.store) : NotifyRuns s₀ s₀ :=
  ⟨h, hi, .refl⟩

theorem sound (h : NotifyRuns s₀ s) : Sound (notifyContract fun _ _ => True) s :=
  Transactions.sound (C := notifyContract fun _ _ => True) (fun _ => keeps_notifyCalls)
    notify_preserved h.threads h.initial.inv h.reaches

theorem inv (h : NotifyRuns s₀ s) : NotifyInv s.db := h.sound.inv

theorem trans (h : NotifyRuns s₀ s) (hr : Reaches NotifyCalls (fun _ _ => True) s s') :
    NotifyRuns s₀ s' := ⟨h.threads, h.initial, h.reaches.trans hr⟩

/-- A move leaves the store alone or is a step of the contract. -/
theorem step (h : NotifyRuns s₀ s) {m : Move NotifySys}
    (hm : s.Admits NotifyCalls (fun _ _ => True) m) (hf : s.fire m = some s') :
    s'.store = s.store ∨ ∃ (ev : NotifyEvent) (K : List NotifyKey),
      s'.store = ev.apply s.store ∧ ev.Guard K s.db := by
  rcases reaches_fire (C := notifyContract fun _ _ => True) (fun _ => keeps_notifyCalls)
    notify_preserved h.threads h.initial.inv h.reaches hm hf with he | ⟨K, -, ev, -, hb, hg⟩
  · exact Or.inl he
  · exact Or.inr ⟨ev, K, hb, hg⟩

/-- The next commit or call of a client is the step of its event. -/
theorem guar (h : NotifyRuns s₀ s) {i : Nat} {ev : NotifyEvent} (hev : s.event i = some ev)
    (hf : s.fire (.run i) = some s') :
    s'.store = ev.apply s.store ∧ ∃ K : List NotifyKey, ev.Guard K s.db := by
  obtain ⟨K, hb, hg⟩ := h.sound.guar hev trivial hf
  exact ⟨hb, K, hg⟩

/-- What every step keeps, from a state of the run on. -/
theorem later {P : NotifyStore → Prop} (h : NotifyRuns s₀ s)
    (hr : Reaches NotifyCalls (fun _ _ => True) s s')
    (hP : Persists (notifyContract fun _ _ => True) P) (hs : P s.store) : P s'.store := by
  induction hr with
  | refl => exact hs
  | step m hr hm hf ih =>
    rcases reaches_fire (C := notifyContract fun _ _ => True) (fun _ => keeps_notifyCalls)
      notify_preserved h.threads h.initial.inv (h.trans hr).reaches hm hf with he | ⟨K, hstep⟩
    · rw [he]
      exact ih
    · exact hP K _ _ hstep ih

end NotifyRuns

/-! ## What a client has found -/

/-- What an event rests on. -/
def NotifyEvent.Justified (past : Past NotifySys) : NotifyEvent → Prop
  | fanOut eventId event recipientIds _ began _ _ _ => ∃ db, past.reads db ∧
    BookingOutboxProcessor.findEvent eventId db = some (event, recipientIds, began)
  | send id token => ∃ db, past.reads db ∧ ∃ delivery,
    PushDeliveryProcessor.findDelivery id db = some (delivery, token)
  | dropToken id token => past.events (.answer id token (some .invalidToken)) ∧
    past.events (.send id token)
  | _ => True

/-- The past of each client, which justifies its events. -/
def notifyPast : Observer NotifySys (Past NotifySys) :=
  .past fun past (ev : NotifyEvent) => ev.Justified past

/-- Between the transactions of a call nothing is uncommitted. -/
private def Clean (_ : Past NotifySys) (ω : List (NotifyDatabase → NotifyDatabase)) : Prop :=
  ω = []

section Follows

variable {φ : Past NotifySys}

private theorem justified_outbox (eventId : Id) (dbNow : Time) :
    (BookingOutboxProcessor.deliver eventId dbNow).Follows
      notifyPast (fun _ => Clean) φ [] := by
  simp only [BookingOutboxProcessor.deliver, Prog.bind_eq, follows_bind, follows_select, view_nil]
  intro db
  cases hfound : BookingOutboxProcessor.findEvent eventId db with
  | none => exact ⟨trivial, rfl⟩
  | some found =>
    obtain ⟨event, recipientIds, began⟩ := found
    simp only [BookingOutboxProcessor.createDeliveries, notifyClock, follows_bind, follows_lift,
      follows_write, follows_select, follows_updateWhere, follows_call, follows_commit]
    intro _ _ db₁ db₂
    refine follows_insertUnique _ _ _ _ fun db₃ _ => ⟨trivial, fun w db₄ => ⟨?_, rfl⟩⟩
    exact ⟨db, Or.inl (Or.inl (Or.inl (Or.inl (Or.inr rfl)))), hfound⟩

private theorem justified_push (answer : DeliveryId → Option PushDeliveryOutcome)
    (id : DeliveryId) (now : Time) :
    (PushDeliveryProcessor.deliver answer id now).Follows
      notifyPast (fun _ => Clean) φ [] := by
  simp only [PushDeliveryProcessor.deliver, Prog.bind_eq, follows_bind, follows_updateWhere,
    view_nil, List.nil_append]
  intro db
  by_cases hclaim : (db.deliveries.get id).any (PushDeliveryProcessor.claimable now) = true
  · simp only [hclaim, if_true, follows_bind, follows_commit, follows_select, view_nil]
    refine ⟨trivial, fun db₁ => ?_⟩
    cases hfound : PushDeliveryProcessor.findDelivery id db₁ with
    | none => exact rfl
    | some found =>
      obtain ⟨delivery, token⟩ := found
      simp only [follows_bind, follows_call]
      refine ⟨⟨db₁, Or.inr rfl, delivery, hfound⟩, fun _ => ⟨trivial, fun _ => ?_⟩⟩
      cases hanswer : answer id with
      | none => exact fun _ => ⟨trivial, rfl⟩
      | some outcome =>
        cases outcome with
        | delivered => exact fun _ => ⟨trivial, rfl⟩
        | retry => exact fun _ => ⟨trivial, rfl⟩
        | invalidToken =>
          exact fun _ => ⟨⟨Or.inr rfl, Or.inl (Or.inr rfl)⟩, rfl⟩
  · simp only [hclaim]
    exact ⟨trivial, rfl⟩

private theorem justified_register (userId : Id) (installationId : String)
    (dto : DeviceTokensService.RegisterDeviceTokenDto) (newId : Id) :
    (DeviceTokensService.registerOnce userId installationId dto newId).Follows notifyPast
      (fun _ _ _ => True) φ [] := by
  simp only [DeviceTokensService.registerOnce, Prog.bind_eq, follows_bind, follows_select]
  intro db db₁
  simp only [follows_lift]
  intro _ _
  cases (id (view [] db)).findToken
      (DeviceTokensService.ofInstallation userId installationId dto.provider) with
  | some tokenId =>
    intro db₂
    simp only [Prog.bind_eq, follows_bind, follows_lift]
    exact fun _ _ _ _ => ⟨trivial, trivial⟩
  | none =>
    intro db₂
    simp only [Prog.bind_eq, follows_bind, follows_lift]
    exact fun _ _ _ _ _ _ => ⟨trivial, trivial⟩

/-- The events of every call are justified. -/
theorem justified_notifyCalls {p : Prog NotifySys Unit} (h : NotifyCalls p) :
    p.Follows notifyPast (fun _ _ _ => True) notifyPast.start [] := by
  obtain ⟨c, rfl⟩ := h
  cases c with
  | enqueue producer createdAt newId =>
    simp only [NotifyCall.prog, enqueue, Prog.bind_eq, follows_bind]
    exact follows_insertUnique _ _ _ _ fun _ _ => ⟨trivial, trivial⟩
  | processOutbox dbNow =>
    simp only [NotifyCall.prog, BookingOutboxProcessor.processPending, Prog.bind_eq, follows_bind,
      follows_select]
    intro db
    refine follows_mono _ (fun _ _ _ _ => trivial) (follows_forEach (I := Clean) ?_ rfl)
    rintro eventId - φ ω rfl
    rw [follows_bind]
    exact justified_outbox eventId dbNow
  | register isUUID userId installationId dto newId =>
    simp only [NotifyCall.prog, DeviceTokensService.register, Prog.bind_eq, follows_bind,
      follows_lift]
    exact fun _ _ _ _ => justified_register userId installationId dto newId
  | remove userId id => exact fun _ => ⟨trivial, trivial⟩
  | processPushes answer now =>
    simp only [NotifyCall.prog, PushDeliveryProcessor.processPending, Prog.bind_eq, follows_bind,
      follows_select]
    intro db
    refine follows_mono _ (fun _ _ _ _ => trivial) (follows_forEach (I := Clean) ?_ rfl)
    rintro id - φ ω rfl
    rw [follows_bind]
    exact justified_push answer id now
  | tick ms => exact ⟨trivial, fun _ => trivial⟩

end Follows

/-- **What a client does rests on what it has found earlier in the run.** -/
theorem NotifyRuns.justified {s₀ s : State NotifySys} (h : NotifyRuns s₀ s) {i : Nat}
    {ev : NotifyEvent} (hev : s.event i = some ev) :
    ∃ past : Past NotifySys, past.Happened NotifyCalls s₀ s i ∧ ev.Justified past :=
  Reaches.justified (S := NotifySys) (fun _ hp => justified_notifyCalls hp) h.threads h.reaches hev

end Sosedi
