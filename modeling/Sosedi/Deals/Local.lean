import Sosedi.Deals.Frames

/-!
# Programs that work on one locked deal

`Local k d g ..` says that a client holds the lock of booking `k`, that the deal there is `d`
up to leases, and that the client's uncommitted writes amount to `g` on that deal.

Proved here: `Local` survives interference, what a client then reads, and one rule for each
statement of the services (`Local.onDeal`, `Local.createOutbox`, `Local.commit`, ..), among
them `completeBookingAfterReturnInTransaction`.
-/

namespace Sosedi

open Transactions

namespace Deal

variable {f g : Deal → Deal}

theorem Blind.comp (hf : Blind f) (hg : Blind g) : Blind fun d => f (g d) :=
  fun d d' h => hf _ _ (hg d d' h)

/-- An update that commutes with forgetting. -/
theorem Blind.of_comm (h : ∀ d, (f d).forget = f d.forget) : Blind f := by
  intro d d' he
  rw [h, h, he]

theorem blind_updateBooking (f : Booking → Booking) : Blind (updateBooking f) :=
  .of_comm fun _ => rfl

theorem blind_setStatus (status : BookingStatus) : Blind (setStatus status) :=
  blind_updateBooking _

theorem blind_cancelBooking (reason : CancellationReason) : Blind (cancelBooking reason) :=
  blind_updateBooking _

theorem blind_updateDeposit (f : BookingDeposit → BookingDeposit) : Blind (updateDeposit f) :=
  .of_comm fun _ => rfl

theorem blind_setDepositStatus (status : DepositStatus) : Blind (setDepositStatus status) :=
  blind_updateDeposit _

theorem blind_updateDispute (f : FinancialDispute → FinancialDispute) : Blind (updateDispute f) :=
  .of_comm fun _ => rfl

theorem blind_setDispute (dispute : Option FinancialDispute) :
    Blind ({ · with dispute := dispute }) := .of_comm fun _ => rfl

theorem blind_setPayment (payment : Option Payment) : Blind ({ · with payment := payment }) :=
  .of_comm fun _ => rfl

theorem blind_modifyAct (stage : BookingActStage) (f : Option BookingAct → Option BookingAct) :
    Blind fun d => d.setAct stage (f (d.act stage)) :=
  .of_comm fun _ => by cases stage <;> rfl

theorem blind_addMessage (body : String) : Blind (addMessage body) := .of_comm fun _ => rfl

theorem blind_addTransition (row : BookingTransition) : Blind (addTransition row) :=
  .of_comm fun _ => rfl

theorem blind_addOutbox (eventType : BookingEventType) : Blind (addOutbox eventType) :=
  .of_comm fun _ => rfl

theorem blind_addAudit (entry : AuditEntry) : Blind (addAudit entry) := .of_comm fun _ => rfl

theorem blind_createOperation (id : Id) (operation : DepositOperation) :
    Blind (createOperation id operation) := by
  intro d d' h
  have hops := congrArg Deal.operations h
  have h' := h
  simp only [forget, mk.injEq] at h' ⊢
  simp only [forget] at hops
  simp only [createOperation, Table.map_insert, hops, h', and_self]

/-- An update of one operation that does not look at its lease. -/
theorem blind_updateOperation (id : Id) {f : DepositOperation → DepositOperation}
    (hf : ∀ op, (f op).forget = (f op.forget).forget) : Blind (updateOperation id f) := by
  intro d d' h
  have hops := congrArg Deal.operations h
  have h' := h
  simp only [forget, mk.injEq] at h' ⊢
  simp only [forget] at hops
  simp only [updateOperation, h', true_and, and_true]
  rw [Table.map_modify _ _ _ _ (fun op => (f op).forget) hf,
    Table.map_modify _ _ _ _ (fun op => (f op).forget) hf, hops]

end Deal

theorem Database.modifyDeal_modifyDeal (db : Database) (k : Id) (f g : Deal → Deal) :
    (db.modifyDeal k f).modifyDeal k g = db.modifyDeal k fun d => g (f d) := by
  simp only [modifyDeal, Table.modify, Table.mapRows_mapRows]
  congr 2
  funext k' d
  by_cases h : k' = k <;> simp [h]

theorem Database.modifyDeal_congr {db : Database} {k : Id} {x : Deal} {f g : Deal → Deal}
    (hx : db.deals.get k = some x) (h : f x = g x) : db.modifyDeal k f = db.modifyDeal k g := by
  simp only [modifyDeal, Table.modify]
  congr 1
  refine Table.mapRows_congr fun k' d hd => ?_
  by_cases hk : k' = k
  · subst hk
    rw [hx, Option.some.injEq] at hd
    simp [← hd, h]
  · simp [hk]

@[simp] theorem Database.get_modifyDeal (db : Database) (k : Id) (f : Deal → Deal) :
    (db.modifyDeal k f).deals.get k = (db.deals.get k).map f := Table.get_modify_self ..

theorem Action.Fresh.congr {d d' : Deal} {id : Id} {key : OperationKey}
    (h : d.forget = d'.forget) (hf : Action.Fresh d id key) : Action.Fresh d' id key where
  id := by simpa [hf.id] using Deal.isSome_of_forget h id
  key := by rw [← Deal.hasOperationKey_of_forget h, hf.key]

/-- What is new after an insert was new before. -/
theorem Action.Fresh.of_createOperation {d : Deal} {id id' : Id} {op : DepositOperation}
    {key : OperationKey} (hf : Action.Fresh (d.createOperation id' op) id key) :
    Action.Fresh d id key ∧ (d.operations.get id' = none → id ≠ id') := by
  refine ⟨⟨?_, ?_⟩, ?_⟩
  · cases h : d.operations.get id with
    | none => rfl
    | some r =>
      have := Table.get_insert_of_get (k := id') (r := op) h
      rw [show (d.operations.insert id' op).get id = none from hf.id] at this
      cases this
  · have hkey := hf.key
    simp only [Deal.hasOperationKey, Table.any_eq_false] at hkey ⊢
    exact fun o r hr => hkey o r (Table.get_insert_of_get hr)
  · rintro hn rfl
    have := Table.get_insert_self op hn
    rw [show (d.operations.insert id op).get id = none from hf.id] at this
    cases this

/-- A client at work on the deal `k` alone, with the locks `ks`. -/
structure Local (k : Id) (d : Deal) (g : Deal → Deal) (ks L : List LockKey)
    (ω : List (Database → Database)) (σ : Store) : Prop where
  lock : .booking k ∈ L
  locks : ∀ key ∈ ks, key ∈ L
  paid : ¬d.Unpaid
  kept : Kept k d σ
  writes : ∀ db x, db.deals.get k = some x → x.forget = d.forget →
    view ω db = db.modifyDeal k g
  blind : ∀ x, x.forget = d.forget → (g x).forget = (g d).forget

namespace Local

variable {sha256 : Bytes → String} {ok : Event → Store → Prop} {k : Id} {d : Deal}
  {f g : Deal → Deal} {ks L : List LockKey} {ω : List (Database → Database)} {σ σ' : Store}

theorem interference (h : Local k d g ks L ω σ)
    (hi : (contract sha256 ok).Interference L σ σ') : Local k d g ks L ω σ' :=
  { h with kept := interference_keeps (fun _ _ => Other.kept h.lock h.paid) hi h.kept }

/-- A deal found under its lock, before any write. -/
theorem start (hL : .booking k ∈ L) (hd : σ.1.deals.get k = some d) (hp : ¬d.Unpaid) :
    Local k d id [] L [] σ where
  lock := hL
  locks := by simp
  paid := hp
  kept := ⟨d, hd, rfl⟩
  writes := by
    intro db x hx _
    rw [Database.modifyDeal_congr hx (f := id) (g := fun d => d) rfl]
    simp [Database.modifyDeal, Table.modify]
  blind := fun x h => h

theorem get (h : Local k d g ks L ω σ) : ∃ x, σ.1.deals.get k = some x ∧
    x.forget = d.forget ∧ (view ω σ.1).deals.get k = some (g x) ∧
      (g x).forget = (g d).forget := by
  obtain ⟨x, hx, he⟩ := h.kept
  refine ⟨x, hx, he, ?_, h.blind x he⟩
  rw [h.writes _ x hx he, Database.get_modifyDeal, hx]
  rfl

/-! ## Reads -/

theorem booking (h : Local k d g ks L ω σ) : (view ω σ.1).booking k = some (g d).booking := by
  obtain ⟨x, -, -, hg, he⟩ := h.get
  rw [Database.booking, hg, Option.map_some, Deal.booking_of_forget he]

theorem deposit (h : Local k d g ks L ω σ) : (view ω σ.1).deposit k = (g d).deposit := by
  obtain ⟨x, -, -, hg, he⟩ := h.get
  rw [Database.deposit, hg, Option.bind_some, Deal.deposit_of_forget he]

theorem dispute (h : Local k d g ks L ω σ) : (view ω σ.1).dispute k = (g d).dispute := by
  obtain ⟨x, -, -, hg, he⟩ := h.get
  rw [Database.dispute, hg, Option.bind_some, Deal.dispute_of_forget he]

theorem payment (h : Local k d g ks L ω σ) : (view ω σ.1).payment k = (g d).payment := by
  obtain ⟨x, -, -, hg, he⟩ := h.get
  rw [Database.payment, hg, Option.bind_some, Deal.payment_of_forget he]

theorem act (h : Local k d g ks L ω σ) (stage : BookingActStage) :
    (view ω σ.1).act k stage = (g d).act stage := by
  obtain ⟨x, -, -, hg, he⟩ := h.get
  rw [Database.act, hg, Option.bind_some, Deal.act_of_forget he]

theorem outboxTaken (h : Local k d g ks L ω σ) (eventType : BookingEventType) :
    (view ω σ.1).outboxTaken k eventType = (g d).outbox.contains eventType := by
  obtain ⟨x, -, -, hg, he⟩ := h.get
  rw [Database.outboxTaken, hg, Option.any_some, Deal.outbox_of_forget he]

theorem operation (h : Local k d g ks L ω σ) (o : Id) :
    ((view ω σ.1).operation k o).map DepositOperation.forget =
      ((g d).operations.get o).map DepositOperation.forget := by
  obtain ⟨x, -, -, hg, he⟩ := h.get
  rw [Database.operation, hg, Option.bind_some, Deal.operations_of_forget he]

theorem operationTaken (h : Local k d g ks L ω σ) (id : Id) (key : OperationKey) :
    (view ω σ.1).operationTaken k id key =
      (((g d).operations.get id).isSome || (g d).hasOperationKey key) := by
  obtain ⟨x, -, -, hg, he⟩ := h.get
  rw [Database.operationTaken, hg, Option.any_some, Deal.isSome_of_forget he,
    Deal.hasOperationKey_of_forget he]

/-- A property of the operations that does not look at leases. -/
theorem any_operations (h : Local k d g ks L ω σ) {p : Id → DepositOperation → Bool}
    (hp : ∀ o op, p o op = p o op.forget) :
    (((view ω σ.1).deals.get k).any fun d => d.operations.any p) = (g d).operations.any p := by
  obtain ⟨x, -, -, hg, he⟩ := h.get
  rw [hg, Option.any_some, Deal.any_of_forget he hp]

/-! ## Writes -/

theorem push (h : Local k d g ks L ω σ) (rows : List LockKey) (hf : Deal.Blind f) :
    Local k d (fun x => f (g x)) (rows ++ ks) (rows ++ L) (ω ++ [Database.modifyDeal k f]) σ where
  lock := List.mem_append_right _ h.lock
  locks := by
    intro key hkey
    rcases List.mem_append.mp hkey with hkey | hkey
    · exact List.mem_append_left _ hkey
    · exact List.mem_append_right _ (h.locks key hkey)
  paid := h.paid
  kept := h.kept
  writes := by
    intro db x hx he
    rw [view_append, view_cons, view_nil, h.writes db x hx he, Database.modifyDeal_modifyDeal]
  blind := fun x hx => hf _ _ (h.blind x hx)

/-- A statement that matched no row. -/
theorem push_id (h : Local k d g ks L ω σ) (rows : List LockKey) :
    Local k d g ks (rows ++ L) (ω ++ [id]) σ :=
  { h with
    lock := List.mem_append_right _ h.lock
    locks := fun key hkey => List.mem_append_right _ (h.locks key hkey)
    writes := by
      intro db x hx he
      rw [view_append, view_cons, view_nil, h.writes db x hx he]
      rfl }

/-- Another description of the same writes. -/
theorem congr {g' : Deal → Deal} (h : Local k d g ks L ω σ)
    (hg : ∀ x, x.forget = d.forget → g x = g' x) : Local k d g' ks L ω σ :=
  { h with
    writes := fun db x hx he => by
      rw [h.writes db x hx he, Database.modifyDeal_congr hx (hg x he)]
    blind := fun x hx => by rw [← hg x hx, ← hg d rfl, h.blind x hx] }

/-- The same with fewer locks. -/
theorem drop {ks' : List LockKey} (h : Local k d g ks L ω σ) (hks : ∀ key ∈ ks', key ∈ ks) :
    Local k d g ks' L ω σ :=
  { h with locks := fun key hkey => h.locks key (hks key hkey) }

variable {Q : Unit → List LockKey → List (Database → Database) → Store → Prop}

theorem onDeal (h : Local k d g ks L ω σ) {rows : List LockKey} (hf : Deal.Blind f)
    (hQ : ∀ L ω σ, Local k d (fun x => f (g x)) (rows ++ ks) L ω σ → Q () L ω σ) :
    wp (contract sha256 ok) (Sosedi.onDeal rows k f) Q L ω σ := by
  intro σ' hi _
  exact hQ _ _ _ ((h.interference hi).push rows hf)

/-- An UPDATE of one deal with a WHERE clause. -/
theorem updateWhere {Q : Bool → List LockKey → List (Database → Database) → Store → Prop}
    (h : Local k d g ks L ω σ) {row : LockKey} {cond : Database → Bool} (hf : Deal.Blind f)
    (hmatch : ∀ L ω σ, Local k d (fun x => f (g x)) (row :: ks) L ω σ → Q true L ω σ)
    (hmiss : ∀ L ω σ, Local k d g ks L ω σ → Q false L ω σ) :
    wp (contract sha256 ok) (Transactions.updateWhere row cond (Database.modifyDeal k f)) Q
      L ω σ := by
  intro σ' hi _
  have h' := h.interference hi
  show Q (cond (view ω σ'.1)) ((if cond (view ω σ'.1) then [row] else []) ++ L)
    (ω ++ [if cond (view ω σ'.1) then Database.modifyDeal k f else id]) σ'
  cases cond (view ω σ'.1) with
  | true => exact hmatch _ _ _ (h'.push [row] hf)
  | false => exact hmiss _ _ _ (h'.push_id [])

theorem createOutbox (h : Local k d g ks L ω σ) {eventType : BookingEventType}
    (hQ : ∀ L ω σ, Local k d (fun x => (g x).addOutbox eventType) ks L ω σ → Q () L ω σ) :
    wp (contract sha256 ok) (Sosedi.createOutbox k eventType) Q L ω σ := by
  rw [Sosedi.createOutbox, wp_insertUnique]
  intro σ' hi _ _
  exact hQ _ _ _ (((h.interference hi).push [.outboxKey k eventType]
    (Deal.blind_addOutbox eventType)).drop (by simp +contextual))

theorem createOperation (h : Local k d g ks L ω σ) {id : Id} {operation : DepositOperation}
    (hQ : Action.Fresh (g d) id operation.idempotencyKey → ∀ L ω σ,
      Local k d (fun x => (g x).createOperation id operation) ks L ω σ → Q () L ω σ) :
    wp (contract sha256 ok) (Sosedi.createOperation k id operation) Q L ω σ := by
  rw [Sosedi.createOperation, wp_insertUnique]
  intro σ' hi _ htaken
  replace h := h.interference hi
  rw [h.operationTaken, Bool.or_eq_false_iff] at htaken
  refine hQ ⟨?_, htaken.2⟩ _ _ _ ((h.push _ (Deal.blind_createOperation id operation)).drop
    fun key hkey => List.mem_append_right _ hkey)
  simpa using htaken.1

/-! ## Completion -/

theorem complete {Q : Nat → List LockKey → List (Database → Database) → Store → Prop}
    (h : Local k d g ks L ω σ) {now : Time} {trigger : BookingCompletionTrigger}
    (hQ : ∀ c, completionCheck trigger now (g d).booking (g d).deposit (g d).dispute = .ok c →
      ∀ L ω σ, Local k d (fun x => (g x).completeAfterReturn trigger now) ks L ω σ →
        Q c.toNat L ω σ) :
    wp (contract sha256 ok) (completeBookingAfterReturnInTransaction k now trigger) Q L ω σ := by
  simp only [completeBookingAfterReturnInTransaction, Prog.bind_eq, wp_bind, wp_select]
  intro σ₁ hi₁ _
  have h₁ := h.interference hi₁
  simp only [h₁.booking, wp_bind, wp_select, wp_lift]
  intro σ₂ hi₂ _ σ₃ hi₃ _ c hc
  have h₂ := h₁.interference hi₂
  have h₃ := h₂.interference hi₃
  rw [h₂.deposit, h₃.dispute] at hc
  have hsame : ∀ x, x.forget = d.forget →
      completionCheck trigger now (g x).booking (g x).deposit (g x).dispute = .ok c := by
    intro x hx
    have hg := h.blind x hx
    rw [Deal.booking_of_forget hg, Deal.deposit_of_forget hg, Deal.dispute_of_forget hg, hc]
  cases c with
  | false =>
    refine hQ false hc _ _ _ (h₃.congr fun x hx => ?_)
    simp [Deal.completeAfterReturn, hsame x hx]
  | true =>
    have hreturned : (g d).booking.status = .returned := by
      by_contra hne
      simp [completionCheck, hne] at hc
    simp only [if_true, wp_bind, wp_updateWhere]
    intro σ₄ hi₄ _
    have h₄ := h₃.interference hi₄
    simp only [h₄.booking, Option.any_some, hreturned, beq_self_eq_true, if_true, wp_bind]
    refine (h₄.push [.bookingRow k] (Deal.blind_setStatus .completed)).onDeal
      (Deal.blind_addTransition _) fun L₅ ω₅ σ₅ h₅ => ?_
    refine h₅.createOutbox fun L₆ ω₆ σ₆ h₆ => ?_
    refine hQ true hc _ _ _ ((h₆.congr fun x hx => ?_).drop (by simp +contextual))
    simp only [Deal.completeAfterReturn, hsame x hx]

end Local

/-! ## Steps that change nothing -/

variable {sha256 : Bytes → String} {ok : Event → Store → Prop} {k : Id} {d : Deal}
  {g : Deal → Deal} {ks K L : List LockKey} {ω : List (Database → Database)} {σ : Store}

theorem movesDeals_idle {ev : Event} (h : ∀ k, ev.move k = .idle) {a b : Store}
    (hb : b.1.deals = a.1.deals) : MovesDeals ev K a b := by
  refine ⟨?_, fun k d _ => ?_⟩
  · simp only [h, DealMove.apply, Table.mapRows_id, hb]
  · simp [h, DealMove.guard, DealMove.keys]

/-- A step that moves one deal. -/
theorem movesDeals_one {ev : Event} {a b : Store} (hmove : ∀ k', k' ≠ k → ev.move k' = .idle)
    (hb : b.1.deals = a.1.deals.modify k ((ev.move k).apply k))
    (hg : ∀ d, a.1.deals.get k = some d → (ev.move k).guard k d a.2 ∧
      ∀ key ∈ (ev.move k).keys k d, key ∈ K) : MovesDeals ev K a b := by
  refine ⟨hb.trans (Table.mapRows_congr fun k' d _ => ?_), fun k' d hd => ?_⟩
  · by_cases hk : k' = k
    · subst hk
      simp
    · simp [hk, hmove k' hk, DealMove.apply]
  · by_cases hk : k' = k
    · subst hk
      exact hg d hd
    · simp [hmove k' hk, DealMove.guard, DealMove.keys]

theorem guar_noop (a : Store) : Guar sha256 .noop K a a where
  deals := movesDeals_idle (fun _ => rfl) rfl
  calendar := rfl
  checkout := trivial
  uploads := ⟨rfl, rfl, trivial, by simp [Event.uploadKeys, Event.consumed, Event.rowKeys]⟩
  accounts := .of_same trivial (.refl _)

/-- A call that only reads the world. -/
theorem wp_call_noop {α : Type} {out : World → α}
    {Q : α → List LockKey → List (Database → Database) → Store → Prop}
    (hQ : ∀ σ', (contract sha256 ok).Interference L σ σ' → Inv sha256 σ' →
      Q (out σ'.2) L ω σ') :
    wp (contract sha256 ok) (call .noop id out) Q L ω σ :=
  fun σ' hi hv _ => ⟨guar_noop σ', hQ σ' hi hv⟩

theorem wp_commit_noop {Q : Unit → List LockKey → List (Database → Database) → Store → Prop}
    (hω : ∀ σ', (contract sha256 ok).Interference L σ σ' → view ω σ'.1 = σ'.1)
    (hQ : ∀ σ', Q () [] [] σ') : wp (contract sha256 ok) (commit .noop) Q L ω σ := by
  intro σ' hi _ _
  rw [hω σ' hi]
  exact ⟨guar_noop σ', hQ σ'⟩

/-- A request to the provider. -/
theorem wp_callProvider {id : Id} {request : ProviderRequest}
    {Q : Except Error ProviderOperationResult → List LockKey → List (Database → Database) →
      Store → Prop}
    (hg : ∀ σ', (contract sha256 ok).Interference L σ σ' →
      CheckoutGuard L σ' (.provider id request))
    (hQ : ∀ σ' w, (contract sha256 ok).Interference L σ σ' →
      w = Event.applyWorld sha256 (.provider id request) σ'.2 →
      Q (FakeSafeDealProvider.execute sha256 σ'.2.provider request).1 L ω (σ'.1, w)) :
    wp (contract sha256 ok) (callProvider sha256 id request) Q L ω σ := by
  intro σ' hi _ _
  refine ⟨⟨movesDeals_idle (fun _ => rfl) rfl, rfl, hg σ' hi, ⟨rfl, rfl, trivial, ?_⟩,
    .of_same trivial (.refl _)⟩, ?_⟩
  · simp [Event.uploadKeys, Event.consumed, Event.rowKeys]
  · exact hQ σ' _ hi rfl

namespace Local

variable {Q : Unit → List LockKey → List (Database → Database) → Store → Prop}

theorem world (h : Local k d g ks L ω σ) (w : World) : Local k d g ks L ω (σ.1, w) :=
  { h with kept := h.kept }

/-- A commit that writes nothing leaves the deal that is there. -/
theorem commit_nothing (h : Local k d g ks L ω σ) (hg : ∀ x, x.forget = d.forget → g x = x)
    (hQ : ∀ x σ', x.forget = d.forget → σ'.1.deals.get k = some x → Q () [] [] σ') :
    wp (contract sha256 ok) (Transactions.commit .noop) Q L ω σ := by
  intro σ' hi _ _
  obtain ⟨x, hx, he⟩ := (h.interference hi).kept
  have hview : view ω σ'.1 = σ'.1 := by
    rw [h.writes _ x hx he, Database.modifyDeal_congr hx (g := fun x => x) (hg x he)]
    simp [Database.modifyDeal, Table.modify]
  rw [hview]
  exact ⟨guar_noop σ', hQ x σ' he hx⟩

theorem commit_noop (h : Local k d g ks L ω σ) (hg : ∀ x, x.forget = d.forget → g x = x)
    (hQ : ∀ σ', Q () [] [] σ') : wp (contract sha256 ok) (Transactions.commit .noop) Q L ω σ :=
  h.commit_nothing hg fun _ σ' _ _ => hQ σ'

/-- The locks of an action, but for that of its booking. -/
def rowsOf (k : Id) (action : Action) : List LockKey :=
  (if action.writesBooking then [.bookingRow k] else []) ++
    (action.operationId.map (.operationRow k)).toList

/-- **Commit**: the writes amount to the action, and the deal satisfies its guard. -/
theorem commit_action (h : Local k d g ks L ω σ) {action : Action}
    (happly : ∀ x, x.forget = d.forget → g x = action.apply k x)
    (hguard : ∀ x σ', (contract sha256 ok).Interference L σ σ' → σ'.1.deals.get k = some x →
      x.forget = d.forget → action.guard k x σ'.2)
    (hkeys : ∀ key ∈ rowsOf k action, key ∈ ks)
    (hQ : ∀ x σ', x.forget = d.forget → action.guard k x σ'.2 →
      σ'.1.deals.get k = some (action.apply k x) → Q () [] [] σ') :
    wp (contract sha256 ok) (Transactions.commit (.deal k action)) Q L ω σ := by
  intro σ' hi _ _
  obtain ⟨x, hx, he⟩ := (h.interference hi).kept
  have hview := h.writes σ'.1 x hx he
  rw [Database.modifyDeal_congr hx (happly x he)] at hview
  refine ⟨⟨movesDeals_one (k := k) (fun k' hk => by simp [Event.move, hk]) ?_ ?_, ?_, trivial,
    ⟨?_, rfl, trivial, by simp [Event.uploadKeys, Event.consumed, Event.rowKeys]⟩,
    .of_same trivial ?_⟩, hQ x _ he (hguard x σ' hi hx he) ?_⟩
  · rw [hview]
    simp only [Event.move, if_true]
    rfl
  · intro d' hd'
    rw [hx, Option.some.injEq] at hd'
    subst hd'
    simp only [Event.move, if_true]
    refine ⟨hguard x σ' hi hx he, fun key hkey => ?_⟩
    rcases List.mem_cons.mp hkey with rfl | hkey
    · exact h.lock
    · exact h.locks key (hkeys key hkey)
  · show (view ω σ'.1).periods = σ'.1.periods
    rw [hview]
    rfl
  · rw [hview]
    rfl
  · rw [hview]
    exact ⟨rfl, rfl, rfl⟩
  · show (view ω σ'.1).deals.get k = some (action.apply k x)
    rw [hview, Database.get_modifyDeal, hx]
    rfl

theorem commit (h : Local k d g ks L ω σ) {action : Action}
    (happly : ∀ x, x.forget = d.forget → g x = action.apply k x)
    (hguard : ∀ x σ', (contract sha256 ok).Interference L σ σ' → σ'.1.deals.get k = some x →
      x.forget = d.forget → action.guard k x σ'.2)
    (hkeys : ∀ key ∈ rowsOf k action, key ∈ ks) (hQ : ∀ σ', Q () [] [] σ') :
    wp (contract sha256 ok) (Transactions.commit (.deal k action)) Q L ω σ :=
  h.commit_action happly hguard hkeys fun _ σ' _ _ _ => hQ σ'

end Local

end Sosedi
