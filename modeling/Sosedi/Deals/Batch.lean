import Sosedi.Deals.Local

/-!
# Programs that rewrite several deals

`Batch B P F ks ..` says that `P` holds of the store as long as the client keeps its locks, and
that its uncommitted writes amount to `F` on every deal and to `B` on the blocks between users.
Where `Local` needs a deal that only claims touch, a batch may speak of requests that others
still cancel.

Proved here: one rule for each statement (`Batch.onDeal`, `Batch.createOutbox`, ..), the loop
that cancels requests (`Batch.cancelRequests`), and `Batch.commit`.
-/

namespace Sosedi

open Transactions

variable {sha256 : Bytes → String} {ok : Event → Store → Prop} {k : Id} {d : Deal}
  {ks K L : List LockKey} {ω : List (Database → Database)} {a b σ σ' : Store}

/-- `db'` is `db` with its deals rewritten by `F` and its blocks by `B`. -/
structure Rewrites (B : List (Id × Id) → List (Id × Id)) (F : Id → Deal → Deal)
    (db db' : Database) : Prop where
  deals : db'.deals = db.deals.mapRows F
  periods : db'.periods = db.periods
  uploads : db'.uploads = db.uploads
  users : db'.users = db.users
  items : db'.items = db.items
  blocks : db'.userBlocks = B db.userBlocks

/-- `f` on the deals of `ids`. -/
def Over (ids : List Id) (f : Deal → Deal) (c : Id) (x : Deal) : Deal :=
  if c ∈ ids then f x else x

theorem Over.of_mem {ids : List Id} {c : Id} (f : Deal → Deal) (x : Deal) (h : c ∈ ids) :
    Over ids f c x = f x := if_pos h

theorem Over.of_not_mem {ids : List Id} {c : Id} (f : Deal → Deal) (x : Deal) (h : c ∉ ids) :
    Over ids f c x = x := if_neg h

@[simp] theorem Over.self (f : Deal → Deal) (c : Id) (x : Deal) : Over [c] f c x = f x := by
  simp [Over]

namespace Rewrites

variable {B : List (Id × Id) → List (Id × Id)} {F G F' : Id → Deal → Deal}
  {db db' db'' : Database}

theorem refl (db : Database) : Rewrites id (fun _ x => x) db db :=
  ⟨(Table.mapRows_id _).symm, rfl, rfl, rfl, rfl, rfl⟩

theorem trans (h : Rewrites B F db db') (h' : Rewrites id G db' db'') :
    Rewrites B (fun c x => G c (F c x)) db db'' where
  deals := by rw [h'.deals, h.deals, Table.mapRows_mapRows]
  periods := h'.periods.trans h.periods
  uploads := h'.uploads.trans h.uploads
  users := h'.users.trans h.users
  items := h'.items.trans h.items
  blocks := h'.blocks.trans h.blocks

theorem congr (h : Rewrites B F db db')
    (hF : ∀ c x, db.deals.get c = some x → F c x = F' c x) : Rewrites B F' db db' :=
  { h with deals := h.deals.trans (Table.mapRows_congr hF) }

theorem get (h : Rewrites B F db db') {c : Id} {x : Deal} (hx : db.deals.get c = some x) :
    db'.deals.get c = some (F c x) := by
  rw [h.deals, Table.get_mapRows, hx]
  rfl

theorem modifyDeals (db : Database) (ids : List Id) (f : Deal → Deal) :
    Rewrites id (Over ids f) db (db.modifyDeals ids f) := ⟨rfl, rfl, rfl, rfl, rfl, rfl⟩

theorem modifyDeal (db : Database) (k : Id) (f : Deal → Deal) :
    Rewrites id (Over [k] f) db (db.modifyDeal k f) := by
  refine ⟨?_, rfl, rfl, rfl, rfl, rfl⟩
  show db.deals.modify k f = _
  rw [Table.modify]
  congr 1
  funext c x
  simp [Over]

end Rewrites

/-- A client whose writes amount to `F`, while `P` holds. -/
structure Batch (sha256 : Bytes → String) (ok : Event → Store → Prop)
    (B : List (Id × Id) → List (Id × Id)) (P : Store → Prop) (F : Id → Deal → Deal)
    (ks L : List LockKey) (ω : List (Database → Database)) (σ : Store) : Prop where
  locks : ∀ key ∈ ks, key ∈ L
  base : Always (contract sha256 ok) L P σ
  writes : Always (contract sha256 ok) L (fun σ => Rewrites B F σ.1 (view ω σ.1)) σ

namespace Batch

variable {B : List (Id × Id) → List (Id × Id)} {P P' : Store → Prop}
  {F G F' : Id → Deal → Deal}

theorem interference (h : Batch sha256 ok B P F ks L ω σ)
    (hi : (contract sha256 ok).Interference L σ σ') : Batch sha256 ok B P F ks L ω σ' :=
  ⟨h.locks, h.base.later hi, h.writes.later hi⟩

/-- Before any write. -/
theorem start (hP : Always (contract sha256 ok) L P σ) (hks : ∀ key ∈ ks, key ∈ L) :
    Batch sha256 ok id P (fun _ x => x) ks L [] σ :=
  ⟨hks, hP, fun σ' _ => Rewrites.refl σ'.1⟩

theorem get (h : Batch sha256 ok B P F ks L ω σ) {c : Id} {x : Deal}
    (hx : σ.1.deals.get c = some x) : (view ω σ.1).deals.get c = some (F c x) :=
  h.writes.now.get hx

theorem push (h : Batch sha256 ok B P F ks L ω σ) (rows : List LockKey) {f : Database → Database}
    (hf : ∀ db, Rewrites id G db (f db)) :
    Batch sha256 ok B P (fun c x => G c (F c x)) (rows ++ ks) (rows ++ L) (ω ++ [f]) σ where
  locks := by
    intro key hkey
    rcases List.mem_append.mp hkey with hkey | hkey
    · exact List.mem_append_left _ hkey
    · exact List.mem_append_right _ (h.locks key hkey)
  base := h.base.grow fun _ => List.mem_append_right _
  writes := by
    refine (h.writes.grow fun _ => List.mem_append_right _).imp fun σ hσ => ?_
    rw [view_append, view_cons, view_nil]
    exact hσ.trans (hf _)

/-- Another description of the same writes. -/
theorem congr (h : Batch sha256 ok B P F ks L ω σ)
    (hF : ∀ σ, P σ → ∀ c x, σ.1.deals.get c = some x → F c x = F' c x) :
    Batch sha256 ok B P F' ks L ω σ :=
  { h with
    writes := fun σ' hi => (h.writes σ' hi).congr (hF σ' (h.base σ' hi)) }

theorem weaken {ks' : List LockKey} (h : Batch sha256 ok B P F ks L ω σ) (hP : ∀ σ, P σ → P' σ)
    (hks : ∀ key ∈ ks', key ∈ ks) : Batch sha256 ok B P' F ks' L ω σ :=
  ⟨fun key hkey => h.locks key (hks key hkey), h.base.imp hP, h.writes⟩

/-- A new fact, which the others keep. -/
theorem assume {R : Store → Prop} (h : Batch sha256 ok B P F ks L ω σ) (hR : R σ)
    (hkeeps : ∀ a b, (contract sha256 ok).Other L a b → P a → R a → R b) :
    Batch sha256 ok B (fun σ => P σ ∧ R σ) F ks L ω σ :=
  { h with base := h.base.and_keeps hR hkeeps }

/-! ## Statements -/

variable {Q : Unit → List LockKey → List (Database → Database) → Store → Prop}
  {f : Deal → Deal}

theorem write (h : Batch sha256 ok B P F ks L ω σ) {rows : List LockKey}
    {f : Database → Database} (hf : ∀ db, Rewrites id G db (f db))
    (hQ : ∀ L ω σ, Batch sha256 ok B P (fun c x => G c (F c x)) (rows ++ ks) L ω σ →
      Q () L ω σ) :
    wp (contract sha256 ok) (Transactions.write rows f) Q L ω σ :=
  fun _ hi _ => hQ _ _ _ ((h.interference hi).push rows hf)

theorem onDeal (h : Batch sha256 ok B P F ks L ω σ) {rows : List LockKey}
    (hQ : ∀ L ω σ, Batch sha256 ok B P (fun c x => Over [k] f c (F c x)) (rows ++ ks) L ω σ →
      Q () L ω σ) :
    wp (contract sha256 ok) (Sosedi.onDeal rows k f) Q L ω σ :=
  h.write (Rewrites.modifyDeal · k f) hQ

theorem acquire (h : Batch sha256 ok B P F ks L ω σ) {key : LockKey}
    (hQ : ∀ L ω σ, Batch sha256 ok B P F (key :: ks) L ω σ → Q () L ω σ) :
    wp (contract sha256 ok) (Transactions.acquire key) Q L ω σ := by
  intro σ' hi _
  have h' := h.interference hi
  refine hQ _ _ _ ⟨?_, h'.base.grow fun _ => List.mem_cons_of_mem _,
    h'.writes.grow fun _ => List.mem_cons_of_mem _⟩
  intro key' hkey
  rcases List.mem_cons.mp hkey with rfl | hkey
  · exact List.mem_cons_self ..
  · exact List.mem_cons_of_mem _ (h.locks key' hkey)

theorem createOutbox (h : Batch sha256 ok B P F ks L ω σ) {eventType : BookingEventType}
    (hQ : ∀ L ω σ, Batch sha256 ok B P (fun c x => Over [k] (Deal.addOutbox eventType) c (F c x))
      ks L ω σ → Q () L ω σ) :
    wp (contract sha256 ok) (Sosedi.createOutbox k eventType) Q L ω σ := by
  rw [Sosedi.createOutbox, wp_insertUnique]
  intro σ' hi _ _
  exact hQ _ _ _ (((h.interference hi).push [.outboxKey k eventType]
    (Rewrites.modifyDeal · k (Deal.addOutbox eventType))).weaken (fun _ => id)
    fun key hkey => List.mem_append_right _ hkey)

/-- An UPDATE of one deal with a WHERE clause. -/
theorem updateWhere {Q : Bool → List LockKey → List (Database → Database) → Store → Prop}
    (h : Batch sha256 ok B P F ks L ω σ) {row : LockKey} {cond : Database → Bool}
    (hmatch : ∀ σ', Batch sha256 ok B P F ks L ω σ' → Inv sha256 σ' →
      cond (view ω σ'.1) = true → ∀ L ω,
      Batch sha256 ok B P (fun c x => Over [k] f c (F c x)) (row :: ks) L ω σ' → Q true L ω σ')
    (hmiss : ∀ σ', Batch sha256 ok B P F ks L ω σ' → cond (view ω σ'.1) = false → ∀ L ω,
      Batch sha256 ok B P F ks L ω σ' → Q false L ω σ') :
    wp (contract sha256 ok) (Transactions.updateWhere row cond (Database.modifyDeal k f)) Q
      L ω σ := by
  intro σ' hi hv
  have h' := h.interference hi
  show Q (cond (view ω σ'.1)) ((if cond (view ω σ'.1) then [row] else []) ++ L)
    (ω ++ [if cond (view ω σ'.1) then Database.modifyDeal k f else id]) σ'
  cases hc : cond (view ω σ'.1) with
  | true => exact hmatch σ' h' hv hc _ _ (h'.push [row] (Rewrites.modifyDeal · k f))
  | false => exact hmiss σ' h' hc _ _ (h'.push [] Rewrites.refl)

/-- A loop whose body rewrites its own deal. -/
theorem forEach {ids : List Id} {body : Id → Prog Sys Unit} (h : Batch sha256 ok B P F ks L ω σ)
    (f : Deal → Deal) (hn : ids.Nodup)
    (hbody : ∀ c ∈ ids, ∀ F', (∀ x, F' c x = F c x) → ∀ L ω σ, Batch sha256 ok B P F' ks L ω σ →
      wp (contract sha256 ok) (body c)
        (fun _ => Batch sha256 ok B P (fun k x => Over [c] f k (F' k x)) ks) L ω σ)
    (hQ : ∀ L ω σ, Batch sha256 ok B P (fun k x => Over ids f k (F k x)) ks L ω σ → Q () L ω σ) :
    wp (contract sha256 ok) (Transactions.forEach ids body) Q L ω σ := by
  refine wp_forEach
    (I := fun done => Batch sha256 ok B P (fun k x => Over done f k (F k x)) ks) ids ?_ ?_ hQ
  · intro done c rest hids L ω σ hdone
    have hc : c ∉ done := by
      rw [hids, List.nodup_append] at hn
      exact fun hc => hn.2.2 c hc c (List.mem_cons_self ..) rfl
    refine wp_mono _ ?_ (hbody c (by simp [hids]) _ (fun x => Over.of_not_mem f _ hc) L ω σ hdone)
    intro _ L ω σ h
    refine h.congr fun _ _ k x _ => ?_
    by_cases hk : k = c
    · subst hk
      simp [Over, hc]
    · simp [Over, hk]
  · exact h.congr fun _ _ k x _ => by simp [Over]

end Batch

/-! ## Cancelling requests -/

/-- The deal `c` is a request that only the client can confirm. -/
def Requested (ks : List LockKey) (c : Id) (σ : Store) : Prop :=
  ∃ x, σ.1.deals.get c = some x ∧ x.Unpaid ∧
    (.booking c ∈ ks ∨ .item x.booking.itemId ∈ ks)

/-- While the request is pending, its row is locked. -/
def Secured (ks : List LockKey) (c : Id) (σ : Store) : Prop :=
  ∀ x, σ.1.deals.get c = some x → x.booking.status = .pending → .bookingRow c ∈ ks

namespace Requested

variable {c : Id} {x : Deal}

theorem unpaid (h : Requested ks c σ) (hx : σ.1.deals.get c = some x) : x.Unpaid := by
  obtain ⟨x', hx', hu, -⟩ := h
  rw [hx', Option.some.injEq] at hx
  exact hx ▸ hu

theorem since (h : Requested ks c a) (hks : ∀ key ∈ ks, key ∈ L)
    (hs : (contract sha256 ok).Other L a b) (hx : a.1.deals.get c = some x) :
    ∃ x', b.1.deals.get c = some x' ∧ x.Since x' := by
  obtain ⟨x', hx', hu, hlock⟩ := h
  rw [hx', Option.some.injEq] at hx
  subst hx
  exact Other.asked (hlock.imp (hks _) (hks _)) hs ⟨_, hx', Deal.Since.refl hu⟩

theorem keeps (h : Requested ks c a) (hks : ∀ key ∈ ks, key ∈ L)
    (hs : (contract sha256 ok).Other L a b) : Requested ks c b := by
  obtain ⟨x, hx, -, hlock⟩ := id h
  obtain ⟨x', hx', hsince⟩ := h.since hks hs hx
  refine ⟨x', hx', hsince.unpaid, ?_⟩
  rw [itemId_of_terms hsince.terms]
  exact hlock

theorem mono {ks' : List LockKey} (h : Requested ks c σ) (hks : ∀ key ∈ ks, key ∈ ks') :
    Requested ks' c σ := by
  obtain ⟨x, hx, hu, hlock⟩ := h
  exact ⟨x, hx, hu, hlock.imp (hks _) (hks _)⟩

end Requested

theorem Secured.mono {ks' : List LockKey} {c : Id} (h : Secured ks c σ)
    (hks : ∀ key ∈ ks, key ∈ ks') : Secured ks' c σ := fun x hx hp => hks _ (h x hx hp)

namespace Deal

theorem setDepositStatus_self {y : Deal} {status : DepositStatus}
    (h : ∀ dep, y.deposit = some dep → dep.status = status) : y.setDepositStatus status = y := by
  have hmap : y.deposit.map ({ · with status }) = y.deposit := by
    cases hd : y.deposit with
    | none => rfl
    | some dep => simp [← h dep hd]
  rw [setDepositStatus, updateDeposit, hmap]

theorem cancelPendingDeposit_of_not {y : Deal}
    (hy : y.deposit.any (·.status == .pending) = false) : y.cancelPendingDeposit = y := by
  simp [cancelPendingDeposit, hy, onlyIf]

theorem Unpaid.cancelPendingDeposit_eq (h : d.Unpaid) {y : Deal} (hy : y.deposit = d.deposit) :
    y.cancelPendingDeposit = y.setDepositStatus .cancelled := by
  cases hp : y.deposit.any (·.status == .pending) with
  | true =>
    rw [cancelPendingDeposit, hp]
    rfl
  | false =>
    rw [cancelPendingDeposit_of_not hp, setDepositStatus_self]
    intro dep hdep
    rcases h.deposit dep (hy ▸ hdep) with hs | hs
    · simp [hdep, hs] at hp
    · exact hs

end Deal

namespace Batch

variable {B : List (Id × Id) → List (Id × Id)} {P P' : Store → Prop}
  {F G F' : Id → Deal → Deal} {c : Id}

theorem cancelDeposit {Q : Bool → List LockKey → List (Database → Database) → Store → Prop}
    (h : Batch sha256 ok B P F ks L ω σ) (hP : ∀ σ, P σ → Requested ks c σ)
    (hF : ∀ x, (F c x).deposit = x.deposit)
    (hQ : ∀ matched L ω σ,
      Batch sha256 ok B P (fun k x => Over [c] Deal.cancelPendingDeposit k (F k x)) ks L ω σ →
        Q matched L ω σ) :
    wp (contract sha256 ok) (Transactions.updateWhere (.depositRow c) (·.pendingDeposit c)
      (Database.modifyDeal c (Deal.setDepositStatus .cancelled))) Q L ω σ := by
  refine h.updateWhere (fun σ' _ _ _ L ω h' => hQ _ _ _ _ ?_) fun σ' h₀ hc L ω h' =>
    hQ _ _ _ _ ?_
  · refine (h'.weaken (fun _ => id) fun key hkey => List.mem_cons_of_mem _ hkey).congr ?_
    intro σ hσ k x hx
    by_cases hk : k = c
    · subst hk
      rw [Over.self, Over.self, ((hP σ hσ).unpaid hx).cancelPendingDeposit_eq (hF x)]
    · simp [Over, hk]
  · have hnot : ∀ x, σ'.1.deals.get c = some x → x.deposit.any (·.status == .pending) = false := by
      intro x hx
      rw [← hF x]
      simpa [Database.pendingDeposit, Database.deposit, h₀.get hx] using hc
    refine (((h'.assume (R := fun σ => ∀ x, σ.1.deals.get c = some x →
      x.deposit.any (·.status == .pending) = false) hnot ?_).congr ?_).weaken
        (fun _ => And.left) fun _ => id)
    · intro a b hs ha hnot x' hx'
      obtain ⟨x, hx, -⟩ := hP a ha
      obtain ⟨y, hy, hsince⟩ := (hP a ha).since h'.locks hs hx
      rw [hx', Option.some.injEq] at hy
      exact hy ▸ hsince.deposit (hnot x hx)
    · rintro σ ⟨-, hnot⟩ k x hx
      by_cases hk : k = c
      · subst hk
        rw [Over.self, Deal.cancelPendingDeposit_of_not (by rw [hF x, hnot x hx])]
      · simp [Over, hk]

theorem cancelBooking {Q : Bool → List LockKey → List (Database → Database) → Store → Prop}
    {reason : CancellationReason}
    (h : Batch sha256 ok B P F ks L ω σ) (hP : ∀ σ, P σ → Requested ks c σ) (hF : ∀ x, F c x = x)
    (hQ : ∀ rows matched L ω σ,
      Batch sha256 ok B (fun σ => P σ ∧ Secured (rows ++ ks) c σ)
        (fun k x => Over [c] (Deal.cancelIfPending · reason) k (F k x)) (rows ++ ks) L ω σ →
        Q matched L ω σ) :
    wp (contract sha256 ok) (Transactions.updateWhere (.bookingRow c) (·.pendingBooking c)
      (Database.modifyDeal c (Deal.cancelBooking reason))) Q L ω σ := by
  refine h.updateWhere (fun σ' h₀ _ hc L ω h' => hQ [.bookingRow c] _ _ _ _ ?_)
    fun σ' h₀ hc L ω h' => hQ [] _ _ _ _ ?_
  · obtain ⟨x, hx, hu, -⟩ := hP σ' h₀.base.now
    have hp : x.booking.status = .pending := by
      simpa [Database.pendingBooking, Database.booking, h₀.get hx, hF] using hc
    refine ((h'.assume (R := fun σ => σ.1.deals.get c = some x) hx ?_).congr ?_).weaken ?_
      fun _ => id
    · intro a b hs _ ha
      exact Other.frozen hu (Or.inl ⟨hp, h'.locks _ (List.mem_cons_self ..)⟩) hs ha
    · rintro σ ⟨-, hσ⟩ k y hy
      by_cases hk : k = c
      · subst hk
        rw [hσ, Option.some.injEq] at hy
        subst hy
        rw [Over.self, Over.self, hF, Deal.cancelIfPending, hp]
        rfl
      · simp [Over, hk]
    · rintro σ ⟨hσ, -⟩
      exact ⟨hσ, fun _ _ _ => List.mem_cons_self ..⟩
  · have hnot : ∀ x, σ'.1.deals.get c = some x → x.booking.status ≠ .pending := by
      intro x hx
      simpa [Database.pendingBooking, Database.booking, h₀.get hx, hF] using hc
    refine ((h'.assume (R := fun σ => ∀ x, σ.1.deals.get c = some x →
      x.booking.status ≠ .pending) hnot ?_).congr ?_).weaken ?_ fun _ => id
    · intro a b hs ha hnot x' hx' hp'
      obtain ⟨x, hx, hu, -⟩ := hP a ha
      obtain ⟨y, hy, hsince⟩ := (hP a ha).since h'.locks hs hx
      rw [hx', Option.some.injEq] at hy
      subst hy
      rw [hsince.cancelled (hu.status.resolve_left (hnot x hx))] at hp'
      cases hp'
    · rintro σ ⟨-, hnot⟩ k x hx
      by_cases hk : k = c
      · subst hk
        rw [Over.self, hF, Deal.cancelIfPending, beq_false_of_ne (hnot x hx)]
        rfl
      · simp [Over, hk]
    · rintro σ ⟨hσ, hnot⟩
      exact ⟨hσ, fun x hx hp => absurd hp (hnot x hx)⟩

/-- The loop that cancels requests. -/
theorem cancelRequests {ids : List Id} {reason : CancellationReason}
    {Q : Unit → List LockKey → List (Database → Database) → Store → Prop}
    (h : Batch sha256 ok B P F ks L ω σ) (hn : ids.Nodup)
    (hP : ∀ σ, P σ → ∀ c ∈ ids, Requested ks c σ) (hF : ∀ c ∈ ids, ∀ x, F c x = x)
    (hQ : ∀ ks', (∀ key ∈ ks, key ∈ ks') → ∀ L ω σ,
      Batch sha256 ok B (fun σ => P σ ∧ ∀ c ∈ ids, Secured ks' c σ)
        (fun k x => Over ids (Deal.cancelIfPending · reason) k (F k x)) ks' L ω σ → Q () L ω σ) :
    wp (contract sha256 ok) (Transactions.forEach ids fun c => do
      let _ ← Transactions.updateWhere (.bookingRow c) (·.pendingBooking c)
        (Database.modifyDeal c (Deal.cancelBooking reason))
      pure ()) Q L ω σ := by
  refine wp_forEach (I := fun done L ω σ => ∃ ks', (∀ key ∈ ks, key ∈ ks') ∧
    Batch sha256 ok B (fun σ => P σ ∧ ∀ c ∈ done, Secured ks' c σ)
      (fun k x => Over done (Deal.cancelIfPending · reason) k (F k x)) ks' L ω σ) ids ?_ ?_ ?_
  · rintro done c rest hids L ω σ ⟨ks', hks, hdone⟩
    have hmem : c ∈ ids := by simp [hids]
    have hc : c ∉ done := by
      rw [hids, List.nodup_append] at hn
      exact fun hc => hn.2.2 c hc c (List.mem_cons_self ..) rfl
    simp only [Prog.bind_eq, wp_bind]
    refine hdone.cancelBooking (fun σ hσ => (hP σ hσ.1 c hmem).mono hks)
      (fun x => by rw [Over.of_not_mem _ _ hc, hF c hmem]) fun rows matched L ω σ h => ?_
    refine ⟨rows ++ ks', fun key hkey => List.mem_append_right _ (hks key hkey), ?_⟩
    refine (h.weaken ?_ fun _ => id).congr ?_
    · rintro σ ⟨⟨hσ, hsec⟩, hsec'⟩
      refine ⟨hσ, fun c' hc' => ?_⟩
      rcases List.mem_append.mp hc' with hc' | hc'
      · exact (hsec c' hc').mono fun _ => List.mem_append_right _
      · rw [List.mem_singleton] at hc'
        exact hc' ▸ hsec'
    · intro _ _ k x _
      by_cases hk : k = c
      · subst hk
        simp [Over, hc]
      · simp [Over, hk]
  · refine ⟨ks, fun _ => id, (h.weaken (fun σ hσ => ⟨hσ, by simp⟩) fun _ => id).congr ?_⟩
    intro _ _ k x _
    simp [Over]
  · rintro L ω σ ⟨ks', hks, h⟩
    exact hQ ks' hks L ω σ h

theorem createOutboxMissing {eventType : BookingEventType}
    {Q : Unit → List LockKey → List (Database → Database) → Store → Prop}
    (h : Batch sha256 ok B P F ks L ω σ) (hP : ∀ σ, P σ → ∃ x, σ.1.deals.get c = some x)
    (hF : ∀ x, (F c x).outbox = x.outbox)
    (hkeeps : ∀ L a b x x', (∀ key ∈ ks, key ∈ L) → (contract sha256 ok).Other L a b → P a →
      a.1.deals.get c = some x → b.1.deals.get c = some x' →
      x'.outbox.contains eventType = x.outbox.contains eventType)
    (hQ : ∀ L ω σ, Batch sha256 ok B P (fun k x => Over [c]
      (fun d => d.onlyIf (!d.outbox.contains eventType) (Deal.addOutbox eventType)) k (F k x))
      ks L ω σ → Q () L ω σ) :
    wp (contract sha256 ok) (Sosedi.createOutboxMissing c eventType) Q L ω σ := by
  rw [Sosedi.createOutboxMissing, wp_insertMissing]
  intro σ' hi _
  have h' := h.interference hi
  obtain ⟨x, hx⟩ := hP σ' h'.base.now
  have htaken : (view ω σ'.1).outboxTaken c eventType = x.outbox.contains eventType := by
    rw [Database.outboxTaken, h'.get hx, Option.any_some, hF]
  have hfixed : Batch sha256 ok B (fun σ => P σ ∧ ∀ y, σ.1.deals.get c = some y →
      y.outbox.contains eventType = x.outbox.contains eventType) F ks L ω σ' := by
    refine h'.assume (fun y hy => ?_) fun a b hs ha hfix y' hy' => ?_
    · rw [hx, Option.some.injEq] at hy
      rw [hy]
    · obtain ⟨y, hy⟩ := hP a ha
      rw [hkeeps L a b y y' h'.locks hs ha hy hy', hfix y hy]
  rw [htaken]
  have hdone : ∀ {g f}, (∀ db, Rewrites id (Over [c] g) db (f db)) →
      (∀ y, y.outbox.contains eventType = x.outbox.contains eventType →
        g y = y.onlyIf (!y.outbox.contains eventType) (Deal.addOutbox eventType)) →
      Q () (.outboxKey c eventType :: L) (ω ++ [f]) σ' := by
    intro g f hf hg
    refine hQ _ _ _ (((hfixed.push [.outboxKey c eventType] hf).congr ?_).weaken
      (fun _ => And.left) fun key hkey => List.mem_append_right _ hkey)
    rintro σ ⟨-, hfix⟩ k y hy
    by_cases hk : k = c
    · subst hk
      rw [Over.self, Over.self, hg _ (by rw [hF, hfix y hy])]
    · simp [Over, hk]
  cases hc : x.outbox.contains eventType with
  | true =>
    refine hdone (g := id) (fun db => (Rewrites.refl db).congr (by simp [Over])) fun y hy => ?_
    rw [hy, hc, Bool.not_true, Deal.onlyIf_false]
    rfl
  | false =>
    refine hdone (Rewrites.modifyDeal · c _) fun y hy => ?_
    rw [hy, hc, Bool.not_false, Deal.onlyIf_true]

end Batch

/-! ## Commit -/

/-- A commit that moves deals and touches nothing else. -/
def Event.MovesOnly : Event → Prop
  | .noop | .confirm .. | .block .. | .deal .. => True
  | _ => False

theorem guar_of_moves {ev : Event} (hev : ev.MovesOnly) (hd : MovesDeals ev K a b)
    (hc : CalendarStep ev K a b) (ha : AccountStep ev K a b) (hu : b.1.uploads = a.1.uploads)
    (hw : b.2 = a.2) : Guar sha256 ev K a b := by
  cases ev with
  | noop | confirm | block | deal =>
    exact ⟨hd, hc, trivial, ⟨hu, hw, trivial, by simp [Event.uploadKeys, Event.consumed, Event.rowKeys]⟩, ha⟩
  | _ => exact hev.elim

/-- **Commit**: the writes amount to the moves of the event, and every deal satisfies the
guard of its move. -/
theorem Batch.commit {B : List (Id × Id) → List (Id × Id)} {P : Store → Prop}
    {F : Id → Deal → Deal} {Q : Unit → List LockKey → List (Database → Database) → Store → Prop}
    (h : Batch sha256 ok B P F ks L ω σ) {ev : Event} (hev : ev.MovesOnly)
    (hB : ev.applyBlocks = B)
    (hmove : ∀ σ, P σ → ∀ c x, σ.1.deals.get c = some x →
      F c x = (ev.move c).apply c x ∧ (ev.move c).guard c x σ.2 ∧
        ∀ key ∈ (ev.move c).keys c x, key ∈ ks)
    (hcalendar : ∀ σ (db : Database), P σ → db.periods = σ.1.periods →
      CalendarStep ev L σ (db, σ.2))
    (haccounts : ∀ σ, P σ → ev.AccountGuard L σ)
    (hQ : ∀ σ', Q () [] [] σ') : wp (contract sha256 ok) (Transactions.commit ev) Q L ω σ := by
  intro σ' hi _ _
  have h' := h.interference hi
  have hw := h'.writes.now
  have hsame : ev.applyUsers σ'.1.users = σ'.1.users ∧ ev.applyItems σ'.1.items = σ'.1.items := by
    cases ev with
    | noop | confirm | block | deal => exact ⟨rfl, rfl⟩
    | _ => exact hev.elim
  refine ⟨guar_of_moves hev ⟨?_, fun c x hx => ?_⟩ (hcalendar σ' _ h'.base.now hw.periods)
    ⟨?_, ?_, ?_, haccounts σ' h'.base.now⟩ hw.uploads rfl, hQ _⟩
  · exact hw.deals.trans (Table.mapRows_congr fun c x hx => (hmove σ' h'.base.now c x hx).1)
  · obtain ⟨-, hguard, hkeys⟩ := hmove σ' h'.base.now c x hx
    exact ⟨hguard, fun key hkey => h'.locks key (hkeys key hkey)⟩
  · exact hw.users.trans hsame.1.symm
  · exact hw.items.trans hsame.2.symm
  · rw [hB]
    exact hw.blocks

theorem Batch.commit_noop {P : Store → Prop}
    {Q : Unit → List LockKey → List (Database → Database) → Store → Prop}
    (h : Batch sha256 ok id P (fun _ x => x) ks L ω σ) (hQ : ∀ σ', Q () [] [] σ') :
    wp (contract sha256 ok) (Transactions.commit .noop) Q L ω σ :=
  h.commit trivial rfl (fun _ _ _ _ _ => ⟨rfl, trivial, by simp [Event.move, DealMove.keys]⟩)
    (fun _ _ _ hp => hp) (fun _ _ => trivial) hQ

end Sosedi
