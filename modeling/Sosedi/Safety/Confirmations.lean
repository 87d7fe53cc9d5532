import Sosedi.Deals.Batch
import Sosedi.Safety.Deposits
import Sosedi.Safety.Uploads

/-!
# Confirmations keep to the contract

`Consuming ids G ..` says that the client has confirmed the open intents `ids` and that its
uncommitted writes amount to `G` on the upload tables.

Proved here: the calls that consume the intents of acts and of dispute evidence are safe.
-/

namespace Sosedi

open Transactions UploadService

variable {sha256 : Bytes → String} {ok : Event → Store → Prop} {L : List LockKey}
  {ω : List (Database → Database)} {σ σ' : Store} {ids : List Id} {c : Time} {i : Id}

namespace UploadTables

@[simp] theorem consume_nil (c : Time) (t : UploadTables) : t.consume [] c = t := by
  simp [consume]

/-- Confirming one more intent. -/
theorem consume_append (t : UploadTables) (ids : List Id) (i : Id) (c : Time) :
    { t.consume ids c with
      intents := (t.consume ids c).intents.modify i ({ · with confirmedAt := some c }) } =
      t.consume (ids ++ [i]) c := by
  simp only [consume, Table.modify, Table.mapRows_mapRows, List.mem_append, List.mem_singleton]
  congr 2
  funext k row
  by_cases hk : k = i
  · subst hk
    by_cases hm : k ∈ ids <;> simp [hm]
  · simp [hk]

end UploadTables

/-- A client that has confirmed the intents `ids`, not committed yet; it wrote nothing but the
upload tables. -/
structure Consuming (ids : List Id) (G : UploadTables → UploadTables) (L : List LockKey)
    (ω : List (Database → Database)) (σ : Store) : Prop where
  rows : ∀ i ∈ ids, .intentRow i ∈ L
  opened : ∀ i ∈ ids, ∃ row, σ.1.uploads.intents.get i = some row ∧ row.confirmedAt = none
  writes : ∀ db, view ω db = { db with uploads := G db.uploads }

namespace Consuming

variable {G H : UploadTables → UploadTables}

theorem start (c : Time) : Consuming [] (UploadTables.consume [] c) L [] σ :=
  ⟨by simp, by simp, fun db => by simp⟩

theorem interference (h : Consuming ids G L ω σ)
    (hi : (contract sha256 ok).Interference L σ σ') : Consuming ids G L ω σ' :=
  { h with
    opened := fun i hmem => by
      obtain ⟨row, hrow, hnone⟩ := h.opened i hmem
      exact ⟨row, interference_keeps (fun _ _ => Other.intent (h.rows i hmem)) hi hrow, hnone⟩ }

theorem congr (h : Consuming ids G L ω σ) (hG : ∀ t, G t = H t) : Consuming ids H L ω σ :=
  { h with
    writes := fun db => by
      rw [h.writes, hG] }

/-- A further write on the upload tables. -/
theorem push (h : Consuming ids G L ω σ) (rows : List LockKey) {f : Database → Database}
    (hf : ∀ db, f db = { db with uploads := H db.uploads }) :
    Consuming ids (fun t => H (G t)) (rows ++ L) (ω ++ [f]) σ where
  rows := fun i hi => List.mem_append_right _ (h.rows i hi)
  opened := h.opened
  writes := by
    intro db
    rw [view_append, view_cons, view_nil, hf, h.writes]

/-- The intent is still the one that the verification saw. -/
theorem openIntent (h : Consuming ids G L ω σ) (hv : Inv sha256 σ) {r : UploadIntent}
    (hmem : i ∈ ids) (hr : Issued i r σ) :
    σ.1.uploads.Open i r.purpose r.objectKey := by
  obtain ⟨row, hrow, hnone⟩ := h.opened i hmem
  have hissued : Issued i row σ := issued_of_open hv hrow hnone
  rw [Issued, hr, Option.some.injEq] at hissued
  exact ⟨row, hrow, hnone, by rw [hissued], by rw [hissued]⟩

/-- The guarded update of an intent. -/
theorem consumeIntent {actorId entityId : Id} {purpose : Option UploadPurpose} {now : Time}
    {Q : Bool → List LockKey → List (Database → Database) → Store → Prop}
    (h : Consuming ids (UploadTables.consume ids c) L ω σ)
    (hmatch : ∀ L' ω σ', (∀ key ∈ L, key ∈ L') → (contract sha256 ok).Interference L σ σ' →
      Inv sha256 σ' → Consuming (ids ++ [i]) (UploadTables.consume (ids ++ [i]) c) L' ω σ' →
      (∃ row, σ'.1.uploads.intents.get i = some row ∧ row.confirmedAt = none ∧
        row.expiresAt > now) → Q true L' ω σ')
    (hmiss : ∀ L' ω σ', (contract sha256 ok).Interference L σ σ' →
      Consuming ids (UploadTables.consume ids c) L' ω σ' → Q false L' ω σ') :
    wp (contract sha256 ok) (consumeIntent i actorId entityId purpose now c) Q L ω σ := by
  simp only [UploadService.consumeIntent, wp_updateWhere]
  intro σ' hi hv
  have h' := h.interference hi
  have hview := h'.writes σ'.1
  split
  · rename_i hc
    rw [hc]
    obtain ⟨row, hrow, hconds⟩ := (Option.any_eq_true _ _).mp hc
    rw [hview] at hrow
    simp only [UploadTables.consume, Table.get_mapRows, Option.map_eq_some_iff] at hrow
    obtain ⟨row, hrow, rfl⟩ := hrow
    simp only [Bool.and_eq_true, decide_eq_true_eq, Option.isNone_iff_eq_none] at hconds
    by_cases hmem : i ∈ ids
    · simp [hmem] at hconds
    · simp only [if_neg hmem] at hconds
      have hnone := hconds.1.2
      refine hmatch _ _ σ' (fun _ => List.mem_append_right _) hi hv
        ⟨?_, ?_, fun db => ?_⟩ ⟨row, hrow, hnone, hconds.2⟩
      · intro j hj
        rcases List.mem_append.mp hj with hj | hj
        · exact List.mem_append_right _ (h'.rows j hj)
        · rw [List.mem_singleton] at hj
          exact hj ▸ List.mem_cons_self ..
      · intro j hj
        rcases List.mem_append.mp hj with hj | hj
        · exact h'.opened j hj
        · rw [List.mem_singleton] at hj
          exact hj ▸ ⟨row, hrow, hnone⟩
      · rw [view_append, view_cons, view_nil, h'.writes]
        dsimp only
        rw [UploadTables.consume_append]
  · rename_i hc
    rw [Bool.not_eq_true] at hc
    rw [hc]
    refine hmiss _ _ σ' hi ⟨fun j hj => List.mem_append_right _ (h'.rows j hj), h'.opened,
      fun db => ?_⟩
    rw [view_append, view_cons, view_nil]
    exact h'.writes db

end Consuming

/-- What the guard of an evidence row asks for. -/
theorem Consuming.evidenceGuard {purpose : UploadPurpose} {v : VerifiedEvidence}
    {actorId entityId ownerId : Id} {stage : Option BookingActStage}
    {G : UploadTables → UploadTables} (h : Consuming ids G L ω σ) (hv : Inv sha256 σ)
    (hmem : v.intentId ∈ ids) (hverified : Verified sha256 purpose actorId entityId i v σ) :
    EvidenceGuard sha256 purpose ⟨ownerId, v.intentId, v.objectKey, v.sha256, stage⟩ v.written
      σ := by
  obtain ⟨-, ⟨r, hr, rfl, hkey, -⟩, hhash, hhashed⟩ := hverified
  refine ⟨?_, hhash, hhashed⟩
  show σ.1.uploads.Open v.intentId r.purpose v.objectKey
  rw [← hkey]
  exact h.openIntent hv hmem hr

theorem Consuming.actEvidence {v : VerifiedEvidence} {entityId : Id} {stage : BookingActStage}
    {act : BookingAct} {evidenceId : Id} {G : UploadTables → UploadTables}
    (h : Consuming ids G L ω σ) (hv : Inv sha256 σ) (hmem : v.intentId ∈ ids)
    (hnew : σ.1.uploads.bookingEvidence.get evidenceId = none)
    (hverified : Verified sha256 .bookingEvidence act.authorId entityId i v σ) :
    ActEvidence entityId stage act evidenceId
      ⟨entityId, v.intentId, v.objectKey, v.sha256, some stage⟩ σ.1.uploads := by
  obtain ⟨-, ⟨r, hr, -, -, hactor, hentity⟩, -, -⟩ := hverified
  refine ⟨hnew, rfl, rfl, ?_⟩
  obtain ⟨row, hrow, hnone⟩ := h.opened v.intentId hmem
  have hissued : Issued v.intentId row σ := issued_of_open hv hrow hnone
  rw [Issued, hr, Option.some.injEq] at hissued
  exact ⟨row, hrow, hissued ▸ hactor, hissued ▸ hentity⟩

/-- The step of an upload event whose effect on the upload tables is `G`, after a last write `f`
elsewhere. -/
theorem Consuming.guar {u : UploadEvent} {G : UploadTables → UploadTables}
    {f : Database → Database} (h : Consuming ids G L ω σ) (rows : List LockKey)
    (hf : ∀ db, (f db).uploads = db.uploads ∧ (f db).deals = db.deals ∧
      (f db).periods = db.periods)
    (ha : ∀ db, AccountStep (.upload u) (rows ++ L) σ (f { σ.1 with uploads := db }, σ.2))
    (hG : ∀ t, G t = Event.applyUploads (.upload u) t)
    (hw : ∀ w, Event.applyWorld sha256 (.upload u) w = w)
    (hkeys : ∀ key ∈ Event.uploadKeys (.upload u),
      (∃ i ∈ ids, key = .intentRow i) ∨ key ∈ rows ++ L)
    (hg : u.Guard σ sha256) :
    Guar sha256 (.upload u) (rows ++ L) σ (f (view ω σ.1), σ.2) := by
  rw [h.writes]
  obtain ⟨huploads, hdeals, hperiods⟩ := hf { σ.1 with uploads := G σ.1.uploads }
  refine guar_upload hdeals hperiods
    ⟨huploads.trans (hG _), (hw _).symm, hg, fun key hkey => ?_⟩ (ha _)
  rcases hkeys key hkey with ⟨i, hmem, rfl⟩ | hmem
  · exact List.mem_append_right _ (h.rows i hmem)
  · exact hmem

/-- **Commit** of an upload event whose effect is `G`. -/
theorem Consuming.commit {u : UploadEvent} {G : UploadTables → UploadTables}
    {Q : Unit → List LockKey → List (Database → Database) → Store → Prop}
    (h : Consuming ids G L ω σ) (hleaves : Event.LeavesAccounts (.upload u))
    (hG : ∀ t, G t = Event.applyUploads (.upload u) t)
    (hw : ∀ w, Event.applyWorld sha256 (.upload u) w = w)
    (hkeys : ∀ key ∈ Event.uploadKeys (.upload u),
      (∃ i ∈ ids, key = .intentRow i) ∨ key ∈ L)
    (hg : ∀ σ', (contract sha256 ok).Interference L σ σ' → Inv sha256 σ' →
      Consuming ids G L ω σ' → u.Guard σ' sha256)
    (hQ : ∀ σ' b, (contract sha256 ok).Interference L σ σ' →
      (contract sha256 ok).Step L σ' b → Q () [] [] b) :
    wp (contract sha256 ok) (Transactions.commit (.upload u)) Q L ω σ := by
  intro σ' hi hv hok
  have h' := h.interference hi
  have hstep : Guar sha256 (.upload u) L σ' (view ω σ'.1, σ'.2) :=
    h'.guar (f := id) [] (fun _ => ⟨rfl, rfl, rfl⟩)
      (fun _ => .of_same hleaves ⟨rfl, rfl, rfl⟩) hG hw hkeys (hg σ' hi hv h')
  exact ⟨hstep, hQ σ' _ hi ⟨hv, _, hok, hstep⟩⟩

/-- Nothing was confirmed. -/
theorem Consuming.commit_noop {Q : Unit → List LockKey → List (Database → Database) → Store → Prop}
    (h : Consuming [] (UploadTables.consume [] c) L ω σ)
    (hQ : ∀ σ' b, (contract sha256 ok).Interference L σ σ' →
      (contract sha256 ok).Step L σ' b → Q () [] [] b) :
    wp (contract sha256 ok) (Transactions.commit .noop) Q L ω σ := by
  intro σ' hi hv hok
  have hview : view ω σ'.1 = σ'.1 := by
    rw [h.writes, UploadTables.consume_nil]
  have hstep : Guar sha256 .noop L σ' (view ω σ'.1, σ'.2) := by
    rw [hview]
    exact guar_noop σ'
  exact ⟨hstep, hQ σ' _ hi ⟨hv, _, hok, hstep⟩⟩

/-! ## Acts -/

namespace BookingActService

theorem safe_create (env : Env) (actorId bookingId : Id) (dto : CreateBookingActDto)
    (evidenceId : Id) :
    Safe (contract sha256 ok) (create sha256 env actorId bookingId dto evidenceId) := by
  intro σ
  simp only [create, Prog.bind_eq, wp_bind, wp_select]
  intro σ₁ _ _
  cases replay (view [] σ₁.1) actorId bookingId dto with
  | some act => exact ⟨rfl, rfl⟩
  | none =>
    simp only [wp_bind, wp_lift]
    intro _ _
    refine wp_verifyIntent (quiet_ensureBookingParticipant _ _) rfl fun v σ₂ hverified => ?_
    simp only [wp_acquire, wp_select, required_eq_ok, view_nil, Option.filter_eq_some_iff]
    rintro σ₃ hi₃ _ σ₄ hi₄ _ booking ⟨hb, -⟩ _ hstage _ hactor
    have hL : .booking bookingId ∈ [LockKey.booking bookingId] := List.mem_singleton_self _
    simp only [ensureStageState, ensureStageActor, ensure_eq_ok, beq_iff_eq] at hstage hactor
    have hpaid : booking.status ≠ .pending ∧ booking.status ≠ .cancelled := by
      rw [hstage]
      cases dto.stage <;> decide
    obtain ⟨d, rfl, hd⟩ := Local.enter hL hb hpaid.1 hpaid.2
    refine wp_call_noop fun σ₅ hi₅ _ => ?_
    refine wp_call_noop fun σ₆ hi₆ _ => ?_
    refine (Consuming.start σ₆.2.now).consumeIntent (fun L ω σ₇ hgrow hi₇ _ h _ => ?_)
      fun _ _ _ _ _ => ?_
    · intro _ _
      refine wp_call_noop fun σ₈ hi₈ _ => ?_
      simp only [wp_insertUnique]
      intro σ₉ hi₉ _ hact σ₁₀ hi₁₀ _ htaken σ₁₁ hi₁₁ hv₁₁ _
      have hlock : .booking bookingId ∈ L := hgrow _ hL
      have hto₉ : (contract sha256 ok).Interference L σ₇ σ₉ := interference_trans hi₈ hi₉
      have hfrom₉ : (contract sha256 ok).Interference L σ₉ σ₁₁ :=
        interference_trans (interference_mono (by simp +contextual) hi₁₀)
          (interference_mono (by simp +contextual) hi₁₁)
      have hkept₇ : Kept bookingId d σ₇ := (hd.interference
        (interference_trans hi₅ (interference_trans hi₆ hi₇))).kept
      have hkept₉ : Kept bookingId d σ₉ :=
        interference_keeps (fun _ _ => Other.kept hlock hd.paid) hto₉ hkept₇
      obtain ⟨x, hx, hforget⟩ : Kept bookingId d σ₁₁ :=
        interference_keeps (fun _ _ => Other.kept hlock hd.paid) hfrom₉ hkept₉
      have hnone : d.act dto.stage = none := by
        obtain ⟨y, hy, hyforget⟩ := hkept₉
        rw [← Deal.act_of_forget hyforget]
        simpa [Database.act, h.writes, hy] using hact
      have hnew : σ₁₁.1.uploads.bookingEvidence.get evidenceId = none := by
        refine interference_keeps (fun _ _ => Other.newEvidence (by simp)) hi₁₁ ?_
        simp only [view_append, view_cons, view_nil, h.writes, Bool.or_eq_false_iff,
          Option.isSome_eq_false_iff, Option.isNone_iff_eq_none] at htaken
        exact htaken.1
      replace h := h.interference (interference_trans hto₉ hfrom₉)
      have hpath : (contract sha256 ok).Interference [] σ₂ σ₁₁ := by
        refine interference_trans hi₃ (interference_mono (by simp) (interference_trans hi₄
          (interference_trans hi₅ (interference_trans hi₆ (interference_trans hi₇ ?_)))))
        exact interference_mono hgrow (interference_trans hto₉ hfrom₉)
      have hverified₁₁ : Verified sha256 .bookingEvidence actorId bookingId dto.intentId v σ₁₁ :=
        (persists_verified _ _ _ _ _).interference hpath hverified
      refine ⟨⟨movesDeals_one (k := bookingId) (fun k hk => by simp [Event.move, hk]) ?_ ?_, ?_,
        trivial, ⟨?_, rfl, ⟨h.evidenceGuard hv₁₁ (by simp) hverified₁₁,
          h.actEvidence hv₁₁ (by simp) hnew hverified₁₁, x, hx⟩, ?_⟩,
        .of_same trivial ?_⟩, rfl, rfl⟩
      · simp only [view_append, view_cons, view_nil, Event.move, if_true, h.writes]
        rfl
      · intro y hy
        rw [hx, Option.some.injEq] at hy
        subst hy
        simp only [Event.move, if_true]
        refine ⟨⟨?_, ?_, ?_, rfl, rfl⟩, ?_⟩
        · rw [Deal.act_of_forget hforget]
          exact hnone
        · rw [Deal.booking_of_forget hforget]
          exact hstage
        · rw [Deal.booking_of_forget hforget]
          exact hactor
        · simp [DealMove.keys, hlock]
      · simp only [view_append, view_cons, view_nil, h.writes]
        rfl
      · simp only [view_append, view_cons, view_nil, Database.modifyDeal, h.writes]
        rfl
      · have hrow := h.rows v.intentId (by simp)
        simp [Event.uploadKeys, Event.consumed, Event.rowKeys, hrow]
      · simp only [view_append, view_cons, view_nil, h.writes]
        exact ⟨rfl, rfl, rfl⟩
    · simp only [ensure_eq_ok]
      intro _ hfalse
      cases hfalse

end BookingActService

/-! ## Dispute evidence -/

theorem safe_addEvidence (env : Env) (actorId bookingId disputeId intentId evidenceId : Id) :
    Safe (contract sha256 ok)
      (DisputeService.addEvidence sha256 env actorId bookingId disputeId intentId evidenceId) := by
  intro σ
  simp only [DisputeService.addEvidence, Prog.bind_eq, wp_bind]
  refine wp_call_noop fun σ₁ _ _ => ?_
  refine wp_verifyIntent (quiet_ensureDisputeParticipant _ _) rfl fun v σ₂ hverified => ?_
  simp only [wp_select, wp_lift, required_eq_ok]
  intro σ₃ hi₃ _ _ _
  refine (Consuming.start σ₁.2.now).consumeIntent (fun L ω σ₄ _ hi₄ _ h _ => ?_)
    fun _ _ _ _ _ => ?_
  · simp only [wp_insertUnique]
    intro _ _ σ₅ hi₅ _ _
    have hpush := (h.interference hi₅).push [.evidenceRow evidenceId, .evidenceIntent v.intentId]
      (H := fun t => { t with
        disputeEvidence := t.disputeEvidence.insert evidenceId
          ⟨disputeId, v.intentId, v.objectKey, v.sha256, none⟩ })
      (f := fun db => { db with uploads := { db.uploads with
        disputeEvidence := db.uploads.disputeEvidence.insert evidenceId
          ⟨disputeId, v.intentId, v.objectKey, v.sha256, none⟩ } })
      (fun _ => rfl)
    refine hpush.commit trivial (fun t => rfl) (fun _ => rfl) (by simp [Event.uploadKeys, Event.consumed, Event.rowKeys])
      (fun σ₆ hi₆ hv₆ h => ?_) fun _ _ _ _ => ⟨rfl, rfl⟩
    have hlater : Verified sha256 .disputeEvidence actorId disputeId intentId v σ₆ :=
      (persists_verified _ _ _ _ _).interference (interference_trans hi₃ (interference_trans hi₄
        (interference_mono (by simp) (interference_trans hi₅
          (interference_mono (by simp +contextual) hi₆))))) hverified
    exact h.evidenceGuard hv₆ (by simp) hlater
  · simp only [ensure_eq_ok]
    intro _ hfalse
    cases hfalse

end Sosedi
