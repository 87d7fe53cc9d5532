import Sosedi.Safety.Confirmations
import Sosedi.Services.SupportService

/-!
# Support calls keep to the contract

Proved here: `createMessage` and the calls of the operators are safe.
-/

namespace Sosedi

open Transactions UploadService

variable {sha256 : Bytes → String} {ok : Event → Store → Prop} {L : List LockKey} {σ : Store}
  {i : Id}

/-- A ticket that is closed has an assignee. -/
def ClosedIsAssigned (i : Id) (σ : Store) : Prop :=
  ∀ ticket, σ.1.uploads.tickets.get i = some ticket → ticket.status = .closed →
    ticket.assigneeId ≠ none

/-- Only `closeAsAdmin` closes a ticket, and it assigns it. -/
theorem persists_closedIsAssigned (i : Id) :
    Persists (contract sha256 ok) (ClosedIsAssigned i) := by
  intro K a b hs h ticket hticket hclosed
  obtain ⟨ev, -, hu⟩ := Contract.Step.uploads hs
  rw [hu.uploads] at hticket
  rcases Event.get_tickets_cases ev a.1.uploads i with ⟨he, -⟩ | ⟨_, _, _, _, -, -, -, he⟩ |
    ⟨_, -, he⟩ | ⟨_, _, _, _, -, he⟩ | ⟨_, -, he⟩
  · exact h ticket (he.symm.trans hticket) hclosed
  all_goals
    rw [he, Option.map_eq_some_iff] at hticket
    obtain ⟨old, -, rfl⟩ := hticket
  · cases hclosed
  · cases hclosed
  · cases hclosed
  · exact Option.some_ne_none _

namespace SupportService

/-! ## Messages -/


private theorem wp_verifyAttachments {env : Env} {actorId ticketId : Id} {allowAdmin : Bool}
    (intentIds : List Id)
    {Q : List VerifiedEvidence → List LockKey → List (Database → Database) → Store → Prop}
    (hQ : ∀ vs σ, (∀ v ∈ vs, ∃ i, Verified sha256 .supportAttachment actorId ticketId i v σ) →
      Q vs L [] σ) :
    wp (contract sha256 ok)
      (verifyAttachments sha256 env actorId ticketId allowAdmin intentIds) Q L [] σ := by
  induction intentIds generalizing σ Q with
  | nil => exact hQ [] σ (by simp)
  | cons intentId rest ih =>
    simp only [verifyAttachments, Prog.bind_eq, wp_bind]
    refine wp_verifyIntent (quiet_ensureSupportTicketAccess _ _ _) rfl fun v σ₁ hv => ?_
    have hrest := wp_keeps (persists_verified .supportAttachment actorId ticketId intentId v)
      (verifyAttachments sha256 env actorId ticketId allowAdmin rest)
      (ih (Q := fun vs L' ω σ => L' = L ∧ ω = [] ∧
        ∀ v ∈ vs, ∃ i, Verified sha256 .supportAttachment actorId ticketId i v σ)
          fun vs σ h => ⟨rfl, rfl, h⟩) hv
    refine wp_mono _ ?_ hrest
    rintro vs L' ω σ₂ ⟨⟨rfl, rfl, hvs⟩, hv⟩
    refine hQ (v :: vs) σ₂ fun u hu => ?_
    rcases List.mem_cons.mp hu with rfl | hu
    · exact ⟨intentId, hv⟩
    · exact hvs u hu

theorem safe_createMessage (env : Env) (actorId ticketId : Id) (dto : CreateSupportMessageDto)
    (allowAdmin : Bool) (messageId : Id) (attachmentId : Nat → Id) :
    Safe (contract sha256 ok) (createMessage sha256 env actorId ticketId dto allowAdmin messageId
      attachmentId) := by
  intro σ
  simp only [createMessage, Prog.bind_eq, wp_bind, wp_select, wp_lift]
  intro σ₁ _ _ ticket _ _ _ _ _
  refine wp_verifyAttachments _ fun vs σ₂ hvs => ?_
  refine wp_call_noop fun σ₃ hi₃ _ => ?_
  have hP : Persists (contract sha256 ok) fun σ =>
      ∀ v ∈ vs, ∃ i, Verified sha256 .supportAttachment actorId ticketId i v σ := by
    intro K a b hs h v hv
    obtain ⟨i, hi⟩ := h v hv
    exact ⟨i, persists_verified _ _ _ i v K a b hs hi⟩
  replace hvs := hP.interference hi₃ hvs
  generalize σ₃.2.now = c
  refine wp_forEach (I := fun (done : List VerifiedEvidence) L ω σ =>
    Consuming (done.map (·.intentId)) (UploadTables.consume (done.map (·.intentId)) c) L ω σ ∧
      ∀ v ∈ vs, ∃ i, Verified sha256 .supportAttachment actorId ticketId i v σ) vs ?_ ?_ ?_
  rotate_left
  · exact ⟨Consuming.start c, hvs⟩
  rotate_left
  · rintro done v rest _ L ω σ ⟨h, hvs⟩
    simp only [wp_bind, wp_lift]
    refine h.consumeIntent (fun L' ω σ' _ hi _ h _ => ?_) fun _ _ _ _ _ => ?_
    · intro _ _
      rw [List.map_append]
      exact ⟨h, hP.interference hi hvs⟩
    · simp only [ensure_eq_ok]
      intro _ hfalse
      cases hfalse
  rintro L ω σ ⟨h, hvs⟩
  generalize hids : vs.map (·.intentId) = ids at h
  simp only [wp_insertUnique]
  intro σ₄ hi₄ _ _
  replace h := (h.interference hi₄).push [.messageRow messageId]
    (H := fun t => { t with
      supportMessages := t.supportMessages.insert messageId
        ⟨ticketId, actorId, allowAdmin, trim dto.body⟩ })
    (f := fun db => { db with uploads := { db.uploads with
      supportMessages := db.uploads.supportMessages.insert messageId
        ⟨ticketId, actorId, allowAdmin, trim dto.body⟩ } })
    (fun _ => rfl)
  replace hvs := hP.interference hi₄ hvs
  generalize hrows : (vs.mapIdx fun i a =>
    (attachmentId i, (⟨messageId, a.intentId, a.objectKey, a.sha256, none⟩ : Evidence))) = rows
  have hmem : ∀ r ∈ rows, ∃ v ∈ vs, r.2 = ⟨messageId, v.intentId, v.objectKey, v.sha256, none⟩ := by
    intro r hr
    rw [← hrows, List.mem_mapIdx] at hr
    obtain ⟨i, hi, rfl⟩ := hr
    exact ⟨_, List.getElem_mem hi, rfl⟩
  have hconsumed : rows.map (·.2.uploadIntentId) = ids := by
    rw [← hrows, ← hids]
    exact List.ext_getElem (by simp) (by simp)
  refine wp_forEach (I := fun done L ω σ => Consuming ids (fun t => { t.consume ids c with
      supportMessages := t.supportMessages.insert messageId
        ⟨ticketId, actorId, allowAdmin, trim dto.body⟩
      supportAttachments := done.foldl (fun rows r => rows.insert r.1 r.2) t.supportAttachments })
      L ω σ ∧ ∀ v ∈ vs, ∃ i, Verified sha256 .supportAttachment actorId ticketId i v σ) rows ?_ ?_ ?_
  rotate_left
  · exact ⟨h, hvs⟩
  rotate_left
  · rintro done r rest _ L ω σ ⟨h, hvs⟩
    simp only [wp_insertUnique]
    intro σ' hi _ _
    refine ⟨?_, hP.interference hi hvs⟩
    have hpush := (h.interference hi).push [.evidenceRow r.1, .evidenceIntent r.2.uploadIntentId]
      (H := fun t => { t with supportAttachments := t.supportAttachments.insert r.1 r.2 })
      (f := fun db => { db with uploads := { db.uploads with
        supportAttachments := db.uploads.supportAttachments.insert r.1 r.2 } })
      (fun _ => rfl)
    simp only [List.foldl_append, List.foldl_cons, List.foldl_nil]
    exact hpush
  rintro L ω σ ⟨h, hvs⟩
  have hcommit : ∀ {L ω σ}, Consuming ids (Event.applyUploads (.upload (.addSupportMessage
      messageId ⟨ticketId, actorId, allowAdmin, trim dto.body⟩ rows c))) L ω σ →
      (allowAdmin = true → .ticketRow ticketId ∈ L) →
      (∀ v ∈ vs, ∃ i, Verified sha256 .supportAttachment actorId ticketId i v σ) →
      wp (contract sha256 ok) (commit (.upload (.addSupportMessage messageId
        ⟨ticketId, actorId, allowAdmin, trim dto.body⟩ rows c)))
        (fun _ L ω _ => L = [] ∧ ω = []) L ω σ := by
    intro L ω σ h hticket hvs
    refine h.commit trivial (fun _ => rfl) (fun _ => rfl) ?_ (fun σ' hi hv' h r hr => ?_)
      fun _ _ _ _ => ⟨rfl, rfl⟩
    · intro key hkey
      simp only [Event.uploadKeys, Event.consumed, hconsumed, List.mem_append, List.mem_map,
        Event.rowKeys] at hkey
      rcases hkey with ⟨i, hi, rfl⟩ | hkey
      · exact Or.inl ⟨i, hi, rfl⟩
      · split at hkey
        · rename_i hadmin
          exact Or.inr (List.mem_singleton.mp hkey ▸ hticket hadmin)
        · cases hkey
    · obtain ⟨v, hv, hr⟩ := hmem r hr
      obtain ⟨i, -, ⟨q, hq, hp, hkey, -⟩, -, -⟩ := hP.interference hi hvs v hv
      rw [hr]
      show σ'.1.uploads.Open v.intentId _ v.objectKey
      rw [← hp, ← hkey]
      exact h.openIntent hv' (hids ▸ List.mem_map_of_mem hv) hq
  rw [wp_when]
  refine ⟨fun hadmin σ' hi _ => hcommit ?_ (fun _ => List.mem_cons_self) (hP.interference hi hvs),
    fun hadmin => hcommit ?_ (fun h => by simp [hadmin] at h) hvs⟩
  · have hpush := (h.interference hi).push [.ticketRow ticketId]
      (H := fun t => { t with
        tickets := t.tickets.modify ticketId
          ({ · with assigneeId := some actorId, status := .inProgress }) })
      (f := fun db => { db with uploads := { db.uploads with
        tickets := db.uploads.tickets.modify ticketId
          ({ · with assigneeId := some actorId, status := .inProgress }) } })
      (fun _ => rfl)
    refine hpush.congr fun t => ?_
    simp only [Event.applyUploads, hconsumed, hadmin, if_true]
    rfl
  · refine h.congr fun t => ?_
    simp only [Event.applyUploads, hconsumed, hadmin, Bool.false_eq_true, if_false]
    rfl

/-! ## Operators -/

/-- The guarded update of a ticket: the row stays as the clause found it until the commit. -/
private theorem wp_updateTicket {cond : SupportTicket → Bool} {f : SupportTicket → SupportTicket}
    {Q : Bool → List LockKey → List (Database → Database) → Store → Prop}
    (hmatch : ∀ ω σ', (contract sha256 ok).Interference [] σ σ' →
      Always (contract sha256 ok) [.ticketRow i] (fun σ => ∃ ticket,
        σ.1.uploads.tickets.get i = some ticket ∧ cond ticket = true) σ' →
      Consuming [] (UploadTables.updateTicket i f) [.ticketRow i] ω σ' →
      Q true [.ticketRow i] ω σ')
    (hmiss : ∀ ω σ', Q false [] ω σ') :
    wp (contract sha256 ok) (updateTicket i cond f) Q [] [] σ := by
  simp only [updateTicket, wp_updateWhere, view_nil]
  intro σ' hi _
  by_cases hany : (σ'.1.uploads.tickets.get i).any cond = true
  · simp only [hany, if_true]
    obtain ⟨ticket, hticket, hcond⟩ := (Option.any_eq_true _ _).mp hany
    refine hmatch _ σ' hi (Always.of_keeps ⟨ticket, hticket, hcond⟩ ?_) ?_
    · rintro a b hother ⟨ticket, hticket, hcond⟩
      exact ⟨ticket, (Other.ticket (by simp) hother).trans hticket, hcond⟩
    · exact ⟨by simp, by simp, fun db => rfl⟩
  · rw [Bool.not_eq_true] at hany
    simp only [hany, Bool.false_eq_true, if_false]
    exact hmiss _ σ'

private theorem ensure_false {e : Error} {p : Prop} (h : ensure false e = .ok ()) : p := by
  cases h

theorem safe_assignToSelf (adminId ticketId : Id) :
    Safe (contract sha256 ok) (assignToSelf adminId ticketId) := by
  intro σ
  simp only [assignToSelf, generalTicket, Prog.bind_eq, wp_bind, wp_select, wp_lift,
    required_eq_ok, Option.filter_eq_some_iff, view_nil, ensure_eq_ok, bne_iff_ne]
  rintro σ₁ _ hv₁ existing ⟨hexisting, -⟩ _ hopen _ _
  have hassigned : ClosedIsAssigned ticketId σ₁ := by
    intro ticket hticket hclosed
    rw [hexisting, Option.some.injEq] at hticket
    exact absurd (hticket ▸ hclosed) hopen
  split
  · simp only [wp_bind, wp_lift]
    refine wp_updateTicket (fun ω σ₂ hi₂ halways h _ _ => ?_) fun _ _ _ => ensure_false
    refine h.commit trivial (fun _ => rfl) (fun _ => rfl)
      (by simp [Event.uploadKeys, Event.consumed, Event.rowKeys]) (fun σ₃ hi₃ _ _ => ?_)
      fun _ _ _ _ => ⟨rfl, rfl⟩
    obtain ⟨ticket, hticket, hnone⟩ := (halways.later hi₃).now
    rw [Option.isNone_iff_eq_none] at hnone
    replace hassigned := (persists_closedIsAssigned ticketId).interference
      (interference_trans hi₂ (interference_mono (by simp) hi₃)) hassigned
    exact ⟨ticket, hticket, fun hclosed => hassigned ticket hticket hclosed hnone, hnone⟩
  · exact Consuming.commit_noop (Consuming.start 0) fun _ _ _ _ => ⟨rfl, rfl⟩

theorem safe_replyAsAdmin (adminId ticketId : Id) (message : String) (messageId : Id) :
    Safe (contract sha256 ok) (replyAsAdmin adminId ticketId message messageId) := by
  intro σ
  simp only [replyAsAdmin, generalTicket, Prog.bind_eq, wp_bind, wp_select, wp_lift]
  intro σ₁ _ _ _ _ _ _ _ _
  refine wp_call_noop fun σ₂ _ _ => ?_
  simp only [wp_insertUnique]
  refine wp_updateTicket (fun ω σ₃ hi₃ halways h _ _ => ?_) fun _ _ _ => ensure_false
  intro σ₄ hi₄ _ _
  have hpush := (h.interference hi₄).push [.messageRow messageId]
    (H := fun t => { t with
      supportMessages := t.supportMessages.insert messageId
        ⟨ticketId, adminId, true, trim message⟩ })
    (f := fun db => { db with uploads := { db.uploads with
      supportMessages :=
        db.uploads.supportMessages.insert messageId ⟨ticketId, adminId, true, trim message⟩ } })
    (fun _ => rfl)
  refine hpush.commit trivial (fun _ => rfl) (fun _ => rfl)
    (by simp [Event.uploadKeys, Event.consumed, Event.rowKeys]) (fun σ₅ hi₅ _ _ => ?_)
    fun _ _ _ _ => ⟨rfl, rfl⟩
  obtain ⟨ticket, hticket, hcond⟩ :=
    (halways.later (interference_trans hi₄ (interference_mono (by simp) hi₅))).now
  simp only [Bool.and_eq_true, bne_iff_ne] at hcond
  exact ⟨ticket, hticket, hcond.1.2⟩

theorem safe_closeAsAdmin (adminId ticketId : Id) :
    Safe (contract sha256 ok) (closeAsAdmin adminId ticketId) := by
  intro σ
  simp only [closeAsAdmin, generalTicket, Prog.bind_eq, wp_bind, wp_select, wp_lift]
  intro σ₁ _ _ _ _ _ _ _ _
  refine wp_updateTicket (fun ω σ₂ hi₂ halways h _ _ => ?_) fun _ _ _ => ensure_false
  refine h.commit trivial (fun _ => rfl) (fun _ => rfl)
    (by simp [Event.uploadKeys, Event.consumed, Event.rowKeys]) (fun σ₃ hi₃ _ _ => ?_)
    fun _ _ _ _ => ⟨rfl, rfl⟩
  obtain ⟨ticket, hticket, hcond⟩ := (halways.later hi₃).now
  simp only [Bool.and_eq_true, bne_iff_ne, Bool.not_eq_true', Option.any_eq_false] at hcond
  refine ⟨ticket, hticket, hcond.1.2, fun assigneeId hassignee => ?_⟩
  simpa using hcond.2 assigneeId hassignee

end SupportService

end Sosedi
