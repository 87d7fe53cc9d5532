import Sosedi.Accounts.Facts
import Sosedi.Safety.Uploads
import Sosedi.Services.AdminService
import Sosedi.Services.ItemsService

/-!
# Account and listing calls keep to the contract

Proved here: unblocking, closing and blocking accounts, moderation, the decisions on reports
and the owner's edits of a listing are safe.
-/

namespace Sosedi

open Transactions

variable {sha256 : Bytes → String} {ok : Event → Store → Prop} {L : List LockKey}
  {ω : List (Database → Database)} {σ : Store}

/-- The tables that no call of this module writes. -/
structure SameRest (db db' : Database) : Prop where
  deals : db'.deals = db.deals
  periods : db'.periods = db.periods
  uploads : db'.uploads = db.uploads
  blocks : db'.userBlocks = db.userBlocks

theorem guar_account {e : AccountEvent} {K : List LockKey} {a b : Store}
    (hd : b.1.deals = a.1.deals) (hp : b.1.periods = a.1.periods)
    (hu : b.1.uploads = a.1.uploads) (hw : b.2 = a.2) (ha : AccountStep (.account e) K a b) :
    Guar sha256 (.account e) K a b :=
  ⟨movesDeals_idle (fun _ => rfl) hd, hp, trivial,
    ⟨hu, hw, trivial, by simp [Event.uploadKeys, Event.consumed, Event.rowKeys]⟩, ha⟩

/-- A client whose writes on users and items amount to `U` and `I`, and which otherwise wrote
only to tables that no other call reads here. -/
structure Editing (U : Table Id User → Table Id User) (I : Table Id Item → Table Id Item)
    (ω : List (Database → Database)) : Prop where
  rest : ∀ db, SameRest db (view ω db)
  users : ∀ db, (view ω db).users = U db.users
  items : ∀ db, (view ω db).items = I db.items

namespace Editing

variable {U V : Table Id User → Table Id User} {I J : Table Id Item → Table Id Item}

theorem start : Editing id id [] :=
  ⟨fun _ => ⟨rfl, rfl, rfl, rfl⟩, fun _ => rfl, fun _ => rfl⟩

theorem push (h : Editing U I ω) {f : Database → Database} (hrest : ∀ db, SameRest db (f db))
    (hU : ∀ db, (f db).users = V db.users) (hI : ∀ db, (f db).items = J db.items) :
    Editing (fun t => V (U t)) (fun t => J (I t)) (ω ++ [f]) where
  rest := by
    intro db
    have h₁ := h.rest db
    have h₂ := hrest (view ω db)
    rw [view_append, view_cons, view_nil]
    exact ⟨h₂.deals.trans h₁.deals, h₂.periods.trans h₁.periods, h₂.uploads.trans h₁.uploads,
      h₂.blocks.trans h₁.blocks⟩
  users := by
    intro db
    rw [view_append, view_cons, view_nil, hU, h.users]
  items := by
    intro db
    rw [view_append, view_cons, view_nil, hI, h.items]

/-- A write on tables that only the services of this module use. -/
theorem aside (h : Editing U I ω) {f : Database → Database} (hrest : ∀ db, SameRest db (f db))
    (hU : ∀ db, (f db).users = db.users) (hI : ∀ db, (f db).items = db.items) :
    Editing U I (ω ++ [f]) := h.push (V := id) (J := id) hrest hU hI

/-- **Commit** of an event whose effects on users and items are `U` and `I`. -/
theorem commit {e : AccountEvent} (h : Editing U I ω)
    {Q : Unit → List LockKey → List (Database → Database) → Store → Prop}
    (hU : Event.applyUsers (.account e) = U) (hI : Event.applyItems (.account e) = I)
    (hB : Event.applyBlocks (.account e) = id)
    (hg : ∀ σ', (contract sha256 ok).Interference L σ σ' →
      Event.AccountGuard L σ' (.account e))
    (hQ : ∀ σ', Q () [] [] σ') : wp (contract sha256 ok) (Transactions.commit (.account e)) Q
      L ω σ := by
  intro σ' hi _ _
  have hrest := h.rest σ'.1
  refine ⟨guar_account hrest.deals hrest.periods hrest.uploads rfl ⟨?_, ?_, ?_, hg σ' hi⟩, hQ _⟩
  · rw [hU]
    exact h.users _
  · rw [hI]
    exact h.items _
  · rw [hB]
    exact hrest.blocks

end Editing

/-- The first statement of a SERIALIZABLE transaction. -/
theorem wp_takeSnapshot
    {Q : Database → List LockKey → List (Database → Database) → Store → Prop}
    (hQ : ∀ σ', (contract sha256 ok).Interference L σ σ' → Inv sha256 σ' → Q σ'.1 L [] σ') :
    wp (contract sha256 ok) takeSnapshot Q L [] σ := hQ

/-! ## Users -/

namespace UsersService

theorem safe_unblockUser (blockerId blockedId : Id) :
    Safe (contract sha256 ok) (unblockUser blockerId blockedId) := by
  intro σ
  simp only [unblockUser, Prog.bind_eq, wp_bind, wp_write, List.nil_append]
  intro σ₁ _ _ σ₂ _ _ _
  exact ⟨guar_account rfl rfl rfl rfl ⟨rfl, rfl, rfl, by simp [Event.AccountGuard]⟩, rfl, rfl⟩

theorem hasParticipant_congr (userId : Id) (b b' : Booking) (h : b.terms = b'.terms) :
    b.hasParticipant userId = b'.hasParticipant userId := hasParticipant_of_terms h userId

theorem settled_of_noBlockers {db : Database} {userId : Id}
    (h : hasAccountDeletionBlockers db userId = false) :
    Settled db.bookingIds (·.hasParticipant userId) db := by
  simp only [hasAccountDeletionBlockers, Bool.or_eq_false_iff] at h
  exact settled_bookingIds h.1.1.1

theorem safe_deleteMe (userId : Id) : Safe (contract sha256 ok) (deleteMe userId) := by
  intro σ
  simp only [deleteMe, updateSnapshot, clock, Prog.bind_eq, wp_bind, wp_select, wp_lift]
  intro σ₁ _ _ _ _
  refine wp_takeSnapshot fun σ₂ _ _ => ?_
  refine wp_call_noop fun σ₃ hi₃ _ => ?_
  intro _ _
  rw [wp_insertUnique]
  intro σ₄ hi₄ _ _
  generalize hat : (if hasAccountDeletionBlockers σ₂.1 userId = true then none
    else some σ₃.2.now : Option Time) = anonymizedAt
  have h := Editing.start.push (f := updateUser userId (User.close userId σ₃.2.now anonymizedAt))
    (V := fun t => t.modify userId (User.close userId σ₃.2.now anonymizedAt)) (J := id)
    (fun _ => ⟨rfl, rfl, rfl, rfl⟩) (fun _ => rfl) fun _ => rfl
  refine h.commit (e := .closeAccount userId σ₃.2.now anonymizedAt σ₂.1.bookingIds) rfl rfl rfl
    (fun σ₅ hi₅ hsome => ?_) fun _ => ⟨rfl, rfl⟩
  have hfree : hasAccountDeletionBlockers σ₂.1 userId = false := by
    by_contra hno
    rw [if_pos (by simpa using hno)] at hat
    simp [← hat] at hsome
  have hkeeps := persists_settled sha256 ok σ₂.1.bookingIds
    (·.hasParticipant userId) (hasParticipant_congr userId)
  exact hkeeps.interference hi₅ (hkeeps.interference (interference_trans hi₃ hi₄)
    (settled_of_noBlockers hfree))

theorem safe_finalizeOne (userId : Id) : Safe (contract sha256 ok) (finalizeOne userId) := by
  intro σ
  simp only [finalizeOne, Prog.bind_eq, wp_bind]
  refine wp_takeSnapshot fun σ₁ _ _ => ?_
  by_cases hblocked : hasAccountDeletionBlockers σ₁.1 userId = true
  · rw [if_pos hblocked, wp_bind]
    exact wp_commit_noop (fun _ _ => rfl) fun _ => ⟨rfl, rfl⟩
  · rw [if_neg hblocked]
    simp only [clock, wp_bind]
    refine wp_call_noop fun σ₂ hi₂ _ => ?_
    by_cases hclosing : (σ₁.1.users.get userId).any closing = true
    · rw [if_pos hclosing]
      simp only [wp_bind, updateSnapshot]
      rw [wp_insertUnique]
      intro σ₃ hi₃ _ _
      have h := Editing.start.push (f := updateUser userId (User.anonymize userId σ₂.2.now))
        (V := fun t => t.modify userId (User.anonymize userId σ₂.2.now)) (J := id)
        (fun _ => ⟨rfl, rfl, rfl, rfl⟩) (fun _ => rfl) fun _ => rfl
      refine h.commit (e := .anonymize userId σ₂.2.now σ₁.1.bookingIds) rfl rfl rfl
        (fun σ₄ hi₄ => ?_) fun _ => ⟨rfl, rfl⟩
      have hkeeps := persists_settled sha256 ok σ₁.1.bookingIds
        (·.hasParticipant userId) (hasParticipant_congr userId)
      exact hkeeps.interference hi₄ (hkeeps.interference (interference_trans hi₂ hi₃)
        (settled_of_noBlockers (by simpa using hblocked)))
    · rw [if_neg hclosing, wp_bind]
      exact wp_commit_noop (fun _ _ => rfl) fun _ => ⟨rfl, rfl⟩

theorem safe_finalizeEligibleAccountClosures :
    Safe (contract sha256 ok) finalizeEligibleAccountClosures :=
  Safe.select.bind fun _ => Safe.forEach fun _ _ =>
    (safe_finalizeOne _).bind fun _ => Safe.ret _

end UsersService

/-! ## Administrators -/

namespace AdminService

theorem safe_blockUser (adminId userId : Id) (reason : String) :
    Safe (contract sha256 ok) (blockUser adminId userId reason) := by
  intro σ
  simp only [blockUser, createAdminAudit, Prog.bind_eq, wp_bind, wp_select, wp_lift, ensure_eq_ok,
    wp_updateWhere, wp_write, view_nil, Bool.not_eq_true']
  intro _ _ σ₁ _ _ _ hnone σ₂ hi₂ _ σ₃ hi₃ _ user _ _ hupdated σ₄ hi₄ _
  simp only [hupdated, if_true]
  have h := (Editing.start.push (f := UsersService.updateUser userId User.block)
    (V := fun t => t.modify userId User.block) (J := id)
    (fun _ => ⟨rfl, rfl, rfl, rfl⟩) (fun _ => rfl) fun _ => rfl).aside
    (f := fun db => { db with
      adminAuditLog := db.adminAuditLog ++
        [⟨some adminId, "USER_BLOCKED", "User", some userId, some reason⟩] })
    (fun _ => ⟨rfl, rfl, rfl, rfl⟩) (fun _ => rfl) fun _ => rfl
  refine h.commit (e := .blockAccount userId σ₁.1.bookingIds) rfl rfl rfl
    (fun σ₅ hi₅ => ?_) fun _ => ⟨rfl, rfl⟩
  have hkeeps := persists_settled sha256 ok σ₁.1.bookingIds
    (·.hasParticipant userId) (UsersService.hasParticipant_congr userId)
  exact hkeeps.interference hi₅ (hkeeps.interference hi₄ (hkeeps.interference hi₃
    (hkeeps.interference hi₂ (settled_bookingIds hnone))))

private theorem safe_moderateItem {adminId itemId : Id} {action : String} {reason : Option String}
    {update : Nat → Time → Item → Item} {ev : Nat → Time → AccountEvent}
    (hU : ∀ c t, Event.applyUsers (.account (ev c t)) = id)
    (hI : ∀ c t, Event.applyItems (.account (ev c t)) = fun items => items.modify itemId (update c t))
    (hB : ∀ c t, Event.applyBlocks (.account (ev c t)) = id)
    (hg : ∀ c t K (a : Store), CheckedPending itemId c a.1 →
      Event.AccountGuard K a (.account (ev c t))) :
    Safe (contract sha256 ok) (moderateItem adminId itemId action reason update ev) := by
  intro σ
  simp only [moderateItem, findModeratableItem, createAdminAudit, createNotification, clock,
    Prog.bind_eq, wp_bind, wp_select, wp_lift, required_eq_ok, ensure_eq_ok, beq_iff_eq, view_nil]
  intro σ₁ _ _ item hitem _ hpending
  refine wp_call_noop fun σ₂ hi₂ _ => ?_
  rw [wp_write]
  intro σ₃ hi₃ _ σ₄ hi₄ _ updated _
  rw [wp_write]
  intro σ₅ hi₅ _
  rw [wp_insertUnique]
  intro σ₆ hi₆ _ _
  have h := ((Editing.start.push
    (f := fun db => { db with
      items := db.items.modify itemId (update item.changes.length σ₂.2.now) })
    (V := id) (J := fun items => items.modify itemId (update item.changes.length σ₂.2.now))
    (fun _ => ⟨rfl, rfl, rfl, rfl⟩) (fun _ => rfl) fun _ => rfl).aside
    (f := fun db => { db with
      adminAuditLog := db.adminAuditLog ++ [⟨some adminId, action, "Item", some itemId, reason⟩] })
    (fun _ => ⟨rfl, rfl, rfl, rfl⟩) (fun _ => rfl) fun _ => rfl).aside
    (f := fun db => { db with
      notifications := db.notifications ++ [⟨updated.ownerId, action, "item:" ++ toString itemId ++
        ":" ++ action ++ ":" ++ toISOString updated.updatedAt⟩] })
    (fun _ => ⟨rfl, rfl, rfl, rfl⟩) (fun _ => rfl) fun _ => rfl
  refine h.commit (hU _ _) (hI _ _) (hB _ _) (fun σ₇ hi₇ => hg _ _ _ _ ?_) fun _ => ⟨rfl, rfl⟩
  have hchecked : CheckedPending itemId item.changes.length σ₁.1 :=
    ⟨item, hitem, le_refl _, fun _ => hpending⟩
  have hkeeps := persists_checkedPending sha256 ok itemId item.changes.length
  exact hkeeps.interference hi₇ (hkeeps.interference hi₆ (hkeeps.interference hi₅
    (hkeeps.interference hi₄ (hkeeps.interference (interference_trans hi₂ hi₃) hchecked))))

theorem safe_approveItem (adminId itemId : Id) :
    Safe (contract sha256 ok) (approveItem adminId itemId) :=
  safe_moderateItem (fun _ _ => rfl) (fun _ _ => rfl) (fun _ _ => rfl) fun _ _ _ _ h => h

theorem safe_rejectItem (adminId itemId : Id) (reason : String) :
    Safe (contract sha256 ok) (rejectItem adminId itemId reason) :=
  safe_moderateItem (fun _ _ => rfl) (fun _ _ => rfl) (fun _ _ => rfl) fun _ _ _ _ h => h

end AdminService

/-! ## Reports -/

namespace ReportsService

/-- The writes of a decision that will commit as `e`. -/
structure Decided (sha256 : Bytes → String) (ok : Event → Store → Prop) (e : AccountEvent)
    (ω : List (Database → Database)) (σ : Store) : Prop where
  blocks : Event.applyBlocks (.account e) = id
  writes : Editing (Event.applyUsers (.account e)) (Event.applyItems (.account e)) ω
  guard : ∀ K L σ', (contract sha256 ok).Interference L σ σ' →
    Event.AccountGuard K σ' (.account e)

namespace Decided

variable {e : AccountEvent} {σ' : Store}

theorem later (h : Decided sha256 ok e ω σ) (hi : (contract sha256 ok).Interference L σ σ') :
    Decided sha256 ok e ω σ' :=
  { h with
    guard := fun K L' σ'' hi' => h.guard K [] σ'' (interference_trans
      (interference_mono (by simp) hi) (interference_mono (by simp) hi')) }

theorem aside (h : Decided sha256 ok e ω σ) {f : Database → Database}
    (hrest : ∀ db, SameRest db (f db)) (hU : ∀ db, (f db).users = db.users)
    (hI : ∀ db, (f db).items = db.items) : Decided sha256 ok e (ω ++ [f]) σ :=
  { h with writes := h.writes.aside hrest hU hI }

end Decided

private theorem wp_applyDecision {adminId reportId : Id} {report : UserReport}
    {dto : DecideReportDto} {σ₀ : Store} (hi : (contract sha256 ok).Interference [] σ₀ σ)
    {Q : AccountEvent → List LockKey → List (Database → Database) → Store → Prop}
    (hQ : ∀ e L ω σ, Decided sha256 ok e ω σ → Q e L ω σ) :
    wp (contract sha256 ok) (applyDecision σ₀.1 adminId reportId report dto) Q L [] σ := by
  unfold applyDecision
  cases dto.decision with
  | dismiss => exact hQ _ _ _ _ ⟨rfl, .start, fun _ _ _ _ => trivial⟩
  | hideListing =>
    simp only [updateSnapshot, clock, Prog.bind_eq, wp_bind, wp_lift]
    intro _ _ _ _
    refine wp_call_noop fun σ₁ _ _ => ?_
    rw [wp_insertUnique]
    intro σ₂ _ _ _
    refine hQ _ _ _ _ ⟨rfl, ?_, fun _ _ _ _ => trivial⟩
    exact Editing.start.push (V := id)
      (J := fun t => t.modify report.targetId (Item.hideListing σ₁.2.now))
      (fun _ => ⟨rfl, rfl, rfl, rfl⟩) (fun _ => rfl) fun _ => rfl
  | hideReview =>
    simp only [updateSnapshot, clock, Prog.bind_eq, wp_bind, wp_lift]
    intro _ _
    refine wp_call_noop fun σ₁ _ _ => ?_
    intro _ _
    rw [wp_insertUnique]
    intro σ₂ _ _ _
    refine hQ _ _ _ _ ⟨rfl, ?_, fun _ _ _ _ => trivial⟩
    exact Editing.start.aside (fun _ => ⟨rfl, rfl, rfl, rfl⟩) (fun _ => rfl) fun _ => rfl
  | blockUser =>
    simp only [updateSnapshot, Prog.bind_eq, wp_bind, wp_lift, ensure_eq_ok, Bool.not_eq_true']
    intro userId _ _ hnone _ _
    rw [wp_insertUnique]
    intro σ₁ hi₁ _ _
    refine hQ _ _ _ _ ⟨rfl, ?_, fun K L' σ' hi' => ?_⟩
    · exact Editing.start.push (V := fun t => t.modify userId User.block) (J := id)
        (fun _ => ⟨rfl, rfl, rfl, rfl⟩) (fun _ => rfl) fun _ => rfl
    · have hkeeps := persists_settled sha256 ok σ₀.1.bookingIds
        (·.hasParticipant userId) (UsersService.hasParticipant_congr userId)
      exact hkeeps.interference hi' (hkeeps.interference hi₁ (hkeeps.interference hi
        (settled_bookingIds hnone)))

private theorem wp_notifyDecision {e : AccountEvent} {snapshot : Database} {reportId : Id}
    {report : UserReport} {decision : ReportDecision}
    {Q : Unit → List LockKey → List (Database → Database) → Store → Prop}
    (h : Decided sha256 ok e ω σ) (hQ : ∀ L ω σ, Decided sha256 ok e ω σ → Q () L ω σ) :
    wp (contract sha256 ok) (notifyDecision snapshot reportId report decision) Q L ω σ := by
  have hcreate : ∀ n, wp (contract sha256 ok) (createNotification n) Q L ω σ := by
    intro n
    rw [createNotification, wp_insertUnique]
    intro σ' hi _ _
    exact hQ _ _ _ ((h.later hi).aside (fun _ => ⟨rfl, rfl, rfl, rfl⟩) (fun _ => rfl) fun _ => rfl)
  unfold notifyDecision
  cases decision with
  | hideListing =>
    simp only [Prog.bind_eq, wp_bind, wp_lift]
    exact fun _ _ => hcreate _
  | hideReview =>
    simp only [Prog.bind_eq, wp_bind, wp_lift]
    intro review _
    cases review.authorId with
    | some authorId => exact hcreate _
    | none => exact hQ _ _ _ h
  | dismiss | blockUser => exact hQ _ _ _ h

theorem safe_decide (adminId reportId : Id) (dto : DecideReportDto) :
    Safe (contract sha256 ok) (decide adminId reportId dto) := by
  intro σ
  simp only [decide, createAdminAudit, Prog.bind_eq, wp_bind, wp_acquire, wp_lift]
  refine wp_takeSnapshot fun σ₁ _ _ => ?_
  intro σ₂ hi₂ _ current _ _ _
  refine wp_applyDecision hi₂ fun e L ω σ₃ h => ?_
  refine wp_call_noop fun σ₄ hi₄ _ => ?_
  simp only [updateSnapshot]
  rw [wp_insertUnique]
  intro σ₅ hi₅ _ _ σ₆ hi₆ _
  have hlater := ((h.later hi₄).later hi₅).later hi₆
  refine wp_notifyDecision ((hlater.aside ?_ ?_ ?_).aside ?_ ?_ ?_) fun L ω σ₇ h => ?_
  rotate_right
  · exact h.writes.commit rfl rfl h.blocks (fun σ' hi => h.guard _ _ _ hi) fun _ => ⟨rfl, rfl⟩
  all_goals intro db
  · exact ⟨rfl, rfl, rfl, rfl⟩
  · rfl
  · rfl
  · exact ⟨rfl, rfl, rfl, rfl⟩
  · rfl
  · rfl

end ReportsService

/-! ## Listings -/

namespace ItemsService

theorem quiet_ensureActiveCategory (categoryId : Id) :
    Quiet sha256 ok (ensureActiveCategory categoryId) :=
  (Quiet.select _).bind fun _ => (Quiet.lift _).bind fun _ => Quiet.ret _

theorem quiet_buildUpdateData (env : Env) (dto : UpdateItemDto) :
    Quiet sha256 ok (buildUpdateData env dto) := by
  refine (Quiet.lift _).bind fun _ => ?_
  cases dto.categoryId.join with
  | some categoryId =>
    exact (quiet_ensureActiveCategory categoryId).bind fun _ => (Quiet.lift _).bind fun _ =>
      Quiet.ret _
  | none => exact (Quiet.lift _).bind fun _ => Quiet.ret _

theorem quiet_findOwnedItem (ownerId id : Id) : Quiet sha256 ok (findOwnedItem ownerId id) :=
  (Quiet.select _).bind fun _ => Quiet.lift _

theorem wp_ensureNoUnfinishedBookings {itemId : Id}
    {Q : List Id → List LockKey → List (Database → Database) → Store → Prop}
    (hQ : ∀ seen σ', (contract sha256 ok).Interference L σ σ' →
      Settled seen (·.itemId == itemId) σ'.1 → Q seen L [] σ') :
    wp (contract sha256 ok) (ensureNoUnfinishedBookings itemId) Q L [] σ := by
  simp only [ensureNoUnfinishedBookings, Prog.bind_eq, wp_bind, wp_select, wp_lift, view_nil,
    ensure_eq_ok, Bool.not_eq_true', Prog.pure_eq, wp_ret]
  exact fun σ' hi _ _ hnone => hQ _ σ' hi (settled_bookingIds hnone)

/-- The check and the write of an owner's call. -/
private theorem wp_updateItem {id : Id} {f : Item → Item} {e : AccountEvent} {seen : List Id}
    (hsettled : Settled seen (·.itemId == id) σ.1)
    (hU : Event.applyUsers (.account e) = fun t => t)
    (hI : Event.applyItems (.account e) = fun items => items.modify id f)
    (hB : Event.applyBlocks (.account e) = fun l => l)
    (hg : ∀ K (a : Store), Settled seen (·.itemId == id) a.1 →
      Event.AccountGuard K a (.account e)) :
    wp (contract sha256 ok) (updateItem id f e) (fun _ L ω _ => L = [] ∧ ω = []) [] [] σ := by
  simp only [updateItem, Prog.bind_eq, wp_bind]
  rw [wp_write]
  intro σ₁ hi₁ _
  have h := Editing.start.push (f := fun db => { db with items := db.items.modify id f })
    (V := fun t => t) (J := fun items => items.modify id f)
    (fun _ => ⟨rfl, rfl, rfl, rfl⟩) (fun _ => rfl) fun _ => rfl
  refine h.commit hU hI hB (fun σ₂ hi₂ => hg _ _ ?_) fun _ => ⟨rfl, rfl⟩
  have hkeeps := persists_settled sha256 ok seen (·.itemId == id)
    fun b b' hb => by simp only [itemId_of_terms hb]
  exact hkeeps.interference hi₂ (hkeeps.interference hi₁ hsettled)

theorem safe_updateOwn (env : Env) (ownerId id : Id) (dto : UpdateItemDto) :
    Safe (contract sha256 ok) (updateOwn env ownerId id dto) := by
  intro σ
  simp only [updateOwn, Prog.bind_eq, wp_bind]
  refine (quiet_findOwnedItem _ _).wp fun _ σ₁ _ => ?_
  refine (quiet_buildUpdateData _ _).wp fun data σ₂ _ => ?_
  by_cases hempty : data.isEmpty = true
  · rw [if_pos hempty]
    exact ⟨rfl, rfl⟩
  · rw [if_neg hempty]
    simp only [wp_bind]
    refine wp_ensureNoUnfinishedBookings fun seen σ₃ _ hsettled => ?_
    refine wp_call_noop fun σ₄ hi₄ _ => ?_
    have hkeeps := persists_settled sha256 ok seen (·.itemId == id)
      fun b b' hb => by simp only [itemId_of_terms hb]
    exact wp_updateItem (hkeeps.interference hi₄ hsettled) rfl rfl rfl fun _ _ h => h

theorem safe_hideOwn (ownerId id : Id) : Safe (contract sha256 ok) (hideOwn ownerId id) := by
  intro σ
  simp only [hideOwn, Prog.bind_eq, wp_bind]
  refine (quiet_findOwnedItem _ _).wp fun currentItem σ₁ _ => ?_
  by_cases hhidden : (currentItem.status == .hidden) = true
  · rw [if_pos hhidden]
    exact ⟨rfl, rfl⟩
  · rw [if_neg hhidden]
    simp only [wp_bind]
    refine wp_ensureNoUnfinishedBookings fun seen σ₃ _ hsettled => ?_
    refine wp_call_noop fun σ₄ hi₄ _ => ?_
    have hkeeps := persists_settled sha256 ok seen (·.itemId == id)
      fun b b' hb => by simp only [itemId_of_terms hb]
    exact wp_updateItem (hkeeps.interference hi₄ hsettled) rfl rfl rfl fun _ _ h => h

end ItemsService

end Sosedi
