import Sosedi.Services.UsersService

/-!
# What a step does to accounts and listings

`Event.applyUsers`, `applyItems` and `applyBlocks` are the effects of a commit on users, items
and blocks, `Event.AccountGuard` what holds when it happens.  A transaction that looked for
unfinished bookings knows only of those that were there (`seen`).
-/

namespace Sosedi

/-- The deal that `create` computes from the rows that it read. -/
def DraftedFrom (read : BookableItem) (d : Deal) : Prop :=
  ∃ policy terms borrowerId itemId period requestId hash now dbNow draft,
    draftBooking policy terms borrowerId itemId read.item read.owner.name period requestId hash
      now dbNow = .ok draft ∧ d = draft.deal

/-- No booking that was there and satisfies `p` is unfinished. -/
def Settled (seen : List Id) (p : Booking → Bool) (db : Database) : Prop :=
  ∀ k ∈ seen, ∃ d, db.deals.get k = some d ∧
    (p d.booking = true → d.booking.status.unfinished = false)

/-- Every request of the pair that was there and is still open at `now` gets cancelled. -/
def Swept (blockerId blockedId : Id) (cancelled seen : List Id) (now : Time) (db : Database) :
    Prop :=
  ∀ k ∈ seen, ∃ d, db.deals.get k = some d ∧
    (UsersService.betweenUsers blockerId blockedId d.booking = true →
      Database.unexpiredPending now d.booking = true → k ∈ cancelled)

/-- The item was `PENDING` when it had `checkedAt` changes. -/
def CheckedPending (itemId : Id) (checkedAt : Nat) (db : Database) : Prop :=
  ∃ item, db.items.get itemId = some item ∧ checkedAt ≤ item.changes.length ∧
    (item.changes.length = checkedAt → item.status = .pending)

namespace Event

def applyUsers : Event → Table Id User → Table Id User
  | upload (.confirmAvatar _ userId avatarUrl _), t =>
    t.modify userId ({ · with avatarUrl := some avatarUrl })
  | account (.blockAccount userId _), t => t.modify userId User.block
  | account (.closeAccount userId requestedAt anonymizedAt _), t =>
    t.modify userId (User.close userId requestedAt anonymizedAt)
  | account (.anonymize userId anonymizedAt _), t =>
    t.modify userId (User.anonymize userId anonymizedAt)
  | _, t => t

def applyItems : Event → Table Id Item → Table Id Item
  | upload (.confirmPhoto _ _ photo _ updatedAt _ _ _), t =>
    t.modify photo.itemId (Item.addPhoto updatedAt)
  | account (.updateItem itemId data updatedAt _), t =>
    t.modify itemId (Item.updateOwn data updatedAt)
  | account (.hideItem itemId updatedAt _), t => t.modify itemId (Item.hideOwn updatedAt)
  | account (.approveItem itemId checkedAt updatedAt), t =>
    t.modify itemId (Item.approve checkedAt updatedAt)
  | account (.rejectItem itemId checkedAt reason updatedAt), t =>
    t.modify itemId (Item.reject checkedAt reason updatedAt)
  | account (.hideListing itemId updatedAt), t => t.modify itemId (Item.hideListing updatedAt)
  | _, t => t

def applyBlocks : Event → List (Id × Id) → List (Id × Id)
  | block blockerId blockedId .., l =>
    if l.contains (blockerId, blockedId) then l else l ++ [(blockerId, blockedId)]
  | account (.unblock blockerId blockedId), l => l.filter (· != (blockerId, blockedId))
  | _, l => l

def AccountGuard (K : List LockKey) (a : Database × World) : Event → Prop
  | create _ _ read => read.owner.active = true
  | block blockerId blockedId cancelled seen now =>
    .userBlockRow blockerId blockedId ∈ K ∧ now ≤ a.2.now ∧
      Swept blockerId blockedId cancelled seen now a.1
  | account (.unblock blockerId blockedId) => .userBlockRow blockerId blockedId ∈ K
  | upload (.confirmPhoto _ _ photo _ _ seen _ _) => Settled seen (·.itemId == photo.itemId) a.1
  | account (.blockAccount userId seen) => Settled seen (·.hasParticipant userId) a.1
  | account (.closeAccount userId _ anonymizedAt seen) =>
    anonymizedAt.isSome → Settled seen (·.hasParticipant userId) a.1
  | account (.anonymize userId _ seen) => Settled seen (·.hasParticipant userId) a.1
  | account (.updateItem itemId _ _ seen) => Settled seen (·.itemId == itemId) a.1
  | account (.hideItem itemId _ seen) => Settled seen (·.itemId == itemId) a.1
  | account (.approveItem itemId checkedAt _) => CheckedPending itemId checkedAt a.1
  | account (.rejectItem itemId checkedAt _ _) => CheckedPending itemId checkedAt a.1
  | _ => True

end Event

/-- The part of a step that concerns users, items and blocks. -/
structure AccountStep (ev : Event) (K : List LockKey) (a b : Database × World) : Prop where
  users : b.1.users = ev.applyUsers a.1.users
  items : b.1.items = ev.applyItems a.1.items
  blocks : b.1.userBlocks = ev.applyBlocks a.1.userBlocks
  guard : ev.AccountGuard K a

/-- The two databases have the same users, items and blocks. -/
structure SameAccounts (db db' : Database) : Prop where
  users : db'.users = db.users
  items : db'.items = db.items
  blocks : db'.userBlocks = db.userBlocks

namespace SameAccounts

theorem refl (db : Database) : SameAccounts db db := ⟨rfl, rfl, rfl⟩

theorem trans {db db' db'' : Database} (h : SameAccounts db db') (h' : SameAccounts db' db'') :
    SameAccounts db db'' :=
  ⟨h'.users.trans h.users, h'.items.trans h.items, h'.blocks.trans h.blocks⟩

end SameAccounts

/-- The event is none of those that concern users, items and blocks. -/
def Event.LeavesAccounts : Event → Prop
  | create .. | block .. | account _ | upload (.confirmPhoto ..) | upload (.confirmAvatar ..) =>
    False
  | _ => True

theorem AccountStep.of_same {ev : Event} {K : List LockKey} {a b : Database × World}
    (hev : ev.LeavesAccounts) (h : SameAccounts a.1 b.1) : AccountStep ev K a b := by
  have hstep : ev.applyUsers a.1.users = a.1.users ∧ ev.applyItems a.1.items = a.1.items ∧
      ev.applyBlocks a.1.userBlocks = a.1.userBlocks ∧ ev.AccountGuard K a := by
    cases ev with
    | create | block | account => exact hev.elim
    | upload u =>
      cases u with
      | confirmPhoto | confirmAvatar => exact hev.elim
      | _ => exact ⟨rfl, rfl, rfl, trivial⟩
    | _ => exact ⟨rfl, rfl, rfl, trivial⟩
  obtain ⟨hu, hi, hb, hg⟩ := hstep
  exact ⟨h.users.trans hu.symm, h.items.trans hi.symm, h.blocks.trans hb.symm, hg⟩

end Sosedi
