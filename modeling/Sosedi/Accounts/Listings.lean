import Sosedi.Accounts.Removal

/-!
# Booked listings

The owner's calls look for unfinished bookings and then write the item; `create` reads the item
and then inserts the booking, under a lock that the owner's calls do not take.

Proved here: each can commit between the statements of the other (`Scenario.listings_race`); in a
run in which the owner's calls have found every open booking, and in which the content that
`create` read is still the committed one, a booked listing is frozen (`listings_frozen`).
-/

namespace Sosedi

open Transactions

variable {d : Deal} {k i : Id} {item : Item}

/-- Accepted and not finished, or still waiting for an answer. -/
def Booking.binds (now : Time) (booking : Booking) : Bool :=
  Database.unexpiredPending now booking || booking.status.reserves

def ItemWrite.byOwner : ItemWrite → Bool
  | .updateOwn | .hideOwn | .addPhoto => true
  | _ => false

/-- The owner writes the row of the item or adds a photo. -/
def OwnerChanges (i : Id) (db db' : Database) : Prop :=
  (∃ item item' change, db.items.get i = some item ∧ db'.items.get i = some item' ∧
    item'.changes = item.changes ++ [change] ∧ change.write.byOwner = true) ∨
  ∃ p photo, db.uploads.photos.get p = none ∧ db'.uploads.photos.get p = some photo ∧
    photo.itemId = i

/-- The terms snapshot shows the title, price, deposit and handover of the listing. -/
def Booking.ShowsListing (booking : Booking) (content : ItemContent) : Prop :=
  ∃ snapshot, booking.termsSnapshot = some snapshot ∧ snapshot.itemTitle = content.title ∧
    snapshot.pricePerDay = content.pricePerDay.toNumber ∧
    snapshot.moneyMinor.pricePerDay = decimalToMinor content.pricePerDay ∧
    snapshot.depositAmount = content.depositAmount.map (·.toNumber) ∧
    snapshot.moneyMinor.deposit = (content.depositAmount.map decimalToMinor).getD 0 ∧
    snapshot.handover =
      ⟨content.publicArea, content.address, content.latitude, content.longitude⟩

/-- A step that leaves booked listings frozen. -/
structure Frozen (a b : Store) : Prop where
  owner : ∀ i, OwnerChanges i a.1 b.1 → ∀ k d, b.1.deals.get k = some d → d.booking.itemId = i →
    d.booking.binds b.2.now = false
  booking : ∀ k d, a.1.deals.get k = none → b.1.deals.get k = some d →
    ∃ item, b.1.items.get d.booking.itemId = some item ∧
      d.booking.ShowsListing item.toItemContent

/-- The item that an owner's call writes, and the bookings there were when it looked for
unfinished ones. -/
def Event.edits : Event → Option (Id × List Id)
  | upload (.confirmPhoto _ _ photo _ _ seen _ _) => some (photo.itemId, seen)
  | account (.updateItem itemId _ _ seen) => some (itemId, seen)
  | account (.hideItem itemId _ seen) => some (itemId, seen)
  | _ => none

/-- The content that a request was computed from is committed, and an owner's call has found every
open booking of its item. -/
def listingsInTime (ev : Event) (σ : Store) : Bool :=
  (match ev with
    | .create _ d read => (σ.1.items.get d.booking.itemId).any fun item =>
      item.toItemContent == read.item.toItemContent
    | _ => true) &&
  ev.edits.all fun e => !σ.1.deals.any fun k d =>
    d.booking.itemId == e.1 && d.booking.binds σ.2.now && !e.2.contains k

variable {sha256 : Bytes → String} {ev : Event} {K : List LockKey} {a b : Store}

/-! ## Who writes a listing -/

/-- The row of an item that an event writes. -/
def Event.writesItem : Event → Option (Id × ItemWrite)
  | upload (.confirmPhoto _ _ photo _ _ _ _ _) => some (photo.itemId, .addPhoto)
  | account (.updateItem itemId _ _ _) => some (itemId, .updateOwn)
  | account (.hideItem itemId _ _) => some (itemId, .hideOwn)
  | account (.approveItem itemId checkedAt _) => some (itemId, .approve checkedAt)
  | account (.rejectItem itemId checkedAt _ _) => some (itemId, .reject checkedAt)
  | account (.hideListing itemId _) => some (itemId, .hideListing)
  | _ => none

/-- The status that a write sets. -/
def ItemWrite.sets : ItemWrite → ItemStatus
  | .updateOwn | .addPhoto => .pending
  | .hideOwn | .hideListing => .hidden
  | .approve _ => .approved
  | .reject _ => .rejected

/-- A write of the row by `write`. -/
structure Item.Written (write : ItemWrite) (item item' : Item) : Prop where
  status : item'.status = write.sets
  changes : item'.changes = item.changes ++ [⟨write, item.status, write.sets⟩]
  content : write ≠ .updateOwn → item'.toItemContent = item.toItemContent

/-- **What a step does to a listing**: nothing, or one write. -/
theorem Event.get_applyItems_inv {t : Table Id Item} {item' : Item} (hitem : t.get i = some item)
    (hitem' : (ev.applyItems t).get i = some item') :
    item' = item ∨ ∃ write, ev.writesItem = some (i, write) ∧ item.Written write item' := by
  have hmodify : ∀ {id : Id} {f : Item → Item} {write : ItemWrite},
      ev.writesItem = some (id, write) → (t.modify id f).get i = some item' →
      (∀ x : Item, x.Written write (f x)) →
      item' = item ∨ ∃ write, ev.writesItem = some (i, write) ∧ item.Written write item' := by
    intro id f write hwrites hget hf
    rw [Table.get_modify] at hget
    split at hget
    · rename_i hid
      subst hid
      rw [hitem, Option.map_some, Option.some.injEq] at hget
      exact Or.inr ⟨write, hwrites, hget ▸ hf item⟩
    · rw [hitem, Option.some.injEq] at hget
      exact Or.inl hget.symm
  unfold applyItems at hitem'
  split at hitem'
  · exact hmodify rfl hitem' fun x => ⟨rfl, rfl, fun _ => rfl⟩
  · exact hmodify rfl hitem' fun x => ⟨rfl, rfl, fun h => absurd rfl h⟩
  · exact hmodify rfl hitem' fun x => ⟨rfl, rfl, fun _ => rfl⟩
  · exact hmodify rfl hitem' fun x => ⟨rfl, rfl, fun _ => rfl⟩
  · exact hmodify rfl hitem' fun x => ⟨rfl, rfl, fun _ => rfl⟩
  · exact hmodify rfl hitem' fun x => ⟨rfl, rfl, fun _ => rfl⟩
  · rw [hitem, Option.some.injEq] at hitem'
    exact Or.inl hitem'.symm

theorem Event.edits_of_writesItem {write : ItemWrite} (h : ev.writesItem = some (i, write))
    (howner : write.byOwner = true) : ∃ seen, ev.edits = some (i, seen) := by
  unfold writesItem at h
  split at h <;> cases h
  · exact ⟨_, rfl⟩
  · exact ⟨_, rfl⟩
  · exact ⟨_, rfl⟩
  · cases howner
  · cases howner
  · cases howner

/-- Only a confirmed upload inserts a photo. -/
theorem Event.photo_inv {t : UploadTables} {p : Id} {photo : ItemPhoto}
    (hnone : t.photos.get p = none) (hphoto : (ev.applyUploads t).photos.get p = some photo) :
    ∃ intentId confirmedAt updatedAt seen counted cleared,
      ev = .upload (.confirmPhoto intentId p photo confirmedAt updatedAt seen counted cleared) := by
  have hold : t.photos.get p ≠ some photo := by simp [hnone]
  unfold applyUploads at hphoto
  split at hphoto
  · exact absurd hphoto hold
  · exact absurd hphoto hold
  · rename_i intentId photoId photo' confirmedAt updatedAt seen counted cleared
    simp only [UploadTables.addPhoto, UploadTables.consume] at hphoto
    rcases Table.of_get_insert hphoto with ⟨rfl, rfl⟩ | h
    · exact ⟨_, _, _, _, _, _, rfl⟩
    · rw [Table.get_mapRows, hnone] at h
      cases h
  · exact absurd hphoto hold
  · simp [UploadTables.publish, Table.get_modify, hnone] at hphoto
  · exact absurd hphoto hold
  · exact absurd hphoto hold
  · exact absurd hphoto hold
  · exact absurd hphoto hold
  · exact absurd hphoto hold
  · simp only [UploadTables.dropPhoto] at hphoto
    split at hphoto
    · split at hphoto
      · exact absurd (Table.of_get_erase hphoto).2 hold
      · exact absurd hphoto hold
    · exact absurd hphoto hold
  · exact absurd hphoto hold
  · exact absurd hphoto hold

/-- What an owner changes, the event edits. -/
theorem Guar.edits (hg : Guar sha256 ev K a b) (h : OwnerChanges i a.1 b.1) :
    ∃ seen, ev.edits = some (i, seen) := by
  rcases h with ⟨item, item', change, hitem, hitem', hchange, howner⟩ | ⟨p, photo, hnone, hp, rfl⟩
  · rw [hg.accounts.items] at hitem'
    rcases Event.get_applyItems_inv hitem hitem' with rfl | ⟨write, hwrites, hwritten⟩
    · simp at hchange
    · rw [hwritten.changes, List.append_cancel_left_eq, List.cons.injEq] at hchange
      obtain ⟨rfl, -⟩ := hchange
      exact Event.edits_of_writesItem hwrites howner
  · rw [hg.uploads.uploads] at hp
    obtain ⟨intentId, confirmedAt, updatedAt, seen, n, m, rfl⟩ := Event.photo_inv hnone hp
    exact ⟨seen, rfl⟩

theorem settled_of_edits {seen : List Id} (h : ev.edits = some (i, seen))
    (hg : ev.AccountGuard K a) : Settled seen (·.itemId == i) a.1 := by
  unfold Event.edits at h
  split at h <;> cases h <;> exact hg

/-! ## Terms of a request -/

theorem DraftedFrom.showsListing {read : BookableItem} (h : DraftedFrom read d) :
    d.booking.ShowsListing read.item.toItemContent := by
  obtain ⟨policy, terms, borrowerId, itemId, period, requestId, hash, now, dbNow, draft, hdraft,
    rfl⟩ := h
  simp only [draftBooking, bind_eq_ok] at hdraft
  obtain ⟨price, -, money, hmoney, hdraft⟩ := hdraft
  cases hdraft
  simp only [moneyMinorOf, bind_eq_ok] at hmoney
  obtain ⟨pricePerDay, hprice, rental, -, deposit, hdeposit, fee, -, payout, -, total, -, hmoney⟩ :=
    hmoney
  cases hmoney
  obtain rfl := minorToSafeNumber_eq_ok hprice
  obtain rfl := minorToSafeNumber_eq_ok hdeposit
  refine ⟨_, rfl, rfl, rfl, rfl, rfl, ?_, rfl⟩
  simp only [Item.depositMinor]
  cases read.item.depositAmount <;> rfl

theorem Booking.binds_of_unfinished {now : Time} {booking : Booking}
    (h : booking.status.unfinished = false) : booking.binds now = false := by
  simp only [BookingStatus.unfinished, Bool.or_eq_false_iff] at h
  simp [binds, Database.unexpiredPending, h.1, h.2]

/-! ## Steps -/

/-- A step that inserts or changes a deal writes no listing. -/
theorem Guar.deal_of_edits {seen : List Id} {d' : Deal} (h : ev.edits = some (i, seen))
    (hg : Guar sha256 ev K a b) (hd' : b.1.deals.get k = some d') :
    a.1.deals.get k = some d' ∧ b.2.now = a.2.now := by
  have hidle : ev.move k = .idle ∧ (∀ d read, ev ≠ .create k d read) ∧
      (ev.applyWorld sha256 a.2).now = a.2.now := by
    unfold Event.edits at h
    split at h <;> cases h <;> exact ⟨rfl, fun _ _ he => (by cases he), rfl⟩
  obtain ⟨hidle, hcreate, hnow⟩ := hidle
  refine ⟨?_, hg.uploads.world ▸ hnow⟩
  rcases hg.get_inv hd' with ⟨d, hd, rfl, -⟩ | ⟨-, read, hev, -⟩
  · rw [hidle]
    exact hd
  · exact absurd hev (hcreate _ _)

theorem Frozen.step (hok : listingsInTime ev a = true) (hg : Guar sha256 ev K a b) :
    Frozen a b := by
  simp only [listingsInTime, Bool.and_eq_true] at hok
  refine ⟨fun i hchange k d hd hitem => ?_, fun k d hnone hd => ?_⟩
  · obtain ⟨seen, hedits⟩ := hg.edits hchange
    obtain ⟨hda, hnow⟩ := hg.deal_of_edits hedits hd
    by_contra hbinds
    -- the call found the booking and refused
    have hseen : k ∈ seen := by
      have := hok.2
      simp only [hedits, Option.all_some, Bool.not_eq_true', Table.any_eq_false] at this
      rw [hnow] at hbinds
      simpa [hitem, hbinds] using this k d hda
    obtain ⟨x, hx, hfinished⟩ := settled_of_edits hedits hg.accounts.guard k hseen
    rw [hda, Option.some.injEq] at hx
    subst hx
    exact hbinds (Booking.binds_of_unfinished (hfinished (by simp [hitem])))
  · rcases hg.get_inv hd with ⟨x, hx, -⟩ | ⟨-, read, rfl, hdraft⟩
    · rw [hnone] at hx
      cases hx
    · have hread := hok.1
      rw [Option.any_eq_true] at hread
      obtain ⟨item, hitem, hcontent⟩ := hread
      rw [beq_iff_eq] at hcontent
      refine ⟨item, ?_, hcontent ▸ hdraft.showsListing⟩
      rw [hg.accounts.items]
      exact hitem

/-! ## Runs -/

variable {s₀ s s' : State Sys}

theorem Frozen.refl (σ : Store) : Frozen σ σ := by
  refine ⟨fun i hchange => ?_, fun k d hnone hd => ?_⟩
  · rcases hchange with ⟨item, item', change, hitem, hitem', hchange, -⟩ | ⟨p, photo, hnone, hp, -⟩
    · rw [hitem, Option.some.injEq] at hitem'
      simp [hitem'] at hchange
    · rw [hnone] at hp
      cases hp
  · rw [hnone] at hd
    cases hd

/-- **A booked listing is frozen**, in every run that is in time. -/
theorem listings_frozen (h : Runs sha256 (fun ev σ => listingsInTime ev σ = true) s₀ s)
    {m : Move Sys} (hm : s.Admits (Calls sha256) (fun ev σ => listingsInTime ev σ = true) m)
    (hf : s.fire m = some s') : Frozen s.store s'.store := by
  rcases h.step hm hf with he | ⟨ev, K, hok, hg⟩
  · rw [he]
    exact Frozen.refl _
  · exact Frozen.step hok hg

namespace Scenario

/-- The lender doubles the price of the drill. -/
def editPrice : Call := .updateItem env 2 1 ⟨none, none, none, none, none, none,
  some (some ⟨20000⟩), none, none, none, none, none, none⟩

/-- The lender edits the drill, then the borrower asks for it; the last commit is missing. -/
def editThenCreate : List Line :=
  [.call editPrice, .run 0 5, .call (.approveItem 3 1), .run 1 20, .call (create 1 10 "r1"),
    .run 2 14]

theorem listings_frozen_edited : ∃ s',
    (play (fun ev σ => listingsInTime ev σ = true) hash state editThenCreate).fire (.run 2) =
        some s' ∧ (s'.db.deals.get 10).isSome = true ∧
      Frozen (play (fun ev σ => listingsInTime ev σ = true) hash state editThenCreate).store
        s'.store := by
  have hfire : ((play (fun ev σ => listingsInTime ev σ = true) hash state editThenCreate).fire
      (.run 2)).map (fun s' => (s'.db.deals.get 10).isSome) = some true := by decide +kernel
  have hev : ((play (fun ev σ => listingsInTime ev σ = true) hash state editThenCreate).event
      2).all (fun ev => listingsInTime ev
        (play (fun ev σ => listingsInTime ev σ = true) hash state editThenCreate).store) =
          true := by decide +kernel
  obtain ⟨s', hfire, hdeal⟩ := Option.map_eq_some_iff.mp hfire
  have hadmits : (play (fun ev σ => listingsInTime ev σ = true) hash state editThenCreate).Admits
      (Calls hash) (fun ev σ => listingsInTime ev σ = true) (.run 2) := by
    intro ev he
    rw [he] at hev
    exact hev
  exact ⟨s', hfire, hdeal, listings_frozen ((runs _).play _) hadmits hfire⟩

/-- The edit has found no booking when the request commits; its last commit is missing. -/
def editAroundCreate : List Line :=
  [.call editPrice, .run 0 2, .call (create 1 10 "r1"), .run 1 15, .run 0 2]

/-- The request has read the drill when the edit commits; its last commit is missing. -/
def createAroundEdit : List Line :=
  [.call (create 1 10 "r1"), .run 0 8, .call editPrice, .run 1 5, .run 0 6]

/-- An edit changes a booked drill, and a booking shows a price that is no longer the price. -/
theorem listings_race :
    (Runs hash anyEvent state (play anyEvent hash state editAroundCreate) ∧
      ∃ s', (play anyEvent hash state editAroundCreate).fire (.run 0) = some s' ∧
        ¬Frozen (play anyEvent hash state editAroundCreate).store s'.store) ∧
    Runs hash anyEvent state (play anyEvent hash state createAroundEdit) ∧
      ∃ s', (play anyEvent hash state createAroundEdit).fire (.run 0) = some s' ∧
        ¬Frozen (play anyEvent hash state createAroundEdit).store s'.store := by
  refine ⟨⟨(runs anyEvent).play _, ?_⟩, (runs anyEvent).play _, ?_⟩
  · have hbefore : ((play anyEvent hash state editAroundCreate).store.1.items.get 1).map
        (·.changes) = some [] := by decide +kernel
    have hafter : ((play anyEvent hash state editAroundCreate).fire (.run 0)).map (fun s' =>
        ((s'.store.1.items.get 1).map (·.changes), (s'.store.1.deals.get 10).map
          fun d => (d.booking.itemId, d.booking.binds s'.store.2.now))) =
        some (some [⟨.updateOwn, .approved, .pending⟩], some (1, true)) := by decide +kernel
    obtain ⟨s', hfire, hs'⟩ := Option.map_eq_some_iff.mp hafter
    obtain ⟨hchanges, hdeal⟩ := Prod.mk.inj hs'
    obtain ⟨item, hitem, hnone⟩ := Option.map_eq_some_iff.mp hbefore
    obtain ⟨item', hitem', hchange⟩ := Option.map_eq_some_iff.mp hchanges
    obtain ⟨d, hd, hd'⟩ := Option.map_eq_some_iff.mp hdeal
    obtain ⟨hid, hbinds⟩ := Prod.mk.inj hd'
    refine ⟨s', hfire, fun hfrozen => ?_⟩
    have howner : OwnerChanges 1 (play anyEvent hash state editAroundCreate).store.1 s'.store.1 :=
      Or.inl ⟨item, item', _, hitem, hitem', by rw [hchange, hnone, List.nil_append], rfl⟩
    rw [hfrozen.owner 1 howner 10 d hd hid] at hbinds
    cases hbinds
  · have hbefore : (play anyEvent hash state createAroundEdit).store.1.deals.get 10 = none := by
      decide +kernel
    have hafter : ((play anyEvent hash state createAroundEdit).fire (.run 0)).map (fun s' =>
        ((s'.store.1.items.get 1).map fun item => decimalToMinor item.pricePerDay,
          (s'.store.1.deals.get 10).map fun d => (d.booking.itemId,
            d.booking.termsSnapshot.map (·.moneyMinor.pricePerDay)))) =
        some (some 20000, some (1, some 10000)) := by decide +kernel
    obtain ⟨s', hfire, hs'⟩ := Option.map_eq_some_iff.mp hafter
    obtain ⟨hprice, hdeal⟩ := Prod.mk.inj hs'
    obtain ⟨d, hd, hd'⟩ := Option.map_eq_some_iff.mp hdeal
    obtain ⟨hid, hshown⟩ := Prod.mk.inj hd'
    refine ⟨s', hfire, fun hfrozen => ?_⟩
    obtain ⟨item, hitem, snapshot, hsnapshot, -, -, hpricePerDay, -⟩ :=
      hfrozen.booking 10 d hbefore hd
    rw [hid] at hitem
    rw [hitem, Option.map_some, Option.some.injEq] at hprice
    rw [hsnapshot, Option.map_some, Option.some.injEq, hpricePerDay, hprice] at hshown
    cases hshown

end Scenario

end Sosedi
