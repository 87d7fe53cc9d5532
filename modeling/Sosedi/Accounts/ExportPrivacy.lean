import Sosedi.Accounts.UserDataExport

/-!
# The export is complete and gives nothing of others away

Two databases are alike for a user when they differ in the rows of others, in who the others are,
in exact places, hashes and storage keys of others, and in what a counterparty has written but not
published yet.

Proved here:

* `exportBooking_congr`, `exportTicket_congr`, `exportItem_congr`: what is alike is exported alike;
* `data_export`: so is the whole; and every row of the user is exported, once.
-/

namespace Sosedi

namespace UserDataExportService

/-! ## What the user must not tell apart -/

/-- Nobody, the user, or somebody else. -/
def ActorAlike (userId : Id) (a b : Option Id) : Prop :=
  (a = none ↔ b = none) ∧ (a = some userId ↔ b = some userId)

structure UserAlike (a b : UserRow) : Prop where
  phone : a.phone = b.phone
  name : a.name = b.name
  city : a.city = b.city
  avatar : a.avatarUrl.isSome = b.avatarUrl.isSome
  role : a.role = b.role
  kycStatus : a.kycStatus = b.kycStatus
  createdAt : a.createdAt = b.createdAt
  updatedAt : a.updatedAt = b.updatedAt

/-- The addresses of the files may differ. -/
structure PhotoAlike (a b : ItemPhotoRow) : Prop where
  sortOrder : a.sortOrder = b.sortOrder
  isCover : a.isCover = b.isCover
  createdAt : a.createdAt = b.createdAt

structure ItemAlike (a b : ItemRow) : Prop where
  columns : a.toListingColumns = b.toListingColumns
  photos : Table.Alike PhotoAlike a.photos b.photos

structure TransitionAlike (userId : Id) (a b : TransitionRow) : Prop where
  columns : a.toTransitionColumns = b.toTransitionColumns
  actor : ActorAlike userId a.actorId b.actorId

/-- The storage keys may differ. -/
structure FileAlike (a b : FileRow) : Prop where
  sha256 : a.sha256 = b.sha256
  createdAt : a.createdAt = b.createdAt

/-- Of the files of others only their number is told. -/
structure FilesAlike (own : Prop) (t u : Table Id FileRow) : Prop where
  own : own → Table.Alike FileAlike t u
  count : t.rows.length = u.rows.length

structure ActAlike (userId : Id) (a b : ActRow) : Prop where
  columns : a.toActColumns = b.toActColumns
  author : a.authorId = userId ↔ b.authorId = userId
  confirmer : ActorAlike userId a.confirmedById b.confirmedById
  evidence : FilesAlike (a.authorId = userId) a.evidence b.evidence

structure MessageAlike (userId : Id) (a b : MessageRow) : Prop where
  columns : a.toMessageColumns = b.toMessageColumns
  author : a.authorId = some userId ↔ b.authorId = some userId

/-- Who has hidden a review, and why, may differ. -/
structure ReviewAlike (userId : Id) (a b : ReviewRow) : Prop where
  rating : a.rating = b.rating
  text : a.text = b.text
  publishAt : a.publishAt = b.publishAt
  hidden : a.hiddenAt.isSome = b.hiddenAt.isSome
  createdAt : a.createdAt = b.createdAt
  author : a.authorId = some userId ↔ b.authorId = some userId

/-- The terms without the exact place, the parties and the table of amounts. -/
def disclosed (userText : String) (terms : SnapshotJson.BookingTermsSnapshot) :
    SnapshotJson.BookingTermsSnapshot :=
  { terms with
    lenderId := ""
    lenderDisplayName := none
    moneyMinor := ⟨0, 0, 0, 0, 0, 0⟩
    depositTerms := none
    handover := ⟨terms.handover.area, "", 0, 0⟩
    acceptance := terms.acceptance.filter (·.actorId == userText) }

structure BookingAlike (userText : String) (userId : Id) (now : Time) (a b : BookingRow) :
    Prop where
  columns : a.toBookingColumns = b.toBookingColumns
  borrower : a.borrowerId = userId ↔ b.borrowerId = userId
  terms : (readTerms a).map (disclosed userText) = (readTerms b).map (disclosed userText)
  payment : a.payment.map (·.toPaymentColumns) = b.payment.map (·.toPaymentColumns)
  transitions : Table.Alike (TransitionAlike userId) a.transitions b.transitions
  acts : Table.Alike (ActAlike userId) a.acts b.acts
  messages : Table.Alike (MessageAlike userId) a.messages b.messages
  /-- Reviews of the counterparty that are not published yet may be there or not. -/
  reviews : ∀ id, Option.Rel (ReviewAlike userId) (a.reviews.found (isShown userId now) id)
    (b.reviews.found (isShown userId now) id)

structure SupportMessageAlike (userId : Id) (a b : SupportMessageRow) : Prop where
  columns : a.toSupportMessageColumns = b.toSupportMessageColumns
  author : a.authorId = userId ↔ b.authorId = userId
  attachments : FilesAlike (a.authorId = userId) a.attachments b.attachments

structure TicketAlike (userId : Id) (a b : SupportTicketRow) : Prop where
  columns : a.toSupportTicketColumns = b.toSupportTicketColumns
  messages : Table.Alike (SupportMessageAlike userId) a.messages b.messages

structure InboxEventAlike (a b : InboxEventRow) : Prop where
  eventType : a.eventType = b.eventType
  readAt : a.readAt = b.readAt
  createdAt : a.createdAt = b.createdAt

/-- Nothing is asked of the rows of others. -/
structure Alike (idText : Id → String) (userId : Id) (now : Time) (a b : ExportDatabase) :
    Prop where
  user : Option.Rel UserAlike (findUser userId a) (findUser userId b)
  items : ∀ id, Option.Rel ItemAlike (a.items.found (ownListing userId) id)
    (b.items.found (ownListing userId) id)
  bookings : ∀ id, Option.Rel (BookingAlike (idText userId) userId now)
    (a.bookings.found (isParty userId) id) (b.bookings.found (isParty userId) id)
  inboxEvents : ∀ id, Option.Rel InboxEventAlike (a.inboxEvents.found (isRecipient userId) id)
    (b.inboxEvents.found (isRecipient userId) id)
  supportTickets : ∀ id, Option.Rel (TicketAlike userId)
    (a.supportTickets.found (ownTicket userId) id) (b.supportTickets.found (ownTicket userId) id)
  userReports : ∀ id, Option.Rel (fun r r' => r.toReportColumns = r'.toReportColumns)
    (a.userReports.found (ownReport userId) id) (b.userReports.found (ownReport userId) id)
  userBlocks : ∀ id, Option.Rel (fun r r' => r.createdAt = r'.createdAt)
    (a.userBlocks.found (ownBlock userId) id) (b.userBlocks.found (ownBlock userId) id)
  favorites : ∀ k, Option.Rel (fun r r' => r.createdAt = r'.createdAt)
    (a.favorites.found (ownFavorite userId) k) (b.favorites.found (ownFavorite userId) k)

/-! ## Reads of related rows -/

section Reads

variable {ρ σ β : Type}

private theorem map_eq_of_rel {R : ρ → σ → Prop} {x : Option ρ} {y : Option σ} {f : ρ → β}
    {g : σ → β} (h : Option.Rel R x y) (hfg : ∀ a b, R a b → f a = g b) : x.map f = y.map g := by
  cases h with
  | some hab => exact congrArg some (hfg _ _ hab)
  | none => rfl

theorem keysApart_oldestFirst (t : Table Id ρ) (p : Id → ρ → Bool) (createdAt : ρ → Time) :
    t.KeysApart p (oldestFirst createdAt) := by
  intro k k' r r' _ _ h
  exact (Prod.mk.inj (toLex.injective h)).2

/-- Rows that are found alike are read alike, the oldest first. -/
theorem findMany_oldestFirst_congr {t : Table Id ρ} {u : Table Id σ} {p : Id → ρ → Bool}
    {q : Id → σ → Bool} {c : ρ → Time} {d : σ → Time} {R : ρ → σ → Prop} {f : Id → ρ → β}
    {g : Id → σ → β} (h : ∀ id, Option.Rel R (t.found p id) (u.found q id))
    (hR : ∀ id a b, R a b → c a = d b ∧ f id a = g id b) :
    (t.findMany p (oldestFirst c)).map (fun r => f r.1 r.2) =
      (u.findMany q (oldestFirst d)).map fun r => g r.1 r.2 := by
  refine Table.findMany_map_congr (keysApart_oldestFirst t p c) fun id => ?_
  refine map_eq_of_rel (h id) fun a b hab => ?_
  obtain ⟨hcd, hfg⟩ := hR id a b hab
  rw [oldestFirst, oldestFirst, hcd, hfg]

theorem found_true (t : Table Id ρ) (id : Id) : t.found (fun _ _ => true) id = t.get id := by
  unfold Table.found
  cases t.get id <;> rfl

theorem related_congr {t : Table Id ρ} {u : Table Id σ} {c : ρ → Time} {d : σ → Time}
    {R : ρ → σ → Prop} {f : Id → ρ → β} {g : Id → σ → β} (h : Table.Alike R t u)
    (hR : ∀ id a b, R a b → c a = d b ∧ f id a = g id b) :
    (related t c).map (fun r => f r.1 r.2) = (related u d).map fun r => g r.1 r.2 := by
  refine findMany_oldestFirst_congr (fun id => ?_) hR
  rw [found_true, found_true]
  exact h id

theorem length_related (t : Table Id ρ) (c : ρ → Time) :
    (related t c).length = t.rows.length := by
  unfold related Table.findMany
  rw [List.length_insertionSort, List.filter_eq_self.mpr fun _ _ => rfl]

/-- What the rows contribute to a joint list. -/
theorem flatMap_congr_of_map {l : List ρ} {m : List σ} {f : ρ → List β} {g : σ → List β}
    (h : l.map f = m.map g) : l.flatMap f = m.flatMap g := by
  rw [List.flatMap_def, List.flatMap_def, h]

end Reads

/-! ## Rows -/

section Rows

variable {userText : String} {userId : Id} {now : Time}

theorem actorOf_congr {a b : Option Id} (h : a = some userId ↔ b = some userId) :
    actorOf userId a = actorOf userId b := by
  simp only [actorOf, h]

theorem photosOf_congr {a b : ItemRow} (h : ItemAlike a b) {β : Type}
    {f : Id → ItemPhotoRow → β} (hf : ∀ id p q, PhotoAlike p q → f id p = f id q) :
    (photosOf a).map (fun r => f r.1 r.2) = (photosOf b).map fun r => f r.1 r.2 := by
  refine Table.findMany_map_congr ?_ fun id => ?_
  · intro k k' r r' _ _ hkey
    exact (Prod.mk.inj (toLex.injective hkey)).2
  · rw [found_true, found_true]
    refine map_eq_of_rel (h.photos id) fun p q hpq => ?_
    rw [inSortOrder, inSortOrder, hpq.sortOrder, hf id p q hpq]

theorem exportItem_congr (id : Id) {a b : ItemRow} (h : ItemAlike a b) :
    exportItem id a = exportItem id b ∧ itemFiles id a = itemFiles id b := by
  constructor
  · have hphotos := photosOf_congr (f := exportPhoto) h fun id p q hpq => by
      rw [exportPhoto, exportPhoto, hpq.sortOrder, hpq.isCover, hpq.createdAt]
    rw [exportItem, exportItem, h.columns, hphotos]
  · refine photosOf_congr (f := photoFile id) h fun photoId p q hpq => ?_
    rw [photoFile, photoFile, hpq.createdAt]

theorem exportTransition_congr {a b : TransitionRow} (h : TransitionAlike userId a b) :
    exportTransition userId a = exportTransition userId b := by
  have hnone : a.actorId.isNone = b.actorId.isNone := by
    rw [Bool.eq_iff_iff, Option.isNone_iff_eq_none, Option.isNone_iff_eq_none]
    exact h.actor.1
  unfold exportTransition
  rw [h.columns, hnone, actorOf_congr h.actor.2]

/-- Files that are alike, as entries of the manifest. -/
theorem files_congr {own : Prop} {t u : Table Id FileRow} (h : FilesAlike own t u) (hown : own)
    (category : FileCategory) (entityId : Id) :
    ((related t (·.createdAt)).map fun r => ownFile category entityId r.1 r.2) =
      (related u (·.createdAt)).map fun r => ownFile category entityId r.1 r.2 := by
  refine related_congr (h.own hown) fun id a b hab => ⟨hab.createdAt, ?_⟩
  rw [ownFile, ownFile, hab.sha256, hab.createdAt]

theorem exportAct_congr (id bookingId : Id) {a b : ActRow} (h : ActAlike userId a b) :
    exportAct userId id a = exportAct userId id b ∧
      actFiles userId bookingId a = actFiles userId bookingId b := by
  have hauthor : actorOf userId (some a.authorId) = actorOf userId (some b.authorId) := by
    refine actorOf_congr ?_
    rw [Option.some.injEq, Option.some.injEq]
    exact h.author
  have hconfirmer : a.confirmedById.map (fun id => actorOf userId (some id)) =
      b.confirmedById.map fun id => actorOf userId (some id) := by
    obtain ⟨hnone, hself⟩ := h.confirmer
    cases ha : a.confirmedById with
    | none => rw [hnone.mp ha]
    | some x =>
      cases hb : b.confirmedById with
      | none =>
        rw [hnone.mpr hb] at ha
        cases ha
      | some y =>
        rw [ha, hb] at hself
        rw [Option.map_some, Option.map_some, actorOf_congr hself]
  constructor
  · unfold exportAct
    rw [h.columns, hauthor, hconfirmer, length_related, length_related, h.evidence.count]
  · unfold actFiles
    by_cases hown : a.authorId = userId
    · rw [if_neg (not_not_intro hown), if_neg (not_not_intro (h.author.mp hown))]
      exact files_congr h.evidence hown .bookingEvidence bookingId
    · rw [if_pos hown, if_pos fun hb => hown (h.author.mpr hb)]

theorem exportMessage_congr (id : Id) {a b : MessageRow} (h : MessageAlike userId a b) :
    exportMessage userId id a = exportMessage userId id b := by
  unfold exportMessage
  rw [h.columns, actorOf_congr h.author]

theorem exportReview_congr (id : Id) {a b : ReviewRow} (h : ReviewAlike userId a b) :
    exportReview userId now id a = exportReview userId now id b := by
  unfold exportReview
  rw [h.rating, h.text, h.publishAt, h.hidden, h.createdAt, actorOf_congr h.author]

theorem exportTerms_congr {a b : Option SnapshotJson.BookingTermsSnapshot}
    (h : a.map (disclosed userText) = b.map (disclosed userText)) :
    a.map exportTerms = b.map exportTerms ∧
      ownAcceptance userText a = ownAcceptance userText b := by
  have hterms : exportTerms = exportTerms ∘ disclosed userText := rfl
  have haccept : ∀ x : Option SnapshotJson.BookingTermsSnapshot,
      ownAcceptance userText x = (x.map (disclosed userText)).bind (·.acceptance) := by
    intro x
    cases x <;> rfl
  constructor
  · rw [hterms, ← Option.map_map, ← Option.map_map, h]
  · rw [haccept, haccept, h]

/-- **Bookings that are alike are exported alike.** -/
theorem exportBooking_congr (id : Id) {a b : BookingRow}
    (h : BookingAlike userText userId now a b) :
    exportBooking userId now id a = exportBooking userId now id b ∧
      bookingAcceptance userText id a = bookingAcceptance userText id b ∧
      bookingFinances id a = bookingFinances id b ∧
      bookingFiles userId id a = bookingFiles userId id b := by
  obtain ⟨hterms, haccept⟩ := exportTerms_congr h.terms
  have htransitions := related_congr (f := fun _ => exportTransition userId)
    (g := fun _ => exportTransition userId) h.transitions fun _ x y hxy =>
      ⟨congrArg TransitionColumns.createdAt hxy.columns, exportTransition_congr hxy⟩
  have hacts := related_congr (f := exportAct userId) (g := exportAct userId) h.acts
    fun actId x y hxy =>
      ⟨congrArg ActColumns.createdAt hxy.columns, (exportAct_congr actId id hxy).1⟩
  have hmessages := related_congr (f := exportMessage userId) (g := exportMessage userId)
    h.messages fun messageId x y hxy =>
      ⟨congrArg MessageColumns.createdAt hxy.columns, exportMessage_congr messageId hxy⟩
  have hshown : ∀ c : BookingRow, (related c.reviews (·.createdAt)).filter
      (fun r => isShown userId now r.1 r.2) =
        c.reviews.findMany (isShown userId now) (oldestFirst (·.createdAt)) := fun c =>
    Table.filter_findMany (keysApart_oldestFirst c.reviews _ _)
  have hreviews := findMany_oldestFirst_congr (f := exportReview userId now)
    (g := exportReview userId now) h.reviews fun reviewId x y hxy =>
      ⟨hxy.createdAt, exportReview_congr reviewId hxy⟩
  have hfiles := related_congr (f := fun _ => actFiles userId id)
    (g := fun _ => actFiles userId id) h.acts fun actId x y hxy =>
      ⟨congrArg ActColumns.createdAt hxy.columns, (exportAct_congr actId id hxy).2⟩
  refine ⟨?_, ?_, ?_, flatMap_congr_of_map hfiles⟩
  · unfold exportBooking
    simp only [h.columns, h.borrower, hterms, htransitions, hacts, hmessages, hshown, hreviews]
  · rw [bookingAcceptance, bookingAcceptance, haccept]
  · have hpayment : ∀ c : BookingRow, bookingFinances id c =
        ((c.payment.map (·.toPaymentColumns)).map (financialRecord id)).toList := by
      intro c
      rw [Option.map_map]
      rfl
    rw [hpayment, hpayment, h.payment]

theorem exportSupportMessage_congr (id ticketId : Id) {a b : SupportMessageRow}
    (h : SupportMessageAlike userId a b) :
    exportSupportMessage userId id a = exportSupportMessage userId id b ∧
      messageFiles userId ticketId a = messageFiles userId ticketId b := by
  constructor
  · unfold exportSupportMessage
    simp only [h.columns, h.author, length_related, h.attachments.count]
  · unfold messageFiles
    by_cases hown : a.authorId = userId
    · rw [if_neg (not_not_intro hown), if_neg (not_not_intro (h.author.mp hown))]
      exact files_congr h.attachments hown .supportAttachment ticketId
    · rw [if_pos hown, if_pos fun hb => hown (h.author.mpr hb)]

theorem exportTicket_congr (id : Id) {a b : SupportTicketRow} (h : TicketAlike userId a b) :
    exportTicket userId id a = exportTicket userId id b ∧
      ticketFiles userId id a = ticketFiles userId id b := by
  have hmessages := related_congr (f := exportSupportMessage userId)
    (g := exportSupportMessage userId) h.messages fun messageId x y hxy =>
      ⟨congrArg SupportMessageColumns.createdAt hxy.columns,
        (exportSupportMessage_congr messageId id hxy).1⟩
  have hfiles := related_congr (f := fun _ => messageFiles userId id)
    (g := fun _ => messageFiles userId id) h.messages fun messageId x y hxy =>
      ⟨congrArg SupportMessageColumns.createdAt hxy.columns,
        (exportSupportMessage_congr messageId id hxy).2⟩
  refine ⟨?_, flatMap_congr_of_map hfiles⟩
  rw [exportTicket, exportTicket, h.columns, hmessages]

end Rows

/-! ## The export -/

section Export

variable {idText : Id → String} {userId : Id} {now : Time} {a b : ExportDatabase}

theorem exportProfile_congr {x y : UserRow} (h : UserAlike x y) :
    exportProfile userId x = exportProfile userId y := by
  unfold exportProfile
  rw [h.phone, h.name, h.city, h.avatar, h.role, h.kycStatus, h.createdAt, h.updatedAt]

/-- Favourites are read in the order of their items. -/
theorem favorites_congr (h : ∀ k, Option.Rel (fun r r' : FavoriteRow => r.createdAt = r'.createdAt)
    (a.favorites.found (ownFavorite userId) k) (b.favorites.found (ownFavorite userId) k)) :
    ((favoritesOf userId a).map fun r => ExportedFavorite.mk r.1.2 (toISOString r.2.createdAt)) =
      (favoritesOf userId b).map fun r => ⟨r.1.2, toISOString r.2.createdAt⟩ := by
  refine Table.findMany_map_congr (f := fun (k : Id × Id) (r : FavoriteRow) =>
    ExportedFavorite.mk k.2 (toISOString r.createdAt)) (g := fun (k : Id × Id) (r : FavoriteRow) =>
    ExportedFavorite.mk k.2 (toISOString r.createdAt)) ?_ fun k => ?_
  · rintro ⟨user, item⟩ ⟨user', item'⟩ r r' hr hr' hkey
    have huser := beq_iff_eq.mp (Table.found_eq_some.mp hr).2
    have huser' := beq_iff_eq.mp (Table.found_eq_some.mp hr').2
    have hitem := (Prod.mk.inj (toLex.injective hkey)).2
    exact Prod.ext (huser.trans huser'.symm) hitem
  · refine map_eq_of_rel (h k) fun r r' hrr' => ?_
    rw [hrr']

/-- **What is alike for the user is exported alike.** -/
theorem create_congr (h : Alike idText userId now a b) :
    create userId a idText now = create userId b idText now := by
  have hlistings := findMany_oldestFirst_congr (f := exportItem) (g := exportItem) h.items
    fun id x y hxy => ⟨congrArg ListingColumns.createdAt hxy.columns, (exportItem_congr id hxy).1⟩
  have hitemFiles := findMany_oldestFirst_congr (f := itemFiles) (g := itemFiles) h.items
    fun id x y hxy => ⟨congrArg ListingColumns.createdAt hxy.columns, (exportItem_congr id hxy).2⟩
  have hrules := findMany_oldestFirst_congr
    (f := fun id r => listingAcceptance id r.toListingColumns)
    (g := fun id r => listingAcceptance id r.toListingColumns) h.items fun id x y hxy =>
      ⟨congrArg ListingColumns.createdAt hxy.columns, by rw [hxy.columns]⟩
  have hcreated : ∀ {x y : BookingRow}, BookingAlike (idText userId) userId now x y →
      x.createdAt = y.createdAt := fun hxy => congrArg BookingColumns.createdAt hxy.columns
  have hbookings := findMany_oldestFirst_congr (f := exportBooking userId now)
    (g := exportBooking userId now) h.bookings fun id x y hxy =>
      ⟨hcreated hxy, (exportBooking_congr id hxy).1⟩
  have haccepted := findMany_oldestFirst_congr (f := bookingAcceptance (idText userId))
    (g := bookingAcceptance (idText userId)) h.bookings fun id x y hxy =>
      ⟨hcreated hxy, (exportBooking_congr id hxy).2.1⟩
  have hfinances := findMany_oldestFirst_congr (f := bookingFinances) (g := bookingFinances)
    h.bookings fun id x y hxy => ⟨hcreated hxy, (exportBooking_congr id hxy).2.2.1⟩
  have hbookingFiles := findMany_oldestFirst_congr (f := bookingFiles userId)
    (g := bookingFiles userId) h.bookings fun id x y hxy =>
      ⟨hcreated hxy, (exportBooking_congr id hxy).2.2.2⟩
  have htickets := findMany_oldestFirst_congr (f := exportTicket userId) (g := exportTicket userId)
    h.supportTickets fun id x y hxy =>
      ⟨congrArg SupportTicketColumns.createdAt hxy.columns, (exportTicket_congr id hxy).1⟩
  have hticketFiles := findMany_oldestFirst_congr (f := ticketFiles userId)
    (g := ticketFiles userId) h.supportTickets fun id x y hxy =>
      ⟨congrArg SupportTicketColumns.createdAt hxy.columns, (exportTicket_congr id hxy).2⟩
  have hinbox := findMany_oldestFirst_congr (f := exportInboxEvent) (g := exportInboxEvent)
    h.inboxEvents fun id x y hxy => ⟨hxy.createdAt, by
      rw [exportInboxEvent, exportInboxEvent, hxy.eventType, hxy.readAt, hxy.createdAt]⟩
  have hreports := findMany_oldestFirst_congr (f := fun id r => exportReport id r.toReportColumns)
    (g := fun id r => exportReport id r.toReportColumns) h.userReports fun id x y hxy =>
      ⟨congrArg ReportColumns.createdAt hxy, by rw [hxy]⟩
  have hblocks := findMany_oldestFirst_congr
    (f := fun id (r : UserBlockRow) => ExportedBlock.mk id (toISOString r.createdAt))
    (g := fun id (r : UserBlockRow) => ExportedBlock.mk id (toISOString r.createdAt)) h.userBlocks
    fun id x y hxy => ⟨hxy, by rw [hxy]⟩
  have hfavorites := favorites_congr h.favorites
  unfold create
  cases huser : findUser userId a with
  | none =>
    have hrel := h.user
    rw [huser] at hrel
    cases hother : findUser userId b with
    | none => rfl
    | some y =>
      rw [hother] at hrel
      cases hrel
  | some x =>
    have hrel := h.user
    rw [huser] at hrel
    cases hother : findUser userId b with
    | none =>
      rw [hother] at hrel
      cases hrel
    | some y =>
      rw [hother] at hrel
      cases hrel with
      | some hxy =>
        simp only [required, bind, Except.bind, itemsOf, bookingsOf, inboxOf, ticketsOf, reportsOf,
          blocksOf, exportProfile_congr hxy, hlistings, hbookings, hinbox, htickets, hreports,
          hblocks, hfavorites, flatMap_congr_of_map hrules, flatMap_congr_of_map haccepted,
          flatMap_congr_of_map hfinances, flatMap_congr_of_map hitemFiles,
          flatMap_congr_of_map hbookingFiles, flatMap_congr_of_map hticketFiles]

/-! ## Nothing is missing -/

/-- The rows that satisfy the condition, each once. -/
structure Lists {ρ : Type} (ids : List Id) (t : Table Id ρ) (p : Id → ρ → Bool) : Prop where
  nodup : ids.Nodup
  mem : ∀ id, id ∈ ids ↔ ∃ row, t.found p id = some row

/-- What is made of each row that is read carries its identifier. -/
theorem lists_map_findMany {ρ τ β : Type} [LinearOrder τ] {t : Table Id ρ} {p : Id → ρ → Bool}
    {key : Id → ρ → τ} {f : Id × ρ → β} {id : β → Id} (hid : ∀ r, id (f r) = r.1) :
    Lists (((t.findMany p key).map f).map id) t p := by
  have hids : ((t.findMany p key).map f).map id = (t.findMany p key).map Prod.fst := by
    rw [List.map_map]
    exact List.map_congr_left fun r _ => hid r
  rw [hids]
  refine ⟨Table.nodup_findMany, fun k => ?_⟩
  simp only [List.mem_map, Prod.exists, Table.found_eq_some]
  constructor
  · rintro ⟨k, row, hrow, rfl⟩
    exact ⟨row, Table.mem_findMany.mp hrow⟩
  · rintro ⟨row, hrow⟩
    exact ⟨k, row, Table.mem_findMany.mpr hrow, rfl⟩

/-- The files that the user has uploaded. -/
inductive OwnFile (userId : Id) (db : ExportDatabase) : ManifestFile → Prop where
  | photo (itemId photoId : Id) (item : ItemRow) (photo : ItemPhotoRow)
      (hitem : db.items.found (ownListing userId) itemId = some item)
      (hphoto : item.photos.get photoId = some photo) :
      OwnFile userId db (photoFile itemId photoId photo)
  | evidence (bookingId actId fileId : Id) (booking : BookingRow) (act : ActRow) (file : FileRow)
      (hbooking : db.bookings.found (isParty userId) bookingId = some booking)
      (hact : booking.acts.get actId = some act) (hauthor : act.authorId = userId)
      (hfile : act.evidence.get fileId = some file) :
      OwnFile userId db (ownFile .bookingEvidence bookingId fileId file)
  | attachment (ticketId messageId fileId : Id) (ticket : SupportTicketRow)
      (message : SupportMessageRow) (file : FileRow)
      (hticket : db.supportTickets.found (ownTicket userId) ticketId = some ticket)
      (hmessage : ticket.messages.get messageId = some message)
      (hauthor : message.authorId = userId)
      (hfile : message.attachments.get fileId = some file) :
      OwnFile userId db (ownFile .supportAttachment ticketId fileId file)

structure Complete (userId : Id) (db : ExportDatabase) (e : UserDataExport) : Prop where
  listings : Lists (e.listings.map (·.id)) db.items (ownListing userId)
  bookings : Lists (e.bookings.map (·.id)) db.bookings (isParty userId)
  inbox : Lists (e.inbox.map (·.id)) db.inboxEvents (isRecipient userId)
  support : Lists (e.support.map (·.id)) db.supportTickets (ownTicket userId)
  reports : Lists (e.reports.map (·.id)) db.userReports (ownReport userId)
  blocks : Lists (e.blocks.map (·.id)) db.userBlocks (ownBlock userId)
  files : ∀ file, file ∈ e.fileManifest ↔ OwnFile userId db file

theorem mem_related {ρ : Type} {t : Table Id ρ} {c : ρ → Time} {id : Id} {row : ρ} :
    (id, row) ∈ related t c ↔ t.get id = some row := by
  rw [related, Table.mem_findMany, and_iff_left rfl]

theorem mem_itemFiles {id : Id} {item : ItemRow} {file : ManifestFile} :
    file ∈ itemFiles id item ↔ ∃ photoId photo,
      item.photos.get photoId = some photo ∧ file = photoFile id photoId photo := by
  simp only [itemFiles, photosOf, List.mem_map, Prod.exists, Table.mem_findMany, and_true]
  constructor
  · rintro ⟨photoId, photo, hphoto, rfl⟩
    exact ⟨photoId, photo, hphoto, rfl⟩
  · rintro ⟨photoId, photo, hphoto, rfl⟩
    exact ⟨photoId, photo, hphoto, rfl⟩

theorem mem_bookingFiles {id : Id} {booking : BookingRow} {file : ManifestFile} :
    file ∈ bookingFiles userId id booking ↔ ∃ actId act fileId row,
      booking.acts.get actId = some act ∧ act.authorId = userId ∧
        act.evidence.get fileId = some row ∧ file = ownFile .bookingEvidence id fileId row := by
  simp only [bookingFiles, List.mem_flatMap, Prod.exists, mem_related, actFiles]
  constructor
  · rintro ⟨actId, act, hact, hfile⟩
    split at hfile
    · cases hfile
    · rename_i hauthor
      simp only [List.mem_map, Prod.exists, mem_related] at hfile
      obtain ⟨fileId, row, hrow, rfl⟩ := hfile
      exact ⟨actId, act, fileId, row, hact, not_not.mp hauthor, hrow, rfl⟩
  · rintro ⟨actId, act, fileId, row, hact, hauthor, hrow, rfl⟩
    refine ⟨actId, act, hact, ?_⟩
    rw [if_neg (not_not_intro hauthor)]
    exact List.mem_map.mpr ⟨(fileId, row), mem_related.mpr hrow, rfl⟩

theorem mem_ticketFiles {id : Id} {ticket : SupportTicketRow} {file : ManifestFile} :
    file ∈ ticketFiles userId id ticket ↔ ∃ messageId message fileId row,
      ticket.messages.get messageId = some message ∧ message.authorId = userId ∧
        message.attachments.get fileId = some row ∧
          file = ownFile .supportAttachment id fileId row := by
  simp only [ticketFiles, List.mem_flatMap, Prod.exists, mem_related, messageFiles]
  constructor
  · rintro ⟨messageId, message, hmessage, hfile⟩
    split at hfile
    · cases hfile
    · rename_i hauthor
      simp only [List.mem_map, Prod.exists, mem_related] at hfile
      obtain ⟨fileId, row, hrow, rfl⟩ := hfile
      exact ⟨messageId, message, fileId, row, hmessage, not_not.mp hauthor, hrow, rfl⟩
  · rintro ⟨messageId, message, fileId, row, hmessage, hauthor, hrow, rfl⟩
    refine ⟨messageId, message, hmessage, ?_⟩
    rw [if_neg (not_not_intro hauthor)]
    exact List.mem_map.mpr ⟨(fileId, row), mem_related.mpr hrow, rfl⟩

/-- The manifest lists the files of the user, and no others. -/
theorem mem_manifest {db : ExportDatabase} {file : ManifestFile} :
    file ∈ ((itemsOf userId db).flatMap fun r => itemFiles r.1 r.2) ++
        ((bookingsOf userId db).flatMap fun r => bookingFiles userId r.1 r.2) ++
          ((ticketsOf userId db).flatMap fun r => ticketFiles userId r.1 r.2) ↔
      OwnFile userId db file := by
  simp only [List.mem_append, List.mem_flatMap, Prod.exists, itemsOf, bookingsOf, ticketsOf,
    Table.mem_findMany, ← Table.found_eq_some, mem_itemFiles, mem_bookingFiles, mem_ticketFiles]
  constructor
  · rintro ((⟨itemId, item, hitem, photoId, photo, hphoto, rfl⟩ |
      ⟨bookingId, booking, hbooking, actId, act, fileId, row, hact, hauthor, hrow, rfl⟩) |
        ⟨ticketId, ticket, hticket, messageId, message, fileId, row, hmessage, hauthor, hrow, rfl⟩)
    · exact .photo itemId photoId item photo hitem hphoto
    · exact .evidence bookingId actId fileId booking act row hbooking hact hauthor hrow
    · exact .attachment ticketId messageId fileId ticket message row hticket hmessage hauthor hrow
  · intro h
    cases h with
    | photo itemId photoId item photo hitem hphoto =>
      exact Or.inl (Or.inl ⟨itemId, item, hitem, photoId, photo, hphoto, rfl⟩)
    | evidence bookingId actId fileId booking act row hbooking hact hauthor hrow =>
      exact Or.inl (Or.inr
        ⟨bookingId, booking, hbooking, actId, act, fileId, row, hact, hauthor, hrow, rfl⟩)
    | attachment ticketId messageId fileId ticket message row hticket hmessage hauthor hrow =>
      exact Or.inr
        ⟨ticketId, ticket, hticket, messageId, message, fileId, row, hmessage, hauthor, hrow, rfl⟩

theorem complete_of_create {db : ExportDatabase} {e : UserDataExport}
    (h : create userId db idText now = .ok e) : Complete userId db e := by
  unfold create at h
  cases huser : findUser userId db with
  | none =>
    rw [huser] at h
    cases h
  | some user =>
    rw [huser] at h
    obtain rfl := Except.ok.inj h
    exact
      { listings := lists_map_findMany fun _ => rfl
        bookings := lists_map_findMany fun _ => rfl
        inbox := lists_map_findMany fun _ => rfl
        support := lists_map_findMany fun _ => rfl
        reports := lists_map_findMany fun _ => rfl
        blocks := lists_map_findMany fun _ => rfl
        files := fun _ => mem_manifest }

end Export

namespace ExportScenario

def terms (lender address : String) (latitude : ℚ) : JsonValue :=
  .object
    [("itemTitle", .string "Дрель"), ("lenderId", .string lender), ("lenderDisplayName", .null),
      ("pricePerDay", .number 100), ("days", .number 3), ("rentalSubtotal", .number 300),
      ("depositAmount", .null), ("platformFee", .number 0), ("ownerPayout", .number 300),
      ("total", .number 300), ("currency", .string "RUB"),
      ("paymentScenario", .string "PAY_ON_HANDOVER"),
      ("handover", .object [("area", .string "Центр"), ("address", .string address),
        ("latitude", .number latitude), ("longitude", .number 37)]),
      ("listingVersion", .string "v1"), ("offerVersion", .null),
      ("cancellationPolicyVersion", .null), ("acceptance", .null)]

def message (lenderId : Id) : MessageRow := ⟨⟨.lender, "Добрый день", 20⟩, some lenderId⟩

def act (lenderId : Id) (hash : String) : ActRow :=
  ⟨⟨.handover, 30, none⟩, lenderId, none, Table.empty.insert 9 ⟨"evidence/9", hash, 30⟩⟩

/-- A review of the lender, to be published at 1000. -/
def review (lenderId : Id) : ReviewRow :=
  ⟨⟨⟨2, by decide⟩, some "Вернули поздно", 1000, none, 50⟩, some lenderId, none, none⟩

def booking (lenderId : Id) (snapshot : JsonValue) (hash : String)
    (reviews : Table Id ReviewRow) : BookingRow where
  startDate := 0
  endDate := 2 * dayMs
  totalAmount := ⟨30000⟩
  status := .completed
  expiresAt := none
  cancellationReason := none
  createdAt := 10
  updatedAt := 40
  borrowerId := 1
  lenderId
  termsSnapshot := some snapshot
  payment := none
  transitions := Table.empty
  acts := Table.empty.insert 8 (act lenderId hash)
  messages := Table.empty.insert 5 (message lenderId)
  reviews

/-- User 1 has borrowed something of the lender. -/
def database (lenderId : Id) (snapshot : JsonValue) (hash : String)
    (reviews : Table Id ReviewRow) : ExportDatabase where
  users := Table.empty.insert 1 ⟨"+79990000001", none, none, none, .user, none, false, none, 0, 0⟩
  items := Table.empty
  bookings := Table.empty.insert 7 (booking lenderId snapshot hash reviews)
  inboxEvents := Table.empty
  supportTickets := Table.empty
  userReports := Table.empty
  userBlocks := Table.empty
  favorites := Table.empty

theorem found_insert_empty {ρ : Type} (k id : Id) (row : ρ) (p : Id → ρ → Bool) :
    (Table.empty.insert k row).found p id = if id = k ∧ p k row = true then some row else none := by
  unfold Table.found
  by_cases hid : id = k
  · subst hid
    rw [Table.get_insert_self _ (Table.get_empty id)]
    cases hp : p id row <;> simp [hp]
  · rw [Table.get_insert_ne _ _ hid, Table.get_empty, if_neg fun h => hid h.1]
    rfl

theorem rel_insert_empty {ρ : Type} {R : ρ → ρ → Prop} {k : Id} {r s : ρ} {p : Id → ρ → Bool}
    (hp : p k r = p k s) (h : R r s) (id : Id) :
    Option.Rel R ((Table.empty.insert k r).found p id) ((Table.empty.insert k s).found p id) := by
  rw [found_insert_empty, found_insert_empty, hp]
  split
  · exact .some h
  · exact .none

theorem alike_insert_empty {ρ : Type} {R : ρ → ρ → Prop} {k : Id} {r s : ρ} (h : R r s) :
    Table.Alike R (Table.empty.insert k r) (Table.empty.insert k s) := by
  intro id
  rw [← found_true, ← found_true]
  exact rel_insert_empty (p := fun _ _ => true) rfl h id

def textOf (id : Id) : String := "user-" ++ toString id

def home : ExportDatabase :=
  database 2 (terms "user-2" "Улица, 1" 55) "hash of 2" (Table.empty.insert 3 (review 2))

def elsewhere : ExportDatabase :=
  database 4 (terms "user-4" "Переулок, 8" 56) "hash of 4" Table.empty

theorem alike : Alike textOf 1 100 home elsewhere where
  user := .some ⟨rfl, rfl, rfl, rfl, rfl, rfl, rfl, rfl⟩
  items _ := .none
  bookings := by
    refine rel_insert_empty rfl ?_
    constructor
    · rfl
    · rfl
    · decide +kernel
    · rfl
    · exact fun _ => .none
    · refine alike_insert_empty ⟨rfl, by decide, ⟨Iff.rfl, Iff.rfl⟩, ⟨fun h => ?_, rfl⟩⟩
      cases h
    · exact alike_insert_empty ⟨rfl, by decide⟩
    · intro id
      have hhidden : isShown 1 100 3 (review 2) = false := by decide
      have hnone : (Table.empty.insert 3 (review 2)).found (isShown 1 100) id = none := by
        rw [found_insert_empty, hhidden]
        exact if_neg fun h => Bool.false_ne_true h.2
      change Option.Rel _ ((Table.empty.insert 3 (review 2)).found (isShown 1 100) id) none
      rw [hnone]
      exact .none
  inboxEvents _ := .none
  supportTickets _ := .none
  userReports _ := .none
  userBlocks _ := .none
  favorites _ := .none

end ExportScenario

end UserDataExportService

end Sosedi
