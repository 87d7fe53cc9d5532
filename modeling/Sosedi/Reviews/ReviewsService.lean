import Mathlib.Algebra.Order.Ring.Rat
import Sosedi.Chat.BookingMessageService
import Sosedi.Reviews.ReviewSystem
import Sosedi.Services.Statements

/-!
# The service of reviews

`create`, `listForBooking` and `listPublicForUser` of `ReviewsService`, and the reviews of the data
export.  A creation is a SERIALIZABLE transaction: its reads see the database of its first
statement, which is the one that waits for the first lock.
-/

namespace Sosedi

open Transactions

namespace ReviewsService

def REVIEW_WINDOW_MS : Int := 14 * 24 * 60 * 60 * 1000

structure CreateReviewDto where
  clientReviewId : String
  rating : Rating
  text : Option String

inductive ReviewAuthor where
  | self
  | counterparty
  deriving DecidableEq

structure ParticipantReviewResponse where
  id : Id
  author : ReviewAuthor
  rating : Rating
  text : Option String
  published : Bool
  hidden : Bool
  publishAt : Time
  createdAt : Time
  deriving DecidableEq

def authorOf (actorId : Id) (review : ReviewRow) : ReviewAuthor :=
  if review.authorId = actorId then .self else .counterparty

def toParticipantResponse (actorId id : Id) (review : ReviewRow) (now : Time) :
    ParticipantReviewResponse where
  id
  author := authorOf actorId review
  rating := review.rating
  text := review.text
  published := review.publishAt ≤ now && review.hiddenAt.isNone
  hidden := review.hiddenAt.isSome
  publishAt := review.publishAt
  createdAt := review.createdAt

/-! ## Writing -/

def assertSafeReviewText (text : Option String) : Except Error Unit :=
  ensure (!text.any BookingMessageService.containsUnsafeControlCharacter)
    (.badRequest "Текст содержит недопустимые управляющие символы")

def findBooking (actorId bookingId : Id) (db : ReviewDatabase) : Option BookingParties :=
  (db.bookings.get bookingId).filter fun parties =>
    parties.borrowerId == actorId || parties.lenderId == actorId

def roleOf (actorId : Id) (parties : BookingParties) : ReviewAuthorRole :=
  if parties.borrowerId = actorId then .borrower else .lender

def targetOf (authorRole : ReviewAuthorRole) (parties : BookingParties) : Id :=
  if authorRole = .borrower then parties.lenderId else parties.borrowerId

/-- `findUnique` by the author and the client's id. -/
def findRepeated (actorId : Id) (clientReviewId : String) (db : ReviewDatabase) :
    Option (Id × ReviewRow) :=
  db.reviews.rows.find? fun row =>
    row.2.authorId == actorId && row.2.clientReviewId == clientReviewId

/-- The creation time of the latest history row of the completion. -/
def lastCompletion (bookingId : Id) (db : ReviewDatabase) : Option Time :=
  ((db.completions.filter (·.1 == bookingId)).map (·.2)).max?

def hasReview (bookingId : Id) (authorRole : ReviewAuthorRole) (db : ReviewDatabase) : Bool :=
  db.reviews.any fun _ review =>
    review.bookingId == bookingId && review.authorRole == authorRole

def hasCounterpart (bookingId : Id) (authorRole : ReviewAuthorRole) (db : ReviewDatabase) : Bool :=
  db.reviews.any fun _ review =>
    review.bookingId == bookingId && review.authorRole != authorRole

def bookingNotFound : Error := .notFound "Бронирование не найдено"

def bookingNotCompleted : Error :=
  .conflictCode "REVIEW_BOOKING_NOT_COMPLETED" "Отзыв доступен только после завершённой аренды"

def idempotencyKeyReused : Error :=
  .conflictCode "IDEMPOTENCY_KEY_REUSED" "Идентификатор отзыва уже использован"

def completionNotRecorded : Error :=
  .conflictCode "REVIEW_COMPLETION_NOT_RECORDED" "Завершение аренды не подтверждено историей"

def windowClosed : Error := .conflictCode "REVIEW_WINDOW_CLOSED" "Срок публикации отзыва истёк"

def alreadySubmitted : Error :=
  .conflictCode "REVIEW_ALREADY_SUBMITTED" "Вы уже оставили отзыв об этой аренде"

def serializationFailure : Error :=
  .internal "could not serialize access due to concurrent update"

def insertReview (id : Id) (review : ReviewRow) : Prog ReviewSys Unit :=
  insertUnique [.reviewRow id, .roleIndex review.bookingId review.authorRole,
      .clientIndex review.authorId review.clientReviewId]
    (fun db => (db.reviews.get id).isSome || hasReview review.bookingId review.authorRole db ||
      (findRepeated review.authorId review.clientReviewId db).isSome)
    (.internal "Unique constraint failed: reviews")
    (ReviewDatabase.insertReview id review)

/-- The rows that a review publishes with it: those of the snapshot, and its own. -/
def toPublish (bookingId newId : Id) (deadline now : Time) (snapshot : ReviewDatabase) :
    List Id × List Id :=
  let others := snapshot.reviews.keysWhere fun _ review =>
    review.bookingId == bookingId && now < review.publishAt
  (others, others ++ if now < deadline then [newId] else [])

/-- `updateMany`: it fails when a row is no longer the one of the snapshot. -/
def publishReviews (others published : List Id) (now : Time) (snapshot : ReviewDatabase) :
    Prog ReviewSys Unit :=
  insertUnique (published.map .reviewRow)
    (fun db => others.any fun id => db.reviews.get id != snapshot.reviews.get id)
    serializationFailure (ReviewDatabase.publishReviews published now)

/-- The review is new: the checks of its booking and the insertion. -/
def submit (actorId bookingId : Id) (dto : CreateReviewDto) (parties : BookingParties)
    (now createdAt : Time) (newId : Id) (snapshot : ReviewDatabase) : Prog ReviewSys ReviewRow := do
  let authorRole := roleOf actorId parties
  let completion ← lift (required (lastCompletion bookingId snapshot) completionNotRecorded)
  let deadline := completion + REVIEW_WINDOW_MS
  lift (ensure (!decide (now > deadline)) windowClosed)
  lift (ensure (!hasReview bookingId authorRole snapshot) alreadySubmitted)
  let review : ReviewRow :=
    { bookingId, authorId := actorId, targetId := targetOf authorRole parties, authorRole
      clientReviewId := dto.clientReviewId, rating := dto.rating, text := dto.text
      publishAt := deadline, hiddenAt := none, createdAt }
  insertReview newId review
  if hasCounterpart bookingId authorRole snapshot then do
    let (others, published) := toPublish bookingId newId deadline now snapshot
    publishReviews others published now snapshot
    commit (.create now newId review published)
    pure { review with publishAt := now }
  else do
    commit (.create now newId review [])
    pure review

/-- `now` is the clock, `createdAt` the creation time of the row. -/
def create (actorId bookingId : Id) (dto : CreateReviewDto) (now createdAt : Time) (newId : Id) :
    Prog ReviewSys ParticipantReviewResponse := do
  lift (assertSafeReviewText dto.text)
  let snapshot ← select id
  acquire (.idempotency actorId dto.clientReviewId)
  acquire (.booking bookingId)
  let parties ← lift (required (findBooking actorId bookingId snapshot) bookingNotFound)
  lift (ensure (snapshot.circumstances.statuses bookingId == .completed) bookingNotCompleted)
  match findRepeated actorId dto.clientReviewId snapshot with
  | some (id, repeated) => do
    lift (ensure (!(repeated.bookingId != bookingId || repeated.rating != dto.rating ||
      repeated.text != dto.text)) idempotencyKeyReused)
    commit .quiet
    pure (toParticipantResponse actorId id repeated now)
  | none => do
    let review ← submit actorId bookingId dto parties now createdAt newId snapshot
    pure (toParticipantResponse actorId newId review now)

/-! ## Reading -/

/-- In the order of creation. -/
def createdFirst (a b : Id × ReviewRow) : Bool :=
  a.2.createdAt < b.2.createdAt || a.2.createdAt == b.2.createdAt && a.1 ≤ b.1

def reviewsOf (bookingId : Id) (db : ReviewDatabase) : List (Id × ReviewRow) :=
  (db.reviews.rows.filter fun row => row.2.bookingId == bookingId).insertionSort
    fun a b => createdFirst a b

/-- The two statements read a database each. -/
def listForBooking (actorId bookingId : Id) (now : Time) (db₀ db₁ : ReviewDatabase) :
    Except Error (List ParticipantReviewResponse) := do
  let _ ← required (findBooking actorId bookingId db₀) bookingNotFound
  let visible := (reviewsOf bookingId db₁).filter fun row =>
    row.2.authorId == actorId || row.2.publishAt ≤ now && row.2.hiddenAt.isNone
  pure (visible.map fun row => toParticipantResponse actorId row.1 row.2 now)

/-- The reviews of a booking in the data export of a user. -/
def exportReviews (userId bookingId : Id) (now : Time) (db : ReviewDatabase) :
    List ParticipantReviewResponse :=
  let shown := (reviewsOf bookingId db).filter fun row =>
    row.2.authorId == userId || row.2.publishAt ≤ now
  shown.map fun row =>
    { toParticipantResponse userId row.1 row.2 now with published := row.2.publishAt ≤ now }

structure ListReviewsQuery where
  cursor : Option Id
  limit : Mobile.PageLimit

structure PublicReview where
  id : Id
  authorRole : ReviewAuthorRole
  rating : Rating
  text : Option String
  publishedAt : Time
  createdAt : Time
  deriving DecidableEq

structure ReviewSummary where
  average : Option Rat
  count : Nat

structure PublicReviewPage where
  summary : ReviewSummary
  items : List PublicReview
  nextCursor : Option Id

/-- The WHERE clause of what everybody sees. -/
def isPublic (targetId : Id) (now : Time) (review : ReviewRow) : Bool :=
  review.targetId == targetId && review.hiddenAt.isNone && review.publishAt ≤ now

def publicRows (targetId : Id) (now : Time) (db : ReviewDatabase) : List (Id × ReviewRow) :=
  db.reviews.rows.filter fun row => isPublic targetId now row.2

/-- `_avg` and `_count`. -/
def summaryOf (reviews : List (Id × ReviewRow)) : ReviewSummary where
  average := if reviews.isEmpty then none
    else some ((reviews.map fun row => (row.2.rating.1 : Rat)).sum / reviews.length)
  count := reviews.length

/-- The newest first. -/
def newestFirst (a b : Id × ReviewRow) : Bool :=
  b.2.createdAt < a.2.createdAt || a.2.createdAt == b.2.createdAt && b.1 ≤ a.1

def isAfterCursor (cursor row : Id × ReviewRow) : Bool :=
  row.2.createdAt < cursor.2.createdAt || row.2.createdAt == cursor.2.createdAt && row.1 < cursor.1

def toPublicReview (row : Id × ReviewRow) : PublicReview where
  id := row.1
  authorRole := row.2.authorRole
  rating := row.2.rating
  text := row.2.text
  publishedAt := row.2.publishAt
  createdAt := row.2.createdAt

def findCursor (targetId : Id) (cursor : Option Id) (now : Time) (db : ReviewDatabase) :
    Except Error (Option (Id × ReviewRow)) :=
  match cursor with
  | none => .ok none
  | some id => do
    let review ← required ((db.reviews.get id).filter (isPublic targetId now))
      (.notFound "Курсор отзывов недействителен")
    pure (some (id, review))

/-- The page from the rows after the cursor. -/
def pageOf (limit : Nat) (found : List (Id × ReviewRow)) (summary : ReviewSummary) :
    PublicReviewPage :=
  let reviews := (found.insertionSort fun a b => newestFirst a b).take (limit + 1)
  let hasMore := limit < reviews.length
  let page := if hasMore then reviews.take limit else reviews
  { summary
    items := page.map toPublicReview
    nextCursor := if hasMore then page.getLast?.map (·.1) else none }

/-- The four statements read a database each. -/
def listPublicForUser (targetId : Id) (query : ListReviewsQuery) (now : Time)
    (db₀ db₁ db₂ db₃ : ReviewDatabase) : Except Error PublicReviewPage := do
  let _ ← required ((db₀.circumstances.users targetId).filter fun user =>
    user.deletedAt.isNone && !user.isBlocked) (.notFound "Профиль не найден")
  let cursor ← findCursor targetId query.cursor now db₁
  let found := (publicRows targetId now db₂).filter fun row => cursor.all (isAfterCursor · row)
  pure (pageOf query.limit.limit found (summaryOf (publicRows targetId now db₃)))

end ReviewsService

/-! ## Clients -/

/-- Another service changes what it may. -/
def changeReviewCircumstances (circumstances : ReviewCircumstances) : Prog ReviewSys Unit := do
  write [] fun db => { db with circumstances }
  commit (.change circumstances)

/-- Another service completes a booking, under its lock. -/
def completeBooking (bookingId : Id) (createdAt : Time) : Prog ReviewSys Unit := do
  acquire (.booking bookingId)
  let completed ← select fun db => db.completions.any (·.1 == bookingId)
  lift (ensure (!completed) (.conflict "Бронирование уже завершено"))
  write [] (ReviewDatabase.addCompletion bookingId createdAt)
  commit (.complete bookingId createdAt)

/-- `updateMany` of the report decision that hides a review. -/
def hideReview (id : Id) (now : Time) : Prog ReviewSys Unit := do
  let updated ← updateWhere (.reviewRow id)
    (fun db => (db.reviews.get id).any fun review =>
      review.hiddenAt.isNone && review.publishAt ≤ now)
    (ReviewDatabase.hideReview id now)
  lift (ensure updated (.notFound "Опубликованный отзыв не найден"))
  commit (.hide id now)

inductive ReviewCall where
  | create (actorId bookingId : Id) (dto : ReviewsService.CreateReviewDto) (now createdAt : Time)
      (newId : Id)
  | change (circumstances : ReviewCircumstances)
  | complete (bookingId : Id) (createdAt : Time)
  | hide (id : Id) (now : Time)

def ReviewCall.prog : ReviewCall → Prog ReviewSys Unit
  | create actorId bookingId dto now createdAt newId =>
    (ReviewsService.create actorId bookingId dto now createdAt newId).bind fun _ => .ret ()
  | change circumstances => changeReviewCircumstances circumstances
  | complete bookingId createdAt => completeBooking bookingId createdAt
  | hide id now => hideReview id now

/-- The programs of the clients. -/
def ReviewCalls (p : Prog ReviewSys Unit) : Prop := ∃ c : ReviewCall, p = c.prog

end Sosedi
