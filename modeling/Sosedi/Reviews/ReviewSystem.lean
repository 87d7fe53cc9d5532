import Sosedi.Chat.ChatSystem

/-!
# The system around the reviews of bookings

The tables that the review service reads and writes.  The parties of a booking never change.
Other services change its status and the accounts, record that a booking is completed, which
happens once, and hide a review that was reported.
-/

namespace Sosedi

open Transactions

inductive ReviewAuthorRole where
  | borrower
  | lender
  deriving DecidableEq

/-- One to five stars. -/
abbrev Rating := { stars : Nat // 1 ≤ stars ∧ stars ≤ 5 }

structure ReviewRow where
  bookingId : Id
  authorId : Id
  targetId : Id
  authorRole : ReviewAuthorRole
  clientReviewId : String
  rating : Rating
  text : Option String
  publishAt : Time
  hiddenAt : Option Time
  createdAt : Time
  deriving DecidableEq

/-- What other services change. -/
structure ReviewCircumstances where
  statuses : Id → BookingStatus
  users : Id → Option ChatAccount

structure ReviewDatabase where
  bookings : Table Id BookingParties
  circumstances : ReviewCircumstances
  /-- The booking and the creation time of each history row whose new status is `COMPLETED`. -/
  completions : List (Id × Time)
  reviews : Table Id ReviewRow

inductive ReviewKey where
  /-- `review-idempotency:${actorId}:${clientReviewId}`. -/
  | idempotency (actorId : Id) (clientReviewId : String)
  | booking (bookingId : Id)
  | reviewRow (id : Id)
  /-- The two unique indexes. -/
  | roleIndex (bookingId : Id) (authorRole : ReviewAuthorRole)
  | clientIndex (authorId : Id) (clientReviewId : String)
  deriving DecidableEq

inductive ReviewEvent where
  | quiet
  /-- Another service commits. -/
  | change (circumstances : ReviewCircumstances)
  | complete (bookingId : Id) (createdAt : Time)
  | hide (id : Id) (now : Time)
  /-- `now` is the clock that the call has read; `published` are the rows that it publishes. -/
  | create (now : Time) (id : Id) (review : ReviewRow) (published : List Id)

namespace ReviewDatabase

def insertReview (id : Id) (review : ReviewRow) (db : ReviewDatabase) : ReviewDatabase :=
  { db with reviews := db.reviews.insert id review }

def publishReviews (ids : List Id) (now : Time) (db : ReviewDatabase) : ReviewDatabase :=
  { db with reviews := db.reviews.mapRows fun id review =>
    if id ∈ ids then { review with publishAt := now } else review }

def hideReview (id : Id) (now : Time) (db : ReviewDatabase) : ReviewDatabase :=
  { db with reviews := db.reviews.modify id ({ · with hiddenAt := some now }) }

def addCompletion (bookingId : Id) (createdAt : Time) (db : ReviewDatabase) : ReviewDatabase :=
  { db with
    circumstances := { db.circumstances with
      statuses := Function.update db.circumstances.statuses bookingId .completed }
    completions := db.completions ++ [(bookingId, createdAt)] }

end ReviewDatabase

def ReviewEvent.applyDb : ReviewEvent → ReviewDatabase → ReviewDatabase
  | quiet, db => db
  | change circumstances, db => { db with circumstances }
  | complete bookingId createdAt, db => db.addCompletion bookingId createdAt
  | hide id now, db => db.hideReview id now
  | create now id review published, db =>
    (db.insertReview id review).publishReviews published now

abbrev ReviewSys : Signature where
  DB := ReviewDatabase
  World := Unit
  Key := ReviewKey
  Event := ReviewEvent
  Error := Error

end Sosedi
