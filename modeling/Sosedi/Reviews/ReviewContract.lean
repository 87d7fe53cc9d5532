import Sosedi.Reviews.ReviewsService
import Sosedi.Transactions.RelyGuarantee

/-!
# The contract of the reviews

A step is `ReviewEvent.applyDb` of its event, under the guard of the event.

Proved here:

* `reviews_apply`: a review stays, and is only published sooner or hidden;
* `roleIndex_apply`, `clientIndex_apply`, `reviewRow_apply`: what the row locks protect;
* `review_preserved`: the invariant survives every step.
-/

namespace Sosedi

open Transactions

open ReviewsService (REVIEW_WINDOW_MS roleOf targetOf findRepeated hasReview hasCounterpart)

/-! ## The contract -/

/-- A party of the booking has written the review about the other one. -/
structure ByReviewer (review : ReviewRow) (parties : BookingParties) : Prop where
  author : parties.borrowerId = review.authorId ∨ parties.lenderId = review.authorId
  role : review.authorRole = roleOf review.authorId parties
  target : review.targetId = targetOf review.authorRole parties

/-- The end of the window of a booking that has been completed. -/
def Deadline (db : ReviewDatabase) (bookingId : Id) (deadline : Time) : Prop :=
  ∃ completion, (bookingId, completion) ∈ db.completions ∧ deadline = completion + REVIEW_WINDOW_MS

/-- The other party has written a review too. -/
def Answering (db : ReviewDatabase) (review : ReviewRow) : Prop :=
  ∃ id other, db.reviews.get id = some other ∧ other.bookingId = review.bookingId ∧
    other.authorRole ≠ review.authorRole

structure CreateGuard (K : List ReviewKey) (db : ReviewDatabase) (now : Time) (id : Id)
    (review : ReviewRow) (published : List Id) : Prop where
  party : ∃ parties, db.bookings.get review.bookingId = some parties ∧ ByReviewer review parties
  row : .reviewRow id ∈ K ∧ db.reviews.get id = none
  role : .roleIndex review.bookingId review.authorRole ∈ K ∧
    hasReview review.bookingId review.authorRole db = false
  client : .clientIndex review.authorId review.clientReviewId ∈ K ∧
    findRepeated review.authorId review.clientReviewId db = none
  deadline : Deadline db review.bookingId review.publishAt
  inTime : now ≤ review.publishAt
  visible : review.hiddenAt = none
  rows : ∀ k ∈ published, .reviewRow k ∈ K
  own : id ∈ published → now < review.publishAt
  others : ∀ k ∈ published, k = id ∨ ∃ other, db.reviews.get k = some other ∧
    other.bookingId = review.bookingId ∧ now < other.publishAt
  answering : published ≠ [] → Answering db review

/-- What holds when the event happens; `K` are the locks of its client. -/
def ReviewEvent.Guard (K : List ReviewKey) (db : ReviewDatabase) : ReviewEvent → Prop
  | complete bookingId _ => .booking bookingId ∈ K ∧ ∀ c, (bookingId, c) ∉ db.completions
  | hide id now => .reviewRow id ∈ K ∧
    ∃ review, db.reviews.get id = some review ∧ review.hiddenAt = none ∧ review.publishAt ≤ now
  | create now id review published => CreateGuard K db now id review published
  | _ => True

/-- What holds of the committed tables. -/
structure ReviewInv (db : ReviewDatabase) : Prop where
  party : ∀ id review, db.reviews.get id = some review →
    ∃ parties, db.bookings.get review.bookingId = some parties ∧ ByReviewer review parties
  role : ∀ id id' review review', db.reviews.get id = some review →
    db.reviews.get id' = some review' → review.bookingId = review'.bookingId →
    review.authorRole = review'.authorRole → id = id'
  client : ∀ id id' review review', db.reviews.get id = some review →
    db.reviews.get id' = some review' → review.authorId = review'.authorId →
    review.clientReviewId = review'.clientReviewId → id = id'
  once : ∀ bookingId c c', (bookingId, c) ∈ db.completions → (bookingId, c') ∈ db.completions →
    c = c'
  inWindow : ∀ id review, db.reviews.get id = some review →
    ∃ deadline, Deadline db review.bookingId deadline ∧ review.publishAt ≤ deadline
  /-- A review that is alone is published at the deadline. -/
  blind : ∀ id review, db.reviews.get id = some review →
    Answering db review ∨ Deadline db review.bookingId review.publishAt

abbrev ReviewStore := ReviewDatabase × Unit

def reviewContract (ok : ReviewEvent → ReviewStore → Prop) : Contract ReviewSys where
  inv σ := ReviewInv σ.1
  ok := ok
  guar ev K a b := b.1 = ev.applyDb a.1 ∧ ev.Guard K a.1

/-! ## Tables after a step -/

/-- What becomes of a review: it is published sooner, or hidden. -/
structure ReviewRow.Later (review review' : ReviewRow) : Prop where
  same : review' = { review with publishAt := review'.publishAt, hiddenAt := review'.hiddenAt }
  sooner : review'.publishAt ≤ review.publishAt
  hidden : review.hiddenAt.isSome → review'.hiddenAt = review.hiddenAt

namespace ReviewRow.Later

variable {r r' r'' : ReviewRow}

theorem refl (r : ReviewRow) : r.Later r := ⟨rfl, Int.le_refl _, fun _ => rfl⟩

theorem trans (h : r.Later r') (h' : r'.Later r'') : r.Later r'' where
  same := by
    rw [h'.same, h.same]
  sooner := Int.le_trans h'.sooner h.sooner
  hidden hsome := (h'.hidden (h.hidden hsome ▸ hsome)).trans (h.hidden hsome)

theorem bookingId (h : r.Later r') : r'.bookingId = r.bookingId := by
  rw [h.same]

theorem authorRole (h : r.Later r') : r'.authorRole = r.authorRole := by
  rw [h.same]

theorem authorId (h : r.Later r') : r'.authorId = r.authorId := by
  rw [h.same]

theorem clientReviewId (h : r.Later r') : r'.clientReviewId = r.clientReviewId := by
  rw [h.same]

end ReviewRow.Later

theorem ByReviewer.later {r r' : ReviewRow} {parties : BookingParties} (h : ByReviewer r parties)
    (hlater : r.Later r') : ByReviewer r' parties := by
  rw [hlater.same]
  exact ⟨h.author, h.role, h.target⟩

namespace ReviewDatabase

variable {db : ReviewDatabase} {k : Id}

theorem get_publishReviews (ids : List Id) (now : Time) :
    (db.publishReviews ids now).reviews.get k = (db.reviews.get k).map fun review =>
      if k ∈ ids then { review with publishAt := now } else review :=
  Table.get_mapRows _ _ _

theorem publishReviews_nil (db : ReviewDatabase) (now : Time) : db.publishReviews [] now = db := by
  simp [publishReviews]

theorem get_hideReview (id : Id) (now : Time) : (db.hideReview id now).reviews.get k =
    if k = id then (db.reviews.get k).map fun review => { review with hiddenAt := some now }
    else db.reviews.get k :=
  Table.get_modify _ _ _ _

end ReviewDatabase

theorem hasReview_eq_false {db : ReviewDatabase} {bookingId : Id} {authorRole : ReviewAuthorRole}
    (h : hasReview bookingId authorRole db = false) {k : Id} {review : ReviewRow}
    (hk : db.reviews.get k = some review) (hbooking : review.bookingId = bookingId) :
    review.authorRole ≠ authorRole := by
  rintro rfl
  have hno := Table.any_eq_false.mp h k review hk
  simp [hbooking] at hno

namespace ReviewEvent

variable {ev : ReviewEvent} {db : ReviewDatabase} {K : List ReviewKey} {k : Id}

theorem bookings_apply (ev : ReviewEvent) (db : ReviewDatabase) :
    (ev.applyDb db).bookings = db.bookings := by
  cases ev <;> rfl

theorem completions_apply (ev : ReviewEvent) {c : Id × Time} (h : c ∈ db.completions) :
    c ∈ (ev.applyDb db).completions := by
  cases ev with
  | complete bookingId createdAt => exact List.mem_append_left _ h
  | _ => exact h

/-- **A review stays**, and is only published sooner or hidden. -/
theorem reviews_apply (hg : ev.Guard K db) {review : ReviewRow}
    (h : db.reviews.get k = some review) :
    ∃ review', (ev.applyDb db).reviews.get k = some review' ∧ review.Later review' := by
  cases ev with
  | hide id now =>
    obtain ⟨-, found, hfound, hnone, -⟩ := hg
    rw [applyDb, ReviewDatabase.get_hideReview]
    by_cases hk : k = id
    · subst hk
      obtain rfl := Option.some.inj (hfound.symm.trans h)
      rw [if_pos rfl, h]
      refine ⟨_, rfl, rfl, Int.le_refl _, fun hsome => ?_⟩
      rw [hnone] at hsome
      cases hsome
    · rw [if_neg hk]
      exact ⟨review, h, .refl _⟩
  | create now id new published =>
    have hg : CreateGuard K db now id new published := hg
    have hold : (db.insertReview id new).reviews.get k = some review := Table.get_insert_of_get h
    rw [applyDb, ReviewDatabase.get_publishReviews, hold]
    by_cases hk : k ∈ published
    · refine ⟨{ review with publishAt := now }, by simp [hk], rfl, ?_, fun _ => rfl⟩
      rcases hg.others k hk with rfl | ⟨other, hother, -, hlt⟩
      · rw [hg.row.2] at h
        cases h
      · obtain rfl := Option.some.inj (hother.symm.trans h)
        exact Int.le_of_lt hlt
    · exact ⟨review, by simp [hk], .refl _⟩
  | _ => exact ⟨review, h, .refl _⟩

/-- A review after a step is one from before, or the new one. -/
theorem reviews_inv (hg : ev.Guard K db) {review' : ReviewRow}
    (h : (ev.applyDb db).reviews.get k = some review') :
    (∃ review, db.reviews.get k = some review ∧ review.Later review') ∨
      ∃ now review published, ev = .create now k review published ∧ review.Later review' ∧
        review'.publishAt = (if k ∈ published then now else review.publishAt) := by
  cases hold : db.reviews.get k with
  | some review =>
    obtain ⟨review'', hget, hlater⟩ := reviews_apply hg hold
    obtain rfl := Option.some.inj (hget.symm.trans h)
    exact Or.inl ⟨review, rfl, hlater⟩
  | none =>
    cases ev with
    | hide id now =>
      rw [applyDb, ReviewDatabase.get_hideReview] at h
      split at h
      · rw [hold] at h
        cases h
      · rw [hold] at h
        cases h
    | create now id new published =>
      have hg : CreateGuard K db now id new published := hg
      rw [applyDb, ReviewDatabase.get_publishReviews] at h
      obtain ⟨review, hget, rfl⟩ := Option.map_eq_some_iff.mp h
      rcases Table.of_get_insert hget with ⟨rfl, rfl⟩ | hget
      · refine Or.inr ⟨now, review, published, rfl, ?_, ?_⟩
        · by_cases hk : k ∈ published
          · rw [if_pos hk]
            exact ⟨rfl, Int.le_of_lt (hg.own hk), fun _ => rfl⟩
          · rw [if_neg hk]
            exact .refl _
        · by_cases hk : k ∈ published <;> simp [hk]
      · rw [hold] at hget
        cases hget
    | _ =>
      rw [show db.reviews.get k = some review' from h] at hold
      cases hold

theorem answering_apply (hg : ev.Guard K db) {review review' : ReviewRow}
    (h : Answering db review) (hlater : review.Later review') :
    Answering (ev.applyDb db) review' := by
  obtain ⟨k, other, hk, hbooking, hrole⟩ := h
  obtain ⟨other', hk', hother⟩ := reviews_apply hg hk
  refine ⟨k, other', hk', ?_, ?_⟩
  · rw [hother.bookingId, hlater.bookingId, hbooking]
  · rw [hother.authorRole, hlater.authorRole]
    exact hrole

theorem deadline_apply (ev : ReviewEvent) {bookingId : Id} {deadline : Time}
    (h : Deadline db bookingId deadline) : Deadline (ev.applyDb db) bookingId deadline := by
  obtain ⟨c, hc, hdeadline⟩ := h
  exact ⟨c, ev.completions_apply hc, hdeadline⟩

/-- What is published sooner is answered. -/
theorem answering_of_published (hg : ev.Guard K db) {review review' : ReviewRow}
    (h : db.reviews.get k = some review) (h' : (ev.applyDb db).reviews.get k = some review')
    (hne : review'.publishAt ≠ review.publishAt) : Answering (ev.applyDb db) review' := by
  cases ev with
  | hide id now =>
    rw [applyDb, ReviewDatabase.get_hideReview] at h'
    split at h'
    · rw [h] at h'
      exact absurd (congrArg ReviewRow.publishAt (Option.some.inj h').symm) hne
    · exact absurd (congrArg ReviewRow.publishAt (Option.some.inj (h.symm.trans h')).symm) hne
  | create now id new published =>
    have hguard : CreateGuard K db now id new published := hg
    have hold : (db.insertReview id new).reviews.get k = some review := Table.get_insert_of_get h
    rw [applyDb, ReviewDatabase.get_publishReviews, hold] at h'
    obtain rfl := Option.some.inj h'
    have hk : k ∈ published := by
      by_contra hno
      exact hne (by simp [hno])
    rcases hguard.others k hk with rfl | ⟨other, hother, hbooking, -⟩
    · rw [hguard.row.2] at h
      cases h
    · obtain rfl := Option.some.inj (hother.symm.trans h)
      have hrole := hasReview_eq_false hguard.role.2 h hbooking
      -- the new review is the answer
      have hnew : (db.insertReview id new).reviews.get id = some new :=
        Table.get_insert_self _ hguard.row.2
      refine ⟨id, if id ∈ published then { new with publishAt := now } else new, ?_, ?_, ?_⟩
      · rw [applyDb, ReviewDatabase.get_publishReviews, hnew]
        rfl
      · split <;> simp [hbooking]
      · split <;> simpa [hk] using Ne.symm hrole
  | _ => exact absurd (congrArg ReviewRow.publishAt (Option.some.inj (h.symm.trans h')).symm) hne

/-! ### Under the locks of others -/

theorem reviewRow_apply (hg : ev.Guard K db) (hK : .reviewRow k ∉ K) :
    (ev.applyDb db).reviews.get k = db.reviews.get k := by
  cases ev with
  | hide id now =>
    rw [applyDb, ReviewDatabase.get_hideReview, if_neg]
    rintro rfl
    exact hK hg.1
  | create now id new published =>
    have hg : CreateGuard K db now id new published := hg
    have hne : k ≠ id := by
      rintro rfl
      exact hK hg.row.1
    have hold : (db.insertReview id new).reviews.get k = db.reviews.get k :=
      Table.get_insert_ne _ _ hne
    have hno : k ∉ published := fun hk => hK (hg.rows k hk)
    rw [applyDb, ReviewDatabase.get_publishReviews, hold]
    simp [hno]
  | _ => rfl

/-- Only under the lock of an index entry is a review with it added. -/
theorem roleIndex_apply (hg : ev.Guard K db) {bookingId : Id} {authorRole : ReviewAuthorRole}
    (hK : .roleIndex bookingId authorRole ∉ K) (h : hasReview bookingId authorRole db = false) :
    hasReview bookingId authorRole (ev.applyDb db) = false := by
  refine Table.any_eq_false.mpr fun k review' hget => ?_
  rcases reviews_inv hg hget with ⟨review, hold, hlater⟩ | ⟨now, review, published, rfl, hlater, -⟩
  · rw [hlater.bookingId, hlater.authorRole]
    exact Table.any_eq_false.mp h k review hold
  · rw [hlater.bookingId, hlater.authorRole]
    have hg : CreateGuard K db now k review published := hg
    by_contra hno
    simp only [Bool.not_eq_false, Bool.and_eq_true, beq_iff_eq] at hno
    obtain ⟨rfl, rfl⟩ := hno
    exact hK hg.role.1

theorem clientIndex_apply (hg : ev.Guard K db) {authorId : Id} {clientReviewId : String}
    (hK : .clientIndex authorId clientReviewId ∉ K)
    (h : findRepeated authorId clientReviewId db = none) :
    findRepeated authorId clientReviewId (ev.applyDb db) = none := by
  refine List.find?_eq_none.mpr fun row hrow => ?_
  have hget : (ev.applyDb db).reviews.get row.1 = some row.2 := Table.get_eq_some.mpr hrow
  rcases reviews_inv hg hget with ⟨review, hold, hlater⟩ | ⟨now, review, published, rfl, hlater, -⟩
  · rw [hlater.authorId, hlater.clientReviewId]
    exact List.find?_eq_none.mp h (row.1, review) (Table.get_eq_some.mp hold)
  · rw [hlater.authorId, hlater.clientReviewId]
    have hg : CreateGuard K db now row.1 review published := hg
    intro hsame
    simp only [Bool.and_eq_true, beq_iff_eq] at hsame
    obtain ⟨rfl, rfl⟩ := hsame
    exact hK hg.client.1

/-- Only under the lock of a booking is it completed. -/
theorem completion_apply (hg : ev.Guard K db) {bookingId : Id} (hK : .booking bookingId ∉ K)
    (h : ∀ c, (bookingId, c) ∉ db.completions) :
    ∀ c, (bookingId, c) ∉ (ev.applyDb db).completions := by
  intro c hc
  cases ev with
  | complete completed createdAt =>
    rcases List.mem_append.mp hc with hold | hnew
    · exact h c hold
    · obtain ⟨rfl, -⟩ := Prod.mk.inj (List.mem_singleton.mp hnew)
      exact hK hg.1
  | _ => exact h c hc

end ReviewEvent

/-! ## The invariant -/

section Invariant

variable {db : ReviewDatabase} {K : List ReviewKey}

theorem findRepeated_eq_none {authorId : Id} {clientReviewId : String}
    (h : findRepeated authorId clientReviewId db = none) {k : Id} {review : ReviewRow}
    (hk : db.reviews.get k = some review) (hauthor : review.authorId = authorId) :
    review.clientReviewId ≠ clientReviewId := by
  rintro rfl
  have hno := List.find?_eq_none.mp h (k, review) (Table.get_eq_some.mp hk)
  simp [hauthor] at hno

/-- The pairs of reviews after a step: one of them may be new. -/
theorem ReviewInv.distinct {ev : ReviewEvent} (hg : ev.Guard K db)
    {R : ReviewRow → ReviewRow → Prop}
    (hsame : ∀ r r' q q', r.Later r' → q.Later q' → R r' q' → R r q)
    (hsymm : ∀ r q, R r q → R q r)
    (hold : ∀ k k' r q, db.reviews.get k = some r → db.reviews.get k' = some q → R r q → k = k')
    (hnew : ∀ now k review published, ev = .create now k review published → ∀ k' r,
      db.reviews.get k' = some r → ¬R r review) {k k' : Id} {r q : ReviewRow}
    (hk : (ev.applyDb db).reviews.get k = some r) (hk' : (ev.applyDb db).reviews.get k' = some q)
    (h : R r q) : k = k' := by
  rcases ReviewEvent.reviews_inv hg hk with ⟨r₀, hr₀, hr⟩ | ⟨now, r₀, published, rfl, hr, -⟩
  · rcases ReviewEvent.reviews_inv hg hk' with ⟨q₀, hq₀, hq⟩ | ⟨now, q₀, published, hev, hq, -⟩
    · exact hold k k' r₀ q₀ hr₀ hq₀ (hsame _ _ _ _ hr hq h)
    · exact absurd (hsame _ _ _ _ hr hq h) (hnew _ _ _ _ hev k r₀ hr₀)
  · rcases ReviewEvent.reviews_inv hg hk' with ⟨q₀, hq₀, hq⟩ | ⟨now', q₀, published', hev, hq, -⟩
    · exact absurd (hsymm _ _ (hsame _ _ _ _ hr hq h)) (hnew _ _ _ _ rfl k' q₀ hq₀)
    · cases hev
      rfl

/-- **Every step keeps the invariant.** -/
theorem review_preserved {ok : ReviewEvent → ReviewStore → Prop} :
    (reviewContract ok).Preserved := by
  rintro K ⟨a, u⟩ ⟨b, u'⟩ ⟨hinv, ev, -, hb, hg⟩
  have hb : b = ev.applyDb a := hb
  have hinv : ReviewInv a := hinv
  subst hb
  refine ⟨?_, ?_, ?_, ?_, ?_, ?_⟩
  · intro k r hk
    rw [ev.bookings_apply]
    rcases ReviewEvent.reviews_inv hg hk with ⟨r₀, hr₀, hr⟩ | ⟨now, r₀, published, rfl, hr, -⟩
    · obtain ⟨parties, hget, hby⟩ := hinv.party k r₀ hr₀
      exact ⟨parties, hr.bookingId ▸ hget, hby.later hr⟩
    · have hg : CreateGuard K a now k r₀ published := hg
      obtain ⟨parties, hget, hby⟩ := hg.party
      exact ⟨parties, hr.bookingId ▸ hget, hby.later hr⟩
  · intro k k' r q hk hk' hbooking hrole
    refine ReviewInv.distinct (R := fun r q => r.bookingId = q.bookingId ∧
      r.authorRole = q.authorRole) hg ?_ (fun r q h => ⟨h.1.symm, h.2.symm⟩)
      (fun k k' r q hk hk' h => hinv.role k k' r q hk hk' h.1 h.2) ?_ hk hk' ⟨hbooking, hrole⟩
    · rintro r r' q q' hr hq ⟨h₁, h₂⟩
      rw [hr.bookingId, hq.bookingId] at h₁
      rw [hr.authorRole, hq.authorRole] at h₂
      exact ⟨h₁, h₂⟩
    · rintro now k review published rfl k' r hr ⟨h₁, h₂⟩
      have hg : CreateGuard K a now k review published := hg
      exact hasReview_eq_false hg.role.2 hr h₁ h₂
  · intro k k' r q hk hk' hauthor hclient
    refine ReviewInv.distinct (R := fun r q => r.authorId = q.authorId ∧
      r.clientReviewId = q.clientReviewId) hg ?_ (fun r q h => ⟨h.1.symm, h.2.symm⟩)
      (fun k k' r q hk hk' h => hinv.client k k' r q hk hk' h.1 h.2) ?_ hk hk' ⟨hauthor, hclient⟩
    · rintro r r' q q' hr hq ⟨h₁, h₂⟩
      rw [hr.authorId, hq.authorId] at h₁
      rw [hr.clientReviewId, hq.clientReviewId] at h₂
      exact ⟨h₁, h₂⟩
    · rintro now k review published rfl k' r hr ⟨h₁, h₂⟩
      have hg : CreateGuard K a now k review published := hg
      exact findRepeated_eq_none hg.client.2 hr h₁ h₂
  · intro bookingId c c' hc hc'
    cases ev with
    | complete completed createdAt =>
      have hfree : ∀ c, (completed, c) ∉ a.completions := hg.2
      rcases List.mem_append.mp hc with hold | hnew
      · rcases List.mem_append.mp hc' with hold' | hnew'
        · exact hinv.once bookingId c c' hold hold'
        · obtain ⟨rfl, rfl⟩ := Prod.mk.inj (List.mem_singleton.mp hnew')
          exact absurd hold (hfree c)
      · obtain ⟨rfl, rfl⟩ := Prod.mk.inj (List.mem_singleton.mp hnew)
        rcases List.mem_append.mp hc' with hold' | hnew'
        · exact absurd hold' (hfree c')
        · exact (Prod.mk.inj (List.mem_singleton.mp hnew')).2.symm
    | _ => exact hinv.once bookingId c c' hc hc'
  · intro k r hk
    rcases ReviewEvent.reviews_inv hg hk with ⟨r₀, hr₀, hr⟩ | ⟨now, r₀, published, rfl, hr, -⟩
    · obtain ⟨deadline, hdeadline, hle⟩ := hinv.inWindow k r₀ hr₀
      refine ⟨deadline, ?_, Int.le_trans hr.sooner hle⟩
      rw [hr.bookingId]
      exact ev.deadline_apply hdeadline
    · have hg : CreateGuard K a now k r₀ published := hg
      refine ⟨r₀.publishAt, ?_, hr.sooner⟩
      rw [hr.bookingId]
      exact ReviewEvent.deadline_apply _ hg.deadline
  · intro k r hk
    rcases ReviewEvent.reviews_inv hg hk with ⟨r₀, hr₀, hr⟩ | ⟨now, r₀, published, rfl, hr, hat⟩
    · rcases hinv.blind k r₀ hr₀ with hanswering | hdeadline
      · exact Or.inl (ReviewEvent.answering_apply hg hanswering hr)
      · by_cases hsame : r.publishAt = r₀.publishAt
        · refine Or.inr ?_
          rw [hsame, hr.bookingId]
          exact ev.deadline_apply hdeadline
        · exact Or.inl (ReviewEvent.answering_of_published hg hr₀ hk hsame)
    · have hg : CreateGuard K a now k r₀ published := hg
      by_cases hk : k ∈ published
      · have hevent : (ReviewEvent.create now k r₀ published).Guard K a := hg
        exact Or.inl (ReviewEvent.answering_apply hevent
          (hg.answering fun hnil => by simp [hnil] at hk) hr)
      · refine Or.inr ?_
        rw [hat, if_neg hk, hr.bookingId]
        exact ReviewEvent.deadline_apply _ hg.deadline

end Invariant

end Sosedi
