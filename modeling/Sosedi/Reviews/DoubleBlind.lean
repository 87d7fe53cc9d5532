import Sosedi.Reviews.ReviewRuns

/-!
# Double-blind reviews

As long as a review is alone and the window of its booking is open, nobody but its author finds out
what it says: whatever the rating and the text are, every read answers the same.

Proved here: the three reads do not depend on concealed reviews (`double_blind`); what holds of the
reviews in every state of a run (`reviews_verified`).
-/

namespace Sosedi

open Transactions ReviewsService

/-- The other party has not answered, and may still do so after `now`. -/
def Concealed (now : Time) (db : ReviewDatabase) (review : ReviewRow) : Prop :=
  ¬Answering db review ∧ ∀ deadline, Deadline db review.bookingId deadline → now < deadline

/-- Other ratings and texts of some concealed reviews. -/
def Redrafts (now : Time) (db : ReviewDatabase) (f : Id → ReviewRow → ReviewRow) : Prop :=
  ∀ id review, db.reviews.get id = some review → f id review = review ∨
    Concealed now db review ∧ ∃ rating text, f id review = { review with rating, text }

def ReviewDatabase.redraft (f : Id → ReviewRow → ReviewRow) (db : ReviewDatabase) :
    ReviewDatabase :=
  { db with reviews := db.reviews.mapRows f }

section Redraft

variable {now : Time} {db : ReviewDatabase} {f : Id → ReviewRow → ReviewRow}

/-- A concealed review is not published yet. -/
theorem ReviewInv.unpublished (h : ReviewInv db) {id : Id} {review : ReviewRow}
    (hget : db.reviews.get id = some review) (hconcealed : Concealed now db review) :
    now < review.publishAt := by
  rcases h.blind id review hget with hanswering | hdeadline
  · exact absurd hanswering hconcealed.1
  · exact hconcealed.2 _ hdeadline

/-- What no read compares stays as it is. -/
theorem Redrafts.columns (h : Redrafts now db f) {row : Id × ReviewRow}
    (hrow : row ∈ db.reviews.rows) :
    f row.1 row.2 = { row.2 with
      rating := (f row.1 row.2).rating, text := (f row.1 row.2).text } := by
  rcases h row.1 row.2 (Table.get_eq_some.mpr hrow) with hsame | ⟨-, rating, text, hnew⟩
  · rw [hsame]
  · rw [hnew]

/-- A review that is published, or that is not concealed, stays as it is. -/
theorem Redrafts.published (hinv : ReviewInv db) (h : Redrafts now db f) {row : Id × ReviewRow}
    (hrow : row ∈ db.reviews.rows) (hpublished : row.2.publishAt ≤ now) :
    f row.1 row.2 = row.2 := by
  have hget := Table.get_eq_some.mpr hrow
  rcases h row.1 row.2 hget with hsame | ⟨hconcealed, -⟩
  · exact hsame
  · exact absurd (hinv.unpublished hget hconcealed) (Int.not_lt.mpr hpublished)

/-- Rows that a filter keeps only where `f` leaves them, before and after. -/
theorem filter_redraft {keeps : Id × ReviewRow → Bool} {l : List (Id × ReviewRow)}
    (hkeeps : ∀ row ∈ l, keeps (row.1, f row.1 row.2) = keeps row)
    (hsame : ∀ row ∈ l, keeps row = true → f row.1 row.2 = row.2) :
    (l.map fun row => (row.1, f row.1 row.2)).filter keeps = l.filter keeps := by
  have hfilter : l.filter (keeps ∘ fun row => (row.1, f row.1 row.2)) = l.filter keeps :=
    List.filter_congr fun row hrow => hkeeps row hrow
  rw [List.filter_map, hfilter]
  refine (List.map_congr_left fun row hrow => ?_).trans (List.map_id _)
  obtain ⟨hmem, hkeep⟩ := List.mem_filter.mp hrow
  rw [hsame row hmem hkeep]
  rfl

/-- The reviews of a booking in their order. -/
theorem reviewsOf_redraft (h : Redrafts now db f) (bookingId : Id) :
    reviewsOf bookingId (db.redraft f) =
      (reviewsOf bookingId db).map fun row => (row.1, f row.1 row.2) := by
  have hfilter : (db.redraft f).reviews.rows.filter (fun row => row.2.bookingId == bookingId) =
      (db.reviews.rows.filter fun row => row.2.bookingId == bookingId).map
        fun row => (row.1, f row.1 row.2) := by
    show (db.reviews.rows.map fun row => (row.1, f row.1 row.2)).filter _ = _
    rw [List.filter_map]
    congr 1
    refine List.filter_congr fun row hrow => ?_
    show ((f row.1 row.2).bookingId == bookingId) = _
    rw [h.columns hrow]
  rw [reviewsOf, hfilter, reviewsOf]
  refine (List.map_insertionSort _ _ _ _ fun a ha b hb => ?_).symm
  have hcreated : ∀ row ∈ db.reviews.rows, (f row.1 row.2).createdAt = row.2.createdAt := by
    intro row hrow
    rw [h.columns hrow]
  show createdFirst a b = true ↔ createdFirst (a.1, f a.1 a.2) (b.1, f b.1 b.2) = true
  rw [createdFirst, createdFirst, hcreated a (List.mem_of_mem_filter ha),
    hcreated b (List.mem_of_mem_filter hb)]

theorem mem_rows_of_reviewsOf {bookingId : Id} {row : Id × ReviewRow}
    (h : row ∈ reviewsOf bookingId db) : row ∈ db.reviews.rows :=
  List.mem_of_mem_filter ((List.mem_insertionSort _).mp h)

theorem publicRows_redraft (hinv : ReviewInv db) (h : Redrafts now db f) (targetId : Id) :
    publicRows targetId now (db.redraft f) = publicRows targetId now db := by
  refine filter_redraft (fun row hrow => ?_) fun row hrow hpublic => ?_
  · show isPublic targetId now (f row.1 row.2) = _
    rw [h.columns hrow]
    rfl
  · refine h.published hinv hrow ?_
    simp only [isPublic, Bool.and_eq_true, decide_eq_true_eq] at hpublic
    exact hpublic.2

theorem findCursor_redraft (hinv : ReviewInv db) (h : Redrafts now db f) (targetId : Id)
    (cursor : Option Id) :
    findCursor targetId cursor now (db.redraft f) = findCursor targetId cursor now db := by
  cases cursor with
  | none => rfl
  | some id =>
    have hget : ((db.redraft f).reviews.get id).filter (isPublic targetId now) =
        (db.reviews.get id).filter (isPublic targetId now) := by
      rw [show (db.redraft f).reviews.get id = _ from Table.get_mapRows _ _ _]
      cases hrow : db.reviews.get id with
      | none => rfl
      | some review =>
        have hmem := Table.get_eq_some.mp hrow
        have hcolumns := h.columns hmem
        by_cases hpublic : isPublic targetId now review = true
        · have hpublished : review.publishAt ≤ now := by
            simp only [isPublic, Bool.and_eq_true, decide_eq_true_eq] at hpublic
            exact hpublic.2
          rw [Option.map_some, h.published hinv hmem hpublished]
        · have hnot : ¬isPublic targetId now (f id review) = true := by
            rw [hcolumns]
            exact hpublic
          rw [Option.map_some, Option.filter_some, Option.filter_some, if_neg hnot, if_neg hpublic]
    simp only [findCursor, hget]

end Redraft

/-! ## Runs -/

/-- The reviews in a state `s` of a run, at the clock `now`, when the reviews of others that are
concealed say something else. -/
structure DoubleBlind (now : Time) (s : State ReviewSys) (f : Id → ReviewRow → ReviewRow) :
    Prop where
  participant : ∀ actorId bookingId db₀, (∀ id review, review.authorId = actorId →
    f id review = review) → listForBooking actorId bookingId now db₀ (s.db.redraft f) =
      listForBooking actorId bookingId now db₀ s.db
  exported : ∀ userId bookingId, (∀ id review, review.authorId = userId → f id review = review) →
    exportReviews userId bookingId now (s.db.redraft f) = exportReviews userId bookingId now s.db
  /-- Each statement of the public page, whatever the others read. -/
  cursor : ∀ targetId query db₀ db₂ db₃,
    listPublicForUser targetId query now db₀ (s.db.redraft f) db₂ db₃ =
      listPublicForUser targetId query now db₀ s.db db₂ db₃
  page : ∀ targetId query db₀ db₁ db₃,
    listPublicForUser targetId query now db₀ db₁ (s.db.redraft f) db₃ =
      listPublicForUser targetId query now db₀ db₁ s.db db₃
  summary : ∀ targetId query db₀ db₁ db₂,
    listPublicForUser targetId query now db₀ db₁ db₂ (s.db.redraft f) =
      listPublicForUser targetId query now db₀ db₁ db₂ s.db

/-- **Reviews are double-blind**: as long as the window is open and the other party has not
answered, no read shows what a review says to anybody but its author. -/
theorem double_blind {s₀ s : State ReviewSys} (h : ReviewRuns s₀ s) {now : Time}
    {f : Id → ReviewRow → ReviewRow} (hf : Redrafts now s.db f) : DoubleBlind now s f where
  participant actorId bookingId db₀ hown := by
    have hvisible : (reviewsOf bookingId (s.db.redraft f)).filter (fun row =>
        row.2.authorId == actorId || row.2.publishAt ≤ now && row.2.hiddenAt.isNone) =
          (reviewsOf bookingId s.db).filter fun row =>
            row.2.authorId == actorId || row.2.publishAt ≤ now && row.2.hiddenAt.isNone := by
      rw [reviewsOf_redraft hf]
      refine filter_redraft (fun row hrow => ?_) fun row hrow hshown => ?_
      · rw [hf.columns (mem_rows_of_reviewsOf hrow)]
      · rcases Bool.or_eq_true _ _ |>.mp hshown with hauthor | hpublished
        · exact hown _ _ (beq_iff_eq.mp hauthor)
        · rw [Bool.and_eq_true, decide_eq_true_eq] at hpublished
          exact hf.published h.inv (mem_rows_of_reviewsOf hrow) hpublished.1
    simp only [listForBooking, hvisible]
  exported userId bookingId hown := by
    have hshown : (reviewsOf bookingId (s.db.redraft f)).filter (fun row =>
        row.2.authorId == userId || row.2.publishAt ≤ now) =
          (reviewsOf bookingId s.db).filter fun row =>
            row.2.authorId == userId || row.2.publishAt ≤ now := by
      rw [reviewsOf_redraft hf]
      refine filter_redraft (fun row hrow => ?_) fun row hrow hshown => ?_
      · rw [hf.columns (mem_rows_of_reviewsOf hrow)]
      · rcases Bool.or_eq_true _ _ |>.mp hshown with hauthor | hpublished
        · exact hown _ _ (beq_iff_eq.mp hauthor)
        · exact hf.published h.inv (mem_rows_of_reviewsOf hrow) (of_decide_eq_true hpublished)
    simp only [exportReviews, hshown]
  cursor targetId query db₀ db₂ db₃ := by
    simp only [listPublicForUser, findCursor_redraft h.inv hf]
  page targetId query db₀ db₁ db₃ := by
    simp only [listPublicForUser, publicRows_redraft h.inv hf]
  summary targetId query db₀ db₁ db₂ := by
    simp only [listPublicForUser, publicRows_redraft h.inv hf]

/-- What holds of the reviews in a state of a run. -/
structure ReviewsVerified (s : State ReviewSys) : Prop where
  /-- A party of the booking writes about the other one, once. -/
  party : ∀ id review, s.db.reviews.get id = some review →
    ∃ parties, s.db.bookings.get review.bookingId = some parties ∧ ByReviewer review parties
  role : ∀ id id' review review', s.db.reviews.get id = some review →
    s.db.reviews.get id' = some review' → review.bookingId = review'.bookingId →
    review.authorRole = review'.authorRole → id = id'
  client : ∀ id id' review review', s.db.reviews.get id = some review →
    s.db.reviews.get id' = some review' → review.authorId = review'.authorId →
    review.clientReviewId = review'.clientReviewId → id = id'
  /-- It is public at the deadline of its booking, and sooner only when both have written. -/
  published : ∀ id review, s.db.reviews.get id = some review →
    ∃ deadline, Deadline s.db review.bookingId deadline ∧ review.publishAt ≤ deadline ∧
      (review.publishAt < deadline → Answering s.db review)
  accepted : ∀ i now id review published,
    s.event i = some (.create now id review published) →
      ∃ deadline, Deadline s.db review.bookingId deadline ∧ now ≤ deadline
  /-- It is never taken back, rewritten or postponed. -/
  lasting : ∀ s', Reaches ReviewCalls (fun _ _ => True) s s' → ∀ id review,
    s.db.reviews.get id = some review →
      ∃ review', s'.db.reviews.get id = some review' ∧ review.Later review'
  /-- A call answers with the stored review of its client's id. -/
  answered : ∀ actorId bookingId dto now createdAt newId,
    wp (reviewContract fun _ _ => True) (create actorId bookingId dto now createdAt newId)
      (fun response _ _ σ => ReviewAnswered actorId bookingId dto now response σ.1) [] [] s.store

/-- **Reviews are verified**, in every state of every run. -/
theorem reviews_verified {s₀ s : State ReviewSys} (h : ReviewRuns s₀ s) : ReviewsVerified s where
  party := h.inv.party
  role := h.inv.role
  client := h.inv.client
  published id review hget := by
    obtain ⟨deadline, hdeadline, hle⟩ := h.inv.inWindow id review hget
    refine ⟨deadline, hdeadline, hle, fun hlt => ?_⟩
    rcases h.inv.blind id review hget with hanswering | ⟨c, hc, hat⟩
    · exact hanswering
    · obtain ⟨c', hc', rfl⟩ := hdeadline
      rw [h.inv.once _ _ _ hc hc'] at hat
      exact absurd hat (Int.ne_of_lt hlt)
  accepted i now id review published hev := by
    obtain ⟨K, hg⟩ := h.guard hev
    have hg : CreateGuard K s.db now id review published := hg
    exact ⟨review.publishAt, hg.deadline, hg.inTime⟩
  lasting s' hr id review hget :=
    h.later hr (persists_review id review) ⟨review, hget, .refl _⟩
  answered actorId bookingId dto now createdAt newId := by
    refine wp_mono _ ?_ (wp_create s.store)
    intro response L ω σ hend
    exact hend.2

namespace ReviewScenario

/-- A booking of the users 2 and 3. -/
def database : ReviewDatabase where
  bookings := Table.empty.insert 1 ⟨2, 3⟩
  circumstances := ⟨fun _ => .returned, fun _ => some ⟨none, false⟩⟩
  completions := []
  reviews := .empty

def state : State ReviewSys := ⟨database, (), []⟩

def praise : CreateReviewDto := ⟨"a", ⟨5, by decide⟩, some "all was well"⟩

/-- The booking is completed at 10; the borrower reviews it at 20. -/
def script : List (Move ReviewSys) :=
  [.start (ReviewCall.complete 1 10).prog] ++ List.replicate 10 (.run 0) ++
    [.start (ReviewCall.create 2 1 praise 20 20 9).prog] ++ List.replicate 20 (.run 1)

def reviewed : State ReviewSys :=
  attemptAll (fun (_ : ReviewEvent) (_ : ReviewStore) => True) state script

theorem runs_reviewed : ReviewRuns state reviewed := by
  refine ⟨rfl, ⟨rfl, rfl⟩, reaches_attemptAll .refl fun p hp => ?_⟩
  have hstart : Move.start p = .start (ReviewCall.complete 1 10).prog ∨
      Move.start p = .start (ReviewCall.create 2 1 praise 20 20 9).prog := by
    simpa [script, List.mem_replicate] using hp
  rcases hstart with hstart | hstart
  · cases hstart
    exact ⟨_, rfl⟩
  · cases hstart
    exact ⟨_, rfl⟩

/-- The borrower is less pleased. -/
def blame (id : Id) (review : ReviewRow) : ReviewRow :=
  if id = 9 then { review with rating := ⟨1, by decide⟩, text := none } else review

theorem reviews_verified_reviewed : (reviewed.db.reviews.get 9).isSome ∧
    ReviewsVerified reviewed :=
  ⟨by decide +kernel, reviews_verified runs_reviewed⟩

theorem double_blind_reviewed : (reviewed.db.redraft blame).reviews.get 9 ≠
    reviewed.db.reviews.get 9 ∧ DoubleBlind 30 reviewed blame := by
  refine ⟨by decide +kernel, double_blind runs_reviewed ?_⟩
  have hkeys : reviewed.db.reviews.keysWhere (fun _ _ => true) = [9] := by decide +kernel
  have hcompletions : reviewed.db.completions = [(1, 10)] := by decide +kernel
  have honly : ∀ id review, reviewed.db.reviews.get id = some review → id = 9 := by
    intro id review hget
    have hid : id ∈ reviewed.db.reviews.keysWhere fun _ _ => true :=
      Table.mem_keysWhere.mpr ⟨review, hget, rfl⟩
    rw [hkeys] at hid
    exact List.mem_singleton.mp hid
  intro id review hget
  obtain rfl := honly id review hget
  refine Or.inr ⟨⟨?_, ?_⟩, ⟨1, by decide⟩, none, rfl⟩
  · rintro ⟨k, other, hk, -, hrole⟩
    obtain rfl := honly k other hk
    obtain rfl := Option.some.inj (hk.symm.trans hget)
    exact hrole rfl
  · rintro deadline ⟨c, hc, rfl⟩
    rw [hcompletions, List.mem_singleton] at hc
    obtain ⟨-, rfl⟩ := Prod.mk.inj hc
    decide

end ReviewScenario

end Sosedi
