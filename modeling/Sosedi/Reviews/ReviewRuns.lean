import Sosedi.Reviews.ReviewContract
import Sosedi.Transactions.Schedules

/-!
# The runs of the reviews

Runs start without reviews and completions; the bookings are arbitrary.

Proved here:

* `persists_review`, `persists_counterpart`, `persists_deadline`: what a later statement still
  finds of the snapshot of a transaction;
* `wp_create`: a creation keeps to the contract, and what it returns is stored;
* `ReviewRuns.inv`, `ReviewRuns.later`, `ReviewRuns.guar`: what holds in every state of a run.
-/

namespace Sosedi

open Transactions ReviewsService

variable {ok : ReviewEvent → ReviewStore → Prop} {L : List ReviewKey} {a b σ : ReviewStore}

/-! ## What others leave alone -/

theorem review_interference {P : ReviewDatabase → Prop}
    (hP : ∀ (ev : ReviewEvent) (K : List ReviewKey) (db : ReviewDatabase), (∀ k ∈ L, k ∉ K) →
      ev.Guard K db → P db → P (ev.applyDb db))
    (h : (reviewContract ok).Interference L a b) (ha : P a.1) : P b.1 := by
  refine interference_keeps (P := fun c : ReviewStore => P c.1) ?_ h ha
  rintro c d ⟨K, hK, -, ev, -, hd, hg⟩ hc
  rw [hd]
  exact hP ev K c.1 (fun k hL hk => hK k hk hL) hg hc

theorem reviewRow_interference {id : Id} (hL : .reviewRow id ∈ L)
    (h : (reviewContract ok).Interference L a b) : b.1.reviews.get id = a.1.reviews.get id :=
  review_interference (P := fun db => db.reviews.get id = a.1.reviews.get id)
    (fun ev _ _ hK hg hc => (ev.reviewRow_apply hg (hK _ hL)).trans hc) h rfl

theorem roleIndex_interference {bookingId : Id} {authorRole : ReviewAuthorRole}
    (hL : .roleIndex bookingId authorRole ∈ L) (h : (reviewContract ok).Interference L a b)
    (ha : hasReview bookingId authorRole a.1 = false) :
    hasReview bookingId authorRole b.1 = false :=
  review_interference (fun ev _ _ hK hg hc => ev.roleIndex_apply hg (hK _ hL) hc) h ha

theorem clientIndex_interference {authorId : Id} {clientReviewId : String}
    (hL : .clientIndex authorId clientReviewId ∈ L) (h : (reviewContract ok).Interference L a b)
    (ha : findRepeated authorId clientReviewId a.1 = none) :
    findRepeated authorId clientReviewId b.1 = none :=
  review_interference (fun ev _ _ hK hg hc => ev.clientIndex_apply hg (hK _ hL) hc) h ha

theorem booking_interference {bookingId : Id} (hL : .booking bookingId ∈ L)
    (h : (reviewContract ok).Interference L a b) (ha : ∀ c, (bookingId, c) ∉ a.1.completions) :
    ∀ c, (bookingId, c) ∉ b.1.completions :=
  review_interference (P := fun db => ∀ c, (bookingId, c) ∉ db.completions)
    (fun ev _ _ hK hg hc => ev.completion_apply hg (hK _ hL) hc) h ha

/-! ## What stays -/

theorem persists_review (id : Id) (review : ReviewRow) :
    Persists (reviewContract ok) fun σ =>
      ∃ review', σ.1.reviews.get id = some review' ∧ review.Later review' := by
  rintro K a b ⟨-, ev, -, hb, hg⟩ ⟨review', hget, hlater⟩
  rw [hb]
  obtain ⟨review'', hget', hlater'⟩ := ev.reviews_apply hg hget
  exact ⟨review'', hget', hlater.trans hlater'⟩

theorem persists_parties_of_booking (bookingId : Id) (parties : BookingParties) :
    Persists (reviewContract ok) fun σ => σ.1.bookings.get bookingId = some parties := by
  rintro K a b ⟨-, ev, -, hb, -⟩ ha
  rw [hb, ev.bookings_apply]
  exact ha

theorem persists_deadline (bookingId : Id) (deadline : Time) :
    Persists (reviewContract ok) fun σ => Deadline σ.1 bookingId deadline := by
  rintro K a b ⟨-, ev, -, hb, -⟩ ha
  rw [hb]
  exact ev.deadline_apply ha

theorem persists_answering (review : ReviewRow) :
    Persists (reviewContract ok) fun σ => Answering σ.1 review := by
  rintro K a b ⟨-, ev, -, hb, hg⟩ ha
  rw [hb]
  exact ev.answering_apply hg ha (.refl _)

/-! ## Reading the snapshot -/

theorem findBooking_eq {actorId bookingId : Id} {db : ReviewDatabase} {parties : BookingParties}
    (h : findBooking actorId bookingId db = some parties) :
    db.bookings.get bookingId = some parties ∧
      (parties.borrowerId = actorId ∨ parties.lenderId = actorId) := by
  obtain ⟨hget, hactor⟩ := Option.filter_eq_some_iff.mp h
  exact ⟨hget, by simpa using hactor⟩

theorem deadline_of_lastCompletion {bookingId : Id} {db : ReviewDatabase} {completion : Time}
    (h : lastCompletion bookingId db = some completion) :
    Deadline db bookingId (completion + REVIEW_WINDOW_MS) := by
  have hmem := List.max?_mem h
  obtain ⟨⟨b, c⟩, hrow, rfl⟩ := List.mem_map.mp hmem
  obtain ⟨hc, hbooking⟩ := List.mem_filter.mp hrow
  obtain rfl : b = bookingId := by simpa using hbooking
  exact ⟨c, hc, rfl⟩

theorem answering_of_hasCounterpart {review : ReviewRow} {db : ReviewDatabase}
    (h : hasCounterpart review.bookingId review.authorRole db = true) : Answering db review := by
  obtain ⟨k, other, hk, hsame⟩ := Table.any_eq_true.mp h
  simp only [Bool.and_eq_true, beq_iff_eq, bne_iff_ne] at hsame
  exact ⟨k, other, hk, hsame⟩

/-! ## Calls -/

/-- The review that a creation adds. -/
def submitted (actorId bookingId : Id) (dto : CreateReviewDto) (parties : BookingParties)
    (deadline createdAt : Time) : ReviewRow where
  bookingId
  authorId := actorId
  targetId := targetOf (roleOf actorId parties) parties
  authorRole := roleOf actorId parties
  clientReviewId := dto.clientReviewId
  rating := dto.rating
  text := dto.text
  publishAt := deadline
  hiddenAt := none
  createdAt

/-- What a creation returns: the stored review of its author and client's id. -/
def ReviewAnswered (actorId bookingId : Id) (dto : CreateReviewDto) (now : Time)
    (response : ParticipantReviewResponse) (db : ReviewDatabase) : Prop :=
  ∃ review stored, db.reviews.get response.id = some stored ∧ review.Later stored ∧
    response = toParticipantResponse actorId response.id review now ∧
    review.authorId = actorId ∧ review.bookingId = bookingId ∧
    review.clientReviewId = dto.clientReviewId ∧ review.rating = dto.rating ∧
    review.text = dto.text

/-- What a creation has found when it has inserted its row, in `db`. -/
structure Prepared (snapshot db : ReviewDatabase) (now : Time) (id : Id) (review : ReviewRow) :
    Prop where
  party : ∃ parties, snapshot.bookings.get review.bookingId = some parties ∧
    ByReviewer review parties
  deadline : Deadline snapshot review.bookingId review.publishAt
  inTime : now ≤ review.publishAt
  visible : review.hiddenAt = none
  row : db.reviews.get id = none
  role : hasReview review.bookingId review.authorRole db = false
  client : findRepeated review.authorId review.clientReviewId db = none

/-- The rows that a creation may publish. -/
structure Publishes (snapshot db : ReviewDatabase) (now : Time) (id : Id) (review : ReviewRow)
    (published : List Id) : Prop where
  own : id ∈ published → now < review.publishAt
  others : ∀ k ∈ published, k = id ∨ ∃ other, db.reviews.get k = some other ∧
    other.bookingId = review.bookingId ∧ now < other.publishAt
  answering : published ≠ [] → Answering snapshot review

/-- It still holds when the transaction commits. -/
theorem Prepared.guard {snapshot σ₁ σ₂ : ReviewStore} {now : Time} {id : Id} {review : ReviewRow}
    {published : List Id} (h : Prepared snapshot.1 σ₁.1 now id review)
    (hsnapshot : (reviewContract ok).Interference [] snapshot σ₁)
    (hi : (reviewContract ok).Interference L σ₁ σ₂) (hrow : .reviewRow id ∈ L)
    (hrole : .roleIndex review.bookingId review.authorRole ∈ L)
    (hclient : .clientIndex review.authorId review.clientReviewId ∈ L)
    {K : List ReviewKey} (hK : ∀ k ∈ L, k ∈ K) (hrows : ∀ k ∈ published, .reviewRow k ∈ K)
    (hpublishes : Publishes snapshot.1 σ₂.1 now id review published) :
    CreateGuard K σ₂.1 now id review published := by
  have hall : (reviewContract ok).Interference [] snapshot σ₂ :=
    interference_trans hsnapshot (interference_mono (by simp) hi)
  obtain ⟨parties, hparties, hby⟩ := h.party
  exact
    { party := ⟨parties, (persists_parties_of_booking _ parties).interference hall hparties, hby⟩
      row := ⟨hK _ hrow, (reviewRow_interference hrow hi).trans h.row⟩
      role := ⟨hK _ hrole, roleIndex_interference hrole hi h.role⟩
      client := ⟨hK _ hclient, clientIndex_interference hclient hi h.client⟩
      deadline := (persists_deadline _ _).interference hall h.deadline
      inTime := h.inTime
      visible := h.visible
      rows := hrows
      own := hpublishes.own
      others := hpublishes.others
      answering := fun hne =>
        (persists_answering review).interference hall (hpublishes.answering hne) }

/-- The rows that are published were found by the snapshot, and are as they were then. -/
theorem publishes_toPublish {snapshot db : ReviewDatabase} {now deadline : Time} {id bookingId : Id}
    {review : ReviewRow} (hbooking : review.bookingId = bookingId)
    (hdeadline : review.publishAt = deadline) (hanswering : Answering snapshot review)
    (hrow : db.reviews.get id = none)
    (hsame : ∀ k ∈ (toPublish bookingId id deadline now snapshot).1,
      db.reviews.get k = snapshot.reviews.get k) :
    Publishes snapshot db now id review (toPublish bookingId id deadline now snapshot).2 := by
  have hothers : ∀ k ∈ (toPublish bookingId id deadline now snapshot).1, ∃ other,
      db.reviews.get k = some other ∧ other.bookingId = review.bookingId ∧
        now < other.publishAt := by
    intro k hk
    have hk' : k ∈ snapshot.reviews.keysWhere fun _ review =>
      review.bookingId == bookingId && now < review.publishAt := hk
    obtain ⟨other, hget, hother⟩ := Table.mem_keysWhere.mp hk'
    rw [Bool.and_eq_true, beq_iff_eq, decide_eq_true_eq] at hother
    exact ⟨other, (hsame k hk).trans hget, hother.1.trans hbooking.symm, hother.2⟩
  refine ⟨fun hid => ?_, fun k hk => ?_, fun _ => hanswering⟩
  · rcases List.mem_append.mp hid with hk | hk
    · obtain ⟨other, hget, -⟩ := hothers id hk
      rw [hrow] at hget
      cases hget
    · split at hk
      · rename_i hlt
        exact hdeadline ▸ hlt
      · cases hk
  · rcases List.mem_append.mp hk with hk | hk
    · exact Or.inr (hothers k hk)
    · split at hk
      · exact Or.inl (List.mem_singleton.mp hk)
      · cases hk

/-- A row that was in the snapshot is none that was inserted since. -/
theorem get_of_insertReview {snapshot σ₁ : ReviewStore} {db : ReviewDatabase} {k newId : Id}
    {review other : ReviewRow} (hlater : (reviewContract ok).Interference [] snapshot σ₁)
    (hrow : σ₁.1.reviews.get newId = none) (hk : snapshot.1.reviews.get k = some other)
    (h : (db.insertReview newId review).reviews.get k = snapshot.1.reviews.get k) :
    db.reviews.get k = snapshot.1.reviews.get k := by
  rcases Table.of_get_insert (h.trans hk) with ⟨rfl, -⟩ | hget
  · obtain ⟨stored, hstored, -⟩ := (persists_review k other).interference hlater
      ⟨other, hk, .refl _⟩
    rw [hrow] at hstored
    cases hstored
  · exact hget.trans hk.symm

/-- The row of a creation is published now, at the latest. -/
theorem own_published {db : ReviewDatabase} {bookingId id : Id} {now deadline : Time}
    {snapshot : ReviewDatabase} {review : ReviewRow} (hdeadline : review.publishAt = deadline)
    (hinTime : now ≤ deadline) (hget : db.reviews.get id = some review) :
    (db.publishReviews (toPublish bookingId id deadline now snapshot).2 now).reviews.get id =
      some { review with publishAt := now } := by
  rw [ReviewDatabase.get_publishReviews, hget, Option.map_some, Option.some.injEq]
  by_cases hlt : now < deadline
  · rw [if_pos]
    exact List.mem_append_right _ (by simp [hlt])
  · have hnow : review.publishAt = now :=
      hdeadline.trans (Int.le_antisymm (Int.not_lt.mp hlt) hinTime)
    split
    · rfl
    · rw [← hnow]

theorem wp_submit {actorId bookingId : Id} {dto : CreateReviewDto} {parties : BookingParties}
    {now createdAt : Time} {newId : Id} {snapshot : ReviewStore}
    (hsnapshot : (reviewContract ok).Interference [] snapshot σ)
    (hparties : snapshot.1.bookings.get bookingId = some parties)
    (hactor : parties.borrowerId = actorId ∨ parties.lenderId = actorId) :
    wp (reviewContract ok)
      (submit actorId bookingId dto parties now createdAt newId snapshot.1)
      (fun review L ω σ => (L = [] ∧ ω = []) ∧ σ.1.reviews.get newId = some review ∧
        ∃ deadline, review = { submitted actorId bookingId dto parties deadline createdAt with
          publishAt := review.publishAt }) L [] σ := by
  simp only [submit, ReviewsService.insertReview, Prog.bind_eq, wp_bind, wp_lift, required_eq_ok,
    ensure_eq_ok]
  intro completion hcompletion _ hopen _ _
  rw [wp_insertUnique]
  intro σ₁ hi₁ _ hfree
  simp only [view_nil, Bool.or_eq_false_iff] at hfree
  obtain ⟨⟨hrow, hrole⟩, hclient⟩ := hfree
  have hlater : (reviewContract ok).Interference [] snapshot σ₁ :=
    interference_trans hsnapshot (interference_mono (by simp) hi₁)
  have hinTime : now ≤ completion + REVIEW_WINDOW_MS := by
    simpa using hopen
  have hnone : findRepeated actorId dto.clientReviewId σ₁.1 = none := by
    simpa using hclient
  have hprepared : Prepared snapshot.1 σ₁.1 now newId (submitted actorId bookingId dto parties
      (completion + REVIEW_WINDOW_MS) createdAt) :=
    { party := ⟨parties, hparties, hactor, rfl, rfl⟩
      deadline := deadline_of_lastCompletion hcompletion
      inTime := hinTime
      visible := rfl
      row := by simpa using hrow
      role := hrole
      client := hnone }
  cases hcounterpart : hasCounterpart bookingId (roleOf actorId parties) snapshot.1 with
  | false =>
    simp only [Bool.false_eq_true, if_false, wp_bind, wp_commit, Prog.pure_eq, wp_ret]
    intro σ₂ hi₂ _ _
    have hg : CreateGuard _ σ₂.1 now newId _ [] := hprepared.guard hlater hi₂ (by simp)
      (by simp [submitted]) (by simp [submitted]) (fun _ hk => hk) (by simp)
      ⟨by simp, by simp, by simp⟩
    refine ⟨⟨(ReviewDatabase.publishReviews_nil _ now).symm, hg⟩, ⟨trivial, trivial⟩,
      Table.get_insert_self _ hg.row.2, completion + REVIEW_WINDOW_MS, rfl⟩
  | true =>
    simp only [if_true, ReviewsService.publishReviews, wp_bind, wp_commit, Prog.pure_eq, wp_ret,
      wp_insertUnique]
    intro σ₂ hi₂ _ hsame σ₃ hi₃ _ _
    simp only [view_append, view_cons, view_nil, List.any_eq_false, bne_iff_ne, ne_eq,
      Decidable.not_not] at hsame
    have hrow₃ : σ₃.1.reviews.get newId = none := by
      rw [reviewRow_interference (by simp) hi₃, reviewRow_interference (by simp) hi₂]
      exact hprepared.row
    have hsame₃ : ∀ k ∈ (toPublish bookingId newId (completion + REVIEW_WINDOW_MS) now
        snapshot.1).1, σ₃.1.reviews.get k = snapshot.1.reviews.get k := by
      intro k hk
      have hk' : k ∈ snapshot.1.reviews.keysWhere fun _ review =>
        review.bookingId == bookingId && now < review.publishAt := hk
      obtain ⟨other, hget, -⟩ := Table.mem_keysWhere.mp hk'
      rw [reviewRow_interference (by simp [toPublish]; tauto) hi₃]
      exact get_of_insertReview hlater hprepared.row hget (hsame k hk)
    have hi : (reviewContract ok).Interference _ σ₁ σ₃ :=
      interference_trans hi₂ (interference_mono (fun k hk => List.mem_append_right _ hk) hi₃)
    have hg := hprepared.guard hlater hi (by simp) (by simp [submitted]) (by simp [submitted])
      (fun k hk => List.mem_append_right _ hk)
      (fun k hk => List.mem_append_left _ (List.mem_map_of_mem hk))
      (publishes_toPublish rfl rfl (answering_of_hasCounterpart hcounterpart) hrow₃ hsame₃)
    refine ⟨⟨rfl, hg⟩, ⟨trivial, trivial⟩, ?_, completion + REVIEW_WINDOW_MS, rfl⟩
    have hnew : (σ₃.1.insertReview newId (submitted actorId bookingId dto parties
        (completion + REVIEW_WINDOW_MS) createdAt)).reviews.get newId = some _ :=
      Table.get_insert_self _ hrow₃
    exact own_published rfl hprepared.inTime hnew

theorem wp_create {actorId bookingId : Id} {dto : CreateReviewDto} {now createdAt : Time}
    {newId : Id} (σ : ReviewStore) :
    wp (reviewContract ok) (create actorId bookingId dto now createdAt newId)
      (fun response L ω σ => (L = [] ∧ ω = []) ∧
        ReviewAnswered actorId bookingId dto now response σ.1) [] [] σ := by
  simp only [create, Prog.bind_eq, wp_bind, wp_lift, wp_acquire, wp_select, required_eq_ok,
    ensure_eq_ok, view_nil, id_eq]
  rintro _ - σ₁ - - σ₂ hi₂ - σ₃ hi₃ - parties hparties _ -
  obtain ⟨hbooking, hactor⟩ := findBooking_eq hparties
  have hlater : (reviewContract ok).Interference [] σ₁ σ₃ :=
    interference_trans hi₂ (interference_mono (by simp) hi₃)
  cases hfound : findRepeated actorId dto.clientReviewId σ₁.1 with
  | some found =>
    obtain ⟨id, repeated⟩ := found
    simp only [wp_bind, wp_lift, ensure_eq_ok, wp_commit, view_nil, Prog.pure_eq, wp_ret]
    rintro _ hsame σ₄ hi₄ - -
    simp only [Bool.not_eq_true', Bool.or_eq_false_iff, bne_eq_false_iff_eq] at hsame
    have hauthor := List.find?_some hfound
    simp only [Bool.and_eq_true, beq_iff_eq] at hauthor
    obtain ⟨stored, hstored, hafter⟩ := (persists_review id repeated).interference
      (interference_trans hlater (interference_mono (by simp) hi₄))
      ⟨repeated, Table.get_eq_some.mpr (List.mem_of_find?_eq_some hfound), .refl _⟩
    exact ⟨⟨rfl, trivial⟩, ⟨trivial, trivial⟩, repeated, stored, hstored, hafter, rfl, hauthor.1,
      hsame.1.1, hauthor.2, hsame.1.2, hsame.2⟩
  | none =>
    simp only [wp_bind, Prog.pure_eq, wp_ret]
    refine wp_mono _ ?_ (wp_submit hlater hbooking hactor)
    rintro review L ω σ' ⟨hend, hget, deadline, hreview⟩
    refine ⟨hend, review, review, hget, .refl _, rfl, ?_⟩
    rw [hreview]
    exact ⟨rfl, rfl, rfl, rfl, rfl⟩

theorem safe_create (actorId bookingId : Id) (dto : CreateReviewDto) (now createdAt : Time)
    (newId : Id) :
    Safe (reviewContract ok) (create actorId bookingId dto now createdAt newId) := by
  intro σ
  refine wp_mono _ ?_ (wp_create σ)
  rintro response L ω σ' ⟨hend, -⟩
  exact hend

theorem safe_changeReviewCircumstances (circumstances : ReviewCircumstances) :
    Safe (reviewContract ok) (changeReviewCircumstances circumstances) :=
  fun _ _ _ _ _ _ _ _ => ⟨⟨rfl, trivial⟩, rfl, rfl⟩

theorem safe_completeBooking (bookingId : Id) (createdAt : Time) :
    Safe (reviewContract ok) (completeBooking bookingId createdAt) := by
  intro σ
  simp only [completeBooking, Prog.bind_eq, wp_bind, wp_acquire, wp_select, wp_lift, ensure_eq_ok,
    wp_write, wp_commit, view_nil]
  rintro σ₁ - - σ₂ - - _ hnot σ₃ hi₃ - σ₄ hi₄ - -
  have hfree : ∀ c, (bookingId, c) ∉ σ₂.1.completions := by
    intro c hc
    rw [Bool.not_eq_true', List.any_eq_false] at hnot
    exact hnot _ hc (beq_self_eq_true bookingId)
  have hfree₄ := booking_interference (by simp) hi₄ (booking_interference (by simp) hi₃ hfree)
  exact ⟨⟨rfl, by simp, hfree₄⟩, trivial, trivial⟩

theorem safe_hideReview (id : Id) (now : Time) :
    Safe (reviewContract ok) (hideReview id now) := by
  intro σ
  simp only [hideReview, Prog.bind_eq, wp_bind, wp_updateWhere, wp_lift, ensure_eq_ok, wp_commit]
  rintro σ₁ - - _ hfound σ₂ hi₂ - -
  rw [if_pos hfound] at hi₂
  rw [if_pos hfound, if_pos hfound]
  obtain ⟨review, hget, hopen⟩ := Option.any_eq_true _ _ |>.mp hfound
  rw [Bool.and_eq_true, decide_eq_true_eq, Option.isNone_iff_eq_none] at hopen
  have hget₂ := (reviewRow_interference (by simp) hi₂).trans hget
  exact ⟨⟨rfl, by simp, review, hget₂, hopen⟩, trivial, trivial⟩

/-- Every call keeps to the contract. -/
theorem keeps_reviewCalls {p : Prog ReviewSys Unit} (h : ReviewCalls p) :
    Keeps (reviewContract ok) p := by
  obtain ⟨c, rfl⟩ := h
  cases c with
  | create actorId bookingId dto now createdAt newId =>
    exact ((safe_create actorId bookingId dto now createdAt newId).bind fun _ => Safe.ret ()).keeps
  | change circumstances => exact (safe_changeReviewCircumstances circumstances).keeps
  | complete bookingId createdAt => exact (safe_completeBooking bookingId createdAt).keeps
  | hide id now => exact (safe_hideReview id now).keeps

/-! ## Runs -/

/-- Nothing has been completed or reviewed yet. -/
structure ReviewInitial (σ : ReviewStore) : Prop where
  completions : σ.1.completions = []
  reviews : σ.1.reviews = .empty

theorem ReviewInitial.inv {σ : ReviewStore} (h : ReviewInitial σ) : ReviewInv σ.1 := by
  constructor <;> simp [h.completions, h.reviews]

/-- A run of the reviews from an initial store with no client in flight. -/
structure ReviewRuns (s₀ s : State ReviewSys) : Prop where
  threads : s₀.threads = []
  initial : ReviewInitial s₀.store
  reaches : Reaches ReviewCalls (fun _ _ => True) s₀ s

namespace ReviewRuns

variable {s₀ s s' : State ReviewSys}

theorem inv (h : ReviewRuns s₀ s) : ReviewInv s.db :=
  reaches_inv (C := reviewContract fun _ _ => True) (fun _ => keeps_reviewCalls) review_preserved
    h.threads h.initial.inv h.reaches

theorem trans (h : ReviewRuns s₀ s) (hr : Reaches ReviewCalls (fun _ _ => True) s s') :
    ReviewRuns s₀ s' := ⟨h.threads, h.initial, h.reaches.trans hr⟩

theorem sound (h : ReviewRuns s₀ s) : Sound (reviewContract fun _ _ => True) s :=
  Transactions.sound (fun _ => keeps_reviewCalls) review_preserved h.threads h.initial.inv h.reaches

/-- The next commit of a client is under the guard of its event. -/
theorem guard (h : ReviewRuns s₀ s) {i : Nat} {ev : ReviewEvent} (hev : s.event i = some ev) :
    ∃ K : List ReviewKey, ev.Guard K s.db := by
  obtain ⟨s', hf⟩ := s.fire_of_event hev
  obtain ⟨K, -, hg⟩ := h.sound.guar hev trivial hf
  exact ⟨K, hg⟩

/-- What every step keeps, from a state of the run on. -/
theorem later {P : ReviewStore → Prop} (h : ReviewRuns s₀ s)
    (hr : Reaches ReviewCalls (fun _ _ => True) s s')
    (hP : Persists (reviewContract fun _ _ => True) P) (hs : P s.store) : P s'.store := by
  induction hr with
  | refl => exact hs
  | step m hr hm hf ih =>
    rcases reaches_fire (C := reviewContract fun _ _ => True) (fun _ => keeps_reviewCalls)
      review_preserved h.threads h.initial.inv (h.trans hr).reaches hm hf with he | ⟨K, hstep⟩
    · rw [he]
      exact ih
    · exact hP K _ _ hstep ih

end ReviewRuns

end Sosedi
