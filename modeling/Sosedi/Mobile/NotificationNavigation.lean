import Sosedi.Mobile.PrivateState

/-!
# The opening of notifications

`NotificationNavigationController` resolves the event of an opened notification to a place in the
app.  Notifications are opened at any time, before the login and while an earlier one is being
resolved.  The cleanup of the private state has the provider built again when an account is
entered or left; what the controller before it waits for arrives all the same.

Proved here:

* `NavigationInv.openPending`: `_openPending` leaves nothing that could be resolved waiting;
* `NavigationInv.call`, `NavigationInv.answer`: every event keeps the invariant;
* `notifications_opened`: one event is resolved at a time, the app goes only where the notification
  opened last leads, and that one is resolved as soon as somebody is signed in.
-/

namespace Sosedi

open Async

namespace Mobile

/-! ## The controller -/

def isHexDigit (c : Char) : Bool :=
  c.isDigit || "abcdefABCDEF".toList.contains c

/-- The pattern of a UUID of version 4, in any case. -/
def isUuidV4 (value : String) : Bool :=
  value.toList.length == 36 && value.toList.zipIdx.all fun (c, i) =>
    if [8, 13, 18, 23].contains i then c == '-'
    else if i == 14 then c == '4'
    else if i == 19 then "89abAB".toList.contains c
    else isHexDigit c

def AuthState.isAuthenticated : AuthState → Bool
  | authenticated _ => true
  | _ => false

/-- `pending` is the state of the notifier, `builds` counts the earlier notifiers of the provider,
and `navigated` is what the navigator was given. -/
structure NotificationNavigation where
  builds : Nat
  pending : Option String
  isResolving : Bool
  authState : AuthState
  navigated : List String
  deriving DecidableEq

inductive NavigationCall where
  /-- An event of `openedEventIds`. -/
  | opened (eventId : String)
  /-- The authentication state changes. -/
  | auth (next : AuthState)
  /-- The provider is invalidated, and built again. -/
  | invalidate
  deriving DecidableEq

/-- What the notifier number `build` waits for. -/
inductive NavigationWait where
  | initialEventId (build : Nat)
  | resolveNavigationPath (build : Nat) (eventId : String)
  deriving DecidableEq

inductive NavigationAnswer where
  | initial (eventId : Option String)
  | path (next : Except Thrown (Option String))

namespace NotificationNavigation

variable (c : NotificationNavigation)

def openPending : NotificationNavigation × List NavigationWait :=
  if c.isResolving then (c, [])
  else
    match c.pending with
    | none => (c, [])
    | some eventId =>
      if !c.authState.isAuthenticated then (c, [])
      else ({ c with isResolving := true }, [.resolveNavigationPath c.builds eventId])

def handleEventId (eventId : String) : NotificationNavigation × List NavigationWait :=
  if !isUuidV4 eventId then (c, []) else openPending { c with pending := some eventId }

/-- `build` listens to the authentication state. -/
def authChanged (next : AuthState) : NotificationNavigation × List NavigationWait :=
  if next.isAuthenticated then openPending { c with authState := next }
  else ({ c with authState := next }, [])

/-- The navigator is called for the event that is still the pending one. -/
def shown (eventId : String) (next : Except Thrown (Option String)) : NotificationNavigation :=
  match next with
  | .ok (some path) =>
    if c.pending = some eventId then { c with navigated := c.navigated ++ [path] } else c
  | _ => c

/-- The `finally` of `_openPending`, without what it opens next. -/
def finished (eventId : String) : NotificationNavigation :=
  if c.pending = some eventId then { c with pending := none, isResolving := false }
  else { c with isResolving := false }

/-- `_openPending` from the answer on. -/
def resolved (eventId : String) (next : Except Thrown (Option String)) :
    NotificationNavigation × List NavigationWait :=
  let c := finished (shown c eventId next) eventId
  if c.pending.isSome then openPending c else (c, [])

/-- Another notifier takes over, and `build` asks for the initial event again. -/
def invalidate : NotificationNavigation × List NavigationWait :=
  ({ c with builds := c.builds + 1, pending := none, isResolving := false },
    [.initialEventId (c.builds + 1)])

def call (k : NavigationCall) : NotificationNavigation × List NavigationWait :=
  match k with
  | .opened eventId => handleEventId c eventId
  | .auth next => authChanged c next
  | .invalidate => invalidate c

/-- A notifier that has been replaced throws where it reads or sets its state. -/
def resume (w : NavigationWait) (a : NavigationAnswer) :
    Option (NotificationNavigation × List NavigationWait) :=
  match w, a with
  | .initialEventId _, .initial none => some (c, [])
  | .initialEventId build, .initial (some eventId) =>
    some (if build = c.builds then handleEventId c eventId else (c, []))
  | .resolveNavigationPath build eventId, .path next =>
    some (if build = c.builds then resolved c eventId next else (c, []))
  | _, _ => none

end NotificationNavigation

def navigationLoop :
    Loop NotificationNavigation NavigationCall NavigationWait NavigationAnswer where
  call k c := c.call k
  resume w a c := c.resume w a

/-- The controller when it has been built. -/
def navigationStart (authState : AuthState) : Config NotificationNavigation NavigationWait :=
  ⟨⟨0, none, false, authState, []⟩, [.initialEventId 0]⟩

abbrev NavigationEvent := Async.Event NavigationCall NavigationWait NavigationAnswer

/-! ## The past -/

def isInvalidate : NavigationEvent → Bool
  | .call .invalidate => true
  | _ => false

/-- What has happened since the provider was built last. -/
def sinceBuild (es : List NavigationEvent) : List NavigationEvent :=
  es.foldl (fun recent e => if isInvalidate e then [] else recent ++ [e]) []

/-- A notification is opened, whoever hears of it. -/
def isOpening : NavigationEvent → Bool
  | .call (.opened _) => true
  | .answer (.initialEventId _) (.initial (some _)) => true
  | _ => false

/-- The notification that the notifier number `build` is told to open. -/
def opening (build : Nat) : NavigationEvent → Option String
  | .call (.opened eventId) => if isUuidV4 eventId then some eventId else none
  | .answer (.initialEventId asked) (.initial (some eventId)) =>
    if asked = build ∧ isUuidV4 eventId then some eventId else none
  | _ => none

def openings (build : Nat) (es : List NavigationEvent) : List String := es.filterMap (opening build)

def lastOpened (build : Nat) (es : List NavigationEvent) : Option String :=
  (openings build es).getLast?

/-- The event has been resolved, and no notification has been opened since. -/
def Resolved (build : Nat) (es : List NavigationEvent) (eventId : String) : Prop :=
  ∃ before a after, es = before ++ .answer (.resolveNavigationPath build eventId) a :: after ∧
    lastOpened build before = some eventId ∧ openings build after = []

/-- The event that the notifier number `build` is resolving. -/
def NavigationWait.resolving (build : Nat) : NavigationWait → Option String
  | resolveNavigationPath asked eventId => if asked = build then some eventId else none
  | _ => none

section Past

variable {es : List NavigationEvent} {e : NavigationEvent} {build : Nat} {eventId : String}

theorem sinceBuild_append (h : isInvalidate e = false) :
    sinceBuild (es ++ [e]) = sinceBuild es ++ [e] := by
  rw [sinceBuild, List.foldl_append, List.foldl_cons, List.foldl_nil, h,
    if_neg Bool.false_ne_true, sinceBuild]

theorem sinceBuild_invalidate : sinceBuild (es ++ [.call .invalidate]) = [] := by
  rw [sinceBuild, List.foldl_append]
  rfl

theorem isOpening_of_opening (h : opening build e = some eventId) : isOpening e = true := by
  unfold opening at h
  split at h
  · rfl
  · rfl
  · cases h

theorem openings_append_of_none (h : opening build e = none) :
    openings build (es ++ [e]) = openings build es := by
  rw [openings, List.filterMap_append, List.filterMap_cons_none h, List.filterMap_nil,
    List.append_nil, openings]

theorem openings_append_of_some (h : opening build e = some eventId) :
    openings build (es ++ [e]) = openings build es ++ [eventId] := by
  rw [openings, List.filterMap_append, List.filterMap_cons_some h, List.filterMap_nil, openings]

theorem lastOpened_append_of_some (h : opening build e = some eventId) :
    lastOpened build (es ++ [e]) = some eventId := by
  rw [lastOpened, openings_append_of_some h, List.getLast?_concat]

theorem Resolved.append (hr : Resolved build es eventId) (h : opening build e = none) :
    Resolved build (es ++ [e]) eventId := by
  obtain ⟨before, a, after, rfl, hlast, hafter⟩ := hr
  refine ⟨before, a, after ++ [e], ?_, hlast, ?_⟩
  · rw [List.append_assoc, List.cons_append]
  · rw [openings_append_of_none h, hafter]

end Past

/-! ## The invariant -/

/-- What holds between the statements of a call. -/
structure NavigationFacts (es : List NavigationEvent) (c : NotificationNavigation)
    (ws : List NavigationWait) : Prop where
  flight : c.isResolving = false ∧ ws.filterMap (NavigationWait.resolving c.builds) = [] ∨
    c.isResolving = true ∧
      ∃ eventId, ws.filterMap (NavigationWait.resolving c.builds) = [eventId]
  built : ∀ build eventId, .resolveNavigationPath build eventId ∈ ws → build ≤ c.builds
  latest : ∀ eventId, c.pending = some eventId →
    lastOpened c.builds (sinceBuild es) = some eventId
  resolved : c.pending = none → ∀ eventId, lastOpened c.builds (sinceBuild es) = some eventId →
    Resolved c.builds (sinceBuild es) eventId
  counted : c.navigated.length + c.pending.toList.length ≤ es.countP isOpening

structure NavigationInv (es : List NavigationEvent)
    (k : Config NotificationNavigation NavigationWait) : Prop where
  facts : NavigationFacts es k.state k.waits
  moving : k.state.isResolving = false → k.state.authState.isAuthenticated = true →
    k.state.pending = none

section Invariant

variable {es : List NavigationEvent} {e : NavigationEvent} {c : NotificationNavigation}
  {ws : List NavigationWait} {build : Nat}

/-- An event that opens no notification. -/
theorem NavigationFacts.append (h : NavigationFacts es c ws) (hkept : isInvalidate e = false)
    (hopening : opening c.builds e = none) : NavigationFacts (es ++ [e]) c ws where
  flight := h.flight
  built := h.built
  latest eventId hpending := by
    rw [sinceBuild_append hkept, lastOpened, openings_append_of_none hopening]
    exact h.latest eventId hpending
  resolved hpending eventId hlast := by
    rw [sinceBuild_append hkept, lastOpened, openings_append_of_none hopening] at hlast
    rw [sinceBuild_append hkept]
    exact (h.resolved hpending eventId hlast).append hopening
  counted := by
    rw [List.countP_append]
    exact Nat.le_trans h.counted (Nat.le_add_right _ _)

/-- A notification is opened. -/
theorem NavigationFacts.opened (h : NavigationFacts es c ws) {eventId : String}
    (hkept : isInvalidate e = false) (hopening : opening c.builds e = some eventId) :
    NavigationFacts (es ++ [e]) { c with pending := some eventId } ws where
  flight := h.flight
  built := h.built
  latest eventId' hpending := by
    rw [sinceBuild_append hkept, lastOpened_append_of_some hopening]
    exact hpending
  resolved hpending := by cases hpending
  counted := by
    have hcounted := h.counted
    rw [List.countP_append, List.countP_singleton, if_pos (isOpening_of_opening hopening)]
    simp only [Option.toList_some, List.length_singleton]
    omega

/-- **`_openPending`** leaves nothing that could be resolved waiting. -/
theorem NavigationInv.openPending (h : NavigationFacts es c ws) :
    NavigationInv es ⟨c.openPending.1, ws ++ c.openPending.2⟩ := by
  unfold NotificationNavigation.openPending
  cases hresolving : c.isResolving with
  | true =>
    rw [if_pos rfl, List.append_nil]
    refine ⟨h, fun hidle => ?_⟩
    rw [hresolving] at hidle
    cases hidle
  | false =>
    rw [if_neg Bool.false_ne_true]
    cases hpending : c.pending with
    | none =>
      rw [List.append_nil]
      exact ⟨h, fun _ _ => hpending⟩
    | some eventId =>
      dsimp only
      cases hauth : c.authState.isAuthenticated with
      | false =>
        rw [Bool.not_false, if_pos rfl, List.append_nil]
        refine ⟨h, fun _ hsigned => ?_⟩
        rw [hauth] at hsigned
        cases hsigned
      | true =>
        rw [Bool.not_true, if_neg Bool.false_ne_true]
        have hempty : ws.filterMap (NavigationWait.resolving c.builds) = [] := by
          rcases h.flight with ⟨-, hempty⟩ | ⟨hbusy, -⟩
          · exact hempty
          · rw [hresolving] at hbusy
            cases hbusy
        obtain ⟨-, hbuilt, hlatest, hresolved, hcounted⟩ := h
        rw [hpending] at hlatest hresolved hcounted
        refine ⟨⟨Or.inr ⟨rfl, eventId, ?_⟩, ?_, hlatest, hresolved, hcounted⟩, fun hidle => ?_⟩
        · rw [List.filterMap_append, hempty, List.nil_append]
          exact List.filterMap_cons_some (if_pos rfl)
        · intro build other hw
          rcases List.mem_append.mp hw with hold | hnew
          · exact hbuilt build other hold
          · obtain ⟨rfl, -⟩ := NavigationWait.resolveNavigationPath.inj (List.mem_singleton.mp hnew)
            exact Nat.le_refl _
        · cases hidle

/-- An event that opens a notification, or none if its text is no UUID. -/
theorem NavigationInv.handleEventId (h : NavigationInv es ⟨c, ws⟩) {eventId : String}
    (hkept : isInvalidate e = false)
    (hopening : opening c.builds e = if isUuidV4 eventId then some eventId else none) :
    NavigationInv (es ++ [e]) ⟨(c.handleEventId eventId).1, ws ++ (c.handleEventId eventId).2⟩ := by
  unfold NotificationNavigation.handleEventId
  cases hvalid : isUuidV4 eventId with
  | false =>
    rw [hvalid, if_neg Bool.false_ne_true] at hopening
    rw [Bool.not_false, if_pos rfl, List.append_nil]
    exact ⟨h.facts.append hkept hopening, h.moving⟩
  | true =>
    rw [hvalid, if_pos rfl] at hopening
    rw [Bool.not_true, if_neg Bool.false_ne_true]
    exact NavigationInv.openPending (h.facts.opened hkept hopening)

/-- The new notifier has nothing to resolve; no answer to an earlier one is for it. -/
theorem NavigationInv.invalidate (h : NavigationInv es ⟨c, ws⟩) :
    NavigationInv (es ++ [.call .invalidate]) ⟨c.invalidate.1, ws ++ c.invalidate.2⟩ := by
  refine ⟨⟨Or.inl ⟨rfl, ?_⟩, ?_, ?_, ?_, ?_⟩, fun _ _ => rfl⟩
  · refine List.filterMap_eq_nil_iff.mpr fun w hw => ?_
    rcases List.mem_append.mp hw with hold | hnew
    · cases w with
      | initialEventId build => rfl
      | resolveNavigationPath build eventId =>
        have hle := h.facts.built build eventId hold
        exact if_neg (Nat.ne_of_lt (Nat.lt_succ_of_le hle))
    · rw [List.mem_singleton.mp hnew]
      rfl
  · intro build eventId hw
    rcases List.mem_append.mp hw with hold | hnew
    · exact Nat.le_succ_of_le (h.facts.built build eventId hold)
    · cases List.mem_singleton.mp hnew
  · intro eventId hpending
    cases hpending
  · intro _ eventId hlast
    rw [sinceBuild_invalidate] at hlast
    cases hlast
  · rw [List.countP_append]
    exact Nat.le_trans (Nat.le_of_add_right_le h.facts.counted) (Nat.le_add_right _ _)

theorem NavigationInv.call (h : NavigationInv es ⟨c, ws⟩) (k : NavigationCall) :
    NavigationInv (es ++ [.call k]) ⟨(c.call k).1, ws ++ (c.call k).2⟩ := by
  cases k with
  | opened eventId => exact h.handleEventId rfl rfl
  | auth next =>
    have hkept := h.facts.append (e := .call (.auth next)) rfl rfl
    have hfacts : NavigationFacts (es ++ [.call (.auth next)]) { c with authState := next } ws :=
      ⟨hkept.flight, hkept.built, hkept.latest, hkept.resolved, hkept.counted⟩
    simp only [NotificationNavigation.call, NotificationNavigation.authChanged]
    cases hnext : next.isAuthenticated with
    | true =>
      rw [if_pos rfl]
      exact NavigationInv.openPending hfacts
    | false =>
      rw [if_neg Bool.false_ne_true, List.append_nil]
      refine ⟨hfacts, fun _ hsigned => ?_⟩
      rw [hnext] at hsigned
      cases hsigned
  | invalidate => exact h.invalidate

theorem shown_cases (eventId : String) (next : Except Thrown (Option String)) :
    (c.shown eventId next).builds = c.builds ∧ (c.shown eventId next).pending = c.pending ∧
      ((c.shown eventId next).navigated = c.navigated ∨ ∃ path, next = .ok (some path) ∧
        c.pending = some eventId ∧ (c.shown eventId next).navigated = c.navigated ++ [path]) := by
  unfold NotificationNavigation.shown
  split
  · split
    · rename_i path hpending
      exact ⟨rfl, rfl, Or.inr ⟨path, rfl, hpending, rfl⟩⟩
    · exact ⟨rfl, rfl, Or.inl rfl⟩
  · exact ⟨rfl, rfl, Or.inl rfl⟩

/-- The answer for an event is done with it, if it is still the pending one. -/
theorem finished_cases (eventId : String) (next : Except Thrown (Option String)) :
    ((c.shown eventId next).finished eventId).builds = c.builds ∧
      ((c.shown eventId next).finished eventId).isResolving = false ∧
      (c.pending = some eventId ∧
          ((c.shown eventId next).finished eventId).pending = none ∧
          ((c.shown eventId next).finished eventId).navigated.length ≤ c.navigated.length + 1 ∨
        c.pending ≠ some eventId ∧
          ((c.shown eventId next).finished eventId).pending = c.pending ∧
          ((c.shown eventId next).finished eventId).navigated = c.navigated) := by
  obtain ⟨hbuilds, hpending, hnavigated⟩ := shown_cases (c := c) eventId next
  unfold NotificationNavigation.finished
  rw [hpending]
  by_cases hsame : c.pending = some eventId
  · rw [if_pos hsame]
    refine ⟨hbuilds, rfl, Or.inl ⟨hsame, rfl, ?_⟩⟩
    show (c.shown eventId next).navigated.length ≤ c.navigated.length + 1
    rcases hnavigated with hkept | ⟨path, -, -, hpath⟩
    · rw [hkept]
      omega
    · have hlength := congrArg List.length hpath
      rw [List.length_append, List.length_singleton] at hlength
      omega
  · rw [if_neg hsame]
    refine ⟨hbuilds, rfl, Or.inr ⟨hsame, rfl, ?_⟩⟩
    rcases hnavigated with hkept | ⟨-, -, hpending', -⟩
    · exact hkept
    · exact absurd hpending' hsame

/-- No second event is being resolved. -/
theorem NavigationFacts.alone (h : NavigationFacts es c ws) {eventId : String}
    (hw : .resolveNavigationPath c.builds eventId ∈ ws) :
    (ws.erase (.resolveNavigationPath c.builds eventId)).filterMap
      (NavigationWait.resolving c.builds) = [] := by
  have hlength := (filterMap_perm_of_mem (NavigationWait.resolving c.builds) hw
    (if_pos rfl)).length_eq
  rw [List.length_cons] at hlength
  rcases h.flight with ⟨-, hnone⟩ | ⟨-, other, hone⟩
  · rw [hnone, List.length_nil] at hlength
    omega
  · rw [hone, List.length_singleton] at hlength
    exact List.length_eq_zero_iff.mp (by omega)

/-- The answer to what was being resolved. -/
theorem NavigationFacts.finished (h : NavigationFacts es c ws) {eventId : String}
    (hw : .resolveNavigationPath c.builds eventId ∈ ws) (next : Except Thrown (Option String)) :
    NavigationFacts (es ++ [.answer (.resolveNavigationPath c.builds eventId) (.path next)])
      ((c.shown eventId next).finished eventId)
      (ws.erase (.resolveNavigationPath c.builds eventId)) := by
  have happend :=
    h.append (e := .answer (.resolveNavigationPath c.builds eventId) (.path next)) rfl rfl
  have hbuilt : ∀ build other, .resolveNavigationPath build other ∈
      ws.erase (.resolveNavigationPath c.builds eventId) → build ≤ c.builds :=
    fun build other hother => h.built build other (List.mem_of_mem_erase hother)
  obtain ⟨hbuilds, hidle, hcases⟩ := finished_cases (c := c) eventId next
  rcases hcases with ⟨hsame, hpending, hnavigated⟩ | ⟨-, hpending, hnavigated⟩
  · refine ⟨Or.inl ⟨hidle, hbuilds ▸ h.alone hw⟩, hbuilds ▸ hbuilt, ?_, ?_, ?_⟩
    · intro other hsome
      rw [hpending] at hsome
      cases hsome
    · intro _ other hother
      rw [hbuilds] at hother ⊢
      rw [happend.latest eventId hsame, Option.some.injEq] at hother
      subst hother
      rw [sinceBuild_append rfl]
      exact ⟨sinceBuild es, .path next, [], rfl, h.latest eventId hsame, rfl⟩
    · have hcounted := happend.counted
      rw [hsame, Option.toList_some, List.length_singleton] at hcounted
      rw [hpending, Option.toList_none, List.length_nil]
      omega
  · refine ⟨Or.inl ⟨hidle, hbuilds ▸ h.alone hw⟩, hbuilds ▸ hbuilt, ?_, ?_, ?_⟩
    · rw [hbuilds, hpending]
      exact happend.latest
    · rw [hbuilds, hpending]
      exact happend.resolved
    · rw [hpending, hnavigated]
      exact happend.counted

/-- An answer that the present notifier does not resolve an event with. -/
theorem NavigationInv.erase (h : NavigationInv es ⟨c, ws⟩) {w : NavigationWait}
    (hw : w.resolving c.builds = none) : NavigationInv es ⟨c, ws.erase w⟩ := by
  refine ⟨⟨?_, fun build eventId hmem => ?_, h.facts.latest, h.facts.resolved, h.facts.counted⟩,
    h.moving⟩
  · rw [filterMap_erase_of_none (NavigationWait.resolving c.builds) hw]
    exact h.facts.flight
  · exact h.facts.built build eventId (List.mem_of_mem_erase hmem)

theorem NavigationInv.ignored (h : NavigationInv es ⟨c, ws⟩) {w : NavigationWait}
    {a : NavigationAnswer} (hw : w.resolving c.builds = none)
    (hopening : opening c.builds (.answer w a) = none) :
    NavigationInv (es ++ [.answer w a]) ⟨c, ws.erase w ++ []⟩ := by
  have hkept := h.erase hw
  rw [List.append_nil]
  exact ⟨hkept.facts.append rfl hopening, hkept.moving⟩

theorem NavigationInv.answer (h : NavigationInv es ⟨c, ws⟩) {w : NavigationWait}
    {a : NavigationAnswer} {c' : NotificationNavigation} {new : List NavigationWait}
    (hw : w ∈ ws) (hresume : c.resume w a = some (c', new)) :
    NavigationInv (es ++ [.answer w a]) ⟨c', ws.erase w ++ new⟩ := by
  unfold NotificationNavigation.resume at hresume
  split at hresume
  · obtain ⟨rfl, rfl⟩ := Prod.mk.inj (Option.some.inj hresume)
    exact h.ignored rfl rfl
  · rename_i build eventId
    rw [Option.some.injEq] at hresume
    by_cases hbuild : build = c.builds
    · subst hbuild
      rw [if_pos rfl] at hresume
      have hopening : opening c.builds (.answer (.initialEventId c.builds)
          (.initial (some eventId))) = if isUuidV4 eventId then some eventId else none := by
        simp only [opening, true_and]
      have hkept := (h.erase (w := .initialEventId c.builds) rfl).handleEventId rfl hopening
      rwa [hresume] at hkept
    · rw [if_neg hbuild] at hresume
      obtain ⟨rfl, rfl⟩ := Prod.mk.inj hresume
      exact h.ignored rfl (if_neg fun hboth => hbuild hboth.1)
  · rename_i build eventId next
    rw [Option.some.injEq] at hresume
    by_cases hbuild : build = c.builds
    · subst hbuild
      have hfacts := h.facts.finished hw next
      rw [if_pos rfl, NotificationNavigation.resolved] at hresume
      cases hpending : ((c.shown eventId next).finished eventId).pending with
      | none =>
        simp only [hpending, Option.isSome_none, Bool.false_eq_true, if_false] at hresume
        obtain ⟨rfl, rfl⟩ := Prod.mk.inj hresume
        rw [List.append_nil]
        exact ⟨hfacts, fun _ _ => hpending⟩
      | some other =>
        simp only [hpending, Option.isSome_some, if_true] at hresume
        have hopened := NavigationInv.openPending hfacts
        rwa [hresume] at hopened
    · rw [if_neg hbuild] at hresume
      obtain ⟨rfl, rfl⟩ := Prod.mk.inj hresume
      exact h.ignored (if_neg hbuild) rfl
  · cases hresume

theorem NavigationInv.start (authState : AuthState) :
    NavigationInv [] (navigationStart authState) := by
  refine ⟨⟨Or.inl ⟨rfl, rfl⟩, ?_, ?_, ?_, Nat.zero_le _⟩, fun _ _ => rfl⟩
  · intro build eventId hw
    cases List.mem_singleton.mp hw
  · intro eventId hpending
    cases hpending
  · intro _ eventId hlast
    cases hlast

theorem NavigationInv.of_runs {authState : AuthState}
    {k : Config NotificationNavigation NavigationWait}
    (h : navigationLoop.Runs (fun _ _ => True) (navigationStart authState) es k) :
    NavigationInv es k :=
  h.invariant (NavigationInv.start authState) (fun _ c _ _ hi _ => hi.call c)
    fun _ _ _ _ _ _ _ hi _ hw hr => hi.answer hw hr

/-! ## Where the app goes -/

@[simp] theorem openPending_navigated : c.openPending.1.navigated = c.navigated := by
  unfold NotificationNavigation.openPending
  split
  · rfl
  · split
    · rfl
    · split <;> rfl

@[simp] theorem handleEventId_navigated (eventId : String) :
    (c.handleEventId eventId).1.navigated = c.navigated := by
  unfold NotificationNavigation.handleEventId
  split
  · rfl
  · rw [openPending_navigated]

@[simp] theorem call_navigated (k : NavigationCall) :
    (c.call k).1.navigated = c.navigated := by
  cases k with
  | opened eventId => exact handleEventId_navigated eventId
  | auth next =>
    simp only [NotificationNavigation.call, NotificationNavigation.authChanged]
    split
    · rw [openPending_navigated]
    · rfl
  | invalidate => rfl

theorem resolved_navigated (eventId : String) (next : Except Thrown (Option String)) :
    (c.resolved eventId next).1.navigated = (c.shown eventId next).navigated := by
  have hfinished : ((c.shown eventId next).finished eventId).navigated =
      (c.shown eventId next).navigated := by
    unfold NotificationNavigation.finished
    split <;> rfl
  rw [NotificationNavigation.resolved]
  split
  · rw [openPending_navigated, hfinished]
  · rw [hfinished]

/-- The app goes somewhere only where an answer says so, and only for the event still pending. -/
theorem navigated_of_step {k k' : Config NotificationNavigation NavigationWait}
    (h : navigationLoop.step e k = some k') :
    k'.state.navigated = k.state.navigated ∨ ∃ eventId path,
      e = .answer (.resolveNavigationPath k.state.builds eventId) (.path (.ok (some path))) ∧
        k.state.pending = some eventId ∧
        k'.state.navigated = k.state.navigated ++ [path] := by
  cases e with
  | call c =>
    rw [Loop.step_call h]
    exact Or.inl (call_navigated c)
  | answer w a =>
    obtain ⟨σ, new, -, hresume, rfl⟩ := Loop.step_answer h
    simp only [navigationLoop, NotificationNavigation.resume] at hresume
    split at hresume
    · obtain ⟨rfl, -⟩ := Prod.mk.inj (Option.some.inj hresume)
      exact Or.inl rfl
    · rename_i build eventId
      rw [Option.some.injEq] at hresume
      have hkept := handleEventId_navigated (c := k.state) eventId
      split at hresume
      · rw [hresume] at hkept
        exact Or.inl hkept
      · obtain ⟨rfl, -⟩ := Prod.mk.inj hresume
        exact Or.inl rfl
    · rename_i build eventId next
      rw [Option.some.injEq] at hresume
      split at hresume
      · rename_i hbuild
        subst hbuild
        have hshown := resolved_navigated (c := k.state) eventId next
        rw [hresume] at hshown
        obtain ⟨-, -, hkept | ⟨path, rfl, hpending, hpath⟩⟩ :=
          shown_cases (c := k.state) eventId next
        · exact Or.inl (hshown.trans hkept)
        · exact Or.inr ⟨eventId, path, rfl, hpending, hshown.trans hpath⟩
      · obtain ⟨rfl, -⟩ := Prod.mk.inj hresume
        exact Or.inl rfl
    · cases hresume

end Invariant

/-- **Opened notifications are resolved one at a time, and the last one wins.**  Whatever is opened,
whoever signs in or out and whenever the provider is built again, the present notifier has one
request in flight while it is resolving and none otherwise; if it rests while somebody is signed
in, it has resolved the notification that it was told to open last; and the app goes, at most once
for an opening, where the answer for that notification leads. -/
theorem notifications_opened {authState : AuthState} {es : List NavigationEvent}
    {k : Config NotificationNavigation NavigationWait}
    (h : navigationLoop.Runs (fun _ _ => True) (navigationStart authState) es k) :
    (k.waits.filterMap (NavigationWait.resolving k.state.builds)).length =
        k.state.isResolving.toNat ∧
      (k.state.isResolving = false → k.state.authState.isAuthenticated = true →
        ∀ eventId, lastOpened k.state.builds (sinceBuild es) = some eventId →
          Resolved k.state.builds (sinceBuild es) eventId) ∧
      k.state.navigated.length ≤ es.countP isOpening ∧
      ∀ e k', navigationLoop.step e k = some k' →
        k'.state.navigated = k.state.navigated ∨ ∃ eventId path,
          e = .answer (.resolveNavigationPath k.state.builds eventId) (.path (.ok (some path))) ∧
            lastOpened k.state.builds (sinceBuild es) = some eventId ∧
            k'.state.navigated = k.state.navigated ++ [path] := by
  have hi := NavigationInv.of_runs h
  refine ⟨?_, fun hidle hsigned => ?_, ?_, fun e k' hstep => ?_⟩
  · rcases hi.facts.flight with ⟨hidle, hwaits⟩ | ⟨hbusy, eventId, hwaits⟩
    · rw [hidle, hwaits]
      rfl
    · rw [hbusy, hwaits]
      rfl
  · exact hi.facts.resolved (hi.moving hidle hsigned)
  · exact Nat.le_of_add_right_le hi.facts.counted
  · rcases navigated_of_step hstep with hkept | ⟨eventId, path, he, hpending, hpath⟩
    · exact Or.inl hkept
    · exact Or.inr ⟨eventId, path, he, hi.facts.latest eventId hpending, hpath⟩

namespace NavigationScenario

def review : String := "6f1a8c52-0d4e-4b7a-9c3d-2e5f60718293"

def message : String := "0B9D7E31-5C2A-4F86-8A1B-C4D5E6F70819"

def start : Config NotificationNavigation NavigationWait :=
  navigationStart (.unauthenticated none false)

/-- A notification has started the app; at the login the provider is built again.  Of the two that
are opened afterwards, the second one is opened while the first is being resolved. -/
def two : List NavigationEvent :=
  [.answer (.initialEventId 0) (.initial (some review)),
    .call (.auth (.authenticated ⟨1, "+79990000001"⟩)),
    .call .invalidate,
    .answer (.initialEventId 1) (.initial none),
    .answer (.resolveNavigationPath 0 review) (.path (.ok (some "/profile/reviews"))),
    .call (.opened review),
    .call (.opened message),
    .call (.opened "sosedi://reset"),
    .answer (.resolveNavigationPath 1 review) (.path (.ok (some "/profile/reviews"))),
    .answer (.resolveNavigationPath 1 message) (.path (.ok (some "/bookings/1/chat")))]

theorem notifications_opened_two :
    ∃ k, navigationLoop.play (fun _ _ => true) two start = some k ∧
      k.state.navigated = ["/bookings/1/chat"] ∧ k.waits = [] ∧
      Resolved 1 (sinceBuild two) message := by
  have h : ∃ k, navigationLoop.play (fun _ _ => true) two start = some k ∧
      k.state.navigated = ["/bookings/1/chat"] ∧ k.waits = [] ∧ k.state.builds = 1 ∧
      k.state.isResolving = false ∧ k.state.authState.isAuthenticated = true :=
    ⟨_, rfl, rfl, rfl, rfl, rfl, rfl⟩
  obtain ⟨k, hk, hnavigated, hwaits, hbuilds, hidle, hsigned⟩ := h
  have hruns := (Loop.runs_of_play hk).mono fun _ _ _ => trivial
  obtain ⟨-, hresolved, -, -⟩ := notifications_opened hruns
  rw [hbuilds] at hresolved
  exact ⟨k, hk, hnavigated, hwaits, hresolved hidle hsigned message rfl⟩

end NavigationScenario

end Mobile

end Sosedi
