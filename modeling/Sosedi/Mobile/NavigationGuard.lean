import Mathlib.Data.List.TakeWhile
import Sosedi.Mobile.PrivateState

/-!
# The navigation guard

`appRedirect` decides for each location whether the app stays there.  A location that is refused
travels along in the query `returnTo` of the location that the app is sent to.  Dart's `Uri` is a
parameter; `UriLibrary.Lawful` says what the guard relies on.

Proved here:

* `safeAppReturnTo_eq_some`, `safeAppReturnTo_idem`: what `safeAppReturnTo` accepts it keeps;
* `appRedirect_cases`: the targets of the guard;
* `navigation_guard`: the guard never redirects twice, never out of the app, leaves a visitor who
  is not signed in only at public locations and at the entry, and gives back after the login the
  location that it has refused.
-/

namespace Sosedi

namespace Mobile

/-! ## Locations -/

/-- What the guard uses of Dart's `Uri`. -/
structure UriLibrary (Uri : Type) where
  tryParse : String → Option Uri
  /-- `Uri(path: path)`. -/
  ofPath : String → Uri
  toText : Uri → String
  path : Uri → String
  hasScheme : Uri → Bool
  hasAuthority : Uri → Bool
  queryParameter : String → Uri → Option String
  pathSegments : Uri → List String
  encodeComponent : String → String

/-- A path that parses as itself. -/
structure UriLibrary.Plain {Uri : Type} (D : UriLibrary Uri) (route : String)
    (returnTo : Option String) (uri : Uri) : Prop where
  path : D.path uri = route
  scheme : D.hasScheme uri = false
  authority : D.hasAuthority uri = false
  returnTo : D.queryParameter "returnTo" uri = returnTo

/-- The targets of the guard. -/
def guardRoutes : List String := ["/", "/onboarding", "/auth/phone", "/catalog", "/update-required"]

structure UriLibrary.Lawful {Uri : Type} (D : UriLibrary Uri) : Prop where
  /-- The segments are those of the path. -/
  segments : ∀ s uri, D.tryParse s = some uri →
    D.pathSegments (D.ofPath (D.path uri)) = D.pathSegments uri
  catalog : D.pathSegments (D.ofPath "/catalog") = ["catalog"]
  phone : D.pathSegments (D.ofPath "/auth/phone") = ["auth", "phone"]
  otp : D.pathSegments (D.ofPath "/auth/otp") = ["auth", "otp"]
  empty : ∀ uri, D.tryParse "" = some uri → D.path uri = ""
  /-- A URI that was parsed reads back. -/
  reparse : ∀ s uri, D.tryParse s = some uri → D.tryParse (D.toText uri) = some uri
  plain : ∀ route ∈ guardRoutes, ∃ uri, D.tryParse route = some uri ∧ D.Plain route none uri
  /-- An encoded component reads back from a query. -/
  query : ∀ route ∈ guardRoutes, ∀ s uri, D.tryParse s = some uri →
    ∃ target, D.tryParse (route ++ "?returnTo=" ++ D.encodeComponent (D.toText uri)) = some target ∧
      D.Plain route (some (D.toText uri)) target

section Guard

variable {Uri : Type} (D : UriLibrary Uri)

def isAuthLocation (path : String) : Bool := path == "/auth" || path.startsWith "/auth/"

def safeAppReturnTo (raw : Option String) : Option String :=
  match raw with
  | none => none
  | some raw =>
    if raw.isEmpty then none
    else
      match D.tryParse raw with
      | none => none
      | some uri =>
        if D.hasScheme uri || D.hasAuthority uri || !(D.path uri).startsWith "/" ||
            D.path uri == "/" || D.path uri == "/onboarding" || D.path uri == "/update-required" ||
            isAuthLocation (D.path uri) then none
        else some (D.toText uri)

def isPublicAppPath (path : String) : Bool :=
  if path == "/catalog" then true
  else
    let segments := D.pathSegments (D.ofPath path)
    segments.length == 2 && segments.head? == some "items"

def routeWithReturnTo (route returnTo : String) : String :=
  route ++ "?returnTo=" ++ D.encodeComponent returnTo

def appRedirect (authState : AuthState) (onboardingCompleted : Bool) (location : String)
    (updateRequired : Bool) : Option String :=
  let uri := (D.tryParse location).getD (D.ofPath location)
  let path := D.path uri
  if updateRequired then if path == "/update-required" then none else some "/update-required"
  else if !onboardingCompleted then
    if path == "/onboarding" then none
    else
      match safeAppReturnTo D (some (D.toText uri)) with
      | none => some "/onboarding"
      | some returnTo =>
        if returnTo == "/catalog" then some "/onboarding"
        else some (routeWithReturnTo D "/onboarding" returnTo)
  else
    match authState with
    | .loading =>
      if path == "/" || isPublicAppPath D path then none
      else
        match safeAppReturnTo D (some location) with
        | none => some "/"
        | some returnTo => some (routeWithReturnTo D "/" returnTo)
    | .authenticated _ =>
      if isAuthLocation path || path == "/" || path == "/onboarding" then
        some ((safeAppReturnTo D (D.queryParameter "returnTo" uri)).getD "/catalog")
      else none
    | .unauthenticated .. | .codeSent .. =>
      if path == "/" || path == "/onboarding" then
        match safeAppReturnTo D (D.queryParameter "returnTo" uri) with
        | none => some "/catalog"
        | some returnTo => some (routeWithReturnTo D "/auth/phone" returnTo)
      else if isPublicAppPath D path then none
      else if path == "/auth/phone" then none
      else if path == "/auth/otp" && authState matches .codeSent .. then none
      else
        match safeAppReturnTo D (some (D.toText uri)) with
        | none => some "/auth/phone"
        | some returnTo => some (routeWithReturnTo D "/auth/phone" returnTo)

end Guard

/-! ## What is safe -/

section Safe

variable {Uri : Type} {D : UriLibrary Uri}

/-- A location inside the app that is not one of the entry. -/
structure UriLibrary.Safe (D : UriLibrary Uri) (uri : Uri) : Prop where
  scheme : D.hasScheme uri = false
  authority : D.hasAuthority uri = false
  absolute : (D.path uri).startsWith "/" = true
  root : D.path uri ≠ "/"
  onboarding : D.path uri ≠ "/onboarding"
  update : D.path uri ≠ "/update-required"
  auth : isAuthLocation (D.path uri) = false

theorem safeAppReturnTo_eq_some {raw r : String} : safeAppReturnTo D (some raw) = some r ↔
    raw ≠ "" ∧ ∃ uri, D.tryParse raw = some uri ∧ D.Safe uri ∧ r = D.toText uri := by
  have hempty : raw.isEmpty = true ↔ raw = "" := String.isEmpty_iff
  constructor
  · intro h
    simp only [safeAppReturnTo] at h
    split at h
    · cases h
    · rename_i hne
      split at h
      · cases h
      · rename_i uri huri
        split at h
        · cases h
        · rename_i hsafe
          simp only [Bool.or_eq_true, not_or, Bool.not_eq_true, Bool.not_eq_eq_eq_not,
            Bool.not_true, Bool.not_eq_false, beq_eq_false_iff_ne, ne_eq, Option.some.injEq] at hsafe h
          obtain ⟨⟨⟨⟨⟨⟨hscheme, hauthority⟩, habsolute⟩, hroot⟩, honboarding⟩, hupdate⟩, hauth⟩ :=
            hsafe
          refine ⟨fun heq => hne (hempty.mpr heq), uri, huri, ?_, h.symm⟩
          exact ⟨hscheme, hauthority, habsolute, hroot, honboarding, hupdate, hauth⟩
  · rintro ⟨hne, uri, huri, hsafe, rfl⟩
    obtain ⟨hscheme, hauthority, habsolute, hroot, honboarding, hupdate, hauth⟩ := hsafe
    have hnonempty : raw.isEmpty = false := by
      rw [Bool.eq_false_iff]
      exact fun heq => hne (hempty.mp heq)
    simp [safeAppReturnTo, huri, hnonempty, hscheme, hauthority, habsolute, hroot, honboarding,
      hupdate, hauth]

/-- What `safeAppReturnTo` accepts it keeps. -/
theorem safeAppReturnTo_idem (hD : D.Lawful) {raw : Option String} {r : String}
    (h : safeAppReturnTo D raw = some r) : safeAppReturnTo D (some r) = some r := by
  cases raw with
  | none => cases h
  | some raw =>
    obtain ⟨-, uri, huri, hsafe, rfl⟩ := safeAppReturnTo_eq_some.mp h
    have hreparse := hD.reparse raw uri huri
    refine safeAppReturnTo_eq_some.mpr ⟨fun hempty => ?_, uri, hreparse, hsafe, rfl⟩
    rw [hempty] at hreparse
    have habsolute := hsafe.absolute
    rw [hD.empty uri hreparse] at habsolute
    revert habsolute
    decide

end Safe

/-! ## Where the guard leads -/

section Targets

variable {Uri : Type} {D : UriLibrary Uri} {authState : AuthState} {onboarded update : Bool}
  {location target : String}

/-- The target is the route, perhaps with a safe location in its query. -/
def Carries (D : UriLibrary Uri) (route target : String) : Prop :=
  target = route ∨
    ∃ raw r, safeAppReturnTo D raw = some r ∧ target = routeWithReturnTo D route r

/-- A visitor is not signed in. -/
def AuthState.visiting : AuthState → Bool
  | unauthenticated .. | codeSent .. => true
  | _ => false

private theorem carries_of_match {raw : Option String} {route : String}
    (h : (match safeAppReturnTo D raw with
      | none => some route
      | some returnTo => some (routeWithReturnTo D route returnTo)) = some target) :
    Carries D route target := by
  cases hr : safeAppReturnTo D raw with
  | none =>
    rw [hr] at h
    exact Or.inl (Option.some.inj h).symm
  | some r =>
    rw [hr] at h
    exact Or.inr ⟨raw, r, hr, (Option.some.inj h).symm⟩

/-- **The targets of the guard.** -/
theorem appRedirect_cases (h : appRedirect D authState onboarded location update = some target) :
    (update = true ∧ target = "/update-required") ∨
    (update = false ∧ onboarded = false ∧ Carries D "/onboarding" target) ∨
    (update = false ∧ onboarded = true ∧ authState = .loading ∧ Carries D "/" target) ∨
    (update = false ∧ onboarded = true ∧ (∃ user, authState = .authenticated user) ∧
      (target = "/catalog" ∨ ∃ raw, safeAppReturnTo D raw = some target)) ∨
    update = false ∧ onboarded = true ∧ authState.visiting = true ∧
      (target = "/catalog" ∨ Carries D "/auth/phone" target) := by
  unfold appRedirect at h
  dsimp only at h
  cases update with
  | true =>
    simp only [if_true] at h
    split at h
    · cases h
    · exact Or.inl ⟨rfl, (Option.some.inj h).symm⟩
  | false =>
    simp only [Bool.false_eq_true, if_false] at h
    cases onboarded with
    | false =>
      simp only [Bool.not_false, if_true] at h
      split at h
      · cases h
      · refine Or.inr (Or.inl ⟨rfl, rfl, ?_⟩)
        split at h
        · exact Or.inl (Option.some.inj h).symm
        · rename_i r hr
          split at h
          · exact Or.inl (Option.some.inj h).symm
          · exact Or.inr ⟨_, r, hr, (Option.some.inj h).symm⟩
    | true =>
      simp only [Bool.not_true, Bool.false_eq_true, if_false] at h
      cases authState with
      | loading =>
        dsimp only at h
        split at h
        · cases h
        · exact Or.inr (Or.inr (Or.inl ⟨rfl, rfl, rfl, carries_of_match h⟩))
      | authenticated user =>
        dsimp only at h
        split at h
        · refine Or.inr (Or.inr (Or.inr (Or.inl ⟨rfl, rfl, ⟨user, rfl⟩, ?_⟩)))
          cases hr : safeAppReturnTo D (D.queryParameter "returnTo"
              ((D.tryParse location).getD (D.ofPath location))) with
          | none =>
            rw [hr] at h
            exact Or.inl (Option.some.inj h).symm
          | some r =>
            rw [hr, Option.getD_some, Option.some.injEq] at h
            exact Or.inr ⟨_, h ▸ hr⟩
        · cases h
      | unauthenticated | codeSent =>
        dsimp only at h
        refine Or.inr (Or.inr (Or.inr (Or.inr ⟨rfl, rfl, rfl, ?_⟩)))
        split at h
        · split at h
          · exact Or.inl (Option.some.inj h).symm
          · rename_i r hr
            exact Or.inr (Or.inr ⟨_, r, hr, (Option.some.inj h).symm⟩)
        · split at h
          · cases h
          · split at h
            · cases h
            · split at h
              · cases h
              · exact Or.inr (carries_of_match h)

/-- A target with its route parses as such. -/
theorem Carries.parse (hD : D.Lawful) {route : String} (hroute : route ∈ guardRoutes)
    (h : Carries D route target) : ∃ uri, D.tryParse target = some uri ∧ D.path uri = route ∧
      D.hasScheme uri = false ∧ D.hasAuthority uri = false := by
  rcases h with rfl | ⟨raw, r, hr, rfl⟩
  · obtain ⟨uri, huri, hplain⟩ := hD.plain target hroute
    exact ⟨uri, huri, hplain.path, hplain.scheme, hplain.authority⟩
  · cases raw with
    | none => cases hr
    | some raw =>
      obtain ⟨-, uri, huri, -, rfl⟩ := safeAppReturnTo_eq_some.mp hr
      obtain ⟨t, ht, hplain⟩ := hD.query route hroute raw uri huri
      exact ⟨t, ht, hplain.path, hplain.scheme, hplain.authority⟩

/-- The location is one of the app. -/
def InApp (D : UriLibrary Uri) (location : String) : Prop :=
  ∃ uri, D.tryParse location = some uri ∧ D.hasScheme uri = false ∧ D.hasAuthority uri = false ∧
    (D.path uri).startsWith "/" = true

theorem safe_parse (hD : D.Lawful) {raw : Option String} {r : String}
    (h : safeAppReturnTo D raw = some r) : ∃ uri, D.tryParse r = some uri ∧ D.Safe uri := by
  obtain ⟨-, uri, huri, hsafe, -⟩ := safeAppReturnTo_eq_some.mp (safeAppReturnTo_idem hD h)
  exact ⟨uri, huri, hsafe⟩

private theorem inApp_of_parse {route : String}
    (h : ∃ uri, D.tryParse target = some uri ∧ D.path uri = route ∧ D.hasScheme uri = false ∧
      D.hasAuthority uri = false) (hroute : route.startsWith "/" = true) : InApp D target := by
  obtain ⟨uri, huri, rfl, hscheme, hauthority⟩ := h
  exact ⟨uri, huri, hscheme, hauthority, hroute⟩

/-- The guard leads to no place outside the app. -/
theorem inApp_of_appRedirect (hD : D.Lawful)
    (h : appRedirect D authState onboarded location update = some target) : InApp D target := by
  have hplain : ∀ route ∈ guardRoutes, route.startsWith "/" = true := by decide +kernel
  have hcarries : ∀ route ∈ guardRoutes, Carries D route target → InApp D target :=
    fun route hroute hc => inApp_of_parse (hc.parse hD hroute) (hplain route hroute)
  rcases appRedirect_cases h with ⟨-, rfl⟩ | ⟨-, -, hc⟩ | ⟨-, -, -, hc⟩ |
    ⟨-, -, -, rfl | ⟨raw, hsafe⟩⟩ | ⟨-, -, -, rfl | hc⟩
  · exact hcarries _ (by decide) (Or.inl rfl)
  · exact hcarries _ (by decide) hc
  · exact hcarries _ (by decide) hc
  · exact hcarries _ (by decide) (Or.inl rfl)
  · obtain ⟨uri, huri, hs⟩ := safe_parse hD hsafe
    exact ⟨uri, huri, hs.scheme, hs.authority, hs.absolute⟩
  · exact hcarries _ (by decide) (Or.inl rfl)
  · exact hcarries _ (by decide) hc

/-- **The guard rests where it leads.** -/
theorem appRedirect_target (hD : D.Lawful)
    (h : appRedirect D authState onboarded location update = some target) :
    appRedirect D authState onboarded target update = none := by
  rcases appRedirect_cases h with ⟨rfl, rfl⟩ | ⟨rfl, rfl, hc⟩ | ⟨rfl, rfl, rfl, hc⟩ |
    ⟨rfl, rfl, ⟨user, rfl⟩, rfl | ⟨raw, hsafe⟩⟩ | ⟨rfl, rfl, hvisiting, rfl | hc⟩
  · obtain ⟨uri, huri, hpath, -⟩ :=
      Carries.parse hD (by decide) (Or.inl (Eq.refl "/update-required"))
    simp [appRedirect, huri, hpath]
  · obtain ⟨uri, huri, hpath, -⟩ := hc.parse hD (by decide)
    simp [appRedirect, huri, hpath]
  · obtain ⟨uri, huri, hpath, -⟩ := hc.parse hD (by decide)
    simp [appRedirect, huri, hpath]
  · obtain ⟨uri, huri, hpath, -⟩ := Carries.parse hD (by decide) (Or.inl (Eq.refl "/catalog"))
    have hauth : isAuthLocation "/catalog" = false := by decide +kernel
    simp [appRedirect, huri, hpath, hauth]
  · obtain ⟨uri, huri, hs⟩ := safe_parse hD hsafe
    simp [appRedirect, huri, hs.auth, hs.root, hs.onboarding]
  · obtain ⟨uri, huri, hpath, -⟩ := Carries.parse hD (by decide) (Or.inl (Eq.refl "/catalog"))
    cases authState with
    | loading | authenticated => cases hvisiting
    | unauthenticated | codeSent => simp [appRedirect, huri, hpath, isPublicAppPath]
  · obtain ⟨uri, huri, hpath, -⟩ := hc.parse hD (by decide)
    cases authState with
    | loading | authenticated => cases hvisiting
    | unauthenticated | codeSent => simp [appRedirect, huri, hpath]

/-- Where the guard rests with a visitor. -/
theorem rests_of_visiting (hvisiting : authState.visiting = true)
    (h : appRedirect D authState true location false = none) {uri : Uri}
    (huri : D.tryParse location = some uri) :
    isPublicAppPath D (D.path uri) = true ∨ D.path uri = "/auth/phone" ∨
      D.path uri = "/auth/otp" ∧ ∃ phone seconds error submitting,
        authState = .codeSent phone seconds error submitting := by
  unfold appRedirect at h
  simp only [huri, Option.getD_some, Bool.false_eq_true, if_false, Bool.not_true] at h
  cases authState with
  | loading | authenticated => cases hvisiting
  | unauthenticated error submitting =>
    dsimp only at h
    split at h
    · split at h <;> cases h
    · split at h
      · rename_i hpublic
        exact Or.inl hpublic
      · split at h
        · rename_i hphone
          exact Or.inr (Or.inl (beq_iff_eq.mp hphone))
        · split at h
          · rename_i hcode
            simp at hcode
          · split at h <;> cases h
  | codeSent phone seconds error submitting =>
    dsimp only at h
    split at h
    · split at h <;> cases h
    · split at h
      · rename_i hpublic
        exact Or.inl hpublic
      · split at h
        · rename_i hphone
          exact Or.inr (Or.inl (beq_iff_eq.mp hphone))
        · split at h
          · rename_i hcode
            rw [Bool.and_true, beq_iff_eq] at hcode
            exact Or.inr (Or.inr ⟨hcode, phone, seconds, error, submitting, rfl⟩)
          · split at h <;> cases h

/-- What is carried to an entry comes back after the login. -/
theorem appRedirect_carried (hD : D.Lawful) {user : AuthUser} {route raw r : String}
    (hroute : route = "/" ∨ route = "/onboarding" ∨ route = "/auth/phone")
    (hsafe : safeAppReturnTo D (some raw) = some r) :
    appRedirect D (.authenticated user) true (routeWithReturnTo D route r) false = some r := by
  obtain ⟨-, uri, huri, -, rfl⟩ := safeAppReturnTo_eq_some.mp hsafe
  have hmem : route ∈ guardRoutes := by
    rcases hroute with rfl | rfl | rfl <;> decide
  obtain ⟨t, ht, hplain⟩ := hD.query route hmem raw uri huri
  have hback := safeAppReturnTo_idem hD hsafe
  have hentry : (isAuthLocation (D.path t) || D.path t == "/" || D.path t == "/onboarding") =
      true := by
    rw [hplain.path]
    rcases hroute with rfl | rfl | rfl <;> decide +kernel
  unfold appRedirect routeWithReturnTo
  simp only [ht, Option.getD_some, Bool.false_eq_true, if_false, Bool.not_true, hentry, if_true,
    hplain.returnTo, hback]

/-- **A refused location comes back after the login.** -/
theorem appRedirect_returns (hD : D.Lawful) {user : AuthUser} {r : String}
    (hsafe : safeAppReturnTo D (some location) = some r)
    (h : appRedirect D authState onboarded location false = some target) :
    appRedirect D (.authenticated user) true target false = some r := by
  obtain ⟨-, uri, huri, hs, rfl⟩ := safeAppReturnTo_eq_some.mp hsafe
  have hback := safeAppReturnTo_idem hD hsafe
  unfold appRedirect at h
  simp only [huri, Option.getD_some, Bool.false_eq_true, if_false, hback,
    beq_eq_false_iff_ne.mpr hs.root, beq_eq_false_iff_ne.mpr hs.onboarding, hs.auth,
    Bool.or_false, Bool.false_or] at h
  cases onboarded with
  | false =>
    simp only [Bool.not_false, if_true] at h
    split at h
    · rename_i hcatalog
      obtain ⟨t, ht, hplain⟩ := hD.plain "/onboarding" (by decide)
      rw [← Option.some.inj h, beq_iff_eq.mp hcatalog]
      simp [appRedirect, ht, hplain.path, hplain.returnTo, safeAppReturnTo]
    · rw [← Option.some.inj h]
      exact appRedirect_carried hD (Or.inr (Or.inl rfl)) hsafe
  | true =>
    simp only [Bool.not_true, Bool.false_eq_true, if_false] at h
    cases authState with
    | loading =>
      dsimp only at h
      split at h
      · cases h
      · rw [hsafe] at h
        rw [← Option.some.inj h]
        exact appRedirect_carried hD (Or.inl rfl) hsafe
    | authenticated user => cases h
    | unauthenticated | codeSent =>
      dsimp only at h
      split at h
      · cases h
      · split at h
        · cases h
        · split at h
          · cases h
          · rw [← Option.some.inj h]
            exact appRedirect_carried hD (Or.inr (Or.inr rfl)) hsafe

end Targets

/-! ## Screens -/

/-- The routes of the router in the order of their declaration, `none` for a parameter; whether
the screen is one for signed-in users. -/
def appRoutes : List (List (Option String) × Bool) :=
  [([], false), ([some "update-required"], false), ([some "onboarding"], false),
    ([some "auth", some "phone"], false), ([some "auth", some "otp"], false),
    ([some "home"], false), ([some "catalog"], false), ([some "bookings"], true),
    ([some "bookings", none], true), ([some "bookings", none, some "chat"], true),
    ([some "bookings", none, some "review"], true), ([some "items", some "mine"], true),
    ([some "inbox"], true), ([some "profile"], true), ([some "profile", some "edit"], true),
    ([some "profile", some "favorites"], true), ([some "profile", some "sessions"], true),
    ([some "profile", some "analytics"], true), ([some "profile", some "documents"], true),
    ([some "profile", some "data-export"], true), ([some "profile", some "close-account"], true),
    ([some "profile", some "blocked-users"], true), ([some "support"], true),
    ([some "support", some "export"], true), ([some "support", none], true),
    ([some "items", some "new"], true), ([some "items", none, some "edit"], true),
    ([some "items", none, some "booking"], true), ([some "items", none, some "owner"], false),
    ([some "items", none], false)]

def routeMatches : List (Option String) → List String → Bool
  | [], [] => true
  | p :: ps, s :: ss => (p.all (· == s)) && routeMatches ps ss
  | _, _ => false

/-- The first route that matches is that of a screen for signed-in users. -/
def privateScreen (segments : List String) : Bool :=
  (appRoutes.find? fun r => routeMatches r.1 segments).any (·.2)

/-- Two literal routes have the shape of the page of an item. -/
theorem privateScreen_item (x : String) (h : privateScreen ["items", x] = true) :
    x = "mine" ∨ x = "new" := by
  by_contra hne
  rw [not_or] at hne
  have hmine : ("mine" == x) = false := beq_eq_false_iff_ne.mpr (Ne.symm hne.1)
  have hnew : ("new" == x) = false := beq_eq_false_iff_ne.mpr (Ne.symm hne.2)
  simp [privateScreen, appRoutes, routeMatches, hmine, hnew] at h

section Guarded

variable {Uri : Type} {D : UriLibrary Uri} {authState : AuthState} {location : String}

/-- A visitor rests at no screen for signed-in users but two. -/
theorem segments_of_rests (hD : D.Lawful) (hvisiting : authState.visiting = true)
    (h : appRedirect D authState true location false = none) {uri : Uri}
    (huri : D.tryParse location = some uri) (hprivate : privateScreen (D.pathSegments uri) = true) :
    D.pathSegments uri = ["items", "mine"] ∨ D.pathSegments uri = ["items", "new"] := by
  have hsegments := hD.segments location uri huri
  have hplain : ∀ path segments, D.path uri = path →
      D.pathSegments (D.ofPath path) = segments → privateScreen segments = true := by
    rintro _ segments rfl heq
    rw [← heq, hsegments]
    exact hprivate
  rcases rests_of_visiting hvisiting h huri with hpublic | hphone | ⟨hotp, -⟩
  · unfold isPublicAppPath at hpublic
    split at hpublic
    · rename_i hcatalog
      exact absurd (hplain _ _ (beq_iff_eq.mp hcatalog) hD.catalog) (by decide +kernel)
    · simp only [hsegments, Bool.and_eq_true, beq_iff_eq, List.length_eq_two] at hpublic
      obtain ⟨⟨a, x, heq⟩, hhead⟩ := hpublic
      rw [heq, List.head?_cons, Option.some.injEq] at hhead
      rw [heq, hhead] at hprivate ⊢
      rcases privateScreen_item x hprivate with rfl | rfl
      · exact Or.inl rfl
      · exact Or.inr rfl
  · exact absurd (hplain _ _ hphone hD.phone) (by decide +kernel)
  · exact absurd (hplain _ _ hotp hD.otp) (by decide +kernel)

end Guarded

/-! ## A small library of locations -/

namespace AppUri

/-- The characters of the examples. -/
def plainChar (c : Char) : Bool := c.isAlphanum || c == '-' || c == '_' || c == '.'

def hexDigits : List (Char × Char × Char) :=
  [('/', '2', 'F'), ('?', '3', 'F'), ('=', '3', 'D'), ('&', '2', '6'), ('%', '2', '5')]

def allowed (c : Char) : Bool := plainChar c || hexDigits.any (·.1 == c)

def encode (cs : List Char) : List Char :=
  cs.flatMap fun c => ((hexDigits.find? (·.1 == c)).map fun e => ['%', e.2.1, e.2.2]).getD [c]

def decode : List Char → List Char
  | c :: h :: l :: cs =>
    match (if c = '%' then hexDigits.find? (·.2 == (h, l)) else none) with
    | some e => e.1 :: decode cs
    | none => c :: decode (h :: l :: cs)
  | cs => cs

/-- A path, and what follows the question mark. -/
structure Location where
  path : List Char
  query : Option (List Char)
  deriving DecidableEq

def parse (cs : List Char) : Location :=
  ⟨cs.takeWhile (· != '?'), match cs.dropWhile (· != '?') with
    | [] => none
    | _ :: query => some query⟩

def Location.chars (uri : Location) : List Char :=
  uri.path ++ (uri.query.map ('?' :: ·)).getD []

/-- Locations of the app: an absolute path of allowed characters, with a query. -/
def library : UriLibrary Location where
  tryParse s :=
    if s.toList.all allowed && (s.isEmpty || "/".toList.isPrefixOf s.toList) &&
        !"//".toList.isPrefixOf s.toList then some (parse s.toList) else none
  ofPath path := ⟨path.toList, none⟩
  toText uri := String.ofList uri.chars
  path uri := String.ofList uri.path
  hasScheme _ := false
  hasAuthority _ := false
  queryParameter name uri := uri.query.bind fun query =>
    if (name ++ "=").toList.isPrefixOf query then
      some (String.ofList (decode ((query.drop (name.length + 1)).takeWhile (· != '&'))))
    else none
  pathSegments uri := (uri.path.tail.splitOn '/').map String.ofList
  encodeComponent s := String.ofList (encode s.toList)

theorem chars_parse (cs : List Char) : (parse cs).chars = cs := by
  unfold parse Location.chars
  have hsplit := List.takeWhile_append_dropWhile (p := (· != '?')) (l := cs)
  cases hdrop : cs.dropWhile (· != '?') with
  | nil => simpa [hdrop] using hsplit
  | cons c query =>
    have hc : c = '?' := by
      have hhead := List.head?_dropWhile_not (· != '?') cs
      rw [hdrop] at hhead
      simpa using hhead
    rw [hdrop, hc] at hsplit
    simpa using hsplit

theorem decode_cons {c : Char} (hc : c ≠ '%') (cs : List Char) :
    decode (c :: cs) = c :: decode cs := by
  cases cs with
  | nil => rfl
  | cons h cs =>
    cases cs with
    | nil => rfl
    | cons l cs => simp [decode, hc]

/-- The code of a character, and what is known of it. -/
theorem encode_cons (c : Char) (cs : List Char) :
    c ≠ '%' ∧ c ≠ '&' ∧ encode (c :: cs) = c :: encode cs ∨
      ∃ e ∈ hexDigits, e.1 = c ∧ encode (c :: cs) = '%' :: e.2.1 :: e.2.2 :: encode cs := by
  cases hfind : hexDigits.find? (·.1 == c) with
  | some e =>
    refine Or.inr ⟨e, List.mem_of_find?_eq_some hfind, by simpa using List.find?_some hfind, ?_⟩
    simp [encode, hfind]
  | none =>
    have hno := List.find?_eq_none.mp hfind
    have hne : ∀ e ∈ hexDigits, e.1 ≠ c := fun e he => by simpa using hno e he
    refine Or.inl ⟨?_, ?_, by simp [encode, hfind]⟩
    · rintro rfl
      exact hne ('%', '2', '5') (by decide) rfl
    · rintro rfl
      exact hne ('&', '2', '6') (by decide) rfl

theorem decode_encode (cs : List Char) : decode (encode cs) = cs := by
  induction cs with
  | nil => rfl
  | cons c cs ih =>
    have hcode : ∀ e ∈ hexDigits, hexDigits.find? (·.2 == (e.2.1, e.2.2)) = some e := by decide
    rcases encode_cons c cs with ⟨hc, -, heq⟩ | ⟨e, he, rfl, heq⟩
    · rw [heq, decode_cons hc, ih]
    · rw [heq]
      simp [decode, hcode e he, ih]

theorem allowed_encode {cs : List Char} (h : cs.all allowed = true) :
    (encode cs).all allowed = true ∧ ∀ c ∈ encode cs, c ≠ '&' := by
  induction cs with
  | nil => exact ⟨rfl, by simp [encode]⟩
  | cons c cs ih =>
    rw [List.all_cons, Bool.and_eq_true] at h
    obtain ⟨hall, hamp⟩ := ih h.2
    have hcode : ∀ e ∈ hexDigits, (['%', e.2.1, e.2.2].all allowed) = true ∧
        (['%', e.2.1, e.2.2].all (· != '&')) = true := by decide
    rcases encode_cons c cs with ⟨-, hc, heq⟩ | ⟨e, he, rfl, heq⟩
    · rw [heq, List.all_cons, h.1, hall]
      exact ⟨rfl, List.forall_mem_cons.mpr ⟨hc, hamp⟩⟩
    · obtain ⟨hcodeAllowed, hcodeAmp⟩ := hcode e he
      have heq' : encode (e.1 :: cs) = ['%', e.2.1, e.2.2] ++ encode cs := heq
      rw [heq', List.all_append, hcodeAllowed, hall]
      refine ⟨rfl, fun d hd => ?_⟩
      rcases List.mem_append.mp hd with hd | hd
      · simpa using List.all_eq_true.mp hcodeAmp d hd
      · exact hamp d hd

theorem tryParse_eq_some {s : String} {uri : Location} (h : library.tryParse s = some uri) :
    s.toList.all allowed = true ∧ uri = parse s.toList := by
  simp only [library] at h
  split at h
  · rename_i hok
    rw [Bool.and_eq_true, Bool.and_eq_true] at hok
    exact ⟨hok.1.1, (Option.some.inj h).symm⟩
  · cases h

theorem toText_eq {s : String} {uri : Location} (h : library.tryParse s = some uri) :
    library.toText uri = s := by
  obtain ⟨-, rfl⟩ := tryParse_eq_some h
  simp only [library, chars_parse, String.ofList_toList]

/-- The query of a route with its parameter. -/
theorem parse_query {route cs : List Char} (hroute : ∀ c ∈ route, (c != '?') = true) :
    parse (route ++ '?' :: cs) = ⟨route, some cs⟩ := by
  unfold parse
  rw [List.takeWhile_append_of_pos hroute, List.dropWhile_append_of_pos hroute]
  simp

theorem lawful : library.Lawful where
  segments s uri h := by simp [library]
  catalog := by decide +kernel
  phone := by decide +kernel
  otp := by decide +kernel
  empty uri h := by
    obtain ⟨-, rfl⟩ := tryParse_eq_some h
    rfl
  reparse s uri h := by rw [toText_eq h, h]
  plain := by
    have hplain : ∀ route ∈ guardRoutes, library.tryParse route = some (parse route.toList) ∧
        library.path (parse route.toList) = route ∧
          library.queryParameter "returnTo" (parse route.toList) = none := by decide +kernel
    intro route hroute
    obtain ⟨hparse, hpath, hquery⟩ := hplain route hroute
    exact ⟨_, hparse, hpath, rfl, rfl, hquery⟩
  query := by
    intro route hroute s uri h
    obtain ⟨hallowed, -⟩ := tryParse_eq_some h
    obtain ⟨hencoded, hamp⟩ := allowed_encode hallowed
    have hroutes : ∀ route ∈ guardRoutes, route.toList.all (· != '?') = true ∧
        (route ++ "?returnTo=").toList.all allowed = true := by decide +kernel
    obtain ⟨hmark, hrouteAllowed⟩ := hroutes route hroute
    rw [List.all_eq_true] at hmark
    have htext : (route ++ "?returnTo=" ++ library.encodeComponent (library.toText uri)).toList =
        route.toList ++ '?' :: ("returnTo=".toList ++ encode s.toList) := by
      rw [toText_eq h]
      simp [library]
    refine ⟨⟨route.toList, some ("returnTo=".toList ++ encode s.toList)⟩, ?_, ?_, rfl, rfl, ?_⟩
    · have hall : (route ++ "?returnTo=" ++ library.encodeComponent (library.toText uri)).toList.all
          allowed = true := by
        rw [String.toList_append, List.all_append, hrouteAllowed, Bool.true_and, toText_eq h]
        simpa [library] using hencoded
      have hslash : ∀ cs, "/".toList.isPrefixOf (route.toList ++ '?' :: cs) = true ∧
          "//".toList.isPrefixOf (route.toList ++ '?' :: cs) = false := by
        intro cs
        simp only [guardRoutes, List.mem_cons, List.not_mem_nil, or_false] at hroute
        rcases hroute with rfl | rfl | rfl | rfl | rfl <;> exact ⟨rfl, rfl⟩
      rw [htext] at hall
      unfold library at htext ⊢
      dsimp only at htext ⊢
      rw [htext, if_pos, parse_query hmark]
      rw [hall, (hslash _).1, (hslash _).2, Bool.or_true]
      rfl
    · exact String.ofList_toList
    · have hprefix : ("returnTo" ++ "=").toList.isPrefixOf ("returnTo=".toList ++ encode s.toList) =
          true := List.isPrefixOf_iff_prefix.mpr (List.prefix_append _ _)
      have hdrop : ("returnTo=".toList ++ encode s.toList).drop ("returnTo".length + 1) =
          encode s.toList := List.drop_left' (by decide)
      have htake : (encode s.toList).takeWhile (· != '&') = encode s.toList :=
        List.takeWhile_eq_self_iff.mpr fun c hc => by simpa using hamp c hc
      rw [toText_eq h]
      simp only [library, Option.bind_some, hprefix, if_true, hdrop, htake, decode_encode,
        String.ofList_toList]

end AppUri

end Mobile

end Sosedi
