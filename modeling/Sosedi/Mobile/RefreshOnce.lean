import Mathlib.Data.List.Range
import Sosedi.Mobile.AuthInterceptor

/-!
# One refresh at a time

Proved here:

* `FlightInv.answer`, `HandlerInv.answer`, `TokenInv.answer`: what every answer keeps;
* `refreshed_once`: refreshes do not overlap, no rotated token is presented again, and every
  request is retried at most once and completed once.
-/

namespace Sosedi

open Async

namespace Mobile

/-- The storage takes the tokens that a refresh writes. -/
def storesTokens (e : ApiEvent) (_ : Config ApiClient ApiWait) : Bool :=
  match e with
  | .answer (.refresh _ (.saveAccess _)) .failed => false
  | .answer (.refresh _ (.saveRefresh _)) .failed => false
  | _ => true

structure RefreshedOnce (k : Config ApiClient ApiWait) : Prop where
  /-- At most one call of `/auth/refresh` is in flight. -/
  single : (k.waits.filterMap ApiWait.presented).length ≤ 1
  /-- It does not present a token whose rotation was answered. -/
  current : ∀ token ∈ k.waits.filterMap ApiWait.presented, token ∉ k.state.rotated
  retried : k.state.retried.Nodup
  /-- Every failed request has its handler with one suspended `onError`, or completed once. -/
  handlers : (k.waits.filterMap ApiWait.request ++ k.state.completed).Perm
    (List.range k.state.requests)
  /-- An `onError` that waits for a refresh can go on, or the refresh is on its way. -/
  awaited : ∀ request run, .handler request (.refreshed run) ∈ k.waits →
    (k.state.results run ≠ none ∧ k.state.refreshFuture ≠ some run) ∨
      run ∈ k.waits.filterMap ApiWait.run

section Flight

variable {c c' : ApiClient} {ws new : List ApiWait} {w : ApiWait} {a : ApiAnswer}
  {request : Nat} {run : RefreshRun}

/-- The future that is shared is that of the refresh on its way. -/
structure FlightInv (k : Config ApiClient ApiWait) : Prop where
  flight : k.waits.filterMap ApiWait.run = k.state.refreshFuture.toList
  ended : ∀ run, .refresh run .whenComplete ∈ k.waits → k.state.results run ≠ none
  awaited : ∀ request run, .handler request (.refreshed run) ∈ k.waits →
    k.state.results run ≠ none ∨ k.state.refreshFuture = some run

theorem FlightInv.start (access refresh : Bool) : FlightInv (apiStart access refresh) where
  flight := rfl
  ended _ h := absurd h List.not_mem_nil
  awaited _ _ h := absurd h List.not_mem_nil

/-- A refresh on its way is the only one. -/
theorem FlightInv.of_mem (h : FlightInv ⟨c, ws⟩) {w : RefreshWait} (hw : .refresh run w ∈ ws) :
    c.refreshFuture = some run ∧ (ws.erase (.refresh run w)).filterMap ApiWait.run = [] := by
  have hperm := filterMap_perm_of_mem ApiWait.run hw rfl
  have hflight : ws.filterMap ApiWait.run = c.refreshFuture.toList := h.flight
  rw [hflight] at hperm
  cases hf : c.refreshFuture with
  | none => simp [hf] at hperm
  | some run' =>
    rw [hf] at hperm
    have hlength := hperm.length_eq
    have hnil : (ws.erase (.refresh run w)).filterMap ApiWait.run = [] := by
      simpa using hlength
    rw [hnil] at hperm
    have heq : run' = run := by simpa using hperm
    exact ⟨by rw [heq], hnil⟩

/-- A step of another party. -/
theorem FlightInv.frame (h : FlightInv ⟨c, ws⟩) (hw : w.run = none)
    (hnew : new.filterMap ApiWait.run = []) (hf : c'.refreshFuture = c.refreshFuture)
    (hr : c'.results = c.results)
    (hawaited : ∀ request run, .handler request (.refreshed run) ∈ new →
      c.results run ≠ none ∨ c.refreshFuture = some run) :
    FlightInv ⟨c', ws.erase w ++ new⟩ where
  flight := by
    rw [filterMap_step_of_none hw hnew, hf]
    exact h.flight
  ended run hm := by
    rw [hr]
    rcases List.mem_append.mp hm with hm | hm
    · exact h.ended run (List.mem_of_mem_erase hm)
    · have hrun := List.mem_filterMap.mpr ⟨_, hm, (rfl : ApiWait.run (.refresh run _) = some run)⟩
      rw [hnew] at hrun
      cases hrun
  awaited request run hm := by
    rw [hr, hf]
    rcases List.mem_append.mp hm with hm | hm
    · exact h.awaited request run (List.mem_of_mem_erase hm)
    · exact hawaited request run hm

theorem FlightInv.handler (h : FlightInv ⟨c, ws⟩) {w : HandlerWait}
    (hs : HandlerStep c request w c' new) :
    FlightInv ⟨c', ws.erase (.handler request w) ++ new⟩ := by
  cases hs with
  | completed refreshToken _ => exact h.frame rfl rfl rfl rfl (by simp)
  | retried accessToken _ => exact h.frame rfl rfl rfl rfl (by simp)
  | joined run _ hf => exact h.frame rfl rfl rfl rfl (by simp [hf])
  | rejected run _ _ => exact h.frame rfl rfl rfl rfl (by simp)
  | cleared run _ => exact h.frame rfl rfl rfl rfl (by simp)
  | launched _ hf =>
    have hflight : ws.filterMap ApiWait.run = [] := by
      have hnone := h.flight
      rwa [show (Config.state ⟨c, ws⟩ : ApiClient).refreshFuture = none from hf] at hnone
    constructor
    · rw [List.filterMap_append, filterMap_erase_of_none ApiWait.run rfl, hflight]
      rfl
    · intro run hm
      refine h.ended run ?_
      rcases List.mem_append.mp hm with hm | hm
      · exact List.mem_of_mem_erase hm
      · simp at hm
    · intro request' run hm
      rcases List.mem_append.mp hm with hm | hm
      · refine (h.awaited request' run (List.mem_of_mem_erase hm)).imp_right fun hsome => ?_
        rw [show c.refreshFuture = some run from hsome] at hf
        cases hf
      · obtain ⟨-, rfl⟩ := by simpa using hm
        exact .inr rfl

/-- A step of the refresh that goes on. -/
theorem FlightInv.onWay (h : FlightInv ⟨c, ws⟩) {w w' : RefreshWait} (hw : .refresh run w ∈ ws)
    (hf : c'.refreshFuture = c.refreshFuture)
    (hr : ∀ run, c.results run ≠ none → c'.results run ≠ none)
    (hover : w' = .whenComplete → c'.results run ≠ none) :
    FlightInv ⟨c', ws.erase (.refresh run w) ++ [.refresh run w']⟩ := by
  obtain ⟨hrun, hnil⟩ := h.of_mem hw
  constructor
  · rw [List.filterMap_append, hnil, hf, hrun]
    rfl
  · intro run' hm
    rcases List.mem_append.mp hm with hm | hm
    · exact hr run' (h.ended run' (List.mem_of_mem_erase hm))
    · obtain ⟨rfl, heq⟩ := by simpa using hm
      exact hover heq.symm
  · intro request run' hm
    rcases List.mem_append.mp hm with hm | hm
    · rw [hf]
      exact (h.awaited request run' (List.mem_of_mem_erase hm)).imp_left (hr run')
    · simp at hm

theorem update_ne_none {results : RefreshRun → Option RefreshResult} {result : RefreshResult}
    (run' : RefreshRun) (h : results run' ≠ none) :
    Function.update results run (some result) run' ≠ none := by
  by_cases heq : run' = run
  · simp [heq]
  · rwa [Function.update_of_ne heq]

theorem FlightInv.refresh (h : FlightInv ⟨c, ws⟩) {w : RefreshWait} (hw : .refresh run w ∈ ws)
    (hs : RefreshStep c run w a c' new) : FlightInv ⟨c', ws.erase (.refresh run w) ++ new⟩ := by
  cases hs with
  | finished result _ _ _ =>
    exact h.onWay hw rfl (fun run' => update_ne_none run') fun _ => by simp
  | read refreshToken _ _ => exact h.onWay hw rfl (fun _ hr => hr) (by simp)
  | sent refreshToken _ => exact h.onWay hw rfl (fun _ hr => hr) (by simp)
  | rotated refreshToken _ _ => exact h.onWay hw rfl (fun _ hr => hr) (by simp)
  | savedAccess tokens _ => exact h.onWay hw rfl (fun _ hr => hr) (by simp)
  | savedRefresh tokens _ =>
    exact h.onWay hw rfl (fun run' => update_ne_none run') fun _ => by simp
  | ended hover =>
    subst hover
    obtain ⟨hrun, hnil⟩ := h.of_mem hw
    rw [List.append_nil]
    constructor
    · rw [hnil]
      rfl
    · exact fun run' hm => h.ended run' (List.mem_of_mem_erase hm)
    · intro request run' hm
      rcases h.awaited request run' (List.mem_of_mem_erase hm) with hr | hsome
      · exact .inl hr
      · have hsame := hrun.symm.trans hsome
        cases hsame
        exact .inl (h.ended run hw)

theorem FlightInv.logout (h : FlightInv ⟨c, ws⟩) {w : LogoutWait} (hs : LogoutStep c w c' new) :
    FlightInv ⟨c', ws.erase (.logout w) ++ new⟩ := by
  cases hs with
  | moved w' => exact h.frame rfl rfl rfl rfl (by simp)
  | stopped => exact h.frame rfl rfl rfl rfl (by simp)
  | clearedAccess => exact h.frame rfl rfl rfl rfl (by simp)
  | clearedRefresh _ => exact h.frame rfl rfl rfl rfl (by simp)

theorem FlightInv.login (h : FlightInv ⟨c, ws⟩) {w : LoginWait} (hs : LoginStep c w c' new) :
    FlightInv ⟨c', ws.erase (.login w) ++ new⟩ := by
  cases hs with
  | issued _ => exact h.frame rfl rfl rfl rfl (by simp)
  | stopped => exact h.frame rfl rfl rfl rfl (by simp)
  | savedAccess tokens _ => exact h.frame rfl rfl rfl rfl (by simp)
  | savedRefresh tokens _ => exact h.frame rfl rfl rfl rfl (by simp)

theorem FlightInv.answer (h : FlightInv ⟨c, ws⟩) (hw : w ∈ ws)
    (hr : c.resume w a = some (c', new)) : FlightInv ⟨c', ws.erase w ++ new⟩ := by
  cases w with
  | handler request w => exact h.handler (handlerStep_of_resume hr)
  | refresh run w => exact h.refresh hw (refreshStep_of_resume hr)
  | logout w => exact h.logout (logoutStep_of_resume hr)
  | login w => exact h.login (loginStep_of_resume hr)

/-- A new call, which is not part of a refresh. -/
theorem FlightInv.call (h : FlightInv ⟨c, ws⟩) (k : ApiCall) :
    FlightInv ⟨(c.call k).1, ws ++ (c.call k).2⟩ := by
  have hcall : (c.call k).1.refreshFuture = c.refreshFuture ∧ (c.call k).1.results = c.results ∧
      (c.call k).2.filterMap ApiWait.run = [] ∧
      ∀ request run, .handler request (.refreshed run) ∉ (c.call k).2 := by
    cases k with
    | onError error =>
      simp only [ApiClient.call, ApiClient.onError]
      split
      · exact ⟨rfl, rfl, rfl, by simp⟩
      · exact ⟨rfl, rfl, rfl, by simp [ApiClient.complete]⟩
    | logout => exact ⟨rfl, rfl, rfl, by simp [ApiClient.call]⟩
    | verifyOtp => exact ⟨rfl, rfl, rfl, by simp [ApiClient.call]⟩
  obtain ⟨hf, hr, hnew, hawaited⟩ := hcall
  constructor
  · rw [List.filterMap_append, hnew, List.append_nil, hf]
    exact h.flight
  · intro run hm
    rw [hr]
    rcases List.mem_append.mp hm with hm | hm
    · exact h.ended run hm
    · have hrun := List.mem_filterMap.mpr ⟨_, hm, (rfl : ApiWait.run (.refresh run _) = some run)⟩
      rw [hnew] at hrun
      cases hrun
  · intro request run hm
    rw [hr, hf]
    rcases List.mem_append.mp hm with hm | hm
    · exact h.awaited request run hm
    · exact absurd hm (hawaited request run)

end Flight

section Handlers

variable {c c' : ApiClient} {ws new : List ApiWait} {w : ApiWait} {a : ApiAnswer}
  {request : Nat}

/-- Every failed request is with one suspended `onError`, or completed. -/
structure HandlerInv (k : Config ApiClient ApiWait) : Prop where
  handlers : (k.waits.filterMap ApiWait.request ++ k.state.completed).Perm
    (List.range k.state.requests)
  once : k.state.retried.Nodup
  retried : ∀ request ∈ k.state.retried, request < k.state.requests ∧
    ∀ w, .handler request w ∈ k.waits → ∃ t, w = .retry t

theorem HandlerInv.start (access refresh : Bool) : HandlerInv (apiStart access refresh) where
  handlers := .refl _
  once := List.nodup_nil
  retried _ h := absurd h List.not_mem_nil

/-- A step of another party. -/
theorem HandlerInv.frame (h : HandlerInv ⟨c, ws⟩) (hw : w.request = none)
    (hnew : new.filterMap ApiWait.request = []) (hc : c'.completed = c.completed)
    (hr : c'.retried = c.retried) (hn : c'.requests = c.requests) :
    HandlerInv ⟨c', ws.erase w ++ new⟩ where
  handlers := by
    rw [filterMap_step_of_none hw hnew, hc, hn]
    exact h.handlers
  once := hr ▸ h.once
  retried request hm := by
    obtain ⟨hlt, hretry⟩ := h.retried request (hr ▸ hm)
    refine ⟨hn ▸ hlt, fun v hv => ?_⟩
    rcases List.mem_append.mp hv with hv | hv
    · exact hretry v (List.mem_of_mem_erase hv)
    · have hreq := List.mem_filterMap.mpr
        ⟨_, hv, (rfl : ApiWait.request (.handler request v) = some request)⟩
      rw [hnew] at hreq
      cases hreq

/-- The one `onError` of a request goes on. -/
theorem HandlerInv.onWay (h : HandlerInv ⟨c, ws⟩) {w : HandlerWait} (w' : HandlerWait)
    (hw : .handler request w ∈ ws) (hnew : new.filterMap ApiWait.request = [request])
    (hmem : ∀ request' v, .handler request' v ∈ new → v = w')
    (hc : c'.completed = c.completed) (hn : c'.requests = c.requests)
    (hr : (c'.retried = c.retried ∧ ∀ t, w ≠ .retry t) ∨
      c'.retried = request :: c.retried ∧ (∀ t, w ≠ .retry t) ∧ ∃ t, w' = .retry t) :
    HandlerInv ⟨c', ws.erase (.handler request w) ++ new⟩ := by
  have hfree (hw' : ∀ t, w ≠ .retry t) : request ∉ c.retried := fun hm => by
    obtain ⟨t, ht⟩ := (h.retried request hm).2 w hw
    exact hw' t ht
  have hlt : request < c.requests := by
    refine List.mem_range.mp (h.handlers.mem_iff.mp (List.mem_append_left _ ?_))
    exact List.mem_filterMap.mpr ⟨_, hw, rfl⟩
  constructor
  · rw [List.filterMap_append, hnew, hc, hn]
    refine (List.Perm.append_right _ ?_).trans h.handlers
    exact (List.perm_append_singleton request _).trans
      (filterMap_perm_of_mem ApiWait.request hw rfl).symm
  · rcases hr with ⟨hr, -⟩ | ⟨hr, hw', -⟩
    · rw [hr]
      exact h.once
    · rw [hr]
      exact List.nodup_cons.mpr ⟨hfree hw', h.once⟩
  · intro request' hm
    rw [hn]
    have hold : request' ∈ c.retried ∨ request' = request ∧ ∃ t, w' = .retry t := by
      rcases hr with ⟨hr, -⟩ | ⟨hr, -, hretry⟩
      · exact .inl (hr ▸ hm)
      · rcases List.mem_cons.mp (hr ▸ hm) with rfl | hm
        · exact .inr ⟨rfl, hretry⟩
        · exact .inl hm
    refine ⟨?_, fun v hv => ?_⟩
    · rcases hold with hold | ⟨rfl, -⟩
      · exact (h.retried request' hold).1
      · exact hlt
    · rcases List.mem_append.mp hv with hv | hv
      · rcases hold with hold | ⟨rfl, -⟩
        · exact (h.retried request' hold).2 v (List.mem_of_mem_erase hv)
        · have hnodup := (List.nodup_append.mp (h.handlers.nodup_iff.mpr List.nodup_range)).1
          exact absurd rfl (ne_of_nodup hnodup hw rfl hv rfl)
      · obtain rfl := hmem request' v hv
        have hreq := List.mem_filterMap.mpr
          ⟨_, hv, (rfl : ApiWait.request (.handler request' v) = some request')⟩
        rw [hnew] at hreq
        obtain rfl := List.mem_singleton.mp hreq
        rcases hr with ⟨hr, hw'⟩ | ⟨-, -, hretry⟩
        · exact absurd (hr ▸ hm) (hfree hw')
        · exact hretry

/-- The one `onError` of a request completes its handler. -/
theorem HandlerInv.completed (h : HandlerInv ⟨c, ws⟩) {w : HandlerWait}
    (hw : .handler request w ∈ ws) (hc : c'.completed = request :: c.completed)
    (hr : c'.retried = c.retried) (hn : c'.requests = c.requests) :
    HandlerInv ⟨c', ws.erase (.handler request w) ++ []⟩ := by
  rw [List.append_nil]
  constructor
  · rw [hc, hn]
    refine List.perm_middle.trans (.trans ?_ h.handlers)
    exact List.Perm.append_right _ (filterMap_perm_of_mem ApiWait.request hw rfl).symm
  · rw [hr]
    exact h.once
  · intro request' hm
    obtain ⟨hlt, hretry⟩ := h.retried request' (hr ▸ hm)
    exact ⟨hn ▸ hlt, fun v hv => hretry v (List.mem_of_mem_erase hv)⟩

theorem HandlerInv.handler (h : HandlerInv ⟨c, ws⟩) {w : HandlerWait}
    (hw : .handler request w ∈ ws) (hs : HandlerStep c request w c' new) :
    HandlerInv ⟨c', ws.erase (.handler request w) ++ new⟩ := by
  cases hs with
  | completed refreshToken _ => exact h.completed hw rfl rfl rfl
  | retried accessToken hne =>
    exact h.onWay (.retry accessToken) hw rfl (by simp) rfl rfl (.inr ⟨rfl, hne, accessToken, rfl⟩)
  | joined run hne _ => exact h.onWay (.refreshed run) hw rfl (by simp) rfl rfl (.inl ⟨rfl, hne⟩)
  | launched hne _ =>
    exact h.onWay (.refreshed ⟨c.refreshes, c.logouts, c.logins⟩) hw rfl (by simp) rfl rfl
      (.inl ⟨rfl, hne⟩)
  | rejected run hrun _ =>
    exact h.onWay (.clearAccess run) hw rfl (by simp) rfl rfl (.inl ⟨rfl, by simp [hrun]⟩)
  | cleared run hrun =>
    exact h.onWay (.clearRefresh run) hw rfl (by simp) rfl rfl (.inl ⟨rfl, by simp [hrun]⟩)

theorem HandlerInv.answer (h : HandlerInv ⟨c, ws⟩) (hw : w ∈ ws)
    (hr : c.resume w a = some (c', new)) : HandlerInv ⟨c', ws.erase w ++ new⟩ := by
  cases w with
  | handler request w => exact h.handler hw (handlerStep_of_resume hr)
  | refresh run w =>
    cases refreshStep_of_resume hr with
    | finished result _ _ _ => exact h.frame rfl rfl rfl rfl rfl
    | read refreshToken _ _ => exact h.frame rfl rfl rfl rfl rfl
    | sent refreshToken _ => exact h.frame rfl rfl rfl rfl rfl
    | rotated refreshToken _ _ => exact h.frame rfl rfl rfl rfl rfl
    | savedAccess tokens _ => exact h.frame rfl rfl rfl rfl rfl
    | savedRefresh tokens _ => exact h.frame rfl rfl rfl rfl rfl
    | ended _ => exact h.frame rfl rfl rfl rfl rfl
  | logout w =>
    cases logoutStep_of_resume hr with
    | moved w' => exact h.frame rfl rfl rfl rfl rfl
    | stopped => exact h.frame rfl rfl rfl rfl rfl
    | clearedAccess => exact h.frame rfl rfl rfl rfl rfl
    | clearedRefresh _ => exact h.frame rfl rfl rfl rfl rfl
  | login w =>
    cases loginStep_of_resume hr with
    | issued _ => exact h.frame rfl rfl rfl rfl rfl
    | stopped => exact h.frame rfl rfl rfl rfl rfl
    | savedAccess tokens _ => exact h.frame rfl rfl rfl rfl rfl
    | savedRefresh tokens _ => exact h.frame rfl rfl rfl rfl rfl

theorem HandlerInv.onError (h : HandlerInv ⟨c, ws⟩) (error : RequestError) :
    HandlerInv ⟨(c.onError error).1, ws ++ (c.onError error).2⟩ := by
  have hfresh : ∀ request ∈ c.retried, request ≠ c.requests := fun request hm heq =>
    absurd (h.retried request hm).1 (heq ▸ Nat.lt_irrefl c.requests)
  have hlt : ∀ request ∈ c.retried, request < c.requests + 1 := fun request hm =>
    Nat.lt_succ_of_lt (h.retried request hm).1
  have hrange : (c.requests :: (ws.filterMap ApiWait.request ++ c.completed)).Perm
      (List.range (c.requests + 1)) := by
    rw [List.range_succ]
    exact (h.handlers.cons _).trans (List.perm_append_singleton _ _).symm
  unfold ApiClient.onError
  split
  · refine ⟨?_, h.once, fun request hm => ⟨hlt request hm, fun w hw => ?_⟩⟩
    · rw [List.filterMap_append]
      refine (List.Perm.append_right _ (List.perm_append_singleton c.requests _)).trans hrange
    · rcases List.mem_append.mp hw with hw | hw
      · exact (h.retried request hm).2 w hw
      · obtain ⟨rfl, -⟩ := by simpa using hw
        exact absurd rfl (hfresh _ hm)
  · rw [ApiClient.complete, List.append_nil]
    refine ⟨List.perm_middle.trans hrange, h.once,
      fun request hm => ⟨hlt request hm, (h.retried request hm).2⟩⟩

theorem HandlerInv.call (h : HandlerInv ⟨c, ws⟩) (k : ApiCall) :
    HandlerInv ⟨(c.call k).1, ws ++ (c.call k).2⟩ := by
  have hother {w : ApiWait} (hw : w.request = none) : HandlerInv ⟨c, ws ++ [w]⟩ := by
    have hnone : (ws ++ [w]).filterMap ApiWait.request = ws.filterMap ApiWait.request := by
      rw [List.filterMap_append, List.filterMap_cons_none hw]
      exact List.append_nil _
    refine ⟨by rw [hnone]; exact h.handlers, h.once, fun request hm => ?_⟩
    refine ⟨(h.retried request hm).1, fun v hv => ?_⟩
    rcases List.mem_append.mp hv with hv | hv
    · exact (h.retried request hm).2 v hv
    · rw [← List.mem_singleton.mp hv] at hw
      cases hw
  cases k with
  | onError error => exact h.onError error
  | logout => exact hother rfl
  | verifyOtp => exact hother rfl

end Handlers

section Tokens

variable {c c' : ApiClient} {ws new : List ApiWait} {w : ApiWait} {a : ApiAnswer}
  {run : RefreshRun} {pending pending' : List Token} {t : Token}

/-- A token about to be stored is new, and what is stored has been written. -/
structure Fresh (c : ApiClient) (pending : List Token) : Prop where
  nodup : pending.Nodup
  unwritten : ∀ t ∈ pending, t ∉ c.written ∧ t < c.nextToken
  written : ∀ t ∈ c.written, t < c.nextToken
  stored : ∀ t, c.refreshToken = some t → t ∈ c.written
  rotated : ∀ t ∈ c.rotated, t ∈ c.written

theorem Fresh.frame (h : Fresh c pending) (hsub : pending'.Subperm pending)
    (ht : c'.refreshToken = c.refreshToken ∨ c'.refreshToken = none)
    (hw : c'.written = c.written) (hr : c'.rotated = c.rotated)
    (hn : c'.nextToken = c.nextToken) : Fresh c' pending' where
  nodup := by
    obtain ⟨l, hperm, hsub⟩ := hsub
    exact hperm.nodup_iff.mp (h.nodup.sublist hsub)
  unwritten t hm := by
    rw [hw, hn]
    exact h.unwritten t (hsub.subset hm)
  written := by
    rw [hw, hn]
    exact h.written
  stored t hm := by
    rw [hw]
    rcases ht with ht | ht
    · exact h.stored t (ht ▸ hm)
    · rw [ht] at hm
      cases hm
  rotated := by
    rw [hw, hr]
    exact h.rotated

/-- The server issues two tokens. -/
theorem Fresh.issue (h : Fresh c pending) (hperm : pending'.Perm ((c.nextToken + 1) :: pending))
    (ht : c'.refreshToken = c.refreshToken) (hw : c'.written = c.written)
    (hr : ∀ t ∈ c'.rotated, t ∈ c.written) (hn : c'.nextToken = c.nextToken + 2) :
    Fresh c' pending' where
  nodup := by
    refine hperm.nodup_iff.mpr (List.nodup_cons.mpr ⟨fun hm => ?_, h.nodup⟩)
    exact Nat.not_succ_lt_self (h.unwritten _ hm).2
  unwritten t hm := by
    rw [hw, hn]
    rcases List.mem_cons.mp (hperm.mem_iff.mp hm) with rfl | hm
    · exact ⟨fun hwritten => Nat.not_succ_lt_self (h.written _ hwritten), Nat.lt_succ_self _⟩
    · obtain ⟨hnot, hlt⟩ := h.unwritten t hm
      exact ⟨hnot, Nat.lt_add_right 2 hlt⟩
  written t hm := by
    rw [hn]
    exact Nat.lt_add_right 2 (h.written t (hw ▸ hm))
  stored t hm := by
    rw [hw]
    exact h.stored t (ht ▸ hm)
  rotated t hm := by
    rw [hw]
    exact hr t hm

/-- A token about to be stored is stored. -/
theorem Fresh.write (h : Fresh c pending) (hperm : pending.Perm (t :: pending'))
    (ht : c'.refreshToken = some t) (hw : c'.written = t :: c.written)
    (hr : c'.rotated = c.rotated) (hn : c'.nextToken = c.nextToken) : Fresh c' pending' where
  nodup := (List.nodup_cons.mp (hperm.nodup_iff.mp h.nodup)).2
  unwritten t' hm := by
    have hne : t' ≠ t := fun heq =>
      (List.nodup_cons.mp (hperm.nodup_iff.mp h.nodup)).1 (heq ▸ hm)
    obtain ⟨hnot, hlt⟩ := h.unwritten t' (hperm.mem_iff.mpr (List.mem_cons_of_mem _ hm))
    rw [hw, hn]
    exact ⟨by simp [hne, hnot], hlt⟩
  written t' hm := by
    rw [hn]
    rcases List.mem_cons.mp (hw ▸ hm) with rfl | hm
    · exact (h.unwritten _ (hperm.mem_iff.mpr (List.mem_cons_self))).2
    · exact h.written t' hm
  stored t' hm := by
    rw [hw]
    rw [ht] at hm
    exact Option.some.inj hm ▸ List.mem_cons_self
  rotated t' hm := by
    rw [hw]
    exact List.mem_cons_of_mem _ (h.rotated t' (hr ▸ hm))

/-- The token that a refresh has read and not yet had answered. -/
def ApiWait.sending : ApiWait → Option Token
  | refresh _ (.clientHeaders refreshToken) => some refreshToken
  | refresh _ (.post refreshToken) => some refreshToken
  | _ => none

/-- A rotated token is replaced in the storage before another refresh reads it. -/
structure TokenInv (k : Config ApiClient ApiWait) : Prop where
  fresh : Fresh k.state (k.waits.filterMap ApiWait.pending)
  sending : ∀ t ∈ k.waits.filterMap ApiWait.sending, t ∈ k.state.written ∧ t ∉ k.state.rotated
  replaced : ∀ t, k.state.refreshToken = some t → t ∈ k.state.rotated →
    k.waits.filterMap ApiWait.saving ≠ []

theorem Fresh.step (h : Fresh c (ws.filterMap ApiWait.pending)) (hw : w.pending = none)
    (hnew : new.filterMap ApiWait.pending = [])
    (ht : c'.refreshToken = c.refreshToken ∨ c'.refreshToken = none)
    (hwr : c'.written = c.written) (hr : c'.rotated = c.rotated)
    (hn : c'.nextToken = c.nextToken) :
    Fresh c' ((ws.erase w ++ new).filterMap ApiWait.pending) := by
  rw [filterMap_step_of_none hw hnew]
  exact h.frame (List.Subperm.refl _) ht hwr hr hn

/-- The access token has been stored, and the refresh token is next. -/
theorem Fresh.saved_step {w' : ApiWait} (h : Fresh c (ws.filterMap ApiWait.pending))
    (hw : w ∈ ws) (hpending : w.pending = some t) (hpending' : w'.pending = some t)
    (ht : c'.refreshToken = c.refreshToken) (hwr : c'.written = c.written)
    (hr : c'.rotated = c.rotated) (hn : c'.nextToken = c.nextToken) :
    Fresh c' ((ws.erase w ++ [w']).filterMap ApiWait.pending) :=
  h.frame (filterMap_step_perm hw hpending hpending' rfl).subperm (.inl ht) hwr hr hn

/-- A token about to be stored has been stored. -/
theorem Fresh.stored_step (h : Fresh c (ws.filterMap ApiWait.pending)) (hw : w ∈ ws)
    (hpending : w.pending = some t) (hnew : new.filterMap ApiWait.pending = [])
    (ht : c'.refreshToken = some t) (hwr : c'.written = t :: c.written)
    (hr : c'.rotated = c.rotated) (hn : c'.nextToken = c.nextToken) :
    Fresh c' ((ws.erase w ++ new).filterMap ApiWait.pending) := by
  rw [List.filterMap_append, hnew, List.append_nil]
  exact h.write (filterMap_perm_of_mem ApiWait.pending hw hpending) ht hwr hr hn

theorem TokenInv.start (access refresh : Bool) : TokenInv (apiStart access refresh) where
  fresh := by cases refresh <;> constructor <;> simp [apiStart]
  sending _ h := absurd h List.not_mem_nil
  replaced _ _ h := absurd h List.not_mem_nil

/-- A step of another party. -/
theorem TokenInv.frame (h : TokenInv ⟨c, ws⟩) (hw : w.run = none)
    (hfresh : Fresh c' ((ws.erase w ++ new).filterMap ApiWait.pending))
    (hs : new.filterMap ApiWait.sending = []) (hwr : ∀ t ∈ c.written, t ∈ c'.written)
    (hr : c'.rotated = c.rotated)
    (ht : ∀ t, c'.refreshToken = some t → c.refreshToken = some t ∨ t ∉ c.rotated) :
    TokenInv ⟨c', ws.erase w ++ new⟩ where
  fresh := hfresh
  sending t hm := by
    rw [List.filterMap_append, hs, List.append_nil] at hm
    obtain ⟨hwritten, hnot⟩ := h.sending t ((List.erase_sublist.filterMap _).subset hm)
    exact ⟨hwr t hwritten, hr ▸ hnot⟩
  replaced t hm hrot := by
    rw [hr] at hrot
    have hnone : w.saving = none := by
      cases w with
      | refresh run w => cases hw
      | handler _ _ => rfl
      | logout _ => rfl
      | login _ => rfl
    rcases ht t hm with hm | hnot
    · intro hnil
      refine h.replaced t hm hrot ?_
      rw [List.filterMap_append, filterMap_erase_of_none _ hnone] at hnil
      exact (List.append_eq_nil_iff.mp hnil).1
    · exact absurd hrot hnot

/-- With one refresh at a time, nothing else sends or saves. -/
theorem FlightInv.alone (h : FlightInv ⟨c, ws⟩) {w : RefreshWait} (hw : .refresh run w ∈ ws) :
    (ws.erase (.refresh run w)).filterMap ApiWait.sending = [] ∧
      (ws.erase (.refresh run w)).filterMap ApiWait.saving = [] := by
  have hnone : ∀ v ∈ ws.erase (.refresh run w), v.run = none :=
    List.filterMap_eq_nil_iff.mp (h.of_mem hw).2
  constructor <;> refine List.filterMap_eq_nil_iff.mpr fun v hv => ?_
  · cases v with
    | refresh run' v => cases hnone _ hv
    | handler _ _ => rfl
    | logout _ => rfl
    | login _ => rfl
  · cases v with
    | refresh run' v => cases hnone _ hv
    | handler _ _ => rfl
    | logout _ => rfl
    | login _ => rfl

/-- A step of the refresh that stores no refresh token. -/
theorem TokenInv.onWay (hflight : FlightInv ⟨c, ws⟩) {w : RefreshWait}
    (hw : .refresh run w ∈ ws)
    (hfresh : Fresh c' ((ws.erase (.refresh run w) ++ new).filterMap ApiWait.pending))
    (hs : ∀ t ∈ new.filterMap ApiWait.sending, t ∈ c'.written ∧ t ∉ c'.rotated)
    (hv : ∀ t, c'.refreshToken = some t → t ∈ c'.rotated → new.filterMap ApiWait.saving ≠ []) :
    TokenInv ⟨c', ws.erase (.refresh run w) ++ new⟩ where
  fresh := hfresh
  sending t hm := by
    rw [List.filterMap_append, (hflight.alone hw).1, List.nil_append] at hm
    exact hs t hm
  replaced t ht hm := by
    rw [List.filterMap_append, (hflight.alone hw).2, List.nil_append]
    exact hv t ht hm

/-- The stored token is not rotated while no refresh is saving its successor. -/
theorem TokenInv.not_rotated (h : TokenInv ⟨c, ws⟩) (hflight : FlightInv ⟨c, ws⟩)
    {w : RefreshWait} (hw : .refresh run w ∈ ws) (hnone : ApiWait.saving (.refresh run w) = none)
    (ht : c.refreshToken = some t) : t ∉ c.rotated := fun hm => by
  have hnil := (hflight.alone hw).2
  rw [filterMap_erase_of_none _ hnone] at hnil
  exact h.replaced t ht hm hnil

theorem TokenInv.refresh (h : TokenInv ⟨c, ws⟩) (hflight : FlightInv ⟨c, ws⟩) {w : RefreshWait}
    (hw : .refresh run w ∈ ws) (hstores : storesTokens (.answer (.refresh run w) a) ⟨c, ws⟩ = true)
    (hs : RefreshStep c run w a c' new) : TokenInv ⟨c', ws.erase (.refresh run w) ++ new⟩ := by
  cases hs with
  | finished result hover hsaving _ =>
    have hsaving : ∀ tokens, w ≠ .saveAccess tokens ∧ w ≠ .saveRefresh tokens := by
      rcases hsaving with hsaving | rfl
      · exact hsaving
      · refine fun tokens => ⟨?_, ?_⟩
        · rintro rfl
          cases hstores
        · rintro rfl
          cases hstores
    have hnone : ApiWait.pending (.refresh run w) = none ∧
        ApiWait.saving (.refresh run w) = none := by
      cases w with
      | saveAccess tokens => exact absurd rfl (hsaving tokens).1
      | saveRefresh tokens => exact absurd rfl (hsaving tokens).2
      | readRefresh => exact ⟨rfl, rfl⟩
      | clientHeaders _ => exact ⟨rfl, rfl⟩
      | post _ => exact ⟨rfl, rfl⟩
      | whenComplete => exact ⟨rfl, rfl⟩
    exact .onWay hflight hw (h.fresh.step hnone.1 rfl (.inl rfl) rfl rfl rfl)
      (by simp [ApiWait.sending])
      fun t ht hm => absurd hm (h.not_rotated hflight hw hnone.2 ht)
  | read refreshToken ht hread =>
    subst hread
    have hnot := h.not_rotated hflight hw rfl ht
    exact .onWay hflight hw (h.fresh.step rfl rfl (.inl rfl) rfl rfl rfl)
      (by simpa [ApiWait.sending] using ⟨h.fresh.stored _ ht, hnot⟩)
      fun t ht hm => absurd hm (h.not_rotated hflight hw rfl ht)
  | sent refreshToken hsent =>
    subst hsent
    have hold := h.sending refreshToken (List.mem_filterMap.mpr ⟨_, hw, rfl⟩)
    exact .onWay hflight hw (h.fresh.step rfl rfl (.inl rfl) rfl rfl rfl)
      (by simpa [ApiWait.sending] using hold)
      fun t ht hm => absurd hm (h.not_rotated hflight hw rfl ht)
  | rotated refreshToken hpost _ =>
    subst hpost
    have hold := h.sending refreshToken (List.mem_filterMap.mpr ⟨_, hw, rfl⟩)
    refine .onWay hflight hw ?_ (by simp [ApiWait.sending]) fun _ _ _ => by simp [ApiWait.saving]
    refine h.fresh.issue ?_ rfl rfl ?_ rfl
    · rw [List.filterMap_append, filterMap_erase_of_none ApiWait.pending rfl]
      exact List.perm_append_singleton _ _
    · exact fun t ht => (List.mem_cons.mp ht).elim (fun heq => heq ▸ hold.1) (h.fresh.rotated t)
  | savedAccess tokens hsave =>
    subst hsave
    refine .onWay hflight hw ?_ (by simp [ApiWait.sending]) fun _ _ _ => by simp [ApiWait.saving]
    exact h.fresh.saved_step hw rfl rfl rfl rfl rfl rfl
  | savedRefresh tokens hsave =>
    subst hsave
    have hnew := h.fresh.unwritten tokens.refreshToken (List.mem_filterMap.mpr ⟨_, hw, rfl⟩)
    refine .onWay hflight hw (h.fresh.stored_step hw rfl rfl rfl rfl rfl rfl)
      (by simp [ApiWait.sending]) fun t ht hm => ?_
    cases ht
    exact absurd (h.fresh.rotated _ hm) hnew.1
  | ended hover =>
    subst hover
    exact .onWay hflight hw (h.fresh.step rfl rfl (.inl rfl) rfl rfl rfl) (by simp)
      fun t ht hm => absurd hm (h.not_rotated hflight hw rfl ht)

theorem TokenInv.login (h : TokenInv ⟨c, ws⟩) {w : LoginWait} (hw : .login w ∈ ws)
    (hs : LoginStep c w c' new) : TokenInv ⟨c', ws.erase (.login w) ++ new⟩ := by
  cases hs with
  | issued hpost =>
    subst hpost
    refine h.frame rfl ?_ rfl (fun _ ht => ht) rfl fun _ ht => .inl ht
    refine h.fresh.issue ?_ rfl rfl h.fresh.rotated rfl
    rw [List.filterMap_append, filterMap_erase_of_none ApiWait.pending rfl]
    exact List.perm_append_singleton _ _
  | stopped =>
    refine h.frame rfl ?_ rfl (fun _ ht => ht) rfl fun _ ht => .inl ht
    rw [List.append_nil]
    exact h.fresh.frame (List.erase_sublist.filterMap _).subperm (.inl rfl) rfl rfl rfl
  | savedAccess tokens hsave =>
    subst hsave
    refine h.frame rfl ?_ rfl (fun _ ht => ht) rfl fun _ ht => .inl ht
    exact h.fresh.saved_step hw rfl rfl rfl rfl rfl rfl
  | savedRefresh tokens hsave =>
    subst hsave
    have hnew := h.fresh.unwritten tokens.refreshToken (List.mem_filterMap.mpr ⟨_, hw, rfl⟩)
    refine h.frame rfl (h.fresh.stored_step hw rfl rfl rfl rfl rfl rfl) rfl
      (fun _ ht => List.mem_cons_of_mem _ ht) rfl fun t ht => .inr ?_
    cases ht
    exact fun hm => hnew.1 (h.fresh.rotated _ hm)

theorem TokenInv.handler (h : TokenInv ⟨c, ws⟩) {request : Nat} {w : HandlerWait}
    (hs : HandlerStep c request w c' new) :
    TokenInv ⟨c', ws.erase (.handler request w) ++ new⟩ := by
  cases hs with
  | completed refreshToken ht =>
    have ht : refreshToken = c.refreshToken ∨ refreshToken = none :=
      ht.imp_right fun hcleared => hcleared.1
    refine h.frame rfl (h.fresh.step rfl rfl ht rfl rfl rfl) rfl (fun _ ht => ht) rfl fun t hm => ?_
    rcases ht with rfl | rfl
    · exact .inl hm
    · cases hm
  | retried accessToken _ =>
    exact h.frame rfl (h.fresh.step rfl rfl (.inl rfl) rfl rfl rfl) rfl (fun _ ht => ht) rfl
      fun _ ht => .inl ht
  | joined run _ _ =>
    exact h.frame rfl (h.fresh.step rfl rfl (.inl rfl) rfl rfl rfl) rfl (fun _ ht => ht) rfl
      fun _ ht => .inl ht
  | launched _ _ =>
    exact h.frame rfl (h.fresh.step rfl rfl (.inl rfl) rfl rfl rfl) rfl (fun _ ht => ht) rfl
      fun _ ht => .inl ht
  | rejected run _ _ =>
    exact h.frame rfl (h.fresh.step rfl rfl (.inl rfl) rfl rfl rfl) rfl (fun _ ht => ht) rfl
      fun _ ht => .inl ht
  | cleared run _ =>
    exact h.frame rfl (h.fresh.step rfl rfl (.inl rfl) rfl rfl rfl) rfl (fun _ ht => ht) rfl
      fun _ ht => .inl ht

theorem TokenInv.logout (h : TokenInv ⟨c, ws⟩) {w : LogoutWait} (hs : LogoutStep c w c' new) :
    TokenInv ⟨c', ws.erase (.logout w) ++ new⟩ := by
  cases hs with
  | moved w' =>
    exact h.frame rfl (h.fresh.step rfl rfl (.inl rfl) rfl rfl rfl) rfl (fun _ ht => ht) rfl
      fun _ ht => .inl ht
  | stopped =>
    exact h.frame rfl (h.fresh.step rfl rfl (.inl rfl) rfl rfl rfl) rfl (fun _ ht => ht) rfl
      fun _ ht => .inl ht
  | clearedAccess =>
    exact h.frame rfl (h.fresh.step rfl rfl (.inl rfl) rfl rfl rfl) rfl (fun _ ht => ht) rfl
      fun _ ht => .inl ht
  | clearedRefresh _ =>
    refine h.frame rfl (h.fresh.step rfl rfl (.inr rfl) rfl rfl rfl) rfl (fun _ ht => ht) rfl ?_
    exact fun _ ht => by cases ht

theorem TokenInv.answer (h : TokenInv ⟨c, ws⟩) (hflight : FlightInv ⟨c, ws⟩) (hw : w ∈ ws)
    (hstores : storesTokens (.answer w a) ⟨c, ws⟩ = true)
    (hr : c.resume w a = some (c', new)) : TokenInv ⟨c', ws.erase w ++ new⟩ := by
  cases w with
  | handler request w => exact h.handler (handlerStep_of_resume hr)
  | refresh run w => exact h.refresh hflight hw hstores (refreshStep_of_resume hr)
  | logout w => exact h.logout (logoutStep_of_resume hr)
  | login w => exact h.login hw (loginStep_of_resume hr)

theorem TokenInv.call (h : TokenInv ⟨c, ws⟩) (k : ApiCall) :
    TokenInv ⟨(c.call k).1, ws ++ (c.call k).2⟩ := by
  have hcall {c' : ApiClient} {new : List ApiWait} (hnew : new.filterMap ApiWait.pending = [])
      (hs : new.filterMap ApiWait.sending = [])
      (ht : c'.refreshToken = c.refreshToken) (hwr : c'.written = c.written)
      (hr : c'.rotated = c.rotated) (hn : c'.nextToken = c.nextToken) :
      TokenInv ⟨c', ws ++ new⟩ := by
    constructor
    · rw [List.filterMap_append, hnew, List.append_nil]
      exact h.fresh.frame (List.Subperm.refl _) (.inl ht) hwr hr hn
    · intro t hm
      rw [List.filterMap_append, hs, List.append_nil] at hm
      rw [hwr, hr]
      exact h.sending t hm
    · intro t hm hrot hnil
      rw [List.filterMap_append] at hnil
      exact h.replaced t (ht ▸ hm) (hr ▸ hrot) (List.append_eq_nil_iff.mp hnil).1
  cases k with
  | onError error =>
    simp only [ApiClient.call, ApiClient.onError]
    split
    · exact hcall rfl rfl rfl rfl rfl rfl
    · exact hcall rfl rfl rfl rfl rfl rfl
  | logout => exact hcall rfl rfl rfl rfl rfl rfl
  | verifyOtp => exact hcall rfl rfl rfl rfl rfl rfl

end Tokens

section Runs

variable {k : Config ApiClient ApiWait} {es : List ApiEvent} {access refresh : Bool}

/-- The refresh on its way is one, and so is its call of the server. -/
theorem FlightInv.presented_le (h : FlightInv k) :
    (k.waits.filterMap ApiWait.presented).length ≤ 1 := by
  have hle : ∀ ws : List ApiWait,
      (ws.filterMap ApiWait.presented).length ≤ (ws.filterMap ApiWait.run).length := by
    intro ws
    induction ws with
    | nil => exact Nat.le_refl 0
    | cons w ws ih =>
      rw [List.filterMap_cons, List.filterMap_cons]
      cases w with
      | handler _ _ => exact ih
      | logout _ => exact ih
      | login _ => exact ih
      | refresh run w =>
        cases w with
        | post token => exact Nat.succ_le_succ ih
        | readRefresh => exact Nat.le_succ_of_le ih
        | clientHeaders _ => exact Nat.le_succ_of_le ih
        | saveAccess _ => exact Nat.le_succ_of_le ih
        | saveRefresh _ => exact Nat.le_succ_of_le ih
        | whenComplete => exact Nat.le_succ_of_le ih
  refine (hle k.waits).trans ?_
  rw [h.flight]
  cases k.state.refreshFuture with
  | none => exact Nat.zero_le 1
  | some run => exact Nat.le_refl 1

theorem TokenInv.current (h : TokenInv k) :
    ∀ token ∈ k.waits.filterMap ApiWait.presented, token ∉ k.state.rotated := by
  intro token hm
  obtain ⟨w, hw, hpresented⟩ := List.mem_filterMap.mp hm
  refine (h.sending token (List.mem_filterMap.mpr ⟨w, hw, ?_⟩)).2
  cases w with
  | refresh run w =>
    cases w with
    | post t => exact hpresented
    | _ => cases hpresented
  | _ => cases hpresented

theorem refreshed_once
    (h : apiLoop.Runs (fun e k => storesTokens e k = true) (apiStart access refresh) es k) :
    RefreshedOnce k := by
  have hinv : FlightInv k ∧ HandlerInv k ∧ TokenInv k := by
    refine h.invariant (I := fun _ k => FlightInv k ∧ HandlerInv k ∧ TokenInv k) ?_ ?_ ?_
    · exact ⟨.start access refresh, .start access refresh, .start access refresh⟩
    · rintro es call c ws ⟨hflight, hhandler, htoken⟩ -
      exact ⟨hflight.call call, hhandler.call call, htoken.call call⟩
    · rintro es w a c c' ws new ⟨hflight, hhandler, htoken⟩ hstores hw hr
      exact ⟨hflight.answer hw hr, hhandler.answer hw hr, htoken.answer hflight hw hstores hr⟩
  obtain ⟨hflight, hhandler, htoken⟩ := hinv
  refine ⟨hflight.presented_le, htoken.current, hhandler.once, hhandler.handlers, ?_⟩
  intro request run hm
  by_cases hf : k.state.refreshFuture = some run
  · refine .inr ?_
    rw [hflight.flight, hf]
    exact List.mem_singleton_self run
  · exact .inl ⟨(hflight.awaited request run hm).resolve_right hf, hf⟩

end Runs

namespace RefreshScenario

/-- A request that failed with the access token of the start. -/
def unauthorized : RequestError :=
  { path := "/items", statusCode := some 401, authorization := some (.bearer 0) }

def first : RefreshRun := ⟨0, 0, 0⟩

def rotation : Tokens := ⟨2, 3⟩

/-- Two requests share a refresh, and a third one that failed before finds the new token. -/
def shared : List ApiEvent :=
  [.call (.onError unauthorized), .answer (.handler 0 (.readAccess (some (.bearer 0)))) .done,
    .answer (.refresh first .readRefresh) .done, .call (.onError unauthorized),
    .answer (.refresh first (.clientHeaders 1)) .done,
    .answer (.handler 1 (.readAccess (some (.bearer 0)))) .done,
    .answer (.refresh first (.post 1)) .done, .answer (.refresh first (.saveAccess rotation)) .done,
    .answer (.refresh first (.saveRefresh rotation)) .done, .call (.onError unauthorized),
    .answer (.refresh first .whenComplete) .done, .answer (.handler 1 (.refreshed first)) .done,
    .answer (.handler 0 (.refreshed first)) .done,
    .answer (.handler 2 (.readAccess (some (.bearer 0)))) .done,
    .answer (.handler 2 (.retry 2)) (.status 200), .answer (.handler 1 (.retry 2)) .failed,
    .answer (.handler 0 (.retry 2)) (.status 200)]

theorem refreshed_once_shared :
    ∃ k, apiLoop.play storesTokens shared (apiStart true true) = some k ∧
      k.state.requests = 3 ∧ k.waits = [] ∧ RefreshedOnce k := by
  have h : ∃ k, apiLoop.play storesTokens shared (apiStart true true) = some k ∧
      k.state.requests = 3 ∧ k.waits = [] := ⟨_, rfl, rfl, rfl⟩
  obtain ⟨k, hk, hn, hw⟩ := h
  exact ⟨k, hk, hn, hw, refreshed_once (Loop.runs_of_play hk)⟩

end RefreshScenario

end Mobile

end Sosedi
