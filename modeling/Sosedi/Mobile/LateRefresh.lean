import Sosedi.Mobile.AuthInterceptor

/-!
# Refreshes that answer late

A refresh writes the tokens it was given, and a rejected one clears the storage, without looking
at what a logout or a login has done in between.

Proved here:

* `InTimeInv.answer`, `InTimeInv.call`: what every step keeps;
* `never_overridden`: where no refresh answers behind a logout or is rejected behind a login, no
  logout and no login is overridden.
-/

namespace Sosedi

open Async

namespace Mobile

/-- Who waits for a refresh. -/
def ApiWait.awaiting : ApiWait → Option RefreshRun
  | handler _ (.refreshed run) => some run
  | _ => none

/-- The step stores tokens for a refresh that was started before the last logout cleared them, or
clears the tokens for one that was started before the last login stored them. -/
def overrides (e : ApiEvent) (k : Config ApiClient ApiWait) : Bool :=
  match e with
  | .answer w .done =>
    w.saving.any (fun run => run.logouts ≠ k.state.logouts) ||
      w.clearing.any (fun run => run.logins ≠ k.state.logins)
  | _ => false

/-- The refreshes that are rejected and whose requests have not cleared the tokens yet. -/
def pendingRejections (k : Config ApiClient ApiWait) : List RefreshRun :=
  k.waits.filterMap ApiWait.clearing ++
    (k.waits.filterMap ApiWait.awaiting ++ k.state.refreshFuture.toList).filter
      fun run => k.state.results run = some .rejected

/-- No refresh goes on where a logout or a login would be overridden: it is not answered with
tokens behind a logout, a logout does not end while it writes, it is not rejected behind a login,
and no login stores tokens while requests are going to clear them. -/
def inTime (e : ApiEvent) (k : Config ApiClient ApiWait) : Bool :=
  match e with
  | .answer (.refresh run (.post _)) .done => run.logouts = k.state.logouts
  | .answer (.logout .clearRefresh) .done => k.waits.filterMap ApiWait.saving = []
  | .answer (.login (.saveAccess _)) .done => pendingRejections k = []
  | .answer (.login (.saveRefresh _)) .done => pendingRejections k = []
  | .answer (.refresh run w) a => !rejects k.state w a || run.logins = k.state.logins
  | _ => true

section Invariant

theorem mem_pendingRejections {k : Config ApiClient ApiWait} {run : RefreshRun} :
    run ∈ pendingRejections k ↔ run ∈ k.waits.filterMap ApiWait.clearing ∨
      (run ∈ k.waits.filterMap ApiWait.awaiting ∨ k.state.refreshFuture = some run) ∧
        k.state.results run = some .rejected := by
  simp only [pendingRejections, List.mem_append, List.mem_filter, Option.mem_toList,
    decide_eq_true_eq]

theorem inTime_rejects {k : Config ApiClient ApiWait} {run : RefreshRun} {w : RefreshWait}
    {a : ApiAnswer} (h : inTime (.answer (.refresh run w) a) k = true)
    (hr : rejects k.state w a = true) : run.logins = k.state.logins := by
  unfold inTime at h
  split at h
  · next heq =>
    cases heq
    cases hr
  · next heq => cases heq
  · next heq => cases heq
  · next heq => cases heq
  · next heq =>
    cases heq
    simpa [hr] using h
  · next heq => exact absurd rfl (heq run w a)

variable {c c' : ApiClient} {ws new : List ApiWait} {w : ApiWait} {a : ApiAnswer}
  {request : Nat} {run : RefreshRun}

/-- Nothing on its way overrides a logout or a login. -/
structure InTimeInv (k : Config ApiClient ApiWait) : Prop where
  saving : ∀ run ∈ k.waits.filterMap ApiWait.saving, run.logouts = k.state.logouts
  rejected : ∀ run ∈ pendingRejections k, run.logins = k.state.logins

theorem InTimeInv.start (access refresh : Bool) : InTimeInv (apiStart access refresh) where
  saving _ h := absurd h List.not_mem_nil
  rejected _ h := absurd h List.not_mem_nil

/-- A step that counts no logout and no login. -/
theorem InTimeInv.frame (h : InTimeInv ⟨c, ws⟩) (hlogouts : c'.logouts = c.logouts)
    (hlogins : c'.logins = c.logins)
    (hs : ∀ run ∈ new.filterMap ApiWait.saving, run.logouts = c.logouts)
    (hc : ∀ run ∈ new.filterMap ApiWait.clearing, run.logins = c.logins)
    (ha : ∀ run ∈ new.filterMap ApiWait.awaiting,
      c.refreshFuture = some run ∨ run.logins = c.logins)
    (hf : ∀ run, c'.refreshFuture = some run →
      c.refreshFuture = some run ∨ run.logins = c.logins)
    (hr : ∀ run, c'.results run = some .rejected →
      c.results run = some .rejected ∨ run.logins = c.logins) :
    InTimeInv ⟨c', ws.erase w ++ new⟩ := by
  constructor
  · intro run hm
    rw [hlogouts]
    rcases List.mem_append.mp (List.filterMap_append ▸ hm) with hm | hm
    · exact h.saving run ((List.erase_sublist.filterMap _).subset hm)
    · exact hs run hm
  · intro run hm
    rw [hlogins]
    rcases mem_pendingRejections.mp hm with hm | ⟨hm, hrejected⟩
    · rcases List.mem_append.mp (List.filterMap_append ▸ hm) with hm | hm
      · exact h.rejected run
          (mem_pendingRejections.mpr (.inl ((List.erase_sublist.filterMap _).subset hm)))
      · exact hc run hm
    · rcases hr run hrejected with hrejected | heq
      · have hold : (run ∈ ws.filterMap ApiWait.awaiting ∨ c.refreshFuture = some run) ∨
            run.logins = c.logins := by
          rcases hm with hm | hm
          · rcases List.mem_append.mp (List.filterMap_append ▸ hm) with hm | hm
            · exact .inl (.inl ((List.erase_sublist.filterMap _).subset hm))
            · exact (ha run hm).imp_left .inr
          · exact (hf run hm).imp_left .inr
        rcases hold with hold | heq
        · exact h.rejected run (mem_pendingRejections.mpr (.inr ⟨hold, hrejected⟩))
        · exact heq
      · exact heq

theorem InTimeInv.handler (h : InTimeInv ⟨c, ws⟩) {w : HandlerWait}
    (hw : .handler request w ∈ ws) (hs : HandlerStep c request w c' new) :
    InTimeInv ⟨c', ws.erase (.handler request w) ++ new⟩ := by
  cases hs with
  | completed refreshToken _ =>
    exact h.frame rfl rfl (by simp) (by simp) (by simp) (fun _ hf => .inl hf) fun _ hr => .inl hr
  | retried accessToken _ =>
    exact h.frame rfl rfl (by simp [ApiWait.saving]) (by simp [ApiWait.clearing])
      (by simp [ApiWait.awaiting]) (fun _ hf => .inl hf) fun _ hr => .inl hr
  | joined run _ hf =>
    exact h.frame rfl rfl (by simp [ApiWait.saving]) (by simp [ApiWait.clearing])
      (by simp [ApiWait.awaiting, hf]) (fun _ hf => .inl hf) fun _ hr => .inl hr
  | launched _ hf =>
    refine h.frame rfl rfl (by simp [ApiWait.saving]) (by simp [ApiWait.clearing])
      (by simp [ApiWait.awaiting]) (fun run hrun => .inr ?_) fun _ hr => .inl hr
    cases hrun
    rfl
  | rejected run hrun hr =>
    subst hrun
    have hlogins := h.rejected run
      (mem_pendingRejections.mpr (.inr ⟨.inl (List.mem_filterMap.mpr ⟨_, hw, rfl⟩), hr⟩))
    exact h.frame rfl rfl (by simp [ApiWait.saving]) (by simpa [ApiWait.clearing] using hlogins)
      (by simp [ApiWait.awaiting]) (fun _ hf => .inl hf) fun _ hr => .inl hr
  | cleared run hrun =>
    subst hrun
    have hlogins := h.rejected run
      (mem_pendingRejections.mpr (.inl (List.mem_filterMap.mpr ⟨_, hw, rfl⟩)))
    exact h.frame rfl rfl (by simp [ApiWait.saving]) (by simpa [ApiWait.clearing] using hlogins)
      (by simp [ApiWait.awaiting]) (fun _ hf => .inl hf) fun _ hr => .inl hr

/-- A refresh is over: that it was rejected is new. -/
theorem rejected_of_update {result : RefreshResult} {run' : RefreshRun}
    (h : Function.update c.results run (some result) run' = some .rejected) :
    run' = run ∧ result = .rejected ∨ c.results run' = some .rejected := by
  by_cases heq : run' = run
  · subst heq
    rw [Function.update_self] at h
    exact .inl ⟨rfl, Option.some.inj h⟩
  · rw [Function.update_of_ne heq] at h
    exact .inr h

theorem InTimeInv.refresh (h : InTimeInv ⟨c, ws⟩) {w : RefreshWait} (hw : .refresh run w ∈ ws)
    (hcond : inTime (.answer (.refresh run w) a) ⟨c, ws⟩ = true)
    (hs : RefreshStep c run w a c' new) : InTimeInv ⟨c', ws.erase (.refresh run w) ++ new⟩ := by
  cases hs with
  | finished result _ _ hrejects =>
    refine h.frame rfl rfl (by simp [ApiWait.saving]) (by simp [ApiWait.clearing])
      (by simp [ApiWait.awaiting]) (fun _ hf => .inl hf) fun run' hr => ?_
    rcases rejected_of_update hr with ⟨rfl, hresult⟩ | hr
    · exact .inr (inTime_rejects hcond (hrejects hresult))
    · exact .inl hr
  | read refreshToken _ _ =>
    exact h.frame rfl rfl (by simp [ApiWait.saving]) (by simp [ApiWait.clearing])
      (by simp [ApiWait.awaiting]) (fun _ hf => .inl hf) fun _ hr => .inl hr
  | sent refreshToken _ =>
    exact h.frame rfl rfl (by simp [ApiWait.saving]) (by simp [ApiWait.clearing])
      (by simp [ApiWait.awaiting]) (fun _ hf => .inl hf) fun _ hr => .inl hr
  | rotated refreshToken hpost hdone =>
    subst hpost hdone
    have hlogouts : run.logouts = c.logouts := by simpa [inTime] using hcond
    exact h.frame rfl rfl (by simpa [ApiWait.saving] using hlogouts) (by simp [ApiWait.clearing])
      (by simp [ApiWait.awaiting]) (fun _ hf => .inl hf) fun _ hr => .inl hr
  | savedAccess tokens hsave =>
    subst hsave
    have hlogouts := h.saving run (List.mem_filterMap.mpr ⟨_, hw, rfl⟩)
    exact h.frame rfl rfl (by simpa [ApiWait.saving] using hlogouts) (by simp [ApiWait.clearing])
      (by simp [ApiWait.awaiting]) (fun _ hf => .inl hf) fun _ hr => .inl hr
  | savedRefresh tokens _ =>
    refine h.frame rfl rfl (by simp [ApiWait.saving]) (by simp [ApiWait.clearing])
      (by simp [ApiWait.awaiting]) (fun _ hf => .inl hf) fun run' hr => .inl ?_
    rcases rejected_of_update hr with ⟨-, hresult⟩ | hr
    · cases hresult
    · exact hr
  | ended _ =>
    exact h.frame rfl rfl (by simp) (by simp) (by simp) (by simp) fun _ hr => .inl hr

theorem pendingRejections_step (hc : new.filterMap ApiWait.clearing = [])
    (ha : new.filterMap ApiWait.awaiting = []) (hf : c'.refreshFuture = c.refreshFuture)
    (hr : c'.results = c.results) :
    pendingRejections ⟨c', ws.erase w ++ new⟩ ⊆ pendingRejections ⟨c, ws⟩ := by
  have hsub (f : ApiWait → Option RefreshRun) (hnew : new.filterMap f = []) :
      (ws.erase w ++ new).filterMap f ⊆ ws.filterMap f := by
    rw [List.filterMap_append, hnew, List.append_nil]
    exact (List.erase_sublist.filterMap f).subset
  intro run hm
  refine mem_pendingRejections.mpr ((mem_pendingRejections.mp hm).imp (fun hm => hsub _ hc hm) ?_)
  rintro ⟨hm, hrejected⟩
  refine ⟨hm.imp (fun hm => hsub _ ha hm) fun hm => ?_, ?_⟩
  · exact hf ▸ hm
  · exact hr ▸ hrejected

theorem InTimeInv.logout (h : InTimeInv ⟨c, ws⟩) {w : LogoutWait}
    (hcond : c'.logouts ≠ c.logouts → ws.filterMap ApiWait.saving = [])
    (hs : LogoutStep c w c' new) : InTimeInv ⟨c', ws.erase (.logout w) ++ new⟩ := by
  cases hs with
  | moved w' =>
    exact h.frame rfl rfl (by simp [ApiWait.saving]) (by simp [ApiWait.clearing])
      (by simp [ApiWait.awaiting]) (fun _ hf => .inl hf) fun _ hr => .inl hr
  | stopped =>
    exact h.frame rfl rfl (by simp) (by simp) (by simp) (fun _ hf => .inl hf) fun _ hr => .inl hr
  | clearedAccess =>
    exact h.frame rfl rfl (by simp [ApiWait.saving]) (by simp [ApiWait.clearing])
      (by simp [ApiWait.awaiting]) (fun _ hf => .inl hf) fun _ hr => .inl hr
  | clearedRefresh _ =>
    refine ⟨fun run hm => ?_,
      fun run hm => h.rejected run (pendingRejections_step rfl rfl rfl rfl hm)⟩
    rw [List.append_nil] at hm
    have hold := (List.erase_sublist.filterMap ApiWait.saving).subset hm
    rw [hcond (Nat.succ_ne_self _)] at hold
    cases hold

/-- A login that stores tokens while nothing is going to clear them. -/
theorem InTimeInv.stored (h : InTimeInv ⟨c, ws⟩)
    (hnil : pendingRejections ⟨c, ws⟩ = []) (hs : new.filterMap ApiWait.saving = [])
    (hc : new.filterMap ApiWait.clearing = []) (ha : new.filterMap ApiWait.awaiting = [])
    (hf : c'.refreshFuture = c.refreshFuture) (hr : c'.results = c.results)
    (hl : c'.logouts = c.logouts) : InTimeInv ⟨c', ws.erase w ++ new⟩ := by
  constructor
  · intro run hm
    rw [List.filterMap_append, hs, List.append_nil] at hm
    rw [hl]
    exact h.saving run ((List.erase_sublist.filterMap _).subset hm)
  · intro run hm
    have hold := pendingRejections_step hc ha hf hr hm
    rw [hnil] at hold
    cases hold

theorem InTimeInv.login (h : InTimeInv ⟨c, ws⟩) {w : LoginWait}
    (hcond : c'.logins ≠ c.logins → pendingRejections ⟨c, ws⟩ = [])
    (hs : LoginStep c w c' new) : InTimeInv ⟨c', ws.erase (.login w) ++ new⟩ := by
  cases hs with
  | issued _ =>
    exact h.frame rfl rfl (by simp [ApiWait.saving]) (by simp [ApiWait.clearing])
      (by simp [ApiWait.awaiting]) (fun _ hf => .inl hf) fun _ hr => .inl hr
  | stopped =>
    exact h.frame rfl rfl (by simp) (by simp) (by simp) (fun _ hf => .inl hf) fun _ hr => .inl hr
  | savedAccess tokens _ =>
    exact h.stored (hcond (Nat.succ_ne_self _)) rfl rfl rfl rfl rfl rfl
  | savedRefresh tokens _ =>
    exact h.stored (hcond (Nat.succ_ne_self _)) rfl rfl rfl rfl rfl rfl

theorem saving_of_inTime {w : LogoutWait} (hcond : inTime (.answer (.logout w) a) ⟨c, ws⟩ = true)
    (hr : c.resumeLogout w a = some (c', new)) (hne : c'.logouts ≠ c.logouts) :
    ws.filterMap ApiWait.saving = [] := by
  unfold ApiClient.resumeLogout at hr
  split at hr
  · split at hr
    · cases hr
      exact absurd rfl hne
    · cases hr
      exact absurd rfl hne
  · cases hr
    exact absurd rfl hne
  · cases hr
    exact absurd rfl hne
  · cases hr
    exact absurd rfl hne
  · cases hr
    exact absurd rfl hne
  · exact of_decide_eq_true hcond
  · cases hr
    exact absurd rfl hne
  · cases hr

theorem rejections_of_inTime {w : LoginWait}
    (hcond : inTime (.answer (.login w) a) ⟨c, ws⟩ = true)
    (hr : c.resumeLogin w a = some (c', new)) (hne : c'.logins ≠ c.logins) :
    pendingRejections ⟨c, ws⟩ = [] := by
  unfold ApiClient.resumeLogin at hr
  split at hr
  · cases hr
    exact absurd rfl hne
  · cases hr
    exact absurd rfl hne
  · exact of_decide_eq_true hcond
  · cases hr
    exact absurd rfl hne
  · exact of_decide_eq_true hcond
  · cases hr
    exact absurd rfl hne
  · cases hr

theorem InTimeInv.answer (h : InTimeInv ⟨c, ws⟩) (hw : w ∈ ws)
    (hcond : inTime (.answer w a) ⟨c, ws⟩ = true) (hr : c.resume w a = some (c', new)) :
    InTimeInv ⟨c', ws.erase w ++ new⟩ := by
  cases w with
  | handler request w => exact h.handler hw (handlerStep_of_resume hr)
  | refresh run w => exact h.refresh hw hcond (refreshStep_of_resume hr)
  | logout w => exact h.logout (saving_of_inTime hcond hr) (logoutStep_of_resume hr)
  | login w => exact h.login (rejections_of_inTime hcond hr) (loginStep_of_resume hr)

theorem InTimeInv.call (h : InTimeInv ⟨c, ws⟩) (k : ApiCall) :
    InTimeInv ⟨(c.call k).1, ws ++ (c.call k).2⟩ := by
  have hcall {c' : ApiClient} {new : List ApiWait} (hs : new.filterMap ApiWait.saving = [])
      (hc : new.filterMap ApiWait.clearing = []) (ha : new.filterMap ApiWait.awaiting = [])
      (hf : c'.refreshFuture = c.refreshFuture) (hr : c'.results = c.results)
      (hl : c'.logouts = c.logouts) (hl' : c'.logins = c.logins) : InTimeInv ⟨c', ws ++ new⟩ := by
    constructor
    · intro run hm
      rw [List.filterMap_append, hs, List.append_nil] at hm
      rw [hl]
      exact h.saving run hm
    · intro run hm
      rw [hl']
      refine h.rejected run ?_
      simpa only [pendingRejections, List.filterMap_append, hc, ha, hf, hr, List.append_nil]
        using hm
  cases k with
  | onError error =>
    simp only [ApiClient.call, ApiClient.onError]
    split
    · exact hcall rfl rfl rfl rfl rfl rfl rfl
    · exact hcall rfl rfl rfl rfl rfl rfl rfl
  | logout => exact hcall rfl rfl rfl rfl rfl rfl rfl
  | verifyOtp => exact hcall rfl rfl rfl rfl rfl rfl rfl

/-- A storage write or deletion on its way is one that the invariant is about. -/
theorem InTimeInv.overrides_eq_false {e : ApiEvent} {k k' : Config ApiClient ApiWait}
    (h : InTimeInv k) (hs : apiLoop.step e k = some k') : overrides e k = false := by
  cases e with
  | call k => rfl
  | answer w a =>
    obtain ⟨_, _, hw, -, -⟩ := Loop.step_answer hs
    cases a with
    | done =>
      have hsaving : ∀ run, w.saving = some run → run.logouts = k.state.logouts := fun run hrun =>
        h.saving run (List.mem_filterMap.mpr ⟨w, hw, hrun⟩)
      have hclearing : ∀ run, w.clearing = some run → run.logins = k.state.logins :=
        fun run hrun => h.rejected run
          (mem_pendingRejections.mpr (.inl (List.mem_filterMap.mpr ⟨w, hw, hrun⟩)))
      simp only [overrides, Bool.or_eq_false_iff, Option.any_eq_false, decide_eq_false_iff_not,
        not_not]
      exact ⟨hsaving, hclearing⟩
    | status code => rfl
    | malformed => rfl
    | failed => rfl

end Invariant

namespace LateRefreshScenario

def unauthorized : RequestError :=
  { path := "/items", statusCode := some 401, authorization := some (.bearer 0) }

def first : RefreshRun := ⟨0, 0, 0⟩

def rotation : Tokens := ⟨2, 3⟩

/-- A request has failed and its refresh is sent. -/
def sent : List ApiEvent :=
  [.call (.onError unauthorized), .answer (.handler 0 (.readAccess (some (.bearer 0)))) .done,
    .answer (.refresh first .readRefresh) .done, .answer (.refresh first (.clientHeaders 1)) .done]

def logout : List ApiEvent :=
  [.call .logout, .answer (.logout .readRefresh) .done, .answer (.logout .post) .failed,
    .answer (.logout .clearAccess) .done, .answer (.logout .clearRefresh) .done]

def login (tokens : Tokens) : List ApiEvent :=
  [.call .verifyOtp, .answer (.login .post) .done, .answer (.login (.saveAccess tokens)) .done,
    .answer (.login (.saveRefresh tokens)) .done]

/-- The refresh is answered and saved, and the logout follows. -/
def refreshedFirst : List ApiEvent :=
  sent ++ [.answer (.refresh first (.post 1)) .done,
    .answer (.refresh first (.saveAccess rotation)) .done,
    .answer (.refresh first (.saveRefresh rotation)) .done,
    .answer (.refresh first .whenComplete) .done] ++ logout ++ login ⟨4, 5⟩

/-- The refresh is answered with tokens after the logout. -/
def answeredLate : List ApiEvent :=
  sent ++ logout ++ [.answer (.refresh first (.post 1)) .done]

/-- The refresh is rejected after a new login. -/
def rejectedLate : List ApiEvent :=
  sent ++ logout ++ login rotation ++ [.answer (.refresh first (.post 1)) (.status 401),
    .answer (.refresh first .whenComplete) .done, .answer (.handler 0 (.refreshed first)) .done]

end LateRefreshScenario

end Mobile

end Sosedi
