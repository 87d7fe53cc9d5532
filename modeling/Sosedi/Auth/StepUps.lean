import Sosedi.Auth.AuthScripts

/-!
# Second factors work once

A time step is used by an update that asks for a greater one than the last, a recovery code by
one that asks for an unused code; a step-up is recorded after its update.  The attempt counter
gives every call a number of its own before its code is checked.

Proved here:

* `mfa_once`: a time step and a recovery code authorise at most one step-up, the used time steps
  increase, and at most `maxMfaAttempts` of the checks were admitted by one life of the attempt
  counter.
-/

namespace Sosedi

open Transactions

section Runs

variable {env : AuthEnv} {ok : AuthEvent → AuthStore → Prop} {s₀ s : State AuthSys}
  {K : List AuthKey} {a b : AuthStore} {ev : AuthEvent} {now : Time} {u : Id}

/-! ## Time steps and recovery codes -/

/-- The time steps were used in order, the first one by the setup and the others by step-ups. -/
structure MfaCredential.InOrder (credential : MfaCredential) : Prop where
  steps : (credential.uses.map (·.1)).Pairwise (· < ·)
  last : ∃ uses user, credential.uses = uses ++ [(credential.lastTotpStep, user)]
  setup : ∃ timeStep uses, credential.uses = (timeStep, none) :: uses ∧
    ∀ use ∈ uses, use.2.isSome

namespace MfaCredential.InOrder

variable {credential : MfaCredential} {timeStep : Int}

theorem start (h : credential.uses = [(credential.lastTotpStep, none)]) : credential.InOrder where
  steps := by simp [h]
  last := ⟨[], none, h⟩
  setup := ⟨_, [], h, by simp⟩

/-- No time step after the last one was used. -/
theorem lt (h : credential.InOrder) (hlt : credential.lastTotpStep < timeStep) :
    ∀ step ∈ credential.uses.map (·.1), step < timeStep := by
  obtain ⟨uses, user, huses⟩ := h.last
  have hsteps := h.steps
  rw [huses, List.map_append, List.pairwise_append] at hsteps
  intro step hstep
  rw [huses, List.map_append, List.mem_append] at hstep
  rcases hstep with hstep | hstep
  · exact Int.lt_trans (hsteps.2.2 step hstep _ (by simp)) hlt
  · have heq : step = credential.lastTotpStep := by simpa using hstep
    exact heq ▸ hlt

theorem useTimeStep (h : credential.InOrder) (hlt : credential.lastTotpStep < timeStep)
    (ticket : Id) : (AdminMfaService.useTimeStep timeStep ticket credential).InOrder where
  steps := by
    rw [AdminMfaService.useTimeStep, List.map_append, List.pairwise_append]
    refine ⟨h.steps, List.pairwise_singleton .., fun step hstep step' hstep' => ?_⟩
    obtain rfl := List.mem_singleton.mp hstep'
    exact h.lt hlt step hstep
  last := ⟨credential.uses, some ticket, rfl⟩
  setup := by
    obtain ⟨first, uses, huses, hsome⟩ := h.setup
    refine ⟨first, uses ++ [(timeStep, some ticket)], ?_, ?_⟩
    · rw [AdminMfaService.useTimeStep, huses]
      rfl
    · intro use hmem
      rcases List.mem_append.mp hmem with hmem | hmem
      · exact hsome use hmem
      · rw [List.mem_singleton.mp hmem]
        rfl

/-- A time step has one user. -/
theorem user_eq (h : credential.InOrder) {user user' : Option Id}
    (hu : (timeStep, user) ∈ credential.uses) (hu' : (timeStep, user') ∈ credential.uses) :
    user = user' := by
  have hnodup : (credential.uses.map (·.1)).Nodup := h.steps.imp fun hlt => Int.ne_of_lt hlt
  have heq := List.inj_on_of_nodup_map hnodup hu hu' rfl
  exact congrArg Prod.snd heq

end MfaCredential.InOrder

/-- What stands behind a step-up. -/
def StepUp.Authorised (stepUp : StepUp) (σ : AuthStore) : Prop :=
  match stepUp.code with
  | .totp timeStep => UsedStep stepUp.userId timeStep stepUp.ticket σ
  | .recovery codeHash => UsedCode stepUp.userId codeHash stepUp.ticket σ

theorem StepUp.Authorised.step {stepUp : StepUp} (hg : AuthGuar noFloor ev K a b)
    (h : stepUp.Authorised a) : stepUp.Authorised b := by
  obtain ⟨userId, code, ticket⟩ := stepUp
  cases code with
  | totp timeStep => exact UsedStep.step hg h
  | recovery codeHash => exact UsedCode.step hg h

/-- Two step-ups with one code are the same. -/
theorem StepUp.Authorised.eq {stepUp stepUp' : StepUp} {σ : AuthStore}
    (hin : ∀ u credential, σ.1.credentials.get u = some credential → credential.InOrder)
    (h : stepUp.Authorised σ) (h' : stepUp'.Authorised σ)
    (huser : stepUp.userId = stepUp'.userId) (hcode : stepUp.code = stepUp'.code) :
    stepUp = stepUp' := by
  obtain ⟨userId, code, ticket⟩ := stepUp
  obtain ⟨userId', code', ticket'⟩ := stepUp'
  obtain rfl : userId = userId' := huser
  obtain rfl : code = code' := hcode
  cases code with
  | totp timeStep =>
    obtain ⟨credential, hget, huse⟩ := h
    obtain ⟨credential', hget', huse'⟩ := h'
    obtain rfl := Option.some.inj (hget.symm.trans hget')
    have hticket : ticket = ticket' := Option.some.inj ((hin _ _ hget).user_eq huse huse')
    rw [hticket]
  | recovery codeHash =>
    obtain ⟨row, hget, -, -, hby⟩ := h
    obtain ⟨row', hget', -, -, hby'⟩ := h'
    obtain rfl := Option.some.inj (hget.symm.trans hget')
    have hticket : ticket = ticket' := Option.some.inj (hby.symm.trans hby')
    rw [hticket]

theorem AuthGuar.mfa_cases (h : AuthGuar noFloor ev K a b) : b.2.mfa = a.2.mfa ∨
    ∃ mev, ev = .mfa mev ∧ b.2.mfa = mev.apply a.2.base.now a.2.mfa ∧ mev.Guard K a := by
  have hm := h.mfa
  have hg := h.guard
  cases ev with
  | mfa mev => exact Or.inr ⟨mev, rfl, hm, hg⟩
  | _ => exact Or.inl hm

theorem inOrder_step (hg : AuthGuar noFloor ev K a b)
    (h : ∀ u credential, a.1.credentials.get u = some credential → credential.InOrder) :
    ∀ u credential, b.1.credentials.get u = some credential → credential.InOrder := by
  intro u credential hget
  rcases hg.get_credentials u with he | ⟨-, ⟨_, _, -, -, hb, huses⟩ |
    ⟨before, timeStep, ticket, -, ha, hlt, hb⟩⟩
  · exact h u credential (he.symm.trans hget)
  · obtain rfl := Option.some.inj (hb.symm.trans hget)
    exact .start huses
  · obtain rfl := Option.some.inj (hb.symm.trans hget)
    exact (h u before ha).useTimeStep hlt ticket

theorem MfaEvent.of_mem_stepUps {mev : MfaEvent} {s : MfaStore} {stepUp : StepUp}
    (h : stepUp ∈ (mev.apply now s).stepUps) :
    stepUp ∈ s.stepUps ∨ mev = .recordStepUp stepUp := by
  cases mev with
  | recordStepUp stepUp' =>
    rcases List.mem_cons.mp h with rfl | h
    · exact Or.inr rfl
    · exact Or.inl h
  | _ => exact Or.inl h

theorem authorised_step (hg : AuthGuar noFloor ev K a b)
    (h : ∀ stepUp ∈ a.2.mfa.stepUps, stepUp.Authorised a) :
    ∀ stepUp ∈ b.2.mfa.stepUps, stepUp.Authorised b := by
  intro stepUp hmem
  rcases hg.mfa_cases with he | ⟨mev, rfl, he, hguard⟩
  · exact (h stepUp (he ▸ hmem)).step hg
  rcases mev.of_mem_stepUps (he ▸ hmem) with hmem | rfl
  · exact (h stepUp hmem).step hg
  · refine StepUp.Authorised.step hg ?_
    obtain ⟨userId, code, ticket⟩ := stepUp
    cases code <;> exact hguard

/-! ## The attempt counter -/

/-- The counter of a user is not behind the numbers that its life gave away, and a number of a
life was given to one call. -/
structure Counted (s : MfaStore) : Prop where
  lives : ∀ x ∈ s.admitted, x.1 < s.nextLife
  current : ∀ u life, s.current.get u = some life → life < s.nextLife
  own : ∀ u u' life, s.current.get u = some life → s.current.get u' = some life → u = u'
  counter : ∀ u e, s.attempt.get u = some e → ∃ life, s.current.get u = some life ∧
    ∀ x ∈ s.admitted, x.1 = life → x.2.1 ≤ e.value
  positive : ∀ x ∈ s.admitted, 1 ≤ x.2.1
  admitted : (s.admitted.map fun x => (x.1, x.2.1)).Nodup
  checked : ∀ c ∈ s.checks, (c.life, c.number, c.ticket) ∈ s.admitted ∧
    c.number ≤ maxMfaAttempts
  checks : (s.checks.map fun c => (c.life, c.number)).Nodup

namespace Counted

variable {s : MfaStore} {ticket : Id}

variable (now u) in
/-- The number that INCR gives is a new one of its life, and the life is of the user. -/
theorem next (h : Counted s) :
    (∀ x ∈ s.admitted, x.1 = s.lifeOf now u → x.2.1 < s.attempt.next now u) ∧
      ∀ u', s.current.get u' = some (s.lifeOf now u) → u' = u := by
  cases hread : s.attempt.read now u with
  | none =>
    have hlife : s.lifeOf now u = s.nextLife := by simp [MfaStore.lifeOf, hread]
    rw [hlife]
    refine ⟨fun x hx heq => absurd heq (Nat.ne_of_lt (h.lives x hx)), fun u' hcur => ?_⟩
    exact absurd (h.current u' _ hcur) (Nat.lt_irrefl _)
  | some n =>
    obtain ⟨e, he, -, rfl⟩ := Table.read_eq_some.mp hread
    obtain ⟨life, hcur, hle⟩ := h.counter u e he
    have hlife : s.lifeOf now u = life := by simp [MfaStore.lifeOf, hread, hcur]
    have hnext : s.attempt.next now u = e.value + 1 := by simp [Table.next, hread]
    rw [hlife, hnext]
    exact ⟨fun x hx heq => Nat.lt_succ_of_le (hle x hx heq), fun u' hcur' => h.own u' u _ hcur' hcur⟩

theorem countAttempt (h : Counted s) :
    Counted ((MfaEvent.countAttempt u ticket).apply now s) := by
  obtain ⟨hnew, hown⟩ := h.next now u
  have hget : ∀ u' e, ((MfaEvent.countAttempt u ticket).apply now s).attempt.get u' = some e →
      (u' = u ∧ e.value = s.attempt.next now u) ∨ (u' ≠ u ∧ s.attempt.get u' = some e) := by
    intro u' e he
    cases hread : s.attempt.read now u with
    | none =>
      simp only [MfaEvent.apply, hread, Table.get_put] at he
      split at he
      · cases he
        exact Or.inl ⟨‹_›, by simp [Table.next, hread]⟩
      · exact Or.inr ⟨‹_›, he⟩
    | some n =>
      simp only [MfaEvent.apply, hread, Table.get_modify] at he
      split at he
      · obtain ⟨e', -, rfl⟩ := Option.map_eq_some_iff.mp he
        exact Or.inl ⟨‹_›, by simp [Table.next, hread]⟩
      · exact Or.inr ⟨‹_›, he⟩
  have hcur : ∀ u', ((MfaEvent.countAttempt u ticket).apply now s).current.get u' =
      if u' = u then some (s.lifeOf now u) else s.current.get u' := fun u' => Table.get_put ..
  refine ⟨?_, ?_, ?_, ?_, ?_, ?_, ?_, h.checks⟩
  · intro x hx
    rcases List.mem_cons.mp hx with rfl | hx
    · exact Nat.lt_of_lt_of_le (Nat.lt_succ_self _) (Nat.le_max_right ..)
    · exact Nat.lt_of_lt_of_le (h.lives x hx) (Nat.le_max_left ..)
  · intro u' life hlife
    rw [hcur] at hlife
    split at hlife
    · cases hlife
      exact Nat.lt_of_lt_of_le (Nat.lt_succ_self _) (Nat.le_max_right ..)
    · exact Nat.lt_of_lt_of_le (h.current u' life hlife) (Nat.le_max_left ..)
  · intro u₁ u₂ life h₁ h₂
    rw [hcur] at h₁ h₂
    split at h₁ <;> split at h₂
    · simp_all
    · cases h₁
      exact absurd (hown u₂ h₂) ‹_›
    · cases h₂
      exact absurd (hown u₁ h₁) ‹_›
    · exact h.own u₁ u₂ life h₁ h₂
  · intro u' e he
    rw [hcur]
    rcases hget u' e he with ⟨rfl, hvalue⟩ | ⟨hne, he⟩
    · refine ⟨_, if_pos rfl, fun x hx hlife => ?_⟩
      rcases List.mem_cons.mp hx with rfl | hx
      · exact Nat.le_of_eq hvalue.symm
      · exact hvalue ▸ Nat.le_of_lt (hnew x hx hlife)
    · obtain ⟨life, hlife, hle⟩ := h.counter u' e he
      refine ⟨life, (if_neg hne).trans hlife, fun x hx heq => ?_⟩
      rcases List.mem_cons.mp hx with rfl | hx
      · obtain rfl : s.lifeOf now u = life := heq
        exact absurd (hown u' hlife) hne
      · exact hle x hx heq
  · intro x hx
    rcases List.mem_cons.mp hx with rfl | hx
    · exact Nat.succ_le_succ (Nat.zero_le _)
    · exact h.positive x hx
  · rw [MfaEvent.apply, List.map_cons, List.nodup_cons]
    refine ⟨fun hmem => ?_, h.admitted⟩
    obtain ⟨x, hx, heq⟩ := List.mem_map.mp hmem
    obtain ⟨hlife, hnumber⟩ := Prod.mk.inj heq
    exact Nat.ne_of_lt (hnew x hx hlife) hnumber
  · intro c hc
    exact ⟨List.mem_cons_of_mem _ (h.checked c hc).1, (h.checked c hc).2⟩

/-- Nothing but the counter matters when it keeps its value. -/
theorem of_attempt (h : Counted s) {attempt : Table Id (Entry Nat)}
    (ha : ∀ u e, attempt.get u = some e → ∃ e', s.attempt.get u = some e' ∧ e'.value = e.value) :
    Counted { s with attempt } := by
  refine ⟨h.lives, h.current, h.own, fun u e he => ?_, h.positive, h.admitted, h.checked, h.checks⟩
  obtain ⟨e', he', hvalue⟩ := ha u e he
  exact hvalue ▸ h.counter u e' he'

theorem check (h : Counted s) {life number : Nat} (hadm : (life, number, ticket) ∈ s.admitted)
    (hle : number ≤ maxMfaAttempts) (hfirst : ∀ c ∈ s.checks, c.ticket ≠ ticket) :
    Counted ((MfaEvent.check u life number ticket).apply now s) := by
  refine ⟨h.lives, h.current, h.own, h.counter, h.positive, h.admitted, ?_, ?_⟩
  · intro c hc
    rcases List.mem_cons.mp hc with rfl | hc
    · exact ⟨hadm, hle⟩
    · exact h.checked c hc
  · rw [MfaEvent.apply, List.map_cons, List.nodup_cons]
    refine ⟨fun hmem => ?_, h.checks⟩
    -- a number belongs to one call, and this call has checked nothing yet
    obtain ⟨c, hc, heq⟩ := List.mem_map.mp hmem
    have hticket := List.inj_on_of_nodup_map h.admitted (h.checked c hc).1 hadm heq
    exact hfirst c hc (congrArg (fun x => x.2.2) hticket)

theorem step (hg : AuthGuar noFloor ev K a b) (h : Counted a.2.mfa) : Counted b.2.mfa := by
  rcases hg.mfa_cases with he | ⟨mev, rfl, he, hguard⟩
  · exact he ▸ h
  rw [he]
  cases mev with
  | read => exact h
  | setSetup u secret => exact ⟨h.1, h.2, h.3, h.4, h.5, h.6, h.7, h.8⟩
  | deleteSetup u => exact ⟨h.1, h.2, h.3, h.4, h.5, h.6, h.7, h.8⟩
  | countAttempt u ticket => exact h.countAttempt
  | expireAttempts u =>
    refine h.of_attempt fun u' e he' => ?_
    cases hread : a.2.mfa.attempt.read a.2.base.now u with
    | none => exact ⟨e, by simpa [hread] using he', rfl⟩
    | some n =>
      simp only [hread, Table.set, Table.get_put] at he'
      split at he'
      · rename_i heq
        obtain ⟨e', hget, -, rfl⟩ := Table.read_eq_some.mp hread
        cases he'
        exact ⟨e', heq ▸ hget, rfl⟩
      · exact ⟨e, he', rfl⟩
  | check u life number ticket =>
    obtain ⟨-, -, hadm, hle, hfirst⟩ := hguard
    exact h.check hadm hle hfirst
  | clearAttempts u => exact h.of_attempt fun u' e he' => ⟨e, (Table.of_get_erase he').2, rfl⟩
  | recordStepUp stepUp => exact ⟨h.1, h.2, h.3, h.4, h.5, h.6, h.7, h.8⟩

/-- A life admits as many checks as there are numbers. -/
theorem countP_le (h : Counted s) (life : Nat) :
    s.checks.countP (·.life == life) ≤ maxMfaAttempts := by
  have hnodup : ((s.checks.filter (·.life == life)).map (·.number)).Nodup := by
    refine List.Nodup.map_on ?_ (h.checks.of_map _ |>.filter _)
    intro c hc c' hc' heq
    have hlife := (List.mem_filter.mp hc).2
    have hlife' := (List.mem_filter.mp hc').2
    rw [beq_iff_eq] at hlife hlife'
    exact List.inj_on_of_nodup_map h.checks (List.mem_filter.mp hc).1 (List.mem_filter.mp hc').1
      (Prod.ext (hlife.trans hlife'.symm) heq)
  have hsub : (s.checks.filter (·.life == life)).map (·.number) ⊆ List.range' 1 maxMfaAttempts := by
    intro n hn
    obtain ⟨c, hc, rfl⟩ := List.mem_map.mp hn
    obtain ⟨hadm, hle⟩ := h.checked c (List.mem_filter.mp hc).1
    have hpos := h.positive _ hadm
    exact List.mem_range'_1.mpr ⟨hpos, by omega⟩
  have hlen := (List.subperm_of_subset hnodup hsub).length_le
  rwa [List.length_map, List.length_range', ← List.countP_eq_length_filter] at hlen

end Counted

/-- A step leaves a credential alone or raises its last time step. -/
theorem AuthGuar.lastTotpStep (hg : AuthGuar noFloor ev K a b)
    {credential credential' : MfaCredential}
    (ha : a.1.credentials.get u = some credential)
    (hb : b.1.credentials.get u = some credential') :
    credential' = credential ∨ credential.lastTotpStep < credential'.lastTotpStep := by
  rcases hg.get_credentials u with he | ⟨-, ⟨_, _, -, hnone, -⟩ |
    ⟨before, timeStep, ticket, -, hbefore, hlt, hafter⟩⟩
  · rw [he, ha] at hb
    exact Or.inl (Option.some.inj hb).symm
  · rw [ha] at hnone
    cases hnone
  · obtain rfl := Option.some.inj (ha.symm.trans hbefore)
    obtain rfl := Option.some.inj (hafter.symm.trans hb)
    exact Or.inr hlt

/-- **Second factors work once**: the step-ups with one code are one step-up, which used the
code; the time steps of a credential are used in increasing order, the first by the setup and
each other one by a step-up, and its last time step only grows; and a life of the attempt
counter admits at most `maxMfaAttempts` checks. -/
theorem mfa_once (h : AuthRuns env anyAuthEvent s₀ s) :
    (∀ stepUp ∈ s.store.2.mfa.stepUps, stepUp.Authorised s.store ∧
      ∀ stepUp' ∈ s.store.2.mfa.stepUps, stepUp.userId = stepUp'.userId →
        stepUp.code = stepUp'.code → stepUp = stepUp') ∧
      (∀ u credential, s.store.1.credentials.get u = some credential → credential.InOrder ∧
        ∀ i s' credential', s.fire (.run i) = some s' →
          s'.store.1.credentials.get u = some credential' →
          credential' = credential ∨ credential.lastTotpStep < credential'.lastTotpStep) ∧
      ∀ life, s.store.2.mfa.checks.countP (·.life == life) ≤ maxMfaAttempts := by
  have hin : ∀ u credential, s.store.1.credentials.get u = some credential →
      credential.InOrder := by
    refine h.invariant (P := fun σ => ∀ u credential, σ.1.credentials.get u = some credential →
      credential.InOrder) ?_ fun _ _ _ _ _ _ hg => inOrder_step hg
    intro σ hi u credential hget
    simp [hi.credentials] at hget
  have hauth : ∀ stepUp ∈ s.store.2.mfa.stepUps, stepUp.Authorised s.store := by
    refine h.invariant (P := fun σ => ∀ stepUp ∈ σ.2.mfa.stepUps, stepUp.Authorised σ) ?_
      fun _ _ _ _ _ _ hg => authorised_step hg
    intro σ hi stepUp hmem
    simp [hi.mfa, MfaStore.initial] at hmem
  have hcounted : Counted s.store.2.mfa := by
    refine h.invariant (P := fun σ => Counted σ.2.mfa) ?_ fun _ _ _ _ _ _ hg => Counted.step hg
    intro σ hi
    constructor <;> simp [hi.mfa, MfaStore.initial]
  refine ⟨fun stepUp hmem => ⟨hauth stepUp hmem, fun stepUp' hmem' => StepUp.Authorised.eq hin
    (hauth stepUp hmem) (hauth stepUp' hmem')⟩, fun u credential hget => ⟨hin u credential hget,
      fun i s' credential' hf hget' => ?_⟩, hcounted.countP_le⟩
  rcases h.step (m := .run i) (fun _ _ => trivial) hf with he | ⟨ev, K, -, hg⟩
  · rw [he, hget] at hget'
    exact Or.inl (Option.some.inj hget').symm
  · exact hg.lastTotpStep hget hget'

end Runs

namespace AuthScenario

/-- The administrator sets up the time step 9, steps up with the time step 10, and with a
recovery code. -/
def secondFactors : List AuthLine :=
  [.call (.beginTotpSetup 3 "AAAAAAAA"), .run 0 4,
    .call (.confirmTotpSetup 3 "000009" ["RECOVERY"] 270), .run 1 9,
    .call (.adminStepUp 3 "002560" 300 200 201 "csrf"), .run 2 30,
    .call (.adminStepUp 3 "RECOVERY" 300 202 203 "csrf"), .run 3 30]

theorem mfa_once_secondFactors :
    (playAuth anyAuthEvent config state secondFactors).store.2.mfa.stepUps.map (·.ticket) =
        [202, 200] ∧
      (∀ stepUp ∈ (playAuth anyAuthEvent config state secondFactors).store.2.mfa.stepUps,
        stepUp.Authorised (playAuth anyAuthEvent config state secondFactors).store ∧
        ∀ stepUp' ∈ (playAuth anyAuthEvent config state secondFactors).store.2.mfa.stepUps,
          stepUp.userId = stepUp'.userId → stepUp.code = stepUp'.code → stepUp = stepUp') ∧
      (∀ u credential, (playAuth anyAuthEvent config state
        secondFactors).store.1.credentials.get u = some credential → credential.InOrder ∧
        ∀ i s' credential',
          (playAuth anyAuthEvent config state secondFactors).fire (.run i) = some s' →
          s'.store.1.credentials.get u = some credential' →
          credential' = credential ∨ credential.lastTotpStep < credential'.lastTotpStep) ∧
      ∀ life, (playAuth anyAuthEvent config state secondFactors).store.2.mfa.checks.countP
        (·.life == life) ≤ maxMfaAttempts :=
  ⟨by decide +kernel, mfa_once ((runs _).play secondFactors)⟩

/-- `n` step-ups with guessed codes. -/
def guessedStepUps (ticket n : Nat) : List AuthLine :=
  (List.range n).map fun i => .call (.adminStepUp 3 "guess" 300 (ticket + i) 300 "csrf")

/-- Five calls get their numbers and wait until the counter is gone; five others get the numbers
of the next life; then all ten check their codes. -/
def lateChecks : List AuthLine :=
  guessedStepUps 200 5 ++ (.run 0 5 :: (List.range 4).map fun i => .run (i + 1) 4) ++
    [.call (.tick 300000), .run 5 2] ++
    guessedStepUps 206 5 ++ (.run 6 5 :: (List.range 4).map fun i => .run (i + 7) 4) ++
    (List.range 11).map fun i => .run i 1

theorem mfa_checked_late :
    AuthRuns config anyAuthEvent state (playAuth anyAuthEvent config state lateChecks) ∧
      ¬∀ life, (playAuth anyAuthEvent config state lateChecks).store.2.mfa.checks.countP
        (·.during == some life) ≤ maxMfaAttempts := by
  refine ⟨(runs _).play _, fun h => ?_⟩
  have hchecks : (playAuth anyAuthEvent config state lateChecks).store.2.mfa.checks.countP
      (·.during == some 1) = 10 := by decide +kernel
  have hle := h 1
  rw [hchecks] at hle
  exact absurd hle (by decide)

end AuthScenario

end Sosedi
