import Sosedi.Auth.AuthScripts

/-!
# A code works once

Only the code that was issued last is stored for a phone, and a verification takes it by its
hash: the salts tell equal codes apart.

Proved here:

* `codes_once`: a code is verified at most once and only while it is the newest of its phone,
  and the clean-up of one request leaves the codes of the others alone.
-/

namespace Sosedi

open Transactions

section Runs

variable {env : AuthEnv} {ok : AuthEvent → AuthStore → Prop} {s₀ s s' : State AuthSys}
  {K : List AuthKey} {a b : AuthStore} {ev : AuthEvent} {now : Time} {phone : String}

/-! ## What a command changes -/

namespace OtpEvent

variable {ev : OtpEvent} {s : OtpStore}

theorem of_get_code {e : Entry OtpHash} (h : (ev.apply now s).code.get phone = some e) :
    s.code.get phone = some e ∨ ev = .setCode phone e.value := by
  cases ev with
  | setCode phone' hash =>
    simp only [apply, Table.set, Table.get_put] at h
    split at h
    · rename_i hphone
      cases h
      exact Or.inr (hphone ▸ rfl)
    · exact Or.inl h
  | withdraw phone' hash =>
    simp only [apply] at h
    split at h
    · exact Or.inl (Table.of_get_erase h).2
    · exact Or.inl h
  | compare phone' ticket matched => simp only [apply] at h; split at h <;> exact Or.inl h
  | countFailure phone' ticket => simp only [apply] at h; split at h <;> exact Or.inl h
  | dropCode phone' => exact Or.inl (Table.of_get_erase h).2
  | consume phone' hash ticket =>
    simp only [apply] at h
    split at h
    · exact Or.inl (Table.of_get_erase h).2
    · exact Or.inl h
  | _ => exact Or.inl h

theorem issued_apply : (ev.apply now s).issued = s.issued ∨
    ∃ phone hash, ev = .setCode phone hash ∧
      (ev.apply now s).issued = (phone, hash.salt) :: s.issued := by
  cases ev with
  | setCode phone hash => exact Or.inr ⟨phone, hash, rfl, rfl⟩
  | withdraw phone hash => simp only [apply]; split <;> exact Or.inl rfl
  | compare phone ticket matched => simp only [apply]; split <;> exact Or.inl rfl
  | countFailure phone ticket => simp only [apply]; split <;> exact Or.inl rfl
  | consume phone hash ticket => simp only [apply]; split <;> exact Or.inl rfl
  | _ => exact Or.inl rfl

variable (now ev s) in
/-- A verification succeeds when the code is still there, and takes it. -/
theorem verified_apply : (ev.apply now s).verified = s.verified ∨
    ∃ phone hash ticket, ev = .consume phone hash ticket ∧ s.code.read now phone = some hash ∧
      (ev.apply now s).verified = ⟨phone, hash.salt, ticket⟩ :: s.verified ∧
      (ev.apply now s).code = s.code.erase phone := by
  cases ev with
  | withdraw phone hash => simp only [apply]; split <;> exact Or.inl rfl
  | compare phone ticket matched => simp only [apply]; split <;> exact Or.inl rfl
  | countFailure phone ticket => simp only [apply]; split <;> exact Or.inl rfl
  | consume phone hash ticket =>
    by_cases hread : s.code.read now phone = some hash
    · refine Or.inr ⟨phone, hash, ticket, rfl, hread, ?_, ?_⟩ <;> rw [apply, if_pos hread]
    · exact Or.inl (by rw [apply, if_neg hread])
  | _ => exact Or.inl rfl

end OtpEvent

theorem AuthGuar.otp_cases (h : AuthGuar noFloor ev K a b) : b.2.otp = a.2.otp ∨
    ∃ oev, ev = .otp oev ∧ b.2.otp = oev.apply a.2.base.now a.2.otp ∧ oev.Guard K a := by
  have ho := h.otp
  have hg := h.guard
  cases ev with
  | otp oev => exact Or.inr ⟨oev, rfl, ho, hg⟩
  | _ => exact Or.inl ho

/-! ## The codes of a phone -/

/-- Only the newest code of a phone is stored, and what was verified is not. -/
structure CodesOnce (s : OtpStore) : Prop where
  salts : (s.issued.map (·.2)).Nodup
  newest : ∀ phone e, s.code.get phone = some e → s.newest phone = some e.value.salt
  unverified : ∀ phone e, s.code.get phone = some e → ∀ use ∈ s.verified,
    use.salt ≠ e.value.salt
  issued : ∀ use ∈ s.verified, (use.phone, use.salt) ∈ s.issued
  verified : (s.verified.map (·.salt)).Nodup

theorem OtpStore.mem_issued_of_newest {s : OtpStore} {salt : Id}
    (h : s.newest phone = some salt) : (phone, salt) ∈ s.issued := by
  obtain ⟨⟨phone', salt'⟩, hfind, rfl⟩ := Option.map_eq_some_iff.mp h
  have hphone : phone' = phone := by simpa using List.find?_some hfind
  exact hphone ▸ List.mem_of_find?_eq_some hfind

namespace CodesOnce

variable {s : OtpStore}

/-- A salt belongs to one phone. -/
theorem phone_eq (h : CodesOnce s) {phone phone' : String} {salt : Id}
    (hm : (phone, salt) ∈ s.issued) (hm' : (phone', salt) ∈ s.issued) : phone = phone' := by
  have heq := List.inj_on_of_nodup_map h.salts hm hm' rfl
  exact congrArg Prod.fst heq

/-- A code that is set now has a salt of its own. -/
theorem setCode (h : CodesOnce s) {hash : OtpHash}
    (hnew : ∀ phone', (phone', hash.salt) ∉ s.issued) :
    CodesOnce ((OtpEvent.setCode phone hash).apply now s) := by
  have hget : ∀ phone' e, ((OtpEvent.setCode phone hash).apply now s).code.get phone' = some e →
      (phone' = phone ∧ e.value = hash) ∨ (phone' ≠ phone ∧ s.code.get phone' = some e) := by
    intro phone' e he
    simp only [OtpEvent.apply, Table.set, Table.get_put] at he
    split at he
    · cases he
      exact Or.inl ⟨‹_›, rfl⟩
    · exact Or.inr ⟨‹_›, he⟩
  refine ⟨?_, ?_, ?_, fun use hu => List.mem_cons_of_mem _ (h.issued use hu), h.verified⟩
  · rw [OtpEvent.apply, List.map_cons, List.nodup_cons]
    refine ⟨fun hmem => ?_, h.salts⟩
    obtain ⟨⟨phone', salt⟩, hissued, rfl⟩ := List.mem_map.mp hmem
    exact hnew phone' hissued
  · intro phone' e he
    rcases hget phone' e he with ⟨rfl, rfl⟩ | ⟨hne, he⟩
    · simp [OtpEvent.apply, OtpStore.newest]
    · simpa [OtpEvent.apply, OtpStore.newest, Ne.symm hne] using h.newest phone' e he
  · intro phone' e he use hu
    rcases hget phone' e he with ⟨rfl, rfl⟩ | ⟨-, he⟩
    · intro heq
      exact hnew _ (heq ▸ h.issued use hu)
    · exact h.unverified phone' e he use hu

/-- The other commands issue nothing, and may verify the code that is stored. -/
theorem of_not_setCode (h : CodesOnce s) {ev : OtpEvent}
    (hne : ∀ phone hash, ev ≠ .setCode phone hash) : CodesOnce (ev.apply now s) := by
  have hissued : (ev.apply now s).issued = s.issued := by
    rcases ev.issued_apply with he | ⟨phone, hash, rfl, -⟩
    · exact he
    · exact absurd rfl (hne phone hash)
  have hcode : ∀ phone e, (ev.apply now s).code.get phone = some e →
      s.code.get phone = some e := by
    intro phone e he
    rcases ev.of_get_code he with he | rfl
    · exact he
    · exact absurd rfl (hne phone e.value)
  have hnewest : ∀ phone e, (ev.apply now s).code.get phone = some e →
      (ev.apply now s).newest phone = some e.value.salt := by
    intro phone e he
    rw [OtpStore.newest, hissued]
    exact h.newest phone e (hcode phone e he)
  rcases ev.verified_apply now s with hv | ⟨phone, hash, ticket, -, hread, hv, hc⟩
  · exact ⟨hissued ▸ h.salts, hnewest, fun phone e he => hv ▸ h.unverified phone e (hcode _ _ he),
      hv ▸ hissued ▸ h.issued, hv ▸ h.verified⟩
  · obtain ⟨e, hget, -, rfl⟩ := Table.read_eq_some.mp hread
    have hmem := OtpStore.mem_issued_of_newest (h.newest phone e hget)
    refine ⟨hissued ▸ h.salts, hnewest, ?_, ?_, ?_⟩
    · intro phone' e' he' use hu
      rw [hv] at hu
      rcases List.mem_cons.mp hu with rfl | hu
      · intro heq
        have hmem' := OtpStore.mem_issued_of_newest (h.newest phone' e' (hcode _ _ he'))
        obtain rfl := h.phone_eq hmem (heq ▸ hmem')
        rw [hc] at he'
        exact (Table.of_get_erase he').1 rfl
      · exact h.unverified phone' e' (hcode _ _ he') use hu
    · intro use hu
      rw [hv] at hu
      rw [hissued]
      rcases List.mem_cons.mp hu with rfl | hu
      · exact hmem
      · exact h.issued use hu
    · rw [hv, List.map_cons, List.nodup_cons]
      refine ⟨fun hmem' => ?_, h.verified⟩
      obtain ⟨use, hu, heq⟩ := List.mem_map.mp hmem'
      exact h.unverified phone e hget use hu heq

end CodesOnce

theorem codesOnce_step (hg : AuthGuar noFloor ev K a b) (h : CodesOnce a.2.otp) :
    CodesOnce b.2.otp := by
  rcases hg.otp_cases with he | ⟨oev, rfl, he, hoev⟩
  · exact he ▸ h
  rw [he]
  by_cases hset : ∃ phone hash, oev = .setCode phone hash
  · obtain ⟨phone, hash, rfl⟩ := hset
    exact h.setCode hoev.2.2
  · exact h.of_not_setCode fun phone hash heq => hset ⟨phone, hash, heq⟩

theorem AuthRuns.codesOnce (h : AuthRuns env ok s₀ s) : CodesOnce s.store.2.otp := by
  refine h.invariant (P := fun σ => CodesOnce σ.2.otp) ?_ fun _ _ _ _ _ _ hg => codesOnce_step hg
  intro σ hi
  constructor <;> simp [hi.otp, OtpStore.initial]

/-- **A code works once**: no code is verified twice; a code that is verified is the newest of
its phone at that moment; the clean-up after a failed message removes no code but its own. -/
theorem codes_once (h : AuthRuns env anyAuthEvent s₀ s) :
    (s.store.2.otp.issued.map (·.2)).Nodup ∧ (s.store.2.otp.verified.map (·.salt)).Nodup ∧
      ∀ i s', s.fire (.run i) = some s' →
        (∀ use ∈ s'.store.2.otp.verified, use ∉ s.store.2.otp.verified →
          s.store.2.otp.newest use.phone = some use.salt) ∧
        ∀ phone hash, s.event i = some (.otp (.withdraw phone hash)) → ∀ phone' e,
          s.store.2.otp.code.get phone' = some e → e.value.salt ≠ hash.salt →
          s'.store.2.otp.code.get phone' = some e := by
  have hcodes := h.codesOnce
  refine ⟨hcodes.salts, hcodes.verified, fun i s' hf => ⟨?_, ?_⟩⟩
  · intro use hu hnot
    rcases h.step (m := .run i) (fun _ _ => trivial) hf with he | ⟨ev, K, -, hg⟩
    · exact absurd (he ▸ hu) hnot
    rcases hg.otp_cases with he | ⟨oev, -, he, -⟩
    · exact absurd (he ▸ hu) hnot
    rw [he] at hu
    rcases oev.verified_apply s.store.2.base.now s.store.2.otp with hv |
      ⟨phone, hash, ticket, -, hread, hv, -⟩
    · exact absurd (hv ▸ hu) hnot
    · rcases List.mem_cons.mp (hv ▸ hu) with rfl | hu
      · obtain ⟨e, hget, -, rfl⟩ := Table.read_eq_some.mp hread
        exact hcodes.newest phone e hget
      · exact absurd hu hnot
  · intro phone hash hev phone' e hget hne
    obtain ⟨K, hg⟩ := h.guar hev trivial hf
    rw [hg.otp]
    simp only [AuthEvent.applyWorld, OtpEvent.apply]
    split
    · rename_i hread
      rw [Table.get_erase, if_neg, hget]
      rintro rfl
      obtain ⟨e', hget', -, hvalue⟩ := Table.read_eq_some.mp hread
      rw [hget, Option.some.injEq] at hget'
      exact hne (by rw [hget', hvalue])
    · exact hget

end Runs

namespace AuthScenario

theorem codes_once_login :
    (playAuth anyAuthEvent config state login).store.2.otp.verified.map (·.salt) = [99] ∧
      ((playAuth anyAuthEvent config state login).store.2.otp.issued.map (·.2)).Nodup ∧
      ((playAuth anyAuthEvent config state login).store.2.otp.verified.map (·.salt)).Nodup ∧
      ∀ i s', (playAuth anyAuthEvent config state login).fire (.run i) = some s' →
        (∀ use ∈ s'.store.2.otp.verified,
          use ∉ (playAuth anyAuthEvent config state login).store.2.otp.verified →
          (playAuth anyAuthEvent config state login).store.2.otp.newest use.phone =
            some use.salt) ∧
        ∀ phone hash, (playAuth anyAuthEvent config state login).event i =
          some (.otp (.withdraw phone hash)) → ∀ phone' e,
          (playAuth anyAuthEvent config state login).store.2.otp.code.get phone' = some e →
          e.value.salt ≠ hash.salt → s'.store.2.otp.code.get phone' = some e :=
  ⟨by decide +kernel, codes_once ((runs _).play login)⟩

end AuthScenario

end Sosedi
