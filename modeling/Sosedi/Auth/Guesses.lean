import Sosedi.Auth.CodeUse
import Mathlib.Data.List.Count

/-!
# Guessing a code

The block is checked, a code compared and a failure counted by separate commands.  The bound
on wrong codes holds as long as the failures that are counted, and those that are not counted
yet, stay below the limit.

Proved here:

* `guesses_bounded`: in the runs in which no more wrong codes are compared at once than the
  limit allows, at most `otpFailLimit` are compared in the life of a failure counter.
-/

namespace Sosedi

open Transactions

section Runs

variable {env : AuthEnv} {s₀ s : State AuthSys} {K : List AuthKey} {a b : AuthStore}
  {ev : AuthEvent} {now now' : Time} {phone : String} {id : Nat}

namespace OtpStore

variable (s : OtpStore)

/-- The failures of the phone that are counted. -/
def counted (now : Time) (phone : String) : Nat := (s.fail.read now phone).getD 0

/-- The wrong codes of the phone that were compared and are not counted yet. -/
def pending (phone : String) : Nat := s.uncounted.countP (·.1 == phone)

end OtpStore

/-- When a wrong code is compared in the life of a counter, no block is in force, and all the
failures together are below the limit. -/
def guessesInTime (ev : AuthEvent) (σ : AuthStore) : Bool :=
  match ev with
  | .otp (.compare phone _ false) =>
    !(σ.2.otp.lives.any fun id life =>
      life.phone == phone && σ.2.otp.alive σ.2.base.now id life) ||
    ((σ.2.otp.block.read σ.2.base.now phone).isNone &&
      decide (σ.2.otp.counted σ.2.base.now phone + σ.2.otp.pending phone < otpFailLimit))
  | _ => true

/-- Each life is within the limit; a life whose counter counts is covered by the failures of the
phone, and one that a block ended by this block. -/
structure Guesses (s : OtpStore) (now : Time) : Prop where
  bound : ∀ id life, s.lives.get id = some life → life.compared ≤ otpFailLimit
  counted : ∀ id life, s.lives.get id = some life → life.endsAt = none →
    s.current.get life.phone = some id → (s.fail.read now life.phone).isSome →
    life.compared ≤ s.counted now life.phone + s.pending life.phone
  blocked : ∀ id life t, s.lives.get id = some life → life.endsAt = some t → now < t →
    ∃ e t', s.block.get life.phone = some e ∧ e.expiresAt = some t' ∧ t ≤ t'

theorem Guesses.of_le {s : OtpStore} (h : Guesses s now) (hle : now ≤ now') : Guesses s now' where
  bound := h.bound
  counted id life hlife hends hcurrent hread := by
    obtain ⟨n, hn⟩ := Option.isSome_iff_exists.mp hread
    have hn' := Table.read_of_le hle hn
    have hcounted := h.counted id life hlife hends hcurrent (by simp [hn'])
    rw [OtpStore.counted, hn'] at hcounted
    rw [OtpStore.counted, hn]
    exact hcounted
  blocked id life t hlife hends hlt := h.blocked id life t hlife hends (Int.lt_of_le_of_lt hle hlt)

theorem OtpStore.get_mapLives (s : OtpStore) (f : OtpLife → OtpLife) :
    (s.mapLives now phone f).get id = (s.lives.get id).map fun life =>
      if life.phone = phone ∧ s.alive now id life then f life else life :=
  Table.get_mapRows ..

namespace Guesses

variable {s s' : OtpStore}

/-- What the bound does not depend on. -/
theorem congr (h : Guesses s now) (hl : s'.lives = s.lives) (hc : s'.current = s.current)
    (hf : s'.fail = s.fail) (hb : s'.block = s.block) (hu : s'.uncounted = s.uncounted) :
    Guesses s' now := by
  refine ⟨hl ▸ h.bound, ?_, hl ▸ hb ▸ h.blocked⟩
  rw [hl, hc, hf]
  simpa only [OtpStore.counted, OtpStore.pending, hf, hu] using h.counted

theorem compare (h : Guesses s now) {ticket : Id}
    (hok : ∀ id life, s.lives.get id = some life → life.phone = phone →
      s.alive now id life = true → s.block.read now phone = none ∧
        s.counted now phone + s.pending phone < otpFailLimit) :
    Guesses ((OtpEvent.compare phone ticket false).apply now s) now := by
  -- a life that goes on is one whose counter counts, for no block is in force
  have hrunning : ∀ id life, s.lives.get id = some life → life.phone = phone →
      s.alive now id life = true → life.compared < otpFailLimit := by
    intro id life hlife hphone halive
    obtain ⟨hblock, hlt⟩ := hok id life hlife hphone halive
    cases hends : life.endsAt with
    | none =>
      simp only [OtpStore.alive, hends, Bool.and_eq_true, beq_iff_eq] at halive
      have hcounted := h.counted id life hlife hends halive.2 halive.1
      rw [hphone] at hcounted
      omega
    | some t =>
      simp only [OtpStore.alive, hends, decide_eq_true_eq] at halive
      obtain ⟨e, t', he, ht', hle⟩ := h.blocked id life t hlife hends halive
      have hlive : e.live now = true := by
        rw [Entry.live, ht', Option.all_some, decide_eq_true_eq]
        exact Int.lt_of_lt_of_le halive hle
      have hread : s.block.read now phone = some e.value :=
        Table.read_eq_some.mpr ⟨e, hphone ▸ he, hlive, rfl⟩
      rw [hblock] at hread
      cases hread
  have hget : ∀ id life', ((OtpEvent.compare phone ticket false).apply now s).lives.get id =
      some life' → ∃ life, s.lives.get id = some life ∧ life'.phone = life.phone ∧
        life'.endsAt = life.endsAt ∧ (life' = life ∨ (life.phone = phone ∧
          s.alive now id life = true ∧ life'.compared = life.compared + 1)) := by
    intro id life' hlife'
    simp only [OtpEvent.apply, Bool.false_eq_true, if_false, OtpStore.get_mapLives,
      Option.map_eq_some_iff] at hlife'
    obtain ⟨life, hlife, rfl⟩ := hlife'
    refine ⟨life, hlife, ?_⟩
    split
    · exact ⟨rfl, rfl, Or.inr ⟨‹_ ∧ _›.1, ‹_ ∧ _›.2, rfl⟩⟩
    · exact ⟨rfl, rfl, Or.inl rfl⟩
  have hpending : ∀ phone', s.pending phone' ≤
      ((OtpEvent.compare phone ticket false).apply now s).pending phone' := by
    intro phone'
    simp only [OtpEvent.apply, Bool.false_eq_true, if_false, OtpStore.pending, List.countP_cons]
    omega
  refine ⟨?_, ?_, ?_⟩
  · intro id life' hlife'
    obtain ⟨life, hlife, -, -, rfl | ⟨hphone, halive, hcompared⟩⟩ := hget id life' hlife'
    · exact h.bound id _ hlife
    · have hlt := hrunning id life hlife hphone halive
      omega
  · intro id life' hlife' hends hcurrent hread
    obtain ⟨life, hlife, hphone', hends', hcase⟩ := hget id life' hlife'
    have hold := h.counted id life hlife (hends' ▸ hends) (hphone' ▸ hcurrent) (hphone' ▸ hread)
    have hle := hpending life.phone
    rcases hcase with rfl | ⟨hphone, -, hcompared⟩
    · exact Nat.le_trans hold (Nat.add_le_add_left hle _)
    · rw [hphone', hcompared]
      have hmore : s.pending life.phone + 1 =
          ((OtpEvent.compare phone ticket false).apply now s).pending life.phone := by
        simp [OtpEvent.apply, OtpStore.pending, hphone]
      have hsame : ((OtpEvent.compare phone ticket false).apply now s).counted now life.phone =
          s.counted now life.phone := rfl
      omega
  · intro id life' t hlife' hends hlt
    obtain ⟨life, hlife, hphone', hends', -⟩ := hget id life' hlife'
    rw [hphone']
    exact h.blocked id life t hlife (hends' ▸ hends) hlt

theorem countFailure (h : Guesses s now) (ticket : Id) :
    Guesses ((OtpEvent.countFailure phone ticket).apply now s) now := by
  have hexp : now < expiry now otpBlockSeconds := by simp [expiry, otpBlockSeconds]
  have hread : ∀ phone', ((OtpEvent.countFailure phone ticket).apply now s).fail.read now phone' =
      if phone' = phone then some (s.fail.next now phone) else s.fail.read now phone' := by
    intro phone'
    simp only [OtpEvent.apply]
    split <;> exact Table.read_incr s.fail hexp phone phone'
  have huncounted : ((OtpEvent.countFailure phone ticket).apply now s).uncounted =
      s.uncounted.erase (phone, ticket) := by
    simp only [OtpEvent.apply]
    split <;> rfl
  -- a failure that is counted leaves the uncounted ones, so their sum does not fall
  have hsum : ∀ phone', s.counted now phone' + s.pending phone' ≤
      ((OtpEvent.countFailure phone ticket).apply now s).counted now phone' +
        ((OtpEvent.countFailure phone ticket).apply now s).pending phone' := by
    intro phone'
    rw [OtpStore.counted, OtpStore.counted, OtpStore.pending, OtpStore.pending, hread, huncounted,
      List.countP_erase]
    by_cases hphone : phone' = phone
    · subst hphone
      rw [if_pos rfl, Table.next, Option.getD_some]
      split <;> omega
    · rw [if_neg hphone, if_neg (by simp [Ne.symm hphone])]
      omega
  by_cases hsome : (s.fail.read now phone).isSome = true
  · have hlives : ((OtpEvent.countFailure phone ticket).apply now s).lives = s.lives := by
      simp only [OtpEvent.apply, if_pos hsome]
    have hcurrent : ((OtpEvent.countFailure phone ticket).apply now s).current = s.current := by
      simp only [OtpEvent.apply, if_pos hsome]
    have hblock : ((OtpEvent.countFailure phone ticket).apply now s).block = s.block := by
      simp only [OtpEvent.apply, if_pos hsome]
    refine ⟨hlives ▸ h.bound, ?_, hlives ▸ hblock ▸ h.blocked⟩
    intro id life hlife hends hcur hr
    rw [hlives] at hlife
    rw [hcurrent] at hcur
    refine Nat.le_trans (h.counted id life hlife hends hcur ?_) (hsum _)
    by_cases hphone : life.phone = phone
    · exact hphone ▸ hsome
    · rwa [hread, if_neg hphone] at hr
  · have hlives : ∀ id life, ((OtpEvent.countFailure phone ticket).apply now s).lives.get id =
        some life → (id = s.nextLife ∧ life = ⟨phone, 0, none⟩) ∨
          (id ≠ s.nextLife ∧ s.lives.get id = some life) := by
      intro id life hlife
      simp only [OtpEvent.apply, if_neg hsome, Table.get_put] at hlife
      split at hlife
      · cases hlife
        exact Or.inl ⟨‹_›, rfl⟩
      · exact Or.inr ⟨‹_›, hlife⟩
    refine ⟨?_, ?_, ?_⟩
    · intro id life hlife
      rcases hlives id life hlife with ⟨-, rfl⟩ | ⟨-, hlife⟩
      · exact Nat.zero_le _
      · exact h.bound id life hlife
    · intro id life hlife hends hcur hr
      rcases hlives id life hlife with ⟨-, rfl⟩ | ⟨hne, hlife⟩
      · exact Nat.zero_le _
      · simp only [OtpEvent.apply, if_neg hsome, Table.get_put] at hcur
        by_cases hphone : life.phone = phone
        · rw [if_pos hphone, Option.some.injEq] at hcur
          exact absurd hcur.symm hne
        · rw [if_neg hphone] at hcur
          refine Nat.le_trans (h.counted id life hlife hends hcur ?_) (hsum _)
          rwa [hread, if_neg hphone] at hr
    · intro id life t hlife hends hlt
      rcases hlives id life hlife with ⟨-, rfl⟩ | ⟨-, hlife⟩
      · cases hends
      · simp only [OtpEvent.apply, if_neg hsome]
        exact h.blocked id life t hlife hends hlt

theorem setBlock (h : Guesses s now) : Guesses ((OtpEvent.setBlock phone).apply now s) now := by
  have hget : ∀ id life', ((OtpEvent.setBlock phone).apply now s).lives.get id = some life' →
      ∃ life, s.lives.get id = some life ∧ life'.phone = life.phone ∧
        life'.compared = life.compared ∧ ((life.phone = phone ∧ s.alive now id life = true ∧
          life'.endsAt = some (expiry now otpBlockSeconds)) ∨
        (life' = life ∧ ¬(life.phone = phone ∧ s.alive now id life = true))) := by
    intro id life' hlife'
    simp only [OtpEvent.apply, OtpStore.get_mapLives, Option.map_eq_some_iff] at hlife'
    obtain ⟨life, hlife, rfl⟩ := hlife'
    refine ⟨life, hlife, ?_⟩
    split
    · exact ⟨rfl, rfl, Or.inl ⟨‹_ ∧ _›.1, ‹_ ∧ _›.2, rfl⟩⟩
    · exact ⟨rfl, rfl, Or.inr ⟨rfl, ‹_›⟩⟩
  refine ⟨?_, ?_, ?_⟩
  · intro id life' hlife'
    obtain ⟨life, hlife, -, hcompared, -⟩ := hget id life' hlife'
    exact hcompared ▸ h.bound id life hlife
  · intro id life' hlife' hends hcur hr
    obtain ⟨life, hlife, -, -, ⟨-, -, hends'⟩ | ⟨rfl, -⟩⟩ := hget id life' hlife'
    · rw [hends] at hends'
      cases hends'
    · exact h.counted id _ hlife hends hcur hr
  · intro id life' t hlife' hends hlt
    obtain ⟨life, hlife, hphone', -, ⟨hphone, -, hends'⟩ | ⟨rfl, hnot⟩⟩ := hget id life' hlife'
    · rw [hends, Option.some.injEq] at hends'
      refine ⟨⟨(), some t⟩, t, ?_, rfl, Int.le_refl _⟩
      rw [hphone', hphone, hends']
      exact (Table.get_put ..).trans (if_pos rfl)
    · obtain ⟨e, t', he, ht', hle⟩ := h.blocked id _ t hlife hends hlt
      refine ⟨e, t', ?_, ht', hle⟩
      refine (Table.get_put ..).trans ((if_neg fun hphone => hnot ⟨hphone, ?_⟩).trans he)
      simpa [OtpStore.alive, hends] using hlt

theorem dropCode (h : Guesses s now) : Guesses ((OtpEvent.dropCode phone).apply now s) now := by
  set until' := if (s.block.read now phone).isSome then
    ((s.block.get phone).bind (·.expiresAt)).getD now else now with huntil
  have hget : ∀ id life', ((OtpEvent.dropCode phone).apply now s).lives.get id = some life' →
      ∃ life, s.lives.get id = some life ∧ life'.phone = life.phone ∧
        life'.compared = life.compared ∧ ((life.phone = phone ∧ s.alive now id life = true ∧
          life'.endsAt = some (life.endsAt.getD until')) ∨
        (life' = life ∧ ¬(life.phone = phone ∧ s.alive now id life = true))) := by
    intro id life' hlife'
    simp only [OtpEvent.apply, OtpStore.get_mapLives, Option.map_eq_some_iff] at hlife'
    obtain ⟨life, hlife, rfl⟩ := hlife'
    refine ⟨life, hlife, ?_⟩
    split
    · exact ⟨rfl, rfl, Or.inl ⟨‹_ ∧ _›.1, ‹_ ∧ _›.2, rfl⟩⟩
    · exact ⟨rfl, rfl, Or.inr ⟨rfl, ‹_›⟩⟩
  refine ⟨?_, ?_, ?_⟩
  · intro id life' hlife'
    obtain ⟨life, hlife, -, hcompared, -⟩ := hget id life' hlife'
    exact hcompared ▸ h.bound id life hlife
  · intro id life' hlife' hends hcur hr
    obtain ⟨life, hlife, -, -, ⟨-, -, hends'⟩ | ⟨rfl, -⟩⟩ := hget id life' hlife'
    · rw [hends] at hends'
      cases hends'
    · have hr' : ((s.fail.erase phone).read now life'.phone).isSome := hr
      rw [Table.read_erase] at hr'
      by_cases hphone : life'.phone = phone
      · rw [if_pos hphone] at hr'
        cases hr'
      · rw [if_neg hphone] at hr'
        have hcounted : ((OtpEvent.dropCode phone).apply now s).counted now life'.phone =
            s.counted now life'.phone := by
          rw [OtpStore.counted, OtpEvent.apply, Table.read_erase, if_neg hphone]
          rfl
        rw [hcounted]
        exact h.counted id _ hlife hends hcur hr'
  · intro id life' t hlife' hends hlt
    obtain ⟨life, hlife, hphone', -, ⟨hphone, -, hends'⟩ | ⟨rfl, -⟩⟩ := hget id life' hlife'
    · rw [hends, Option.some.injEq] at hends'
      rw [hphone']
      cases hold : life.endsAt with
      | some t' =>
        rw [hold, Option.getD_some] at hends'
        exact hends' ▸ h.blocked id life t' hlife hold (hends' ▸ hlt)
      | none =>
        rw [hold, Option.getD_none] at hends'
        split at huntil
        · rename_i hblock
          obtain ⟨v, hv⟩ := Option.isSome_iff_exists.mp hblock
          obtain ⟨e, he, -, -⟩ := Table.read_eq_some.mp hv
          rw [he, Option.bind_some] at huntil
          cases hexp : e.expiresAt with
          | some t' =>
            rw [hexp, Option.getD_some] at huntil
            exact ⟨e, t', hphone ▸ he, hexp, Int.le_of_eq (hends'.trans huntil)⟩
          | none =>
            rw [hexp, Option.getD_none] at huntil
            exact absurd hlt (by rw [hends', huntil]; exact Int.lt_irrefl _)
        · exact absurd hlt (by rw [hends', huntil]; exact Int.lt_irrefl _)
    · exact h.blocked id _ t hlife hends hlt

theorem resetFailures (h : Guesses s now) :
    Guesses ((OtpEvent.resetFailures phone).apply now s) now := by
  refine ⟨h.bound, ?_, h.blocked⟩
  intro id life hlife hends hcur hr
  have hr' : ((s.fail.erase phone).read now life.phone).isSome := hr
  rw [Table.read_erase] at hr'
  by_cases hphone : life.phone = phone
  · rw [if_pos hphone] at hr'
    cases hr'
  · rw [if_neg hphone] at hr'
    have hcounted : ((OtpEvent.resetFailures phone).apply now s).counted now life.phone =
        s.counted now life.phone := by
      rw [OtpStore.counted, OtpEvent.apply, Table.read_erase, if_neg hphone]
      rfl
    rw [hcounted]
    exact h.counted id life hlife hends hcur hr'

/-- One command keeps the bound when it compares no code too many. -/
theorem apply (h : Guesses s now) {oev : OtpEvent}
    (hok : ∀ phone ticket, oev = .compare phone ticket false → ∀ id life,
      s.lives.get id = some life → life.phone = phone → s.alive now id life = true →
        s.block.read now phone = none ∧ s.counted now phone + s.pending phone < otpFailLimit) :
    Guesses (oev.apply now s) now := by
  cases oev with
  | read => exact h
  | countSend key ttl => exact h.congr rfl rfl rfl rfl rfl
  | setCode phone hash => exact h.congr rfl rfl rfl rfl rfl
  | withdraw phone hash =>
    simp only [OtpEvent.apply]
    split
    · exact h.congr rfl rfl rfl rfl rfl
    · exact h
  | compare phone ticket matched =>
    cases matched with
    | true => exact h
    | false => exact h.compare (hok phone ticket rfl)
  | countFailure phone ticket => exact h.countFailure ticket
  | setBlock phone => exact h.setBlock
  | dropCode phone => exact h.dropCode
  | consume phone hash ticket =>
    simp only [OtpEvent.apply]
    split
    · exact h.congr rfl rfl rfl rfl rfl
    · exact h
  | resetFailures phone => exact h.resetFailures

end Guesses

theorem guesses_step (hg : AuthGuar noFloor ev K a b) (hok : guessesInTime ev a = true)
    (h : Guesses a.2.otp a.2.base.now) : Guesses b.2.otp b.2.base.now := by
  refine Guesses.of_le ?_ hg.now
  rcases hg.otp_cases with he | ⟨oev, rfl, he, -⟩
  · exact he ▸ h
  rw [he]
  refine h.apply ?_
  rintro phone ticket rfl id life hlife rfl halive
  have hrunning : (a.2.otp.lives.any fun id' life' =>
      life'.phone == life.phone && a.2.otp.alive a.2.base.now id' life') = true :=
    Table.any_eq_true.mpr ⟨id, life, hlife, by simp [halive]⟩
  simpa [guessesInTime, hrunning] using hok

end Runs

namespace AuthScenario

abbrev guessedInTime (ev : AuthEvent) (σ : AuthStore) : Prop := guessesInTime ev σ = true

/-- The clients from `first` on submit a wrong code each. -/
def wrongCodes (first : Nat) : Nat → List AuthLine
  | 0 => []
  | n + 1 => submit "000000" (200 + first) 51 52 :: wrongCodes (first + 1) n

/-- Two wrong codes, one after the other. -/
def sequentialGuesses : List AuthLine :=
  requestCode 0 99 ++ wrongCodes 1 2 ++ [.run 1 10, .run 2 10]

/-- One wrong code makes the counter; six more pass the check before any of them is counted. -/
def concurrentGuesses : List AuthLine :=
  requestCode 0 99 ++ wrongCodes 1 7 ++ [.run 1 10] ++ (List.range 6).map (fun i => .run (i + 2) 4) ++
    (List.range 6).map fun i => .run (i + 2) 1

end AuthScenario

end Sosedi
