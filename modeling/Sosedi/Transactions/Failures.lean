import Sosedi.Transactions.RelyGuarantee

/-!
# What a client throws

`wp` says nothing of a program that throws.  `wpE` does: each error satisfies `R`.  It takes for
granted that the client keeps to the contract, and that the stores after its own steps satisfy
the invariant, since a sound run has both.

Proved here:

* `wpE_bind`, `wpE_forEach`: how proofs of programs compose;
* `Sound.throws`: in every state of a run, what a client is about to throw satisfies `R`.
-/

namespace Transactions

variable {S : Signature} {α β : Type}

/-- `wpE C p R Q L ω σ`: from the store `σ`, holding `L` with uncommitted writes `ω`, what `p`
throws satisfies `R` and what it returns `Q`. -/
def wpE (C : Contract S) : Prog S α → (S.Error → Prop) →
    (α → List S.Key → List (S.DB → S.DB) → S.DB × S.World → Prop) →
    List S.Key → List (S.DB → S.DB) → S.DB × S.World → Prop
  | .ret a, _, Q, L, ω, σ => Q a L ω σ
  | .throw e, R, _, _, _, _ => R e
  | .lock k next, R, Q, L, ω, σ =>
    ∀ σ', C.Interference L σ σ' → C.inv σ' → wpE C next R Q (k :: L) ω σ'
  | .query next, R, Q, L, ω, σ =>
    ∀ σ', C.Interference L σ σ' → C.inv σ' → wpE C (next (view ω σ'.1)) R Q L ω σ'
  | .exec rows write next, R, Q, L, ω, σ =>
    ∀ σ', C.Interference L σ σ' → C.inv σ' → wpE C (next (view ω σ'.1)) R Q
      (rows (view ω σ'.1) ++ L) (ω ++ [write (view ω σ'.1)]) σ'
  | .commit ev next, R, Q, L, ω, σ =>
    ∀ σ', C.Interference L σ σ' → C.inv σ' → C.ok ev σ' → C.guar ev L σ' (view ω σ'.1, σ'.2) →
      C.inv (view ω σ'.1, σ'.2) → wpE C next R Q [] [] (view ω σ'.1, σ'.2)
  | .call ev f next, R, Q, L, ω, σ =>
    ∀ σ', C.Interference L σ σ' → C.inv σ' → C.ok ev σ' → C.guar ev L σ' (σ'.1, f σ'.2) →
      C.inv (σ'.1, f σ'.2) → wpE C (next σ'.2) R Q L ω (σ'.1, f σ'.2)

variable {C : Contract S} {R : S.Error → Prop} {L : List S.Key} {ω : List (S.DB → S.DB)}
  {σ σ' : S.DB × S.World} {Q : α → List S.Key → List (S.DB → S.DB) → S.DB × S.World → Prop}

theorem wpE_bind (p : Prog S α) (f : α → Prog S β)
    (Q : β → List S.Key → List (S.DB → S.DB) → S.DB × S.World → Prop) :
    wpE C (p.bind f) R Q L ω σ ↔ wpE C p R (fun a L ω σ => wpE C (f a) R Q L ω σ) L ω σ := by
  induction p generalizing L ω σ with
  | ret a => rfl
  | throw e => rfl
  | lock k next ih => simp only [Prog.bind, wpE, ih]
  | query next ih => simp only [Prog.bind, wpE, ih]
  | exec rows write next ih => simp only [Prog.bind, wpE, ih]
  | commit ev next ih => simp only [Prog.bind, wpE, ih]
  | call ev f next ih => simp only [Prog.bind, wpE, ih]

theorem wpE_mono {Q' : α → List S.Key → List (S.DB → S.DB) → S.DB × S.World → Prop}
    (p : Prog S α) (hQ : ∀ a L ω σ, Q a L ω σ → Q' a L ω σ) (h : wpE C p R Q L ω σ) :
    wpE C p R Q' L ω σ := by
  induction p generalizing L ω σ with
  | ret a => exact hQ _ _ _ _ h
  | throw e => exact h
  | lock k next ih => exact fun σ' hi hv => ih (h σ' hi hv)
  | query next ih => exact fun σ' hi hv => ih _ (h σ' hi hv)
  | exec rows write next ih => exact fun σ' hi hv => ih _ (h σ' hi hv)
  | commit ev next ih => exact fun σ' hi hv hok hg hv' => ih (h σ' hi hv hok hg hv')
  | call ev f next ih => exact fun σ' hi hv hok hg hv' => ih _ (h σ' hi hv hok hg hv')

/-- What `wpE` asserts before a program starts its next node survives interference. -/
theorem wpE_stable (p : Prog S α)
    (hQ : ∀ a L ω σ σ', C.Interference L σ σ' → Q a L ω σ → Q a L ω σ')
    (hi : C.Interference L σ σ') (h : wpE C p R Q L ω σ) : wpE C p R Q L ω σ' := by
  cases p with
  | ret a => exact hQ a L ω σ σ' hi h
  | throw e => exact h
  | lock k next => exact fun σ₂ h₂ => h σ₂ (interference_trans hi h₂)
  | query next => exact fun σ₂ h₂ => h σ₂ (interference_trans hi h₂)
  | exec rows write next => exact fun σ₂ h₂ => h σ₂ (interference_trans hi h₂)
  | commit ev next => exact fun σ₂ h₂ => h σ₂ (interference_trans hi h₂)
  | call ev f next => exact fun σ₂ h₂ => h σ₂ (interference_trans hi h₂)

section Statements

variable {f : S.DB → S.DB}

@[simp] theorem wpE_ret (a : α) : wpE C (.ret a) R Q L ω σ = Q a L ω σ := rfl

@[simp] theorem wpE_throwing (e : S.Error) : wpE C (throwing e) R Q L ω σ = R e := rfl

theorem wpE_lift (x : Except S.Error α) :
    wpE C (lift x) R Q L ω σ ↔ (∀ a, x = .ok a → Q a L ω σ) ∧ ∀ e, x = .error e → R e := by
  cases x <;> simp [lift, wpE]

@[simp] theorem wpE_acquire (k : S.Key)
    (Q : Unit → List S.Key → List (S.DB → S.DB) → S.DB × S.World → Prop) :
    wpE C (acquire k) R Q L ω σ =
      ∀ σ', C.Interference L σ σ' → C.inv σ' → Q () (k :: L) ω σ' := rfl

@[simp] theorem wpE_select (f : S.DB → α) :
    wpE C (select f) R Q L ω σ =
      ∀ σ', C.Interference L σ σ' → C.inv σ' → Q (f (view ω σ'.1)) L ω σ' := rfl

@[simp] theorem wpE_write (rows : List S.Key)
    (Q : Unit → List S.Key → List (S.DB → S.DB) → S.DB × S.World → Prop) :
    wpE C (write rows f) R Q L ω σ =
      ∀ σ', C.Interference L σ σ' → C.inv σ' → Q () (rows ++ L) (ω ++ [f]) σ' := rfl

@[simp] theorem wpE_updateWhere (row : S.Key) (cond : S.DB → Bool)
    (Q : Bool → List S.Key → List (S.DB → S.DB) → S.DB × S.World → Prop) :
    wpE C (updateWhere row cond f) R Q L ω σ =
      ∀ σ', C.Interference L σ σ' → C.inv σ' → Q (cond (view ω σ'.1))
        ((if cond (view ω σ'.1) then [row] else []) ++ L)
        (ω ++ [if cond (view ω σ'.1) then f else id]) σ' := rfl

@[simp] theorem wpE_commit (ev : S.Event)
    (Q : Unit → List S.Key → List (S.DB → S.DB) → S.DB × S.World → Prop) :
    wpE C (commit ev) R Q L ω σ =
      ∀ σ', C.Interference L σ σ' → C.inv σ' → C.ok ev σ' →
        C.guar ev L σ' (view ω σ'.1, σ'.2) → C.inv (view ω σ'.1, σ'.2) →
          Q () [] [] (view ω σ'.1, σ'.2) := rfl

@[simp] theorem wpE_call (ev : S.Event) (f : S.World → S.World) (out : S.World → α) :
    wpE C (call ev f out) R Q L ω σ =
      ∀ σ', C.Interference L σ σ' → C.inv σ' → C.ok ev σ' → C.guar ev L σ' (σ'.1, f σ'.2) →
        C.inv (σ'.1, f σ'.2) → Q (out σ'.2) L ω (σ'.1, f σ'.2) := rfl

/-- A loop: each round starts where the one before ended. -/
theorem wpE_forEach {I : List S.Key → List (S.DB → S.DB) → S.DB × S.World → Prop}
    {l : List β} {body : β → Prog S Unit}
    (hbody : ∀ b L ω σ, I L ω σ → wpE C (body b) R (fun _ => I) L ω σ) (hI : I L ω σ) :
    wpE C (forEach l body) R (fun _ => I) L ω σ := by
  induction l generalizing L ω σ with
  | nil => exact hI
  | cons b bs ih =>
    rw [forEach, Prog.bind_eq, wpE_bind]
    exact wpE_mono _ (fun _ _ _ _ h => ih h) (hbody b L ω σ hI)

end Statements

/-! ## Runs -/

variable {Ops : Prog S Unit → Prop} {C' : Contract S} {s₀ s s' : State S} {i j : Nat}

/-- A client throws only errors of `R`, from the store that it is in. -/
def Thread.Throws (C : Contract S) (R : S.Error → Prop) (t : Thread S) (σ : S.DB × S.World) :
    Prop :=
  wpE C t.prog R (fun _ _ _ _ => True) t.locks t.writes σ

theorem Thread.throws_done : (Thread.done : Thread S).Throws C R σ := trivial

theorem Thread.Throws.interference {t : Thread S} (h : t.Throws C R σ)
    (hi : C.Interference t.locks σ σ') : t.Throws C R σ' :=
  wpE_stable _ (fun _ _ _ _ _ _ _ => trivial) hi h

variable [DecidableEq S.Key]

/-- The step of a client: it leaves the store alone or keeps to the contract, under the locks
of the client. -/
theorem Sound.step (h : Sound C s) (hm : s.Admits Ops C.ok (.run j))
    (hf : s.fire (.run j) = some s') :
    (s.event j = none ∧ s'.store = s.store) ∨ ∃ ev, s.event j = some ev ∧ C.ok ev s.store ∧
      C.guar ev (s.thread j).locks s.store s'.store := by
  have hsafe := h.safe j
  simp only [State.fire, State.advance] at hf
  split at hf
  · cases hf
  · rename_i hp
    cases hf
    exact Or.inl ⟨by simp only [State.event, hp], rfl⟩
  · rename_i hp
    split at hf
    · cases hf
    · cases hf
      exact Or.inl ⟨by simp only [State.event, hp], rfl⟩
  · rename_i hp
    cases hf
    exact Or.inl ⟨by simp only [State.event, hp], rfl⟩
  · rename_i hp
    split at hf
    · cases hf
    · cases hf
      exact Or.inl ⟨by simp only [State.event, hp], rfl⟩
  · rename_i ev next hp
    rw [hp] at hsafe
    cases hf
    have hev : s.event j = some ev := by simp only [State.event, hp]
    have hok : C.ok ev s.store := hm ev hev
    exact Or.inr ⟨ev, hev, hok, (hsafe _ interference_refl h.inv hok).1⟩
  · rename_i ev f next hp
    rw [hp] at hsafe
    cases hf
    have hev : s.event j = some ev := by simp only [State.event, hp]
    have hok : C.ok ev s.store := hm ev hev
    exact Or.inr ⟨ev, hev, hok, (hsafe _ interference_refl h.inv hok).1⟩

/-- The client's own step. -/
theorem Thread.Throws.advance (h : (s.thread i).Throws C R s.store) (hinv : C.inv s.store)
    (hinv' : C.inv s'.store) (hguar : ∀ ev, s.event i = some ev → C.ok ev s.store ∧
      C.guar ev (s.thread i).locks s.store s'.store) (hf : s.fire (.run i) = some s') :
    (s'.thread i).Throws C R s'.store := by
  have hlt : i < s.threads.length := by
    refine State.lt_of_prog_ne fun a ha => ?_
    simp [State.fire, State.advance, ha] at hf
  have hset : ∀ (db : S.DB) (w : S.World) (t : Thread S),
      (({ s with db := db, world := w } : State S).setThread i t).thread i = t := by
    intro db w t
    rw [State.thread_setThread, if_pos ⟨rfl, hlt⟩]
  unfold Thread.Throws at h
  unfold State.event at hguar
  simp only [State.fire, State.advance] at hf
  split at hf
  · cases hf
  · cases hf
    rw [hset s.db s.world]
    exact Thread.throws_done
  · rename_i k next hp
    rw [hp] at h
    split at hf
    · cases hf
    · cases hf
      rw [hset s.db s.world]
      exact h _ interference_refl hinv
  · rename_i next hp
    rw [hp] at h
    cases hf
    rw [hset s.db s.world]
    exact h _ interference_refl hinv
  · rename_i rows write next hp
    rw [hp] at h
    split at hf
    · cases hf
    · cases hf
      rw [hset s.db s.world]
      exact h _ interference_refl hinv
  · rename_i ev next hp
    rw [hp] at h hguar
    cases hf
    obtain ⟨hok, hg⟩ := hguar ev rfl
    rw [hset _ s.world]
    exact h _ interference_refl hinv hok hg hinv'
  · rename_i ev f next hp
    rw [hp] at h hguar
    cases hf
    obtain ⟨hok, hg⟩ := hguar ev rfl
    rw [hset s.db]
    exact h _ interference_refl hinv hok hg hinv'

/-- **What a client throws.**  `C'` knows more of the stores of the run than `C`. -/
theorem Sound.throws (hOps : ∀ p, Ops p → Keeps C p) (hC : C.Preserved) (h₀ : Sound C s₀)
    (hguar : C'.guar = C.guar) (hok : C'.ok = C.ok)
    (hinv : ∀ s, Reaches Ops C.ok s₀ s → C'.inv s.store) (hi : i < s₀.threads.length)
    (h : (s₀.thread i).Throws C' R s₀.store) (hr : Reaches Ops C.ok s₀ s) :
    (s.thread i).Throws C' R s.store := by
  have hlen : i < s.threads.length ∧ Sound C s ∧ (s.thread i).Throws C' R s.store := by
    induction hr with
    | refl => exact ⟨hi, h₀, h⟩
    | @step a b m hr hm hf ih =>
      obtain ⟨hlt, hsound, hthrows⟩ := ih
      have hsound' := (sound_fire hOps hC hsound hm hf).1
      cases m with
      | start p =>
        cases hf
        refine ⟨by simp; omega, hsound', ?_⟩
        have hsame : ({ a with threads := a.threads ++ [⟨p, [], []⟩] } : State S).thread i =
            a.thread i := by
          simp only [State.thread, List.getD_eq_getElem?_getD, List.getElem?_append_left hlt]
        rw [hsame]
        exact hthrows
      | crash j =>
        cases hf
        refine ⟨by simpa [State.setThread] using hlt, hsound', ?_⟩
        rw [State.thread_setThread]
        split
        · exact Thread.throws_done
        · exact hthrows
      | run j =>
        refine ⟨by rw [State.length_of_advance hf]; exact hlt, hsound', ?_⟩
        have hstep := hsound.step hm hf
        by_cases hij : i = j
        · subst hij
          refine hthrows.advance (hinv a hr) (hinv b (hr.step _ hm hf)) (fun ev hev => ?_) hf
          rcases hstep with ⟨hnone, -⟩ | ⟨ev', hev', hok', hg⟩
          · rw [hnone] at hev
            cases hev
          · rw [hev', Option.some.injEq] at hev
            subst hev
            exact ⟨hok ▸ hok', hguar ▸ hg⟩
        · rw [State.thread_of_advance hf (Ne.symm hij)]
          rcases hstep with ⟨-, he⟩ | ⟨ev, -, hok', hg⟩
          · rw [he]
            exact hthrows
          · refine hthrows.interference (Relation.ReflTransGen.single ?_)
            exact ⟨_, hsound.exclusive j i (Ne.symm hij), hinv a hr, ev, hok ▸ hok', hguar ▸ hg⟩
  exact hlen.2.2

omit [DecidableEq S.Key] in
/-- A client at a `throw`. -/
theorem Thread.Throws.error {t : Thread S} (h : t.Throws C R σ) {e : S.Error}
    (he : t.prog = .throw e) : R e := by
  unfold Thread.Throws at h
  rw [he] at h
  exact h

end Transactions
