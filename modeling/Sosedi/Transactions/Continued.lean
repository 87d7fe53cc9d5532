import Sosedi.Transactions.Behaviours
import Sosedi.Transactions.Observers

/-!
# Observed runs that go on

`Continued` are the observed runs from a state that was reached before.  `Prog.Careful` is
`Prog.Follows` of programs that throw only where the observer's value permits it, so that a
client that fails has not stopped halfway.

Proved here:

* `Watched.continued`, `Continued.keeps`: what every observed step keeps holds later on;
* `careful_bind`, `careful_forEach`, `Prog.Looks.careful`: how proofs about programs compose;
* `Thread.Next.careful`, `Watched.careful`: in an observed run every client is careful;
* `careful_event`: a careful client makes only events that are allowed;
* `Watched.after_of_event_none`: only an event changes the value beside a client;
* `Continued.attempts`: a schedule whose moves are checked one by one is an observed run.
-/

namespace Transactions

variable {S : Signature} {α β Φ : Type}

/-! ## Programs -/

section Programs

variable (O : Observer S Φ) (P : S.Error → Φ → Prop)

/-- From `φ` on the observer allows all that the client does, which throws only where `P`; `Q`
holds of what it returns. -/
def Prog.Careful (Q : α → Φ → List (S.DB → S.DB) → Prop) :
    Prog S α → Φ → List (S.DB → S.DB) → Prop
  | .ret a, φ, ω => Q a φ ω
  | .throw e, φ, _ => P e φ
  | .lock _ next, φ, ω => next.Careful Q φ ω
  | .query next, φ, ω => ∀ db, (next (view ω db)).Careful Q (O.see φ db) ω
  | .exec _ write next, φ, ω =>
    ∀ db, (next (view ω db)).Careful Q (O.see φ db) (ω ++ [write (view ω db)])
  | .commit ev next, φ, _ => O.allows φ ev ∧ next.Careful Q (O.act φ ev) []
  | .call ev _ next, φ, ω => O.allows φ ev ∧ ∀ w, (next w).Careful Q (O.act φ ev) ω

end Programs

variable {O : Observer S Φ} {P : S.Error → Φ → Prop} {Q : α → Φ → List (S.DB → S.DB) → Prop}
  {φ : Φ} {ω : List (S.DB → S.DB)}

theorem careful_bind (p : Prog S α) (f : α → Prog S β)
    (Q : β → Φ → List (S.DB → S.DB) → Prop) :
    (p.bind f).Careful O P Q φ ω ↔
      p.Careful O P (fun a φ ω => (f a).Careful O P Q φ ω) φ ω := by
  induction p generalizing φ ω with
  | ret a => rfl
  | throw e => rfl
  | lock k next ih => simp only [Prog.bind, Prog.Careful, ih]
  | query next ih => simp only [Prog.bind, Prog.Careful, ih]
  | exec rows write next ih => simp only [Prog.bind, Prog.Careful, ih]
  | commit ev next ih => simp only [Prog.bind, Prog.Careful, ih]
  | call ev f next ih => simp only [Prog.bind, Prog.Careful, ih]

theorem Prog.Careful.mono {p : Prog S α} {Q' : α → Φ → List (S.DB → S.DB) → Prop}
    (h : p.Careful O P Q φ ω) (hQ : ∀ a φ ω, Q a φ ω → Q' a φ ω) : p.Careful O P Q' φ ω := by
  induction p generalizing φ ω with
  | ret a => exact hQ a φ ω h
  | throw e => exact h
  | lock k next ih => exact ih h
  | query next ih => exact fun db => ih _ (h db)
  | exec rows write next ih => exact fun db => ih _ (h db)
  | commit ev next ih => exact ⟨h.1, ih h.2⟩
  | call ev f next ih => exact ⟨h.1, fun w => ih w (h.2 w)⟩

theorem Prog.Careful.follows {p : Prog S α} (h : p.Careful O P Q φ ω) : p.Follows O Q φ ω := by
  induction p generalizing φ ω with
  | ret a => exact h
  | throw e => trivial
  | lock k next ih => exact ih h
  | query next ih => exact fun db => ih _ (h db)
  | exec rows write next ih => exact fun db => ih _ (h db)
  | commit ev next ih => exact ⟨h.1, ih h.2⟩
  | call ev f next ih => exact ⟨h.1, fun w => ih w (h.2 w)⟩

section Statements

@[simp] theorem careful_ret (a : α) : (Prog.ret a : Prog S α).Careful O P Q φ ω = Q a φ ω := rfl

@[simp] theorem careful_pure (a : α) : (pure a : Prog S α).Careful O P Q φ ω = Q a φ ω := rfl

theorem careful_lift {x : Except S.Error α} (hP : ∀ e, x = .error e → P e φ)
    (h : ∀ a, x = .ok a → Q a φ ω) : (lift x : Prog S α).Careful O P Q φ ω := by
  cases x with
  | ok a => exact h a rfl
  | error e => exact hP e rfl

@[simp] theorem careful_select (f : S.DB → α) : (select f : Prog S α).Careful O P Q φ ω =
    ∀ db, Q (f (view ω db)) (O.see φ db) ω := rfl

@[simp] theorem careful_write (rows : List S.Key) (f : S.DB → S.DB)
    (Q : Unit → Φ → List (S.DB → S.DB) → Prop) : (write rows f : Prog S Unit).Careful O P Q φ ω =
      (∀ db, Q () (O.see φ db) (ω ++ [f])) := rfl

@[simp] theorem careful_updateWhere (row : S.Key) (cond : S.DB → Bool) (f : S.DB → S.DB)
    (Q : Bool → Φ → List (S.DB → S.DB) → Prop) :
    (updateWhere row cond f : Prog S Bool).Careful O P Q φ ω =
      ∀ db, Q (cond (view ω db)) (O.see φ db) (ω ++ [if cond (view ω db) then f else id]) := rfl

/-- A conditional update, whether it finds its row or not. -/
theorem careful_updateEither (row : S.Key) (cond : S.DB → Bool) (f : S.DB → S.DB)
    {Q : Bool → Φ → List (S.DB → S.DB) → Prop}
    (h : ∀ db updated, Q updated (O.see φ db) (ω ++ [if updated then f else id])) :
    (updateWhere row cond f : Prog S Bool).Careful O P Q φ ω := by
  intro db
  exact h db (cond (view ω db))

theorem careful_insertUnique (rows : List S.Key) (taken : S.DB → Bool) (e : S.Error)
    (f : S.DB → S.DB) {Q : Unit → Φ → List (S.DB → S.DB) → Prop}
    (hP : ∀ db, taken (view ω db) = true → P e (O.see φ db))
    (h : ∀ db, taken (view ω db) = false → Q () (O.see φ db) (ω ++ [f])) :
    (insertUnique rows taken e f : Prog S Unit).Careful O P Q φ ω := by
  intro db
  cases ht : taken (view ω db) with
  | true => simpa [ht, Prog.Careful] using hP db ht
  | false => simpa [ht, Prog.Careful] using h db ht

@[simp] theorem careful_commit (ev : S.Event) (Q : Unit → Φ → List (S.DB → S.DB) → Prop) :
    (commit ev : Prog S Unit).Careful O P Q φ ω = (O.allows φ ev ∧ Q () (O.act φ ev) []) := rfl

@[simp] theorem careful_call (ev : S.Event) (f : S.World → S.World) (out : S.World → α) :
    (call ev f out : Prog S α).Careful O P Q φ ω =
      (O.allows φ ev ∧ ∀ w, Q (out w) (O.act φ ev) ω) := rfl

/-- A loop, with what holds between its rounds. -/
theorem careful_forEach {I : Φ → List (S.DB → S.DB) → Prop} {l : List β}
    {body : β → Prog S Unit}
    (h : ∀ x ∈ l, ∀ φ ω, I φ ω → (body x).Careful O P (fun _ => I) φ ω) (hI : I φ ω) :
    (forEach l body).Careful O P (fun _ => I) φ ω := by
  induction l generalizing φ ω with
  | nil => exact hI
  | cons x xs ih =>
    simp only [forEach, Prog.bind_eq, careful_bind]
    refine (h x (List.mem_cons_self ..) φ ω hI).mono fun _ φ' ω' hI' => ?_
    exact ih (fun y hy => h y (List.mem_cons_of_mem _ hy)) hI'

end Statements

/-! ## Programs that only look -/

/-- Nothing is written, and the calls satisfy `E`. -/
def Prog.Looks (E : S.Event → Prop) : Prog S α → Prop
  | .ret _ => True
  | .throw _ => True
  | .lock _ next => next.Looks E
  | .query next => ∀ v, (next v).Looks E
  | .exec _ _ _ => False
  | .commit _ _ => False
  | .call ev _ next => E ev ∧ ∀ w, (next w).Looks E

section Looks

variable {E : S.Event → Prop}

theorem Prog.Looks.bind {p : Prog S α} {f : α → Prog S β} (hp : p.Looks E)
    (hf : ∀ a, (f a).Looks E) : (p.bind f).Looks E := by
  induction p with
  | ret a => exact hf a
  | throw e => trivial
  | lock k next ih => exact ih hp
  | query next ih => exact fun v => ih v (hp v)
  | exec rows write next => exact hp.elim
  | commit ev next => exact hp.elim
  | call ev f next ih => exact ⟨hp.1, fun w => ih w (hp.2 w)⟩

theorem looks_ret (a : α) : (Prog.ret a : Prog S α).Looks E := trivial

theorem looks_lift (x : Except S.Error α) : (lift x : Prog S α).Looks E := by
  cases x <;> trivial

theorem looks_select (f : S.DB → α) : (select f : Prog S α).Looks E := fun _ => trivial

theorem looks_call {ev : S.Event} (h : E ev) (f : S.World → S.World) (out : S.World → α) :
    (call ev f out : Prog S α).Looks E := ⟨h, fun _ => trivial⟩

/-- What looking keeps holds after it, and where it throws. -/
theorem Prog.Looks.careful {I : Φ → Prop} {p : Prog S α} (h : p.Looks E)
    (hsee : ∀ φ db, I φ → I (O.see φ db))
    (hact : ∀ φ ev, E ev → I φ → O.allows φ ev ∧ I (O.act φ ev))
    (hP : ∀ e φ, I φ → P e φ) (hI : I φ) :
    p.Careful O P (fun _ φ ω' => I φ ∧ ω' = ω) φ ω := by
  induction p generalizing φ with
  | ret a => exact ⟨hI, rfl⟩
  | throw e => exact hP e φ hI
  | lock k next ih => exact ih h hI
  | query next ih => exact fun db => ih _ (h _) (hsee φ db hI)
  | exec rows write next => exact h.elim
  | commit ev next => exact h.elim
  | call ev f next ih =>
    obtain ⟨hallows, hnext⟩ := hact φ ev h.1 hI
    exact ⟨hallows, fun w => ih w (h.2 w) hnext⟩

end Looks

/-! ## Runs -/

variable [DecidableEq S.Key] {Ops : Prog S Unit → Prop}
  {cond : (Nat → Φ) → State S → Move S → Prop} {s₀ s₁ s s' : State S} {φ₁ φ : Nat → Φ}

/-- The observed runs that go on from `s₁`. -/
inductive Continued (O : Observer S Φ) (Ops : Prog S Unit → Prop)
    (cond : (Nat → Φ) → State S → Move S → Prop) (φ₁ : Nat → Φ) (s₁ : State S) :
    (Nat → Φ) → State S → Prop where
  | refl : Continued O Ops cond φ₁ s₁ φ₁ s₁
  | step {φ : Nat → Φ} {s s' : State S} (m : Move S) (h : Continued O Ops cond φ₁ s₁ φ s)
      (hm : s.Admits Ops (fun _ _ => True) m) (hc : cond φ s m) (hf : s.fire m = some s') :
      Continued O Ops cond φ₁ s₁ (O.after s φ m) s'

theorem Watched.continued (h₁ : Watched O Ops cond s₀ φ₁ s₁)
    (h : Continued O Ops cond φ₁ s₁ φ s) : Watched O Ops cond s₀ φ s := by
  induction h with
  | refl => exact h₁
  | step m _ hm hc hf ih => exact ih.step m hm hc hf

/-- An observed run goes on from its start. -/
theorem Watched.from_start (h : Watched O Ops cond s₀ φ s) :
    Continued O Ops cond (fun _ => O.start) s₀ φ s := by
  induction h with
  | refl => exact .refl
  | step m _ hm hc hf ih => exact ih.step m hm hc hf

/-- **What every step of an observed run keeps holds from then on.** -/
theorem Continued.keeps {P : (Nat → Φ) → State S → Prop} (h₁ : Watched O Ops cond s₀ φ₁ s₁)
    (hstep : ∀ φ s m s', Watched O Ops cond s₀ φ s → s.Admits Ops (fun _ _ => True) m →
      cond φ s m → s.fire m = some s' → P φ s → P (O.after s φ m) s')
    (hP : P φ₁ s₁) (h : Continued O Ops cond φ₁ s₁ φ s) : P φ s := by
  induction h with
  | refl => exact hP
  | step m h hm hc hf ih => exact hstep _ _ m _ (h₁.continued h) hm hc hf ih

/-- Where there is no client there is nothing to see. -/
theorem Watched.start_of_length_le (h : Watched O Ops cond s₀ φ s) {i : Nat}
    (hi : s.threads.length ≤ i) : φ i = O.start := by
  induction h with
  | refl => rfl
  | @step φ s s' m h hm hc hf ih =>
    cases m with
    | start p =>
      simp only [State.fire, Option.some.injEq] at hf
      subst hf
      simp only [List.length_append, List.length_singleton] at hi
      simp only [Observer.after, Function.update_of_ne (Nat.ne_of_gt hi)]
      exact ih (by omega)
    | crash j =>
      simp only [State.fire, Option.some.injEq] at hf
      subst hf
      simp only [Observer.after, Function.update_apply]
      split
      · rfl
      · exact ih (by simpa [State.setThread] using hi)
    | run j =>
      have hlt : j < s.threads.length := by
        refine State.lt_of_prog_ne fun a hp => ?_
        simp [State.fire, State.advance, hp] at hf
      rw [State.length_of_advance hf] at hi
      simp only [Observer.after, Function.update_of_ne (Nat.ne_of_gt (Nat.lt_of_lt_of_le hlt hi))]
      exact ih hi

omit [DecidableEq S.Key] in
theorem Observer.after_of_event {i : Nat} {ev : S.Event} (h : s.event i = some ev) :
    O.after s φ (.run i) = Function.update φ i (O.act (φ i) ev) := by
  simp only [Observer.after, Observer.node_of_event h]

omit [DecidableEq S.Key] in
/-- What a node makes of a careful client: it goes on so, or it has thrown. -/
theorem Thread.Next.careful {i : Nat} {Q : Unit → Φ → List (S.DB → S.DB) → Prop} {φ : Φ}
    {t : Thread S} (hn : (s.thread i).Next s t)
    (h : (s.thread i).prog.Careful O P Q φ (s.thread i).writes) :
    t.prog.Careful O P Q (O.node s i φ) t.writes ∨
      t = Thread.done ∧ ∃ e, (s.thread i).prog = .throw e ∧ P e φ := by
  unfold Observer.node
  cases hn with
  | throw hp =>
    rw [hp] at h
    exact Or.inr ⟨rfl, _, hp, h⟩
  | lock hp =>
    rw [hp] at h ⊢
    exact Or.inl h
  | query hp | exec hp =>
    rw [hp] at h ⊢
    exact Or.inl (h s.db)
  | commit hp =>
    rw [hp] at h ⊢
    exact Or.inl h.2
  | call hp =>
    rw [hp] at h ⊢
    exact Or.inl (h.2 s.world)

omit [DecidableEq S.Key] in
/-- A careful client makes only events that are allowed. -/
theorem careful_event {i : Nat} {Q : Unit → Φ → List (S.DB → S.DB) → Prop} {φ : Φ} {ev : S.Event}
    (h : (s.thread i).prog.Careful O P Q φ ω) (hev : s.event i = some ev) : O.allows φ ev := by
  unfold State.event at hev
  split at hev
  · rename_i hp
    cases hev
    rw [hp] at h
    exact h.1
  · rename_i hp
    cases hev
    rw [hp] at h
    exact h.1
  · cases hev

omit [DecidableEq S.Key] in
/-- Between its events a client may look at the database. -/
theorem Observer.node_of_event_none {i : Nat} {φ : Φ} (hev : s.event i = none)
    (hthrow : ∀ e, (s.thread i).prog ≠ .throw e) :
    O.node s i φ = φ ∨ O.node s i φ = O.see φ s.db := by
  unfold State.event at hev
  unfold Observer.node
  cases hp : (s.thread i).prog with
  | ret a | lock k next => exact Or.inl rfl
  | query next | exec rows write next => exact Or.inr rfl
  | throw e => exact absurd hp (hthrow e)
  | commit ev next | call ev f next =>
    rw [hp] at hev
    cases hev

/-- **Every client of an observed run is careful.** -/
theorem Watched.careful (hOps : ∀ p, Ops p → p.Careful O P (fun _ _ _ => True) O.start [])
    (h₀ : s₀.threads = []) (h : Watched O Ops cond s₀ φ s) (i : Nat) :
    (s.thread i).prog.Careful O P (fun _ _ _ => True) (φ i) (s.thread i).writes := by
  induction h generalizing i with
  | refl =>
    have hdone : s₀.thread i = Thread.done := by simp [State.thread, h₀]
    rw [hdone]
    trivial
  | @step φ s s' m h hm hc hf ih =>
    cases m with
    | start p =>
      simp only [State.fire, Option.some.injEq] at hf
      subst hf
      simp only [Observer.after, Function.update_apply, State.thread, List.getD_eq_getElem?_getD]
        at ih ⊢
      rcases Nat.lt_trichotomy i s.threads.length with hlt | heq | hgt
      · rw [if_neg (Nat.ne_of_lt hlt), List.getElem?_append_left hlt]
        exact ih i
      · subst heq
        rw [if_pos rfl, List.getElem?_append_right (Nat.le_refl _), Nat.sub_self]
        exact hOps p hm
      · rw [List.getElem?_eq_none (by simp; omega)]
        trivial
    | crash j =>
      simp only [State.fire, Option.some.injEq] at hf
      subst hf
      rw [State.thread_setThread]
      simp only [Observer.after, Function.update_apply]
      by_cases hij : i = j
      · subst hij
        by_cases hlt : i < s.threads.length
        · rw [if_pos ⟨rfl, hlt⟩]
          trivial
        · rw [if_neg fun hand => hlt hand.2, State.thread_of_length_le (Nat.le_of_not_lt hlt)]
          trivial
      · rw [if_neg fun hand => hij hand.1.symm, if_neg hij]
        exact ih i
    | run j =>
      by_cases hij : j = i
      · subst hij
        simp only [Observer.after, Function.update_self]
        rcases (next_of_advance hf).careful (ih j) with hnext | ⟨hdone, -⟩
        · exact hnext
        · rw [hdone]
          trivial
      · simp only [Observer.after, Function.update_of_ne (Ne.symm hij)]
        rw [State.thread_of_advance hf hij]
        exact ih i

/-- Where the observer heeds events only, and clients throw only at the start value, nothing but
an event changes the value beside a client. -/
theorem Watched.after_of_event_none
    (hOps : ∀ p, Ops p → p.Careful O (fun _ φ => φ = O.start) (fun _ _ _ => True) O.start [])
    (hsee : ∀ φ db, O.see φ db = φ) (h₀ : s₀.threads = []) (h : Watched O Ops cond s₀ φ s)
    {i : Nat} (hev : s.event i = none) : O.after s φ (.run i) = φ := by
  have hcareful := h.careful hOps h₀ i
  have hnode : O.node s i (φ i) = φ i := by
    unfold State.event at hev
    unfold Observer.node
    cases hp : (s.thread i).prog with
    | ret a | lock k next => rfl
    | query next | exec rows write next => exact hsee _ _
    | throw e =>
      rw [hp] at hcareful
      exact Eq.symm hcareful
    | commit ev next | call ev f next =>
      rw [hp] at hev
      cases hev
  simp only [Observer.after, hnode, Function.update_eq_self]

theorem Watched.allows (hOps : ∀ p, Ops p → p.Careful O P (fun _ _ _ => True) O.start [])
    (h₀ : s₀.threads = []) (h : Watched O Ops cond s₀ φ s) {i : Nat} {ev : S.Event}
    (hev : s.event i = some ev) : O.allows (φ i) ev := by
  exact careful_event (h.careful hOps h₀ i) hev

/-! ## Schedules -/

variable [∀ φ s m, Decidable (cond φ s m)]

/-- A move is made where it is enabled and `cond` holds. -/
def Observer.attempt (O : Observer S Φ) (cond : (Nat → Φ) → State S → Move S → Prop)
    [∀ φ s m, Decidable (cond φ s m)] (w : (Nat → Φ) × State S) (m : Move S) :
    (Nat → Φ) × State S :=
  if cond w.1 w.2 m then ((w.2.fire m).map fun s' => (O.after w.2 w.1 m, s')).getD w else w

/-- **A schedule whose moves are checked is an observed run.** -/
theorem Continued.attempts {moves : List (Move S)}
    (hmoves : ∀ p, .start p ∈ moves → Ops p) (h : Continued O Ops cond φ₁ s₁ φ s) :
    Continued O Ops cond φ₁ s₁ (moves.foldl (O.attempt cond) (φ, s)).1
      (moves.foldl (O.attempt cond) (φ, s)).2 := by
  induction moves generalizing φ s with
  | nil => exact h
  | cons m ms ih =>
    have hms : ∀ p, .start p ∈ ms → Ops p := fun p hp => hmoves p (List.mem_cons_of_mem _ hp)
    have hadmits : s.Admits Ops (fun _ _ => True) m := by
      cases m with
      | start p => exact hmoves p (List.mem_cons_self ..)
      | run i => exact fun _ _ => trivial
      | crash i => trivial
    rw [List.foldl_cons]
    have hattempt : Continued O Ops cond φ₁ s₁ (O.attempt cond (φ, s) m).1
        (O.attempt cond (φ, s) m).2 := by
      simp only [Observer.attempt]
      split
      · rename_i hc
        cases hf : s.fire m with
        | none => exact h
        | some s' => exact h.step m hadmits hc hf
      · exact h
    exact ih hms hattempt

end Transactions
