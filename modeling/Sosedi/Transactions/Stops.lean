import Sosedi.Transactions.Program

/-!
# Programs that stop half-way

With no other client present, `Prog.Returns` describes what a client returns and leaves, and
`Prog.Stops` what it leaves when it throws or is killed.

Proved here: what the statements of a program need to go on (`returns_lift`, ..), and that a
program whose only commit is its last node leaves the database as it was when it stops
(`Stops.db_eq`).
-/

namespace Transactions

variable {S : Signature} {α β : Type}

namespace Prog

/-- The client returns `b` and leaves `σ'`. -/
def Returns (p : Prog S β) (ω : List (S.DB → S.DB)) (σ : S.DB × S.World) (b : β)
    (σ' : S.DB × S.World) : Prop :=
  p.alone ω σ = (.ok b, σ')

/-- The client throws, or is killed before one of its nodes, and leaves `σ'`. -/
def Stops : Prog S α → List (S.DB → S.DB) → S.DB × S.World → S.DB × S.World → Prop
  | .ret _, _, _, _ => False
  | .throw _, _, σ, σ' => σ' = σ
  | .lock _ next, ω, σ, σ' => σ' = σ ∨ next.Stops ω σ σ'
  | .query next, ω, σ, σ' => σ' = σ ∨ (next (view ω σ.1)).Stops ω σ σ'
  | .exec _ write next, ω, σ, σ' =>
    σ' = σ ∨ (next (view ω σ.1)).Stops (ω ++ [write (view ω σ.1)]) σ σ'
  | .commit _ next, ω, σ, σ' => σ' = σ ∨ next.Stops [] (view ω σ.1, σ.2) σ'
  | .call _ f next, ω, σ, σ' => σ' = σ ∨ (next σ.2).Stops ω (σ.1, f σ.2) σ'

/-- Nothing is committed. -/
def Uncommitted : Prog S α → Prop
  | .ret _ => True
  | .throw _ => True
  | .lock _ next => next.Uncommitted
  | .query next => ∀ v, (next v).Uncommitted
  | .exec _ _ next => ∀ v, (next v).Uncommitted
  | .commit _ _ => False
  | .call _ _ next => ∀ w, (next w).Uncommitted

/-- The program returns after a commit. -/
def EndsInCommit : Prog S α → Prop
  | .ret _ => True
  | .throw _ => True
  | .lock _ next => next.EndsInCommit
  | .query next => ∀ v, (next v).EndsInCommit
  | .exec _ _ next => ∀ v, (next v).EndsInCommit
  | .commit _ next => ∃ a, next = .ret a
  | .call _ _ next => ∀ w, (next w).EndsInCommit

variable {p : Prog S α} {f : α → Prog S β} {b : β} {ω : List (S.DB → S.DB)}
  {σ σ' : S.DB × S.World}

/-! ## Returning -/

theorem returns_of_isSome {q : Prog S β} (h : (q.alone ω σ).1.toOption.isSome) :
    ∃ b, q.Returns ω σ b (q.alone ω σ).2 := by
  cases hr : (q.alone ω σ).1 with
  | error e =>
    rw [hr] at h
    cases h
  | ok b => exact ⟨b, Prod.ext hr rfl⟩

theorem Returns.toOption {q : Prog S β} (h : q.Returns ω σ b σ') :
    (q.alone ω σ).1.toOption = some b := by
  rw [show q.alone ω σ = (.ok b, σ') from h]
  rfl

@[simp] theorem returns_ret {b' : β} :
    (.ret b' : Prog S β).Returns ω σ b σ' ↔ b = b' ∧ σ' = σ := by
  simp only [Returns, alone_ret, Prod.mk.injEq, Except.ok.injEq]
  constructor
  · rintro ⟨rfl, rfl⟩
    exact ⟨rfl, rfl⟩
  · rintro ⟨rfl, rfl⟩
    exact ⟨rfl, rfl⟩

/-- A check that lets the program go on. -/
@[simp] theorem returns_lift {x : Except S.Error α} :
    ((lift x).bind f).Returns ω σ b σ' ↔ ∃ a, x = .ok a ∧ (f a).Returns ω σ b σ' := by
  cases x with
  | error e => simp [Returns, lift, Prog.bind, Prog.alone]
  | ok a => simp [lift]

@[simp] theorem returns_select {g : S.DB → α} :
    ((select g).bind f).Returns ω σ b σ' ↔ (f (g (view ω σ.1))).Returns ω σ b σ' := Iff.rfl

@[simp] theorem returns_call {ev : S.Event} {g : S.World → S.World} {out : S.World → α} :
    ((Transactions.call ev g out).bind f).Returns ω σ b σ' ↔
      (f (out σ.2)).Returns ω (σ.1, g σ.2) b σ' := Iff.rfl

/-! ## Stopping -/

/-- **Nothing half-way is committed.** -/
theorem Stops.db_eq (hp : p.EndsInCommit) (h : p.Stops ω σ σ') : σ'.1 = σ.1 := by
  induction p generalizing ω σ with
  | ret a => exact h.elim
  | throw e => rw [show σ' = σ from h]
  | lock k next ih =>
    rcases h with rfl | h
    · rfl
    · exact ih hp h
  | query next ih =>
    rcases h with rfl | h
    · rfl
    · exact ih _ (hp _) h
  | exec rows write next ih =>
    rcases h with rfl | h
    · rfl
    · exact ih _ (hp _) h
  | commit ev next ih =>
    obtain ⟨a, rfl⟩ := hp
    rcases h with rfl | h
    · rfl
    · exact h.elim
  | call ev f next ih =>
    rcases h with rfl | h
    · rfl
    · exact ih σ.2 (σ := (σ.1, f σ.2)) (hp _) h

/-- A program that throws stops there. -/
theorem stops_of_throw (h : (p.alone ω σ).1.toOption.isNone) :
    p.Stops ω σ (p.alone ω σ).2 := by
  induction p generalizing ω σ with
  | ret a => cases h
  | throw e => exact rfl
  | lock k next ih => exact Or.inr (ih h)
  | query next ih => exact Or.inr (ih _ h)
  | exec rows write next ih => exact Or.inr (ih _ h)
  | commit ev next ih => exact Or.inr (ih h)
  | call ev f next ih => exact Or.inr (ih _ h)

theorem Uncommitted.bind (hp : p.Uncommitted) (hf : ∀ a, (f a).Uncommitted) :
    (p.bind f).Uncommitted := by
  induction p with
  | ret a => exact hf a
  | throw e => trivial
  | lock k next ih => exact ih hp
  | query next ih => exact fun v => ih v (hp v)
  | exec rows write next ih => exact fun v => ih v (hp v)
  | commit ev next => exact hp.elim
  | call ev g next ih => exact fun w => ih w (hp w)

theorem EndsInCommit.bind (hp : p.Uncommitted) (hf : ∀ a, (f a).EndsInCommit) :
    (p.bind f).EndsInCommit := by
  induction p with
  | ret a => exact hf a
  | throw e => trivial
  | lock k next ih => exact ih hp
  | query next ih => exact fun v => ih v (hp v)
  | exec rows write next ih => exact fun v => ih v (hp v)
  | commit ev next => exact hp.elim
  | call ev g next ih => exact fun w => ih w (hp w)

/-- The answer is dropped. -/
theorem EndsInCommit.discard (h : p.EndsInCommit) :
    (p.bind fun _ => (.ret () : Prog S Unit)).EndsInCommit := by
  induction p with
  | ret a => trivial
  | throw e => trivial
  | lock k next ih => exact ih h
  | query next ih => exact fun v => ih v (h v)
  | exec rows write next ih => exact fun v => ih v (h v)
  | commit ev next =>
    obtain ⟨a, rfl⟩ := h
    exact ⟨(), rfl⟩
  | call ev g next ih => exact fun w => ih w (h w)

theorem uncommitted_ret (a : α) : (.ret a : Prog S α).Uncommitted := trivial

theorem uncommitted_lift (x : Except S.Error α) : (lift x : Prog S α).Uncommitted := by
  cases x <;> trivial

theorem uncommitted_acquire (k : S.Key) : (acquire k).Uncommitted := trivial

theorem uncommitted_select (f : S.DB → α) : (select f : Prog S α).Uncommitted := fun _ => trivial

theorem uncommitted_write (rows : List S.Key) (f : S.DB → S.DB) : (write rows f).Uncommitted :=
  fun _ => trivial

theorem uncommitted_updateWhere (row : S.Key) (cond : S.DB → Bool) (f : S.DB → S.DB) :
    (updateWhere row cond f).Uncommitted := fun _ => trivial

theorem uncommitted_call (ev : S.Event) (f : S.World → S.World) (out : S.World → α) :
    (Transactions.call ev f out).Uncommitted := fun _ => trivial

theorem uncommitted_insertUnique (rows : List S.Key) (taken : S.DB → Bool) (e : S.Error)
    (f : S.DB → S.DB) : (insertUnique rows taken e f).Uncommitted := by
  intro v
  show (if taken v then (.throw e : Prog S Unit) else .ret ()).Uncommitted
  split <;> trivial

theorem uncommitted_when {c : Bool} {p : Prog S Unit} (h : p.Uncommitted) :
    (when c p).Uncommitted := by
  cases c with
  | true => exact h
  | false => trivial

theorem uncommitted_forEach {l : List β} {body : β → Prog S Unit}
    (h : ∀ b, (body b).Uncommitted) : (forEach l body).Uncommitted := by
  induction l with
  | nil => trivial
  | cons b l ih => exact (h b).bind fun _ => ih

theorem endsInCommit_commit (ev : S.Event) (a : α) :
    ((Transactions.commit ev).bind fun _ => (.ret a : Prog S α)).EndsInCommit := ⟨a, rfl⟩

end Prog

end Transactions
