import Sosedi.Transactions.Program

/-!
# What a client throws when it runs alone

`Raises E p ω σ` says that `p`, run alone from the store `σ` with uncommitted writes `ω`, throws
errors of `E` only.  The lemmas follow the statements of a program.
-/

namespace Transactions

variable {S : Signature} {α β ε : Type}

/-- A computation outside the database that fails with errors of `E` only. -/
def FailsWith (E : ε → Prop) (x : Except ε α) : Prop := ∀ e, x = .error e → E e

theorem failsWith_ok {E : ε → Prop} (a : α) : FailsWith E (.ok a) := by
  intro e h
  cases h

theorem failsWith_bind {E : ε → Prop} {x : Except ε α} {f : α → Except ε β}
    (hx : FailsWith E x) (hf : ∀ a, FailsWith E (f a)) : FailsWith E (x >>= f) := by
  cases x with
  | error e => exact fun e' h => hx e' (by cases h; rfl)
  | ok a => exact hf a

/-- Run alone, `p` throws errors of `E` only. -/
def Raises (E : S.Error → Prop) (p : Prog S α) (ω : List (S.DB → S.DB)) (σ : S.DB × S.World) :
    Prop :=
  ∀ e, (p.alone ω σ).1 = .error e → E e

variable {E : S.Error → Prop} {ω : List (S.DB → S.DB)} {σ : S.DB × S.World}

@[simp] theorem raises_ret (a : α) : Raises E (.ret a) ω σ := by
  intro e h
  cases h

@[simp] theorem raises_throw (e : S.Error) : Raises E (.throw e : Prog S α) ω σ ↔ E e := by
  constructor
  · intro h
    exact h e rfl
  · intro he e' h
    cases h
    exact he

theorem raises_lift {x : Except S.Error α} {f : α → Prog S β} (hx : FailsWith E x)
    (hf : ∀ a, x = .ok a → Raises E (f a) ω σ) : Raises E ((lift x).bind f) ω σ := by
  cases x with
  | error e => exact (raises_throw e).mpr (hx e rfl)
  | ok a => exact hf a rfl

@[simp] theorem raises_acquire (k : S.Key) (f : Unit → Prog S β) :
    Raises E ((acquire k).bind f) ω σ ↔ Raises E (f ()) ω σ := Iff.rfl

@[simp] theorem raises_select (g : S.DB → α) (f : α → Prog S β) :
    Raises E ((select g).bind f) ω σ ↔ Raises E (f (g (view ω σ.1))) ω σ := Iff.rfl

@[simp] theorem raises_write (rows : List S.Key) (g : S.DB → S.DB) (f : Unit → Prog S β) :
    Raises E ((write rows g).bind f) ω σ ↔ Raises E (f ()) (ω ++ [g]) σ := Iff.rfl

@[simp] theorem raises_commit (ev : S.Event) (f : Unit → Prog S β) :
    Raises E ((commit ev).bind f) ω σ ↔ Raises E (f ()) [] (view ω σ.1, σ.2) := Iff.rfl

theorem raises_insertUnique {rows : List S.Key} {taken : S.DB → Bool} {e : S.Error}
    {g : S.DB → S.DB} {f : Unit → Prog S β} (he : E e) (hf : Raises E (f ()) (ω ++ [g]) σ) :
    Raises E ((insertUnique rows taken e g).bind f) ω σ := by
  cases htaken : taken (view ω σ.1) with
  | true =>
    intro e' h
    simp only [insertUnique, Prog.bind, Prog.alone, htaken, if_true] at h
    cases h
    exact he
  | false =>
    rw [Raises, Prog.alone_insertUnique htaken]
    exact hf

end Transactions
