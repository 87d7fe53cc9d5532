import Mathlib.Logic.Relation
import Mathlib.Tactic.Common
import Sosedi.Transactions.Interleaving

/-!
# Rely and guarantee for interleaved clients

A `Contract` says what one committed transaction, or one outside call, may do to the
store when its client holds given locks (`guar`), which events a run admits (`ok`), and
what holds of the store between steps (`inv`).  The interference that a client suffers
while it holds `L` is any sequence of such steps by clients whose locks are disjoint from
`L`.  `wp` runs a program against that interference.

Proved here:

* `wp_stable`: what `wp` asserts survives interference;
* `wp_bind`, `Safe.bind`, `Safe.forEach`: how proofs of programs compose;
* `sound`: if every client keeps to the contract, then in every reachable state locks are exclusive
  and every commit and call of a run is a step that the contract allows;
* `reaches_inv`: an invariant of the allowed steps holds in every reachable state;
* `reaches_run`: on the store, a run of the clients is a run of atomic steps.
-/

namespace Transactions

variable {S : Signature} {α β : Type}

structure Contract (S : Signature) where
  inv : S.DB × S.World → Prop
  ok : S.Event → S.DB × S.World → Prop
  guar : S.Event → List S.Key → S.DB × S.World → S.DB × S.World → Prop

namespace Contract

variable (C : Contract S)

/-- One admitted atomic step by a client that holds the locks `K`. -/
def Step (K : List S.Key) (a b : S.DB × S.World) : Prop :=
  C.inv a ∧ ∃ ev, C.ok ev a ∧ C.guar ev K a b

/-- One step by a client whose locks are not in `L`. -/
def Other (L : List S.Key) (a b : S.DB × S.World) : Prop :=
  ∃ K, (∀ k ∈ K, k ∉ L) ∧ C.Step K a b

/-- What others may do to the store while a client holds `L`. -/
def Interference (L : List S.Key) : S.DB × S.World → S.DB × S.World → Prop :=
  Relation.ReflTransGen (C.Other L)

/-- Runs of atomic steps. -/
def Run : S.DB × S.World → S.DB × S.World → Prop :=
  Relation.ReflTransGen fun a b => ∃ K, C.Step K a b

end Contract

variable {C : Contract S} {L : List S.Key} {a b c : S.DB × S.World}

theorem interference_refl : C.Interference L a a := Relation.ReflTransGen.refl

theorem interference_trans (h : C.Interference L a b) (h' : C.Interference L b c) :
    C.Interference L a c := Relation.ReflTransGen.trans h h'

/-- An assertion that one foreign step keeps is kept by interference. -/
theorem interference_keeps {P : S.DB × S.World → Prop}
    (hP : ∀ a b, C.Other L a b → P a → P b) (h : C.Interference L a b) (ha : P a) : P b := by
  induction h with
  | refl => exact ha
  | tail _ hs ih => exact hP _ _ hs ih

/-- A reflexive and transitive relation that one foreign step satisfies holds across
interference. -/
theorem interference_rel {R : S.DB × S.World → S.DB × S.World → Prop} (hrefl : ∀ a, R a a)
    (htrans : ∀ a b c, R a b → R b c → R a c) (hR : ∀ a b, C.Other L a b → R a b)
    (h : C.Interference L a b) : R a b := by
  induction h with
  | refl => exact hrefl _
  | tail _ hs ih => exact htrans _ _ _ ih (hR _ _ hs)

/-- More locks leave less to the others. -/
theorem interference_mono {L' : List S.Key} (hL : ∀ k ∈ L, k ∈ L')
    (h : C.Interference L' a b) : C.Interference L a b := by
  have hmono : ∀ a b, C.Other L' a b → C.Other L a b := by
    rintro a b ⟨K, hK, hs⟩
    exact ⟨K, fun k hk hk' => hK k hk (hL k hk'), hs⟩
  exact Relation.ReflTransGen.mono hmono a b h

/-- `P` holds now, and as long as the client holds `L`. -/
def Always (C : Contract S) (L : List S.Key) (P : S.DB × S.World → Prop) (σ : S.DB × S.World) :
    Prop :=
  ∀ σ', C.Interference L σ σ' → P σ'

namespace Always

variable {P P' : S.DB × S.World → Prop}

theorem now (h : Always C L P a) : P a := h a interference_refl

theorem later (h : Always C L P a) (hi : C.Interference L a b) : Always C L P b :=
  fun c hc => h c (interference_trans hi hc)

theorem grow {L' : List S.Key} (h : Always C L P a) (hL : ∀ k ∈ L, k ∈ L') : Always C L' P a :=
  fun b hb => h b (interference_mono hL hb)

theorem imp (h : Always C L P a) (himp : ∀ σ, P σ → P' σ) : Always C L P' a :=
  fun b hb => himp b (h b hb)

/-- An assertion that foreign steps keep, where another one holds already. -/
theorem and_keeps (h : Always C L P a) (hP' : P' a)
    (hkeeps : ∀ a b, C.Other L a b → P a → P' a → P' b) :
    Always C L (fun σ => P σ ∧ P' σ) a := by
  intro b hb
  refine ⟨h b hb, ?_⟩
  have hboth : Always C L P b ∧ P' b := by
    refine interference_keeps (P := fun c => Always C L P c ∧ P' c) ?_ hb ⟨h, hP'⟩
    rintro c d hs ⟨hc, hc'⟩
    exact ⟨hc.later (Relation.ReflTransGen.single hs), hkeeps c d hs hc.now hc'⟩
  exact hboth.2

theorem of_keeps (ha : P a) (hkeeps : ∀ a b, C.Other L a b → P a → P b) : Always C L P a :=
  fun _ hb => interference_keeps hkeeps hb ha

end Always

/-! ## Weakest preconditions under interference -/

/-- `wp C p Q L ω σ`: from the store `σ`, holding `L` with uncommitted writes `ω`, every
step that `p` makes is one that `C` allows, and if `p` returns then `Q` holds. -/
def wp (C : Contract S) : Prog S α →
    (α → List S.Key → List (S.DB → S.DB) → S.DB × S.World → Prop) →
    List S.Key → List (S.DB → S.DB) → S.DB × S.World → Prop
  | .ret a, Q, L, ω, σ => Q a L ω σ
  | .throw _, _, _, _, _ => True
  | .lock k next, Q, L, ω, σ =>
    ∀ σ', C.Interference L σ σ' → C.inv σ' → wp C next Q (k :: L) ω σ'
  | .query next, Q, L, ω, σ =>
    ∀ σ', C.Interference L σ σ' → C.inv σ' → wp C (next (view ω σ'.1)) Q L ω σ'
  | .exec rows write next, Q, L, ω, σ =>
    ∀ σ', C.Interference L σ σ' → C.inv σ' → wp C (next (view ω σ'.1)) Q
      (rows (view ω σ'.1) ++ L) (ω ++ [write (view ω σ'.1)]) σ'
  | .commit ev next, Q, L, ω, σ =>
    ∀ σ', C.Interference L σ σ' → C.inv σ' → C.ok ev σ' →
      C.guar ev L σ' (view ω σ'.1, σ'.2) ∧ wp C next Q [] [] (view ω σ'.1, σ'.2)
  | .call ev f next, Q, L, ω, σ =>
    ∀ σ', C.Interference L σ σ' → C.inv σ' → C.ok ev σ' →
      C.guar ev L σ' (σ'.1, f σ'.2) ∧ wp C (next σ'.2) Q L ω (σ'.1, f σ'.2)

variable {Q : α → List S.Key → List (S.DB → S.DB) → S.DB × S.World → Prop}
  {ω : List (S.DB → S.DB)} {σ σ' : S.DB × S.World}

/-- What `wp` asserts before a program starts its next node survives interference. -/
theorem wp_stable (p : Prog S α)
    (hQ : ∀ a L ω σ σ', C.Interference L σ σ' → Q a L ω σ → Q a L ω σ')
    (hi : C.Interference L σ σ') (h : wp C p Q L ω σ) : wp C p Q L ω σ' := by
  cases p with
  | ret a => exact hQ a L ω σ σ' hi h
  | throw e => trivial
  | lock k next => exact fun σ₂ h₂ => h σ₂ (interference_trans hi h₂)
  | query next => exact fun σ₂ h₂ => h σ₂ (interference_trans hi h₂)
  | exec rows write next => exact fun σ₂ h₂ => h σ₂ (interference_trans hi h₂)
  | commit ev next => exact fun σ₂ h₂ => h σ₂ (interference_trans hi h₂)
  | call ev f next => exact fun σ₂ h₂ => h σ₂ (interference_trans hi h₂)

theorem wp_bind (p : Prog S α) (f : α → Prog S β)
    (Q : β → List S.Key → List (S.DB → S.DB) → S.DB × S.World → Prop) :
    wp C (p.bind f) Q L ω σ ↔ wp C p (fun a L ω σ => wp C (f a) Q L ω σ) L ω σ := by
  induction p generalizing L ω σ with
  | ret a => rfl
  | throw e => rfl
  | lock k next ih => simp only [Prog.bind, wp, ih]
  | query next ih => simp only [Prog.bind, wp, ih]
  | exec rows write next ih => simp only [Prog.bind, wp, ih]
  | commit ev next ih => simp only [Prog.bind, wp, ih]
  | call ev f next ih => simp only [Prog.bind, wp, ih]

theorem wp_mono {Q' : α → List S.Key → List (S.DB → S.DB) → S.DB × S.World → Prop}
    (p : Prog S α) (hQ : ∀ a L ω σ, Q a L ω σ → Q' a L ω σ) (h : wp C p Q L ω σ) :
    wp C p Q' L ω σ := by
  induction p generalizing L ω σ with
  | ret a => exact hQ _ _ _ _ h
  | throw e => trivial
  | lock k next ih => exact fun σ' hi hv => ih (h σ' hi hv)
  | query next ih => exact fun σ' hi hv => ih _ (h σ' hi hv)
  | exec rows write next ih => exact fun σ' hi hv => ih _ (h σ' hi hv)
  | commit ev next ih =>
    intro σ' hi hv hok
    obtain ⟨hg, hw⟩ := h σ' hi hv hok
    exact ⟨hg, ih hw⟩
  | call ev f next ih =>
    intro σ' hi hv hok
    obtain ⟨hg, hw⟩ := h σ' hi hv hok
    exact ⟨hg, ih _ hw⟩

/-- A fact that every step keeps, also those of the client itself. -/
def Persists (C : Contract S) (P : S.DB × S.World → Prop) : Prop :=
  ∀ K a b, C.Step K a b → P a → P b

theorem Persists.interference {P : S.DB × S.World → Prop} (hP : Persists C P)
    (hi : C.Interference L a b) (h : P a) : P b :=
  interference_keeps (fun _ _ ⟨_, _, hs⟩ => hP _ _ _ hs) hi h

theorem Persists.keeps {P : S.DB × S.World → Prop} (hP : Persists C P) (a b : S.DB × S.World)
    (h : C.Other L a b) (ha : P a) : P b := by
  obtain ⟨K, -, hs⟩ := h
  exact hP K a b hs ha

theorem Persists.and {P P' : S.DB × S.World → Prop} (hP : Persists C P) (hP' : Persists C P') :
    Persists C fun σ => P σ ∧ P' σ :=
  fun K a b hs h => ⟨hP K a b hs h.1, hP' K a b hs h.2⟩

theorem Persists.forall {ι : Sort*} {P : ι → S.DB × S.World → Prop}
    (hP : ∀ i, Persists C (P i)) : Persists C fun σ => ∀ i, P i σ :=
  fun K a b hs h i => hP i K a b hs (h i)

theorem Persists.const (p : Prop) : Persists C fun _ => p := fun _ _ _ _ h => h

/-- A persistent fact still holds when the program ends. -/
theorem wp_keeps {P : S.DB × S.World → Prop} (hP : Persists C P) (p : Prog S α)
    (h : wp C p Q L ω σ) (hσ : P σ) : wp C p (fun a L ω σ => Q a L ω σ ∧ P σ) L ω σ := by
  induction p generalizing L ω σ with
  | ret a => exact ⟨h, hσ⟩
  | throw e => trivial
  | lock k next ih => exact fun σ' hi hv => ih (h σ' hi hv) (hP.interference hi hσ)
  | query next ih => exact fun σ' hi hv => ih _ (h σ' hi hv) (hP.interference hi hσ)
  | exec rows write next ih => exact fun σ' hi hv => ih _ (h σ' hi hv) (hP.interference hi hσ)
  | commit ev next ih =>
    intro σ' hi hv hok
    obtain ⟨hg, hw⟩ := h σ' hi hv hok
    exact ⟨hg, ih hw (hP _ _ _ ⟨hv, ev, hok, hg⟩ (hP.interference hi hσ))⟩
  | call ev f next ih =>
    intro σ' hi hv hok
    obtain ⟨hg, hw⟩ := h σ' hi hv hok
    exact ⟨hg, ih _ hw (hP _ _ _ ⟨hv, ev, hok, hg⟩ (hP.interference hi hσ))⟩

/-- A contract with fewer runs: what a program keeps of `C` it keeps of `C'`. -/
theorem wp_restrict {C' : Contract S} (hguar : C'.guar = C.guar)
    (hinv : ∀ σ, C'.inv σ → C.inv σ) (hok : ∀ ev σ, C'.ok ev σ → C.ok ev σ)
    (p : Prog S α) (h : wp C p Q L ω σ) : wp C' p Q L ω σ := by
  have hi : ∀ {L σ σ'}, C'.Interference L σ σ' → C.Interference L σ σ' := by
    intro L σ σ' h'
    refine Relation.ReflTransGen.mono ?_ _ _ h'
    rintro a b ⟨K, hK, hv, ev, hev, hg⟩
    exact ⟨K, hK, hinv a hv, ev, hok ev a hev, hguar ▸ hg⟩
  induction p generalizing L ω σ with
  | ret a => exact h
  | throw e => trivial
  | lock k next ih => exact fun σ' h' hv => ih (h σ' (hi h') (hinv _ hv))
  | query next ih => exact fun σ' h' hv => ih _ (h σ' (hi h') (hinv _ hv))
  | exec rows write next ih => exact fun σ' h' hv => ih _ (h σ' (hi h') (hinv _ hv))
  | commit ev next ih =>
    intro σ' h' hv hev
    obtain ⟨hg, hw⟩ := h σ' (hi h') (hinv _ hv) (hok _ _ hev)
    exact ⟨hguar ▸ hg, ih hw⟩
  | call ev f next ih =>
    intro σ' h' hv hev
    obtain ⟨hg, hw⟩ := h σ' (hi h') (hinv _ hv) (hok _ _ hev)
    exact ⟨hguar ▸ hg, ih _ hw⟩

section Statements

variable {Q : Unit → List S.Key → List (S.DB → S.DB) → S.DB × S.World → Prop}
  {f : Unit → Prog S Unit}

@[simp] theorem wp_ret (a : α)
    (Q : α → List S.Key → List (S.DB → S.DB) → S.DB × S.World → Prop) :
    wp C (.ret a) Q L ω σ = Q a L ω σ := rfl

@[simp] theorem wp_throwing (e : S.Error)
    (Q : α → List S.Key → List (S.DB → S.DB) → S.DB × S.World → Prop) :
    wp C (throwing e) Q L ω σ = True := rfl

theorem wp_lift (x : Except S.Error α)
    (Q : α → List S.Key → List (S.DB → S.DB) → S.DB × S.World → Prop) :
    wp C (lift x) Q L ω σ ↔ ∀ a, x = .ok a → Q a L ω σ := by
  cases x <;> simp [lift, wp]

@[simp] theorem wp_acquire (k : S.Key) :
    wp C (acquire k) Q L ω σ =
      ∀ σ', C.Interference L σ σ' → C.inv σ' → Q () (k :: L) ω σ' := rfl

@[simp] theorem wp_select (f : S.DB → α)
    (Q : α → List S.Key → List (S.DB → S.DB) → S.DB × S.World → Prop) :
    wp C (select f) Q L ω σ =
      ∀ σ', C.Interference L σ σ' → C.inv σ' → Q (f (view ω σ'.1)) L ω σ' := rfl

@[simp] theorem wp_write (rows : List S.Key) (f : S.DB → S.DB) :
    wp C (write rows f) Q L ω σ =
      ∀ σ', C.Interference L σ σ' → C.inv σ' → Q () (rows ++ L) (ω ++ [f]) σ' := rfl

@[simp] theorem wp_updateWhere (row : S.Key) (cond : S.DB → Bool) (f : S.DB → S.DB)
    (Q : Bool → List S.Key → List (S.DB → S.DB) → S.DB × S.World → Prop) :
    wp C (updateWhere row cond f) Q L ω σ =
      ∀ σ', C.Interference L σ σ' → C.inv σ' → Q (cond (view ω σ'.1))
        ((if cond (view ω σ'.1) then [row] else []) ++ L)
        (ω ++ [if cond (view ω σ'.1) then f else id]) σ' := rfl

@[simp] theorem wp_updateFound {β : Type} (found : S.DB → List β) (row : β → S.Key)
    (f : List β → S.DB → S.DB)
    (Q : List β → List S.Key → List (S.DB → S.DB) → S.DB × S.World → Prop) :
    wp C (updateFound found row f) Q L ω σ =
      ∀ σ', C.Interference L σ σ' → C.inv σ' → Q (found (view ω σ'.1))
        ((found (view ω σ'.1)).map row ++ L) (ω ++ [f (found (view ω σ'.1))]) σ' := rfl

theorem wp_insertUnique (rows : List S.Key) (taken : S.DB → Bool) (e : S.Error) (f : S.DB → S.DB) :
    wp C (insertUnique rows taken e f) Q L ω σ ↔
      ∀ σ', C.Interference L σ σ' → C.inv σ' → taken (view ω σ'.1) = false →
        Q () (rows ++ L) (ω ++ [f]) σ' := by
  simp only [insertUnique, wp]
  refine forall₃_congr fun σ' _ _ => ?_
  cases taken (view ω σ'.1) <;> simp [wp]

@[simp] theorem wp_insertMissing (row : S.Key) (taken : S.DB → Bool) (f : S.DB → S.DB) :
    wp C (insertMissing row taken f) Q L ω σ =
      ∀ σ', C.Interference L σ σ' → C.inv σ' →
        Q () (row :: L) (ω ++ [if taken (view ω σ'.1) then id else f]) σ' := rfl

@[simp] theorem wp_commit (ev : S.Event) :
    wp C (commit ev) Q L ω σ =
      ∀ σ', C.Interference L σ σ' → C.inv σ' → C.ok ev σ' →
        C.guar ev L σ' (view ω σ'.1, σ'.2) ∧ Q () [] [] (view ω σ'.1, σ'.2) := rfl

@[simp] theorem wp_call (ev : S.Event) (f : S.World → S.World) (out : S.World → α)
    (Q : α → List S.Key → List (S.DB → S.DB) → S.DB × S.World → Prop) :
    wp C (call ev f out) Q L ω σ =
      ∀ σ', C.Interference L σ σ' → C.inv σ' → C.ok ev σ' →
        C.guar ev L σ' (σ'.1, f σ'.2) ∧ Q (out σ'.2) L ω (σ'.1, f σ'.2) := rfl

theorem wp_when (c : Bool) (p : Prog S Unit) :
    wp C (when c p) Q L ω σ ↔ (c = true → wp C p Q L ω σ) ∧ (c = false → Q () L ω σ) := by
  cases c <;> simp [when]

/-- A loop, with an invariant that speaks of the elements already visited. -/
theorem wp_forEach {I : List β → List S.Key → List (S.DB → S.DB) → S.DB × S.World → Prop}
    (l : List β) {body : β → Prog S Unit}
    (hbody : ∀ done b rest, l = done ++ b :: rest → ∀ L ω σ, I done L ω σ →
      wp C (body b) (fun _ => I (done ++ [b])) L ω σ)
    (hinit : I [] L ω σ) (hQ : ∀ L ω σ, I l L ω σ → Q () L ω σ) :
    wp C (forEach l body) Q L ω σ := by
  have h : ∀ rest done L ω σ, l = done ++ rest → I done L ω σ →
      wp C (forEach rest body) (fun _ => I l) L ω σ := by
    intro rest
    induction rest with
    | nil =>
      intro done L ω σ hl hI
      rw [List.append_nil] at hl
      exact hl ▸ hI
    | cons b rest ih =>
      intro done L ω σ hl hI
      simp only [forEach, Prog.bind_eq, wp_bind]
      refine wp_mono _ ?_ (hbody done b rest hl L ω σ hI)
      intro _ L' ω' σ' hI'
      exact ih (done ++ [b]) L' ω' σ' (by simp [hl]) hI'
  exact wp_mono _ (fun _ => hQ) (h l [] L ω σ rfl hinit)

end Statements

/-! ## Whole calls -/

/-- A program that keeps to the contract from any store, and ends with no transaction
open. -/
def Safe (C : Contract S) (p : Prog S α) : Prop :=
  ∀ σ, wp C p (fun _ L ω _ => L = [] ∧ ω = []) [] [] σ

theorem Safe.ret (a : α) : Safe C (.ret a) := fun _ => ⟨rfl, rfl⟩

theorem Safe.throwing (e : S.Error) : Safe C (throwing e : Prog S α) := fun _ => trivial

theorem Safe.bind {p : Prog S α} {f : α → Prog S β} (hp : Safe C p) (hf : ∀ a, Safe C (f a)) :
    Safe C (p.bind f) := by
  intro σ
  rw [wp_bind]
  refine wp_mono p ?_ (hp σ)
  rintro a L ω σ' ⟨rfl, rfl⟩
  exact hf a σ'

theorem Safe.select {f : S.DB → α} : Safe C (select f) := fun _ _ _ _ => ⟨rfl, rfl⟩

theorem Safe.lift (x : Except S.Error α) : Safe C (lift x) := by
  cases x with
  | ok a => exact Safe.ret a
  | error e => exact Safe.throwing e

theorem Safe.restrict {C' : Contract S} {p : Prog S α} (h : Safe C p)
    (hguar : C'.guar = C.guar) (hinv : ∀ σ, C'.inv σ → C.inv σ)
    (hok : ∀ ev σ, C'.ok ev σ → C.ok ev σ) : Safe C' p :=
  fun σ => wp_restrict hguar hinv hok p (h σ)

theorem Safe.forEach {l : List β} {body : β → Prog S Unit} (h : ∀ b ∈ l, Safe C (body b)) :
    Safe C (forEach l body) := by
  induction l with
  | nil => exact Safe.ret ()
  | cons b bs ih =>
    exact (h b (List.mem_cons_self ..)).bind fun _ =>
      ih fun b' hb' => h b' (List.mem_cons_of_mem _ hb')

/-- A program that keeps to the contract from any store; it may end with locks held. -/
def Keeps (C : Contract S) (p : Prog S α) : Prop :=
  ∀ σ, wp C p (fun _ _ _ _ => True) [] [] σ

theorem Safe.keeps {p : Prog S α} (h : Safe C p) : Keeps C p :=
  fun σ => wp_mono p (fun _ _ _ _ _ => trivial) (h σ)

/-! ## Soundness -/

variable {Ops : Prog S Unit → Prop} {s s' s₀ : State S}

/-- Every allowed step keeps the contract's invariant. -/
def Contract.Preserved (C : Contract S) : Prop := ∀ K a b, C.Step K a b → C.inv b

/-- What holds in every reachable state: the invariant, exclusive locks, and every client
keeps to the contract from here on. -/
structure Sound (C : Contract S) (s : State S) : Prop where
  inv : C.inv s.store
  exclusive : ∀ i j, i ≠ j → ∀ k ∈ (s.thread i).locks, k ∉ (s.thread j).locks
  safe : ∀ i, wp C (s.thread i).prog (fun _ _ _ _ => True) (s.thread i).locks
    (s.thread i).writes s.store

private theorem wp_done (σ : S.DB × S.World) :
    wp C (Thread.done : Thread S).prog (fun _ _ _ _ => True) Thread.done.locks
      Thread.done.writes σ := trivial

/-- Replacing client `i` keeps soundness when its new locks are new to everybody else,
the others' store changed by a step they tolerate, and the new client is safe. -/
private theorem sound_setThread {i : Nat} {t : Thread S} (h : Sound C s)
    (db : S.DB) (world : S.World)
    (hlocks : ∀ k ∈ t.locks, k ∈ (s.thread i).locks ∨ ∀ j, j ≠ i → k ∉ (s.thread j).locks)
    (hstep : (db, world) = s.store ∨ C.Step (s.thread i).locks s.store (db, world))
    (hinv : C.inv (db, world))
    (hwp : wp C t.prog (fun _ _ _ _ => True) t.locks t.writes (db, world)) :
    Sound C (({ s with db := db, world := world } : State S).setThread i t) := by
  have hget : ∀ j, (({ s with db := db, world := world } : State S).setThread i t).thread j =
      if i = j ∧ i < s.threads.length then t else s.thread j := fun j =>
    State.thread_setThread { s with db := db, world := world } i j t
  have hother : ∀ j, j ≠ i → ∀ k ∈ t.locks, k ∉ (s.thread j).locks := by
    intro j hj k hk
    rcases hlocks k hk with h' | h'
    · exact h.exclusive i j (Ne.symm hj) k h'
    · exact h' j hj
  refine ⟨hinv, ?_, ?_⟩
  · intro j j' hne k hk
    rw [hget] at hk ⊢
    by_cases e : i = j ∧ i < s.threads.length
    · rw [if_pos e] at hk
      rw [if_neg fun e' => hne (e.1.symm.trans e'.1)]
      exact hother j' (fun e' => hne (e.1.symm.trans e'.symm)) k hk
    · rw [if_neg e] at hk
      by_cases e' : i = j' ∧ i < s.threads.length
      · rw [if_pos e']
        exact fun hk' => hother j (fun e'' => hne (e''.trans e'.1)) k hk' hk
      · rw [if_neg e']
        exact h.exclusive j j' hne k hk
  · intro j
    rw [hget]
    by_cases e : i = j ∧ i < s.threads.length
    · rw [if_pos e]
      exact hwp
    · rw [if_neg e]
      show wp C _ _ _ _ (db, world)
      rcases hstep with hs | hs
      · rw [hs]
        exact h.safe j
      · by_cases hij : j = i
        · -- `j` is a client that does not exist
          have hlen : s.threads.length ≤ j := by
            refine Nat.le_of_not_lt fun hlt => e ⟨hij.symm, ?_⟩
            rw [← hij]
            exact hlt
          rw [State.thread_of_length_le hlen]
          exact wp_done _
        · refine wp_stable _ (fun _ _ _ _ _ _ _ => trivial) ?_ (h.safe j)
          exact Relation.ReflTransGen.single
            ⟨_, fun k hk => h.exclusive i j (Ne.symm hij) k hk, hs⟩

/-- A state with no clients in flight is sound. -/
theorem sound_initial (h : s.threads = []) (hinv : C.inv s.store) : Sound C s := by
  have hd : ∀ i, s.thread i = Thread.done := fun i => by simp [State.thread, h]
  refine ⟨hinv, ?_, ?_⟩
  · intro i j _ k hk
    simp [hd, Thread.done] at hk
  · intro i
    rw [hd]
    exact wp_done _

variable [DecidableEq S.Key]

/-- A move either leaves the store alone or is an allowed step, and keeps soundness. -/
theorem sound_fire (hOps : ∀ p, Ops p → Keeps C p) (hC : C.Preserved) (h : Sound C s) {m : Move S}
    (hm : s.Admits Ops C.ok m) (hf : s.fire m = some s') :
    Sound C s' ∧ (s'.store = s.store ∨ ∃ K, C.Step K s.store s'.store) := by
  cases m with
  | start p =>
    simp only [State.fire, Option.some.injEq] at hf
    subst hf
    have hget : ∀ j, ({ s with threads := s.threads ++ [⟨p, [], []⟩] } : State S).thread j =
        if j = s.threads.length then ⟨p, [], []⟩ else s.thread j := by
      intro j
      simp only [State.thread, List.getD_eq_getElem?_getD]
      rcases Nat.lt_trichotomy j s.threads.length with hj | hj | hj
      · rw [List.getElem?_append_left hj, if_neg (Nat.ne_of_lt hj)]
      · simp [hj]
      · rw [if_neg (Nat.ne_of_gt hj), List.getElem?_eq_none (by simp; omega),
          List.getElem?_eq_none (by omega)]
    refine ⟨⟨h.inv, fun i j hne k hk => ?_, fun i => ?_⟩, Or.inl rfl⟩
    · rw [hget] at hk ⊢
      split at hk
      · simp at hk
      · split
        · simp
        · exact h.exclusive i j hne k hk
    · rw [hget]
      split
      · exact hOps p hm s.store
      · exact h.safe i
  | crash i =>
    simp only [State.fire, Option.some.injEq] at hf
    subst hf
    exact ⟨sound_setThread h s.db s.world (by simp [Thread.done]) (Or.inl rfl) h.inv
      (wp_done _),
      Or.inl rfl⟩
  | run i =>
    have hsafe := h.safe i
    simp only [State.fire, State.advance] at hf
    cases hp : (s.thread i).prog with
    | ret a => simp [hp] at hf
    | throw e =>
      simp only [hp, Option.some.injEq] at hf
      subst hf
      exact ⟨sound_setThread h s.db s.world (by simp [Thread.done]) (Or.inl rfl) h.inv
      (wp_done _),
        Or.inl rfl⟩
    | lock k next =>
      rw [hp] at hsafe
      simp only [hp] at hf
      split at hf
      · cases hf
      · rename_i hfree
        simp only [Option.some.injEq] at hf
        subst hf
        refine ⟨sound_setThread h s.db s.world ?_ (Or.inl rfl) h.inv
          (hsafe _ interference_refl h.inv), Or.inl rfl⟩
        intro k' hk'
        rcases List.mem_cons.mp hk' with rfl | hk'
        · exact Or.inr fun j hj => State.not_held_of_othersHold (by simpa using hfree) hj
        · exact Or.inl hk'
    | query next =>
      rw [hp] at hsafe
      simp only [hp, Option.some.injEq] at hf
      subst hf
      exact ⟨sound_setThread h s.db s.world (fun k hk => Or.inl hk) (Or.inl rfl) h.inv
        (hsafe _ interference_refl h.inv), Or.inl rfl⟩
    | exec rows write next =>
      rw [hp] at hsafe
      simp only [hp] at hf
      split at hf
      · cases hf
      · rename_i hfree
        simp only [Option.some.injEq] at hf
        subst hf
        refine ⟨sound_setThread h s.db s.world ?_ (Or.inl rfl) h.inv
          (hsafe _ interference_refl h.inv), Or.inl rfl⟩
        intro k hk
        rcases List.mem_append.mp hk with hk | hk
        · refine Or.inr fun j hj => State.not_held_of_othersHold ?_ hj
          simp only [List.any_eq_true, not_exists, not_and, Bool.not_eq_true] at hfree
          exact hfree k hk
        · exact Or.inl hk
    | commit ev next =>
      rw [hp] at hsafe
      simp only [hp, Option.some.injEq] at hf
      subst hf
      have hok : C.ok ev s.store := hm ev (by simp [State.event, hp])
      obtain ⟨hg, hw⟩ := hsafe _ interference_refl h.inv hok
      have hs : C.Step (s.thread i).locks s.store
          (view (s.thread i).writes s.db, s.world) := ⟨h.inv, ev, hok, hg⟩
      exact ⟨sound_setThread h _ s.world (by simp) (Or.inr hs) (hC _ _ _ hs) hw,
        Or.inr ⟨_, hs⟩⟩
    | call ev f next =>
      rw [hp] at hsafe
      simp only [hp, Option.some.injEq] at hf
      subst hf
      have hok : C.ok ev s.store := hm ev (by simp [State.event, hp])
      obtain ⟨hg, hw⟩ := hsafe _ interference_refl h.inv hok
      have hs : C.Step (s.thread i).locks s.store (s.db, f s.world) := ⟨h.inv, ev, hok, hg⟩
      exact ⟨sound_setThread h s.db _ (fun k hk => Or.inl hk) (Or.inr hs)
        (hC _ _ _ hs) hw, Or.inr ⟨_, hs⟩⟩

/-- In a sound state the next commit or call of a client is a step of its event. -/
theorem Sound.guar (h : Sound C s) {i : Nat} {ev : S.Event} (hev : s.event i = some ev)
    (hok : C.ok ev s.store) (hf : s.fire (.run i) = some s') :
    ∃ K, C.guar ev K s.store s'.store := by
  have hsafe := h.safe i
  simp only [State.fire, State.advance] at hf
  unfold State.event at hev
  split at hev
  · rename_i ev' next hp
    rw [hp] at hsafe
    simp only [hp, Option.some.injEq] at hf
    cases hev
    subst hf
    exact ⟨_, (hsafe _ interference_refl h.inv hok).1⟩
  · rename_i ev' f next hp
    rw [hp] at hsafe
    simp only [hp, Option.some.injEq] at hf
    cases hev
    subst hf
    exact ⟨_, (hsafe _ interference_refl h.inv hok).1⟩
  · cases hev

section Runs

variable (hOps : ∀ p, Ops p → Keeps C p) (hC : C.Preserved) (h₀ : s₀.threads = [])
  (hinv : C.inv s₀.store)
include hOps hC h₀ hinv

/-- **Soundness.** -/
theorem sound (h : Reaches Ops C.ok s₀ s) : Sound C s := by
  induction h with
  | refl => exact sound_initial h₀ hinv
  | step m _ hm hf ih => exact (sound_fire hOps hC ih hm hf).1

/-- The invariant of the contract holds in every reachable state. -/
theorem reaches_inv (h : Reaches Ops C.ok s₀ s) : C.inv s.store :=
  (sound hOps hC h₀ hinv h).inv

/-- A move from a reachable state either leaves the store alone or is an allowed step. -/
theorem reaches_fire (h : Reaches Ops C.ok s₀ s) {m : Move S} (hm : s.Admits Ops C.ok m)
    (hf : s.fire m = some s') : s'.store = s.store ∨ ∃ K, C.Step K s.store s'.store :=
  (sound_fire hOps hC (sound hOps hC h₀ hinv h) hm hf).2

/-- **Refinement**: on the store, a run of safe clients is a run of atomic steps. -/
theorem reaches_run (h : Reaches Ops C.ok s₀ s) : C.Run s₀.store s.store := by
  induction h with
  | refl => exact Relation.ReflTransGen.refl
  | step m h hm hf ih =>
    rcases reaches_fire hOps hC h₀ hinv h hm hf with he | hs
    · rw [he]; exact ih
    · exact ih.tail hs

end Runs

end Transactions
