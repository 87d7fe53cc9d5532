import Mathlib.Logic.Relation
import Mathlib.Order.BoundedOrder.Lattice
import Mathlib.Order.Lattice
import Sosedi.Transactions.Behaviours
import Sosedi.Transactions.Embedding

/-!
# Locks in an order

The keys have ranks, and the keys of the highest rank are in no order.  A program ascends
(`Prog.Ascends`) if it takes a key of the order only while every key that it holds is of a
lower rank; the bounds `b` and `c` are on what its client holds before and after it.

Proved here:

* how programs that ascend compose (`Ascends.bind`, `ascends_forEach`); in a transaction,
  statements that take no key may come anywhere (`Takes.ascends_bind`), and those whose keys are
  in no order last (`Takes.ascends`);
* `Reaches.ascends`: in a run of such programs every client goes on to ascend;
* `Reaches.not_deadlocked`: whoever holds a key of the order waits for none of the clients that
  wait for it, directly or through others.
-/

namespace Transactions

variable {S T : Signature} {α β : Type}

namespace Prog

/-- Every key that the program takes satisfies `P`; the result and the flag that says whether a
transaction is open at the end satisfy `Q`. -/
def Takes (P : S.Key → Prop) : Prog S α → (α → Bool → Prop) → Bool → Prop
  | .ret a, Q, o => Q a o
  | .throw _, _, _ => True
  | .lock k next, Q, _ => P k ∧ next.Takes P Q true
  | .query next, Q, o => ∀ v, (next v).Takes P Q o
  | .exec rows _ next, Q, _ => ∀ v, (∀ k ∈ rows v, P k) ∧ (next v).Takes P Q true
  | .commit _ next, Q, _ => next.Takes P Q false
  | .call _ _ next, Q, o => ∀ w, (next w).Takes P Q o

section Takes

variable {P : S.Key → Prop} {Q : α → Bool → Prop} {o : Bool}

@[simp] theorem takes_bind (p : Prog S α) (f : α → Prog S β) {Q : β → Bool → Prop} :
    (p.bind f).Takes P Q o ↔ p.Takes P (fun a o => (f a).Takes P Q o) o := by
  induction p generalizing o with
  | ret a => rfl
  | throw e => rfl
  | lock k next ih => simp only [Prog.bind, Takes, ih]
  | query next ih => simp only [Prog.bind, Takes, ih]
  | exec rows write next ih => simp only [Prog.bind, Takes, ih]
  | commit ev next ih => simp only [Prog.bind, Takes, ih]
  | call ev f next ih => simp only [Prog.bind, Takes, ih]

theorem Takes.mono {Q' : α → Bool → Prop} {p : Prog S α} (h : p.Takes P Q o)
    (hQ : ∀ a o, Q a o → Q' a o) : p.Takes P Q' o := by
  induction p generalizing o with
  | ret a => exact hQ a o h
  | throw e => trivial
  | lock k next ih => exact ⟨h.1, ih h.2⟩
  | query next ih => exact fun v => ih v (h v)
  | exec rows write next ih => exact fun v => ⟨(h v).1, ih v (h v).2⟩
  | commit ev next ih => exact ih h
  | call ev f next ih => exact fun w => ih w (h w)

@[simp] theorem takes_ret (a : α) : (.ret a : Prog S α).Takes P Q o ↔ Q a o := Iff.rfl

@[simp] theorem takes_throwing (e : S.Error) : (throwing e : Prog S α).Takes P Q o ↔ True :=
  Iff.rfl

@[simp] theorem takes_lift (x : Except S.Error α) :
    (lift x : Prog S α).Takes P Q o ↔ ∀ a, x = .ok a → Q a o := by
  cases x with
  | ok a => simp [lift]
  | error e => simp [lift, Takes]

@[simp] theorem takes_acquire (k : S.Key) {Q : Unit → Bool → Prop} :
    (acquire k).Takes P Q o ↔ P k ∧ Q () true := Iff.rfl

@[simp] theorem takes_select (f : S.DB → α) :
    (select f).Takes P Q o ↔ ∀ v, Q (f v) o := Iff.rfl

@[simp] theorem takes_write (rows : List S.Key) (f : S.DB → S.DB) {Q : Unit → Bool → Prop} :
    (write rows f).Takes P Q o ↔ (S.DB → (∀ k ∈ rows, P k) ∧ Q () true) := Iff.rfl

@[simp] theorem takes_updateWhere (row : S.Key) (cond : S.DB → Bool) (f : S.DB → S.DB)
    {Q : Bool → Bool → Prop} : (updateWhere row cond f).Takes P Q o ↔
      ∀ v, (cond v → P row) ∧ Q (cond v) true := by
  refine forall_congr' fun v => and_congr_left fun _ => ?_
  by_cases h : cond v <;> simp [h]

@[simp] theorem takes_updateFound {γ : Type} (found : S.DB → List γ) (row : γ → S.Key)
    (f : List γ → S.DB → S.DB) {Q : List γ → Bool → Prop} :
    (updateFound found row f).Takes P Q o ↔
      ∀ v, (∀ c ∈ found v, P (row c)) ∧ Q (found v) true :=
  forall_congr' fun _ => and_congr_left fun _ => List.forall_mem_map

@[simp] theorem takes_insertUnique (rows : List S.Key) (taken : S.DB → Bool) (e : S.Error)
    (f : S.DB → S.DB) {Q : Unit → Bool → Prop} : (insertUnique rows taken e f).Takes P Q o ↔
      ∀ v, (∀ k ∈ rows, P k) ∧ (taken v = false → Q () true) := by
  refine forall_congr' fun v => and_congr_right fun _ => ?_
  by_cases h : taken v <;> simp [h, Takes]

@[simp] theorem takes_insertMissing (row : S.Key) (taken : S.DB → Bool) (f : S.DB → S.DB)
    {Q : Unit → Bool → Prop} :
    (insertMissing row taken f).Takes P Q o ↔ (S.DB → P row ∧ Q () true) :=
  forall_congr' fun _ => and_congr_left fun _ => by simp

@[simp] theorem takes_commit (ev : S.Event) {Q : Unit → Bool → Prop} :
    (Transactions.commit ev).Takes P Q o ↔ Q () false := Iff.rfl

@[simp] theorem takes_call (ev : S.Event) (f : S.World → S.World) (out : S.World → α) :
    (Transactions.call ev f out).Takes P Q o ↔ ∀ w, Q (out w) o := Iff.rfl

@[simp] theorem takes_when {c : Bool} {p : Prog S Unit} {Q : Unit → Bool → Prop} :
    (when c p).Takes P Q o ↔ (c → p.Takes P Q o) ∧ (c = false → Q () o) := by
  cases c <;> simp [when]

@[simp] theorem takes_ite {c : Prop} [Decidable c] {p q : Prog S α} :
    (if c then p else q).Takes P Q o ↔ (c → p.Takes P Q o) ∧ (¬c → q.Takes P Q o) := by
  by_cases h : c <;> simp [h]

/-- Statements in a loop; `o` says whether a transaction is open before and after each. -/
theorem takes_forEach {xs : List β} {body : β → Prog S Unit} {Q : Unit → Bool → Prop}
    (h : ∀ x, (body x).Takes P (fun _ o' => o' = o) o) (hQ : Q () o) :
    (forEach xs body).Takes P Q o := by
  induction xs with
  | nil => exact hQ
  | cons x xs ih =>
    refine (takes_bind _ _).mpr ((h x).mono fun _ o' ho' => ?_)
    rw [ho']
    exact ih

/-- Statements in a loop, whether a transaction is open or not. -/
theorem takes_forEach_any {xs : List β} {body : β → Prog S Unit} {Q : Unit → Bool → Prop}
    (h : ∀ x o, (body x).Takes P (fun _ _ => True) o) (hQ : ∀ o, Q () o) :
    (forEach xs body).Takes P Q o := by
  induction xs generalizing o with
  | nil => exact hQ o
  | cons x xs ih => exact (takes_bind _ _).mpr ((h x o).mono fun _ _ _ => ih)

end Takes

section Order

variable {ρ : Type} [LinearOrder ρ] [BoundedOrder ρ] (rank : S.Key → ρ)

/-- A client that holds keys of ranks up to `b` may take this one. -/
def Allows (b : ρ) (k : S.Key) : Prop := rank k = ⊤ ∨ b < rank k

/-- A client that holds keys of ranks up to `b` takes those of the order in their order; when the
program returns, it holds keys of ranks up to `c`. -/
def Ascends : Prog S α → ρ → ρ → Prop
  | .ret _, b, c => b ≤ c
  | .throw _, _, _ => True
  | .lock k next, b, c => Allows rank b k ∧ next.Ascends (max b (rank k)) c
  | .query next, b, c => ∀ v, (next v).Ascends b c
  | .exec rows _ next, b, c => ∀ v, ∃ b', b ≤ b' ∧
      (∀ k ∈ rows v, Allows rank b k ∧ rank k ≤ b') ∧ (next v).Ascends b' c
  | .commit _ next, _, c => next.Ascends ⊥ c
  | .call _ _ next, b, c => ∀ w, (next w).Ascends b c

variable {rank} {b b' c c' d : ρ}

theorem Allows.anti {k : S.Key} (h : Allows rank b' k) (hb : b ≤ b') : Allows rank b k :=
  h.imp_right hb.trans_lt

theorem Ascends.anti {p : Prog S α} (h : p.Ascends rank b' c) (hb : b ≤ b') :
    p.Ascends rank b c := by
  induction p generalizing b b' with
  | ret a => exact hb.trans h
  | throw e => trivial
  | lock k next ih => exact ⟨h.1.anti hb, ih h.2 (sup_le_sup_right hb _)⟩
  | query next ih => exact fun v => ih v (h v) hb
  | exec rows write next ih =>
    intro v
    obtain ⟨b'', hle, hrows, hnext⟩ := h v
    exact ⟨b'', hb.trans hle, fun k hk => ⟨(hrows k hk).1.anti hb, (hrows k hk).2⟩, hnext⟩
  | commit ev next => exact h
  | call ev f next ih => exact fun w => ih w (h w) hb

theorem Ascends.bind {p : Prog S α} {f : α → Prog S β} (hp : p.Ascends rank b c)
    (hf : ∀ a, (f a).Ascends rank c d) : (p.bind f).Ascends rank b d := by
  induction p generalizing b with
  | ret a => exact (hf a).anti hp
  | throw e => trivial
  | lock k next ih => exact ⟨hp.1, ih hp.2⟩
  | query next ih => exact fun v => ih v (hp v)
  | exec rows write next ih =>
    intro v
    obtain ⟨b', hle, hrows, hnext⟩ := hp v
    exact ⟨b', hle, hrows, ih v hnext⟩
  | commit ev next ih => exact ih hp
  | call ev f next ih => exact fun w => ih w (hp w)

/-- Keys that are in no order come last in a transaction. -/
theorem Takes.ascends {p : Prog S α} {o : Bool}
    (hp : p.Takes (fun k => rank k = ⊤) (fun _ o => o = false) o) (hb : o = false → b = ⊥) :
    p.Ascends rank b ⊥ := by
  induction p generalizing b o with
  | ret a => exact (hb hp).le
  | throw e => trivial
  | lock k next ih => exact ⟨Or.inl hp.1, ih hp.2 (by simp)⟩
  | query next ih => exact fun v => ih v (hp v) hb
  | exec rows write next ih =>
    intro v
    exact ⟨⊤, le_top, fun k hk => ⟨Or.inl ((hp v).1 k hk), le_top⟩, ih v (hp v).2 (by simp)⟩
  | commit ev next ih => exact ih hp fun _ => rfl
  | call ev f next ih => exact fun w => ih w (hp w) hb

/-- Statements that take no key. -/
theorem Takes.ascends_bind {p : Prog S α} {f : α → Prog S β} {o : Bool}
    (hp : p.Takes (fun _ => False) (fun a _ => (f a).Ascends rank b c) o) :
    (p.bind f).Ascends rank b c := by
  have hle : ∀ {b'}, b' ≤ b → (p.bind f).Ascends rank b' c := by
    induction p generalizing o with
    | ret a => exact fun h => Ascends.anti hp h
    | throw e => exact fun _ => trivial
    | lock k next => exact hp.1.elim
    | query next ih => exact fun h v => ih v (hp v) h
    | exec rows write next ih =>
      exact fun h v => ⟨_, le_rfl, fun k hk => ((hp v).1 k hk).elim, ih v (hp v).2 h⟩
    | commit ev next ih => exact fun _ => ih hp bot_le
    | call ev f next ih => exact fun h w => ih w (hp w) h
  exact hle le_rfl

/-- A check before a lock. -/
theorem ascends_lift_bind {x : Except S.Error α} {f : α → Prog S β}
    (h : ∀ a, x = .ok a → (f a).Ascends rank b c) : ((lift x).bind f).Ascends rank b c := by
  cases x with
  | ok a => exact h a rfl
  | error e => trivial

/-- A read before a lock. -/
theorem ascends_select_bind {g : S.DB → α} {f : α → Prog S β}
    (h : ∀ v, (f (g v)).Ascends rank b c) : ((select g).bind f).Ascends rank b c := h

/-- A key of a higher rank. -/
theorem ascends_acquire {k : S.Key} (h : b < rank k) :
    (acquire k).Ascends rank b (rank k) := ⟨Or.inr h, (max_eq_right h.le).le⟩

theorem ascends_insertMissing {row : S.Key} (h : b < rank row) (taken : S.DB → Bool)
    (f : S.DB → S.DB) : (insertMissing row taken f).Ascends rank b (rank row) := by
  refine fun _ => ⟨rank row, h.le, fun k hk => ?_, le_rfl⟩
  rw [List.mem_singleton.mp hk]
  exact ⟨Or.inr h, le_rfl⟩

/-- Transactions one after the other. -/
theorem ascends_forEach {γ : Type} {xs : List γ} {body : γ → Prog S Unit}
    (h : ∀ x, (body x).Ascends rank b b) : (forEach xs body).Ascends rank b b := by
  induction xs with
  | nil => exact le_rfl
  | cons x xs ih => exact (h x).bind fun _ => ih

/-- The keys of a list, from the lowest rank to the highest. -/
theorem ascends_acquireAll {γ : Type} {key : γ → S.Key} {xs : List γ}
    (hsorted : xs.Pairwise fun x y => rank (key x) < rank (key y))
    (hb : ∀ x ∈ xs, b < rank (key x)) (hc : ∀ x ∈ xs, rank (key x) ≤ c) (hbc : b ≤ c) :
    (forEach xs fun x => acquire (key x)).Ascends rank b c := by
  induction xs generalizing b with
  | nil => exact hbc
  | cons x xs ih =>
    obtain ⟨hx, hxs⟩ := List.pairwise_cons.mp hsorted
    refine (ascends_acquire (hb x List.mem_cons_self)).bind fun _ => ?_
    exact ih hxs hx (fun y hy => hc y (List.mem_cons_of_mem _ hy)) (hc x List.mem_cons_self)

/-- An embedded program takes the keys of the large system. -/
theorem Ascends.embed {rank : T.Key → ρ} {E : Part S T} {p : Prog S α}
    (h : p.Ascends (fun k => rank (E.key k)) b c) : (p.embed E).Ascends rank b c := by
  induction p generalizing b with
  | ret a => exact h
  | throw e => trivial
  | lock k next ih => exact ⟨h.1, ih h.2⟩
  | query next ih => exact fun v => ih _ (h _)
  | exec rows write next ih =>
    intro v
    obtain ⟨b', hle, hrows, hnext⟩ := h (E.db v)
    refine ⟨b', hle, fun k hk => ?_, ih _ hnext⟩
    obtain ⟨k₀, hk₀, rfl⟩ := List.mem_map.mp hk
    exact hrows k₀ hk₀
  | commit ev next ih => exact ih h
  | call ev f next ih => exact fun w => ih _ (h _)

end Order

end Prog

/-! ## Who waits for whom -/

/-- The keys that the next node of client `i` needs. -/
def State.needs (s : State S) (i : Nat) : List S.Key :=
  match (s.thread i).prog with
  | .lock k _ => [k]
  | .exec rows _ _ => rows (view (s.thread i).writes s.db)
  | _ => []

/-- Client `i` waits for the key `k` that client `j` holds. -/
def State.WaitsOn (s : State S) (i : Nat) (k : S.Key) (j : Nat) : Prop :=
  i ≠ j ∧ k ∈ s.needs i ∧ k ∈ (s.thread j).locks

/-- Client `i` waits for client `j`. -/
def State.Waits (s : State S) (i j : Nat) : Prop := ∃ k, s.WaitsOn i k j

section Runs

variable {ρ : Type} [LinearOrder ρ] [BoundedOrder ρ] {rank : S.Key → ρ} {s s' : State S}
  {i j : Nat}

/-- What a client holds is bounded, and from this bound on it ascends. -/
def Thread.Ascends (rank : S.Key → ρ) (t : Thread S) : Prop :=
  ∃ b, (∀ k ∈ t.locks, rank k ≤ b) ∧ t.prog.Ascends rank b ⊥

theorem Thread.ascends_done : (Thread.done : Thread S).Ascends rank :=
  ⟨⊥, by simp [Thread.done], bot_le⟩

/-- **A node of a client that ascends.** -/
theorem Thread.Next.ascends {t t' : Thread S} (hn : t.Next s t') (h : t.Ascends rank) :
    t'.Ascends rank := by
  obtain ⟨b, hlocks, hp⟩ := h
  cases hn with
  | throw => exact ascends_done
  | @lock k next hprog =>
    rw [hprog] at hp
    refine ⟨max b (rank k), fun k' hk' => ?_, hp.2⟩
    rcases List.mem_cons.mp hk' with rfl | hk'
    · exact le_max_right _ _
    · exact (hlocks k' hk').trans (le_max_left _ _)
  | query hprog =>
    rw [hprog] at hp
    exact ⟨b, hlocks, hp _⟩
  | exec hprog =>
    rw [hprog] at hp
    obtain ⟨b', hle, hrows, hnext⟩ := hp (view t.writes s.db)
    refine ⟨b', fun k hk => ?_, hnext⟩
    rcases List.mem_append.mp hk with hk | hk
    · exact (hrows k hk).2
    · exact (hlocks k hk).trans hle
  | commit hprog =>
    rw [hprog] at hp
    exact ⟨⊥, by simp, hp⟩
  | call hprog =>
    rw [hprog] at hp
    exact ⟨b, hlocks, hp _⟩

/-- A key that a client needs is in no order, or above all that the client holds. -/
theorem Thread.Ascends.allows (h : (s.thread i).Ascends rank) {k : S.Key} (hk : k ∈ s.needs i) :
    rank k = ⊤ ∨ ∀ k' ∈ (s.thread i).locks, rank k' < rank k := by
  obtain ⟨b, hlocks, hp⟩ := h
  have hallows : Prog.Allows rank b k := by
    unfold State.needs at hk
    split at hk
    · rename_i hprog
      rw [hprog] at hp
      rw [List.mem_singleton.mp hk]
      exact hp.1
    · rename_i hprog
      rw [hprog] at hp
      obtain ⟨b', -, hrows, -⟩ := hp (view (s.thread i).writes s.db)
      exact (hrows k hk).1
    · cases hk
  exact hallows.imp_right fun hlt k' hk' => (hlocks k' hk').trans_lt hlt

variable [DecidableEq S.Key] {Ops : Prog S Unit → Prop} {ok : S.Event → S.DB × S.World → Prop}

/-- **Every client ascends**, in every state of a run of programs that do. -/
theorem Reaches.ascends (hOps : ∀ p, Ops p → p.Ascends rank ⊥ ⊥) (h₀ : s.threads = [])
    (hr : Reaches Ops ok s s') (i : Nat) : (s'.thread i).Ascends rank :=
  hr.each_thread h₀ Thread.ascends_done (fun p hp => ⟨⊥, by simp, hOps p hp⟩)
    (fun _ _ _ hn h => hn.ascends h) i

omit [DecidableEq S.Key] in
/-- What waits for a client that holds a key of rank `r` at least holds one, too. -/
theorem State.holds_of_waits {r : ρ} (h : ∀ i, (s.thread i).Ascends rank)
    (hw : Relation.ReflTransGen s.Waits i j) (hi : ∃ k ∈ (s.thread i).locks, r ≤ rank k) :
    ∃ k ∈ (s.thread j).locks, r ≤ rank k := by
  induction hw with
  | refl => exact hi
  | @tail j l _ hjl ih =>
    obtain ⟨k, hk, hle⟩ := ih
    obtain ⟨k', -, hneeds, hheld⟩ := hjl
    refine ⟨k', hheld, ?_⟩
    rcases (h j).allows hneeds with htop | hbelow
    · rw [htop]
      exact le_top
    · exact hle.trans (hbelow k hk).le

/-- **No deadlock on a key of the order**: whoever holds it does not wait, directly or through
others, for a client that waits for it. -/
theorem Reaches.not_deadlocked (hOps : ∀ p, Ops p → p.Ascends rank ⊥ ⊥) (h₀ : s.threads = [])
    (hr : Reaches Ops ok s s') {k : S.Key} (hk : rank k ≠ ⊤) (hw : s'.WaitsOn i k j) :
    ¬Relation.ReflTransGen s'.Waits j i := by
  intro hback
  have hall := hr.ascends hOps h₀
  obtain ⟨k', hk', hle⟩ := State.holds_of_waits hall hback ⟨k, hw.2.2, le_rfl⟩
  rcases (hall i).allows hw.2.1 with htop | hbelow
  · exact hk htop
  · exact (hbelow k' hk').not_ge hle

end Runs

end Transactions
