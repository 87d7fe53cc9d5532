import Sosedi.Transactions.RelyGuarantee

/-!
# Programs of a part of a system

A `Part` says where the state of a small system sits in the state of a large one.
`Prog.embed` runs a program of the small system in the large one, where it sees and writes
only its part.  `track` follows what a program writes, whatever it reads: every write is a
step of `R`, every call a step of `W`, and a flag says whether a transaction is open.

Proved here:

* `track_bind`, `track_forEach`: how proofs about programs compose;
* `wp_embed`, `Safe.embed`: an embedded program keeps to a contract that allows every commit
  of `R` and every call of `W` on the part.
-/

namespace Transactions

/-- The state of `S` as a part of the state of `T`. -/
structure Part (S T : Signature) where
  db : T.DB → S.DB
  setDb : T.DB → S.DB → T.DB
  world : T.World → S.World
  setWorld : T.World → S.World → T.World
  key : S.Key → T.Key
  event : S.Event → T.Event
  error : S.Error → T.Error
  db_setDb : ∀ d s, db (setDb d s) = s
  setDb_db : ∀ d, setDb d (db d) = d
  setDb_setDb : ∀ d s s', setDb (setDb d s) s' = setDb d s'

variable {S T : Signature} {α β : Type}

namespace Prog

/-- The program of the small system as one of the large system. -/
def embed (E : Part S T) : Prog S α → Prog T α
  | .ret a => .ret a
  | .throw e => .throw (E.error e)
  | .lock k next => .lock (E.key k) (next.embed E)
  | .query next => .query fun v => (next (E.db v)).embed E
  | .exec rows write next =>
    .exec (fun v => (rows (E.db v)).map E.key) (fun v d => E.setDb d (write (E.db v) (E.db d)))
      fun v => (next (E.db v)).embed E
  | .commit ev next => .commit (E.event ev) (next.embed E)
  | .call ev f next =>
    .call (E.event ev) (fun w => E.setWorld w (f (E.world w))) fun w => (next (E.world w)).embed E

variable (R : S.DB → S.DB → Prop) (W : S.World → S.World → Prop)

/-- Every write of the program is a step of `R` and every call a step of `W`; the result and
the flag at the end satisfy `Q`. -/
def track : Prog S α → (α → Bool → Prop) → Bool → Prop
  | .ret a, Q, b => Q a b
  | .throw _, _, _ => True
  | .lock _ next, Q, _ => next.track Q true
  | .query next, Q, b => ∀ v, (next v).track Q b
  | .exec _ write next, Q, _ => (∀ v d, R d (write v d)) ∧ ∀ v, (next v).track Q true
  | .commit _ next, Q, _ => next.track Q false
  | .call _ f next, Q, b => (∀ w, W w (f w)) ∧ ∀ w, (next w).track Q b

end Prog

section Track

variable {R : S.DB → S.DB → Prop} {W : S.World → S.World → Prop} {b : Bool}
  {Q : α → Bool → Prop}

theorem track_bind (p : Prog S α) (f : α → Prog S β) (Q : β → Bool → Prop) :
    (p.bind f).track R W Q b ↔ p.track R W (fun a b => (f a).track R W Q b) b := by
  induction p generalizing b with
  | ret a => rfl
  | throw e => rfl
  | lock k next ih => simp only [Prog.bind, Prog.track, ih]
  | query next ih => simp only [Prog.bind, Prog.track, ih]
  | exec rows write next ih => simp only [Prog.bind, Prog.track, ih]
  | commit ev next ih => simp only [Prog.bind, Prog.track, ih]
  | call ev f next ih => simp only [Prog.bind, Prog.track, ih]

theorem track_mono {Q' : α → Bool → Prop} (p : Prog S α) (hQ : ∀ a b, Q a b → Q' a b)
    (h : p.track R W Q b) : p.track R W Q' b := by
  induction p generalizing b with
  | ret a => exact hQ a b h
  | throw e => trivial
  | lock k next ih => exact ih h
  | query next ih => exact fun v => ih v (h v)
  | exec rows write next ih => exact ⟨h.1, fun v => ih v (h.2 v)⟩
  | commit ev next ih => exact ih h
  | call ev f next ih => exact ⟨h.1, fun w => ih w (h.2 w)⟩

@[simp] theorem track_ret (a : α) : (Prog.ret a : Prog S α).track R W Q b = Q a b := rfl

@[simp] theorem track_throwing (e : S.Error) :
    (throwing e : Prog S α).track R W Q b = True := rfl

theorem track_lift (x : Except S.Error α) :
    (lift x : Prog S α).track R W Q b ↔ ∀ a, x = .ok a → Q a b := by
  cases x <;> simp [lift, Prog.track]

@[simp] theorem track_acquire (k : S.Key) (Q : Unit → Bool → Prop) :
    (acquire k : Prog S Unit).track R W Q b = Q () true := rfl

@[simp] theorem track_select (f : S.DB → α) :
    (select f : Prog S α).track R W Q b = ∀ v, Q (f v) b := rfl

@[simp] theorem track_write (rows : List S.Key) (f : S.DB → S.DB) (Q : Unit → Bool → Prop) :
    (write rows f : Prog S Unit).track R W Q b = ((S.DB → ∀ d, R d (f d)) ∧ (S.DB → Q () true)) :=
  rfl

@[simp] theorem track_updateWhere (row : S.Key) (cond : S.DB → Bool) (f : S.DB → S.DB)
    (Q : Bool → Bool → Prop) : (updateWhere row cond f : Prog S Bool).track R W Q b =
      ((∀ v d, R d ((if cond v then f else id) d)) ∧ ∀ v, Q (cond v) true) := rfl

theorem track_insertUnique (rows : List S.Key) (taken : S.DB → Bool) (e : S.Error)
    (f : S.DB → S.DB) (Q : Unit → Bool → Prop) (hf : ∀ d, R d (f d)) (hQ : Q () true) :
    (insertUnique rows taken e f : Prog S Unit).track R W Q b := by
  refine ⟨fun _ => hf, fun v => ?_⟩
  cases h : taken v
  · simpa [h] using hQ
  · simp [h, Prog.track]

@[simp] theorem track_commit (ev : S.Event) (Q : Unit → Bool → Prop) :
    (commit ev : Prog S Unit).track R W Q b = Q () false := rfl

@[simp] theorem track_call (ev : S.Event) (f : S.World → S.World) (out : S.World → α) :
    (call ev f out : Prog S α).track R W Q b = ((∀ w, W w (f w)) ∧ ∀ w, Q (out w) b) := rfl

/-- A loop whose body ends with the flag it began with. -/
theorem track_forEach {l : List β} {body : β → Prog S Unit}
    (h : ∀ x ∈ l, (body x).track R W (fun _ b' => b' = b) b) :
    (forEach l body).track R W (fun _ b' => b' = b) b := by
  induction l with
  | nil => rfl
  | cons x xs ih =>
    simp only [forEach, Prog.bind_eq, track_bind]
    refine track_mono _ ?_ (h x (List.mem_cons_self ..))
    rintro _ _ rfl
    exact ih fun y hy => h y (List.mem_cons_of_mem _ hy)

end Track

/-! ## Contracts of the large system -/

/-- The contract allows every commit of `R` and every call of `W` on the part. -/
structure Part.Allowed (E : Part S T) (C : Contract T) (R : S.DB → S.DB → Prop)
    (W : S.World → S.World → Prop) : Prop where
  refl : ∀ d, R d d
  trans : ∀ d d' d'', R d d' → R d' d'' → R d d''
  commit : ∀ ev L σ d, R (E.db σ.1) d → C.guar (E.event ev) L σ (E.setDb σ.1 d, σ.2)
  call : ∀ ev L σ w, W (E.world σ.2) w → C.guar (E.event ev) L σ (σ.1, E.setWorld σ.2 w)

variable {E : Part S T} {C : Contract T} {R : S.DB → S.DB → Prop} {W : S.World → S.World → Prop}
  {L : List T.Key} {ω : List (T.DB → T.DB)} {σ : T.DB × T.World} {b : Bool} {Q : α → Bool → Prop}

/-- Uncommitted writes that are a step of `R` on the part, and none while the flag is down. -/
structure Part.Writes (E : Part S T) (R : S.DB → S.DB → Prop) (b : Bool) (L : List T.Key)
    (ω : List (T.DB → T.DB)) : Prop where
  part : ∀ d, ∃ s, view ω d = E.setDb d s ∧ R (E.db d) s
  clean : b = false → L = [] ∧ ω = []

theorem Part.Writes.nil (h : E.Allowed C R W) : E.Writes R b [] [] :=
  ⟨fun d => ⟨E.db d, (E.setDb_db d).symm, h.refl _⟩, fun _ => ⟨rfl, rfl⟩⟩

/-- **An embedded program keeps to the contract.** -/
theorem wp_embed (hE : E.Allowed C R W) (p : Prog S α) (h : p.track R W Q b)
    (hω : E.Writes R b L ω) : wp C (p.embed E) (fun a L ω _ => ∃ b, Q a b ∧ E.Writes R b L ω)
      L ω σ := by
  induction p generalizing L ω σ b with
  | ret a => exact ⟨b, h, hω⟩
  | throw e => trivial
  | lock k next ih => exact fun σ' _ _ => ih h ⟨hω.part, nofun⟩
  | query next ih => exact fun σ' _ _ => ih _ (h _) hω
  | exec rows write next ih =>
    intro σ' _ _
    refine ih _ (h.2 _) ⟨fun d => ?_, nofun⟩
    obtain ⟨s, hs, hR⟩ := hω.part d
    refine ⟨write (E.db (view ω σ'.1)) s, ?_, hE.trans _ _ _ hR (h.1 _ _)⟩
    rw [view_append, view_cons, view_nil, hs]
    simp only [E.db_setDb, E.setDb_setDb]
  | commit ev next ih =>
    intro σ' _ _ _
    obtain ⟨s, hs, hR⟩ := hω.part σ'.1
    exact ⟨hs ▸ hE.commit ev L σ' s hR, ih h (.nil hE)⟩
  | call ev f next ih =>
    intro σ' _ _ _
    exact ⟨hE.call ev L σ' _ (h.1 _), ih _ (h.2 _) hω⟩

theorem Safe.embed (hE : E.Allowed C R W) {p : Prog S α}
    (h : p.track R W (fun _ b => b = false) false) : Safe C (p.embed E) := by
  intro σ
  refine wp_mono _ ?_ (wp_embed hE p h (.nil hE))
  rintro a L ω _ ⟨b, rfl, hω⟩
  exact hω.clean rfl

end Transactions
