/-!
# Database programs, one node for each atomic step

A program is the tree of what a client does next: take a lock, run a query,
run a write, commit, or call a service outside the database.  Writes stay
private to the client until `commit`; a query sees the committed database with
the client's own uncommitted writes on top (`view`), which is the READ COMMITTED
rule that every statement takes a fresh snapshot.

Nothing here depends on what the database holds.
-/

namespace Transactions

/-- What a system of clients is made of. -/
structure Signature where
  DB : Type
  World : Type
  Key : Type
  Event : Type
  Error : Type

/-- A client's program.  `exec rows write next` is an INSERT, UPDATE or DELETE: on the
view it reads, `rows` are the row locks it needs, `write` is its effect and `next` may
inspect what it matched.  `commit` and `call` carry a ghost event that names them. -/
inductive Prog (S : Signature) (α : Type) where
  | ret (a : α)
  | throw (e : S.Error)
  | lock (k : S.Key) (next : Prog S α)
  | query (next : S.DB → Prog S α)
  | exec (rows : S.DB → List S.Key) (write : S.DB → S.DB → S.DB) (next : S.DB → Prog S α)
  | commit (ev : S.Event) (next : Prog S α)
  | call (ev : S.Event) (f : S.World → S.World) (next : S.World → Prog S α)

variable {S : Signature} {α β : Type}

namespace Prog

def bind : Prog S α → (α → Prog S β) → Prog S β
  | .ret a, f => f a
  | .throw e, _ => .throw e
  | .lock k next, f => .lock k (next.bind f)
  | .query next, f => .query fun v => (next v).bind f
  | .exec rows write next, f => .exec rows write fun v => (next v).bind f
  | .commit ev next, f => .commit ev (next.bind f)
  | .call ev g next, f => .call ev g fun w => (next w).bind f

instance : Monad (Prog S) where
  pure := .ret
  bind := bind

@[simp] theorem pure_eq (a : α) : (pure a : Prog S α) = .ret a := rfl

@[simp] theorem bind_eq (p : Prog S α) (f : α → Prog S β) : p >>= f = p.bind f := rfl

end Prog

/-! ## Statements -/

/-- `pg_advisory_xact_lock`: held until the transaction ends. -/
def acquire (k : S.Key) : Prog S Unit := .lock k (.ret ())

/-- A SELECT. -/
def select (f : S.DB → α) : Prog S α := .query fun v => .ret (f v)

/-- A write that always touches the same rows. -/
def write (rows : List S.Key) (f : S.DB → S.DB) : Prog S Unit :=
  .exec (fun _ => rows) (fun _ => f) fun _ => .ret ()

/-- An UPDATE with a WHERE clause: the clause is evaluated on the view once the row
is free, and the result says whether the row matched. -/
def updateWhere (row : S.Key) (cond : S.DB → Bool) (f : S.DB → S.DB) : Prog S Bool :=
  .exec (fun v => if cond v then [row] else []) (fun v => if cond v then f else id)
    fun v => .ret (cond v)

/-- An UPDATE of all the rows that the statement finds; it leaves other rows alone, also those
that are committed before this transaction is. -/
def updateFound {β : Type} (found : S.DB → List β) (row : β → S.Key)
    (f : List β → S.DB → S.DB) : Prog S (List β) :=
  .exec (fun v => (found v).map row) (fun v => f (found v)) fun v => .ret (found v)

/-- An INSERT under unique constraints, `rows` being the index entries it locks: `taken`
says that one is in use, and then the statement fails with `e`. -/
def insertUnique (rows : List S.Key) (taken : S.DB → Bool) (e : S.Error)
    (f : S.DB → S.DB) : Prog S Unit :=
  .exec (fun _ => rows) (fun _ => f) fun v => if taken v then .throw e else .ret ()

def throwing (e : S.Error) : Prog S α := .throw e

/-- A check outside the database that may throw. -/
def lift : Except S.Error α → Prog S α
  | .ok a => .ret a
  | .error e => .throw e

/-- `INSERT .. ON CONFLICT DO NOTHING`. -/
def insertMissing (row : S.Key) (taken : S.DB → Bool) (f : S.DB → S.DB) : Prog S Unit :=
  .exec (fun _ => [row]) (fun v => if taken v then id else f) fun _ => .ret ()

def commit (ev : S.Event) : Prog S Unit := .commit ev (.ret ())

/-- A call outside the database: the result is read off the world it found. -/
def call (ev : S.Event) (f : S.World → S.World) (out : S.World → α) : Prog S α :=
  .call ev f fun w => .ret (out w)

/-- Run `p` if `c` holds. -/
def when (c : Bool) (p : Prog S Unit) : Prog S Unit := if c then p else .ret ()

/-- Run `body` for each element, in order. -/
def forEach : List β → (β → Prog S Unit) → Prog S Unit
  | [], _ => .ret ()
  | b :: bs, body => body b >>= fun _ => forEach bs body

/-! ## One client alone -/

/-- The committed database with uncommitted writes on top, oldest first. -/
def view {D : Type} (ω : List (D → D)) (db : D) : D := ω.foldl (fun d f => f d) db

@[simp] theorem view_nil {D : Type} (db : D) : view [] db = db := rfl

@[simp] theorem view_cons {D : Type} (f : D → D) (ω : List (D → D)) (db : D) :
    view (f :: ω) db = view ω (f db) := rfl

@[simp] theorem view_append {D : Type} (ω ω' : List (D → D)) (db : D) :
    view (ω ++ ω') db = view ω' (view ω db) := by
  simp [view, List.foldl_append]

/-- Run a program with no other client present. -/
def Prog.alone : Prog S α → List (S.DB → S.DB) → S.DB × S.World →
    Except S.Error α × (S.DB × S.World)
  | .ret a, _, σ => (.ok a, σ)
  | .throw e, _, σ => (.error e, σ)
  | .lock _ next, ω, σ => next.alone ω σ
  | .query next, ω, σ => (next (view ω σ.1)).alone ω σ
  | .exec _ write next, ω, σ => (next (view ω σ.1)).alone (ω ++ [write (view ω σ.1)]) σ
  | .commit _ next, ω, σ => next.alone [] (view ω σ.1, σ.2)
  | .call _ f next, ω, σ => (next σ.2).alone ω (σ.1, f σ.2)

namespace Prog

variable {γ : Type} {ω : List (S.DB → S.DB)} {σ : S.DB × S.World}

theorem bind_assoc (p : Prog S α) (f : α → Prog S β) (g : β → Prog S γ) :
    (p.bind f).bind g = p.bind fun a => (f a).bind g := by
  induction p with
  | ret a => rfl
  | throw e => rfl
  | lock k next ih => simp only [bind, ih]
  | query next ih => simp only [bind, ih]
  | exec rows write next ih => simp only [bind, ih]
  | commit ev next ih => simp only [bind, ih]
  | call ev f next ih => simp only [bind, ih]

@[simp] theorem bind_ret (p : Prog S α) : p.bind .ret = p := by
  induction p with
  | ret a => rfl
  | throw e => rfl
  | lock k next ih => simp only [bind, ih]
  | query next ih => simp only [bind, ih]
  | exec rows write next ih => simp only [bind, ih]
  | commit ev next ih => simp only [bind, ih]
  | call ev f next ih => simp only [bind, ih]

@[simp] theorem ret_bind (a : α) (f : α → Prog S β) : (Prog.ret a).bind f = f a := rfl

@[simp] theorem alone_ret (a : α) : (Prog.ret a : Prog S α).alone ω σ = (.ok a, σ) := rfl

@[simp] theorem alone_acquire (k : S.Key) (f : Unit → Prog S β) :
    ((acquire k).bind f).alone ω σ = (f ()).alone ω σ := rfl

@[simp] theorem alone_select (g : S.DB → α) (f : α → Prog S β) :
    ((select g).bind f).alone ω σ = (f (g (view ω σ.1))).alone ω σ := rfl

@[simp] theorem alone_write (rows : List S.Key) (g : S.DB → S.DB) (f : Unit → Prog S β) :
    ((write rows g).bind f).alone ω σ = (f ()).alone (ω ++ [g]) σ := rfl

@[simp] theorem alone_updateWhere (row : S.Key) (cond : S.DB → Bool) (g : S.DB → S.DB)
    (f : Bool → Prog S β) : ((updateWhere row cond g).bind f).alone ω σ =
      (f (cond (view ω σ.1))).alone (ω ++ [if cond (view ω σ.1) then g else id]) σ := rfl

theorem alone_insertUnique {rows : List S.Key} {taken : S.DB → Bool} {e : S.Error}
    {g : S.DB → S.DB} {f : Unit → Prog S β} (h : taken (view ω σ.1) = false) :
    ((insertUnique rows taken e g).bind f).alone ω σ = (f ()).alone (ω ++ [g]) σ := by
  simp [insertUnique, bind, alone, h]

@[simp] theorem alone_commit (ev : S.Event) (f : Unit → Prog S β) :
    ((Transactions.commit ev).bind f).alone ω σ = (f ()).alone [] (view ω σ.1, σ.2) := rfl

@[simp] theorem alone_call (ev : S.Event) (g : S.World → S.World) (out : S.World → α)
    (f : α → Prog S β) :
    ((Transactions.call ev g out).bind f).alone ω σ = (f (out σ.2)).alone ω (σ.1, g σ.2) := rfl

theorem alone_lift (x : Except S.Error α) (f : α → Prog S β) :
    ((lift x).bind f).alone ω σ = match x with
      | .ok a => (f a).alone ω σ
      | .error e => (.error e, σ) := by
  cases x <;> rfl

end Prog

end Transactions
