import Mathlib.Data.List.Basic

/-!
# Text patterns with backtracking

Regular expressions with word boundaries, as a backtracking engine searches them: a run of a class
of characters is tried from the longest one down, alternatives are tried in their order.  What a
pattern matches is stated without the search, as a relation between a segment and its two sides.

Proved here:

* `find_sound`, `find_complete`: the search finds a match, and finds one wherever there is one;
* `replaceAll_scan`: replacing every match walks over the text, skips a character where nothing
  matches and rewrites a segment that matches;
* `Scan.window`: a segment that no replacement can have written stands in the text as well;
* `Scan.reaches`: the walk stops at a character that no match has in its interior.
-/

namespace Patterns

def isDigit (c : Char) : Bool := 48 ≤ c.toNat && c.toNat ≤ 57

/-- The characters of `\w`. -/
def isWord (c : Char) : Bool :=
  isDigit c || (65 ≤ c.toNat && c.toNat ≤ 90) || (97 ≤ c.toNat && c.toNat ≤ 122) || c == '_'

theorem isWord_of_isDigit {c : Char} (h : isDigit c = true) : isWord c = true := by
  simp [isWord, h]

/-- Exactly one of two neighbours is a word character; the ends of the text are none. -/
def atBoundary (before after : Option Char) : Bool := before.any isWord != after.any isWord

/-- A pattern: a run of characters of a class, a word boundary, a sequence, a choice, a group
whose text is remembered. -/
inductive Pattern where
  | chars (cls : Char → Bool) (least : Nat) (most : Option Nat)
  | boundary
  | seq (p q : Pattern)
  | alt (p q : Pattern)
  | group (p : Pattern)

/-- The character before the text that follows `seg`. -/
def lastOf (before : Option Char) (seg : List Char) : Option Char := seg.getLast?.or before

@[simp] theorem lastOf_nil (before : Option Char) : lastOf before [] = before := rfl

@[simp] theorem lastOf_cons (before : Option Char) (c : Char) (seg : List Char) :
    lastOf before (c :: seg) = lastOf (some c) seg := by
  cases seg with
  | nil => rfl
  | cons d seg => simp [lastOf, List.getLast?_cons]

theorem lastOf_append (before : Option Char) (seg seg' : List Char) :
    lastOf before (seg ++ seg') = lastOf (lastOf before seg) seg' := by
  induction seg generalizing before with
  | nil => rfl
  | cons c seg ih => simpa using ih (some c)

/-! ## What a pattern matches -/

/-- `p` matches `seg` between `before` and `after`, and its group is `captured`. -/
def Matches : Pattern → Option Char → List Char → List Char → Option (List Char) → Prop
  | .chars cls least most, _, seg, _, captured =>
    (∀ c ∈ seg, cls c = true) ∧ least ≤ seg.length ∧ (∀ n, most = some n → seg.length ≤ n) ∧
      captured = none
  | .boundary, before, seg, after, captured =>
    seg = [] ∧ atBoundary before after.head? = true ∧ captured = none
  | .seq p q, before, seg, after, captured =>
    ∃ seg₁ seg₂ captured₁ captured₂, seg = seg₁ ++ seg₂ ∧ captured = captured₂.or captured₁ ∧
      Matches p before seg₁ (seg₂ ++ after) captured₁ ∧
      Matches q (lastOf before seg₁) seg₂ after captured₂
  | .alt p q, before, seg, after, captured =>
    Matches p before seg after captured ∨ Matches q before seg after captured
  | .group p, before, seg, after, captured =>
    captured = some seg ∧ ∃ inner, Matches p before seg after inner

/-- Nothing that `p` matches starts here. -/
def Unmatched (p : Pattern) (before : Option Char) (text : List Char) : Prop :=
  ∀ seg after captured, text = seg ++ after → ¬ Matches p before seg after captured

/-! ## The search -/

/-- Where the search stands, and the last group. -/
structure Spot where
  before : Option Char
  rest : List Char
  captured : Option (List Char)

variable {α : Type}

/-- Take as many characters of the class as there may be, then go back one by one. -/
def runChars (cls : Char → Bool) (k : Option Char → List Char → Option α) :
    Nat → Option Nat → Option Char → List Char → Option α
  | least, _, before, [] => if least = 0 then k before [] else none
  | least, most, before, c :: rest =>
    (if cls c = true ∧ most ≠ some 0 then
      runChars cls k (least - 1) (most.map (· - 1)) (some c) rest else none).or
    (if least = 0 then k before (c :: rest) else none)

def run : Pattern → (Spot → Option α) → Spot → Option α
  | .chars cls least most, k, s =>
    runChars cls (fun before rest => k ⟨before, rest, s.captured⟩) least most s.before s.rest
  | .boundary, k, s => if atBoundary s.before s.rest.head? then k s else none
  | .seq p q, k, s => run p (run q k) s
  | .alt p q, k, s => (run p k s).or (run q k s)
  | .group p, k, s =>
    run p (fun s' =>
      k { s' with captured := some (s.rest.take (s.rest.length - s'.rest.length)) }) s

/-- The segment at the start of `text` that the search finds, with its group. -/
def find (p : Pattern) (before : Option Char) (text : List Char) :
    Option (List Char × Option (List Char)) :=
  run p (fun s => some (text.take (text.length - s.rest.length), s.captured))
    ⟨before, text, none⟩

theorem runChars_sound {cls : Char → Bool} {k : Option Char → List Char → Option α} {r : α}
    {text : List Char} : ∀ {least : Nat} {most : Option Nat} {before : Option Char},
    runChars cls k least most before text = some r →
    ∃ seg after, text = seg ++ after ∧ Matches (.chars cls least most) before seg after none ∧
      k (lastOf before seg) after = some r := by
  induction text with
  | nil =>
    intro least most before h
    simp only [runChars, ite_eq_iff, reduceCtorEq, and_false, or_false] at h
    obtain ⟨rfl, h⟩ := h
    exact ⟨[], [], rfl, ⟨by simp, Nat.le_refl 0, by simp, rfl⟩, h⟩
  | cons c rest ih =>
    intro least most before h
    simp only [runChars, Option.or_eq_some_iff, ite_eq_iff, reduceCtorEq, and_false,
      or_false] at h
    rcases h with ⟨⟨hc, hmost⟩, h⟩ | ⟨-, rfl, h⟩
    · obtain ⟨seg, after, rfl, ⟨hall, hleast, hlimit, -⟩, hk⟩ := ih h
      refine ⟨c :: seg, after, rfl, ⟨?_, ?_, ?_, rfl⟩, by simpa using hk⟩
      · simpa [hc] using hall
      · rw [List.length_cons]
        omega
      · rintro n rfl
        have hn : n ≠ 0 := fun h0 => hmost (congrArg some h0)
        have hle := hlimit (n - 1) rfl
        rw [List.length_cons]
        omega
    · exact ⟨[], c :: rest, rfl, ⟨by simp, Nat.le_refl 0, by simp, rfl⟩, h⟩

theorem runChars_complete {cls : Char → Bool} {k : Option Char → List Char → Option α}
    {after : List Char} {seg : List Char} :
    ∀ {least : Nat} {most : Option Nat} {before : Option Char},
    Matches (.chars cls least most) before seg after none →
    (k (lastOf before seg) after).isSome = true →
    (runChars cls k least most before (seg ++ after)).isSome = true := by
  induction seg with
  | nil =>
    rintro least most before ⟨-, hleast, -, -⟩ hk
    have hleast : least = 0 := Nat.le_zero.mp hleast
    cases after with
    | nil => simpa [runChars, hleast] using hk
    | cons c after =>
      rw [lastOf_nil] at hk
      simp [runChars, hleast, hk]
  | cons c seg ih =>
    rintro least most before ⟨hall, hleast, hlimit, -⟩ hk
    have hc : cls c = true := hall c (List.mem_cons_self ..)
    have hmost : most ≠ some 0 := fun h => absurd (hlimit 0 h) (by simp)
    have hrest : Matches (.chars cls (least - 1) (most.map (· - 1))) (some c) seg after none := by
      refine ⟨fun d hd => hall d (List.mem_cons_of_mem _ hd), ?_, ?_, rfl⟩
      · rw [List.length_cons] at hleast
        omega
      · rintro n hn
        obtain ⟨m, hm, rfl⟩ := Option.map_eq_some_iff.mp hn
        have hle := hlimit m hm
        rw [List.length_cons] at hle
        omega
    have hrun := ih hrest (by simpa using hk)
    simp [runChars, hc, hmost, hrun]

theorem take_length_sub {seg after : List Char} :
    (seg ++ after).take ((seg ++ after).length - after.length) = seg := by
  simp

theorem run_sound {p : Pattern} : ∀ {k : Spot → Option α} {s : Spot} {r : α},
    run p k s = some r → ∃ seg after captured, s.rest = seg ++ after ∧
      Matches p s.before seg after captured ∧
      k ⟨lastOf s.before seg, after, captured.or s.captured⟩ = some r := by
  induction p with
  | chars cls least most =>
    intro k s r h
    obtain ⟨seg, after, hrest, hm, hk⟩ := runChars_sound h
    exact ⟨seg, after, none, hrest, hm, hk⟩
  | boundary =>
    intro k s r h
    simp only [run, ite_eq_iff, reduceCtorEq, and_false, or_false] at h
    exact ⟨[], s.rest, none, rfl, ⟨rfl, h.1, rfl⟩, h.2⟩
  | seq p q ihp ihq =>
    intro k s r h
    obtain ⟨seg₁, after₁, captured₁, hrest, hp, h⟩ := ihp h
    obtain ⟨seg₂, after, captured₂, hrest₂, hq, hk⟩ := ihq h
    have hrest₂ : after₁ = seg₂ ++ after := hrest₂
    subst hrest₂
    refine ⟨seg₁ ++ seg₂, after, captured₂.or captured₁, by rw [hrest, List.append_assoc],
      ⟨seg₁, seg₂, captured₁, captured₂, rfl, rfl, hp, hq⟩, ?_⟩
    rw [lastOf_append, Option.or_assoc]
    exact hk
  | alt p q ihp ihq =>
    intro k s r h
    rcases Option.or_eq_some_iff.mp h with h | ⟨-, h⟩
    · obtain ⟨seg, after, captured, hrest, hp, hk⟩ := ihp h
      exact ⟨seg, after, captured, hrest, .inl hp, hk⟩
    · obtain ⟨seg, after, captured, hrest, hq, hk⟩ := ihq h
      exact ⟨seg, after, captured, hrest, .inr hq, hk⟩
  | group p ih =>
    intro k s r h
    obtain ⟨seg, after, captured, hrest, hp, hk⟩ := ih h
    refine ⟨seg, after, some seg, hrest, ⟨rfl, captured, hp⟩, ?_⟩
    rwa [hrest, take_length_sub] at hk

theorem run_complete {p : Pattern} : ∀ {k : Spot → Option α} {s : Spot}
    {seg after : List Char} {captured : Option (List Char)},
    s.rest = seg ++ after → Matches p s.before seg after captured →
    (k ⟨lastOf s.before seg, after, captured.or s.captured⟩).isSome = true →
    (run p k s).isSome = true := by
  induction p with
  | chars cls least most =>
    rintro k s seg after captured hrest ⟨hall, hleast, hmost, rfl⟩ hk
    rw [run, hrest]
    exact runChars_complete (k := fun before rest => k ⟨before, rest, s.captured⟩)
      ⟨hall, hleast, hmost, rfl⟩ hk
  | boundary =>
    rintro k s seg after captured hrest ⟨rfl, hb, rfl⟩ hk
    have hrest : s.rest = after := hrest
    subst hrest
    rw [run, if_pos hb]
    exact hk
  | seq p q ihp ihq =>
    rintro k s seg after captured hrest ⟨seg₁, seg₂, captured₁, captured₂, rfl, rfl, hp, hq⟩ hk
    rw [List.append_assoc] at hrest
    refine ihp hrest hp (ihq rfl hq ?_)
    rwa [lastOf_append, Option.or_assoc] at hk
  | alt p q ihp ihq =>
    rintro k s seg after captured hrest (hp | hq) hk
    · simp [run, ihp hrest hp hk]
    · simp [run, ihq hrest hq hk]
  | group p ih =>
    rintro k s seg after captured hrest ⟨rfl, inner, hp⟩ hk
    refine ih hrest hp ?_
    rw [hrest, take_length_sub]
    exact hk

theorem find_sound {p : Pattern} {before : Option Char} {text seg : List Char}
    {captured : Option (List Char)} (h : find p before text = some (seg, captured)) :
    ∃ after, text = seg ++ after ∧ Matches p before seg after captured := by
  obtain ⟨seg', after, captured', hrest, hm, hk⟩ := run_sound h
  have hrest : text = seg' ++ after := hrest
  subst hrest
  simp only [take_length_sub, Option.some.injEq, Prod.mk.injEq, Option.or_none] at hk
  obtain ⟨rfl, rfl⟩ := hk
  exact ⟨after, rfl, hm⟩

theorem find_complete {p : Pattern} {before : Option Char} {text : List Char}
    (h : find p before text = none) : Unmatched p before text := by
  intro seg after captured hrest hm
  have hsome : (find p before text).isSome = true :=
    run_complete (s := ⟨before, text, none⟩) hrest hm rfl
  rw [h] at hsome
  cases hsome

/-! ## Replacing every match -/

variable {p : Pattern} {f : List Char → Option (List Char) → List Char}
  {before before' : Option Char} {text text' out out' : List Char}

/-- The text from here on with every match replaced, `n` characters of a match still to pass by.
After an empty match the next character is copied. -/
def replaceFrom (p : Pattern) (f : List Char → Option (List Char) → List Char) :
    Option Char → Nat → List Char → List Char
  | before, 0, [] =>
    match find p before [] with
    | some (seg, captured) => f seg captured
    | none => []
  | _, _ + 1, [] => []
  | _, n + 1, c :: rest => replaceFrom p f (some c) n rest
  | before, 0, c :: rest =>
    match find p before (c :: rest) with
    | none => c :: replaceFrom p f (some c) 0 rest
    | some ([], captured) => f [] captured ++ c :: replaceFrom p f (some c) 0 rest
    | some (d :: seg, captured) => f (d :: seg) captured ++ replaceFrom p f (some c) seg.length rest

def replaceAll (p : Pattern) (f : List Char → Option (List Char) → List Char)
    (text : List Char) : List Char :=
  replaceFrom p f none 0 text

/-- Nothing that `p` matches is empty. -/
def Solid (p : Pattern) : Prop :=
  ∀ before seg after captured, Matches p before seg after captured → seg ≠ []

/-- The replacement that stands at `text` has written `out` when it stands at `text'`. -/
inductive Scan (p : Pattern) (f : List Char → Option (List Char) → List Char) :
    Option Char → List Char → List Char → Option Char → List Char → Prop where
  | here {before : Option Char} {text : List Char} : Scan p f before text [] before text
  | skip {before before' : Option Char} {c : Char} {text out text' : List Char}
      (h : Unmatched p before (c :: text)) (rest : Scan p f (some c) text out before' text') :
      Scan p f before (c :: text) (c :: out) before' text'
  | hit {before before' : Option Char} {seg text out text' : List Char}
      {captured : Option (List Char)} (h : Matches p before seg text captured) (hne : seg ≠ [])
      (rest : Scan p f (lastOf before seg) text out before' text') :
      Scan p f before (seg ++ text) (f seg captured ++ out) before' text'

theorem replaceFrom_pass (before : Option Char) (seg rest : List Char) :
    replaceFrom p f before seg.length (seg ++ rest) =
      replaceFrom p f (lastOf before seg) 0 rest := by
  induction seg generalizing before with
  | nil => rfl
  | cons c seg ih => simpa [replaceFrom] using ih (some c)

theorem replaceFrom_of_find {c : Char} {seg after : List Char} {captured : Option (List Char)}
    (h : find p before (c :: (seg ++ after)) = some (c :: seg, captured)) :
    replaceFrom p f before 0 (c :: (seg ++ after)) =
      f (c :: seg) captured ++ replaceFrom p f (lastOf before (c :: seg)) 0 after := by
  rw [replaceFrom, h, lastOf_cons]
  exact congrArg _ (replaceFrom_pass (some c) seg after)

theorem replaceFrom_scan (hp : Solid p) : ∀ (n : Nat) (before : Option Char) (text : List Char),
    text.length = n → ∃ before',
      Scan p f before text (replaceFrom p f before 0 text) before' [] := by
  intro n
  induction n using Nat.strongRecOn with
  | ind n ih =>
    intro before text hn
    cases text with
    | nil =>
      have hnone : find p before [] = none := by
        cases hfind : find p before [] with
        | none => rfl
        | some found =>
          obtain ⟨after, htext, hm⟩ := find_sound hfind
          exact absurd (List.append_eq_nil_iff.mp htext.symm).1 (hp _ _ _ _ hm)
      rw [replaceFrom, hnone]
      exact ⟨before, .here⟩
    | cons c rest =>
      rw [List.length_cons] at hn
      cases hfind : find p before (c :: rest) with
      | none =>
        obtain ⟨before', hrest⟩ := ih rest.length (by omega) (some c) rest rfl
        rw [replaceFrom, hfind]
        exact ⟨before', .skip (find_complete hfind) hrest⟩
      | some found =>
        obtain ⟨seg, captured⟩ := found
        obtain ⟨after, htext, hm⟩ := find_sound hfind
        cases seg with
        | nil => exact absurd rfl (hp _ _ _ _ hm)
        | cons d seg =>
          obtain ⟨rfl, rfl⟩ := List.cons.inj htext
          have hlength : (seg ++ after).length + 1 = n := hn
          rw [List.length_append] at hlength
          obtain ⟨before', hrest⟩ :=
            ih after.length (by omega) (lastOf before (c :: seg)) after rfl
          exact ⟨before', replaceFrom_of_find hfind ▸ Scan.hit hm (hp _ _ _ _ hm) hrest⟩

theorem replaceAll_scan (hp : Solid p) (text : List Char) :
    ∃ before', Scan p f none text (replaceAll p f text) before' [] :=
  replaceFrom_scan hp text.length none text rfl

/-- A text in which nothing matches is left as it is. -/
theorem replaceFrom_of_unmatched :
    ∀ {text : List Char} {before : Option Char},
    (∀ pre rest, text = pre ++ rest → Unmatched p (lastOf before pre) rest) →
    replaceFrom p f before 0 text = text := by
  intro text
  induction text with
  | nil =>
    intro before h
    rw [replaceFrom]
    cases hfind : find p before [] with
    | none => rfl
    | some found =>
      obtain ⟨after, htext, hm⟩ := find_sound hfind
      exact absurd hm (h [] [] rfl _ _ _ htext)
  | cons c rest ih =>
    intro before h
    rw [replaceFrom]
    cases hfind : find p before (c :: rest) with
    | none =>
      exact congrArg (c :: ·) (ih fun pre after htext => by
        simpa using h (c :: pre) after (by rw [htext, List.cons_append]))
    | some found =>
      obtain ⟨after, htext, hm⟩ := find_sound hfind
      exact absurd hm (h [] (c :: rest) rfl _ _ _ htext)

namespace Scan

theorem before_eq (h : Scan p f before text out before' text') :
    ∃ pre, text = pre ++ text' ∧ before' = lastOf before pre := by
  induction h with
  | here => exact ⟨[], rfl, rfl⟩
  | @skip _ _ c _ _ _ _ _ ih =>
    obtain ⟨pre, rfl, rfl⟩ := ih
    exact ⟨c :: pre, rfl, by simp⟩
  | @hit _ _ seg _ _ _ _ _ _ _ ih =>
    obtain ⟨pre, rfl, rfl⟩ := ih
    exact ⟨seg ++ pre, by simp, by rw [lastOf_append]⟩

/-- The last thing that was written: nothing yet, a copy of the character before, or the
replacement of a match that ends here. -/
theorem ending (h : Scan p f before text out before' text') :
    (out = [] ∧ before' = before ∧ text' = text) ∨
    (∃ c, before' = some c ∧ out.getLast? = some c) ∨
    ∃ pre seg captured written, text = pre ++ (seg ++ text') ∧
      Matches p (lastOf before pre) seg text' captured ∧ seg ≠ [] ∧
      before' = lastOf (lastOf before pre) seg ∧ out = written ++ f seg captured := by
  induction h with
  | here => exact .inl ⟨rfl, rfl, rfl⟩
  | @skip before before' c text out text' hskip rest ih =>
    rcases ih with ⟨rfl, rfl, rfl⟩ | ⟨d, hd, hlast⟩ |
      ⟨pre, seg, cap, written, rfl, hm, hne, rfl, rfl⟩
    · exact .inr (.inl ⟨c, rfl, rfl⟩)
    · exact .inr (.inl ⟨d, hd, by rw [List.getLast?_cons, hlast, Option.getD_some]⟩)
    · exact .inr (.inr ⟨c :: pre, seg, cap, c :: written, by simp, by simpa using hm, hne,
        by simp, by simp⟩)
  | @hit before before' seg text out text' captured hm hne rest ih =>
    rcases ih with ⟨rfl, rfl, rfl⟩ | ⟨d, hd, hlast⟩ |
      ⟨pre, seg', cap, written, rfl, hm', hne', rfl, rfl⟩
    · exact .inr (.inr ⟨[], seg, captured, [], by simp, hm, hne, by simp, by simp⟩)
    · refine .inr (.inl ⟨d, hd, ?_⟩)
      rw [List.getLast?_append, hlast, Option.some_or]
    · refine .inr (.inr ⟨seg ++ pre, seg', cap, f seg captured ++ written, by simp, ?_, hne', ?_,
        by simp⟩)
      · rwa [lastOf_append]
      · rw [lastOf_append]

/-- The first thing that is written. -/
theorem first (h : Scan p f before text out before' []) :
    (text = [] ∧ out = []) ∨
    (∃ c rest out', text = c :: rest ∧ out = c :: out' ∧ Unmatched p before text) ∨
    ∃ seg rest captured out', text = seg ++ rest ∧ Matches p before seg rest captured ∧
      out = f seg captured ++ out' ∧ Scan p f (lastOf before seg) rest out' before' [] := by
  cases h with
  | here => exact .inl ⟨rfl, rfl⟩
  | skip hskip rest => exact .inr (.inl ⟨_, _, _, rfl, rfl, hskip⟩)
  | hit hm hne rest => exact .inr (.inr ⟨_, _, _, _, rfl, hm, rfl, rest⟩)

end Scan

/-- No replacement ends with a character of `w`, and none has the last character of `w`. -/
structure Foreign (p : Pattern) (f : List Char → Option (List Char) → List Char)
    (w : List Char) : Prop where
  ends : ∀ before seg after captured, Matches p before seg after captured →
    ∃ c, (f seg captured).getLast? = some c ∧ c ∉ w
  inner : ∀ before seg after captured, Matches p before seg after captured →
    ∀ c, w.getLast? = some c → c ∉ f seg captured

/-- No match starts in `w`. -/
def Standing (p : Pattern) (before : Option Char) (w post : List Char) : Prop :=
  ∀ a b, w = a ++ b → b ≠ [] → Unmatched p (lastOf before a) (b ++ post)

theorem Standing.head {c : Char} {w post : List Char} (h : Standing p before (c :: w) post) :
    Unmatched p before (c :: (w ++ post)) :=
  h [] (c :: w) rfl (by simp)

theorem Standing.tail {c : Char} {w post : List Char} (h : Standing p before (c :: w) post) :
    Standing p (some c) w post := by
  rintro a b rfl hb
  simpa using h (c :: a) b rfl hb

theorem Standing.of_forall {w post : List Char}
    (h : ∀ c ∈ w, ∀ before rest, Unmatched p before (c :: rest)) : Standing p before w post := by
  rintro a b rfl hb
  cases b with
  | nil => exact absurd rfl hb
  | cons c b => exact h c (by simp) _ _

theorem Standing.cons {c : Char} {w post : List Char}
    (hhead : Unmatched p before (c :: (w ++ post))) (htail : Standing p (some c) w post) :
    Standing p before (c :: w) post := by
  intro a b hab hb
  cases a with
  | nil =>
    rw [List.nil_append] at hab
    rw [← hab]
    exact hhead
  | cons d a =>
    obtain ⟨rfl, rfl⟩ := List.cons.inj hab
    simpa using htail a b rfl hb

namespace Foreign

variable {w : List Char}

theorem tail {c : Char} (h : Foreign p f (c :: w)) : Foreign p f w where
  ends before seg after captured hm := by
    obtain ⟨d, hd, hnot⟩ := h.ends before seg after captured hm
    exact ⟨d, hd, fun hmem => hnot (List.mem_cons_of_mem _ hmem)⟩
  inner before seg after captured hm d hd :=
    h.inner before seg after captured hm d (by rw [List.getLast?_cons, hd, Option.getD_some])

/-- A replacement does not overlap `w`. -/
theorem apart (h : Foreign p f w) (hw : w ≠ []) {before : Option Char} {seg after : List Char}
    {captured : Option (List Char)} (hm : Matches p before seg after captured)
    {pre' post' out : List Char} (hout : f seg captured ++ out = pre' ++ (w ++ post')) :
    ∃ a, pre' = f seg captured ++ a ∧ out = a ++ (w ++ post') := by
  obtain ⟨c, hlast, hnot⟩ := h.ends _ _ _ _ hm
  obtain ⟨z, hz⟩ : ∃ z, w.getLast? = some z := ⟨_, List.getLast?_eq_some_getLast hw⟩
  have hinner := h.inner _ _ _ _ hm z hz
  have hzw : z ∈ w := List.mem_of_getLast? hz
  rcases List.append_eq_append_iff.mp hout with ⟨a, hpre, hrest⟩ | ⟨a, hf, hrest⟩
  · exact ⟨a, hpre, hrest⟩
  · by_cases ha : a = []
    · subst ha
      exact ⟨[], by simpa using hf.symm, by simpa using hrest.symm⟩
    · exfalso
      rcases List.append_eq_append_iff.mp hrest with ⟨b, rfl, -⟩ | ⟨b, rfl, -⟩
      · exact hinner (hf ▸ by simp [hzw])
      · have hc : a.getLast? = some c := by
          rw [hf, List.getLast?_append] at hlast
          rcases Option.or_eq_some_iff.mp hlast with hc | ⟨hnone, -⟩
          · exact hc
          · exact absurd (List.getLast?_eq_none_iff.mp hnone) ha
        exact hnot (List.mem_append_left _ (List.mem_of_getLast? hc))

end Foreign

namespace Scan

variable {w pre post pre' post' : List Char}

theorem window_here (h : Scan p f before text out before' text') (hw : Foreign p f w)
    (hout : out = w ++ post') :
    ∃ post, text = w ++ post ∧ Standing p before w post ∧
      Scan p f (lastOf before w) post post' before' text' := by
  induction w generalizing before text out with
  | nil =>
    subst hout
    exact ⟨text, rfl, fun a b hab hb => absurd (List.append_eq_nil_iff.mp hab.symm).2 hb, h⟩
  | cons c w ih =>
    cases h with
    | here => cases hout
    | skip hskip rest =>
      obtain ⟨rfl, hrest⟩ := List.cons.inj hout
      obtain ⟨post, rfl, hstanding, hscan⟩ := ih rest hw.tail hrest
      exact ⟨post, rfl, .cons hskip hstanding, by simpa using hscan⟩
    | hit hm hne rest =>
      rw [← List.nil_append (c :: w ++ post')] at hout
      obtain ⟨a, ha, -⟩ := hw.apart (by simp) hm hout
      obtain ⟨z, hz, -⟩ := hw.ends _ _ _ _ hm
      rw [(List.append_eq_nil_iff.mp ha.symm).1] at hz
      cases hz

/-- A segment that no replacement can have written stands in the text as well. -/
theorem window (h : Scan p f before text out before' text') (hw : Foreign p f w) (hne : w ≠ [])
    (hout : out = pre' ++ (w ++ post')) :
    ∃ pre post, text = pre ++ (w ++ post) ∧
      Scan p f before text pre' (lastOf before pre) (w ++ post) ∧
      Standing p (lastOf before pre) w post ∧
      Scan p f (lastOf (lastOf before pre) w) post post' before' text' := by
  induction h generalizing pre' with
  | here =>
    obtain ⟨-, hnil⟩ := List.append_eq_nil_iff.mp hout.symm
    exact absurd (List.append_eq_nil_iff.mp hnil).1 hne
  | @skip before before' c text out text' hskip rest ih =>
    cases pre' with
    | nil =>
      obtain ⟨post, htext, hstanding, hscan⟩ := window_here (.skip hskip rest) hw hout
      exact ⟨[], post, htext, by rw [htext]; exact .here, hstanding, hscan⟩
    | cons d pre' =>
      obtain ⟨rfl, hrest⟩ := List.cons.inj hout
      obtain ⟨pre, post, rfl, hfirst, hstanding, hscan⟩ := ih hrest
      exact ⟨c :: pre, post, rfl, by simpa using Scan.skip hskip hfirst, by simpa using hstanding,
        by simpa using hscan⟩
  | @hit before before' seg text out text' captured hm hseg rest ih =>
    obtain ⟨a, rfl, hrest⟩ := hw.apart hne hm hout
    obtain ⟨pre, post, rfl, hfirst, hstanding, hscan⟩ := ih hrest
    refine ⟨seg ++ pre, post, by simp, ?_, ?_, ?_⟩
    · rw [lastOf_append]
      exact .hit hm hseg hfirst
    · rwa [lastOf_append]
    · rwa [lastOf_append]

/-- The walk stops at a character that a match has at most at its start. -/
theorem reaches {c : Char} (h : Scan p f before text out before' [])
    (hc : ∀ before seg after captured, Matches p before seg after captured → c ∉ seg.tail)
    (htext : text = pre ++ c :: post) :
    ∃ pre' out', out = pre' ++ out' ∧ Scan p f before text pre' (lastOf before pre) (c :: post) ∧
      Scan p f (lastOf before pre) (c :: post) out' before' [] := by
  generalize hend : ([] : List Char) = text' at h
  induction h generalizing pre with
  | here =>
    subst hend
    exact absurd (List.append_eq_nil_iff.mp htext.symm).2 (by simp)
  | @skip before before' d text out text' hskip rest ih =>
    cases pre with
    | nil =>
      obtain ⟨rfl, rfl⟩ := List.cons.inj htext
      subst hend
      exact ⟨[], _, rfl, .here, .skip hskip rest⟩
    | cons e pre =>
      obtain ⟨rfl, hrest⟩ := List.cons.inj htext
      obtain ⟨pre', out', rfl, hfirst, hscan⟩ := ih hrest hend
      exact ⟨d :: pre', out', rfl, by simpa using Scan.skip hskip hfirst, by simpa using hscan⟩
  | @hit before before' seg text out text' captured hm hne rest ih =>
    have hinside : pre = [] ∨ ∃ a, pre = seg ++ a ∧ text = a ++ c :: post := by
      rcases List.append_eq_append_iff.mp htext with ⟨a, rfl, hrest⟩ | ⟨a, rfl, hrest⟩
      · exact .inr ⟨a, rfl, hrest⟩
      · cases a with
        | nil => exact .inr ⟨[], by simp, hrest.symm⟩
        | cons d a =>
          obtain ⟨rfl, -⟩ := List.cons.inj hrest
          cases pre with
          | nil => exact .inl rfl
          | cons e pre => exact absurd (by simp) (hc _ _ _ _ hm)
    rcases hinside with rfl | ⟨a, rfl, hrest⟩
    · subst hend
      rw [List.nil_append] at htext
      exact ⟨[], _, rfl, htext ▸ .here, htext ▸ .hit hm hne rest⟩
    · obtain ⟨pre', out', rfl, hfirst, hscan⟩ := ih hrest hend
      refine ⟨f seg captured ++ pre', out', by simp, ?_, ?_⟩
      · rw [lastOf_append]
        exact .hit hm hne hfirst
      · rwa [lastOf_append]

/-- What stands is copied. -/
theorem copies (h : Scan p f before (w ++ post) out before' [])
    (hw : Standing p before w post) :
    ∃ out', out = w ++ out' ∧ Scan p f (lastOf before w) post out' before' [] := by
  induction w generalizing before out with
  | nil => exact ⟨out, rfl, h⟩
  | cons c w ih =>
    generalize htext : c :: w ++ post = text at h
    cases h with
    | here => cases htext
    | skip hskip rest =>
      obtain ⟨rfl, rfl⟩ := List.cons.inj htext
      obtain ⟨out', rfl, hscan⟩ := ih rest hw.tail
      exact ⟨out', rfl, by simpa using hscan⟩
    | hit hm hne rest => exact absurd hm (hw.head _ _ _ htext)

end Scan

end Patterns
