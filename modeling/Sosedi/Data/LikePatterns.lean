import Mathlib.Data.List.Infix

/-!
# LIKE patterns

In a pattern `%` stands for any text and `_` for any character, and the character behind the
escape character stands for itself.  Proved here:

* `like_quote`: a pattern that quotes a text between two `%` finds the texts that contain it;
* `like_plain`: without an escape character this is so for a text of no special characters;
* `count_le_of_accepts`: a text has as many of a character as the pattern asks for.
-/

namespace LikePatterns

inductive Token where
  | char (c : Char)
  | anyChar
  | anyText
  deriving DecidableEq

/-- The tokens of the rest of a pattern, `escaped` telling that an escape character stands
before it; a pattern must not end with one. -/
def tokensFrom (escape : Option Char) : Bool → List Char → Option (List Token)
  | false, [] => some []
  | true, [] => none
  | true, c :: cs => (tokensFrom escape false cs).map (.char c :: ·)
  | false, c :: cs =>
    if escape = some c then tokensFrom escape true cs
    else if c = '%' then (tokensFrom escape false cs).map (.anyText :: ·)
    else if c = '_' then (tokensFrom escape false cs).map (.anyChar :: ·)
    else (tokensFrom escape false cs).map (.char c :: ·)

def tokens (escape : Option Char) (pattern : List Char) : Option (List Token) :=
  tokensFrom escape false pattern

/-- The text is one of the pattern, `same` telling which characters count as equal. -/
def accepts (same : Char → Char → Bool) : List Token → List Char → Bool
  | [], text => text.isEmpty
  | .anyText :: ts, text => text.tails.any (accepts same ts)
  | .anyChar :: ts, _ :: text => accepts same ts text
  | .char c :: ts, d :: text => same c d && accepts same ts text
  | _ :: _, [] => false

/-- `text LIKE pattern ESCAPE escape`. -/
def like (same : Char → Char → Bool) (escape : Option Char) (pattern text : List Char) : Bool :=
  (tokens escape pattern).any (accepts same · text)

def startsWith (same : Char → Char → Bool) : List Char → List Char → Bool
  | [], _ => true
  | _ :: _, [] => false
  | c :: cs, d :: ds => same c d && startsWith same cs ds

/-- Some part of the text is `search`. -/
def contains (same : Char → Char → Bool) (search text : List Char) : Bool :=
  text.tails.any (startsWith same search)

/-- The characters that a quotation escapes. -/
def special (escape c : Char) : Bool := c == escape || c == '%' || c == '_'

/-- Escape the special characters. -/
def quote (escape : Char) (cs : List Char) : List Char :=
  cs.flatMap fun c => if special escape c then [escape, c] else [c]

variable {same : Char → Char → Bool} {escape : Char} {cs text : List Char} {ts : List Token}

/-! ## What a pattern finds -/

theorem accepts_chars :
    accepts same (cs.map Token.char ++ [.anyText]) text = startsWith same cs text := by
  induction cs generalizing text with
  | nil =>
    simp [accepts, startsWith]
  | cons c cs ih =>
    cases text with
    | nil => rfl
    | cons d ds => simp [accepts, startsWith, ih]

theorem accepts_between :
    accepts same (.anyText :: (cs.map Token.char ++ [.anyText])) text =
      contains same cs text := by
  rw [accepts, contains]
  congr 1
  funext rest
  exact accepts_chars

/-! ## Quotations -/

theorem tokens_quote (h : escape ≠ '%') :
    tokens (some escape) (quote escape cs ++ ['%']) =
      some (cs.map Token.char ++ [.anyText]) := by
  induction cs with
  | nil => simp [quote, tokens, tokensFrom, h]
  | cons c cs ih =>
    by_cases hc : special escape c
    · simpa [quote, hc, tokens, tokensFrom] using ih
    · have hne : escape ≠ c ∧ c ≠ '%' ∧ c ≠ '_' := by
        simp only [special, Bool.or_eq_true, beq_iff_eq, not_or] at hc
        exact ⟨Ne.symm hc.1.1, hc.1.2, hc.2⟩
      simpa [quote, hc, tokens, tokensFrom, hne] using ih

theorem like_quote (h : escape ≠ '%') :
    like same (some escape) ('%' :: (quote escape cs ++ ['%'])) text = contains same cs text := by
  have htokens : tokens (some escape) ('%' :: (quote escape cs ++ ['%'])) =
      some (.anyText :: (cs.map Token.char ++ [.anyText])) := by
    have hquote : tokens (some escape) (quote escape cs ++ ['%']) = _ := tokens_quote h
    rw [tokens] at hquote
    simp [tokens, tokensFrom, h, hquote]
  simp only [like, htokens, Option.any_some, accepts_between]

/-! ## Without an escape character -/

/-- What a character stands for. -/
def token (c : Char) : Token := if c = '%' then .anyText else if c = '_' then .anyChar else .char c

theorem tokens_none : tokens none cs = some (cs.map token) := by
  induction cs with
  | nil => rfl
  | cons c cs ih => grind [tokens, tokensFrom, token]

theorem quote_of_plain (h : ∀ c ∈ cs, special escape c = false) : quote escape cs = cs := by
  induction cs with
  | nil => rfl
  | cons c cs ih =>
    have hc : special escape c = false := h c List.mem_cons_self
    have hcs : quote escape cs = cs := ih fun d hd => h d (List.mem_cons_of_mem _ hd)
    simpa [quote, hc] using hcs

theorem like_plain (h : ∀ c ∈ cs, special escape c = false) :
    like same none ('%' :: (quote escape cs ++ ['%'])) text = contains same cs text := by
  have hchars : cs.map token = cs.map Token.char := by
    apply List.map_congr_left
    intro c hc
    have hspecial := h c hc
    simp only [special, Bool.or_eq_false_iff, beq_eq_false_iff_ne] at hspecial
    rw [token, if_neg hspecial.1.2, if_neg hspecial.2]
  have htokens : tokens none ('%' :: (quote escape cs ++ ['%'])) =
      some (.anyText :: (cs.map Token.char ++ [.anyText])) := by
    rw [quote_of_plain h, tokens_none, List.map_cons, List.map_append, hchars]
    rfl
  simp only [like, htokens, Option.any_some, accepts_between]

/-! ## Counting -/

/-- A text has as many of a character as the pattern asks for. -/
theorem count_le_of_accepts {c : Char} (h : accepts same ts text = true) :
    ts.count (.char c) ≤ text.countP (same c) := by
  induction ts generalizing text with
  | nil => exact Nat.zero_le _
  | cons t ts ih =>
    cases t with
    | anyText =>
      obtain ⟨rest, hrest, hts⟩ := List.any_eq_true.mp h
      have hsuffix : rest.countP (same c) ≤ text.countP (same c) :=
        ((List.mem_tails ..).mp hrest).sublist.countP_le
      rw [List.count_cons_of_ne (by simp)]
      exact Nat.le_trans (ih hts) hsuffix
    | anyChar =>
      cases text with
      | nil => cases h
      | cons d ds =>
        rw [List.count_cons_of_ne (by simp), List.countP_cons]
        exact Nat.le_add_right_of_le (ih h)
    | char e =>
      cases text with
      | nil => cases h
      | cons d ds =>
        obtain ⟨hsame, hds⟩ := (Bool.and_eq_true ..).mp h
        have := ih hds
        by_cases he : e = c
        · subst he
          rw [List.count_cons_self, List.countP_cons, if_pos hsame]
          omega
        · rw [List.count_cons_of_ne (by simpa using he), List.countP_cons]
          omega

/-- A quotation has one escape character more for each special character of the text. -/
theorem count_quote :
    (quote escape cs).count escape = cs.count escape + cs.countP (special escape) := by
  induction cs with
  | nil => rfl
  | cons c cs ih =>
    rw [quote, List.flatMap_cons, ← quote, List.count_append, ih, List.count_cons,
      List.countP_cons]
    by_cases hc : special escape c
    · simp only [hc, if_true, List.count_cons, List.count_nil, beq_self_eq_true]
      omega
    · have hne : c ≠ escape := fun heq => hc (by simp [special, heq])
      simp [hc, hne]

/-- The tokens of a pattern ask for a character as often as the pattern has it. -/
theorem count_map_token {c : Char} (hp : c ≠ '%') (hu : c ≠ '_') :
    (cs.map token).count (.char c) = cs.count c := by
  induction cs with
  | nil => rfl
  | cons d cs ih =>
    rw [List.map_cons, List.count_cons, List.count_cons, ih]
    grind [token]

/-- A text with special characters does not answer to its own quotation. -/
theorem not_like_self (hp : escape ≠ '%') (hu : escape ≠ '_')
    (hsame : ∀ d, same escape d = (d == escape)) (h : ∃ c ∈ cs, special escape c = true) :
    like same none ('%' :: (quote escape cs ++ ['%'])) cs = false := by
  rw [like, tokens_none, Option.any_some, Bool.eq_false_iff]
  intro haccepts
  have hle := count_le_of_accepts (c := escape) haccepts
  have hcount : cs.countP (same escape) = cs.count escape := by
    rw [List.count, funext hsame]
  have hpos : 0 < cs.countP (special escape) := List.countP_pos_iff.mpr h
  rw [count_map_token hp hu, hcount, List.count_cons_of_ne hp.symm, List.count_append, count_quote] at hle
  omega

end LikePatterns
