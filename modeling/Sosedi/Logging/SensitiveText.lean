import Mathlib.Data.List.Forall2
import Sosedi.Data.Patterns
import Sosedi.Domain.Basics

/-!
# Sensitive text in logs

The six replacements of `redactSensitiveText` of the server and of `redactDiagnosticText` of the
mobile client, which differ in the links they take out.  Texts are lists of characters.

Proved here:

* `phonePattern_inv`, `phonePattern_normalised`: what the phone pattern matches, and that it
  matches a normalised number that no word character follows;
* `codePattern_inv`, `codePattern_here`: what the pattern of labelled codes matches, and that at a
  labelled code it can only match this code.
-/

namespace Sosedi

open Patterns

namespace SensitiveText

def REDACTED : List Char := "[REDACTED]".toList

/-! ## Patterns -/

/-- The letters of the patterns with two cases, 32 apart. -/
def isLowerLetter (c : Char) : Bool :=
  (97 ≤ c.toNat && c.toNat ≤ 122) || (0x430 ≤ c.toNat && c.toNat ≤ 0x44F)

/-- `d` is `c` or its capital letter. -/
def letterCase (c d : Char) : Bool := d == c || (isLowerLetter c && d.toNat + 32 == c.toNat)

/-- `d` is `c` under the flag `i`, which goes by the capital letters: two more characters have the
capital letters of `о` and `д`. -/
def anyCase (c d : Char) : Bool :=
  letterCase c d || (c == 'о' && d.toNat == 0x1C82) || (c == 'д' && d.toNat == 0x1C81)

def sequence : List Pattern → Pattern
  | [] => .chars (fun _ => false) 0 (some 0)
  | p :: ps => .seq p (sequence ps)

def literal (text : List Char) : Pattern :=
  sequence (text.map fun c => .chars (· == c) 1 (some 1))

/-- `text` under the flag `i`. -/
def word (text : List Char) : Pattern :=
  sequence (text.map fun c => .chars (anyCase c) 1 (some 1))

/-- `[^\s,;]` -/
def isUnbroken (c : Char) : Bool := !(isWhiteSpace c || c == ',' || c == ';')

/-- `[A-Za-z0-9_-]` -/
def isBase64Url (c : Char) : Bool := isWord c || c == '-'

/-- `[A-Za-z0-9._~+/=-]` -/
def isTokenChar (c : Char) : Bool := isBase64Url c || ['.', '~', '+', '/', '='].contains c

def spaces : Pattern := .chars isWhiteSpace 0 none

def signature : Pattern :=
  .alt (word "x-amz-".toList) (.alt (word "x-goog-".toList) (word "signature=".toList))

/-- `https?:\/\/[^\s,;]*(?:x-amz-|x-goog-|signature=)[^\s,;]*` -/
def signedUrl : Pattern :=
  sequence [word "http".toList, .chars (anyCase 's') 0 (some 1), word "://".toList,
    .chars isUnbroken 0 none, signature, .chars isUnbroken 0 none]

/-- The links of the mobile client: those of the map tiles as well. -/
def mapOrSignedUrl : Pattern :=
  sequence [word "http".toList, .chars (anyCase 's') 0 (some 1), word "://".toList,
    .alt
      (.seq (word "tiles.api-maps.yandex.ru/".toList) (.chars isUnbroken 0 none))
      (sequence [.chars isUnbroken 0 none, signature, .chars isUnbroken 0 none])]

/-- `\bBearer\s+[A-Za-z0-9._~+/=-]+` -/
def bearerPattern : Pattern :=
  sequence [.boundary, word "bearer".toList, .chars isWhiteSpace 1 none,
    .chars isTokenChar 1 none]

/-- `\beyJ[A-Za-z0-9_-]*\.[A-Za-z0-9_-]+\.[A-Za-z0-9_-]+\b` -/
def jwtPattern : Pattern :=
  sequence [.boundary, literal ['e', 'y', 'J'], .chars isBase64Url 0 none, literal ['.'],
    .chars isBase64Url 1 none, literal ['.'], .chars isBase64Url 1 none, .boundary]

/-- `\b(cookie|set-cookie)\s*:\s*[^,\r\n]*` -/
def cookiePattern : Pattern :=
  sequence [.boundary, .group (.alt (word "cookie".toList) (word "set-cookie".toList)), spaces,
    literal [':'], spaces, .chars (fun c => !(c == ',' || c == '\r' || c == '\n')) 0 none]

/-- White space or one of the given signs. -/
def separators (signs : List Char) : Pattern :=
  .chars (fun c => isWhiteSpace c || signs.contains c) 0 none

def digits (least most : Nat) : Pattern := .chars isDigit least (some most)

/-- `(?:\+7|8)[\s(-]*\d{3}[\s)-]*\d{3}[\s-]*\d{2}[\s-]*\d{2}\b` -/
def phonePattern : Pattern :=
  sequence [.alt (literal ['+', '7']) (literal ['8']), separators ['(', '-'], digits 3 3,
    separators [')', '-'], digits 3 3, separators ['-'], digits 2 2, separators ['-'],
    digits 2 2, .boundary]

def otp : List Char := ['o', 't', 'p']

def kod : List Char := ['к', 'о', 'д']

/-- `\s*[:=]\s*|\s+` -/
def separator : Pattern :=
  .alt (sequence [spaces, .chars (fun c => c == ':' || c == '=') 1 (some 1), spaces])
    (.chars isWhiteSpace 1 none)

/-- `\b(otp|код)(\s*[:=]\s*|\s+)\d{4,8}\b` -/
def codePattern : Pattern :=
  sequence [.boundary, .group (.alt (word otp) (word kod)), separator, digits 4 8, .boundary]

/-! ## The functions -/

def constant (text : List Char) (_ : List Char) (_ : Option (List Char)) : List Char := text

/-- The label stays before what is taken out. -/
def labelled (_ : List Char) (label : Option (List Char)) : List Char :=
  label.getD [] ++ ": ".toList ++ REDACTED

/-- The text after the first four replacements. -/
def withoutCredentials (links : Pattern) (value : List Char) : List Char :=
  let value := replaceAll links (constant "[REDACTED_URL]".toList) value
  let value := replaceAll bearerPattern (constant ("Bearer ".toList ++ REDACTED)) value
  let value := replaceAll jwtPattern (constant REDACTED) value
  replaceAll cookiePattern labelled value

/-- The text after the first five replacements. -/
def withoutPhones (links : Pattern) (value : List Char) : List Char :=
  replaceAll phonePattern (constant REDACTED) (withoutCredentials links value)

def redactText (links : Pattern) (value : List Char) : List Char :=
  replaceAll codePattern labelled (withoutPhones links value)

end SensitiveText

open SensitiveText

def redactSensitiveText (value : String) : String :=
  String.ofList (redactText signedUrl value.toList)

def redactDiagnosticText (value : String) : String :=
  String.ofList (redactText mapOrSignedUrl value.toList)

/-! ## What the patterns match -/

namespace SensitiveText

variable {before : Option Char} {seg after text : List Char} {captured : Option (List Char)}

/-- `n` digits. -/
def Digits (n : Nat) (ds : List Char) : Prop := (∀ c ∈ ds, isDigit c = true) ∧ ds.length = n

/-- The signs between the digits of a number. -/
def isGap (c : Char) : Bool := isWhiteSpace c || ['(', ')', '-'].contains c

theorem isDigit_of_isWhiteSpace {c : Char} (h : isWhiteSpace c = true) : isDigit c = false := by
  simp only [isWhiteSpace, isDigit, Bool.or_eq_true, decide_eq_true_eq, Bool.and_eq_true,
    List.mem_cons, List.not_mem_nil, or_false, Bool.and_eq_false_iff, decide_eq_false_iff_not]
    at h ⊢
  omega

theorem isDigit_of_isGap {c : Char} (h : isGap c = true) : isDigit c = false := by
  simp only [isGap, Bool.or_eq_true, List.contains_iff_mem, List.mem_cons, List.not_mem_nil,
    or_false] at h
  rcases h with h | rfl | rfl | rfl
  · exact isDigit_of_isWhiteSpace h
  all_goals decide

theorem isWord_of_isGap {c : Char} (h : isGap c = true) : isWord c = false := by
  simp only [isGap, Bool.or_eq_true, List.contains_iff_mem, List.mem_cons, List.not_mem_nil,
    or_false] at h
  rcases h with h | rfl | rfl | rfl
  · simp only [isWhiteSpace, isWord, isDigit, Bool.or_eq_true, decide_eq_true_eq, Bool.and_eq_true,
      List.mem_cons, List.not_mem_nil, or_false, Bool.or_eq_false_iff, Bool.and_eq_false_iff,
      decide_eq_false_iff_not, beq_eq_false_iff_ne] at h ⊢
    have hunderscore : c ≠ '_' := by
      rintro rfl
      revert h
      decide
    exact ⟨by omega, hunderscore⟩
  all_goals decide

theorem matches_one {cls : Char → Bool} :
    Matches (.chars cls 1 (some 1)) before seg after captured ↔
      ∃ c, seg = [c] ∧ cls c = true ∧ captured = none := by
  constructor
  · rintro ⟨hall, hleast, hmost, rfl⟩
    obtain ⟨c, rfl⟩ := List.length_eq_one_iff.mp (Nat.le_antisymm (hmost 1 rfl) hleast)
    exact ⟨c, rfl, hall c (List.mem_singleton.mpr rfl), rfl⟩
  · rintro ⟨c, rfl, hc, rfl⟩
    exact ⟨by simpa using hc, Nat.le_refl 1, fun n hn => Nat.le_of_eq (Option.some.inj hn), rfl⟩

theorem matches_nothing :
    Matches (sequence []) before seg after captured ↔ seg = [] ∧ captured = none := by
  constructor
  · rintro ⟨-, -, hmost, rfl⟩
    exact ⟨List.length_eq_zero_iff.mp (Nat.le_zero.mp (hmost 0 rfl)), rfl⟩
  · rintro ⟨rfl, rfl⟩
    exact ⟨by simp, Nat.le_refl 0, by simp, rfl⟩

theorem matches_word : Matches (word text) before seg after captured ↔
    List.Forall₂ (fun c d => anyCase c d = true) text seg ∧ captured = none := by
  induction text generalizing before seg captured with
  | nil =>
    rw [List.forall₂_nil_left_iff]
    exact matches_nothing
  | cons c text ih =>
    constructor
    · rintro ⟨seg₁, seg₂, captured₁, captured₂, rfl, rfl, hone, hrest⟩
      obtain ⟨d, rfl, hd, rfl⟩ := matches_one.mp hone
      obtain ⟨hspelled, rfl⟩ := ih.mp hrest
      exact ⟨.cons hd hspelled, rfl⟩
    · rintro ⟨hall, rfl⟩
      cases hall with
      | @cons _ d _ seg hd hrest =>
        exact ⟨[d], seg, none, none, rfl, rfl, matches_one.mpr ⟨d, rfl, hd, rfl⟩,
          ih.mpr ⟨hrest, rfl⟩⟩

theorem matches_literal : Matches (literal text) before seg after captured ↔
    seg = text ∧ captured = none := by
  induction text generalizing before seg captured with
  | nil => exact matches_nothing
  | cons c text ih =>
    constructor
    · rintro ⟨seg₁, seg₂, captured₁, captured₂, rfl, rfl, hone, hrest⟩
      obtain ⟨d, rfl, hd, rfl⟩ := matches_one.mp hone
      obtain ⟨rfl, rfl⟩ := ih.mp hrest
      exact ⟨by rw [eq_of_beq hd]; rfl, rfl⟩
    · rintro ⟨rfl, rfl⟩
      exact ⟨[c], text, none, none, rfl, rfl, matches_one.mpr ⟨c, rfl, beq_self_eq_true c, rfl⟩,
        ih.mpr ⟨rfl, rfl⟩⟩

theorem matches_digits {least most : Nat} :
    Matches (digits least most) before seg after captured ↔
      (∀ c ∈ seg, isDigit c = true) ∧ least ≤ seg.length ∧ seg.length ≤ most ∧
        captured = none := by
  constructor
  · rintro ⟨hall, hleast, hmost, rfl⟩
    exact ⟨hall, hleast, hmost most rfl, rfl⟩
  · rintro ⟨hall, hleast, hmost, rfl⟩
    exact ⟨hall, hleast, fun n hn => Option.some.inj hn ▸ hmost, rfl⟩

theorem matches_exactly {n : Nat} (h : Matches (digits n n) before seg after captured) :
    Digits n seg := by
  obtain ⟨hall, hleast, hmost, -⟩ := matches_digits.mp h
  exact ⟨hall, Nat.le_antisymm hmost hleast⟩

theorem matches_separators {signs : List Char} (hsigns : ∀ c ∈ signs, c ∈ ['(', ')', '-'])
    (h : Matches (separators signs) before seg after captured) : ∀ c ∈ seg, isGap c = true := by
  intro c hc
  have hcls := h.1 c hc
  simp only [Bool.or_eq_true, List.contains_iff_mem] at hcls
  simp only [isGap, Bool.or_eq_true, List.contains_iff_mem]
  exact hcls.imp_right (hsigns c)

/-- A number as the phone pattern reads it: the country code or an eight, then ten digits in
four blocks with gaps before them. -/
structure PhoneShape (seg : List Char) : Prop where
  shape : ∃ code g₁ d₁ g₂ d₂ g₃ d₃ g₄ d₄ : List Char,
    seg = code ++ (g₁ ++ (d₁ ++ (g₂ ++ (d₂ ++ (g₃ ++ (d₃ ++ (g₄ ++ d₄))))))) ∧
    (code = ['+', '7'] ∨ code = ['8']) ∧
    (∀ c ∈ g₁, isGap c = true) ∧ Digits 3 d₁ ∧ (∀ c ∈ g₂, isGap c = true) ∧ Digits 3 d₂ ∧
    (∀ c ∈ g₃, isGap c = true) ∧ Digits 2 d₃ ∧ (∀ c ∈ g₄, isGap c = true) ∧ Digits 2 d₄

theorem phonePattern_inv (h : Matches phonePattern before seg after captured) :
    PhoneShape seg ∧ atBoundary (lastOf before seg) after.head? = true := by
  obtain ⟨code, _, _, _, rfl, -, hcode, g₁, _, _, _, rfl, -, hg₁, d₁, _, _, _, rfl, -, hd₁, g₂, _,
    _, _, rfl, -, hg₂, d₂, _, _, _, rfl, -, hd₂, g₃, _, _, _, rfl, -, hg₃, d₃, _, _, _, rfl, -,
    hd₃, g₄, _, _, _, rfl, -, hg₄, d₄, _, _, _, rfl, -, hd₄, _, _, _, _, rfl, -, ⟨rfl, hb, -⟩,
    hend⟩ := h
  obtain ⟨rfl, -⟩ := matches_nothing.mp hend
  refine ⟨⟨code, g₁, d₁, g₂, d₂, g₃, d₃, g₄, d₄, by simp, ?_, ?_, matches_exactly hd₁, ?_,
    matches_exactly hd₂, ?_, matches_exactly hd₃, ?_, matches_exactly hd₄⟩, ?_⟩
  · exact hcode.imp (fun h => (matches_literal.mp h).1) fun h => (matches_literal.mp h).1
  · exact matches_separators (by simp) hg₁
  · exact matches_separators (by simp) hg₂
  · exact matches_separators (by simp) hg₃
  · exact matches_separators (by simp) hg₄
  · simpa [lastOf_append] using hb

namespace PhoneShape

theorem head (h : PhoneShape seg) : ∃ c rest, seg = c :: rest ∧ (c = '+' ∨ c = '8') ∧
    ∀ d ∈ rest, isDigit d = true ∨ isGap d = true := by
  obtain ⟨code, g₁, d₁, g₂, d₂, g₃, d₃, g₄, d₄, rfl, hcode, hg₁, hd₁, hg₂, hd₂, hg₃, hd₃, hg₄,
    hd₄⟩ := h.shape
  have hrest : ∀ d ∈ g₁ ++ (d₁ ++ (g₂ ++ (d₂ ++ (g₃ ++ (d₃ ++ (g₄ ++ d₄)))))),
      isDigit d = true ∨ isGap d = true := by
    intro d hd
    simp only [List.mem_append] at hd
    rcases hd with h | h | h | h | h | h | h | h
    · exact .inr (hg₁ d h)
    · exact .inl (hd₁.1 d h)
    · exact .inr (hg₂ d h)
    · exact .inl (hd₂.1 d h)
    · exact .inr (hg₃ d h)
    · exact .inl (hd₃.1 d h)
    · exact .inr (hg₄ d h)
    · exact .inl (hd₄.1 d h)
  rcases hcode with rfl | rfl
  · refine ⟨'+', _, rfl, .inl rfl, fun d hd => ?_⟩
    rcases List.mem_cons.mp hd with rfl | hd
    · exact .inl (by decide)
    · exact hrest d hd
  · exact ⟨'8', _, rfl, .inr rfl, hrest⟩

theorem length (h : PhoneShape seg) : 11 ≤ seg.length := by
  obtain ⟨code, g₁, d₁, g₂, d₂, g₃, d₃, g₄, d₄, rfl, hcode, -, ⟨-, h₁⟩, -, ⟨-, h₂⟩, -, ⟨-, h₃⟩,
    -, ⟨-, h₄⟩⟩ := h.shape
  have hpos : 1 ≤ code.length := by
    rcases hcode with rfl | rfl
    · decide
    · decide
  simp only [List.length_append, h₁, h₂, h₃, h₄]
  omega

theorem last (h : PhoneShape seg) : ∃ d, seg.getLast? = some d ∧ isDigit d = true := by
  obtain ⟨code, g₁, d₁, g₂, d₂, g₃, d₃, g₄, d₄, rfl, -, -, -, -, -, -, -, -, hdigits, h₄⟩ := h.shape
  have hne : d₄ ≠ [] := by
    rintro rfl
    cases h₄
  have hlast := List.getLast?_eq_some_getLast hne
  refine ⟨d₄.getLast hne, ?_, hdigits _ (List.getLast_mem hne)⟩
  simp only [List.getLast?_append, hlast, Option.some_or]

end PhoneShape

theorem lastOf_eq {d : Char} (h : seg.getLast? = some d) : lastOf before seg = some d := by
  rw [lastOf, h, Option.some_or]

/-- No word character follows a number that the phone pattern matches. -/
theorem phonePattern_end (h : Matches phonePattern before seg after captured) :
    after.head?.any isWord = false := by
  obtain ⟨hshape, hb⟩ := phonePattern_inv h
  obtain ⟨d, hlast, hd⟩ := hshape.last
  rw [lastOf_eq hlast] at hb
  simpa [atBoundary, isWord_of_isDigit hd] using hb

theorem phonePattern_solid : Solid phonePattern := by
  rintro before seg after captured h rfl
  have hlength := (phonePattern_inv h).1.length
  cases hlength

/-- A block of digits, with a gap before it, at the start of a run of digits. -/
theorem block_of_digits {n : Nat} {g d rest ds post : List Char} (hg : ∀ c ∈ g, isGap c = true)
    (hd : Digits n d) (hn : 0 < n) (hds : ∀ c ∈ ds, isDigit c = true) (hlen : n ≤ ds.length)
    (h : g ++ (d ++ rest) = ds ++ post) : rest = ds.drop n ++ post := by
  cases g with
  | nil =>
    have hdrop := congrArg (List.drop n) h
    rwa [List.nil_append, List.drop_left' hd.2, List.drop_append_of_le_length hlen] at hdrop
  | cons c g =>
    cases ds with
    | nil =>
      rw [List.length_nil] at hlen
      omega
    | cons e ds =>
      obtain ⟨rfl, -⟩ := List.cons.inj h
      have hgap := isDigit_of_isGap (hg c (List.mem_cons_self ..))
      rw [hds c (List.mem_cons_self ..)] at hgap
      cases hgap

/-- A match at a normalised number ends with it. -/
theorem phonePattern_here {ds post : List Char} (h : Matches phonePattern before seg after captured)
    (hds : Digits 10 ds) (htext : seg ++ after = '+' :: '7' :: (ds ++ post)) : after = post := by
  obtain ⟨hall, hlen⟩ := hds
  obtain ⟨code, g₁, d₁, g₂, d₂, g₃, d₃, g₄, d₄, rfl, hcode, hg₁, hd₁, hg₂, hd₂, hg₃, hd₃, hg₄,
    hd₄⟩ := (phonePattern_inv h).1.shape
  have hdigits : ∀ n, ∀ c ∈ ds.drop n, isDigit c = true :=
    fun n c hc => hall c (List.mem_of_mem_drop hc)
  simp only [List.append_assoc] at htext
  rcases hcode with rfl | rfl
  · simp only [List.cons_append, List.nil_append, List.cons.injEq, true_and] at htext
    have h₁ := block_of_digits hg₁ hd₁ (by decide) hall (by omega) htext
    have h₂ := block_of_digits hg₂ hd₂ (by decide) (hdigits 3) (by rw [List.length_drop]; omega) h₁
    rw [List.drop_drop] at h₂
    have h₃ := block_of_digits hg₃ hd₃ (by decide) (hdigits 6) (by rw [List.length_drop]; omega) h₂
    rw [List.drop_drop] at h₃
    have h₄ := block_of_digits hg₄ hd₄ (by decide) (hdigits 8) (by rw [List.length_drop]; omega) h₃
    rwa [List.drop_drop, List.drop_of_length_le (by omega), List.nil_append] at h₄
  · exact absurd (List.cons.inj htext).1 (by decide)

/-- A block of digits, without a gap before it. -/
theorem matches_block {p : Pattern} {signs ds rest : List Char} {n : Nat} (hds : Digits n ds)
    (h : Matches p (lastOf before ds) rest after none) :
    Matches (.seq (separators signs) (.seq (digits n n) p)) before (ds ++ rest) after none :=
  ⟨[], ds ++ rest, none, none, rfl, rfl, ⟨by simp, Nat.zero_le _, by simp, rfl⟩,
    ds, rest, none, none, rfl, rfl,
    matches_digits.mpr ⟨hds.1, Nat.le_of_eq hds.2.symm, Nat.le_of_eq hds.2, rfl⟩, h⟩

theorem Digits.block {n k m : Nat} {ds : List Char} (h : Digits m ds) (hk : n + k ≤ m) :
    Digits n ((ds.drop k).take n) := by
  refine ⟨fun c hc => h.1 c (List.mem_of_mem_drop (List.mem_of_mem_take hc)), ?_⟩
  rw [List.length_take, List.length_drop, h.2]
  omega

theorem Digits.last {n : Nat} {ds : List Char} (h : Digits n ds) (hn : 0 < n) :
    ∃ d, ds.getLast? = some d ∧ isDigit d = true := by
  have hne : ds ≠ [] := by
    rintro rfl
    exact absurd h.2 (Nat.ne_of_lt hn)
  exact ⟨_, List.getLast?_eq_some_getLast hne, h.1 _ (List.getLast_mem hne)⟩

/-- A normalised number that no word character follows is matched. -/
theorem phonePattern_normalised {ds post : List Char} (hds : Digits 10 ds)
    (hpost : post.head?.any isWord = false) :
    Matches phonePattern before ('+' :: '7' :: ds) post none := by
  have hsplit : ds = (ds.drop 0).take 3 ++ ((ds.drop 3).take 3 ++ ((ds.drop 6).take 2 ++
      ((ds.drop 8).take 2 ++ []))) := by
    have h₄ : (ds.drop 8).take 2 ++ [] = ds.drop 8 := by
      rw [List.append_nil,
        List.take_of_length_le (Nat.le_of_eq (by rw [List.length_drop, hds.2]))]
    have h₃ : (ds.drop 6).take 2 ++ ds.drop 8 = ds.drop 6 := by
      rw [show ds.drop 8 = (ds.drop 6).drop 2 by rw [List.drop_drop], List.take_append_drop]
    have h₂ : (ds.drop 3).take 3 ++ ds.drop 6 = ds.drop 3 := by
      rw [show ds.drop 6 = (ds.drop 3).drop 3 by rw [List.drop_drop], List.take_append_drop]
    rw [h₄, h₃, h₂, List.drop_zero, List.take_append_drop]
  obtain ⟨d, hlast, hd⟩ := (hds.block (n := 2) (k := 8) (by decide)).last (by decide)
  rw [hsplit]
  refine ⟨['+', '7'], _, none, none, rfl, rfl, .inl (matches_literal.mpr ⟨rfl, rfl⟩),
    matches_block (hds.block (by decide)) (matches_block (hds.block (by decide))
      (matches_block (hds.block (by decide)) (matches_block (hds.block (by decide))
        ⟨[], [], none, none, rfl, rfl, ⟨rfl, ?_, rfl⟩, matches_nothing.mpr ⟨rfl, rfl⟩⟩)))⟩
  rw [lastOf_eq hlast]
  simpa [atBoundary, isWord_of_isDigit hd] using hpost

/-! ### Labelled codes -/

/-- What stands between a label and its code. -/
def Separator (sep : List Char) : Prop :=
  (∃ a c b, sep = a ++ c :: b ∧ (∀ d ∈ a, isWhiteSpace d = true) ∧ (c = ':' ∨ c = '=') ∧
    ∀ d ∈ b, isWhiteSpace d = true) ∨
  (sep ≠ [] ∧ ∀ d ∈ sep, isWhiteSpace d = true)

def CodeDigits (ds : List Char) : Prop :=
  (∀ c ∈ ds, isDigit c = true) ∧ 4 ≤ ds.length ∧ ds.length ≤ 8

/-- What the pattern accepts as a label. -/
def Label (label : List Char) : Prop :=
  List.Forall₂ (fun c d => anyCase c d = true) otp label ∨
    List.Forall₂ (fun c d => anyCase c d = true) kod label

theorem matches_spaces : Matches spaces before seg after captured ↔
    (∀ c ∈ seg, isWhiteSpace c = true) ∧ captured = none := by
  constructor
  · rintro ⟨hall, -, -, rfl⟩
    exact ⟨hall, rfl⟩
  · rintro ⟨hall, rfl⟩
    exact ⟨hall, Nat.zero_le _, by simp, rfl⟩

theorem matches_separator : Matches separator before seg after captured ↔
    Separator seg ∧ captured = none := by
  constructor
  · rintro (⟨a, _, _, _, rfl, rfl, ha, _, _, _, _, rfl, rfl, hc, b, _, _, _, rfl, rfl, hb, hend⟩ |
      ⟨hall, hleast, -, rfl⟩)
    · obtain ⟨c, rfl, hsign, rfl⟩ := matches_one.mp hc
      obtain ⟨hleft, rfl⟩ := matches_spaces.mp ha
      obtain ⟨hright, rfl⟩ := matches_spaces.mp hb
      obtain ⟨rfl, rfl⟩ := matches_nothing.mp hend
      refine ⟨.inl ⟨a, c, b, by simp, hleft, ?_, hright⟩, rfl⟩
      simpa using hsign
    · refine ⟨.inr ⟨?_, hall⟩, rfl⟩
      rintro rfl
      cases hleast
  · rintro ⟨⟨a, c, b, rfl, ha, hc, hb⟩ | ⟨hne, hall⟩, rfl⟩
    · refine .inl ⟨a, c :: b, none, none, rfl, rfl, matches_spaces.mpr ⟨ha, rfl⟩, [c], b, none,
        none, rfl, rfl, matches_one.mpr ⟨c, rfl, by simpa using hc, rfl⟩, b, [], none, none,
        by simp, rfl, matches_spaces.mpr ⟨hb, rfl⟩, matches_nothing.mpr ⟨rfl, rfl⟩⟩
    · exact .inr ⟨hall, List.length_pos_of_ne_nil hne, by simp, rfl⟩

theorem codePattern_inv (h : Matches codePattern before seg after captured) :
    ∃ label sep ds, seg = label ++ (sep ++ ds) ∧ captured = some label ∧ Label label ∧
      Separator sep ∧ CodeDigits ds ∧
      atBoundary before (label ++ (sep ++ ds ++ after)).head? = true ∧
      atBoundary (lastOf before seg) after.head? = true := by
  obtain ⟨_, _, _, _, rfl, rfl, ⟨rfl, hfirst, rfl⟩, label, _, _, _, rfl, rfl, ⟨rfl, _, hlabel⟩,
    sep, _, _, _, rfl, rfl, hsep, ds, _, _, _, rfl, rfl, hds, _, _, _, _, rfl, rfl,
    ⟨rfl, hlast, rfl⟩, hend⟩ := h
  obtain ⟨rfl, rfl⟩ := matches_nothing.mp hend
  obtain ⟨hseparator, rfl⟩ := matches_separator.mp hsep
  obtain ⟨hall, hleast, hmost, rfl⟩ := matches_digits.mp hds
  refine ⟨label, sep, ds, by simp, rfl, ?_, hseparator, ⟨hall, hleast, hmost⟩, ?_, ?_⟩
  · exact hlabel.imp (fun h => (matches_word.mp h).1) fun h => (matches_word.mp h).1
  · simpa using hfirst
  · simpa [lastOf_append] using hlast

theorem codePattern_labelled {label sep ds : List Char} (hlabel : Label label)
    (hsep : Separator sep) (hds : CodeDigits ds)
    (hfirst : atBoundary before (label ++ (sep ++ ds ++ after)).head? = true)
    (hlast : atBoundary (lastOf before (label ++ (sep ++ ds))) after.head? = true) :
    Matches codePattern before (label ++ (sep ++ ds)) after (some label) := by
  obtain ⟨hall, hleast, hmost⟩ := hds
  refine ⟨[], label ++ (sep ++ ds), none, some label, rfl, rfl, ⟨rfl, by simpa using hfirst, rfl⟩,
    label, sep ++ ds, some label, none, rfl, rfl, ⟨rfl, none, ?_⟩, sep, ds, none, none, rfl, rfl,
    matches_separator.mpr ⟨hsep, rfl⟩, ds, [], none, none, by simp, rfl,
    matches_digits.mpr ⟨hall, hleast, hmost, rfl⟩, [], [], none, none, rfl, rfl,
    ⟨rfl, ?_, rfl⟩, matches_nothing.mpr ⟨rfl, rfl⟩⟩
  · exact hlabel.imp (fun h => matches_word.mpr ⟨h, rfl⟩) fun h => matches_word.mpr ⟨h, rfl⟩
  · simpa [lastOf_append] using hlast

/-- The first letters of the labels. -/
def isInitial (c : Char) : Bool := ['o', 'O', 'к', 'К'].contains c

/-- The other letters of the labels. -/
def isInner (c : Char) : Bool := ['t', 'T', 'p', 'P', 'о', 'О', 'ᲂ', 'д', 'Д', 'ᲁ'].contains c

theorem anyCase_inv {c d : Char} (h : anyCase c d = true) :
    d ∈ [c, Char.ofNat (c.toNat - 32)] ∨ (c = 'о' ∧ d = 'ᲂ') ∨ (c = 'д' ∧ d = 'ᲁ') := by
  have hchar : ∀ n, d.toNat = n → d = Char.ofNat n := fun n hn => by rw [← hn, Char.ofNat_toNat]
  simp only [anyCase, letterCase, Bool.or_eq_true, beq_iff_eq, Bool.and_eq_true] at h
  rcases h with ((rfl | ⟨-, h⟩) | ⟨rfl, h⟩) | ⟨rfl, h⟩
  · exact .inl (List.mem_cons_self ..)
  · have hd := hchar (c.toNat - 32) (by omega)
    rw [hd]
    exact .inl (by simp)
  · exact .inr (.inl ⟨rfl, hchar _ h⟩)
  · exact .inr (.inr ⟨rfl, hchar _ h⟩)

theorem anyCase_of_cases (P : Char → Bool) {c d : Char} (h : anyCase c d = true)
    (hsmall : P c = true) (hcapital : P (Char.ofNat (c.toNat - 32)) = true)
    (ho : c = 'о' → P 'ᲂ' = true) (hd : c = 'д' → P 'ᲁ' = true) : P d = true := by
  rcases anyCase_inv h with h | ⟨rfl, rfl⟩ | ⟨rfl, rfl⟩
  · rcases List.mem_pair.mp h with rfl | rfl
    · exact hsmall
    · exact hcapital
  · exact ho rfl
  · exact hd rfl

theorem forall₂_three {R : Char → Char → Prop} {a b c : Char} {l : List Char}
    (h : List.Forall₂ R [a, b, c] l) : ∃ x y z, l = [x, y, z] ∧ R a x ∧ R b y ∧ R c z := by
  obtain ⟨x, _, hx, h₁, rfl⟩ := List.forall₂_cons_left_iff.mp h
  obtain ⟨y, _, hy, h₂, rfl⟩ := List.forall₂_cons_left_iff.mp h₁
  obtain ⟨z, _, hz, h₃, rfl⟩ := List.forall₂_cons_left_iff.mp h₂
  rw [List.forall₂_nil_left_iff.mp h₃]
  exact ⟨x, y, z, rfl, hx, hy, hz⟩

/-- A label is one of the first letters and two of the others. -/
theorem Label.letters {label : List Char} (h : Label label) : ∃ x y z, label = [x, y, z] ∧
    isInitial x = true ∧ isInner y = true ∧ isInner z = true := by
  rcases h with h | h
  · obtain ⟨x, y, z, rfl, hx, hy, hz⟩ := forall₂_three h
    exact ⟨x, y, z, rfl,
      anyCase_of_cases isInitial hx (by decide) (by decide) (by decide) (by decide),
      anyCase_of_cases isInner hy (by decide) (by decide) (by decide) (by decide),
      anyCase_of_cases isInner hz (by decide) (by decide) (by decide) (by decide)⟩
  · obtain ⟨x, y, z, rfl, hx, hy, hz⟩ := forall₂_three h
    exact ⟨x, y, z, rfl,
      anyCase_of_cases isInitial hx (by decide) (by decide) (by decide) (by decide),
      anyCase_of_cases isInner hy (by decide) (by decide) (by decide) (by decide),
      anyCase_of_cases isInner hz (by decide) (by decide) (by decide) (by decide)⟩

/-- The first letter of `otp` is a word character, that of `код` is none. -/
theorem head_otp {label : List Char}
    (h : List.Forall₂ (fun c d => anyCase c d = true) otp label) :
    label.head?.any isWord = true := by
  obtain ⟨x, y, z, rfl, hx, -, -⟩ := forall₂_three h
  exact anyCase_of_cases isWord hx (by decide) (by decide) (by decide) (by decide)

theorem head_kod {label : List Char}
    (h : List.Forall₂ (fun c d => anyCase c d = true) kod label) :
    label.head?.any isWord = false := by
  obtain ⟨x, y, z, rfl, hx, -, -⟩ := forall₂_three h
  have hnot : (!isWord x) = true :=
    anyCase_of_cases (fun c => !isWord c) hx (by decide) (by decide) (by decide) (by decide)
  simpa using hnot

/-- The signs of a separator: white space, a colon, an equals sign. -/
def isSign (c : Char) : Bool := isWhiteSpace c || c == ':' || c == '='

theorem Separator.signs {sep : List Char} (h : Separator sep) :
    sep ≠ [] ∧ ∀ c ∈ sep, isSign c = true := by
  have hspace : ∀ {c : Char}, isWhiteSpace c = true → isSign c = true :=
    fun h => by simp [isSign, h]
  rcases h with ⟨a, c, b, rfl, ha, hc, hb⟩ | ⟨hne, hall⟩
  · refine ⟨by simp, fun d hd => ?_⟩
    rcases List.mem_append.mp hd with hd | hd
    · exact hspace (ha d hd)
    · rcases List.mem_cons.mp hd with rfl | hd
      · rcases hc with rfl | rfl
        · decide
        · decide
      · exact hspace (hb d hd)
  · exact ⟨hne, fun d hd => hspace (hall d hd)⟩

theorem isDigit_of_isSign {c : Char} (h : isSign c = true) : isDigit c = false := by
  simp only [isSign, Bool.or_eq_true, beq_iff_eq] at h
  rcases h with (h | rfl) | rfl
  · exact isDigit_of_isWhiteSpace h
  · decide
  · decide

theorem not_digit_of_not_word {l : List Char} (h : l.head?.any isWord = false) :
    l.head?.any isDigit = false := by
  cases l with
  | nil => rfl
  | cons c l =>
    cases hd : isDigit c with
    | false => exact hd
    | true =>
      have hword : isWord c = false := h
      rw [isWord_of_isDigit hd] at hword
      cases hword

/-- A run of a class is as long as it can be where the class ends. -/
theorem run_unique {cls : Char → Bool} {a b r s : List Char} (ha : ∀ c ∈ a, cls c = true)
    (hb : ∀ c ∈ b, cls c = true) (hr : r.head?.any cls = false) (hs : s.head?.any cls = false)
    (h : a ++ r = b ++ s) : a = b ∧ r = s := by
  have hspan : ∀ {a r : List Char}, (∀ c ∈ a, cls c = true) → r.head?.any cls = false →
      (a ++ r).takeWhile cls = a := by
    intro a r ha hr
    rw [List.takeWhile_append_of_pos ha]
    cases r with
    | nil => simp
    | cons c r =>
      have hc : cls c = false := hr
      simp [hc]
  have hab : a = b := by rw [← hspan ha hr, h, hspan hb hs]
  subst hab
  exact ⟨rfl, List.append_cancel_left h⟩

/-- The last digit of a code is followed by no word character. -/
theorem codePattern_end (h : Matches codePattern before seg after captured) :
    ∃ d, seg.getLast? = some d ∧ isDigit d = true ∧ after.head?.any isWord = false := by
  obtain ⟨label, sep, ds, rfl, -, -, -, hds, -, hend⟩ := codePattern_inv h
  obtain ⟨d, hd, hdigit⟩ : ∃ d, ds.getLast? = some d ∧ isDigit d = true :=
    Digits.last ⟨hds.1, rfl⟩ (Nat.lt_of_lt_of_le (by decide) hds.2.1)
  have hlast : (label ++ (sep ++ ds)).getLast? = some d := by
    simp only [List.getLast?_append, hd, Option.some_or]
  rw [lastOf_eq hlast] at hend
  exact ⟨d, hlast, hdigit, by simpa [atBoundary, isWord_of_isDigit hdigit] using hend⟩

/-- A match at a labelled code is this code. -/
theorem codePattern_here {label sep ds post : List Char}
    (h : Matches codePattern before seg after captured) (hlabel : label.length = 3)
    (hsep : ∀ c ∈ sep, isSign c = true) (hds : CodeDigits ds)
    (hpost : post.head?.any isDigit = false)
    (htext : seg ++ after = label ++ (sep ++ ds) ++ post) :
    seg = label ++ (sep ++ ds) ∧ after = post ∧ captured = some label := by
  obtain ⟨-, -, -, hend⟩ := codePattern_end h
  have hafter := not_digit_of_not_word hend
  obtain ⟨label', sep', ds', rfl, rfl, hlabel', hsep', hds', -, -⟩ := codePattern_inv h
  obtain ⟨x, y, z, rfl, -, -, -⟩ := hlabel'.letters
  have hdigits : ∀ {ds rest : List Char}, CodeDigits ds →
      (ds ++ rest).head?.any (fun c => !isDigit c) = false := by
    intro ds rest hds
    cases ds with
    | nil => cases hds.2.1
    | cons c ds => simp [hds.1 c (List.mem_cons_self ..)]
  have hsigns : ∀ {sep : List Char}, (∀ c ∈ sep, isSign c = true) →
      ∀ c ∈ sep, (!isDigit c) = true :=
    fun hsep c hc => by simp [isDigit_of_isSign (hsep c hc)]
  simp only [List.append_assoc] at htext
  obtain ⟨rfl, hrest⟩ := List.append_inj htext (by simp [hlabel])
  obtain ⟨rfl, hcode⟩ := run_unique (hsigns hsep'.signs.2) (hsigns hsep) (hdigits hds')
    (hdigits hds) hrest
  obtain ⟨rfl, rfl⟩ := run_unique hds'.1 hds.1 hafter hpost hcode
  exact ⟨rfl, rfl, rfl⟩

/-- The characters of a labelled code after its first letter. -/
def isTail (c : Char) : Bool := isInner c || isSign c || isDigit c

theorem isTail_of_isInitial {c : Char} (h : isInitial c = true) : isTail c = false := by
  simp only [isInitial, List.contains_iff_mem, List.mem_cons, List.not_mem_nil, or_false] at h
  rcases h with rfl | rfl | rfl | rfl
  all_goals decide

theorem tail_of_code {label sep ds : List Char} (hlabel : Label label) (hsep : Separator sep)
    (hds : CodeDigits ds) : ∃ x rest, label ++ (sep ++ ds) = x :: rest ∧ isInitial x = true ∧
      ∀ c ∈ rest, isTail c = true := by
  obtain ⟨x, y, z, rfl, hx, hy, hz⟩ := hlabel.letters
  refine ⟨x, y :: z :: (sep ++ ds), rfl, hx, fun c hc => ?_⟩
  simp only [List.mem_cons, List.mem_append] at hc
  rcases hc with rfl | rfl | hc | hc
  · simp [isTail, hy]
  · simp [isTail, hz]
  · simp [isTail, hsep.signs.2 c hc]
  · simp [isTail, hds.1 c hc]

theorem codePattern_initial (h : Matches codePattern before seg after captured) :
    ∃ x rest, seg = x :: rest ∧ isInitial x = true ∧ ∀ c ∈ rest, isTail c = true := by
  obtain ⟨label, sep, ds, rfl, -, hlabel, hsep, hds, -⟩ := codePattern_inv h
  exact tail_of_code hlabel hsep hds

theorem codePattern_solid : Solid codePattern := by
  rintro before seg after captured h rfl
  obtain ⟨x, rest, hnil, -⟩ := codePattern_initial h
  cases hnil

/-- At most one segment is matched at a place. -/
theorem codePattern_unique {seg' after' : List Char} {captured' : Option (List Char)}
    (h : Matches codePattern before seg after captured)
    (h' : Matches codePattern before seg' after' captured') (heq : seg ++ after = seg' ++ after') :
    seg = seg' ∧ after = after' := by
  obtain ⟨-, -, -, hend⟩ := codePattern_end h
  obtain ⟨label, sep, ds, rfl, -, hlabel, hsep, hds, -⟩ := codePattern_inv h
  obtain ⟨x, y, z, rfl, -⟩ := hlabel.letters
  obtain ⟨hseg, hafter, -⟩ :=
    codePattern_here h' rfl hsep.signs.2 hds (not_digit_of_not_word hend) heq.symm
  exact ⟨hseg.symm, hafter.symm⟩

end SensitiveText

end Sosedi
