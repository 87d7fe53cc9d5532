import Sosedi.Logging.SensitiveText

/-!
# What survives the redaction of texts

A labelled code and a phone number in the normalised form, as they stand in a text.  Which
characters belong to words is given; the word characters of the patterns do, the closing bracket
does not.

Proved here:

* `survivingPhone_codes`: taking out the codes leaves the numbers;
* `survivingPhone_phones`: a number survives its own replacement just when a letter of the Latin
  alphabet or an underscore follows it directly, or another number that is taken out;
* `survivingCode_codes`: a code survives its own replacement just when such a character follows
  it, or when its label is `код`, which starts a match only after a word character;
* `redaction_clean_iff`: what the two functions leave, exactly.
-/

namespace Sosedi

open Patterns SensitiveText

namespace SensitiveText

variable {v u out : List Char} {before before' : Option Char}

/-- `text` in any letter case. -/
def Spelled (text label : List Char) : Prop :=
  List.Forall₂ (fun c d => letterCase c d = true) text label

/-- A label, its separator and a code of 4 to 8 digits between `pre` and `post`. -/
structure Written (text pre label sep ds post : List Char) : Prop where
  text_eq : text = pre ++ (label ++ (sep ++ ds) ++ post)
  label : Spelled otp label ∨ Spelled kod label
  sep : Separator sep
  digits : CodeDigits ds
  after : post.head?.any isDigit = false

/-- A labelled code stands in the text, and its label does not end a longer word. -/
def SurvivingCode (wordChar : Char → Bool) (text : List Char) : Prop :=
  ∃ pre label sep ds post, Written text pre label sep ds post ∧
    pre.getLast?.any wordChar = false

/-- A number in the form that `normalizeRussianPhone` returns stands in the text. -/
def SurvivingPhone (text : List Char) : Prop :=
  ∃ pre ds post, text = pre ++ ('+' :: '7' :: ds ++ post) ∧ Digits 10 ds ∧
    post.head?.any isDigit = false

/-- No labelled code and no number survives. -/
def Clean (wordChar : Char → Bool) (text : List Char) : Prop :=
  ¬ SurvivingCode wordChar text ∧ ¬ SurvivingPhone text

/-- A number that the phone pattern passes by and that ends where no digit follows, or where no
digit follows once the next number is taken out. -/
inductive ExposedPhone (text : List Char) : Prop where
  | letter {pre ds post : List Char} {c : Char}
      (htext : text = pre ++ ('+' :: '7' :: ds ++ c :: post)) (hds : Digits 10 ds)
      (hword : isWord c = true) (hdigit : isDigit c = false)
  | number {pre ds post : List Char}
      (htext : text = pre ++ ('+' :: '7' :: ds ++ post)) (hds : Digits 10 ds)
      (hdigit : post.head?.any isDigit = true)
      (hnext : ¬ Unmatched phonePattern (lastOf (some '7') ds) post)
      (hinside : Standing phonePattern (some '7') ds post)

/-- A labelled code that the pattern of codes passes by. -/
inductive ExposedCode (wordChar : Char → Bool) (text : List Char) : Prop where
  | suffix {pre label sep ds post : List Char}
      (hw : Written text pre label sep ds post) (hlabel : Spelled otp label)
      (hbefore : pre.getLast?.any wordChar = false) (hword : post.head?.any isWord = true)
  | kod {pre label sep ds post : List Char}
      (hw : Written text pre label sep ds post) (hlabel : Spelled kod label)
      (hbefore : pre.getLast?.any wordChar = false)
  | adjacent {pre seg label sep ds post : List Char} {captured : Option (List Char)}
      (hw : Written text (pre ++ seg) label sep ds post) (hlabel : Spelled kod label)
      (hmatch : Matches codePattern (lastOf none pre) seg (label ++ (sep ++ ds) ++ post) captured)
      (hword : post.head?.any isWord = true)

theorem Spelled.anyCase {text label : List Char} (h : Spelled text label) :
    List.Forall₂ (fun c d => SensitiveText.anyCase c d = true) text label :=
  h.imp fun c d hcd => by simp [SensitiveText.anyCase, hcd]

theorem Written.isLabel {text pre label sep ds post : List Char}
    (h : Written text pre label sep ds post) : Label label :=
  h.label.imp Spelled.anyCase Spelled.anyCase

/-! ## The replacements -/

theorem REDACTED_last : REDACTED.getLast? = some ']' := by decide +kernel

theorem REDACTED_no_digit : ∀ c ∈ REDACTED, isDigit c = false := by
  have hall : (REDACTED.all fun c => !isDigit c) = true := by decide +kernel
  intro c hc
  simpa using List.all_eq_true.mp hall c hc

theorem redacted_foreign {w : List Char} (hbracket : ']' ∉ w)
    (hlast : ∃ d, w.getLast? = some d ∧ isDigit d = true) :
    Foreign phonePattern (constant REDACTED) w where
  ends _ _ _ _ _ := ⟨']', REDACTED_last, hbracket⟩
  inner before seg after captured hm c hc hmem := by
    obtain ⟨d, hd, hdigit⟩ := hlast
    obtain rfl : d = c := Option.some.inj (hd.symm.trans hc)
    rw [REDACTED_no_digit d hmem] at hdigit
    cases hdigit

theorem isDigit_of_isInner {c : Char} (h : isInner c = true) : isDigit c = false := by
  simp only [isInner, List.contains_iff_mem, List.mem_cons, List.not_mem_nil, or_false] at h
  rcases h with rfl | rfl | rfl | rfl | rfl | rfl | rfl | rfl | rfl | rfl
  all_goals decide

theorem isDigit_of_isInitial {c : Char} (h : isInitial c = true) : isDigit c = false := by
  simp only [isInitial, List.contains_iff_mem, List.mem_cons, List.not_mem_nil, or_false] at h
  rcases h with rfl | rfl | rfl | rfl
  all_goals decide

theorem labelled_foreign {w : List Char} (hbracket : ']' ∉ w)
    (hlast : ∃ d, w.getLast? = some d ∧ isDigit d = true) :
    Foreign codePattern labelled w where
  ends before seg after captured hm := by
    refine ⟨']', ?_, hbracket⟩
    rw [labelled, List.getLast?_append, REDACTED_last, Option.some_or]
  inner before seg after captured hm c hc hmem := by
    obtain ⟨d, hd, hdigit⟩ := hlast
    obtain rfl : d = c := Option.some.inj (hd.symm.trans hc)
    obtain ⟨label, sep, ds, -, rfl, hlabel, -⟩ := codePattern_inv hm
    obtain ⟨x, y, z, rfl, hx, hy, hz⟩ := hlabel.letters
    have hnot : isDigit d = false := by
      simp only [labelled, Option.getD_some, List.append_assoc, List.mem_append] at hmem
      rcases hmem with hmem | hmem | hmem
      · simp only [List.mem_cons, List.not_mem_nil, or_false] at hmem
        rcases hmem with rfl | rfl | rfl
        · exact isDigit_of_isInitial hx
        · exact isDigit_of_isInner hy
        · exact isDigit_of_isInner hz
      · have hcolon : (": ".toList.all fun c => !isDigit c) = true := by decide +kernel
        simpa using List.all_eq_true.mp hcolon d hmem
      · exact REDACTED_no_digit d hmem
    rw [hnot] at hdigit
    cases hdigit

/-- A labelled code that is taken out starts as it did. -/
theorem codes_head (h : Scan codePattern labelled before v out before' []) :
    out.head? = v.head? := by
  rcases h.first with ⟨rfl, rfl⟩ | ⟨c, rest, out', rfl, rfl, -⟩ |
    ⟨seg, rest, captured, out', rfl, hm, rfl, -⟩
  · rfl
  · rfl
  · obtain ⟨label, sep, ds, rfl, rfl, hlabel, -⟩ := codePattern_inv hm
    obtain ⟨x, y, z, rfl, -⟩ := hlabel.letters
    rfl

/-- Nothing that the pattern of codes matches starts with any other character. -/
theorem codePattern_unmatched {c : Char} (hc : isInitial c = false) (before : Option Char)
    (rest : List Char) : Unmatched codePattern before (c :: rest) := by
  intro seg after captured htext hm
  obtain ⟨x, seg, rfl, hx, -⟩ := codePattern_initial hm
  obtain ⟨rfl, -⟩ := List.cons.inj htext
  rw [hc] at hx
  cases hx

theorem phonePattern_unmatched {c : Char} (hplus : c ≠ '+') (height : c ≠ '8')
    (before : Option Char) (rest : List Char) : Unmatched phonePattern before (c :: rest) := by
  intro seg after captured htext hm
  obtain ⟨x, seg, rfl, hx, -⟩ := (phonePattern_inv hm).1.head
  obtain ⟨rfl, -⟩ := List.cons.inj htext
  exact hx.elim hplus height

theorem not_initial_of_isDigit {c : Char} (h : isDigit c = true) : isInitial c = false := by
  cases hc : isInitial c with
  | false => rfl
  | true =>
    rw [isDigit_of_isInitial hc] at h
    cases h

/-! ## Phone numbers -/

theorem normalised_no_bracket {ds : List Char} (hds : Digits 10 ds) :
    ']' ∉ '+' :: '7' :: ds := by
  intro hmem
  rcases List.mem_cons.mp hmem with h | hmem
  · exact absurd h (by decide)
  · rcases List.mem_cons.mp hmem with h | hmem
    · exact absurd h (by decide)
    · exact absurd (hds.1 _ hmem) (by decide)

theorem normalised_last {ds : List Char} (hds : Digits 10 ds) :
    ∃ d, ('+' :: '7' :: ds).getLast? = some d ∧ isDigit d = true := by
  obtain ⟨d, hd, hdigit⟩ := hds.last (by decide)
  exact ⟨d, by simp [List.getLast?_cons, hd], hdigit⟩

/-- No match has a plus sign in its interior. -/
theorem plus_phone {before : Option Char} {seg after : List Char}
    {captured : Option (List Char)} (h : Matches phonePattern before seg after captured) :
    '+' ∉ seg.tail := by
  obtain ⟨c, rest, rfl, -, hrest⟩ := (phonePattern_inv h).1.head
  intro hmem
  rcases hrest _ hmem with h | h
  · exact absurd h (by decide)
  · exact absurd h (by decide)

theorem plus_code {before : Option Char} {seg after : List Char}
    {captured : Option (List Char)} (h : Matches codePattern before seg after captured) :
    '+' ∉ seg.tail := by
  obtain ⟨x, rest, rfl, -, hrest⟩ := codePattern_initial h
  exact fun hmem => absurd (hrest _ hmem) (by decide)

/-- Taking out the codes leaves the numbers as they are. -/
theorem survivingPhone_codes (v : List Char) :
    SurvivingPhone (replaceAll codePattern labelled v) ↔ SurvivingPhone v := by
  obtain ⟨last, hscan⟩ := replaceAll_scan (f := labelled) codePattern_solid v
  constructor
  · rintro ⟨pre', ds, post', hout, hds, hpost⟩
    obtain ⟨pre, post, hv, -, -, hrest⟩ := hscan.window
      (labelled_foreign (normalised_no_bracket hds) (normalised_last hds)) (by simp) hout
    refine ⟨pre, ds, post, hv, hds, ?_⟩
    rwa [← codes_head hrest]
  · rintro ⟨pre, ds, post, hv, hds, hpost⟩
    obtain ⟨pre', out, hout, -, hthere⟩ := hscan.reaches (fun _ _ _ _ => plus_code) hv
    have hstanding : Standing codePattern (lastOf none pre) ('+' :: '7' :: ds) post := by
      refine .of_forall fun c hc before rest => codePattern_unmatched ?_ before rest
      rcases List.mem_cons.mp hc with rfl | hc
      · decide
      · rcases List.mem_cons.mp hc with rfl | hc
        · decide
        · exact not_initial_of_isDigit (hds.1 c hc)
    obtain ⟨post', rfl, hrest⟩ := hthere.copies (w := '+' :: '7' :: ds) hstanding
    refine ⟨pre', ds, post', hout, hds, ?_⟩
    rwa [codes_head hrest]

/-- A number that survives was passed by. -/
theorem exposed_of_survivingPhone {u : List Char}
    (h : SurvivingPhone (replaceAll phonePattern (constant REDACTED) u)) : ExposedPhone u := by
  obtain ⟨last, hscan⟩ := replaceAll_scan (f := constant REDACTED) phonePattern_solid u
  obtain ⟨pre', ds, post', hout, hds, hpost⟩ := h
  obtain ⟨pre, post, hu, -, hstanding, hrest⟩ := hscan.window
    (redacted_foreign (normalised_no_bracket hds) (normalised_last hds)) (by simp) hout
  have hword : post.head?.any isWord = true := by
    by_contra hnot
    exact hstanding.head _ _ _ rfl (phonePattern_normalised hds (by simpa using hnot))
  cases post with
  | nil => cases hword
  | cons c post =>
    cases hc : isDigit c with
    | false => exact .letter hu hds hword hc
    | true =>
      refine .number hu hds hc ?_ hstanding.tail.tail
      rcases hrest.first with ⟨h, -⟩ | ⟨d, rest, out', hd, rfl, -⟩ |
        ⟨seg, rest, captured, out', htext, hm, -⟩
      · cases h
      · obtain ⟨rfl, -⟩ := List.cons.inj hd
        have hnot : isDigit c = false := hpost
        rw [hc] at hnot
        cases hnot
      · intro hnone
        simp only [lastOf_cons] at hm
        exact hnone _ _ _ htext hm

/-- Too few digits for a number stand before a word character that is no digit. -/
theorem standing_before_letter {ds post : List Char} {c : Char} (hds : ds.length ≤ 10)
    (hword : isWord c = true) (hdigit : isDigit c = false) (before : Option Char) :
    Standing phonePattern before ds (c :: post) := by
  rintro a b rfl hb seg after captured htext hm
  have hshape := (phonePattern_inv hm).1
  have hlength := hshape.length
  obtain ⟨x, rest, rfl, -, hrest⟩ := hshape.head
  have hc : c ∈ rest := by
    rcases List.append_eq_append_iff.mp htext.symm with ⟨e, rfl, -⟩ | ⟨e, hseg, hpost⟩
    · simp only [List.length_append, List.length_cons] at hds hlength
      omega
    · cases e with
      | nil =>
        simp only [List.append_nil] at hseg
        rw [hseg] at hlength
        rw [List.length_append] at hds
        omega
      | cons d e =>
        obtain ⟨rfl, -⟩ := List.cons.inj hpost
        obtain ⟨y, b, rfl⟩ := List.exists_cons_of_ne_nil hb
        obtain ⟨-, rfl⟩ := List.cons.inj hseg
        simp
  rcases hrest c hc with h | h
  · rw [hdigit] at h
    cases h
  · rw [isWord_of_isGap h] at hword
    cases hword

/-- A number that is passed by is copied, and then no digit follows it. -/
theorem survivingPhone_of_standing {u pre ds post : List Char}
    (hu : u = pre ++ ('+' :: '7' :: ds ++ post)) (hds : Digits 10 ds)
    (hword : post.head?.any isWord = true) (hstanding : Standing phonePattern (some '7') ds post)
    (hnext : post.head?.any isDigit = true →
      ¬ Unmatched phonePattern (lastOf (some '7') ds) post) :
    SurvivingPhone (replaceAll phonePattern (constant REDACTED) u) := by
  obtain ⟨last, hscan⟩ := replaceAll_scan (f := constant REDACTED) phonePattern_solid u
  obtain ⟨pre', out, hout, -, hthere⟩ := hscan.reaches (fun _ _ _ _ => plus_phone) hu
  have hplus : Unmatched phonePattern (lastOf none pre) ('+' :: '7' :: (ds ++ post)) := by
    intro seg after captured htext hm
    have hafter := phonePattern_here hm hds htext.symm
    rw [← hafter, phonePattern_end hm] at hword
    cases hword
  have hall : Standing phonePattern (lastOf none pre) ('+' :: '7' :: ds) post :=
    .cons hplus (.cons (phonePattern_unmatched (by decide) (by decide) _ _) hstanding)
  obtain ⟨post', rfl, hrest⟩ := hthere.copies (w := '+' :: '7' :: ds) hall
  refine ⟨pre', ds, post', hout, hds, ?_⟩
  rw [lastOf_cons, lastOf_cons] at hrest
  rcases hrest.first with ⟨rfl, -⟩ | ⟨c, rest, out', rfl, rfl, hnone⟩ |
    ⟨seg, rest, captured, out', -, -, rfl, -⟩
  · cases hword
  · cases hc : isDigit c with
    | false => exact hc
    | true => exact absurd hnone (hnext hc)
  · have hbracket : ∀ l, (REDACTED ++ l).head?.any isDigit = false := by
      intro l
      have hhead : REDACTED.head? = some '[' := by decide +kernel
      rw [List.head?_append, hhead]
      rfl
    exact hbracket out'

theorem survivingPhone_of_exposed {u : List Char} (h : ExposedPhone u) :
    SurvivingPhone (replaceAll phonePattern (constant REDACTED) u) := by
  cases h with
  | letter hu hds hword hdigit =>
    refine survivingPhone_of_standing hu hds hword
      (standing_before_letter (Nat.le_of_eq hds.2) hword hdigit _) fun h => ?_
    rw [List.head?_cons, Option.any_some, hdigit] at h
    cases h
  | @number pre ds post hu hds hdigit hnext hinside =>
    refine survivingPhone_of_standing hu hds ?_ hinside fun _ => hnext
    cases post with
    | nil => cases hdigit
    | cons c post => exact isWord_of_isDigit hdigit

theorem survivingPhone_phones (u : List Char) :
    SurvivingPhone (replaceAll phonePattern (constant REDACTED) u) ↔ ExposedPhone u :=
  ⟨exposed_of_survivingPhone, survivingPhone_of_exposed⟩

/-! ## Labelled codes -/

section

variable {wordChar : Char → Bool}

theorem isWord_of_not_wordChar (hword : ∀ c, isWord c = true → wordChar c = true)
    {before : Option Char} (h : before.any wordChar = false) : before.any isWord = false := by
  cases before with
  | none => rfl
  | some c =>
    cases hc : isWord c with
    | false => exact hc
    | true =>
      have hnot : wordChar c = false := h
      rw [hword c hc] at hnot
      cases hnot

theorem lastOf_none (pre : List Char) : lastOf none pre = pre.getLast? := by
  rw [lastOf, Option.or_none]

theorem Written.last {text pre label sep ds post : List Char}
    (h : Written text pre label sep ds post) : ∃ d,
    (label ++ (sep ++ ds)).getLast? = some d ∧ isDigit d = true := by
  obtain ⟨d, hd, hdigit⟩ : ∃ d, ds.getLast? = some d ∧ isDigit d = true :=
    Digits.last ⟨h.digits.1, rfl⟩ (Nat.lt_of_lt_of_le (by decide) h.digits.2.1)
  exact ⟨d, by simp only [List.getLast?_append, hd, Option.some_or], hdigit⟩

theorem Written.head {text pre label sep ds post : List Char}
    (h : Written text pre label sep ds post) (rest : List Char) :
    (label ++ rest).head? = label.head? := by
  obtain ⟨x, y, z, rfl, -⟩ := h.isLabel.letters
  rfl

theorem Written.no_bracket {text pre label sep ds post : List Char}
    (h : Written text pre label sep ds post) : ']' ∉ label ++ (sep ++ ds) := by
  obtain ⟨x, rest, heq, hx, hrest⟩ := tail_of_code h.isLabel h.sep h.digits
  rw [heq]
  intro hmem
  rcases List.mem_cons.mp hmem with rfl | hmem
  · exact absurd hx (by decide)
  · exact absurd (hrest _ hmem) (by decide)

/-- Where the label may start a match, a code that no word character follows is matched. -/
theorem Written.matches {text pre label sep ds post : List Char}
    (h : Written text pre label sep ds post) {before : Option Char}
    (hfirst : atBoundary before label.head? = true) (hpost : post.head?.any isWord = false) :
    Matches codePattern before (label ++ (sep ++ ds)) post (some label) := by
  obtain ⟨d, hd, hdigit⟩ := h.last
  refine codePattern_labelled h.isLabel h.sep h.digits ?_ ?_
  · rwa [h.head]
  · rw [lastOf_eq hd]
    simpa [atBoundary, isWord_of_isDigit hdigit] using hpost

/-- A match at a labelled code is at a boundary, and no word character follows it. -/
theorem Written.of_matches {text pre label sep ds post seg after : List Char}
    (h : Written text pre label sep ds post) {before : Option Char}
    {captured : Option (List Char)} (hm : Matches codePattern before seg after captured)
    (htext : label ++ (sep ++ ds) ++ post = seg ++ after) :
    atBoundary before label.head? = true ∧ post.head?.any isWord = false := by
  obtain ⟨x, y, z, hlabel, -⟩ := h.isLabel.letters
  obtain ⟨rfl, rfl, -⟩ := codePattern_here hm (by rw [hlabel]; rfl) h.sep.signs.2 h.digits
    h.after htext.symm
  obtain ⟨label', sep', ds', heq, -, -, -, -, hfirst, -⟩ := codePattern_inv hm
  obtain ⟨-, -, -, hpost⟩ := codePattern_end hm
  refine ⟨?_, hpost⟩
  rw [← List.append_assoc label', ← heq, List.append_assoc, h.head] at hfirst
  exact hfirst

/-- A labelled code that survives was passed by. -/
theorem exposed_of_survivingCode (hword : ∀ c, isWord c = true → wordChar c = true)
    {v : List Char} (h : SurvivingCode wordChar (replaceAll codePattern labelled v)) :
    ExposedCode wordChar v := by
  obtain ⟨last, hscan⟩ := replaceAll_scan (f := labelled) codePattern_solid v
  obtain ⟨pre', label, sep, ds, post', hw, hbefore⟩ := h
  have hne : label ++ (sep ++ ds) ≠ [] := by
    obtain ⟨x, y, z, hlabel, -⟩ := hw.isLabel.letters
    rw [hlabel]
    simp
  obtain ⟨pre, post, hv, hfirst, hstanding, hrest⟩ :=
    hscan.window (labelled_foreign hw.no_bracket hw.last) hne hw.text_eq
  have hwritten : Written v pre label sep ds post :=
    ⟨hv, hw.label, hw.sep, hw.digits, by rw [← codes_head hrest]; exact hw.after⟩
  have hnone : Unmatched codePattern (lastOf none pre) (label ++ (sep ++ ds) ++ post) :=
    hstanding [] _ rfl hne
  have hpost : atBoundary (lastOf none pre) label.head? = true →
      post.head?.any isWord = true := by
    intro hb
    by_contra hnot
    exact hnone _ _ _ rfl (hwritten.matches hb (by simpa using hnot))
  have hsame : (pre'.getLast? = pre.getLast? ∨ ∃ pre₀ seg captured, pre = pre₀ ++ seg ∧
      Matches codePattern (lastOf none pre₀) seg (label ++ (sep ++ ds) ++ post) captured) := by
    rcases hfirst.ending with ⟨rfl, hnone', -⟩ | ⟨c, hc, hlast⟩ |
      ⟨pre₀, seg, captured, written, htext, hm, -, -, -⟩
    · rw [lastOf_none] at hnone'
      exact .inl hnone'.symm
    · rw [lastOf_none] at hc
      exact .inl (hlast.trans hc.symm)
    · refine .inr ⟨pre₀, seg, captured, ?_, hm⟩
      rw [hv, ← List.append_assoc pre₀] at htext
      exact List.append_cancel_right htext
  rcases hsame with hlast | ⟨pre₀, seg, captured, rfl, hm⟩
  · rw [hlast] at hbefore
    rcases hw.label with hlabel | hlabel
    · refine .suffix hwritten hlabel hbefore (hpost ?_)
      rw [lastOf_none, atBoundary, isWord_of_not_wordChar hword hbefore,
        head_otp hlabel.anyCase]
      rfl
    · exact .kod hwritten hlabel hbefore
  · obtain ⟨d, hd, hdigit, hnext⟩ := codePattern_end hm
    rw [List.append_assoc, hw.head] at hnext
    rcases hw.label with hlabel | hlabel
    · rw [head_otp hlabel.anyCase] at hnext
      cases hnext
    · refine .adjacent hwritten hlabel hm (hpost ?_)
      rw [lastOf_append, lastOf_eq hd, atBoundary, Option.any_some, isWord_of_isDigit hdigit,
        hnext]
      rfl

/-- A first letter of a label is in the interior of no match. -/
theorem initial_code {c : Char} (hc : isInitial c = true) {before : Option Char}
    {seg after : List Char} {captured : Option (List Char)}
    (h : Matches codePattern before seg after captured) : c ∉ seg.tail := by
  obtain ⟨x, rest, rfl, -, hrest⟩ := codePattern_initial h
  intro hmem
  have htail := hrest c hmem
  rw [isTail_of_isInitial hc] at htail
  cases htail

theorem not_initial_of_isTail {c : Char} (h : isTail c = true) : isInitial c = false := by
  cases hc : isInitial c with
  | false => rfl
  | true =>
    rw [isTail_of_isInitial hc] at h
    cases h

/-- Where no match starts at a labelled code, the code is copied. -/
theorem Written.copied {text pre label sep ds post out : List Char}
    (h : Written text pre label sep ds post) {before last : Option Char}
    (hscan : Scan codePattern labelled before (label ++ (sep ++ ds) ++ post) out last [])
    (hnone : Unmatched codePattern before (label ++ (sep ++ ds) ++ post)) :
    ∃ post', out = label ++ (sep ++ ds) ++ post' ∧ post'.head?.any isDigit = false := by
  obtain ⟨x, rest, heq, hx, hrest⟩ := tail_of_code h.isLabel h.sep h.digits
  rw [heq] at hscan hnone ⊢
  have hstanding : Standing codePattern before (x :: rest) post :=
    .cons hnone (.of_forall fun c hc before rest =>
      codePattern_unmatched (not_initial_of_isTail (hrest c hc)) before rest)
  obtain ⟨post', rfl, hafter⟩ := hscan.copies hstanding
  exact ⟨post', rfl, by rw [codes_head hafter]; exact h.after⟩

theorem survivingCode_of_exposed (hword : ∀ c, isWord c = true → wordChar c = true)
    (hbracket : wordChar ']' = false) {v : List Char} (h : ExposedCode wordChar v) :
    SurvivingCode wordChar (replaceAll codePattern labelled v) := by
  obtain ⟨last, hscan⟩ := replaceAll_scan (f := labelled) codePattern_solid v
  -- The walk comes to the label; what it has written before ends no word.
  have harrive : ∀ {pre label sep ds post : List Char}, Written v pre label sep ds post →
      pre.getLast?.any wordChar = false →
      Unmatched codePattern (lastOf none pre) (label ++ (sep ++ ds) ++ post) →
      SurvivingCode wordChar (replaceAll codePattern labelled v) := by
    intro pre label sep ds post hw hbefore hnone
    obtain ⟨x, rest, heq, hx, -⟩ := tail_of_code hw.isLabel hw.sep hw.digits
    have hv : v = pre ++ x :: (rest ++ post) := by rw [hw.text_eq, heq]; rfl
    obtain ⟨pre', out, hout, hfirst, hthere⟩ :=
      hscan.reaches (fun _ _ _ _ => initial_code hx) hv
    rw [← List.cons_append, ← heq] at hthere
    obtain ⟨post', rfl, hpost'⟩ := hw.copied hthere hnone
    refine ⟨pre', label, sep, ds, post', ⟨hout, hw.label, hw.sep, hw.digits, hpost'⟩, ?_⟩
    rcases hfirst.ending with ⟨rfl, -, -⟩ | ⟨c, hc, hlast⟩ |
      ⟨pre₀, seg, captured, written, -, -, -, -, rfl⟩
    · rfl
    · rw [lastOf_none] at hc
      rw [hlast, ← hc]
      exact hbefore
    · rw [labelled, List.getLast?_append, List.getLast?_append, REDACTED_last]
      exact hbracket
  cases h with
  | suffix hw hlabel hbefore hafter =>
    refine harrive hw hbefore fun seg after captured htext hm => ?_
    rw [(hw.of_matches hm htext).2] at hafter
    cases hafter
  | kod hw hlabel hbefore =>
    refine harrive hw hbefore fun seg after captured htext hm => ?_
    have hfirst := (hw.of_matches hm htext).1
    rw [lastOf_none, atBoundary, isWord_of_not_wordChar hword hbefore,
      head_kod hlabel.anyCase] at hfirst
    cases hfirst
  | @adjacent pre seg label sep ds post captured hw hlabel hm hafter =>
    obtain ⟨x, rest, rfl, hx, -⟩ := codePattern_initial hm
    have hv : v = pre ++ x :: (rest ++ (label ++ (sep ++ ds) ++ post)) := by
      rw [hw.text_eq]
      simp
    obtain ⟨pre', out, hout, -, hthere⟩ := hscan.reaches (fun _ _ _ _ => initial_code hx) hv
    rcases hthere.first with ⟨h, -⟩ | ⟨c, rest', out', -, -, hnone⟩ |
      ⟨seg', after', captured', out', htext, hm', rfl, hrest⟩
    · cases h
    · exact absurd hm (hnone _ _ _ rfl)
    · obtain ⟨rfl, rfl⟩ := codePattern_unique hm hm' htext
      obtain ⟨post', rfl, hpost'⟩ := hw.copied hrest fun seg after captured htext hm => by
        rw [(hw.of_matches hm htext).2] at hafter
        cases hafter
      refine ⟨pre' ++ labelled (x :: rest) captured', label, sep, ds, post',
        ⟨by rw [hout]; simp, hw.label, hw.sep, hw.digits, hpost'⟩, ?_⟩
      rw [labelled, List.getLast?_append, List.getLast?_append, REDACTED_last]
      exact hbracket

end

theorem survivingCode_codes {wordChar : Char → Bool}
    (hword : ∀ c, isWord c = true → wordChar c = true) (hbracket : wordChar ']' = false)
    (v : List Char) :
    SurvivingCode wordChar (replaceAll codePattern labelled v) ↔ ExposedCode wordChar v :=
  ⟨exposed_of_survivingCode hword, survivingCode_of_exposed hword hbracket⟩

/-- The fifth replacement passes by no number of its text, the sixth by no labelled code of
its. -/
structure Redactable (wordChar : Char → Bool) (links : Pattern) (value : List Char) : Prop where
  phones : ¬ ExposedPhone (withoutCredentials links value)
  codes : ¬ ExposedCode wordChar (withoutPhones links value)

theorem redactText_clean_iff {wordChar : Char → Bool}
    (hword : ∀ c, isWord c = true → wordChar c = true) (hbracket : wordChar ']' = false)
    (links : Pattern) (value : List Char) :
    Clean wordChar (redactText links value) ↔ Redactable wordChar links value := by
  rw [Clean, redactText, survivingCode_codes hword hbracket, survivingPhone_codes, withoutPhones,
    survivingPhone_phones]
  exact ⟨fun h => ⟨h.2, h.1⟩, fun h => ⟨h.2, h.1⟩⟩

/-- The first five patterns match nowhere in the text. -/
def Plain (links : Pattern) (value : List Char) : Prop :=
  ∀ p ∈ [links, bearerPattern, jwtPattern, cookiePattern, phonePattern],
    ∀ pre rest, value = pre ++ rest → Unmatched p (lastOf none pre) rest

theorem Plain.withoutPhones_eq {links : Pattern} {value : List Char} (h : Plain links value) :
    withoutCredentials links value = value ∧ withoutPhones links value = value := by
  have hsame : ∀ {p : Pattern}, p ∈ [links, bearerPattern, jwtPattern, cookiePattern,
      phonePattern] → ∀ f, replaceAll p f value = value :=
    fun hp f => replaceFrom_of_unmatched (h _ hp)
  have hcredentials : withoutCredentials links value = value := by
    rw [withoutCredentials, hsame (by simp), hsame (by simp), hsame (by simp), hsame (by simp)]
  exact ⟨hcredentials, by rw [withoutPhones, hcredentials, hsame (by simp)]⟩

end SensitiveText

/-- What the two functions leave: no labelled code and no normalised number just when the last two
replacements pass by none; in a text in which the first five match nowhere they pass by what the
text itself exposes. -/
theorem redaction_clean_iff {wordChar : Char → Bool}
    (hword : ∀ c, isWord c = true → wordChar c = true) (hbracket : wordChar ']' = false)
    (value : String) :
    (Clean wordChar (redactSensitiveText value).toList ↔
      Redactable wordChar signedUrl value.toList) ∧
    (Clean wordChar (redactDiagnosticText value).toList ↔
      Redactable wordChar mapOrSignedUrl value.toList) ∧
    ∀ links, Plain links value.toList → (Redactable wordChar links value.toList ↔
      ¬ ExposedPhone value.toList ∧ ¬ ExposedCode wordChar value.toList) := by
  refine ⟨?_, ?_, fun links hplain => ?_⟩
  · rw [redactSensitiveText, String.toList_ofList]
    exact redactText_clean_iff hword hbracket signedUrl value.toList
  · rw [redactDiagnosticText, String.toList_ofList]
    exact redactText_clean_iff hword hbracket mapOrSignedUrl value.toList
  · obtain ⟨hcredentials, hphones⟩ := hplain.withoutPhones_eq
    constructor
    · rintro ⟨h₁, h₂⟩
      rw [hcredentials] at h₁
      rw [hphones] at h₂
      exact ⟨h₁, h₂⟩
    · rintro ⟨h₁, h₂⟩
      exact ⟨by rwa [hcredentials], by rwa [hphones]⟩

namespace SensitiveText.Sample

/-- The word characters of the patterns and the Cyrillic letters. -/
def wordChar (c : Char) : Bool := isWord c || (0x400 ≤ c.toNat && c.toNat ≤ 0x52F)

theorem redaction_clean_sample :
    (Clean wordChar (redactSensitiveText "OTP: 1234, +79991234567").toList ↔
      Redactable wordChar signedUrl "OTP: 1234, +79991234567".toList) ∧
    (Clean wordChar (redactDiagnosticText "OTP: 1234, +79991234567").toList ↔
      Redactable wordChar mapOrSignedUrl "OTP: 1234, +79991234567".toList) ∧
    ∀ links, Plain links "OTP: 1234, +79991234567".toList →
      (Redactable wordChar links "OTP: 1234, +79991234567".toList ↔
        ¬ ExposedPhone "OTP: 1234, +79991234567".toList ∧
        ¬ ExposedCode wordChar "OTP: 1234, +79991234567".toList) :=
  redaction_clean_iff (fun c hc => by simp [wordChar, hc]) (by decide) _

/-- A code with a Cyrillic label, and a number with a letter after it, are left in the text. -/
theorem code_and_number_left :
    redactSensitiveText "код: 1234" = "код: 1234" ∧
    redactDiagnosticText "код: 1234" = "код: 1234" ∧
    ¬ Clean wordChar (redactSensitiveText "код: 1234").toList ∧
    ¬ Clean wordChar (redactDiagnosticText "код: 1234").toList ∧
    ¬ Clean wordChar (redactSensitiveText "+79991234567x").toList ∧
    ¬ Clean wordChar (redactDiagnosticText "+79991234567x").toList := by
  have hcode : SurvivingCode wordChar "код: 1234".toList := by
    refine ⟨[], kod, [':', ' '], ['1', '2', '3', '4'], [],
      ⟨by decide +kernel, .inr ?_, .inl ⟨[], ':', [' '], rfl, ?_, .inl rfl, ?_⟩, ?_, rfl⟩, rfl⟩
    · exact .cons (by decide) (.cons (by decide) (.cons (by decide) .nil))
    · exact fun d hd => absurd hd List.not_mem_nil
    · intro d hd
      rw [List.mem_singleton.mp hd]
      decide
    · exact ⟨List.all_eq_true.mp (by decide), by decide, by decide⟩
  have hphone : SurvivingPhone "+79991234567x".toList :=
    ⟨[], ['9', '9', '9', '1', '2', '3', '4', '5', '6', '7'], ['x'], by decide +kernel,
      ⟨List.all_eq_true.mp (by decide), rfl⟩, by decide⟩
  have hserver : redactSensitiveText "код: 1234" = "код: 1234" := by decide +kernel
  have hmobile : redactDiagnosticText "код: 1234" = "код: 1234" := by decide +kernel
  have hserver' : redactSensitiveText "+79991234567x" = "+79991234567x" := by decide +kernel
  have hmobile' : redactDiagnosticText "+79991234567x" = "+79991234567x" := by decide +kernel
  rw [hserver, hmobile, hserver', hmobile']
  exact ⟨rfl, rfl, fun h => h.1 hcode, fun h => h.1 hcode, fun h => h.2 hphone,
    fun h => h.2 hphone⟩

end SensitiveText.Sample

end Sosedi
