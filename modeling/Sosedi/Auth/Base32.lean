import Mathlib.Data.List.Forall2
import Sosedi.Auth.SecondFactors
import Sosedi.Data.Regrouping

/-!
# Base32 of the time-based secrets

`encodeBase32`, and what `decodeBase32` makes of texts over the alphabet.

Proved here:

* `encodeBase32_spec`: the symbols are the bits of the bytes in groups of five, filled up with
  zeros;
* `decodeBase32Loop_spec`: the bytes are the bits of the symbols in groups of eight;
* `base32_round_trip`: decoding gives back the encoded bytes, and as many bytes as a text over
  the alphabet holds in full.
-/

namespace Sosedi

open Regrouping

/-- `BASE32_ALPHABET[value & 31]`. -/
def base32Symbol (value : BitVec 32) : Char :=
  base32Alphabet.toList.getD (value &&& 31#32).toNat 'A'

/-- The inner loop of `encodeBase32`; the bits that are left over, and what is encoded. -/
def encodeBase32Symbols (accumulator : BitVec 32) : Nat → List Char → Nat × List Char
  | bits + 5, encoded =>
    encodeBase32Symbols accumulator bits (encoded ++ [base32Symbol (accumulator >>> bits)])
  | bits, encoded => (bits, encoded)

/-- The outer loop of `encodeBase32`. -/
def encodeBase32Loop : Bytes → Nat → BitVec 32 → List Char → Nat × BitVec 32 × List Char
  | [], bits, accumulator, encoded => (bits, accumulator, encoded)
  | byte :: rest, bits, accumulator, encoded =>
    let accumulator := (accumulator <<< 8) ||| byte.toBitVec.setWidth 32
    match encodeBase32Symbols accumulator (bits + 8) encoded with
    | (bits, encoded) => encodeBase32Loop rest bits accumulator encoded

def encodeBase32 (value : Bytes) : String :=
  match encodeBase32Loop value 0 0 [] with
  | (bits, accumulator, encoded) =>
    String.ofList (if 0 < bits then encoded ++ [base32Symbol (accumulator <<< (5 - bits))]
      else encoded)

def generateTotpSecret (randomBytes : Bytes) : String := encodeBase32 randomBytes

example : encodeBase32 [0x66, 0x6F, 0x6F, 0x62] = "MZXW6YQ" := by decide +kernel

/-! ## Encoding -/

/-- The symbol of a group of five bits. -/
def letter (d : Nat) : Char := base32Alphabet.toList.getD d 'A'

theorem base32Symbol_eq (value : BitVec 32) :
    base32Symbol value = letter (value.toNat % 2 ^ 5) := by
  have hmask : (value &&& 31#32).toNat = value.toNat % 2 ^ 5 := by
    rw [BitVec.toNat_and]
    exact Nat.and_two_pow_sub_one_eq_mod value.toNat 5
  rw [base32Symbol, hmask, letter]

theorem base32Symbol_shift (accumulator : BitVec 32) (bits : Nat) :
    base32Symbol (accumulator >>> bits) = letter (accumulator.toNat / 2 ^ bits % 2 ^ 5) := by
  rw [base32Symbol_eq, BitVec.toNat_ushiftRight, Nat.shiftRight_eq_div_pow]

variable {read total bits : Nat} {accumulator : BitVec 32} {out : List Nat}

/-- The inner loop writes a symbol as long as there are five bits. -/
theorem encodeBase32Symbols_spec (h : Regrouped 32 5 read total bits accumulator out)
    (hbits : bits ≤ 32) : ∃ bits' out',
    encodeBase32Symbols accumulator bits (out.map letter) = (bits', out'.map letter) ∧
      Regrouped 32 5 read total bits' accumulator out' ∧ bits' < 5 := by
  induction bits using Nat.strongRecOn generalizing out with
  | ind bits ih =>
    by_cases hfive : 5 ≤ bits
    · obtain ⟨rest, rfl⟩ := Nat.exists_eq_add_of_le' hfive
      have hemit := h.emit hfive hbits
      rw [Nat.add_sub_cancel] at hemit
      obtain ⟨bits', out', heq, hrest, hlt⟩ := ih rest (by omega) hemit (by omega)
      refine ⟨bits', out', ?_, hrest, hlt⟩
      rw [encodeBase32Symbols, base32Symbol_shift, ← heq, List.map_append, List.map_singleton]
    · refine ⟨bits, out, ?_, h, by omega⟩
      rw [encodeBase32Symbols]
      intro n hn
      omega

/-- The numbers of the bytes. -/
def byteValues (bytes : Bytes) : List Nat := bytes.map UInt8.toNat

theorem byteValues_lt (bytes : Bytes) : ∀ d ∈ byteValues bytes, d < 2 ^ 8 := by
  intro d hd
  obtain ⟨byte, -, rfl⟩ := List.mem_map.mp hd
  exact byte.toNat_lt

theorem byteValues_injective {bytes bytes' : Bytes} (h : byteValues bytes = byteValues bytes') :
    bytes = bytes' :=
  List.map_injective_iff.mpr (fun _ _ h => UInt8.toNat_inj.mp h) h

/-- One byte is read, then the symbols that are full are written. -/
theorem encodeBase32Loop_spec (value done : Bytes)
    (h : Regrouped 32 5 (8 * done.length) (Regrouping.value 8 (byteValues done)) bits accumulator
      out) (hbits : bits < 5) : ∃ bits' accumulator' out',
    encodeBase32Loop value bits accumulator (out.map letter) =
        (bits', accumulator', out'.map letter) ∧
      Regrouped 32 5 (8 * (done ++ value).length)
        (Regrouping.value 8 (byteValues (done ++ value))) bits' accumulator' out' ∧
      bits' < 5 := by
  induction value generalizing done bits accumulator out with
  | nil => exact ⟨bits, accumulator, out, rfl, by rwa [List.append_nil], hbits⟩
  | cons byte value ih =>
    have hbyte : byte.toBitVec.setWidth 32 = BitVec.ofNat 32 byte.toNat :=
      BitVec.eq_of_toNat_eq (by simp)
    have hpush := h.push (d := byte.toNat) (a := 8) byte.toNat_lt
    obtain ⟨bits₁, out₁, heq, hwritten, hlt⟩ := encodeBase32Symbols_spec hpush (by omega)
    have hdone : 8 * done.length + 8 = 8 * (done ++ [byte]).length := by
      rw [List.length_append, List.length_singleton]
      omega
    have hvalue : Regrouping.value 8 (byteValues done) * 2 ^ 8 + byte.toNat =
        Regrouping.value 8 (byteValues (done ++ [byte])) := by
      rw [byteValues, byteValues, List.map_append, List.map_singleton, value_append]
    rw [hdone, hvalue] at hwritten
    obtain ⟨bits', accumulator', out', hloop, hrest, hlt'⟩ := ih _ hwritten hlt
    refine ⟨bits', accumulator', out', ?_, by simpa using hrest, hlt'⟩
    rw [encodeBase32Loop, hbyte, heq]
    exact hloop

/-- The symbols of an encoding hold the bits of the bytes, filled up with zeros. -/
theorem encodeBase32_spec (value : Bytes) : ∃ symbols fill,
    encodeBase32 value = String.ofList (symbols.map letter) ∧ fill < 5 ∧
      5 * symbols.length = 8 * value.length + fill ∧
      Regrouping.value 5 symbols = Regrouping.value 8 (byteValues value) * 2 ^ fill ∧
      ∀ d ∈ symbols, d < 2 ^ 5 := by
  obtain ⟨bits, accumulator, out, hloop, h, hbits⟩ :=
    encodeBase32Loop_spec value [] (Regrouped.start 32 5) (by decide)
  have hloop : encodeBase32Loop value 0 0 [] = (bits, accumulator, out.map letter) := hloop
  rw [List.nil_append] at h
  rw [encodeBase32, hloop]
  by_cases hpos : 0 < bits
  · have hfill := (h.push (a := 5 - bits) (d := 0) (Nat.two_pow_pos _)).emit (by omega) (by omega)
    have hnone : bits + (5 - bits) - 5 = 0 := by omega
    rw [hnone, Nat.pow_zero, Nat.div_one] at hfill
    refine ⟨_, 5 - bits, ?_, by omega, ?_, ?_, hfill.digits⟩
    · have hzero : (accumulator <<< (5 - bits)) ||| BitVec.ofNat 32 0 =
          accumulator <<< (5 - bits) := by simp
      simp only [if_pos hpos, base32Symbol_eq, List.map_append, List.map_singleton, hzero]
    · have hcount := hfill.count
      omega
    · have hwritten := hfill.written
      rwa [Nat.add_zero, Nat.pow_zero, Nat.div_one] at hwritten
  · obtain rfl : bits = 0 := by omega
    refine ⟨out, 0, by simp, by decide, ?_, ?_, h.digits⟩
    · have hcount := h.count
      omega
    · simpa using h.written

/-! ## Decoding -/

/-- The symbol of each group is found where it stands in the alphabet. -/
theorem idxOf_letter {d : Nat} (hd : d < 32) :
    base32Alphabet.toList.idxOf? (letter d) = some d := by
  revert d
  decide +kernel

theorem idxOf_lt {c : Char} {d : Nat} (h : base32Alphabet.toList.idxOf? c = some d) :
    d < 2 ^ 5 := by
  have hlength : base32Alphabet.toList.length = 32 := by decide +kernel
  obtain ⟨hlt, -⟩ := List.idxOf?_eq_some_iff.mp h
  rwa [hlength] at hlt

theorem byteValues_append (decoded : Bytes) (word : BitVec 32) (bits : Nat) :
    byteValues (decoded ++ [UInt8.ofBitVec ((word >>> bits).setWidth 8)]) =
      byteValues decoded ++ [word.toNat / 2 ^ bits % 2 ^ 8] := by
  have hbyte : (UInt8.ofBitVec ((word >>> bits).setWidth 8)).toNat =
      word.toNat / 2 ^ bits % 2 ^ 8 := by
    rw [UInt8.toNat_ofBitVec, BitVec.toNat_setWidth, BitVec.toNat_ushiftRight,
      Nat.shiftRight_eq_div_pow]
  rw [byteValues, List.map_append, List.map_singleton, ← byteValues, hbyte]

/-- A symbol is read, then a byte is written if it is full. -/
theorem decodeBase32Loop_spec {text : List Char} {symbols : List Nat}
    (htext : List.Forall₂ (fun c d => base32Alphabet.toList.idxOf? c = some d) text symbols)
    (done : List Nat) (decoded : Bytes)
    (h : Regrouped 32 8 (5 * done.length) (Regrouping.value 5 done) bits accumulator
      (byteValues decoded)) (hbits : bits < 8) : ∃ bits' accumulator' decoded',
    decodeBase32Loop text bits accumulator decoded = some decoded' ∧
      Regrouped 32 8 (5 * (done ++ symbols).length) (Regrouping.value 5 (done ++ symbols)) bits'
        accumulator' (byteValues decoded') ∧ bits' < 8 := by
  induction htext generalizing done decoded bits accumulator with
  | nil => exact ⟨bits, accumulator, decoded, rfl, by rwa [List.append_nil], hbits⟩
  | @cons c d text symbols hd htext ih =>
    have hpush := h.push (a := 5) (idxOf_lt hd)
    have hdone : 5 * done.length + 5 = 5 * (done ++ [d]).length := by
      rw [List.length_append, List.length_singleton]
      omega
    rw [hdone, ← value_append] at hpush
    rw [decodeBase32Loop, hd, ← List.singleton_append, ← List.append_assoc]
    by_cases hfull : 8 ≤ bits + 5
    · have hemit := hpush.emit hfull (by omega)
      rw [← byteValues_append] at hemit
      obtain ⟨bits', accumulator', decoded', hloop, hrest, hlt⟩ := ih _ _ hemit (by omega)
      refine ⟨bits', accumulator', decoded', ?_, hrest, hlt⟩
      rw [← hloop]
      exact if_pos hfull
    · obtain ⟨bits', accumulator', decoded', hloop, hrest, hlt⟩ := ih _ _ hpush (by omega)
      refine ⟨bits', accumulator', decoded', ?_, hrest, hlt⟩
      rw [← hloop]
      exact if_neg hfull

/-- A text over the alphabet is decoded to as many bytes as it holds in full; their value is that
of the symbols without the bits that are left over. -/
theorem decodeBase32Loop_bytes {text : List Char} {symbols : List Nat}
    (htext : List.Forall₂ (fun c d => base32Alphabet.toList.idxOf? c = some d) text symbols) :
    ∃ bytes, decodeBase32Loop text 0 0 [] = some bytes ∧
      bytes.length = 5 * symbols.length / 8 ∧
      Regrouping.value 8 (byteValues bytes) =
        Regrouping.value 5 symbols / 2 ^ (5 * symbols.length % 8) := by
  obtain ⟨bits, accumulator, bytes, hloop, h, hbits⟩ :=
    decodeBase32Loop_spec htext [] [] (Regrouped.start 32 8) (by decide)
  rw [List.nil_append] at h
  have hcount := h.count
  have hlength : (byteValues bytes).length = bytes.length := List.length_map _
  rw [hlength] at hcount
  have hrest : bits = 5 * symbols.length % 8 := by omega
  exact ⟨bytes, hloop, by omega, hrest ▸ h.written⟩

/-- The capital letter of an ASCII letter. -/
def toUpperAscii (c : Char) : Char :=
  if 97 ≤ c.toNat ∧ c.toNat ≤ 122 then Char.ofNat (c.toNat - 32) else c

/-- What `toUpperCase` does with ASCII texts. -/
def UpperCases (toUpperCase : String → String) : Prop :=
  ∀ text : List Char, (∀ c ∈ text, c.toNat < 128) →
    toUpperCase (String.ofList text) = String.ofList (text.map toUpperAscii)

/-- A character of the alphabet, in either letter case. -/
def InBase32Alphabet (c : Char) : Prop := toUpperAscii c ∈ base32Alphabet.toList

theorem base32Alphabet_ascii :
    ∀ c ∈ base32Alphabet.toList, c.toNat < 128 ∧ (c == '=') = false := by
  have hall : (base32Alphabet.toList.all fun c => decide (c.toNat < 128) && !(c == '=')) = true := by
    decide +kernel
  intro c hc
  simpa using List.all_eq_true.mp hall c hc

theorem InBase32Alphabet.ascii {c : Char} (h : InBase32Alphabet c) : c.toNat < 128 := by
  by_cases hsmall : 97 ≤ c.toNat ∧ c.toNat ≤ 122
  · omega
  · rw [InBase32Alphabet, toUpperAscii, if_neg hsmall] at h
    exact (base32Alphabet_ascii c h).1

/-- Padding at the end of a text over the alphabet is cut off. -/
theorem decodeBase32_padded {toUpperCase : String → String}
    (hupper : UpperCases toUpperCase)
    {text : List Char} (htext : ∀ c ∈ text, InBase32Alphabet c) (padding : Nat) :
    decodeBase32 toUpperCase (String.ofList (text ++ List.replicate padding '=')) =
      decodeBase32Loop (text.map toUpperAscii) 0 0 [] := by
  have hascii : ∀ c ∈ text ++ List.replicate padding '=', c.toNat < 128 := by
    intro c hc
    rcases List.mem_append.mp hc with hc | hc
    · exact (htext c hc).ascii
    · rw [List.eq_of_mem_replicate hc]
      decide
  have hpad : (List.replicate padding '=').map toUpperAscii = List.replicate padding '=' := by
    rw [List.map_replicate]
    rfl
  have hcut : ((text.map toUpperAscii ++ List.replicate padding '=').reverse.dropWhile
      (· == '=')).reverse = text.map toUpperAscii := by
    have hlast : ∀ c ∈ (text.map toUpperAscii).reverse, (c == '=') = false := by
      intro c hc
      obtain ⟨d, hd, rfl⟩ := List.mem_map.mp (List.mem_reverse.mp hc)
      exact (base32Alphabet_ascii _ (htext d hd)).2
    rw [List.reverse_append, List.reverse_replicate, List.dropWhile_append_of_pos
      (fun c hc => by rw [List.eq_of_mem_replicate hc]; rfl)]
    cases hreverse : (text.map toUpperAscii).reverse with
    | nil => exact (List.reverse_eq_nil_iff.mp hreverse).symm
    | cons c rest =>
      rw [hreverse] at hlast
      rw [List.dropWhile_cons_of_neg (by simp [hlast c (List.mem_cons_self ..)]), ← hreverse,
        List.reverse_reverse]
  rw [decodeBase32, hupper _ hascii, String.toList_ofList, List.map_append, hpad, hcut]

theorem toUpperAscii_letter {d : Nat} (hd : d < 32) :
    toUpperAscii (letter d) = letter d ∧ InBase32Alphabet (letter d) := by
  have hletter : ∀ d, d < 32 → toUpperAscii (letter d) = letter d ∧
      toUpperAscii (letter d) ∈ base32Alphabet.toList := by decide +kernel
  exact hletter d hd

theorem decodeBase32_encodeBase32 {toUpperCase : String → String}
    (hupper : UpperCases toUpperCase)
    (value : Bytes) : decodeBase32 toUpperCase (encodeBase32 value) = some value := by
  obtain ⟨symbols, fill, hencode, hfill, hcount, hvalue, hdigits⟩ := encodeBase32_spec value
  have hletters : ∀ c ∈ symbols.map letter, InBase32Alphabet c := by
    intro c hc
    obtain ⟨d, hd, rfl⟩ := List.mem_map.mp hc
    exact (toUpperAscii_letter (hdigits d hd)).2
  have hsame : (symbols.map letter).map toUpperAscii = symbols.map letter := by
    rw [List.map_map]
    exact List.map_congr_left fun d hd => (toUpperAscii_letter (hdigits d hd)).1
  have hindices : List.Forall₂ (fun c d => base32Alphabet.toList.idxOf? c = some d)
      (symbols.map letter) symbols := by
    rw [List.forall₂_map_left_iff, List.forall₂_same]
    exact fun d hd => idxOf_letter (hdigits d hd)
  obtain ⟨bytes, hloop, hlength, hbytes⟩ := decodeBase32Loop_bytes hindices
  have hpadded := decodeBase32_padded hupper hletters 0
  rw [List.replicate_zero, List.append_nil, hsame, hloop] at hpadded
  rw [hencode, hpadded]
  refine congrArg some (byteValues_injective (digits_eq (by decide) ?_ (byteValues_lt _)
    (byteValues_lt _) ?_))
  · rw [byteValues, byteValues, List.length_map, List.length_map, hlength]
    omega
  · have hrest : 5 * symbols.length % 8 = fill := by omega
    rw [hbytes, hvalue, hrest, Nat.mul_div_cancel _ (Nat.two_pow_pos fill)]

/-- **Base32 round trip.** -/
theorem base32_round_trip {toUpperCase : String → String}
    (hupper : UpperCases toUpperCase) :
    (∀ value : Bytes, decodeBase32 toUpperCase (encodeBase32 value) = some value) ∧
    ∀ (text : List Char) (padding : Nat), (∀ c ∈ text, InBase32Alphabet c) → ∃ bytes,
      decodeBase32 toUpperCase (String.ofList (text ++ List.replicate padding '=')) = some bytes ∧
        bytes.length = 5 * text.length / 8 := by
  refine ⟨decodeBase32_encodeBase32 hupper, fun text padding htext => ?_⟩
  have hindices : ∃ symbols, List.Forall₂ (fun c d => base32Alphabet.toList.idxOf? c = some d)
      (text.map toUpperAscii) symbols := by
    induction text with
    | nil => exact ⟨[], .nil⟩
    | cons c text ih =>
      obtain ⟨symbols, hsymbols⟩ := ih fun d hd => htext d (List.mem_cons_of_mem _ hd)
      obtain ⟨d, hd⟩ := Option.isSome_iff_exists.mp
        (List.isSome_idxOf?.mpr (htext c (List.mem_cons_self ..)))
      exact ⟨d :: symbols, .cons hd hsymbols⟩
  obtain ⟨symbols, hsymbols⟩ := hindices
  obtain ⟨bytes, hloop, hlength, -⟩ := decodeBase32Loop_bytes hsymbols
  refine ⟨bytes, by rw [decodeBase32_padded hupper htext, hloop], ?_⟩
  rw [hlength, ← hsymbols.length_eq, List.length_map]

/-- The secret of an administrator is the key that was drawn. -/
theorem decodeBase32_generateTotpSecret {toUpperCase : String → String}
    (hupper : UpperCases toUpperCase)
    (randomBytes : Bytes) :
    decodeBase32 toUpperCase (generateTotpSecret randomBytes) = some randomBytes :=
  decodeBase32_encodeBase32 hupper randomBytes

namespace Base32

def upperCase (text : String) : String := String.ofList (text.toList.map toUpperAscii)

theorem base32_round_trip_ascii :
    (∀ value : Bytes, decodeBase32 upperCase (encodeBase32 value) = some value) ∧
    ∀ (text : List Char) (padding : Nat), (∀ c ∈ text, InBase32Alphabet c) → ∃ bytes,
      decodeBase32 upperCase (String.ofList (text ++ List.replicate padding '=')) = some bytes ∧
        bytes.length = 5 * text.length / 8 :=
  base32_round_trip fun text _ => by rw [upperCase, String.toList_ofList]

end Base32

end Sosedi
