import Mathlib.Data.List.Infix
import Mathlib.Logic.Function.Basic
import Sosedi.Domain.Provider
import Sosedi.Operations.StreamCipher

/-!
# Encrypted backup files

`encryptBackupFile` and `decryptBackupFile`, over files by path.  The cipher of the source is
`aes-256-gcm`; what is read arrives in chunks.

Proved here:

* `encryptBackupFile_eq`: the layout of an encrypted file;
* `isOutput_iff_authentic`: only what was encrypted is authentic;
* `backup_authenticated`: contents come back, and all else is refused; the deciphered bytes of a
  refused file may stay behind.
-/

namespace Operations

open Sosedi (Bytes Error utf8)

def magic : Bytes := utf8 "SOSPG001"

def ivBytes : Nat := 12

def tagBytes : Nat := 16

def headerBytes : Nat := magic.length + ivBytes

/-- How a stream cuts what it reads. -/
structure ReadStream where
  chunks : Bytes → List Bytes
  flatten_chunks : ∀ bytes, (chunks bytes).flatten = bytes

/-- A cipher with the tags of `aes-256-gcm`. -/
abbrev GcmCipher := { cipher : StreamCipher Bytes Bytes // cipher.tagBytes = tagBytes }

abbrev Files (Path : Type) := Path → Option Bytes

variable {Path : Type} [DecidableEq Path]

/-- `iv` is the fresh nonce. -/
def encryptBackupFile (cipher : GcmCipher) (stream : ReadStream) (files : Files Path)
    (inputPath outputPath : Path) (key iv : Bytes) : Except Error Unit × Files Path :=
  if key.length ≠ 32 then
    (.error (.internal "Backup encryption requires a 32-byte key"), files)
  else if (files outputPath).isSome then (.error (.internal "EEXIST"), files)
  else
    let created := Function.update files outputPath (some (magic ++ iv))
    match created inputPath with
    | none => (.error (.internal "ENOENT"), created)
    | some contents =>
      let (state, written) := pipeline (encryptChunk (cipher.1.keystream key iv))
        CipherState.start (stream.chunks contents)
      (.ok (), Function.update created outputPath
        (some (magic ++ iv ++ written ++ cipher.1.tag key iv state.ciphertext)))

/-- When the tag is wrong, `flushed` says how many of the deciphered bytes have reached the file,
if it has been created. -/
def decryptBackupFile (cipher : GcmCipher) (stream : ReadStream) (files : Files Path)
    (inputPath outputPath : Path) (key : Bytes) (flushed : Option Nat) :
    Except Error Unit × Files Path :=
  if key.length ≠ 32 then
    (.error (.internal "Backup decryption requires a 32-byte key"), files)
  else
    match files inputPath with
    | none => (.error (.internal "ENOENT"), files)
    | some file =>
      if file.length ≤ headerBytes + tagBytes then
        (.error (.internal "Encrypted backup is truncated"), files)
      else
        let header := file.take headerBytes
        let tag := file.drop (file.length - tagBytes)
        if header.take magic.length ≠ magic then
          (.error (.internal "Encrypted backup format is unsupported"), files)
        else if (files outputPath).isSome then (.error (.internal "EEXIST"), files)
        else
          let iv := header.drop magic.length
          let body := (file.take (file.length - tagBytes)).drop headerBytes
          let (state, written) := pipeline (decryptChunk (cipher.1.keystream key iv))
            CipherState.start (stream.chunks body)
          if cipher.1.tag key iv state.ciphertext = tag then
            (.ok (), Function.update files outputPath (some written))
          else
            (.error (.internal "Unsupported state or unable to authenticate data"),
              Function.update files outputPath (flushed.map written.take))

/-! ## The layout -/

variable {cipher : GcmCipher} {stream : ReadStream} {files : Files Path} {key iv contents : Bytes}
  {inputPath outputPath : Path}

/-- What an encrypted file holds. -/
def encryptedFile (cipher : GcmCipher) (key iv contents : Bytes) : Bytes :=
  let body := mask (cipher.1.keystream key iv) 0 contents
  magic ++ iv ++ body ++ cipher.1.tag key iv body

theorem length_tag (cipher : GcmCipher) (key iv body : Bytes) :
    (cipher.1.tag key iv body).length = tagBytes := by
  rw [cipher.1.length_tag, cipher.2]

theorem encryptBackupFile_eq (hkey : key.length = 32) (hin : files inputPath = some contents)
    (hout : files outputPath = none) :
    encryptBackupFile cipher stream files inputPath outputPath key iv =
      (.ok (), Function.update files outputPath (some (encryptedFile cipher key iv contents))) := by
  have hne : inputPath ≠ outputPath := by
    rintro rfl
    cases hin.symm.trans hout
  simp [encryptBackupFile, hkey, hin, hout, hne, encrypt_eq, stream.flatten_chunks,
    CipherState.start, encryptedFile]

/-- The parts of a file that is long enough, where they are looked for. -/
structure Layout (file iv body tag : Bytes) : Prop where
  eq : file = magic ++ iv ++ body ++ tag
  iv : iv.length = ivBytes
  tag : tag.length = tagBytes

theorem Layout.split {file body tag : Bytes} (h : Layout file iv body tag) :
    (file.take headerBytes).take magic.length = magic ∧
      (file.take headerBytes).drop magic.length = iv ∧
      (file.take (file.length - tagBytes)).drop headerBytes = body ∧
      file.drop (file.length - tagBytes) = tag ∧
      file.length = headerBytes + body.length + tagBytes := by
  have hheader : (magic ++ iv).length = headerBytes := by rw [List.length_append, h.iv, headerBytes]
  have hlength : file.length = headerBytes + body.length + tagBytes := by
    rw [h.eq, List.length_append, List.length_append, hheader, h.tag]
  have hfront : file.length - tagBytes = (magic ++ iv ++ body).length := by
    rw [List.length_append, hheader]
    omega
  have htake : file.take headerBytes = magic ++ iv := by
    rw [h.eq, List.append_assoc (magic ++ iv), ← hheader, List.take_left]
  refine ⟨?_, ?_, ?_, ?_, hlength⟩
  · rw [htake, List.take_left]
  · rw [htake, List.drop_left]
  · rw [hfront, h.eq, List.take_left, ← hheader, List.drop_left]
  · rw [hfront, h.eq, List.drop_left]

/-- A long file with the right start has these parts. -/
theorem exists_layout {file : Bytes} (hlength : headerBytes + tagBytes < file.length)
    (hmagic : (file.take headerBytes).take magic.length = magic) :
    Layout file ((file.take headerBytes).drop magic.length)
      ((file.take (file.length - tagBytes)).drop headerBytes)
      (file.drop (file.length - tagBytes)) := by
  refine ⟨?_, ?_, ?_⟩
  · have hheader : magic ++ (file.take headerBytes).drop magic.length = file.take headerBytes := by
      calc magic ++ (file.take headerBytes).drop magic.length
          = (file.take headerBytes).take magic.length ++
              (file.take headerBytes).drop magic.length := by rw [hmagic]
        _ = file.take headerBytes := List.take_append_drop _ _
    have hfront : file.take headerBytes =
        (file.take (file.length - tagBytes)).take headerBytes := by
      rw [List.take_take, Nat.min_eq_left (by omega)]
    rw [hheader, hfront, List.take_append_drop, List.take_append_drop]
  · rw [List.length_drop, List.length_take, Nat.min_eq_left (by omega), headerBytes]
    omega
  · rw [List.length_drop]
    omega

/-! ## Authenticity -/

/-- What `encryptBackupFile` writes for some contents and some nonce. -/
def IsOutput (cipher : GcmCipher) (key file : Bytes) : Prop :=
  ∃ iv contents, iv.length = ivBytes ∧ file = encryptedFile cipher key iv contents

theorem layout_encryptedFile (hiv : iv.length = ivBytes) :
    Layout (encryptedFile cipher key iv contents) iv
      (mask (cipher.1.keystream key iv) 0 contents)
      (cipher.1.tag key iv (mask (cipher.1.keystream key iv) 0 contents)) :=
  ⟨rfl, hiv, length_tag cipher key iv _⟩

/-- Only an output has the right tag: its contents are the deciphered body. -/
theorem isOutput_iff_authentic {file body tag : Bytes} (h : Layout file iv body tag) :
    IsOutput cipher key file ↔ cipher.1.tag key iv body = tag := by
  constructor
  · rintro ⟨nonce, contents, hnonce, rfl⟩
    have hlayout : Layout (encryptedFile cipher key nonce contents) nonce _ _ :=
      layout_encryptedFile hnonce
    obtain ⟨-, hiv, hbody, htag, -⟩ := h.split
    obtain ⟨-, hiv', hbody', htag', -⟩ := hlayout.split
    rw [← hiv, ← hbody, ← htag, hiv', hbody', htag']
  · intro htag
    refine ⟨iv, mask (cipher.1.keystream key iv) 0 body, h.iv, ?_⟩
    rw [encryptedFile, mask_mask, htag, ← h.eq]

variable {flushed : Option Nat}

theorem decryptBackupFile_encryptedFile (hkey : key.length = 32) (hiv : iv.length = ivBytes)
    (hcontents : contents ≠ [])
    (hin : files inputPath = some (encryptedFile cipher key iv contents))
    (hout : files outputPath = none) :
    decryptBackupFile cipher stream files inputPath outputPath key flushed =
      (.ok (), Function.update files outputPath (some contents)) := by
  have hlayout : Layout (encryptedFile cipher key iv contents) iv _ _ := layout_encryptedFile hiv
  obtain ⟨hmagic, hnonce, hbody, htag, hlength⟩ := hlayout.split
  have hpos : 0 < contents.length := List.length_pos_iff.mpr hcontents
  rw [length_mask] at hlength
  have hlong : ¬ (encryptedFile cipher key iv contents).length ≤ headerBytes + tagBytes := by omega
  simp only [decryptBackupFile, hkey, ne_eq, not_true_eq_false, if_false, hin, hlong, hmagic,
    hout, Option.isSome_none, Bool.false_eq_true, hnonce, hbody, htag, decrypt_eq,
    stream.flatten_chunks, CipherState.start, List.nil_append, if_true, mask_mask]

/-- A refused file leaves all files as they were, or its deciphered bytes in a new one. -/
theorem decryptBackupFile_refused {file : Bytes} (hkey : key.length = 32)
    (hin : files inputPath = some file) (hfile : ¬ IsOutput cipher key file) :
    ∃ error after, decryptBackupFile cipher stream files inputPath outputPath key flushed =
        (.error error, after) ∧
      (after = files ∨
        headerBytes + tagBytes < file.length ∧ files outputPath = none ∧
          ∃ iv body, Layout file iv body (file.drop (file.length - tagBytes)) ∧
            after = Function.update files outputPath
              (flushed.map (mask (cipher.1.keystream key iv) 0 body).take)) := by
  simp only [decryptBackupFile, hkey, ne_eq, not_true_eq_false, if_false, hin, decrypt_eq,
    stream.flatten_chunks, CipherState.start, List.nil_append]
  by_cases hlong : file.length ≤ headerBytes + tagBytes
  · exact ⟨_, _, if_pos hlong, .inl rfl⟩
  rw [if_neg hlong]
  by_cases hmagic : (file.take headerBytes).take magic.length = magic
  · rw [if_neg (not_not_intro hmagic)]
    have hlayout := exists_layout (by omega) hmagic
    by_cases hout : (files outputPath).isSome
    · exact ⟨_, _, if_pos hout, .inl rfl⟩
    · rw [if_neg hout, if_neg fun htag => hfile ((isOutput_iff_authentic hlayout).mpr htag)]
      exact ⟨_, _, rfl, .inr ⟨by omega, Option.not_isSome_iff_eq_none.mp hout, _, _, hlayout, rfl⟩⟩
  · exact ⟨_, _, if_pos hmagic, .inl rfl⟩

/-- Contents that are not empty come back, whatever the chunks; any file that is not an output is
refused.  Nothing but a new file at the destination is ever left, with a part of the deciphered
body. -/
theorem backup_authenticated (cipher : GcmCipher) (hkey : key.length = 32) :
    (∀ (files : Files Path) (writing reading : ReadStream) (inputPath encryptedPath restoredPath)
        (contents iv : Bytes) (flushed : Option Nat), iv.length = ivBytes → contents ≠ [] →
        files inputPath = some contents → files encryptedPath = none →
        files restoredPath = none → restoredPath ≠ encryptedPath →
        ∃ encrypted,
          encryptBackupFile cipher writing files inputPath encryptedPath key iv =
            (.ok (), encrypted) ∧
          decryptBackupFile cipher reading encrypted encryptedPath restoredPath key flushed =
            (.ok (), Function.update encrypted restoredPath (some contents))) ∧
    (∀ (files : Files Path) (reading : ReadStream) (inputPath outputPath) (file : Bytes)
        (flushed : Option Nat), files inputPath = some file → ¬ IsOutput cipher key file →
        ∃ error after, decryptBackupFile cipher reading files inputPath outputPath key flushed =
            (.error error, after) ∧
          (after = files ∨
            headerBytes + tagBytes < file.length ∧ files outputPath = none ∧
              ∃ iv body, Layout file iv body (file.drop (file.length - tagBytes)) ∧
                after = Function.update files outputPath
                  (flushed.map (mask (cipher.1.keystream key iv) 0 body).take))) := by
  constructor
  · intro files writing reading inputPath encryptedPath restoredPath contents iv flushed hiv
      hcontents hin hencrypted hrestored hne
    refine ⟨_, encryptBackupFile_eq hkey hin hencrypted, ?_⟩
    exact decryptBackupFile_encryptedFile hkey hiv hcontents (Function.update_self ..)
      (by rw [Function.update_of_ne hne, hrestored])
  · intro files reading inputPath outputPath file flushed hin hfile
    exact decryptBackupFile_refused hkey hin hfile

/-! ## A cipher to try -/

/-- A byte at a time. -/
def bytewise : ReadStream := ⟨fun bytes => bytes.map fun byte => [byte], fun bytes => by
  induction bytes with
  | nil => rfl
  | cons byte bytes ih => simp [ih]⟩

/-- The last byte of the tag sums up what it authenticates. -/
def sumCipher : GcmCipher :=
  ⟨⟨fun key _ position => key.getD (position % 32) 0 + UInt8.ofNat position,
    fun key iv ciphertext => List.replicate 15 0 ++
      [UInt8.ofNat ((key ++ iv ++ ciphertext).foldl (fun n byte => n + byte.toNat) 0)],
    tagBytes, fun _ _ _ => by simp [tagBytes]⟩, rfl⟩

def sampleKey : Bytes := List.replicate 32 7

def sampleNonce : Bytes := List.replicate 12 3

/-- File 0 holds the dump. -/
def dumped (contents : Bytes) : Files Nat := Function.update (fun _ => none) 0 (some contents)

theorem backup_authenticated_sample :
    ∃ encrypted, encryptBackupFile sumCipher bytewise (dumped [1, 2]) 0 1 sampleKey sampleNonce =
        (.ok (), encrypted) ∧
      decryptBackupFile sumCipher bytewise encrypted 1 2 sampleKey none =
        (.ok (), Function.update encrypted 2 (some [1, 2])) :=
  (@backup_authenticated Nat _ sampleKey sumCipher (by decide)).1 (dumped [1, 2])
    bytewise bytewise 0 1 2 [1, 2] sampleNonce none (by decide) (by decide) (by decide)
    (by decide) (by decide) (by decide)

/-- A byte too many. -/
def extended : Bytes := encryptedFile sumCipher sampleKey sampleNonce [1, 2] ++ [0]

theorem not_isOutput_extended : ¬ IsOutput sumCipher sampleKey extended := by
  rw [isOutput_iff_authentic (exists_layout (by decide +kernel) (by decide +kernel))]
  decide +kernel

def emptyBackup : Files Nat :=
  (encryptBackupFile sumCipher bytewise (dumped []) 0 1 sampleKey sampleNonce).2

/-- The backup of an empty dump is refused; and a refused file leaves its plaintext. -/
theorem empty_refused_and_plaintext_left :
    ((emptyBackup 1).isSome ∧
      (decryptBackupFile sumCipher bytewise emptyBackup 1 2 sampleKey none).2 2 = none) ∧
    ¬ IsOutput sumCipher sampleKey extended ∧
      (decryptBackupFile sumCipher bytewise (dumped extended) 0 2 sampleKey (some 2)).2 2 =
        some [1, 2] := by
  refine ⟨⟨by decide +kernel, by decide +kernel⟩, not_isOutput_extended, by decide +kernel⟩

end Operations
