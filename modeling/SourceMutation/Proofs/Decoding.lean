import SourceMutation.Text.Utf8

/-!
# Decoding undoes encoding

`Utf8.decode` accepts exactly the byte strings that `Utf8.encode` writes, and gives back the text
that was written (`decode_eq_ok_iff`).  In particular a text has one byte form
(`encode_injective`).

Both directions go sequence by sequence, with one lemma for each length of a sequence.

- From bytes to bytes: a code point that was read from a sequence of bytes is written as that
  sequence (`utf8EncodeChar_one` to `utf8EncodeChar_four`).  The conditions are those under which
  `decodeAt` reads the sequence, so they also rule out longer forms of the same code point.
- From characters to characters: the sequence that a character is written as is read as that
  character (`decodeAt_one` to `decodeAt_four`, put together in `decodeAt_char`).
-/

namespace SourceMutation.Utf8

/-! ## The sequence of a code point -/

/-- A number that is a code point is the number of its character. -/
theorem toNat_val_ofNat {n : Nat} (h : n.isValidChar) : (Char.ofNat n).val.toNat = n := by
  rw [Char.ofNat, dif_pos h]
  rfl

/-- The sequence of a code point, by the size of its number. -/
theorem utf8EncodeChar_ofNat {n : Nat} (h : n.isValidChar) :
    String.utf8EncodeChar (Char.ofNat n) =
      if n ≤ 0x7f then [UInt8.ofNat n]
      else if n ≤ 0x7ff then [UInt8.ofNat (n / 64 % 32 + 0xc0), UInt8.ofNat (n % 64 + 0x80)]
      else if n ≤ 0xffff then
        [UInt8.ofNat (n / 4096 % 16 + 0xe0), UInt8.ofNat (n / 64 % 64 + 0x80),
          UInt8.ofNat (n % 64 + 0x80)]
      else
        [UInt8.ofNat (n / 262144 % 8 + 0xf0), UInt8.ofNat (n / 4096 % 64 + 0x80),
          UInt8.ofNat (n / 64 % 64 + 0x80), UInt8.ofNat (n % 64 + 0x80)] := by
  simp only [String.utf8EncodeChar, toNat_val_ofNat h]

/-- A byte is known by its number. -/
theorem ofNat_eq_of_toNat {b : UInt8} {n : Nat} (h : n = b.toNat) : UInt8.ofNat n = b := by
  subst h
  exact UInt8.ofNat_toNat

theorem toNat_ofNat {n : Nat} (h : n < 256) : (UInt8.ofNat n).toNat = n :=
  UInt8.toNat_ofNat_of_lt' h

/-- Continuation bytes are those from `80` to `BF`. -/
theorem isContinuation_iff {b : UInt8} :
    isContinuation b = true ↔ 0x80 ≤ b.toNat ∧ b.toNat ≤ 0xBF := by
  simp [isContinuation, UInt8.le_iff_toNat_le]

/-- The second byte of a sequence: it continues, and after four leads its range is narrower. -/
theorem maySecond_iff {lead second : UInt8} :
    maySecond lead second = true ↔
      (0x80 ≤ second.toNat ∧ second.toNat ≤ 0xBF) ∧
        (lead.toNat = 0xE0 → 0xA0 ≤ second.toNat) ∧ (lead.toNat = 0xED → second.toNat ≤ 0x9F) ∧
        (lead.toNat = 0xF0 → 0x90 ≤ second.toNat) ∧ (lead.toNat = 0xF4 → second.toNat ≤ 0x8F) := by
  simp only [maySecond, Bool.and_eq_true, isContinuation_iff, Bool.not_eq_true',
    Bool.and_eq_false_imp, beq_iff_eq, decide_eq_false_iff_not, UInt8.lt_iff_toNat_lt,
    ← UInt8.toNat_inj, UInt8.reduceToNat, Nat.not_lt, and_assoc]

/-! ## Writing what was read

The cases are those of the first byte, which tells how long a sequence is.
-/

/-- A byte below `80` stands for itself. -/
theorem utf8EncodeChar_one {b0 : UInt8} (h0 : b0.toNat < 0x80) :
    String.utf8EncodeChar (Char.ofNat b0.toNat) = [b0] := by
  rw [utf8EncodeChar_ofNat (by left; omega), if_pos (by omega), UInt8.ofNat_toNat]

/-- Two bytes are read as a code point that is written with them: a lead below `C2` would make it
one that is written with a single byte. -/
theorem utf8EncodeChar_two {b0 b1 : UInt8} (h0 : 0xC2 ≤ b0.toNat) (h0' : b0.toNat < 0xE0)
    (h1 : isContinuation b1 = true) :
    String.utf8EncodeChar (Char.ofNat (b0.toNat % 32 * 64 + payload b1)) = [b0, b1] := by
  obtain ⟨h1, h1'⟩ := isContinuation_iff.mp h1
  simp only [payload]
  rw [utf8EncodeChar_ofNat (by left; omega), if_neg (by omega), if_pos (by omega)]
  rw [ofNat_eq_of_toNat (b := b0) (by omega), ofNat_eq_of_toNat (b := b1) (by omega)]

/-- Three bytes are read as a code point that is written with them: the second byte tells those
apart that are written with fewer bytes, and surrogates. -/
theorem utf8EncodeChar_three {b0 b1 b2 : UInt8} (h0 : 0xE0 ≤ b0.toNat) (h0' : b0.toNat < 0xF0)
    (h1 : maySecond b0 b1 = true) (h2 : isContinuation b2 = true) :
    String.utf8EncodeChar
      (Char.ofNat (b0.toNat % 16 * 4096 + payload b1 * 64 + payload b2)) = [b0, b1, b2] := by
  obtain ⟨⟨h1, h1'⟩, hE0, hED, -⟩ := maySecond_iff.mp h1
  obtain ⟨h2, h2'⟩ := isContinuation_iff.mp h2
  simp only [payload]
  -- The second byte's narrower ranges keep the number above two bytes and off the surrogates.
  rw [utf8EncodeChar_ofNat (by simp only [Nat.isValidChar]; omega), if_neg (by omega),
    if_neg (by omega), if_pos (by omega)]
  rw [ofNat_eq_of_toNat (b := b0) (by omega), ofNat_eq_of_toNat (b := b1) (by omega),
    ofNat_eq_of_toNat (b := b2) (by omega)]

/-- Four bytes are read as a code point that is written with them. -/
theorem utf8EncodeChar_four {b0 b1 b2 b3 : UInt8} (h0 : 0xF0 ≤ b0.toNat) (h0' : b0.toNat < 0xF5)
    (h1 : maySecond b0 b1 = true) (h2 : isContinuation b2 = true)
    (h3 : isContinuation b3 = true) :
    String.utf8EncodeChar
      (Char.ofNat (b0.toNat % 8 * 262144 + payload b1 * 4096 + payload b2 * 64 + payload b3))
        = [b0, b1, b2, b3] := by
  obtain ⟨⟨h1, h1'⟩, -, -, hF0, hF4⟩ := maySecond_iff.mp h1
  obtain ⟨h2, h2'⟩ := isContinuation_iff.mp h2
  obtain ⟨h3, h3'⟩ := isContinuation_iff.mp h3
  simp only [payload]
  -- Here they keep it above three bytes and below the end of all numbers.
  rw [utf8EncodeChar_ofNat (by simp only [Nat.isValidChar]; omega), if_neg (by omega),
    if_neg (by omega), if_neg (by omega)]
  rw [ofNat_eq_of_toNat (b := b0) (by omega), ofNat_eq_of_toNat (b := b1) (by omega),
    ofNat_eq_of_toNat (b := b2) (by omega), ofNat_eq_of_toNat (b := b3) (by omega)]

/-- A reading that puts a character in front has read the others. -/
theorem cons_map_eq_ok {ε : Type} {c : Char} {read : Except ε (List Char)} {cs : List Char}
    (h : (c :: ·) <$> read = .ok cs) : ∃ rest, read = .ok rest ∧ cs = c :: rest := by
  cases read with
  | error e => cases h
  | ok rest =>
    cases h
    exact ⟨rest, rfl, rfl⟩

/-- Bytes that are read as characters are the bytes of these characters. -/
theorem flatMap_of_decodeAt {pos : Nat} {bytes : Bytes} {cs : List Char}
    (h : decodeAt pos bytes = .ok cs) : cs.flatMap String.utf8EncodeChar = bytes := by
  -- Only the cases that read a whole sequence come to characters; the others are faults.
  fun_induction decodeAt pos bytes generalizing cs with
  | case1 =>
    cases h
    rfl
  | case2 pos b0 r0 h0 ih =>
    obtain ⟨rest, hrest, rfl⟩ := cons_map_eq_ok h
    rw [List.flatMap_cons, ih hrest, utf8EncodeChar_one (UInt8.lt_iff_toNat_lt.mp h0)]
    rfl
  | case5 pos b0 h0 h0' h0'' b1 r1 h1 ih =>
    obtain ⟨rest, hrest, rfl⟩ := cons_map_eq_ok h
    simp only [UInt8.lt_iff_toNat_lt, UInt8.reduceToNat] at h0' h0''
    rw [List.flatMap_cons, ih hrest, utf8EncodeChar_two (by omega) (by omega) h1]
    rfl
  | case9 pos b0 _ _ h0 h0' b1 h1 b2 r2 h2 ih =>
    obtain ⟨rest, hrest, rfl⟩ := cons_map_eq_ok h
    simp only [UInt8.lt_iff_toNat_lt, UInt8.reduceToNat] at h0 h0'
    rw [List.flatMap_cons, ih hrest, utf8EncodeChar_three (by omega) (by omega) h1 h2]
    rfl
  | case15 pos b0 _ _ _ h0 h0' b1 h1 b2 h2 b3 r3 h3 ih =>
    obtain ⟨rest, hrest, rfl⟩ := cons_map_eq_ok h
    simp only [UInt8.lt_iff_toNat_lt, UInt8.reduceToNat] at h0 h0'
    rw [List.flatMap_cons, ih hrest, utf8EncodeChar_four (by omega) (by omega) h1 h2 h3]
    rfl
  | _ => cases h

/-! ## Reading what was written -/

/-- A single byte is read as its character. -/
theorem decodeAt_one {pos : Nat} {b0 : UInt8} {rest : Bytes} (h0 : b0.toNat < 0x80) :
    decodeAt pos (b0 :: rest) = (Char.ofNat b0.toNat :: ·) <$> decodeAt (pos + 1) rest := by
  rw [decodeAt.eq_def]
  simp only [UInt8.lt_iff_toNat_lt, UInt8.reduceToNat]
  rw [if_pos h0]

/-- A sequence of two bytes is read as one character. -/
theorem decodeAt_two {pos : Nat} {b0 b1 : UInt8} {rest : Bytes} (h0 : 0xC2 ≤ b0.toNat)
    (h0' : b0.toNat < 0xE0) (h1 : isContinuation b1 = true) :
    decodeAt pos (b0 :: b1 :: rest)
      = (Char.ofNat (b0.toNat % 32 * 64 + payload b1) :: ·) <$> decodeAt (pos + 2) rest := by
  rw [decodeAt.eq_def]
  simp only [UInt8.lt_iff_toNat_lt, UInt8.reduceToNat]
  rw [if_neg (by omega), if_neg (by omega), if_pos (by omega), if_pos h1]

/-- A sequence of three bytes is read as one character. -/
theorem decodeAt_three {pos : Nat} {b0 b1 b2 : UInt8} {rest : Bytes} (h0 : 0xE0 ≤ b0.toNat)
    (h0' : b0.toNat < 0xF0) (h1 : maySecond b0 b1 = true) (h2 : isContinuation b2 = true) :
    decodeAt pos (b0 :: b1 :: b2 :: rest)
      = (Char.ofNat (b0.toNat % 16 * 4096 + payload b1 * 64 + payload b2) :: ·)
          <$> decodeAt (pos + 3) rest := by
  rw [decodeAt.eq_def]
  simp only [UInt8.lt_iff_toNat_lt, UInt8.reduceToNat]
  rw [if_neg (by omega), if_neg (by omega), if_neg (by omega), if_pos (by omega), if_pos h1,
    if_pos h2]

/-- A sequence of four bytes is read as one character. -/
theorem decodeAt_four {pos : Nat} {b0 b1 b2 b3 : UInt8} {rest : Bytes} (h0 : 0xF0 ≤ b0.toNat)
    (h0' : b0.toNat < 0xF5) (h1 : maySecond b0 b1 = true) (h2 : isContinuation b2 = true)
    (h3 : isContinuation b3 = true) :
    decodeAt pos (b0 :: b1 :: b2 :: b3 :: rest)
      = (Char.ofNat (b0.toNat % 8 * 262144 + payload b1 * 4096 + payload b2 * 64 + payload b3) :: ·)
          <$> decodeAt (pos + 4) rest := by
  rw [decodeAt.eq_def]
  simp only [UInt8.lt_iff_toNat_lt, UInt8.reduceToNat]
  rw [if_neg (by omega), if_neg (by omega), if_neg (by omega), if_neg (by omega),
    if_pos (by omega), if_pos h1, if_pos h2, if_pos h3]

/-- The lower six bits of a number make a continuation byte. -/
theorem isContinuation_ofNat (n : Nat) : isContinuation (UInt8.ofNat (n % 64 + 0x80)) = true := by
  rw [isContinuation_iff, toNat_ofNat (by omega)]
  omega

/-- That byte carries these six bits. -/
theorem payload_ofNat (n : Nat) : payload (UInt8.ofNat (n % 64 + 0x80)) = n % 64 := by
  rw [payload, toNat_ofNat (by omega)]
  omega

/-- A character's sequence is read as that character, and reading goes on behind it. -/
theorem decodeAt_char (pos : Nat) (c : Char) (rest : Bytes) :
    decodeAt pos (String.utf8EncodeChar c ++ rest)
      = (c :: ·) <$> decodeAt (pos + (String.utf8EncodeChar c).length) rest := by
  obtain ⟨n, hvalid, rfl⟩ : ∃ n : Nat, n.isValidChar ∧ Char.ofNat n = c :=
    ⟨c.toNat, c.valid, Char.ofNat_toNat c⟩
  simp only [Nat.isValidChar] at hvalid
  -- One case for each length of the sequence, by the size of the number.
  rw [utf8EncodeChar_ofNat (by simpa only [Nat.isValidChar] using hvalid)]
  split
  case isTrue h1 =>
    have h0 : (UInt8.ofNat n).toNat = n := toNat_ofNat (by omega)
    simp only [List.cons_append, List.nil_append, List.length_cons, List.length_nil]
    rw [decodeAt_one (by omega), h0]
  case isFalse h1 =>
    split
    case isTrue h2 =>
      -- The lead carries the upper five bits, and what the sequence carries adds up to the number.
      have h0 : (UInt8.ofNat (n / 64 % 32 + 0xc0)).toNat = n / 64 % 32 + 0xc0 :=
        toNat_ofNat (by omega)
      simp only [List.cons_append, List.nil_append, List.length_cons, List.length_nil]
      rw [decodeAt_two (by omega) (by omega) (isContinuation_ofNat n), h0, payload_ofNat]
      rw [show (n / 64 % 32 + 0xc0) % 32 * 64 + n % 64 = n by omega]
    case isFalse h2 =>
      split
      case isTrue h3 =>
        -- The lead carries four bits here. The second byte is in range since the number is no
        -- surrogate.
        have h0 : (UInt8.ofNat (n / 4096 % 16 + 0xe0)).toNat = n / 4096 % 16 + 0xe0 :=
          toNat_ofNat (by omega)
        have h1 : (UInt8.ofNat (n / 64 % 64 + 0x80)).toNat = n / 64 % 64 + 0x80 :=
          toNat_ofNat (by omega)
        simp only [List.cons_append, List.nil_append, List.length_cons, List.length_nil]
        rw [decodeAt_three (by omega) (by omega) (by rw [maySecond_iff]; omega)
          (isContinuation_ofNat n), h0, payload_ofNat, payload_ofNat]
        rw [show (n / 4096 % 16 + 0xe0) % 16 * 4096 + n / 64 % 64 * 64 + n % 64 = n by omega]
      case isFalse h3 =>
        -- The lead carries three bits here. The second byte is in range since the number is below
        -- `110000`.
        have h0 : (UInt8.ofNat (n / 262144 % 8 + 0xf0)).toNat = n / 262144 % 8 + 0xf0 :=
          toNat_ofNat (by omega)
        have h1 : (UInt8.ofNat (n / 4096 % 64 + 0x80)).toNat = n / 4096 % 64 + 0x80 :=
          toNat_ofNat (by omega)
        simp only [List.cons_append, List.nil_append, List.length_cons, List.length_nil]
        rw [decodeAt_four (by omega) (by omega) (by rw [maySecond_iff]; omega)
          (isContinuation_ofNat (n / 64)) (isContinuation_ofNat n), h0, payload_ofNat,
          payload_ofNat, payload_ofNat]
        rw [show (n / 262144 % 8 + 0xf0) % 8 * 262144 + n / 4096 % 64 * 4096 + n / 64 % 64 * 64
          + n % 64 = n by omega]

/-- The bytes of characters are read as these characters. -/
theorem decodeAt_flatMap (pos : Nat) (cs : List Char) :
    decodeAt pos (cs.flatMap String.utf8EncodeChar) = .ok cs := by
  induction cs generalizing pos with
  | nil => rfl
  | cons c cs ih =>
    rw [List.flatMap_cons, decodeAt_char, ih]
    rfl

/-! ## Texts -/

/-- A byte string is read as a text exactly if the text is written as these bytes. -/
theorem decode_eq_ok_iff {bytes : Bytes} {text : String} :
    decode bytes = .ok text ↔ encode text = bytes := by
  constructor
  · intro h
    rw [decode] at h
    cases hcs : decodeAt 0 bytes with
    | error fault =>
      rw [hcs] at h
      cases h
    | ok cs =>
      rw [hcs] at h
      cases h
      simpa [encode] using flatMap_of_decodeAt hcs
  · rintro rfl
    rw [decode, encode, decodeAt_flatMap]
    exact congrArg Except.ok String.ofList_toList

/-- Decoding gives back every text that was encoded. -/
@[simp] theorem decode_encode (text : String) : decode (encode text) = .ok text :=
  decode_eq_ok_iff.mpr rfl

/-- A text that was decoded is encoded as the bytes it came from. -/
theorem encode_of_decode {bytes : Bytes} {text : String} (h : decode bytes = .ok text) :
    encode text = bytes := decode_eq_ok_iff.mp h

/-- Different texts have different byte forms. -/
theorem encode_injective {a b : String} (h : encode a = encode b) : a = b := by
  have hb : decode (encode b) = .ok a := decode_eq_ok_iff.mpr h
  simpa using hb.symm

end SourceMutation.Utf8
