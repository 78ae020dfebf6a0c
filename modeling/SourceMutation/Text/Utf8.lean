/-!
# UTF-8

Texts and their byte form.

`Utf8.encode` writes a text as bytes and `Utf8.decode` reads bytes as a text.  Bytes that encode
no text are refused with a `Utf8.Fault`: where the first bad sequence starts, how long it is, and
which of three rules it breaks.

- a byte that may not lead a sequence is bad on its own;
- a sequence is cut short where a byte does not continue it, and the bytes before that one are bad;
- at the end of the data all bytes of an unfinished sequence are bad.
-/

namespace SourceMutation

/-- A byte string. -/
abbrev Bytes := List UInt8

namespace Utf8

/-! ## Encoding -/

/-- The byte form of a text: the sequences of its characters, one after another. -/
def encode (text : String) : Bytes :=
  text.toList.flatMap String.utf8EncodeChar

/-! ## Faults -/

/-- The rule that a bad sequence breaks. -/
inductive Reason where
  /-- The byte leads no sequence. -/
  | startByte
  /-- The byte after the bad ones does not continue them. -/
  | continuationByte
  /-- The data ends inside a sequence. -/
  | endOfData
  deriving DecidableEq, Repr

/-- The first bad sequence of a byte string. -/
structure Fault where
  /-- The rule it breaks. -/
  reason : Reason
  /-- The position of its first byte. -/
  start : Nat
  /-- How many bytes it has. -/
  length : Nat
  /-- Its first byte. -/
  lead : UInt8
  deriving DecidableEq, Repr

/-- The words for a rule. -/
def Reason.text : Reason → String
  | .startByte => "invalid start byte"
  | .continuationByte => "invalid continuation byte"
  | .endOfData => "unexpected end of data"

/-- A hexadecimal digit, lower case. -/
def hexDigit (n : Nat) : Char :=
  if n < 10 then Char.ofNat (n + 48) else Char.ofNat (n + 87)

/-- A number in hexadecimal, with at least as many digits as `width` says (and at most 8). -/
def hex (width : Nat) (n : Nat) : String :=
  let digits := (List.range 8).reverse.map fun i => hexDigit (n / Nat.pow 16 i % 16)
  let kept := digits.dropWhile (· == '0')
  String.ofList (List.replicate (width - kept.length) '0' ++ kept)

/-- A fault as the program reports it: one bad byte is named, several are given by position. -/
def Fault.message (f : Fault) : String :=
  if f.length = 1 then
    s!"'utf-8' codec can't decode byte 0x{hex 2 f.lead.toNat} in position {f.start}: "
      ++ f.reason.text
  else
    s!"'utf-8' codec can't decode bytes in position {f.start}-{f.start + f.length - 1}: "
      ++ f.reason.text

/-! ## Decoding -/

/-- Whether a byte continues a sequence. -/
def isContinuation (b : UInt8) : Bool := 0x80 ≤ b && b ≤ 0xBF

/--
Whether `second` may follow `lead` in a sequence of three or four bytes.  After four of the leads
the range is narrower: it leaves out longer spellings than needed, surrogates, and numbers that
are too large.
-/
def maySecond (lead second : UInt8) : Bool :=
  isContinuation second &&
    !(lead == 0xE0 && second < 0xA0) && !(lead == 0xED && 0x9F < second) &&
    !(lead == 0xF0 && second < 0x90) && !(lead == 0xF4 && 0x8F < second)

/-- The six bits that a continuation byte carries. -/
def payload (b : UInt8) : Nat := b.toNat % 64

/-- The characters of a byte string that starts at position `pos` of the data. -/
def decodeAt (pos : Nat) : Bytes → Except Fault (List Char)
  | [] => .ok []
  | b0 :: r0 =>
    if b0 < 0x80 then
      (Char.ofNat b0.toNat :: ·) <$> decodeAt (pos + 1) r0
    else if b0 < 0xC2 then
      .error ⟨.startByte, pos, 1, b0⟩
    else if b0 < 0xE0 then
      match r0 with
      | [] => .error ⟨.endOfData, pos, 1, b0⟩
      | b1 :: r1 =>
        if isContinuation b1 then
          (Char.ofNat (b0.toNat % 32 * 64 + payload b1) :: ·) <$> decodeAt (pos + 2) r1
        else .error ⟨.continuationByte, pos, 1, b0⟩
    else if b0 < 0xF0 then
      match r0 with
      | [] => .error ⟨.endOfData, pos, 1, b0⟩
      | b1 :: r1 =>
        if maySecond b0 b1 then
          match r1 with
          | [] => .error ⟨.endOfData, pos, 2, b0⟩
          | b2 :: r2 =>
            if isContinuation b2 then
              (Char.ofNat (b0.toNat % 16 * 4096 + payload b1 * 64 + payload b2) :: ·)
                <$> decodeAt (pos + 3) r2
            else .error ⟨.continuationByte, pos, 2, b0⟩
        else .error ⟨.continuationByte, pos, 1, b0⟩
    else if b0 < 0xF5 then
      match r0 with
      | [] => .error ⟨.endOfData, pos, 1, b0⟩
      | b1 :: r1 =>
        if maySecond b0 b1 then
          match r1 with
          | [] => .error ⟨.endOfData, pos, 2, b0⟩
          | b2 :: r2 =>
            if isContinuation b2 then
              match r2 with
              | [] => .error ⟨.endOfData, pos, 3, b0⟩
              | b3 :: r3 =>
                if isContinuation b3 then
                  (Char.ofNat (b0.toNat % 8 * 262144 + payload b1 * 4096 + payload b2 * 64
                      + payload b3) :: ·)
                    <$> decodeAt (pos + 4) r3
                else .error ⟨.continuationByte, pos, 3, b0⟩
            else .error ⟨.continuationByte, pos, 2, b0⟩
        else .error ⟨.continuationByte, pos, 1, b0⟩
    else
      .error ⟨.startByte, pos, 1, b0⟩

/-- The text that a byte string encodes. -/
def decode (bytes : Bytes) : Except Fault String :=
  String.ofList <$> decodeAt 0 bytes

end Utf8

end SourceMutation
