/-! UTF-8 over code points, read a step at a time: a well-formed sequence or a fault. Lenient reading
keeps a rejected byte as `0xDC00 + byte`; strict reading reports the first fault. -/

namespace ArtifactNames.Text

/-- Why the decoder rejects bytes. -/
inductive DecodeFault where
  | invalidStart
  | invalidContinuation
  | unexpectedEnd
  deriving DecidableEq, Repr

def DecodeFault.describe : DecodeFault → String
  | .invalidStart => "invalid start byte"
  | .invalidContinuation => "invalid continuation byte"
  | .unexpectedEnd => "unexpected end of data"

/-- One step of reading: a scalar value of `width` bytes, or a fault over `width` bytes. -/
inductive DecodeStep where
  | scalar (value : Nat) (width : Nat)
  | fault (reason : DecodeFault) (width : Nat)
  deriving DecidableEq, Repr

def DecodeStep.width : DecodeStep → Nat
  | .scalar _ w => w
  | .fault _ w => w

def isContinuation (b : UInt8) : Bool := 0x80 ≤ b && b ≤ 0xBF

/-- The low six bits of a continuation byte. -/
def payloadBits (b : UInt8) : Nat := b.toNat % 64

/-- The second byte of a three-byte sequence: `E0` needs at least `A0` (no overlong form), `ED` at
most `9F` (no surrogate). -/
def secondOfThree (lead b : UInt8) : Bool :=
  isContinuation b && (if lead == 0xE0 then 0xA0 ≤ b else if lead == 0xED then b < 0xA0 else true)

/-- The second byte of a four-byte sequence: `F0` needs at least `90` (no overlong form), `F4` at
most `8F` (nothing above `10FFFF`). -/
def secondOfFour (lead b : UInt8) : Bool :=
  isContinuation b && (if lead == 0xF0 then 0x90 ≤ b else if lead == 0xF4 then b < 0x90 else true)

/-- Reads the sequence that starts with `lead`, followed by `rest`. -/
def decodeStep (lead : UInt8) (rest : List UInt8) : DecodeStep :=
  if lead < 0x80 then .scalar lead.toNat 1
  else if lead < 0xC2 then .fault .invalidStart 1
  else if lead < 0xE0 then
    match rest with
    | [] => .fault .unexpectedEnd 1
    | b1 :: _ =>
      if isContinuation b1 then .scalar ((lead.toNat % 32) * 64 + payloadBits b1) 2
      else .fault .invalidContinuation 1
  else if lead < 0xF0 then
    match rest with
    | [] => .fault .unexpectedEnd 1
    | [b1] => if secondOfThree lead b1 then .fault .unexpectedEnd 2 else .fault .invalidContinuation 1
    | b1 :: b2 :: _ =>
      if !secondOfThree lead b1 then .fault .invalidContinuation 1
      else if !isContinuation b2 then .fault .invalidContinuation 2
      else .scalar ((lead.toNat % 16) * 4096 + payloadBits b1 * 64 + payloadBits b2) 3
  else if lead < 0xF5 then
    match rest with
    | [] => .fault .unexpectedEnd 1
    | [b1] => if secondOfFour lead b1 then .fault .unexpectedEnd 2 else .fault .invalidContinuation 1
    | [b1, b2] =>
      if !secondOfFour lead b1 then .fault .invalidContinuation 1
      else if !isContinuation b2 then .fault .invalidContinuation 2
      else .fault .unexpectedEnd 3
    | b1 :: b2 :: b3 :: _ =>
      if !secondOfFour lead b1 then .fault .invalidContinuation 1
      else if !isContinuation b2 then .fault .invalidContinuation 2
      else if !isContinuation b3 then .fault .invalidContinuation 3
      else .scalar ((lead.toNat % 8) * 262144 + payloadBits b1 * 4096 + payloadBits b2 * 64
        + payloadBits b3) 4
  else .fault .invalidStart 1

theorem decodeStep_width_pos (lead : UInt8) (rest : List UInt8) :
    0 < (decodeStep lead rest).width := by
  unfold decodeStep
  repeat' split
  all_goals simp [DecodeStep.width]

/-- The code point that stands for a byte the decoder rejected. -/
def escapeByte (b : UInt8) : Nat := 0xDC00 + b.toNat

/-- Lenient reading: rejected bytes become escape code points, one per byte. -/
def decodeEscaped (bytes : List UInt8) : List Nat :=
  match bytes with
  | [] => []
  | lead :: rest =>
    let step := decodeStep lead rest
    have := decodeStep_width_pos lead rest
    let here := match step with
      | .scalar v _ => [v]
      | .fault _ w => ((lead :: rest).take w).map escapeByte
    here ++ decodeEscaped ((lead :: rest).drop step.width)
termination_by bytes.length
decreasing_by simp only [List.length_drop, List.length_cons]; omega

/-- The first fault of a byte string: where it starts, how many bytes it covers and why. -/
structure DecodeError where
  start : Nat
  width : Nat
  reason : DecodeFault
  firstByte : UInt8
  deriving DecidableEq, Repr

/-- The first fault in `bytes`, with positions counted from `offset`. -/
def firstFaultFrom (offset : Nat) (bytes : List UInt8) : Option DecodeError :=
  match bytes with
  | [] => none
  | lead :: rest =>
    let step := decodeStep lead rest
    have := decodeStep_width_pos lead rest
    match step with
    | .fault reason w => some ⟨offset, w, reason, lead⟩
    | .scalar _ _ => firstFaultFrom (offset + step.width) ((lead :: rest).drop step.width)
termination_by bytes.length
decreasing_by simp only [List.length_drop, List.length_cons]; omega

def firstFault (bytes : List UInt8) : Option DecodeError := firstFaultFrom 0 bytes

/-- Strict reading: the code points, or the first fault. -/
def decodeStrict (bytes : List UInt8) : Except DecodeError (List Nat) :=
  match firstFault bytes with
  | some e => .error e
  | none => .ok (decodeEscaped bytes)

def isSurrogate (c : Nat) : Bool := 0xD800 ≤ c && c ≤ 0xDFFF

/-- Length of the run of surrogates at the front of `cs`. -/
def surrogateRunLength (cs : List Nat) : Nat := (cs.takeWhile isSurrogate).length

/-- Where text stops being encodable: the index of the first surrogate and the length of the run
of surrogates that starts there. -/
def firstSurrogateRun (cs : List Nat) : Option (Nat × Nat) :=
  match cs.findIdx? isSurrogate with
  | some i => some (i, surrogateRunLength (cs.drop i))
  | none => none

/-- UTF-8 bytes of one code point; an escape code point `DC80`–`DCFF` gives back its byte. -/
def encodeChar (c : Nat) : List UInt8 :=
  if 0xDC80 ≤ c && c ≤ 0xDCFF then [(c - 0xDC00).toUInt8]
  else if c < 0x80 then [c.toUInt8]
  else if c < 0x800 then [(0xC0 + c / 64).toUInt8, (0x80 + c % 64).toUInt8]
  else if c < 0x10000 then
    [(0xE0 + c / 4096).toUInt8, (0x80 + c / 64 % 64).toUInt8, (0x80 + c % 64).toUInt8]
  else
    [(0xF0 + c / 262144).toUInt8, (0x80 + c / 4096 % 64).toUInt8, (0x80 + c / 64 % 64).toUInt8,
      (0x80 + c % 64).toUInt8]

def encode (cs : List Nat) : List UInt8 := cs.flatMap encodeChar

/-- Text of code points that are all scalar values. -/
def toText (cs : List Nat) : String := String.ofList (cs.map Char.ofNat)

def ofText (s : String) : List Nat := s.toList.map Char.toNat

end ArtifactNames.Text
