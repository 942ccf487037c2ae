/-!
# Encoded text

Bytes read as UTF-8. A byte that starts no character and a character that breaks off
are faults with a place and a width; a lossy reading puts one replacement character
for each of them. Bytes are also written with sixty-four characters, six bits each;
the last group is filled up with equals signs.
-/

namespace RepairLoop.Text

/-- Why some bytes are no character. -/
inductive ByteFault where
  | badStart
  | badContinuation
  | cutOff
  deriving DecidableEq, Inhabited

/-- What is said of bytes that are no character. -/
def ByteFault.reason : ByteFault → String
  | badStart => "invalid start byte"
  | badContinuation => "invalid continuation byte"
  | cutOff => "unexpected end of data"

/-- A character or a fault, and the number of its bytes. -/
structure Decoded where
  char : Except ByteFault Char
  width : Nat

/-- A byte that continues a character. -/
def isContinuation (b : UInt8) : Bool := 0x80 ≤ b && b < 0xc0

/-- The bits that a continuation holds. -/
def six (b : UInt8) : Nat := b.toNat % 64

/-- The second byte may follow the first in a character of three or four bytes. -/
def fitsLead (lead b : UInt8) : Bool :=
  isContinuation b &&
    !(lead == 0xe0 && b < 0xa0) && !(lead == 0xed && 0xa0 ≤ b) &&
    !(lead == 0xf0 && b < 0x90) && !(lead == 0xf4 && 0x90 ≤ b)

/-- The character that starts with a byte. -/
def decodeOne (b : UInt8) (rest : List UInt8) : Decoded :=
  if b < 0x80 then ⟨.ok (Char.ofNat b.toNat), 1⟩
  else if b < 0xc2 || 0xf5 ≤ b then ⟨.error .badStart, 1⟩
  else if b < 0xe0 then
    match rest with
    | [] => ⟨.error .cutOff, 1⟩
    | c :: _ =>
      if isContinuation c then ⟨.ok (Char.ofNat (b.toNat % 32 * 64 + six c)), 2⟩
      else ⟨.error .badContinuation, 1⟩
  else
    match rest with
    | [] => ⟨.error .cutOff, 1⟩
    | c :: rest =>
      if !fitsLead b c then ⟨.error .badContinuation, 1⟩
      else
        match rest with
        | [] => ⟨.error .cutOff, 2⟩
        | d :: rest =>
          if !isContinuation d then ⟨.error .badContinuation, 2⟩
          else if b < 0xf0 then
            ⟨.ok (Char.ofNat (b.toNat % 16 * 4096 + six c * 64 + six d)), 3⟩
          else
            match rest with
            | [] => ⟨.error .cutOff, 3⟩
            | e :: _ =>
              if isContinuation e then
                ⟨.ok (Char.ofNat (b.toNat % 8 * 262144 + six c * 4096 + six d * 64 + six e)), 4⟩
              else ⟨.error .badContinuation, 3⟩

/-- The characters and faults of some bytes, of which the first `skip` are passed
over. -/
def decodeFrom : Nat → List UInt8 → List Decoded
  | _, [] => []
  | skip + 1, _ :: rest => decodeFrom skip rest
  | 0, b :: rest =>
    let d := decodeOne b rest
    d :: decodeFrom (d.width - 1) rest

/-- The first fault: what it is, where it starts and how many bytes it takes. -/
structure DecodeFault where
  fault : ByteFault
  place : Nat
  width : Nat
  lead : UInt8
  deriving DecidableEq, Inhabited

private def twoHex (b : UInt8) : String :=
  String.ofList [Nat.digitChar (b.toNat / 16), Nat.digitChar (b.toNat % 16)]

/-- What is said of bytes that hold no text. -/
def DecodeFault.message (f : DecodeFault) : String :=
  let where_ :=
    if f.width ≤ 1 then "byte 0x" ++ twoHex f.lead ++ s!" in position {f.place}"
    else s!"bytes in position {f.place}-{f.place + f.width - 1}"
  "'utf-8' codec can't decode " ++ where_ ++ ": " ++ f.fault.reason

private def firstFault : Nat → List UInt8 → List Decoded → Option DecodeFault
  | _, _, [] => none
  | at_, bytes, d :: ds =>
    match d.char with
    | .error e => some ⟨e, at_, d.width, bytes.headD 0⟩
    | .ok _ => firstFault (at_ + d.width) (bytes.drop d.width) ds

/-- The text of some bytes. -/
def decode (bytes : ByteArray) : Except DecodeFault String :=
  match String.fromUTF8? bytes with
  | some s => .ok s
  | none =>
    let bs := bytes.toList
    .error ((firstFault 0 bs (decodeFrom 0 bs)).getD default)

/-- The text of some bytes with a replacement character for each fault. -/
def decodeLossy (bytes : ByteArray) : String :=
  String.ofList ((decodeFrom 0 bytes.toList).map fun d =>
    match d.char with
    | .ok c => c
    | .error _ => '\ufffd')

/-! ## Six bits a character -/

/-- The characters that stand for six bits. -/
def sextets : List Char :=
  "ABCDEFGHIJKLMNOPQRSTUVWXYZabcdefghijklmnopqrstuvwxyz0123456789+/".toList

/-- The bits of a number, the highest first. -/
def bitsOf : Nat → Nat → List Bool
  | 0, _ => []
  | n + 1, v => bitsOf n (v / 2) ++ [v % 2 == 1]

/-- The number of some bits. -/
def ofBits (bits : List Bool) : Nat :=
  bits.foldl (fun v b => 2 * v + b.toNat) 0

/-- Groups of bits; bits that fill no group are left out. -/
def groups (size : Nat) : Nat → List Bool → List Nat
  | 0, _ => []
  | n + 1, bits => ofBits (bits.take size) :: groups size n (bits.drop size)

/-- The bytes that a text stands for. -/
def fromBase64 (s : String) : ByteArray :=
  let bits := (s.toList.filter sextets.contains).flatMap fun c => bitsOf 6 (sextets.idxOf c)
  ⟨((groups 8 (bits.length / 8) bits).map Nat.toUInt8).toArray⟩

/-- The text that stands for some bytes. -/
def toBase64 (bytes : ByteArray) : String :=
  let bits := bytes.toList.flatMap fun b => bitsOf 8 b.toNat
  let padded := bits ++ List.replicate ((6 - bits.length % 6) % 6) false
  let cs := (groups 6 (padded.length / 6) padded).map fun i => sextets.getD i 'A'
  String.ofList (cs ++ List.replicate ((4 - cs.length % 4) % 4) '=')

end RepairLoop.Text
