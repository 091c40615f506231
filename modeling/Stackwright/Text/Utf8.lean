import Stackwright.Text.Digits

/-!
# UTF-8

Characters as bytes, and bytes as characters. Bytes that are no text fail at the first sequence that
encodes no character.
-/

namespace Stackwright
namespace Text

/-- Where bytes stop being UTF-8. -/
inductive Utf8Fault where
  /-- A sequence of some bytes that no character starts with. -/
  | invalid (length index : Nat)
  /-- A sequence that ends too early. -/
  | incomplete (index : Nat)
deriving DecidableEq, Repr

/-- The wording of a fault. -/
def Utf8Fault.message : Utf8Fault → String
  | .invalid length index =>
      "invalid utf-8 sequence of " ++ String.ofList (decimal length) ++ " bytes from index "
        ++ String.ofList (decimal index)
  | .incomplete index => "incomplete utf-8 byte sequence from index " ++ String.ofList (decimal index)

/-- Whether a byte continues a sequence. -/
def isContinuation (b : UInt8) : Bool :=
  0x80 ≤ b && b < 0xC0

/-- Whether `b` may follow the first byte `a` of a sequence of three. -/
def follows3 (a b : UInt8) : Bool :=
  if a = 0xE0 then 0xA0 ≤ b && b < 0xC0
  else if a = 0xED then 0x80 ≤ b && b < 0xA0
  else isContinuation b

/-- Whether `b` may follow the first byte `a` of a sequence of four. -/
def follows4 (a b : UInt8) : Bool :=
  if a = 0xF0 then 0x90 ≤ b && b < 0xC0
  else if a = 0xF4 then 0x80 ≤ b && b < 0x90
  else isContinuation b

/-- The low six bits of a continuation byte. -/
def payload (b : UInt8) : Nat :=
  b.toNat % 64

/-- Decodes bytes from an index on; `done` are the characters before, the last first. -/
def decodeUtf8From (index : Nat) (done : List Char) : List UInt8 → Except Utf8Fault (List Char)
  | [] => .ok done.reverse
  | a :: rest =>
      if a < 0x80 then decodeUtf8From (index + 1) (Char.ofNat a.toNat :: done) rest
      else if a < 0xC2 then .error (.invalid 1 index)
      else if a < 0xE0 then
        match rest with
        | [] => .error (.incomplete index)
        | b :: rest =>
            if !isContinuation b then .error (.invalid 1 index)
            else
              decodeUtf8From (index + 2) (Char.ofNat (a.toNat % 32 * 64 + payload b) :: done) rest
      else if a < 0xF0 then
        match rest with
        | [] => .error (.incomplete index)
        | b :: rest =>
            if !follows3 a b then .error (.invalid 1 index)
            else
              match rest with
              | [] => .error (.incomplete index)
              | c :: rest =>
                  if !isContinuation c then .error (.invalid 2 index)
                  else
                    let code := (a.toNat % 16 * 64 + payload b) * 64 + payload c
                    decodeUtf8From (index + 3) (Char.ofNat code :: done) rest
      else if a < 0xF5 then
        match rest with
        | [] => .error (.incomplete index)
        | b :: rest =>
            if !follows4 a b then .error (.invalid 1 index)
            else
              match rest with
              | [] => .error (.incomplete index)
              | c :: rest =>
                  if !isContinuation c then .error (.invalid 2 index)
                  else
                    match rest with
                    | [] => .error (.incomplete index)
                    | d :: rest =>
                        if !isContinuation d then .error (.invalid 3 index)
                        else
                          let code :=
                            ((a.toNat % 8 * 64 + payload b) * 64 + payload c) * 64 + payload d
                          decodeUtf8From (index + 4) (Char.ofNat code :: done) rest
      else .error (.invalid 1 index)

/-- The text that bytes encode. -/
def decodeUtf8 (bytes : List UInt8) : Except Utf8Fault (List Char) :=
  decodeUtf8From 0 [] bytes

/-- The bytes of a text. -/
def encodeUtf8 (s : List Char) : List UInt8 :=
  s.flatMap String.utf8EncodeChar

end Text
end Stackwright
