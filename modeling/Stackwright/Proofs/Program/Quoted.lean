import Stackwright.Program.Quoted
import Stackwright.Text.Utf8

/-!
# What a string literal denotes

The reader of a program takes an interpreted literal for a string of bytes: an
escape by two digits is the one byte of that value, an escape by four digits is
the encoding of the character with that number, and every other character stands
for its own encoding.  This module defines that reading and compares it with the
text that was quoted.

The two agree on every text but those that hold an upper control character
(U+0080 to U+009F).  Such a character is written by the two digits of its number,
which the reader takes for a single byte, while its encoding has two.

Main results:

- Theorem `readBody_quoteChar`: what one written character is read as.
- Theorem `readLiteral_quote`: a literal is always read to its end, and denotes
  the quoted text exactly if no upper control character occurs in it.
-/

namespace Stackwright
namespace Program

/-! ## Reading a literal -/

/-- The bytes of the escape that starts after a backslash, and the text after it. -/
def readEscape : List Char → Option (List UInt8 × List Char)
  | '"' :: rest => some (String.utf8EncodeChar '"', rest)
  | '\\' :: rest => some (String.utf8EncodeChar '\\', rest)
  | 'n' :: rest => some (String.utf8EncodeChar '\n', rest)
  | 'r' :: rest => some (String.utf8EncodeChar '\r', rest)
  | 't' :: rest => some (String.utf8EncodeChar '\t', rest)
  | 'x' :: a :: b :: rest => (Text.readDigits 16 [a, b]).map fun n => ([n.toUInt8], rest)
  | 'u' :: a :: b :: c :: d :: rest =>
      ((Text.readDigits 16 [a, b, c, d]).filter (·.isValidChar)).map fun n =>
        (String.utf8EncodeChar (Char.ofNat n), rest)
  | _ => none

/-- An escape takes at least one character. -/
theorem length_readEscape {text tail : List Char} {bytes : List UInt8}
    (h : readEscape text = some (bytes, tail)) : tail.length < text.length := by
  unfold readEscape at h
  split at h
  case h_8 => simp at h
  all_goals
    simp only [Option.map_eq_some_iff, Option.some.injEq, Prod.mk.injEq] at h
    grind

/-- The bytes up to the mark that closes a literal, and the text after that mark.
A literal ends on the line it starts on. -/
def readBody (text : List Char) : Option (List UInt8 × List Char) :=
  match text with
  | [] => none
  | c :: rest =>
      if c = '"' then some ([], rest)
      else if c = '\n' then none
      else if c = '\\' then
        match h : readEscape rest with
        | none => none
        | some (bytes, tail) =>
            have := length_readEscape h
            (readBody tail).map fun (more, after) => (bytes ++ more, after)
      else (readBody rest).map fun (more, after) => (String.utf8EncodeChar c ++ more, after)
termination_by text.length

/-- The bytes that a text denotes if all of it is one literal. -/
def readLiteral : List Char → Option (List UInt8)
  | '"' :: rest =>
      match readBody rest with
      | some (bytes, []) => some bytes
      | _ => none
  | _ => none

theorem readBody_escape {text tail : List Char} {bytes : List UInt8}
    (h : readEscape text = some (bytes, tail)) :
    readBody ('\\' :: text) = (readBody tail).map fun (more, after) => (bytes ++ more, after) := by
  rw [readBody, if_neg (by decide), if_neg (by decide), if_pos rfl]
  split <;> simp_all

theorem readBody_char {c : Char} (hquote : c ≠ '"') (hline : c ≠ '\n') (hslash : c ≠ '\\')
    (rest : List Char) :
    readBody (c :: rest)
      = (readBody rest).map fun (more, after) => (String.utf8EncodeChar c ++ more, after) := by
  rw [readBody]
  simp [hquote, hline, hslash]

/-! ## Reading what was written -/

/-- Whether a character is one of the upper control characters. -/
def isUpperControl (c : Char) : Bool :=
  0x80 ≤ c.toNat && c.toNat < 0xA0

/-- The bytes that a written character is read as. -/
def denotedBytes (c : Char) : List UInt8 :=
  if isUpperControl c then [c.toNat.toUInt8] else String.utf8EncodeChar c

/-- The bytes of a character below 128 are its number. -/
theorem utf8EncodeChar_of_lt {c : Char} (h : c.toNat < 0x80) :
    String.utf8EncodeChar c = [c.toNat.toUInt8] := by
  have hsize : c.utf8Size = 1 := by
    rw [Char.utf8Size_eq_one_iff, UInt32.le_iff_toNat_le]
    exact Nat.le_of_lt_succ h
  rw [String.utf8EncodeChar_eq_singleton hsize]
  rfl

/-- A control character that is not an upper one lies below 128. -/
theorem denotedBytes_of_isControl {c : Char} (h : isControl c = true) :
    denotedBytes c = [c.toNat.toUInt8] := by
  unfold denotedBytes
  split
  · rfl
  · rename_i hupper
    apply utf8EncodeChar_of_lt
    simp only [isControl, isUpperControl, Bool.or_eq_true, Bool.and_eq_true,
      decide_eq_true_eq] at h hupper
    omega

/-- A character that is no control character denotes its own bytes. -/
theorem denotedBytes_of_not_isControl {c : Char} (h : isControl c = false) :
    denotedBytes c = String.utf8EncodeChar c := by
  have hupper : isUpperControl c = false := by
    simp only [isControl, isUpperControl, Bool.or_eq_false_iff, Bool.and_eq_false_iff,
      decide_eq_false_iff_not] at h ⊢
    omega
  simp [denotedBytes, hupper]

/-- The two digits of a number below 256 are read as that number. -/
theorem readDigits_hexDigit {n : Nat} (h : n < 256) :
    Text.readDigits 16 [hexDigit (n / 16), hexDigit (n % 16)] = some n := by
  have hdigit : ∀ d < 16, Text.digitValue (hexDigit d) = some d := by decide
  have hpush : ∀ value, ∀ d < 16,
      Text.pushDigit 16 value (hexDigit d) = some (value * 16 + d) := by
    intro value d hd
    simp [Text.pushDigit, hdigit d hd, hd]
  have hhigh : n / 16 < 16 := by omega
  have hlow : n % 16 < 16 := Nat.mod_lt n (by decide)
  have hsum : n / 16 * 16 + n % 16 = n := Nat.div_add_mod' n 16
  simp [Text.readDigits, hpush _ _ hhigh, hpush _ _ hlow, hsum]

/-- A written character is read as the bytes it denotes. -/
theorem readBody_quoteChar (c : Char) (rest : List Char) :
    readBody (quoteChar c ++ rest)
      = (readBody rest).map fun (more, after) => (denotedBytes c ++ more, after) := by
  by_cases hshort : c ∈ ['"', '\\', '\n', '\r', '\t']
  · simp only [List.mem_cons, List.not_mem_nil, or_false] at hshort
    rcases hshort with rfl | rfl | rfl | rfl | rfl <;> exact readBody_escape rfl
  · simp only [List.mem_cons, List.not_mem_nil, or_false, not_or] at hshort
    obtain ⟨hquote, hslash, hline, hreturn, htab⟩ := hshort
    simp only [quoteChar, hquote, hslash, hline, hreturn, htab, if_false]
    split
    case isTrue hcontrol =>
      have hcode : c.toNat < 256 := by
        simp only [isControl, Bool.or_eq_true, Bool.and_eq_true, decide_eq_true_eq] at hcontrol
        omega
      rw [denotedBytes_of_isControl hcontrol]
      refine readBody_escape ?_
      simp [readEscape, readDigits_hexDigit hcode]
    case isFalse hcontrol =>
      rw [denotedBytes_of_not_isControl (Bool.eq_false_iff.2 hcontrol)]
      exact readBody_char hquote hline hslash rest

/-- The written characters of a text are read as the bytes they denote. -/
theorem readBody_flatMap_quoteChar (text rest : List Char) :
    readBody (text.flatMap quoteChar ++ '"' :: rest) = some (text.flatMap denotedBytes, rest) := by
  induction text with
  | nil =>
      simp only [List.flatMap_nil, List.nil_append]
      rw [readBody]
      simp
  | cons c more ih =>
      rw [List.flatMap_cons, List.append_assoc, readBody_quoteChar, ih]
      simp

/-- A literal is read to its end, as the bytes that its characters denote. -/
theorem readLiteral_quote_eq (text : List Char) :
    readLiteral (quote text) = some (text.flatMap denotedBytes) := by
  simp [quote, readLiteral, readBody_flatMap_quoteChar]

/-! ## Agreement with the quoted text -/

theorem length_denotedBytes_le (c : Char) :
    (denotedBytes c).length ≤ (String.utf8EncodeChar c).length := by
  unfold denotedBytes
  split
  · rw [String.length_utf8EncodeChar]
    exact c.utf8Size_pos
  · exact Nat.le_refl _

/-- An upper control character has two bytes and denotes one. -/
theorem length_denotedBytes_lt {c : Char} (h : isUpperControl c = true) :
    (denotedBytes c).length < (String.utf8EncodeChar c).length := by
  have hsize : c.utf8Size ≠ 1 := by
    rw [ne_eq, Char.utf8Size_eq_one_iff, UInt32.le_iff_toNat_le]
    simp only [isUpperControl, Bool.and_eq_true, decide_eq_true_eq] at h
    have hcode : c.toNat = c.val.toNat := rfl
    have hlimit : UInt32.toNat 127 = 127 := rfl
    omega
  have hpos := c.utf8Size_pos
  simp only [denotedBytes, h, if_true, List.length_singleton, String.length_utf8EncodeChar]
  omega

theorem length_flatMap_denotedBytes_le (text : List Char) :
    (text.flatMap denotedBytes).length ≤ (Text.encodeUtf8 text).length := by
  induction text with
  | nil => exact Nat.le_refl _
  | cons c rest ih =>
      simp only [Text.encodeUtf8, List.flatMap_cons, List.length_append] at ih ⊢
      exact Nat.add_le_add (length_denotedBytes_le c) ih

/-- The denoted bytes are those of the text exactly if no upper control character
occurs in it. -/
theorem flatMap_denotedBytes_eq_iff (text : List Char) :
    text.flatMap denotedBytes = Text.encodeUtf8 text ↔ ∀ c ∈ text, isUpperControl c = false := by
  constructor
  · intro heq c hc
    -- One such character would make the denoted bytes fewer, as no other makes them more.
    refine Bool.eq_false_iff.2 fun hupper => ?_
    obtain ⟨before, after, rfl⟩ := List.append_of_mem hc
    have hlength := congrArg List.length heq
    have hbefore := length_flatMap_denotedBytes_le before
    have hafter := length_flatMap_denotedBytes_le after
    have hlt := length_denotedBytes_lt hupper
    simp only [Text.encodeUtf8, List.flatMap_append, List.flatMap_cons, List.length_append]
      at hlength hbefore hafter
    omega
  · intro h
    have hbytes : ∀ c ∈ text, denotedBytes c = String.utf8EncodeChar c := by
      intro c hc
      simp [denotedBytes, h c hc]
    rw [Text.encodeUtf8, List.flatMap_def, List.flatMap_def, List.map_congr_left hbytes]

/-- The bytes of a string are those of its characters, one after the other. -/
theorem toUTF8_data_toList (text : String) :
    text.toUTF8.data.toList = Text.encodeUtf8 text.toList := by
  have hbytes : text.toByteArray = (Text.encodeUtf8 text.toList).toByteArray :=
    text.utf8Encode_toList.symm
  rw [String.toUTF8_eq_toByteArray, hbytes, List.data_toByteArray]

/-- A literal is read to its end, whatever it contains.  It denotes the bytes of the
quoted text exactly if no upper control character occurs there; each of those
denotes the single byte of its number. -/
theorem readLiteral_quote (text : String) :
    readLiteral (quote text.toList) = some (text.toList.flatMap denotedBytes) ∧
      (readLiteral (quote text.toList) = some text.toUTF8.data.toList ↔
        ∀ c ∈ text.toList, isUpperControl c = false) := by
  refine ⟨readLiteral_quote_eq text.toList, ?_⟩
  rw [readLiteral_quote_eq, Option.some.injEq, toUTF8_data_toList]
  exact flatMap_denotedBytes_eq_iff text.toList

/-- The literal of the text that consists of U+0085 denotes one byte, where the text
has two. -/
theorem readLiteral_quote_nextLine :
    readLiteral (quote "\u0085".toList) = some [0x85] ∧
      "\u0085".toUTF8.data.toList = [0xC2, 0x85] := by
  rw [readLiteral_quote_eq, toUTF8_data_toList]
  decide

end Program
end Stackwright
