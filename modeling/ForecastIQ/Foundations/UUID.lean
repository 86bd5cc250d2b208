import ForecastIQ.Foundations.FormEncoding
import Mathlib.Algebra.Group.Nat.Defs

/-!
# Identifiers of 128 bits and their texts

An identifier is a number below `2 ^ 128`, in the order of its bytes. Its text is its sixteen
bytes in lower-case hexadecimal with hyphens after the fourth, sixth, eighth and tenth. Reading
accepts this form in either case, also behind `urn:uuid:` or between two bytes of any kind, and
the digits without hyphens. The text of an identifier reads back as the identifier (`parse_text`).
-/

namespace ForecastIQ.Foundations.UUID

open FormEncoding

/-! ### Numbers as bytes -/

/-- The last bytes of a number, most significant first. -/
def toBytes : ℕ → ℕ → Bytes
  | 0, _ => []
  | width + 1, id => toBytes width (id / 256) ++ [UInt8.ofNat (id % 256)]

/-- The number of some bytes. -/
def ofBytes (bs : Bytes) : ℕ := bs.foldl (fun n b => 256 * n + b.toNat) 0

theorem length_toBytes (width id : ℕ) : (toBytes width id).length = width := by
  induction width generalizing id with
  | zero => rfl
  | succ width ih => rw [toBytes, List.length_append, ih, List.length_singleton]

theorem ofBytes_toBytes {width id : ℕ} (h : id < 256 ^ width) : ofBytes (toBytes width id) = id := by
  induction width generalizing id with
  | zero =>
    rw [Nat.pow_zero, Nat.lt_one_iff] at h
    rw [h]
    rfl
  | succ width ih =>
    have hlow : (UInt8.ofNat (id % 256)).toNat = id % 256 :=
      UInt8.toNat_ofNat_of_lt (Nat.mod_lt _ (by decide))
    have hhigh := ih (Nat.div_lt_of_lt_mul (by rwa [Nat.pow_succ, Nat.mul_comm] at h))
    rw [ofBytes] at hhigh
    rw [toBytes, ofBytes, List.foldl_append, hhigh, List.foldl_cons, List.foldl_nil, hlow, Nat.div_add_mod]

/-! ### Texts -/

/-- `-`. -/
def hyphen : UInt8 := 0x2d

/-- `String`: the bytes with hyphens. -/
def format (bs : Bytes) : Bytes :=
  hexEncode (bs.take 4) ++ hyphen :: hexEncode ((bs.drop 4).take 2) ++ hyphen :: hexEncode ((bs.drop 6).take 2) ++
    hyphen :: hexEncode ((bs.drop 8).take 2) ++ hyphen :: hexEncode (bs.drop 10)

/-- The text of an identifier. -/
def text (id : ℕ) : Bytes := format (toBytes 16 id)

/-- `xtob`: the byte of two digits. -/
def xtob (x y : UInt8) : Option UInt8 := do
  let hi ← unhex x
  let lo ← unhex y
  pure (hi * 16 + lo)

/-- The bytes whose digits are at these places. -/
def readAt (s : Bytes) : List ℕ → Option Bytes
  | [] => some []
  | i :: places => do
    let b ← xtob (s.getD i 0) (s.getD (i + 1) 0)
    let bs ← readAt s places
    pure (b :: bs)

/-- The form with hyphens. -/
def parseHyphenated (s : Bytes) : Option ℕ :=
  if s.getD 8 0 = hyphen ∧ s.getD 13 0 = hyphen ∧ s.getD 18 0 = hyphen ∧ s.getD 23 0 = hyphen then
    (readAt s [0, 2, 4, 6, 9, 11, 14, 16, 19, 21, 24, 26, 28, 30, 32, 34]).map ofBytes
  else none

/-- A letter in lower case. -/
def lower (c : UInt8) : UInt8 := if 0x41 ≤ c ∧ c ≤ 0x5a then c + 0x20 else c

/-- `Parse`: by the length of the text. -/
def parse (s : Bytes) : Option ℕ :=
  if s.length = 36 then parseHyphenated s
  else if s.length = 36 + 9 then
    if (s.take 9).map lower = ascii "urn:uuid:" then parseHyphenated (s.drop 9) else none
  else if s.length = 36 + 2 then parseHyphenated (s.drop 1)
  else if s.length = 32 then (readAt s [0, 2, 4, 6, 8, 10, 12, 14, 16, 18, 20, 22, 24, 26, 28, 30]).map ofBytes
  else none

/-! ### Reading a text back -/

theorem xtob_hexDigit (b : UInt8) : xtob (hexDigit 0x61 (b / 16)) (hexDigit 0x61 (b % 16)) = some b := by
  rw [xtob, (unhex_hexDigit_lower b).1, (unhex_hexDigit_lower b).2]
  exact congrArg some (byte_of_digits b)

theorem parse_format {bs : Bytes} (h : bs.length = 16) :
    (format bs).length = 36 ∧ parse (format bs) = some (ofBytes bs) := by
  match bs, h with
  | [b0, b1, b2, b3, b4, b5, b6, b7, b8, b9, b10, b11, b12, b13, b14, b15], _ =>
    set s := format [b0, b1, b2, b3, b4, b5, b6, b7, b8, b9, b10, b11, b12, b13, b14, b15] with hs
    have hlen : s.length = 36 := rfl
    have hhyphens : s.getD 8 0 = hyphen ∧ s.getD 13 0 = hyphen ∧ s.getD 18 0 = hyphen ∧ s.getD 23 0 = hyphen :=
      ⟨rfl, rfl, rfl, rfl⟩
    have hread : readAt s [0, 2, 4, 6, 9, 11, 14, 16, 19, 21, 24, 26, 28, 30, 32, 34] =
        some [b0, b1, b2, b3, b4, b5, b6, b7, b8, b9, b10, b11, b12, b13, b14, b15] := by
      simp only [hs, format, hexEncode, List.take, List.drop, List.flatMap_cons, List.flatMap_nil, List.cons_append,
        List.nil_append, readAt, List.getD_cons_succ, List.getD_cons_zero, xtob_hexDigit]
      rfl
    refine ⟨hlen, ?_⟩
    rw [parse, if_pos hlen, parseHyphenated, if_pos hhyphens, hread, Option.map_some]

/-- **The text of an identifier reads back as the identifier.** -/
theorem parse_text {id : ℕ} (h : id < 2 ^ 128) : parse (text id) = some id := by
  have hparse := (parse_format (length_toBytes 16 id)).2
  rwa [ofBytes_toBytes h] at hparse

/-- The text tells the identifier. -/
theorem text_inj {a b : ℕ} (ha : a < 2 ^ 128) (hb : b < 2 ^ 128) (h : text a = text b) : a = b := by
  have hparse : some a = some b := by rw [← parse_text ha, ← parse_text hb, h]
  exact Option.some.inj hparse

theorem length_text (id : ℕ) : (text id).length = 36 := (parse_format (length_toBytes 16 id)).1

theorem text_ne_nil (id : ℕ) : text id ≠ [] := by
  intro hnil
  have hlen := length_text id
  rw [hnil] at hlen
  cases hlen

/-- The four forms of one identifier. -/
example : parse (ascii "0190163D-8694-739b-aea5-966c26f8ad91") = parse (ascii "0190163d8694739baea5966c26f8ad91") ∧
    parse (ascii "URN:uuid:0190163d-8694-739b-aea5-966c26f8ad91") =
      parse (ascii "[0190163d-8694-739b-aea5-966c26f8ad91]") ∧
    (parse (ascii "0190163d-8694-739b-aea5-966c26f8ad91")).map text =
      some (ascii "0190163d-8694-739b-aea5-966c26f8ad91") := by decide +kernel

end ForecastIQ.Foundations.UUID
