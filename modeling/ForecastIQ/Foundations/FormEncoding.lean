import ForecastIQ.Foundations.Grouping
import Mathlib.Data.List.Sort
import Mathlib.Data.List.Perm.Basic

/-!
# Form-encoded queries

Byte strings, their hexadecimal and percent encodings, and the reading of a query string
`name=value&name=value…` into a multimap from names to values. A field of the query is
cut at its first `=`, and both halves are unescaped; a field that holds a `;`, or whose
escapes are malformed, is dropped.

Every list of pairs is the reading of some query string (`queryPairs_encodeQuery`), and its
fields need no control bytes (`Printable.encodePair`), so nothing can be assumed of the names
and values a query carries. The multimap keeps the pairs read (`values_ofPairs`).
-/

namespace ForecastIQ.Foundations

/-- A string of bytes. -/
abbrev Bytes := List UInt8

/-- The bytes of an ASCII text. -/
def ascii (s : String) : Bytes := s.toList.map fun c => UInt8.ofNat c.toNat

namespace FormEncoding

/-! ### Hexadecimal -/

/-- The digit of value `n < 16`, the letters beginning at `letter`. -/
def hexDigit (letter n : UInt8) : UInt8 := if n < 10 then 0x30 + n else letter + (n - 10)

/-- The value of a digit, in either case. -/
def unhex (c : UInt8) : Option UInt8 :=
  if 0x30 ≤ c ∧ c ≤ 0x39 then some (c - 0x30)
  else if 0x61 ≤ c ∧ c ≤ 0x66 then some (c - 0x61 + 10)
  else if 0x41 ≤ c ∧ c ≤ 0x46 then some (c - 0x41 + 10)
  else none

/-- Two lower-case digits for each byte. -/
def hexEncode (s : Bytes) : Bytes := s.flatMap fun b => [hexDigit 0x61 (b / 16), hexDigit 0x61 (b % 16)]

theorem forall_byte {p : UInt8 → Prop} (h : ∀ n : Fin 256, p (UInt8.ofFin n)) (b : UInt8) : p b := h b.toFin

theorem unhex_hexDigit_upper : ∀ b : UInt8,
    unhex (hexDigit 0x41 (b / 16)) = some (b / 16) ∧ unhex (hexDigit 0x41 (b % 16)) = some (b % 16) :=
  forall_byte (by decide +kernel)

theorem unhex_hexDigit_lower : ∀ b : UInt8,
    unhex (hexDigit 0x61 (b / 16)) = some (b / 16) ∧ unhex (hexDigit 0x61 (b % 16)) = some (b % 16) :=
  forall_byte (by decide +kernel)

theorem byte_of_digits : ∀ b : UInt8, b / 16 * 16 + b % 16 = b := forall_byte (by decide +kernel)

theorem hexEncode_injective : Function.Injective hexEncode := by
  intro s
  induction s with
  | nil =>
    intro t h
    cases t with
    | nil => rfl
    | cons c t => simp [hexEncode] at h
  | cons b s ih =>
    intro t h
    cases t with
    | nil => simp [hexEncode] at h
    | cons c t =>
      simp only [hexEncode, List.flatMap_cons, List.cons_append, List.nil_append, List.cons.injEq] at h
      obtain ⟨hhi, hlo, hrest⟩ := h
      have hi : b / 16 = c / 16 := by
        have := congrArg unhex hhi
        rw [(unhex_hexDigit_lower b).1, (unhex_hexDigit_lower c).1] at this
        exact Option.some.inj this
      have lo : b % 16 = c % 16 := by
        have := congrArg unhex hlo
        rw [(unhex_hexDigit_lower b).2, (unhex_hexDigit_lower c).2] at this
        exact Option.some.inj this
      rw [← byte_of_digits b, ← byte_of_digits c, hi, lo, ih hrest]

/-! ### Percent encoding -/

/-- `%`. -/
def percent : UInt8 := 0x25

/-- `&`, between two fields. -/
def amp : UInt8 := 0x26

/-- `=`, between a name and its value. -/
def equals : UInt8 := 0x3d

/-- `;`, not accepted as a separator. -/
def semicolon : UInt8 := 0x3b

/-- A byte that is not part of an escape: `+` stands for a space. -/
def plain (c : UInt8) : UInt8 := if c = 0x2b then 0x20 else c

/-- Undo the escapes, or fail on a `%` that two digits do not follow. -/
def unescape : Bytes → Option Bytes
  | [] => some []
  | c :: x :: y :: rest =>
    if c = percent then do
      let hi ← unhex x
      let lo ← unhex y
      let s ← unescape rest
      pure ((hi * 16 + lo) :: s)
    else (unescape (x :: y :: rest)).map (plain c :: ·)
  | c :: rest => if c = percent then none else (unescape rest).map (plain c :: ·)

/-- Escape every byte. -/
def percentEncode (s : Bytes) : Bytes :=
  s.flatMap fun b => [percent, hexDigit 0x41 (b / 16), hexDigit 0x41 (b % 16)]

theorem unescape_percentEncode (s : Bytes) : unescape (percentEncode s) = some s := by
  induction s with
  | nil => rfl
  | cons b s ih =>
    have hcons : percentEncode (b :: s) =
        percent :: hexDigit 0x41 (b / 16) :: hexDigit 0x41 (b % 16) :: percentEncode s := rfl
    obtain ⟨hhi, hlo⟩ := unhex_hexDigit_upper b
    rw [hcons, unescape, if_pos rfl, hhi, hlo, ih]
    simp [byte_of_digits]

/-- No control bytes. -/
def Printable (s : Bytes) : Prop := ∀ b ∈ s, 0x20 ≤ b ∧ b ≠ 0x7f

instance (s : Bytes) : Decidable (Printable s) := inferInstanceAs (Decidable (∀ b ∈ s, 0x20 ≤ b ∧ b ≠ 0x7f))

/-- Printable, and no separator. -/
def unreserved (c : UInt8) : Bool := 0x20 ≤ c && c != 0x7f && c != amp && c != equals && c != semicolon

theorem unreserved_hexDigit : ∀ b : UInt8,
    (unreserved (hexDigit 0x41 (b / 16)) && unreserved (hexDigit 0x41 (b % 16))) = true :=
  forall_byte (by decide +kernel)

/-- What an escaped byte is made of. -/
theorem mem_percentEncode {s : Bytes} {c : UInt8} (h : c ∈ percentEncode s) :
    (0x20 ≤ c ∧ c ≠ 0x7f) ∧ c ≠ amp ∧ c ≠ equals ∧ c ≠ semicolon := by
  have hc : unreserved c = true := by
    obtain ⟨b, -, hb⟩ := List.mem_flatMap.mp h
    obtain ⟨hhi, hlo⟩ := Bool.and_eq_true_iff.mp (unreserved_hexDigit b)
    simp only [List.mem_cons, List.not_mem_nil, or_false] at hb
    rcases hb with rfl | rfl | rfl
    · decide
    · exact hhi
    · exact hlo
  simp only [unreserved, Bool.and_eq_true, decide_eq_true_eq, bne_iff_ne] at hc
  obtain ⟨⟨⟨⟨hlow, hdel⟩, hamp⟩, heq⟩, hsemi⟩ := hc
  exact ⟨⟨hlow, hdel⟩, hamp, heq, hsemi⟩

/-! ### Reading a query -/

/-- The text before the first `sep`, and the text after it (empty when there is none). -/
def cut (sep : UInt8) (s : Bytes) : Bytes × Bytes := (s.takeWhile (· ≠ sep), (s.dropWhile (· ≠ sep)).drop 1)

theorem cut_append {sep : UInt8} {s : Bytes} (h : sep ∉ s) (t : Bytes) : cut sep (s ++ sep :: t) = (s, t) := by
  have hs : ∀ b ∈ s, (decide (b ≠ sep)) = true := by
    intro b hb
    exact decide_eq_true fun he => h (he ▸ hb)
  simp only [cut, List.takeWhile_append_of_pos hs, List.dropWhile_append_of_pos hs]
  simp

/-- The pair of one field, if it is well formed. -/
def pairOf (field : Bytes) : Option (Bytes × Bytes) :=
  if semicolon ∈ field then none
  else if field = [] then none
  else do
    let name ← unescape (cut equals field).1
    let value ← unescape (cut equals field).2
    pure (name, value)

/-- The pairs of a query, in order. -/
def queryPairs (query : Bytes) : List (Bytes × Bytes) := (query.splitOn amp).filterMap pairOf

/-- A field whose reading is `p`. -/
def encodePair (p : Bytes × Bytes) : Bytes := percentEncode p.1 ++ equals :: percentEncode p.2

/-- A query whose reading is `ps`. -/
def encodeQuery (ps : List (Bytes × Bytes)) : Bytes := [amp].intercalate (ps.map encodePair)

theorem mem_encodePair {p : Bytes × Bytes} {c : UInt8} (h : c ∈ encodePair p) :
    (0x20 ≤ c ∧ c ≠ 0x7f) ∧ c ≠ amp ∧ c ≠ semicolon := by
  rcases List.mem_append.mp h with h | h
  · obtain ⟨hp, ha, -, hs⟩ := mem_percentEncode h
    exact ⟨hp, ha, hs⟩
  · rcases List.mem_cons.mp h with rfl | h
    · decide
    · obtain ⟨hp, ha, -, hs⟩ := mem_percentEncode h
      exact ⟨hp, ha, hs⟩

theorem pairOf_encodePair (p : Bytes × Bytes) : pairOf (encodePair p) = some p := by
  have hsemi : semicolon ∉ encodePair p := fun h => (mem_encodePair h).2.2 rfl
  have hne : encodePair p ≠ [] := by simp [encodePair]
  have heq : equals ∉ percentEncode p.1 := fun h => (mem_percentEncode h).2.2.1 rfl
  rw [pairOf, if_neg hsemi, if_neg hne, encodePair, cut_append heq]
  simp [unescape_percentEncode]

/-- **Every list of pairs is the reading of a query.** -/
theorem queryPairs_encodeQuery (ps : List (Bytes × Bytes)) : queryPairs (encodeQuery ps) = ps := by
  cases ps with
  | nil => rfl
  | cons p ps =>
    have hamp : ∀ field ∈ (p :: ps).map encodePair, amp ∉ field := by
      intro field hf ha
      obtain ⟨q, -, rfl⟩ := List.mem_map.mp hf
      exact (mem_encodePair ha).2.1 rfl
    rw [queryPairs, encodeQuery, List.splitOn_intercalate amp hamp (by simp), List.filterMap_map]
    have hpair : pairOf ∘ encodePair = some := funext pairOf_encodePair
    rw [hpair, List.filterMap_some]

theorem encodeQuery_singleton (p : Bytes × Bytes) : encodeQuery [p] = encodePair p := by
  simp [encodeQuery]

theorem Printable.encodePair (p : Bytes × Bytes) : Printable (FormEncoding.encodePair p) :=
  fun _ hc => (mem_encodePair hc).1

/-! ### The multimap -/

/-- The values of each name. -/
abbrev Values := List (Bytes × List Bytes)

/-- Add each pair's value at the end of its name's values. -/
def ofPairs (ps : List (Bytes × Bytes)) : Values := groupFold Prod.fst (fun vs p => vs ++ [p.2]) [] ps

/-- The multimap of a query. -/
def parseQuery (query : Bytes) : Values := ofPairs (queryPairs query)

/-- The values of a name, none when it is absent. -/
def Values.values (q : Values) (name : Bytes) : List Bytes := (q.lookup name).getD []

/-- The names. -/
def Values.names (q : Values) : List Bytes := q.map Prod.fst

theorem foldl_append_snd (ps : List (Bytes × Bytes)) (vs : List Bytes) :
    ps.foldl (fun vs p => vs ++ [p.2]) vs = vs ++ ps.map Prod.snd := by
  induction ps generalizing vs with
  | nil => simp
  | cons p ps ih => simp [ih]

theorem names_nodup (ps : List (Bytes × Bytes)) : (ofPairs ps).names.Nodup := nodup_keys_groupFold ..

theorem mem_ofPairs {ps : List (Bytes × Bytes)} {name : Bytes} {vs : List Bytes} :
    (name, vs) ∈ ofPairs ps ↔
      name ∈ ps.map Prod.fst ∧ vs = (ps.filter fun p => p.1 = name).map Prod.snd := by
  rw [ofPairs, mem_groupFold, foldl_append_snd, List.nil_append]

theorem mem_names {ps : List (Bytes × Bytes)} {name : Bytes} :
    name ∈ (ofPairs ps).names ↔ name ∈ ps.map Prod.fst := by
  constructor
  · intro h
    obtain ⟨⟨n, vs⟩, hm, rfl⟩ := List.mem_map.mp h
    exact (mem_ofPairs.mp hm).1
  · intro h
    exact List.mem_map.mpr ⟨(name, _), mem_ofPairs.mpr ⟨h, rfl⟩, rfl⟩

/-- The values of a name, in the order of the pairs. -/
theorem values_ofPairs (ps : List (Bytes × Bytes)) (name : Bytes) :
    (ofPairs ps).values name = (ps.filter fun p => p.1 = name).map Prod.snd := by
  rw [Values.values]
  cases hl : (ofPairs ps).lookup name with
  | some vs =>
    obtain ⟨l, r, hsplit, -⟩ := List.lookup_eq_some_iff.mp hl
    have hm : (name, vs) ∈ ofPairs ps := by
      rw [hsplit]
      simp
    exact (mem_ofPairs.mp hm).2
  | none =>
    have habsent : name ∉ ps.map Prod.fst := by
      intro hm
      obtain ⟨⟨n, vs⟩, hp, hn⟩ := List.mem_map.mp (mem_names.mpr hm)
      have hne := List.lookup_eq_none_iff.mp hl _ hp
      simp [← hn] at hne
    have hfilter : ps.filter (fun p => p.1 = name) = [] := by
      rw [List.filter_eq_nil_iff]
      exact fun p hp he => habsent (List.mem_map.mpr ⟨p, hp, by simpa using he⟩)
    simp [hfilter]

end FormEncoding

end ForecastIQ.Foundations
