import Mathlib.Data.List.Basic
import PvrBackend.Session.Request

/-!
# Queries are read back

A written value is read back byte by byte, and nothing in it ends its pair: so the pairs that are
read from a query are the pairs it was made of, whatever the values hold. A session token stands
behind them as it was issued. It may hold anything, also what ends a pair and goes on with another
one, and bytes that are no text, but it stands behind its own key and reaches no pair in front.

Bytes that are no text are taken for something by whoever reads them. `readPairs` leaves open what
that is; it agrees with `decodePairs` wherever the latter gives an answer.
-/

namespace PvrBackend.Text

/-- UTF-8 is read back. -/
theorem fromUTF8?_toUTF8 (s : String) : String.fromUTF8? s.toUTF8 = some s := by
  rw [String.toUTF8_eq_toByteArray, String.fromUTF8?, dif_pos s.isValidUTF8]
  rfl

namespace Form

/-! ### Bytes -/

theorem bytes_append (s t : String) : bytes (s ++ t) = bytes s ++ bytes t := by
  simp only [bytes, String.toUTF8_eq_toByteArray, String.toByteArray_append,
    ByteArray.toList_data_append]

theorem bytes_ofList_cons (c : Char) (cs : List Char) :
    bytes (String.ofList (c :: cs)) = bytes c.toString ++ bytes (String.ofList cs) := by
  rw [String.ofList_cons, bytes_append, Char.toString_eq_singleton]

theorem hexValue_hexDigit : ∀ n < 16, hexValue (hexDigit n) = some n := by
  decide

theorem isPlain_hexDigit : ∀ n < 16, isPlain (hexDigit n) = true := by
  decide

/-- Plain characters are ASCII, and a byte each. -/
theorem bytes_ofNat_of_isPlain : ∀ n < 256, isPlain (Char.ofNat n) = true →
    bytes (Char.ofNat n).toString = [UInt8.ofNat n] := by
  decide +kernel

theorem eq_of_ofNat_eq_space : ∀ n < 256, Char.ofNat n = ' ' → n = 32 := by
  decide +kernel

theorem ne_of_isPlain {c d : Char} (plain : isPlain c = true) (other : isPlain d = false) :
    c ≠ d := by
  rintro rfl
  exact absurd plain (by simp [other])

theorem isPlain_iff {c : Char} :
    isPlain c = true ↔ c.isAlphanum = true ∨ c ∈ ['*', '-', '.', '_'] := by
  simp [isPlain, or_assoc]

theorem toNat_le_of_isAlphanum {c : Char} (alphanum : c.isAlphanum = true) :
    c.toNat ≤ 'z'.toNat := by
  have below {d : Char} (le : c.val ≤ d.val) : c.toNat ≤ d.toNat := UInt32.le_iff_toNat_le.mp le
  rcases Bool.or_eq_true_iff.mp alphanum with letter | digit
  · rcases Bool.or_eq_true_iff.mp letter with upper | lower
    · exact Nat.le_trans (below (of_decide_eq_true upper).2) (by decide)
    · exact below (of_decide_eq_true (Bool.and_eq_true_iff.mp lower).2)
  · exact Nat.le_trans (below (of_decide_eq_true (Bool.and_eq_true_iff.mp digit).2)) (by decide)

theorem toNat_lt_of_isPlain {c : Char} (plain : isPlain c = true) : c.toNat < 256 := by
  rcases isPlain_iff.mp plain with alphanum | sign
  · exact Nat.lt_of_le_of_lt (toNat_le_of_isAlphanum alphanum) (by decide)
  · simp only [List.mem_cons, List.not_mem_nil, or_false] at sign
    rcases sign with rfl | rfl | rfl | rfl <;> decide

/-- What is written: plain characters, plus signs and percent signs. -/
theorem mem_encodeByte {b : UInt8} {c : Char} (mem : c ∈ encodeByte b) :
    isPlain c = true ∨ c = '+' ∨ c = '%' := by
  have byte : b.toNat < 256 := b.toNat_lt
  rw [encodeByte] at mem
  split at mem
  next plain =>
    rw [List.mem_singleton.mp mem]
    exact .inl plain
  next =>
    split at mem
    next => exact .inr (.inl (List.mem_singleton.mp mem))
    next =>
      simp only [List.mem_cons, List.not_mem_nil, or_false] at mem
      rcases mem with rfl | rfl | rfl
      · exact .inr (.inr rfl)
      · exact .inl (isPlain_hexDigit _ (by omega))
      · exact .inl (isPlain_hexDigit _ (by omega))

theorem mem_encode {s : String} {c : Char} (mem : c ∈ (encode s).toList) :
    isPlain c = true ∨ c = '+' ∨ c = '%' := by
  rw [encode, String.toList_ofList] at mem
  obtain ⟨b, -, written⟩ := List.mem_flatMap.mp mem
  exact mem_encodeByte written

/-! ### Values -/

theorem decodeBytes_cons {c : Char} (percent : c ≠ '%') (plus : c ≠ '+') (rest : List Char) :
    decodeBytes (c :: rest) = bytes c.toString ++ decodeBytes rest := by
  rw [decodeBytes]
  · rw [if_neg plus]
  · exact fun _ _ _ escape _ => percent escape

/-- A written byte is read back, whatever comes behind it. -/
theorem decodeBytes_encodeByte (b : UInt8) (rest : List Char) :
    decodeBytes (encodeByte b ++ rest) = b :: decodeBytes rest := by
  have byte : b.toNat < 256 := b.toNat_lt
  rw [encodeByte]
  split
  next plain =>
    have percent := ne_of_isPlain plain (d := '%') (by decide)
    have plus := ne_of_isPlain plain (d := '+') (by decide)
    rw [List.singleton_append, decodeBytes_cons percent plus,
      bytes_ofNat_of_isPlain _ byte plain, UInt8.ofNat_toNat]
    rfl
  next =>
    split
    next space =>
      have value := eq_of_ofNat_eq_space _ byte (beq_iff_eq.mp space)
      rw [List.singleton_append, decodeBytes, if_pos rfl, ← UInt8.ofNat_toNat (x := b), value]
      · rfl
      · nofun
    next =>
      have high := hexValue_hexDigit (b.toNat / 16) (by omega)
      have low := hexValue_hexDigit (b.toNat % 16) (by omega)
      rw [List.cons_append, List.cons_append, List.cons_append, decodeBytes, high, low]
      dsimp only
      rw [Nat.div_add_mod, UInt8.ofNat_toNat]
      rfl

theorem decodeBytes_flatMap (bs : List UInt8) : decodeBytes (bs.flatMap encodeByte) = bs := by
  induction bs with
  | nil => rfl
  | cons b bs ih => rw [List.flatMap_cons, decodeBytes_encodeByte, ih]

/-- A value is read back. -/
theorem decode_encode (s : String) : decode (encode s) = some s := by
  rw [decode, encode, String.toList_ofList, decodeBytes_flatMap, bytes, Array.toArray_toList]
  exact fromUTF8?_toUTF8 s

/-- A text without escapes is read as it stands. -/
theorem decodeBytes_toList {s : String} (bare : ∀ c ∈ s.toList, c ≠ '%' ∧ c ≠ '+') :
    decodeBytes s.toList = bytes s := by
  rw [← String.ofList_toList (s := s), String.toList_ofList]
  generalize s.toList = cs at bare
  induction cs with
  | nil => rfl
  | cons c cs ih =>
      obtain ⟨percent, plus⟩ := bare c List.mem_cons_self
      rw [decodeBytes_cons percent plus, bytes_ofList_cons,
        ih fun d mem => bare d (List.mem_cons_of_mem c mem)]

theorem decode_of_bare {s : String} (bare : ∀ c ∈ s.toList, c ≠ '%' ∧ c ≠ '+') :
    decode s = some s := by
  rw [decode, decodeBytes_toList bare, bytes, Array.toArray_toList]
  exact fromUTF8?_toUTF8 s

/-- Plain characters are written as they are. -/
theorem encode_of_plain {s : String} (plain : ∀ c ∈ s.toList, isPlain c = true) :
    encode s = s := by
  have each : ∀ c, isPlain c = true → (bytes c.toString).flatMap encodeByte = [c] := by
    intro c plain
    have byte := toNat_lt_of_isPlain plain
    have single := bytes_ofNat_of_isPlain c.toNat byte (by rwa [Char.ofNat_toNat])
    rw [Char.ofNat_toNat] at single
    have value : (UInt8.ofNat c.toNat).toNat = c.toNat := by
      rw [UInt8.toNat_ofNat', Nat.mod_eq_of_lt byte]
    rw [single, List.flatMap_singleton, encodeByte, value, Char.ofNat_toNat, if_pos plain]
  rw [encode, ← String.ofList_toList (s := s)]
  congr 1
  generalize s.toList = cs at plain
  induction cs with
  | nil => rfl
  | cons c cs ih =>
      rw [bytes_ofList_cons, List.flatMap_append, each c (plain c List.mem_cons_self),
        ih fun d mem => plain d (List.mem_cons_of_mem c mem), List.singleton_append]

/-! ### Pieces -/

theorem pieces_ne_nil (sep : Char) (cs : List Char) : pieces sep cs ≠ [] := by
  cases cs with
  | nil => nofun
  | cons c cs =>
      rw [pieces]
      split
      · nofun
      · split <;> nofun

theorem pieces_cons_self (sep : Char) (cs : List Char) :
    pieces sep (sep :: cs) = [] :: pieces sep cs := by
  rw [pieces, if_pos rfl]

theorem pieces_cons_of_ne {sep c : Char} (other : c ≠ sep) (cs : List Char) :
    pieces sep (c :: cs) = (pieces sep cs).modifyHead (c :: ·) := by
  rw [pieces, if_neg other]
  split
  next none => exact absurd none (pieces_ne_nil sep cs)
  next some => rw [some, List.modifyHead_cons]

/-- What has no separator in it joins the first piece. -/
theorem pieces_append {sep : Char} {p : List Char} (whole : sep ∉ p) (cs : List Char) :
    pieces sep (p ++ cs) = (pieces sep cs).modifyHead (p ++ ·) := by
  induction p with
  | nil => rw [List.nil_append, show (([] : List Char) ++ ·) = id from rfl, List.modifyHead_id, id]
  | cons c p ih =>
      obtain ⟨other, whole⟩ := not_or.mp (mt List.mem_cons.mpr whole)
      rw [List.cons_append, pieces_cons_of_ne (Ne.symm other), ih whole, List.modifyHead_modifyHead]
      rfl

theorem pieces_of_not_mem {sep : Char} {p : List Char} (whole : sep ∉ p) : pieces sep p = [p] := by
  rw [← List.append_nil p, pieces_append whole, pieces, List.modifyHead_cons]

/-- The first piece goes up to the first separator. -/
theorem pieces_eq_cons (sep : Char) (cs : List Char) :
    ∃ rest, pieces sep cs = cs.takeWhile (· ≠ sep) :: rest ∧ (sep ∉ cs → rest = []) := by
  induction cs with
  | nil => exact ⟨[], rfl, fun _ => rfl⟩
  | cons c cs ih =>
      obtain ⟨rest, split, none⟩ := ih
      by_cases same : c = sep
      · refine ⟨pieces sep cs, ?_, fun whole => absurd (same ▸ List.mem_cons_self) whole⟩
        rw [same, pieces_cons_self, List.takeWhile_cons_of_neg (by simp)]
      · refine ⟨rest, ?_, fun whole => none fun mem => whole (List.mem_cons_of_mem c mem)⟩
        rw [pieces_cons_of_ne same, split, List.modifyHead_cons,
          List.takeWhile_cons_of_pos (by simpa using same)]

/-- A separator ends a piece. -/
theorem pieces_append_cons (sep : Char) (a b : List Char) :
    pieces sep (a ++ sep :: b) = pieces sep a ++ pieces sep b := by
  induction a with
  | nil => exact pieces_cons_self sep b
  | cons c a ih =>
      rw [List.cons_append]
      by_cases same : c = sep
      · rw [same, pieces_cons_self, pieces_cons_self, ih, List.cons_append]
      · obtain ⟨first, rest, some⟩ := List.exists_cons_of_ne_nil (pieces_ne_nil sep a)
        rw [pieces_cons_of_ne same, pieces_cons_of_ne same, ih, some, List.cons_append,
          List.modifyHead_cons, List.modifyHead_cons, List.cons_append]

/-- The written parts of a query. -/
def parts (query : String) : List (List Char) := (pieces '&' query.toList).filter (· ≠ [])

theorem decodePairs_eq (query : String) : decodePairs query = (parts query).mapM decodePair := rfl

theorem parts_append (a b : String) : parts (a ++ "&" ++ b) = parts a ++ parts b := by
  have joined : (a ++ "&" ++ b).toList = a.toList ++ '&' :: b.toList := by
    simp [String.toList_append]
  rw [parts, joined, pieces_append_cons, List.filter_append, parts, parts]

/-! ### Pairs -/

/-- A key that can stand in a query as it is. -/
def IsKey (key : String) : Prop := ∀ c ∈ key.toList, c ∉ ['&', '=', '+', '%']

instance (key : String) : Decidable (IsKey key) :=
  List.decidableBAll (· ∉ ['&', '=', '+', '%']) key.toList

namespace IsKey

variable {key : String} (proper : IsKey key)

include proper

theorem bare : ∀ c ∈ key.toList, c ≠ '%' ∧ c ≠ '+' := by
  intro c mem
  have other := proper c mem
  simp only [List.mem_cons, List.not_mem_nil, or_false, not_or] at other
  exact ⟨other.2.2.2, other.2.2.1⟩

theorem not_mem_amp : '&' ∉ key.toList := fun mem => proper '&' mem (by decide)

theorem ne_equals : ∀ c ∈ key.toList, decide (c ≠ '=') = true := by
  intro c mem
  have other := proper c mem
  simp only [List.mem_cons, List.not_mem_nil, or_false, not_or] at other
  simpa using other.2.1

/-- A piece is split behind its key. -/
theorem takeWhile_append (cs : List Char) :
    (key.toList ++ '=' :: cs).takeWhile (· ≠ '=') = key.toList := by
  rw [List.takeWhile_append_of_pos proper.ne_equals]
  simp

theorem drop_dropWhile_append (cs : List Char) :
    ((key.toList ++ '=' :: cs).dropWhile (· ≠ '=')).drop 1 = cs := by
  rw [List.dropWhile_append_of_pos proper.ne_equals]
  simp

end IsKey

theorem toList_encodePair (p : String × String) :
    (encodePair p).toList = p.1.toList ++ '=' :: (encode p.2).toList := by
  simp [encodePair, String.toList_append]

/-- A pair is read back. -/
theorem decodePair_encodePair {p : String × String} (proper : IsKey p.1) :
    decodePair (encodePair p).toList = some p := by
  rw [toList_encodePair, decodePair, proper.takeWhile_append, proper.drop_dropWhile_append,
    String.ofList_toList, String.ofList_toList, decode_of_bare proper.bare, decode_encode]
  rfl

/-- A written value ends no pair. -/
theorem not_mem_encodePair {p : String × String} (proper : IsKey p.1) :
    '&' ∉ (encodePair p).toList := by
  rw [toList_encodePair, List.mem_append, List.mem_cons, not_or, not_or]
  refine ⟨proper.not_mem_amp, by decide, fun mem => ?_⟩
  rcases mem_encode mem with plain | plus | percent
  · exact absurd plain (by decide)
  · exact absurd plus (by decide)
  · exact absurd percent (by decide)

theorem parts_of_not_mem {query : String} (whole : '&' ∉ query.toList) (some : query ≠ "") :
    parts query = [query.toList] := by
  rw [parts, pieces_of_not_mem whole]
  simpa using some

theorem encodePair_ne (p : String × String) : encodePair p ≠ "" := by
  intro none
  have empty := congrArg String.toList none
  rw [toList_encodePair] at empty
  simp at empty

/-- A query consists of its pairs as they are written. -/
theorem parts_encodePairs {ps : List (String × String)} (proper : ∀ p ∈ ps, IsKey p.1) :
    parts (encodePairs ps) = ps.map fun p => (encodePair p).toList := by
  have single : ∀ p ∈ ps, parts (encodePair p) = [(encodePair p).toList] := fun p mem =>
    parts_of_not_mem (not_mem_encodePair (proper p mem)) (encodePair_ne p)
  rw [encodePairs]
  induction ps with
  | nil => rfl
  | cons p ps ih =>
      have first := single p List.mem_cons_self
      cases ps with
      | nil => rw [List.map_singleton, String.intercalate_singleton, first, List.map_singleton]
      | cons q qs =>
          have rest := ih (fun r mem => proper r (List.mem_cons_of_mem p mem))
            fun r mem => single r (List.mem_cons_of_mem p mem)
          rw [List.map_cons, List.map_cons, String.intercalate_cons_cons, parts_append, first,
            ← List.map_cons, rest, List.singleton_append]
          rfl

theorem mapM_decodePair {ps : List (String × String)} (proper : ∀ p ∈ ps, IsKey p.1) :
    (ps.map fun p => (encodePair p).toList).mapM decodePair = some ps := by
  induction ps with
  | nil => rfl
  | cons p ps ih =>
      rw [List.map_cons, List.mapM_cons, decodePair_encodePair (proper p List.mem_cons_self),
        ih fun q mem => proper q (List.mem_cons_of_mem p mem)]
      rfl

/-- The pairs of a query are read back. -/
theorem decodePairs_encodePairs {ps : List (String × String)} (proper : ∀ p ∈ ps, IsKey p.1) :
    decodePairs (encodePairs ps) = some ps := by
  rw [decodePairs_eq, parts_encodePairs proper, mapM_decodePair proper]

/-! ### Bytes that are no text -/

section Reading

variable (malformed : List UInt8 → String)

/-- The text that a written value is read as; bytes that are not UTF-8 are read as `malformed`
has it. -/
def readText (cs : List Char) : String :=
  (decode (String.ofList cs)).getD (malformed (decodeBytes cs))

/-- Key and value of a part, whatever bytes there are in it. -/
def readPair (part : List Char) : String × String :=
  (readText malformed (part.takeWhile (· ≠ '=')),
    readText malformed ((part.dropWhile (· ≠ '=')).drop 1))

/-- All pairs of a query in order, whatever bytes there are in it. -/
def readPairs (query : String) : List (String × String) := (parts query).map (readPair malformed)

variable {malformed}

theorem readPair_of_decodePair {part : List Char} {p : String × String}
    (read : decodePair part = some p) : readPair malformed part = p := by
  obtain ⟨key, first, read⟩ := Option.bind_eq_some_iff.mp read
  obtain ⟨value, second, pair⟩ := Option.bind_eq_some_iff.mp read
  obtain rfl := Option.some.inj pair
  rw [readPair, readText, readText, first, second, Option.getD_some, Option.getD_some]

/-- All readers agree where all bytes are text. -/
theorem readPairs_of_decodePairs {query : String} {ps : List (String × String)}
    (read : decodePairs query = some ps) : readPairs malformed query = ps := by
  rw [decodePairs_eq] at read
  rw [readPairs]
  generalize parts query = pieces at read
  induction pieces generalizing ps with
  | nil => exact Option.some.inj read
  | cons part rest ih =>
      rw [List.mapM_cons] at read
      obtain ⟨p, first, read⟩ := Option.bind_eq_some_iff.mp read
      obtain ⟨qs, others, result⟩ := Option.bind_eq_some_iff.mp read
      obtain rfl := Option.some.inj result
      rw [List.map_cons, readPair_of_decodePair first, ih others]

end Reading

/-- A value stands behind its key, up to where it ends its pair; if it does not, it is all. -/
theorem exists_parts_eq {key : String} (proper : IsKey key) (value : String) :
    ∃ rest, parts (key ++ "=" ++ value) =
        (key.toList ++ '=' :: value.toList.takeWhile (· ≠ '&')) :: rest ∧
      ('&' ∉ value.toList → rest = []) := by
  have written : (key ++ "=" ++ value).toList = (key.toList ++ ['=']) ++ value.toList := by
    rw [String.toList_append, String.toList_append]
    rfl
  have whole : '&' ∉ key.toList ++ ['='] := by
    simpa using proper.not_mem_amp
  obtain ⟨rest, pieces, none⟩ := pieces_eq_cons '&' value.toList
  refine ⟨rest.filter (· ≠ []), ?_, fun single => by rw [none single, List.filter_nil]⟩
  rw [parts, written, pieces_append whole, pieces, List.modifyHead_cons, List.append_assoc,
    List.singleton_append, List.filter_cons_of_pos (by simp)]

theorem exists_parts_cons {key : String} (proper : IsKey key) (value : String) :
    ∃ first rest, parts (key ++ "=" ++ value) = (key.toList ++ '=' :: first) :: rest := by
  obtain ⟨rest, written, -⟩ := exists_parts_eq proper value
  exact ⟨_, rest, written⟩

/-- Whatever a value holds, it is read under the key in front of it. -/
theorem readPair_append {key : String} (proper : IsKey key) (malformed : List UInt8 → String)
    (value : List Char) :
    readPair malformed (key.toList ++ '=' :: value) = (key, readText malformed value) := by
  rw [readPair, proper.takeWhile_append, proper.drop_dropWhile_append, readText,
    String.ofList_toList, decode_of_bare proper.bare, Option.getD_some]

/-! ### Queries -/

theorem isKey_tokenKey : IsKey tokenKey := by
  decide

/-- A token goes behind the pairs. -/
theorem parts_query_some (params : Params) (token : String) :
    parts (query params (some token)) =
      parts (encodePairs params) ++ parts (tokenKey ++ "=" ++ token) := by
  rw [query]
  split
  next none =>
    rw [none, String.empty_append]
    rfl
  next =>
    rw [← parts_append]
    simp only [String.append_assoc]

/-- What was put into a query is read from it, and nothing else. Values are written in a small
alphabet. Without a token the pairs that are read are the parameters. With a token they start with
the parameters, whatever the token holds and whatever its bytes are taken for, and a pair under the
token's key comes next; a token in the alphabet of what is written as it is comes back as that
pair, and is the last. -/
theorem query_read_back {params : Params} (proper : ∀ p ∈ params, IsKey p.1) :
    (∀ s, ∀ c ∈ (encode s).toList,
      c.isAlphanum = true ∨ c ∈ ['*', '-', '.', '_', '+', '%']) ∧
    decodePairs (query params none) = some params ∧
    (∀ malformed token, ∃ value rest,
      readPairs malformed (query params (some token)) = params ++ (tokenKey, value) :: rest) ∧
    ∀ token, (∀ c ∈ token.toList, c.isAlphanum = true ∨ c ∈ ['*', '-', '.', '_']) →
      decodePairs (query params (some token)) = some (params ++ [(tokenKey, token)]) := by
  refine ⟨?alphabet, ?params, ?begins, ?token⟩
  case alphabet =>
    intro s c mem
    have written := mem_encode mem
    rw [isPlain_iff] at written
    simp only [List.mem_cons, List.not_mem_nil, or_false] at written ⊢
    tauto
  case params => exact decodePairs_encodePairs proper
  case begins =>
    intro malformed token
    have front : readPairs malformed (encodePairs params) = params :=
      readPairs_of_decodePairs (decodePairs_encodePairs proper)
    obtain ⟨first, rest, behind⟩ := exists_parts_cons isKey_tokenKey token
    refine ⟨readText malformed first, rest.map (readPair malformed), ?_⟩
    rw [readPairs, parts_query_some, List.map_append, ← readPairs, front, behind, List.map_cons,
      readPair_append isKey_tokenKey]
  case token =>
    intro token plain
    have written : tokenKey ++ "=" ++ token = encodePair (tokenKey, token) := by
      rw [encodePair, encode_of_plain fun c mem => isPlain_iff.mpr (plain c mem)]
    have last : parts (encodePair (tokenKey, token)) = [(encodePair (tokenKey, token)).toList] :=
      parts_of_not_mem (not_mem_encodePair isKey_tokenKey) (encodePair_ne _)
    have all : ∀ p ∈ params ++ [(tokenKey, token)], IsKey p.1 := by
      intro p mem
      rcases List.mem_append.mp mem with mem | mem
      · exact proper p mem
      · rw [List.mem_singleton.mp mem]
        exact isKey_tokenKey
    rw [decodePairs_eq, parts_query_some, parts_encodePairs proper, written, last,
      ← mapM_decodePair all, List.map_append, List.map_singleton]

/-- Values full of separators and escapes, and a token that ends its pair, goes on with another
one and holds bytes that are no text: the parameters are read all the same. -/
theorem query_read_back_hostile :
    (∀ p ∈ [("pin", "1&pin=2"), ("eventId", "č+%41 #")], IsKey p.1) ∧
    decodePairs (query [("pin", "1&pin=2"), ("eventId", "č+%41 #")] none) =
      some [("pin", "1&pin=2"), ("eventId", "č+%41 #")] ∧
    (∀ malformed, ∃ value rest,
      readPairs malformed (query [("pin", "1&pin=2"), ("eventId", "č+%41 #")] (some "a%FF&pin=3")) =
        [("pin", "1&pin=2"), ("eventId", "č+%41 #")] ++ (tokenKey, value) :: rest) ∧
    (∀ c ∈ "sess-1".toList, c.isAlphanum = true ∨ c ∈ ['*', '-', '.', '_']) ∧
    decodePairs (query [("pin", "1&pin=2"), ("eventId", "č+%41 #")] (some "sess-1")) =
      some [("pin", "1&pin=2"), ("eventId", "č+%41 #"), (tokenKey, "sess-1")] := by
  have proper : ∀ p ∈ [("pin", "1&pin=2"), ("eventId", "č+%41 #")], IsKey p.1 :=
    List.forall_mem_cons.mpr ⟨by decide, List.forall_mem_singleton.mpr (by decide)⟩
  have plain : ∀ c ∈ "sess-1".toList, c.isAlphanum = true ∨ c ∈ ['*', '-', '.', '_'] := by
    simp
  obtain ⟨-, params, begins, token⟩ := query_read_back proper
  exact ⟨proper, params, fun malformed => begins malformed "a%FF&pin=3", plain,
    token "sess-1" plain⟩

end Form

end PvrBackend.Text
