import Mathlib.Data.List.Infix
import Mathlib.Data.List.TakeWhile
import PvrBackend.Proofs.Text.Forms

/-!
# Texts that are read as they stand

A session token is put into a query without being encoded. A reader cuts the query off at a `#`
and divides it at every `&`, takes a `+` for a space, and an escape for the byte that it stands
for. A token that has nothing of this is read as it was issued, and no other token is: what is cut
off is lost, and reading never makes a text longer, so it cannot make up for the loss, nor turn
an escape into itself.
-/

namespace PvrBackend.Text.Form

/-- Whether there is an escape: a percent sign with two hexadecimal digits behind it. -/
def hasEscape : List Char → Bool
  | [] => false
  | '%' :: h :: l :: rest =>
    ((hexValue h).isSome && (hexValue l).isSome) || hasEscape (h :: l :: rest)
  | _ :: rest => hasEscape rest

/-- A text in which a reader finds nothing but itself. -/
def Literal (s : String) : Prop :=
  (∀ c ∈ s.toList, c ∉ ['&', '#', '+']) ∧ hasEscape s.toList = false

-- The characters of the text are tried, not all that there are.
instance (s : String) : Decidable (Literal s) :=
  have : Decidable (∀ c ∈ s.toList, c ∉ ['&', '#', '+']) := List.decidableBAll _ _
  inferInstanceAs (Decidable (_ ∧ _))

/-! ### Lengths -/

theorem length_bytes (s : String) : (bytes s).length = s.utf8ByteSize := by
  rw [bytes, String.toUTF8_eq_toByteArray, ← String.size_toByteArray]
  rfl

theorem length_bytes_char (c : Char) : 1 ≤ (bytes c.toString).length := by
  rw [length_bytes, Char.toString_eq_singleton, String.utf8ByteSize_singleton]
  exact c.utf8Size_pos

theorem length_bytes_cons (c : Char) (cs : List Char) :
    (bytes (String.ofList (c :: cs))).length =
      (bytes c.toString).length + (bytes (String.ofList cs)).length := by
  rw [bytes_ofList_cons, List.length_append]

/-- Reading makes nothing longer. -/
theorem length_decodeBytes_le (cs : List Char) :
    (decodeBytes cs).length ≤ (bytes (String.ofList cs)).length := by
  fun_induction decodeBytes cs with
  | case1 => exact Nat.zero_le _
  | case2 h l rest a b low high ih =>
      have longer := length_bytes_char '%'
      simp only [length_bytes_cons, List.length_cons]
      omega
  | case3 h l rest plain ih =>
      have longer := length_bytes_char '%'
      rw [length_bytes_cons, List.length_cons]
      omega
  | case4 rest plain ih =>
      have longer := length_bytes_char '+'
      rw [length_bytes_cons, List.length_cons]
      omega
  | case5 c rest plain plus ih =>
      rw [length_bytes_cons, List.length_append]
      omega

/-- What is in front of a text and as long as it is the text. -/
theorem eq_of_prefix_of_length_le {cs ds : List Char} (front : cs <+: ds)
    (whole : (bytes (String.ofList ds)).length ≤ (bytes (String.ofList cs)).length) : cs = ds := by
  obtain ⟨rest, rfl⟩ := front
  cases rest with
  | nil => rw [List.append_nil]
  | cons c rest =>
      have longer := length_bytes_char c
      rw [String.ofList_append, bytes_append, List.length_append, length_bytes_cons] at whole
      omega

/-! ### What is read as it stands -/

/-- Bytes are read as they stand exactly where there is neither a plus sign nor an escape. -/
theorem decodeBytes_eq_bytes_iff (cs : List Char) :
    decodeBytes cs = bytes (String.ofList cs) ↔ '+' ∉ cs ∧ hasEscape cs = false := by
  fun_induction decodeBytes cs with
  | case1 => decide
  | case2 h l rest a b low high ih =>
      -- An escape of three characters is read as one byte.
      have shorter := length_decodeBytes_le rest
      have one := length_bytes_char '%'
      have two := length_bytes_char h
      constructor
      · intro same
        have lengths := congrArg List.length same
        simp only [length_bytes_cons, List.length_cons] at lengths
        have three := length_bytes_char l
        omega
      · rintro ⟨-, free⟩
        simp [hasEscape, low, high] at free
  | case3 h l rest plain ih =>
      have escape : ((hexValue h).isSome && (hexValue l).isSome) = false := by
        cases high : hexValue h with
        | none => rfl
        | some a =>
            cases low : hexValue l with
            | none => rfl
            | some b => exact absurd low (plain a b high)
      have sign : bytes '%'.toString = [UInt8.ofNat '%'.toNat] := by decide
      rw [bytes_ofList_cons, sign, List.singleton_append, List.cons.injEq, hasEscape, escape,
        Bool.false_or, ih]
      simp
  | case4 rest plain ih =>
      have sign : bytes '+'.toString = [UInt8.ofNat '+'.toNat] := by decide
      rw [bytes_ofList_cons, sign, List.singleton_append, List.cons.injEq]
      simp
  | case5 c rest plain plus ih =>
      have same : hasEscape (c :: rest) = hasEscape rest := by
        rw [hasEscape]
        exact plain
      rw [bytes_ofList_cons, List.append_right_inj, ih, same, List.mem_cons, not_or]
      simp [Ne.symm plus]

theorem bytes_eq_of_decode {s t : String} (read : decode s = some t) :
    bytes t = decodeBytes s.toList := by
  rw [decode, String.fromUTF8?] at read
  split at read
  next valid =>
    obtain rfl := Option.some.inj read
    rfl
  next => cases read

theorem decode_eq_self_iff (s : String) :
    decode s = some s ↔ '+' ∉ s.toList ∧ hasEscape s.toList = false := by
  rw [← decodeBytes_eq_bytes_iff, String.ofList_toList]
  constructor
  · intro read
    exact (bytes_eq_of_decode read).symm
  · intro same
    rw [decode, same, bytes, Array.toArray_toList]
    exact fromUTF8?_toUTF8 s

/-- What is read from the front of a text and is the text was all of it. -/
theorem eq_of_decode_prefix {cs : List Char} {s : String} (front : cs <+: s.toList)
    (read : decode (String.ofList cs) = some s) : cs = s.toList := by
  apply eq_of_prefix_of_length_le front
  rw [String.ofList_toList, bytes_eq_of_decode read, String.toList_ofList]
  exact length_decodeBytes_le cs

/-! ### Tokens in a query -/

/-- The part of an address between its first `?` and any `#` behind it. -/
def queryOf (url : String) : String :=
  String.ofList (((url.toList.dropWhile (· ≠ '?')).drop 1).takeWhile (· ≠ '#'))

theorem queryOf_append {base : String} (plain : '?' ∉ base.toList) (query : String) :
    queryOf (base ++ "?" ++ query) = String.ofList (query.toList.takeWhile (· ≠ '#')) := by
  have written : (base ++ "?" ++ query).toList = base.toList ++ '?' :: query.toList := by
    simp [String.toList_append]
  have passed : ∀ c ∈ base.toList, decide (c ≠ '?') = true := by
    intro c mem
    exact decide_eq_true fun mark => plain (mark ▸ mem)
  rw [queryOf, written, List.dropWhile_append_of_pos passed]
  simp

/-- A key of characters that stand for themselves. -/
def IsWord (key : String) : Prop := ∀ c ∈ key.toList, isPlain c = true

instance (key : String) : Decidable (IsWord key) := List.decidableBAll _ _

theorem IsWord.isKey {key : String} (word : IsWord key) : IsKey key := by
  intro c mem special
  simp only [List.mem_cons, List.not_mem_nil, or_false] at special
  have plain := word c mem
  rcases special with rfl | rfl | rfl | rfl <;> exact absurd plain (by decide)

theorem not_mem_hash_encodePair {p : String × String} (word : IsWord p.1) :
    '#' ∉ (encodePair p).toList := by
  rw [toList_encodePair, List.mem_append, List.mem_cons, not_or, not_or]
  refine ⟨fun mem => absurd (word _ mem) (by decide), by decide, fun mem => ?_⟩
  rcases mem_encode mem with plain | plus | percent
  · exact absurd plain (by decide)
  · exact absurd plus (by decide)
  · exact absurd percent (by decide)

theorem not_mem_hash_encodePairs {params : Params} (words : ∀ p ∈ params, IsWord p.1) :
    '#' ∉ (encodePairs params).toList := by
  have each : ∀ s ∈ params.map encodePair, '#' ∉ s.toList := by
    intro s mem
    obtain ⟨p, there, rfl⟩ := List.mem_map.mp mem
    exact not_mem_hash_encodePair (words p there)
  rw [encodePairs]
  generalize params.map encodePair = ss at each
  induction ss with
  | nil => simp
  | cons s ss ih =>
      have first := each s List.mem_cons_self
      have others := ih fun t mem => each t (List.mem_cons_of_mem s mem)
      cases ss with
      | nil => rwa [String.intercalate_singleton]
      | cons t ts =>
          rw [String.intercalate_cons_cons, String.toList_append, String.toList_append,
            List.mem_append, List.mem_append, not_or, not_or]
          exact ⟨⟨first, by decide⟩, others⟩

/-- What stands in front of the token in a query. -/
def front (params : Params) : String :=
  (if encodePairs params = "" then "" else encodePairs params ++ "&") ++ tokenKey ++ "="

theorem query_some (params : Params) (token : String) :
    query params (some token) = front params ++ token := rfl

theorem not_mem_hash_front {params : Params} (words : ∀ p ∈ params, IsWord p.1) :
    '#' ∉ (front params).toList := by
  have pairs := not_mem_hash_encodePairs words
  rw [front]
  split <;> simp [pairs, tokenKey]

/-- Only the token can cut a query off, and it is itself what is cut off. -/
theorem queryOf_query {base : String} (plain : '?' ∉ base.toList) {params : Params}
    (words : ∀ p ∈ params, IsWord p.1) (token : String) :
    queryOf (base ++ "?" ++ query params (some token)) =
      query params (some (String.ofList (token.toList.takeWhile (· ≠ '#')))) := by
  have passed : ∀ c ∈ (front params).toList, decide (c ≠ '#') = true := by
    intro c mem
    exact decide_eq_true fun mark => not_mem_hash_front words (mark ▸ mem)
  rw [queryOf_append plain, query_some, query_some, String.toList_append,
    List.takeWhile_append_of_pos passed, String.ofList_append, String.ofList_toList]

theorem decodePair_append {key : String} (proper : IsKey key) (value : List Char) :
    decodePair (key.toList ++ '=' :: value) =
      (decode (String.ofList value)).map (key, ·) := by
  rw [decodePair, proper.takeWhile_append, proper.drop_dropWhile_append, String.ofList_toList,
    decode_of_bare proper.bare]
  cases decode (String.ofList value) <;> rfl

/-- Behind the parameters a query is read as what its token is read as. -/
theorem decodePairs_query_iff {params : Params} (words : ∀ p ∈ params, IsWord p.1)
    (token : String) (pairs : List (String × String)) :
    decodePairs (query params (some token)) = some (params ++ pairs) ↔
      (parts (tokenKey ++ "=" ++ token)).mapM decodePair = some pairs := by
  have proper : ∀ p ∈ params, IsKey p.1 := fun p mem => (words p mem).isKey
  rw [decodePairs_eq, parts_query_some, parts_encodePairs proper, List.mapM_append,
    mapM_decodePair proper]
  cases (parts (tokenKey ++ "=" ++ token)).mapM decodePair <;> simp

/-- The address of a call is read as its parameters and its token exactly if the token is read
as it stands. -/
theorem decodePairs_queryOf_iff {base : String} (plain : '?' ∉ base.toList) {params : Params}
    (words : ∀ p ∈ params, IsWord p.1) (token : String) :
    decodePairs (queryOf (base ++ "?" ++ query params (some token))) =
        some (params ++ [(tokenKey, token)]) ↔ Literal token := by
  rw [queryOf_query plain words, decodePairs_query_iff words]
  have parted := exists_parts_eq isKey_tokenKey (String.ofList (token.toList.takeWhile (· ≠ '#')))
  rw [String.toList_ofList] at parted
  obtain ⟨rest, written, whole⟩ := parted
  rw [written, List.mapM_cons, decodePair_append isKey_tokenKey]
  constructor
  · intro read
    -- What is read stands in front of the first `#` and of the first `&`.
    obtain ⟨p, first, read⟩ := Option.bind_eq_some_iff.mp read
    obtain ⟨others, -, all⟩ := Option.bind_eq_some_iff.mp read
    obtain ⟨rfl, -⟩ := List.cons.inj (Option.some.inj all)
    obtain ⟨value, value_read, same⟩ := Option.map_eq_some_iff.mp first
    obtain rfl : value = token := (Prod.mk.inj same).2
    have inFront : (value.toList.takeWhile (· ≠ '#')).takeWhile (· ≠ '&') <+: value.toList :=
      (List.takeWhile_prefix _).trans (List.takeWhile_prefix _)
    have untouched := eq_of_decode_prefix inFront value_read
    rw [untouched, String.ofList_toList, decode_eq_self_iff] at value_read
    refine ⟨fun c mem special => ?_, value_read.2⟩
    have first := untouched.symm ▸ mem
    have ampersand : c ≠ '&' := by simpa using List.mem_takeWhile_imp first
    have hash : c ≠ '#' := by
      simpa using List.mem_takeWhile_imp ((List.takeWhile_prefix _).subset first)
    simp only [List.mem_cons, List.not_mem_nil, or_false] at special
    rcases special with rfl | rfl | rfl
    · exact ampersand rfl
    · exact hash rfl
    · exact value_read.1 mem
  · rintro ⟨plainToken, free⟩
    have other : ∀ d ∈ ['&', '#', '+'], ∀ c ∈ token.toList, c ≠ d := by
      rintro d special c mem rfl
      exact plainToken c mem special
    have uncut : token.toList.takeWhile (· ≠ '#') = token.toList :=
      List.takeWhile_eq_self_iff.mpr fun c mem => by simpa using other '#' (by decide) c mem
    have undivided : token.toList.takeWhile (· ≠ '&') = token.toList :=
      List.takeWhile_eq_self_iff.mpr fun c mem => by simpa using other '&' (by decide) c mem
    have single : rest = [] := by
      apply whole
      rw [uncut]
      exact fun mem => other '&' (by decide) '&' mem rfl
    have read : decode token = some token :=
      (decode_eq_self_iff token).mpr ⟨fun mem => other '+' (by decide) '+' mem rfl, free⟩
    rw [single, uncut, undivided, String.ofList_toList, read]
    rfl

end PvrBackend.Text.Form
