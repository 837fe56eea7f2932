import PvrBackend.Json.Printer
import PvrBackend.Proofs.Json.Numbers

/-!
# Values are read back

Every value that was read can be written and read again. What comes back is the value,
apart from the last digits of its floating-point numbers: `blur` makes these the same, and
two values are taken for each other if their blurs are equal.

`Readable` holds of what reading gives: numbers are in range, the keys of an object ascend
and nesting is bounded. From it follows `ReadsBack`, one construct at a time and with any
text behind the value.
-/

namespace PvrBackend.Json

namespace Document

/-! ### Strings -/

/-- The characters with a short escape. -/
def lettered : List Char := ['"', '\\', '\x08', '\t', '\n', '\x0c', '\r']

/-- The step of a string that a written character is read as: control characters without
a short escape are written by their number. -/
def piece (c : Char) : Piece :=
  if c ∉ lettered ∧ c.toNat < 0x20 then .unit c.toNat else .char c

theorem hexUnit_hexDigits : ∀ n < 0x20,
    hexUnit '0' '0' (hexDigit (n / 16)) (hexDigit (n % 16)) = some n := by
  decide

theorem readPieces_escapeChar (c : Char) (rest : List Char) :
    readPieces (escapeChar c ++ rest) =
      (readPieces rest).map fun result => (piece c :: result.1, result.2) := by
  by_cases letter : c ∈ lettered
  · simp only [lettered, List.mem_cons, List.not_mem_nil, or_false] at letter
    rcases letter with rfl | rfl | rfl | rfl | rfl | rfl | rfl <;>
      cases read : readPieces rest <;> simp [escapeChar, readPieces, escaped, piece, lettered, read]
  · have plain := letter
    simp only [lettered, List.mem_cons, List.not_mem_nil, or_false, not_or] at plain
    obtain ⟨quote, backslash, h, t, n, f, r⟩ := plain
    by_cases control : c.toNat < 0x20
    · rw [piece, if_pos ⟨letter, control⟩]
      cases read : readPieces rest <;>
        simp [escapeChar, quote, backslash, h, t, n, f, r, control, readPieces, read,
          hexUnit_hexDigits _ control]
    · have written : escapeChar c = [c] := by
        simp [escapeChar, quote, backslash, h, t, n, f, r, control]
      rw [piece, if_neg (fun unit => control unit.2), written, List.singleton_append, readPieces]
      · cases readPieces rest <;> simp [control]
      all_goals simp [quote, backslash]

theorem readPieces_flatMap (cs rest : List Char) :
    readPieces (cs.flatMap escapeChar ++ '"' :: rest) = some (cs.map piece, rest) := by
  induction cs with
  | nil => rfl
  | cons c cs ih =>
      rw [List.flatMap_cons, List.append_assoc, readPieces_escapeChar, ih]
      rfl

/-- A number that is no half of a surrogate pair stands for its character alone. -/
theorem joinPieces_unit {n : Nat} (low : n < 0xD800) (rest : List Piece) :
    joinPieces (.unit n :: rest) = (joinPieces rest).map (Char.ofNat n :: ·) := by
  have high : isHigh n = false := by simp [isHigh, low]
  have second : isLow n = false := by
    simp only [isLow, Bool.and_eq_false_iff, decide_eq_false_iff_not]
    omega
  rw [joinPieces.eq_def]
  split <;> simp_all

theorem joinPieces_map_piece (cs : List Char) : joinPieces (cs.map piece) = some cs := by
  induction cs with
  | nil => rfl
  | cons c cs ih =>
      rw [List.map_cons, piece]
      split
      next control =>
        rw [joinPieces_unit (by omega), ih, Char.ofNat_toNat]
        rfl
      next => rw [joinPieces, ih, Option.map_some]

/-- A string is read back. -/
theorem readString_quoted (s : String) (rest : List Char) :
    readString (s.toList.flatMap escapeChar ++ '"' :: rest) = some (some s, rest) := by
  rw [readString, readPieces_flatMap, Option.map_some]
  dsimp only
  rw [joinPieces_map_piece, Option.map_some, String.ofList_toList]

/-! ### The readers of each construct -/

theorem skipSpace_cons {c : Char} (visible : isSpace c = false) (cs : List Char) :
    skipSpace (c :: cs) = c :: cs :=
  List.dropWhile_cons_of_neg (by simp [visible])

theorem readValue_quote (fuel : Nat) (cs : List Char) : readValue (fuel + 1) ('"' :: cs) =
    (readString cs).bind fun read => some (.string read.1, read.2) := rfl

theorem readValue_items (fuel : Nat) {c : Char} (visible : isSpace c = false) (item : c ≠ ']')
    (cs : List Char) : readValue (fuel + 1) ('[' :: c :: cs) =
    (readItems fuel (c :: cs)).bind fun read => some (.array read.1, read.2) := by
  have opened : skipSpace ('[' :: c :: cs) = '[' :: c :: cs := skipSpace_cons (by decide) _
  rw [readValue, opened]
  split
  case h_5 rest same =>
    obtain rfl : c :: cs = rest := (List.cons.inj same).2
    rw [skipSpace_cons visible]
    split
    next closing => exact absurd (List.cons.inj closing).1 item
    next => rfl
  case h_7 others _ => exact absurd rfl (others (c :: cs))
  -- Whatever else a value starts with is no bracket.
  all_goals
    next other => simp at other

theorem readValue_members (fuel : Nat) (cs : List Char) : readValue (fuel + 1) ('{' :: '"' :: cs) =
    (readMembers fuel ('"' :: cs)).bind fun read => some (.object read.1, read.2) := rfl

theorem readItems_last {fuel : Nat} {cs rest : List Char} {item : Document}
    (read : readValue fuel cs = some (item, ']' :: rest)) :
    readItems (fuel + 1) cs = some ([item], rest) := by
  rw [readItems, read]
  rfl

theorem readItems_more {fuel : Nat} {cs rest rest' : List Char} {item : Document}
    {items : List Document} (read : readValue fuel cs = some (item, ',' :: rest))
    (more : readItems fuel rest = some (items, rest')) :
    readItems (fuel + 1) cs = some (item :: items, rest') := by
  rw [readItems, read]
  change (readItems fuel rest).bind (fun more => some (item :: more.1, more.2)) = _
  rw [more]
  rfl

theorem quote_append (s : String) (rest : List Char) :
    quote s ++ rest = '"' :: (s.toList.flatMap escapeChar ++ '"' :: rest) := by
  rw [quote, List.cons_append, List.cons_append, List.append_assoc]
  rfl

theorem readValue_quoted (fuel : Nat) (s : String) (rest : List Char) :
    readValue (fuel + 1) (quote s ++ rest) = some (.string (some s), rest) := by
  rw [quote_append, readValue_quote, readString_quoted]
  rfl

/-- A member after its key. -/
theorem readMembers_quoted (fuel : Nat) (key : String) (cs : List Char) :
    readMembers (fuel + 1) (quote key ++ ':' :: cs) =
      (readValue fuel cs).bind fun value => match skipSpace value.2 with
        | ',' :: rest =>
          (readMembers fuel rest).bind fun more => some ((some key, value.1) :: more.1, more.2)
        | '}' :: rest => some ([(some key, value.1)], rest)
        | _ => none := by
  rw [quote_append]
  change (readString (key.toList.flatMap escapeChar ++ '"' :: ':' :: cs)).bind _ = _
  rw [readString_quoted]
  rfl

theorem readMembers_last {fuel : Nat} {cs rest : List Char} {value : Document} (key : String)
    (read : readValue fuel cs = some (value, '}' :: rest)) :
    readMembers (fuel + 1) (quote key ++ ':' :: cs) = some ([(some key, value)], rest) := by
  rw [readMembers_quoted, read]
  rfl

theorem readMembers_more {fuel : Nat} {cs rest rest' : List Char} {value : Document}
    {members : List (Option String × Document)} (key : String)
    (read : readValue fuel cs = some (value, ',' :: rest))
    (more : readMembers fuel rest = some (members, rest')) :
    readMembers (fuel + 1) (quote key ++ ':' :: cs) =
      some ((some key, value) :: members, rest') := by
  rw [readMembers_quoted, read]
  change (readMembers fuel rest).bind
    (fun more => some ((some key, value) :: more.1, more.2)) = _
  rw [more]
  rfl

/-- How a literal starts, which is how no other value does. -/
def StartsNumber (c : Char) : Prop := c = '-' ∨ c.isDigit = true

instance (c : Char) : Decidable (StartsNumber c) :=
  inferInstanceAs (Decidable (c = '-' ∨ c.isDigit = true))

theorem StartsNumber.visible {c : Char} (start : StartsNumber c) : isSpace c = false := by
  refine Bool.eq_false_iff.mpr fun space => ?_
  simp only [isSpace, Bool.or_eq_true, beq_iff_eq] at space
  rcases space with ((rfl | rfl) | rfl) | rfl <;> exact absurd start (by decide)

theorem exists_chars_eq_cons {l : Literal} (proper : l.Proper) :
    ∃ c cs, l.chars = c :: cs ∧ StartsNumber c := by
  obtain ⟨d, ds, whole⟩ := List.exists_cons_of_ne_nil proper.whole.ne_nil
  rw [Literal.chars]
  cases l.negative with
  | true => exact ⟨'-', _, rfl, .inl rfl⟩
  | false =>
      refine ⟨d, _, by rw [whole]; rfl, .inr ?_⟩
      exact proper.whole.all d (whole ▸ List.mem_cons_self)

theorem readValue_literal (fuel : Nat) {l : Literal} (proper : l.Proper) {rest : List Char}
    (ends : Ends rest) : readValue (fuel + 1) (l.chars ++ rest) = some (.number l, rest) := by
  have read := readLiteral_chars proper ends
  obtain ⟨c, cs, written, start⟩ := exists_chars_eq_cons proper
  rw [written, List.cons_append] at read ⊢
  rw [readValue, skipSpace_cons start.visible]
  split
  case h_7 => rw [read]; rfl
  all_goals
    next other =>
      obtain rfl := (List.cons.inj other).1
      exact absurd start (by decide)

end Document

/-! ### Values that are read back -/

/-- The values that can be read: numbers in range, objects in order, nested no deeper than
a bound. -/
inductive Readable : Nat → Json → Prop where
  | null {depth : Nat} : Readable depth .null
  | bool {depth : Nat} (b : Bool) : Readable depth (.bool b)
  | number {depth : Nat} {n : Number} (range : n.InRange) : Readable depth (.number n)
  | string {depth : Nat} (s : String) : Readable depth (.string s)
  | array {depth : Nat} {items : List Json} (readable : ∀ j ∈ items, Readable depth j) :
      Readable (depth + 1) (.array items)
  | object {depth : Nat} {members : List (String × Json)} (ascending : Table.Ascending members)
      (readable : ∀ m ∈ members, Readable depth m.2) : Readable (depth + 1) (.object members)

mutual

/-- A value with all floating-point numbers in it made the same. -/
def blur : Json → Json
  | .null => .null
  | .bool b => .bool b
  | .number n => .number n.blur
  | .string s => .string s
  | .array items => .array (blurItems items)
  | .object members => .object (blurMembers members)

/-- The items of an array, blurred. -/
def blurItems : List Json → List Json
  | [] => []
  | j :: js => blur j :: blurItems js

/-- The members of an object, blurred. -/
def blurMembers : List (String × Json) → List (String × Json)
  | [] => []
  | (key, j) :: ms => (key, blur j) :: blurMembers ms

end

theorem blurMembers_eq_map (members : List (String × Json)) :
    blurMembers members = members.map fun m => (m.1, m.2.blur) := by
  induction members with
  | nil => rw [blurMembers, List.map_nil]
  | cons m ms ih => rw [blurMembers, ih, List.map_cons]

/-- Equally blurred members have the same keys. -/
theorem keys_eq_of_blurMembers_eq {members members' : List (String × Json)}
    (same : blurMembers members' = blurMembers members) :
    members'.map (·.1) = members.map (·.1) := by
  have keys := congrArg (List.map Prod.fst) same
  simpa only [blurMembers_eq_map, List.map_map, Function.comp_def] using keys

/-- Reading the text of a value gives it back, up to the last digits of its
floating-point numbers. -/
def ReadsBack (depth : Nat) (j : Json) : Prop :=
  ∀ fuel rest, (chars j).length ≤ fuel → Ends rest →
    ∃ document, Document.readValue fuel (chars j ++ rest) = some (document, rest) ∧
      ∃ j', document.value? depth = some j' ∧ j'.blur = j.blur

theorem exists_chars {depth : Nat} {j : Json} (readable : Readable depth j) :
    ∃ c cs, chars j = c :: cs ∧ Document.isSpace c = false ∧ c ≠ ']' := by
  cases readable with
  | null => exact ⟨'n', _, rfl, by decide, by decide⟩
  | bool b => cases b <;> exact ⟨_, _, rfl, by decide, by decide⟩
  | string s => exact ⟨'"', _, rfl, by decide, by decide⟩
  | array => exact ⟨'[', _, by rw [chars], by decide, by decide⟩
  | object => exact ⟨'{', _, by rw [chars], by decide, by decide⟩
  | @number _ n range =>
      obtain ⟨l, proper, written, -⟩ := n.exists_literal range
      obtain ⟨c, cs, first, start⟩ := Document.exists_chars_eq_cons proper
      refine ⟨c, cs, by rw [chars, written, first], start.visible, ?_⟩
      rintro rfl
      exact absurd start (by decide)

section Composite

variable {depth : Nat}

/-- Items that are read back one by one are read back together. -/
theorem readItems_itemChars {j : Json} {js : List Json} (back : ∀ i ∈ j :: js, ReadsBack depth i)
    {fuel : Nat} (enough : (itemChars (j :: js)).length ≤ fuel) (rest : List Char) :
    ∃ documents, Document.readItems fuel (itemChars (j :: js) ++ rest) = some (documents, rest) ∧
      ∃ items, Document.values? depth documents = some items ∧
        blurItems items = blurItems (j :: js) := by
  induction js generalizing j fuel with
  | nil =>
      rw [itemChars, List.length_append, List.length_singleton] at enough
      obtain ⟨fuel, rfl⟩ := Nat.exists_eq_add_one_of_ne_zero (by omega : fuel ≠ 0)
      obtain ⟨document, read, j', value, same⟩ :=
        back j List.mem_cons_self fuel (']' :: rest) (by omega) (.bracket rest)
      refine ⟨[document], ?_, [j'], ?_, ?_⟩
      · rw [itemChars, List.append_assoc]
        exact Document.readItems_last read
      · simp [Document.values?, value]
      · simp [blurItems, same]
  | cons k ks ih =>
      have written : itemChars (j :: k :: ks) = chars j ++ ',' :: itemChars (k :: ks) := by
        rw [itemChars]
        nofun
      rw [written, List.length_append, List.length_cons] at enough
      obtain ⟨fuel, rfl⟩ := Nat.exists_eq_add_one_of_ne_zero (by omega : fuel ≠ 0)
      obtain ⟨document, read, j', value, same⟩ := back j List.mem_cons_self fuel
        (',' :: (itemChars (k :: ks) ++ rest)) (by omega) (.comma _)
      obtain ⟨documents, more, items, values, same'⟩ :=
        ih (fun i member => back i (List.mem_cons_of_mem j member)) (by omega : _ ≤ fuel)
      refine ⟨document :: documents, ?_, j' :: items, ?_, ?_⟩
      · rw [written, List.append_assoc]
        exact Document.readItems_more read more
      · simp [Document.values?, value, values]
      · rw [blurItems, blurItems, same, same']

/-- Members whose values are read back are read back together. -/
theorem readMembers_memberChars {m : String × Json} {ms : List (String × Json)}
    (back : ∀ n ∈ m :: ms, ReadsBack depth n.2) {fuel : Nat}
    (enough : (memberChars (m :: ms)).length ≤ fuel) (rest : List Char) :
    ∃ documents,
      Document.readMembers fuel (memberChars (m :: ms) ++ rest) = some (documents, rest) ∧
      ∃ members, Document.members? depth documents = some members ∧
        blurMembers members = blurMembers (m :: ms) := by
  induction ms generalizing m fuel with
  | nil =>
      obtain ⟨key, j⟩ := m
      rw [memberChars, List.length_append, List.length_append, List.length_cons,
        List.length_singleton] at enough
      obtain ⟨fuel, rfl⟩ := Nat.exists_eq_add_one_of_ne_zero (by omega : fuel ≠ 0)
      obtain ⟨document, read, j', value, same⟩ :=
        back _ List.mem_cons_self fuel ('}' :: rest) (by dsimp only; omega) (.brace rest)
      refine ⟨[(some key, document)], ?_, [(key, j')], ?_, ?_⟩
      · rw [memberChars, List.append_assoc, List.append_assoc, List.cons_append]
        exact Document.readMembers_last key read
      · simp [Document.members?, value]
      · simp [blurMembers, same]
  | cons n ns ih =>
      obtain ⟨key, j⟩ := m
      have written : memberChars ((key, j) :: n :: ns) =
          quote key ++ ':' :: (chars j ++ ',' :: memberChars (n :: ns)) := by
        rw [memberChars, List.append_assoc, List.cons_append]
        nofun
      rw [written, List.length_append, List.length_cons, List.length_append,
        List.length_cons] at enough
      obtain ⟨fuel, rfl⟩ := Nat.exists_eq_add_one_of_ne_zero (by omega : fuel ≠ 0)
      obtain ⟨document, read, j', value, same⟩ := back _ List.mem_cons_self fuel
        (',' :: (memberChars (n :: ns) ++ rest)) (by dsimp only; omega) (.comma _)
      obtain ⟨documents, more, members, values, same'⟩ :=
        ih (fun i member => back i (List.mem_cons_of_mem _ member)) (by omega : _ ≤ fuel)
      refine ⟨(some key, document) :: documents, ?_, (key, j') :: members, ?_, ?_⟩
      · rw [written, List.append_assoc, List.cons_append, List.append_assoc]
        exact Document.readMembers_more key read more
      · simp [Document.members?, value, values]
      · rw [blurMembers, blurMembers, same, same']

end Composite

theorem ofMembers_of_ascending {members : List (String × Json)}
    (ascending : Table.Ascending members) : ofMembers members = .object members := by
  rw [ofMembers, ascending.foldl_put_nil]

theorem ascending_of_blurMembers_eq {members members' : List (String × Json)}
    (same : blurMembers members' = blurMembers members) (ascending : Table.Ascending members) :
    Table.Ascending members' := by
  have keys := keys_eq_of_blurMembers_eq same
  have ordered : (members.map (·.1)).Pairwise fun a b => compare a b = .lt :=
    List.pairwise_map.mpr ascending
  rw [← keys] at ordered
  exact List.pairwise_map.mp ordered

/-- Some step of reading is always left for a value. -/
theorem readsBack_of_succ {depth : Nat} {j : Json} (readable : Readable depth j)
    (back : ∀ fuel rest, (chars j).length ≤ fuel + 1 → Ends rest →
      ∃ document, Document.readValue (fuel + 1) (chars j ++ rest) = some (document, rest) ∧
        ∃ j', document.value? depth = some j' ∧ j'.blur = j.blur) : ReadsBack depth j := by
  intro fuel rest enough ends
  obtain ⟨c, cs, first, -⟩ := exists_chars readable
  cases fuel with
  | zero =>
      rw [first] at enough
      cases enough
  | succ fuel => exact back fuel rest enough ends

theorem exists_itemChars (j : Json) (js : List Json) :
    ∃ more, itemChars (j :: js) = chars j ++ more := by
  cases js with
  | nil => exact ⟨_, by rw [itemChars]⟩
  | cons => exact ⟨_, by rw [itemChars]; nofun⟩

theorem exists_memberChars (m : String × Json) (ms : List (String × Json)) :
    ∃ more, memberChars (m :: ms) = quote m.1 ++ more := by
  cases ms with
  | nil => exact ⟨_, by rw [memberChars, List.append_assoc]⟩
  | cons => exact ⟨_, by rw [memberChars, List.append_assoc]; nofun⟩

theorem readsBack_array {depth : Nat} {items : List Json} (readable : ∀ j ∈ items, Readable depth j)
    (back : ∀ j ∈ items, ReadsBack depth j) : ReadsBack (depth + 1) (.array items) := by
  refine readsBack_of_succ (.array readable) fun fuel rest enough _ => ?_
  rw [chars, List.length_cons] at enough
  cases items with
  | nil => exact ⟨.array [], rfl, .array [], rfl, rfl⟩
  | cons j js =>
      obtain ⟨documents, read, items', values, same⟩ :=
        readItems_itemChars back (by omega : _ ≤ fuel) rest
      obtain ⟨c, cs, first, visible, item⟩ := exists_chars (readable j List.mem_cons_self)
      refine ⟨.array documents, ?_, .array items', ?_, ?_⟩
      · obtain ⟨cs', written⟩ : ∃ cs', itemChars (j :: js) ++ rest = c :: cs' := by
          obtain ⟨more, items⟩ := exists_itemChars j js
          exact ⟨_, by rw [items, first, List.append_assoc, List.cons_append]⟩
        rw [written] at read
        rw [chars, List.cons_append, written, Document.readValue_items fuel visible item, read]
        rfl
      · rw [Document.value?, values]
        rfl
      · rw [blur, blur, same]

/-- An object is read back member by member, whatever the order of its keys. -/
theorem readValue_object {depth : Nat} {members : List (String × Json)}
    (back : ∀ m ∈ members, ReadsBack depth m.2) {fuel : Nat}
    (enough : (memberChars members).length ≤ fuel) (rest : List Char) :
    ∃ documents, Document.readValue (fuel + 1) (chars (.object members) ++ rest) =
        some (.object documents, rest) ∧
      ∃ members', Document.members? depth documents = some members' ∧
        blurMembers members' = blurMembers members := by
  cases members with
  | nil => exact ⟨[], rfl, [], rfl, rfl⟩
  | cons m ms =>
      obtain ⟨documents, read, members', values, same⟩ := readMembers_memberChars back enough rest
      refine ⟨documents, ?_, members', values, same⟩
      obtain ⟨more, written⟩ := exists_memberChars m ms
      rw [written, List.append_assoc, Document.quote_append] at read
      rw [chars, List.cons_append, written, List.append_assoc, Document.quote_append,
        Document.readValue_members, read]
      rfl

theorem readsBack_object {depth : Nat} {members : List (String × Json)}
    (ascending : Table.Ascending members) (readable : ∀ m ∈ members, Readable depth m.2)
    (back : ∀ m ∈ members, ReadsBack depth m.2) : ReadsBack (depth + 1) (.object members) := by
  refine readsBack_of_succ (.object ascending readable) fun fuel rest enough _ => ?_
  rw [chars, List.length_cons] at enough
  obtain ⟨documents, read, members', values, same⟩ :=
    readValue_object back (Nat.le_of_succ_le_succ enough) rest
  refine ⟨.object documents, read, .object members', ?_, ?_⟩
  · rw [Document.value?, values, Option.map_some,
      ofMembers_of_ascending (ascending_of_blurMembers_eq same ascending)]
  · rw [blur, blur, same]

/-- Every value that can be read is read back from its text. -/
theorem Readable.readsBack {depth : Nat} {j : Json} (readable : Readable depth j) :
    ReadsBack depth j := by
  induction readable with
  | null => exact readsBack_of_succ .null fun fuel rest _ _ => ⟨.null, rfl, .null, rfl, rfl⟩
  | bool b =>
      refine readsBack_of_succ (.bool b) fun fuel rest _ _ => ⟨.bool b, ?_, .bool b, rfl, rfl⟩
      cases b <;> rfl
  | @number depth n range =>
      refine readsBack_of_succ (.number range) fun fuel rest _ ends => ?_
      obtain ⟨l, proper, written, n', number, same⟩ := n.exists_literal range
      refine ⟨.number l, ?_, .number n', ?_, ?_⟩
      · rw [chars, written, Document.readValue_literal fuel proper ends]
      · rw [Document.value?, number]
        rfl
      · rw [blur, blur, same]
  | string s =>
      refine readsBack_of_succ (.string s) fun fuel rest _ _ => ?_
      exact ⟨.string (some s), Document.readValue_quoted fuel s rest, .string s, rfl, rfl⟩
  | array readable back => exact readsBack_array readable back
  | object ascending readable back => exact readsBack_object ascending readable back

/-- The members of an object are read back in the order in which they are written. -/
theorem readMembers_renderMembers {members : List (String × Json)}
    (readable : ∀ m ∈ members, Readable (depthLimit - 1) m.2) :
    ∃ members', readMembers (renderMembers members) = some members' ∧
      blurMembers members' = blurMembers members := by
  have written : (renderMembers members).toList = chars (.object members) := String.toList_ofList
  have enough : (memberChars members).length ≤ 2 * (chars (.object members)).length + 1 := by
    rw [chars, List.length_cons]
    omega
  obtain ⟨documents, read, members', values, same⟩ :=
    readValue_object (fun m member => (readable m member).readsBack) enough []
  refine ⟨members', ?_, same⟩
  have document : Document.read (renderMembers members) = some (.object documents) := by
    rw [List.append_nil] at read
    rw [Document.read, written]
    dsimp only
    rw [read]
    rfl
  rw [readMembers, document]
  exact values

/-! ### Everything that is read can be read back -/

theorem readable_ofMembers {depth : Nat} {members : List (String × Json)}
    (readable : ∀ m ∈ members, Readable depth m.2) : Readable (depth + 1) (ofMembers members) := by
  refine .object (Table.Ascending.foldl_put List.Pairwise.nil members) fun m member => ?_
  rcases Table.mem_foldl_put member with none | member
  · cases none
  · exact readable m member

mutual

theorem Document.readable_of_value? {depth : Nat} {j : Json} :
    ∀ {d : Document}, d.value? depth = some j → Readable depth j
  | .null, read => by
      obtain rfl := Option.some.inj read
      exact .null
  | .bool b, read => by
      obtain rfl := Option.some.inj read
      exact .bool b
  | .number l, read => by
      obtain ⟨n, number, rfl⟩ := Option.map_eq_some_iff.mp read
      exact .number (Literal.inRange_of_number? number)
  | .string s, read => by
      obtain ⟨s, -, rfl⟩ := Option.map_eq_some_iff.mp read
      exact .string s
  | .array ds, read => by
      cases depth with
      | zero => cases read
      | succ depth =>
          obtain ⟨items, values, rfl⟩ := Option.map_eq_some_iff.mp read
          exact .array (Document.readable_of_values? values)
  | .object ds, read => by
      cases depth with
      | zero => cases read
      | succ depth =>
          obtain ⟨members, values, rfl⟩ := Option.map_eq_some_iff.mp read
          exact readable_ofMembers (Document.readable_of_members? values)

theorem Document.readable_of_values? {depth : Nat} {items : List Json} :
    ∀ {ds : List Document}, Document.values? depth ds = some items →
      ∀ j ∈ items, Readable depth j
  | [], read, j, member => by
      obtain rfl := Option.some.inj read
      cases member
  | d :: ds, read, j, member => by
      rw [Document.values?] at read
      obtain ⟨value, first, rest⟩ := Option.bind_eq_some_iff.mp read
      obtain ⟨values, others, result⟩ := Option.bind_eq_some_iff.mp rest
      obtain rfl := Option.some.inj result
      rcases List.mem_cons.mp member with rfl | member
      · exact Document.readable_of_value? first
      · exact Document.readable_of_values? others j member

theorem Document.readable_of_members? {depth : Nat} {members : List (String × Json)} :
    ∀ {ds : List (Option String × Document)}, Document.members? depth ds = some members →
      ∀ m ∈ members, Readable depth m.2
  | [], read, m, member => by
      obtain rfl := Option.some.inj read
      cases member
  | (key, d) :: ds, read, m, member => by
      rw [Document.members?] at read
      obtain ⟨key, -, rest⟩ := Option.bind_eq_some_iff.mp read
      obtain ⟨value, first, rest⟩ := Option.bind_eq_some_iff.mp rest
      obtain ⟨values, others, result⟩ := Option.bind_eq_some_iff.mp rest
      obtain rfl := Option.some.inj result
      rcases List.mem_cons.mp member with rfl | member
      · exact Document.readable_of_value? first
      · exact Document.readable_of_members? others m member

end

theorem readable_of_read {s : String} {j : Json} (read : Json.read s = some j) :
    Readable depthLimit j := by
  obtain ⟨document, -, value⟩ := Option.bind_eq_some_iff.mp read
  exact Document.readable_of_value? value

theorem readable_of_readMembers {s : String} {members : List (String × Json)}
    (read : readMembers s = some members) : ∀ m ∈ members, Readable (depthLimit - 1) m.2 := by
  rw [readMembers] at read
  split at read
  · exact Document.readable_of_members? read
  · cases read

theorem Readable.members {depth : Nat} {members : List (String × Json)}
    (readable : Readable (depth + 1) (.object members)) : ∀ m ∈ members, Readable depth m.2 := by
  cases readable with
  | object _ readable => exact readable

/-- The object under a key has its members in ascending order. -/
theorem Readable.ascending_at {depth : Nat} {root : Json} (readable : Readable depth root)
    (key : String) : Table.Ascending (((root.get? key).bind Json.members?).getD []) := by
  cases found : root.get? key with
  | none => exact List.Pairwise.nil
  | some inner =>
      cases readable with
      | object _ readable =>
          cases readable _ (Table.mem_of_look found) with
          | object ascending _ => exact ascending
          | _ => exact List.Pairwise.nil
      | _ => cases found

/-! ### What blurring keeps -/

theorem eq_int_of_blur_eq {j : Json} {n : Int} (same : j.blur = .int n) : j = .int n := by
  match j with
  | .number (.int m) => exact same
  | .number (.float x) => cases same
  | .null | .bool _ | .string _ => cases same
  | .array _ | .object _ =>
      rw [blur] at same
      cases same

theorem eq_string_of_blur_eq {j : Json} {s : String} (same : j.blur = .string s) :
    j = .string s := by
  match j with
  | .string t => exact same
  | .null | .bool _ | .number _ => cases same
  | .array _ | .object _ =>
      rw [blur] at same
      cases same

/-! ### Values without floating-point numbers -/

/-- The values in which all numbers are whole. -/
inductive Whole : Json → Prop where
  | null : Whole .null
  | bool (b : Bool) : Whole (.bool b)
  | int (n : Int) : Whole (.number (.int n))
  | string (s : String) : Whole (.string s)
  | array {items : List Json} (whole : ∀ j ∈ items, Whole j) : Whole (.array items)
  | object {members : List (String × Json)} (whole : ∀ m ∈ members, Whole m.2) :
      Whole (.object members)

theorem blurItems_eq_map (items : List Json) : blurItems items = items.map blur := by
  induction items with
  | nil => rw [blurItems, List.map_nil]
  | cons j js ih => rw [blurItems, ih, List.map_cons]

/-- A list is known by its images if each of its items is known by its own. -/
theorem eq_of_map_eq {α β : Type} {f : α → β} {xs xs' : List α}
    (known : ∀ x ∈ xs, ∀ x', f x' = f x → x' = x) (same : xs'.map f = xs.map f) : xs' = xs := by
  induction xs generalizing xs' with
  | nil => exact List.map_eq_nil_iff.mp same
  | cons x xs ih =>
      obtain ⟨x', rest', rfl, first, rest⟩ := List.map_eq_cons_iff.mp same
      rw [known x List.mem_cons_self x' first,
        ih (fun y member => known y (List.mem_cons_of_mem x member)) rest]

/-- Members are known by what blurring leaves of them if each of their values is. -/
theorem eq_of_blurMembers_eq {members members' : List (String × Json)}
    (known : ∀ m ∈ members, ∀ {j' : Json}, j'.blur = m.2.blur → j' = m.2)
    (same : blurMembers members' = blurMembers members) : members' = members := by
  rw [blurMembers_eq_map, blurMembers_eq_map] at same
  refine eq_of_map_eq (fun m member m' blurred => ?_) same
  obtain ⟨key, value⟩ := Prod.mk.inj blurred
  exact Prod.ext key (known m member value)

/-- Blurring tells values apart in which all numbers are whole. -/
theorem Whole.eq_of_blur_eq {j : Json} (whole : Whole j) :
    ∀ {j' : Json}, j'.blur = j.blur → j' = j := by
  induction whole with
  | null =>
      intro j' same
      cases j' with
      | null => rfl
      | _ => simp [blur] at same
  | bool b =>
      intro j' same
      cases j' with
      | bool => simpa [blur] using same
      | _ => simp [blur] at same
  | int n => exact eq_int_of_blur_eq
  | string s => exact eq_string_of_blur_eq
  | array _ known =>
      intro j' same
      cases j' with
      | array items' =>
          rw [blur, blur, array.injEq, blurItems_eq_map, blurItems_eq_map] at same
          rw [eq_of_map_eq (fun j member _ => known j member) same]
      | _ => simp [blur] at same
  | object _ known =>
      intro j' same
      cases j' with
      | object members' =>
          rw [blur, blur, object.injEq] at same
          rw [eq_of_blurMembers_eq (fun m member => known m member) same]
      | _ => simp [blur] at same

/-- A value in which all numbers are whole is read back from its text as it was. -/
theorem Whole.read_render {j : Json} (whole : Whole j) (readable : Readable depthLimit j) :
    read j.render = some j := by
  have written : j.render.toList = chars j := String.toList_ofList
  obtain ⟨document, found, j', value, same⟩ :=
    readable.readsBack (2 * (chars j).length + 2) [] (by omega) .nil
  rw [List.append_nil] at found
  have document : Document.read j.render = some document := by
    rw [Document.read, written]
    dsimp only
    rw [found]
    rfl
  rw [read, document, Option.bind_some, value, whole.eq_of_blur_eq same]

end PvrBackend.Json
