import PvrBackend.Proofs.Json.Values

/-!
# Objects laid out in lines

An object with a member a line is read like one without white space: the reader skips the line
breaks and the indentation in front of a key, the space behind a colon and the line break in front
of the closing brace. A value may so be followed by the end of a line, which ends a number like a
comma does.
-/

namespace PvrBackend.Json

namespace Document

theorem skipSpace_space {c : Char} (space : isSpace c = true) (cs : List Char) :
    skipSpace (c :: cs) = skipSpace cs :=
  List.dropWhile_cons_of_pos space

theorem readValue_space {c : Char} (space : isSpace c = true) (fuel : Nat) (cs : List Char) :
    readValue fuel (c :: cs) = readValue fuel cs := by
  cases fuel with
  | zero => rfl
  | succ fuel => rw [readValue, readValue, skipSpace_space space]

theorem readMembers_space {c : Char} (space : isSpace c = true) (fuel : Nat) (cs : List Char) :
    readMembers fuel (c :: cs) = readMembers fuel cs := by
  cases fuel with
  | zero => rfl
  | succ fuel => rw [readMembers, readMembers, skipSpace_space space]

/-- White space behind the value of the last member is skipped. -/
theorem readMembers_last_space {fuel : Nat} {c : Char} (space : isSpace c = true)
    {cs rest : List Char} {value : Document} (key : String)
    (read : readValue fuel cs = some (value, c :: '}' :: rest)) :
    readMembers (fuel + 1) (quote key ++ ':' :: cs) = some ([(some key, value)], rest) := by
  rw [readMembers_quoted, read, Option.bind_some]
  dsimp only
  rw [skipSpace_space space]
  rfl

theorem readValue_lines (fuel : Nat) (cs : List Char) :
    readValue (fuel + 1) ('{' :: '\n' :: ' ' :: ' ' :: '"' :: cs) =
      (readMembers fuel ('\n' :: ' ' :: ' ' :: '"' :: cs)).bind
        fun read => some (.object read.1, read.2) := rfl

end Document

/-- A member on its line. -/
def lineChars (m : String × Json) : List Char :=
  ' ' :: ' ' :: (quote m.1 ++ ':' :: ' ' :: chars m.2)

/-- Members on their lines, up to the closing brace. -/
def linesChars (members : List (String × Json)) : List Char :=
  [',', '\n'].intercalate (members.map lineChars) ++ ['\n', '}']

theorem linesChars_singleton (m : String × Json) : linesChars [m] = lineChars m ++ ['\n', '}'] := by
  rw [linesChars, List.map_singleton, List.intercalate_singleton]

theorem linesChars_cons_cons (m n : String × Json) (ms : List (String × Json)) :
    linesChars (m :: n :: ms) = lineChars m ++ ',' :: '\n' :: linesChars (n :: ms) := by
  rw [linesChars, List.map_cons, List.map_cons, List.intercalate_cons_cons, linesChars,
    ← List.map_cons, List.append_assoc, List.append_assoc]
  rfl

theorem exists_linesChars (m : String × Json) (ms : List (String × Json)) :
    ∃ cs, linesChars (m :: ms) = ' ' :: ' ' :: '"' :: cs := by
  cases ms with
  | nil => exact ⟨_, linesChars_singleton m⟩
  | cons n ns => exact ⟨_, linesChars_cons_cons m n ns⟩

theorem toList_renderLines (members : List (String × Json)) :
    (renderLines members).toList = '{' :: '\n' :: linesChars members := by
  have each : (fun m : String × Json =>
      ("  " ++ String.ofList (quote m.1 ++ ": ".toList ++ chars m.2)).toList) = lineChars := by
    funext m
    simp [lineChars]
  rw [renderLines, String.toList_append, String.toList_append, String.toList_intercalate,
    List.map_map, Function.comp_def, each]
  rfl

theorem readMembers_lineChars (fuel : Nat) (m : String × Json) (rest : List Char) :
    Document.readMembers fuel (lineChars m ++ rest) =
      Document.readMembers fuel (quote m.1 ++ ':' :: ' ' :: (chars m.2 ++ rest)) := by
  have written : lineChars m ++ rest =
      ' ' :: ' ' :: (quote m.1 ++ ':' :: ' ' :: (chars m.2 ++ rest)) := by
    simp [lineChars]
  rw [written, Document.readMembers_space rfl, Document.readMembers_space rfl]

/-- Members whose values are read back are read back line by line. -/
theorem readMembers_linesChars {depth : Nat} {m : String × Json} {ms : List (String × Json)}
    (back : ∀ n ∈ m :: ms, ReadsBack depth n.2) {fuel : Nat}
    (enough : (linesChars (m :: ms)).length ≤ fuel) :
    ∃ documents, Document.readMembers fuel (linesChars (m :: ms)) = some (documents, []) ∧
      ∃ members, Document.members? depth documents = some members ∧
        blurMembers members = blurMembers (m :: ms) := by
  induction ms generalizing m fuel with
  | nil =>
      obtain ⟨key, j⟩ := m
      rw [linesChars_singleton] at enough ⊢
      simp only [lineChars, List.length_append, List.length_cons] at enough
      obtain ⟨fuel, rfl⟩ := Nat.exists_eq_add_one_of_ne_zero (by omega : fuel ≠ 0)
      obtain ⟨document, read, j', value, same⟩ :=
        back _ List.mem_cons_self fuel ['\n', '}'] (by dsimp only; omega) (.line ['}'])
      refine ⟨[(some key, document)], ?_, [(key, j')], ?_, ?_⟩
      · rw [readMembers_lineChars]
        apply Document.readMembers_last_space (c := '\n') rfl
        rwa [Document.readValue_space rfl]
      · simp [Document.members?, value]
      · simp [blurMembers, same]
  | cons n ns ih =>
      obtain ⟨key, j⟩ := m
      rw [linesChars_cons_cons] at enough ⊢
      simp only [lineChars, List.length_append, List.length_cons] at enough
      obtain ⟨fuel, rfl⟩ := Nat.exists_eq_add_one_of_ne_zero (by omega : fuel ≠ 0)
      obtain ⟨document, read, j', value, same⟩ := back _ List.mem_cons_self fuel
        (',' :: '\n' :: linesChars (n :: ns)) (by dsimp only; omega) (.comma _)
      obtain ⟨documents, more, members, values, same'⟩ :=
        ih (fun i member => back i (List.mem_cons_of_mem _ member)) (by omega : _ ≤ fuel)
      refine ⟨(some key, document) :: documents, ?_, (key, j') :: members, ?_, ?_⟩
      · have others : Document.readMembers fuel ('\n' :: linesChars (n :: ns)) =
            some (documents, []) := by
          rwa [Document.readMembers_space rfl]
        rw [readMembers_lineChars]
        refine Document.readMembers_more key ?_ others
        rwa [Document.readValue_space rfl]
      · simp [Document.members?, value, values]
      · rw [blurMembers, blurMembers, same, same']

/-- An object that is laid out in lines is read back member by member. -/
theorem read_renderLines {depth : Nat} {members : List (String × Json)} (filled : members ≠ [])
    (readable : ∀ m ∈ members, Readable depth m.2) :
    ∃ documents, Document.read (renderLines members) = some (.object documents) ∧
      ∃ members', Document.members? depth documents = some members' ∧
        blurMembers members' = blurMembers members := by
  obtain ⟨m, ms, rfl⟩ := List.exists_cons_of_ne_nil filled
  obtain ⟨cs, first⟩ := exists_linesChars m ms
  have enough : (linesChars (m :: ms)).length ≤
      2 * ('{' :: '\n' :: linesChars (m :: ms)).length + 1 := by
    simp only [List.length_cons]
    omega
  obtain ⟨documents, read, members', values, same⟩ :=
    readMembers_linesChars (fun n member => (readable n member).readsBack) enough
  refine ⟨documents, ?_, members', values, same⟩
  have whole : Document.readValue (2 * ('{' :: '\n' :: linesChars (m :: ms)).length + 2)
      ('{' :: '\n' :: linesChars (m :: ms)) = some (.object documents, []) := by
    rw [← Document.readMembers_space (c := '\n') rfl] at read
    rw [first] at read ⊢
    rw [Document.readValue_lines, read]
    rfl
  rw [Document.read, toList_renderLines]
  dsimp only
  rw [whole]
  rfl

end PvrBackend.Json
