import UfsrvRx.Text.Json

namespace UfsrvRx
namespace Text
namespace Json

/-!
# Writing JSON

What the decoder makes of a text that is put together from parts.  A part is read to a value,
or makes the decoder refuse whatever contains it.
-/

/-- What follows a value does not belong to it. -/
def Delimited : List Byte -> Prop
  | [] => True
  | byte :: _ => isDigit byte = false ∧ byte ≠ 46 ∧ byte ≠ 101 ∧ byte ≠ 69

/-- The decoder reads the whole text as this value, or refuses it. -/
def Reads (text : List Byte) (outcome : Option Json) : Prop :=
  forall fuel rest, text.length < fuel -> Delimited rest ->
    value fuel (text ++ rest) = outcome.map fun json => (json, rest)

/-! ## Spaces -/

theorem skipSpace_append {spaces : List Byte} (blank : spaces.all isSpace = true)
    (text : List Byte) : skipSpace (spaces ++ text) = skipSpace text := by
  induction spaces with
  | nil => rfl
  | cons byte spaces inductionHypothesis =>
      rw [List.all_cons, Bool.and_eq_true] at blank
      rw [List.cons_append, skipSpace, List.dropWhile_cons, if_pos blank.1]
      exact inductionHypothesis blank.2

theorem skipSpace_cons (byte : Byte) (solid : isSpace byte = false) (text : List Byte) :
    skipSpace (byte :: text) = byte :: text := by
  rw [skipSpace, List.dropWhile_cons, if_neg (by simp [solid])]

theorem value_skipSpace (fuel : Nat) {left right : List Byte}
    (same : skipSpace left = skipSpace right) : value fuel left = value fuel right := by
  cases fuel with
  | zero => rfl
  | succ fuel => simp only [value, same]

theorem Reads.spaced {text spaces : List Byte} {outcome : Option Json} (reads : Reads text outcome)
    (blank : spaces.all isSpace = true) : Reads (spaces ++ text) outcome := by
  intro fuel rest enough delimited
  rw [List.length_append] at enough
  rw [List.append_assoc, value_skipSpace fuel (skipSpace_append blank (text ++ rest))]
  exact reads fuel rest (by omega) delimited

/-- A text that is read on its own is decoded, also with spaces after it. -/
theorem Reads.decode {text spaces : List Byte} {outcome : Option Json} (reads : Reads text outcome)
    (blank : spaces.all isSpace = true) : Json.decode (text ++ spaces) = outcome := by
  have delimited : Delimited spaces := by
    cases spaces with
    | nil => trivial
    | cons byte spaces =>
        rw [List.all_cons, Bool.and_eq_true] at blank
        have space := blank.1
        simp only [isSpace, Bool.or_eq_true, beq_iff_eq] at space
        rcases space with ((rfl | rfl) | rfl) | rfl <;>
          exact ⟨rfl, by decide, by decide, by decide⟩
  have skipped : skipSpace spaces = [] := by
    have same := skipSpace_append blank []
    rw [List.append_nil] at same
    rw [same]
    rfl
  unfold Json.decode
  rw [reads _ spaces (by simp only [List.length_append]; omega) delimited]
  cases outcome with
  | none => rfl
  | some json => simp [skipped]

/-! ## Words -/

theorem expect_append (word rest : List Byte) : expect word (word ++ rest) = some rest := by
  induction word with
  | nil => rfl
  | cons byte word inductionHypothesis => simpa [expect] using inductionHypothesis

theorem reads_null : Reads (ascii "null") (some .null) := by
  intro fuel rest enough _
  cases fuel with
  | zero => exact absurd enough (Nat.not_lt_zero _)
  | succ fuel =>
      have word := expect_append (ascii "ull") rest
      have start : skipSpace (ascii "null" ++ rest) = 110 :: (ascii "ull" ++ rest) := rfl
      simp [value, start, word]

/-- `"true"` or `"false"`. -/
def booleanText (flag : Bool) : List Byte :=
  if flag then ascii "true" else ascii "false"

theorem reads_boolean (flag : Bool) : Reads (booleanText flag) (some (.boolean flag)) := by
  intro fuel rest enough _
  cases fuel with
  | zero => exact absurd enough (Nat.not_lt_zero _)
  | succ fuel =>
      cases flag with
      | true =>
          have word := expect_append (ascii "rue") rest
          have start : skipSpace (booleanText true ++ rest) = 116 :: (ascii "rue" ++ rest) := rfl
          simp [value, start, word]
      | false =>
          have word := expect_append (ascii "alse") rest
          have start : skipSpace (booleanText false ++ rest) = 102 :: (ascii "alse" ++ rest) := rfl
          simp [value, start, word]

/-! ## Numbers -/

theorem span_digits {digits rest : List Byte} (all : forall byte, byte ∈ digits -> isDigit byte = true)
    (delimited : Delimited rest) : (digits ++ rest).span isDigit = (digits, rest) := by
  rw [List.span_eq_takeWhile_dropWhile, List.takeWhile_append_of_pos all,
    List.dropWhile_append_of_pos all]
  cases rest with
  | nil => simp
  | cons byte rest =>
      have stop := delimited.1
      simp [stop]

theorem wholePart_decimal (number : Nat) {rest : List Byte} (delimited : Delimited rest) :
    wholePart (decimal number ++ rest) = some (decimal number, rest) := by
  unfold wholePart
  rw [span_digits (fun byte mem => isDigit_of_mem mem) delimited]
  by_cases zero : number = 0
  · rw [zero]
    rfl
  · rcases head_decimal zero with ⟨first, others, digits, leading⟩
    rw [digits]
    simp [leading]

theorem fractionPart_delimited {rest : List Byte} (delimited : Delimited rest) :
    fractionPart rest = some ([], rest) := by
  cases rest with
  | nil => rfl
  | cons byte rest => simp [fractionPart, delimited.2.1]

theorem exponentPart_delimited {rest : List Byte} (delimited : Delimited rest) :
    exponentPart rest = some (0, rest) := by
  cases rest with
  | nil => rfl
  | cons byte rest => simp [exponentPart, delimited.2.2.1, delimited.2.2.2]

theorem magnitude_decimal (isNegative : Bool) (number : Nat) {rest : List Byte}
    (delimited : Delimited rest) : magnitude isNegative (decimal number ++ rest) =
      some (.number (if isNegative then -(number : Int) else number) 0, rest) := by
  unfold magnitude
  rw [wholePart_decimal number delimited]
  simp only [Option.bind_some]
  rw [fractionPart_delimited delimited]
  simp only [Option.bind_some]
  rw [exponentPart_delimited delimited]
  simp [valueOf_decimal]

theorem reads_decimal (number : Nat) : Reads (decimal number) (some (.number number 0)) := by
  intro fuel rest enough delimited
  have read := magnitude_decimal false number delimited
  cases fuel with
  | zero => exact absurd enough (Nat.not_lt_zero _)
  | succ fuel =>
      cases digits : decimal number with
      | nil =>
          have positive := length_decimal_pos number
          rw [digits] at positive
          exact absurd positive (Nat.lt_irrefl 0)
      | cons first others =>
          have digit : isDigit first = true :=
            isDigit_of_mem (show first ∈ decimal number by rw [digits]; exact List.mem_cons_self)
          have solid : isSpace first = false := by
            simp only [isSpace, Bool.or_eq_false_iff, beq_eq_false_iff_ne]
            refine ⟨⟨⟨?_, ?_⟩, ?_⟩, ?_⟩ <;> rintro rfl <;> exact absurd digit (by decide)
          have start := skipSpace_cons _ solid (others ++ rest)
          have plain : first ≠ 34 ∧ first ≠ 91 ∧ first ≠ 123 ∧ first ≠ 116 ∧ first ≠ 102 ∧
              first ≠ 110 ∧ first ≠ 45 := by
            refine ⟨?_, ?_, ?_, ?_, ?_, ?_, ?_⟩ <;> rintro rfl <;> exact absurd digit (by decide)
          rw [digits] at read
          simpa [value, start, plain] using read

theorem reads_integer (number : Int) : Reads (integer number) (some (.number number 0)) := by
  unfold integer
  split
  · rename_i negative
    intro fuel rest enough delimited
    have read := magnitude_decimal true number.natAbs delimited
    cases fuel with
    | zero => exact absurd enough (Nat.not_lt_zero _)
    | succ fuel =>
        have start := skipSpace_cons 45 (by decide) (decimal number.natAbs ++ rest)
        have same : -(number.natAbs : Int) = number := by omega
        rw [if_pos rfl, same] at read
        simpa [value, start] using read
  · rename_i positive
    have same : (number.natAbs : Int) = number := by omega
    have read := reads_decimal number.natAbs
    rw [same] at read
    exact read

/-! ## Strings -/

/-- A byte that stands for itself in a string. -/
def isPlain (byte : Byte) : Bool :=
  byte != 34 && byte != 92 && !(byte < 32)

theorem stringBody_plain {bytes : List Byte} (plain : bytes.all isPlain = true)
    (rest : List Byte) : stringBody .between (bytes ++ 34 :: rest) = some (bytes, rest) := by
  induction bytes with
  | nil => simp [stringBody]
  | cons byte bytes inductionHypothesis =>
      rw [List.all_cons, Bool.and_eq_true] at plain
      have read := inductionHypothesis plain.2
      have here := plain.1
      simp only [isPlain, Bool.and_eq_true, bne_iff_ne, Bool.not_eq_true', decide_eq_false_iff_not]
        at here
      simp [stringBody, here, read]

/-- What is between the quotes is read to these bytes, or refused. -/
def StringReads (body : List Byte) (outcome : Option (List Byte)) : Prop :=
  forall rest, stringBody .between (body ++ 34 :: rest) = outcome.map fun bytes => (bytes, rest)

/-- A string with its quotes. -/
def quoted (body : List Byte) : List Byte :=
  34 :: (body ++ [34])

theorem reads_quoted {body : List Byte} {outcome : Option (List Byte)}
    (reads : StringReads body outcome) : Reads (quoted body) (outcome.map .string) := by
  intro fuel rest enough _
  cases fuel with
  | zero => exact absurd enough (Nat.not_lt_zero _)
  | succ fuel =>
      have read := reads rest
      have start := skipSpace_cons 34 (by decide) (body ++ 34 :: rest)
      have text : quoted body ++ rest = 34 :: (body ++ 34 :: rest) := by simp [quoted]
      rw [text]
      simp only [value, start, if_true, read]
      cases outcome <;> rfl

/-! ## Arrays -/

/-- The elements with commas between them, and what closes the array. -/
def elementsText (closing : List Byte) : List (List Byte) -> List Byte
  | [] => closing
  | [text] => text ++ closing
  | text :: next :: texts => text ++ 44 :: elementsText closing (next :: texts)

/-- Something other than the end of the array begins there. -/
def Begins (text : List Byte) : Prop :=
  Exists fun first => Exists fun others => text = first :: others ∧ first ≠ 93

theorem closing_skipped {spaces : List Byte} (blank : spaces.all isSpace = true)
    (byte : Byte) (solid : isSpace byte = false) (rest : List Byte) :
    skipSpace ((spaces ++ [byte]) ++ rest) = byte :: rest := by
  rw [List.append_assoc, skipSpace_append blank]
  exact skipSpace_cons _ solid rest

theorem delimited_closing {spaces : List Byte} (blank : spaces.all isSpace = true)
    (byte : Byte) (delimited : Delimited [byte]) (rest : List Byte) :
    Delimited ((spaces ++ [byte]) ++ rest) := by
  cases spaces with
  | nil => exact delimited
  | cons space spaces =>
      rw [List.all_cons, Bool.and_eq_true] at blank
      have here := blank.1
      simp only [isSpace, Bool.or_eq_true, beq_iff_eq] at here
      rcases here with ((rfl | rfl) | rfl) | rfl <;>
        exact ⟨rfl, by decide, by decide, by decide⟩

theorem skipSpace_of_begins {text others : List Byte} {first : Byte}
    (head : skipSpace text = first :: others) (rest : List Byte) :
    skipSpace (text ++ rest) = first :: (others ++ rest) := by
  induction text with
  | nil => cases head
  | cons byte text inductionHypothesis =>
      cases space : isSpace byte with
      | true =>
          rw [skipSpace, List.dropWhile_cons, if_pos space] at head
          rw [List.cons_append, skipSpace, List.dropWhile_cons, if_pos space]
          exact inductionHypothesis head
      | false =>
          rw [skipSpace_cons _ space] at head
          rw [List.cons_append, skipSpace_cons _ space]
          cases head
          rfl

section Array

variable {Part : Type} {textOf : Part -> List Byte} {outcome : Part -> Option Json}
  {spaces : List Byte}

theorem elements_read (blank : spaces.all isSpace = true) (parts : List Part)
    (some : parts ≠ []) (reads : forall part, part ∈ parts -> Reads (textOf part) (outcome part))
    (fuel : Nat) (rest : List Byte)
    (enough : (elementsText (spaces ++ [93]) (parts.map textOf)).length < fuel) :
    elements fuel (elementsText (spaces ++ [93]) (parts.map textOf) ++ rest) =
      (parts.mapM outcome).map fun jsons => (jsons, rest) := by
  induction parts generalizing fuel with
  | nil => exact absurd rfl some
  | cons part parts inductionHypothesis =>
      have first := reads part List.mem_cons_self
      cases fuel with
      | zero => exact absurd enough (Nat.not_lt_zero _)
      | succ fuel =>
          cases parts with
          | nil =>
              simp only [List.map_cons, List.map_nil, elementsText, List.length_append,
                List.length_singleton] at enough
              have closing := closing_skipped blank 93 (by decide) rest
              have read := first fuel ((spaces ++ [93]) ++ rest) (by omega)
                (delimited_closing blank 93 ⟨rfl, by decide, by decide, by decide⟩ rest)
              have text : elementsText (spaces ++ [93]) ([part].map textOf) ++ rest =
                  textOf part ++ ((spaces ++ [93]) ++ rest) := by
                simp [elementsText]
              rw [text]
              simp only [elements, read]
              rw [List.mapM_cons, List.mapM_nil]
              cases outcome part with
              | none => rfl
              | some json =>
                  simp only [Option.map_some, Option.bind_some, closing]
                  rfl
          | cons next parts =>
              simp only [List.map_cons, elementsText, List.length_append, List.length_cons]
                at enough
              have others := inductionHypothesis (List.cons_ne_nil _ _)
                (fun other mem => reads other (List.mem_cons_of_mem _ mem)) fuel (by
                  simp only [List.map_cons]
                  omega)
              have comma := skipSpace_cons 44 (by decide)
                (elementsText (spaces ++ [93]) ((next :: parts).map textOf) ++ rest)
              have read := first fuel
                (44 :: (elementsText (spaces ++ [93]) ((next :: parts).map textOf) ++ rest))
                (by omega) ⟨rfl, by decide, by decide, by decide⟩
              have text : elementsText (spaces ++ [93]) ((part :: next :: parts).map textOf) ++
                  rest = textOf part ++
                    44 :: (elementsText (spaces ++ [93]) ((next :: parts).map textOf) ++ rest) := by
                simp [elementsText]
              rw [text]
              simp only [elements, read]
              rw [List.mapM_cons]
              cases outcome part with
              | none => rfl
              | some json =>
                  simp only [Option.map_some, Option.bind_some, comma, others]
                  cases (next :: parts).mapM outcome <;> rfl

theorem value_bracket (fuel : Nat) (text : List Byte) : value (fuel + 1) (91 :: text) =
    match skipSpace text with
    | 93 :: text => some (.array [], text)
    | _ => (elements fuel text).map fun read => (.array read.1, read.2) :=
  rfl

theorem reads_array (blank : spaces.all isSpace = true) (parts : List Part)
    (reads : forall part, part ∈ parts -> Reads (textOf part) (outcome part))
    (begins : forall part, part ∈ parts -> Begins (skipSpace (textOf part))) :
    Reads (91 :: elementsText (spaces ++ [93]) (parts.map textOf))
      ((parts.mapM outcome).map .array) := by
  intro fuel rest enough _
  cases fuel with
  | zero => exact absurd enough (Nat.not_lt_zero _)
  | succ fuel =>
      rw [List.cons_append, value_bracket]
      cases parts with
      | nil =>
          have closing := closing_skipped blank 93 (by decide) rest
          have text : elementsText (spaces ++ [93]) (([] : List Part).map textOf) ++ rest =
              (spaces ++ [93]) ++ rest := rfl
          rw [text, closing]
          rfl
      | cons part parts =>
          have length := enough
          rw [List.length_cons] at length
          have read := elements_read blank (part :: parts) (List.cons_ne_nil _ _) reads fuel rest
            (by omega)
          rcases begins part List.mem_cons_self with ⟨first, others, head, apart⟩
          have skipped : Exists fun after => skipSpace
              (elementsText (spaces ++ [93]) ((part :: parts).map textOf) ++ rest) =
                first :: after := by
            cases parts with
            | nil =>
                refine ⟨others ++ ((spaces ++ [93]) ++ rest), ?_⟩
                simp [elementsText, skipSpace_of_begins head]
            | cons next parts =>
                refine ⟨others ++
                  44 :: (elementsText (spaces ++ [93]) ((next :: parts).map textOf) ++ rest), ?_⟩
                simp [elementsText, skipSpace_of_begins head]
          rcases skipped with ⟨after, skipped⟩
          rw [skipped]
          split
          · rename_i same
            exact absurd (List.cons.inj same).1 apart
          · rw [read]
            cases (part :: parts).mapM outcome <;> rfl

end Array

/-! ## Objects -/

/-- A member: its key, the text of its value, and what that is read to. -/
structure Member where
  key : List Byte
  text : List Byte
  outcome : Option Json
  plain : key.all isPlain = true
  reads : Reads text outcome

/-- The members with commas between them, and the end of the object. -/
def membersText : List Member -> List Byte
  | [] => [125]
  | [member] => quoted member.key ++ 58 :: (member.text ++ [125])
  | member :: next :: others =>
      quoted member.key ++ 58 :: (member.text ++ 44 :: membersText (next :: others))

def objectText (members : List Member) : List Byte :=
  123 :: membersText members

/-- The member as it is read. -/
def Member.read (member : Member) : Option (List Byte × Json) :=
  member.outcome.map fun json => (member.key, json)

theorem members_cons (fuel : Nat) {key : List Byte} (plain : key.all isPlain = true)
    (text : List Byte) : members (fuel + 1) (quoted key ++ 58 :: text) =
      (value fuel text).bind fun first =>
        match skipSpace first.2 with
        | 44 :: text => (members fuel text).map fun read => ((key, first.1) :: read.1, read.2)
        | 125 :: text => some ([(key, first.1)], text)
        | _ => none := by
  have read := stringBody_plain plain (58 :: text)
  have start := skipSpace_cons 34 (by decide) (key ++ 34 :: 58 :: text)
  have colon := skipSpace_cons 58 (by decide) text
  have whole : quoted key ++ 58 :: text = 34 :: (key ++ 34 :: 58 :: text) := by simp [quoted]
  have step := members.eq_def (fuel + 1) (34 :: (key ++ 34 :: 58 :: text))
  simp only [start, read, Option.bind_some, colon] at step
  rw [whole]
  exact step

theorem members_read (parts : List Member) (some : parts ≠ []) (fuel : Nat) (rest : List Byte)
    (enough : (membersText parts).length < fuel) :
    members fuel (membersText parts ++ rest) =
      (parts.mapM Member.read).map fun read => (read, rest) := by
  induction parts generalizing fuel with
  | nil => exact absurd rfl some
  | cons part parts inductionHypothesis =>
      cases fuel with
      | zero => exact absurd enough (Nat.not_lt_zero _)
      | succ fuel =>
          cases parts with
          | nil =>
              simp only [membersText, List.length_append, List.length_cons] at enough
              have brace := skipSpace_cons 125 (by decide) rest
              have read := part.reads fuel (125 :: rest) (by omega)
                ⟨rfl, by decide, by decide, by decide⟩
              have text : membersText [part] ++ rest =
                  quoted part.key ++ 58 :: (part.text ++ 125 :: rest) := by
                simp [membersText]
              rw [text, members_cons fuel part.plain, read, List.mapM_cons, List.mapM_nil, Member.read]
              cases part.outcome with
              | none => rfl
              | some json =>
                  simp only [Option.map_some, Option.bind_some, brace]
                  rfl
          | cons next parts =>
              simp only [membersText, List.length_append, List.length_cons] at enough
              have others := inductionHypothesis (List.cons_ne_nil _ _) fuel (by omega)
              have comma := skipSpace_cons 44 (by decide)
                (membersText (next :: parts) ++ rest)
              have read := part.reads fuel (44 :: (membersText (next :: parts) ++ rest)) (by omega)
                ⟨rfl, by decide, by decide, by decide⟩
              have text : membersText (part :: next :: parts) ++ rest =
                  quoted part.key ++
                    58 :: (part.text ++ 44 :: (membersText (next :: parts) ++ rest)) := by
                simp [membersText]
              rw [text, members_cons fuel part.plain, read, List.mapM_cons, Member.read]
              cases part.outcome with
              | none => rfl
              | some json =>
                  simp only [Option.map_some, Option.bind_some, comma, others]
                  cases (next :: parts).mapM Member.read <;> rfl

theorem value_brace (fuel : Nat) (text : List Byte) : value (fuel + 1) (123 :: text) =
    match skipSpace text with
    | 125 :: text => some (.object [], text)
    | _ => (members fuel text).map fun read => (.object read.1, read.2) :=
  rfl

theorem reads_object (parts : List Member) (some : parts ≠ []) :
    Reads (objectText parts) ((parts.mapM Member.read).map .object) := by
  intro fuel rest enough _
  cases fuel with
  | zero => exact absurd enough (Nat.not_lt_zero _)
  | succ fuel =>
      rw [objectText, List.length_cons] at enough
      have read := members_read parts some fuel rest (by omega)
      have skipped : Exists fun after => skipSpace (membersText parts ++ rest) = 34 :: after := by
        cases parts with
        | nil => exact absurd rfl some
        | cons part parts =>
            cases parts with
            | nil => exact ⟨_, skipSpace_cons 34 (by decide) _⟩
            | cons next parts => exact ⟨_, skipSpace_cons 34 (by decide) _⟩
      rcases skipped with ⟨after, skipped⟩
      rw [objectText, List.cons_append, value_brace, skipped]
      split
      · rename_i same
        exact absurd (List.cons.inj same).1 (by decide)
      · rw [read]
        cases parts.mapM Member.read <;> rfl

end Json
end Text
end UfsrvRx
