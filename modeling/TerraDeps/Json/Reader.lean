import TerraDeps.Json.Number
import TerraDeps.Result
import TerraDeps.Text.Hex

/-!
# Reading JSON

A strict reader for JSON texts. It goes through the text once, with a stack of the arrays and
objects that are open; at most `maxDepth` may be open at a time. A fault is reported by its line:
one more than the number of line ends up to and including the character at which reading stops.
-/

set_option autoImplicit false

namespace TerraDeps.Json

open Text

/-- How many arrays and objects may be open at a time. -/
def maxDepth : Nat := 127

/-- The line after a character. -/
def lineAfter (line : Nat) (c : Char) : Nat :=
  if c = '\n' then line + 1 else line

/-- Whether the character may stand between the parts of a JSON text. -/
def isSpace (c : Char) : Bool :=
  c = ' ' || c = '\n' || c = '\t' || c = '\r'

/-- The line ends within the next `bytes` bytes. -/
def lineEnds (bytes : Nat) : List Char → Nat
  | [] => 0
  | c :: rest =>
    if bytes = 0 then 0 else (if c = '\n' then 1 else 0) + lineEnds (bytes - c.utf8Size) rest

/-- Reads the four digits of a unicode escape. -/
def hex4 (line : Nat) (s : List Char) : Except Nat (Nat × List Char) :=
  match (s.take 4).mapM hexValue? with
  | some [a, b, c, d] => .ok (4096 * a + 256 * b + 16 * c + d, s.drop 4)
  | _ => .error (line + lineEnds 4 s)

/-- Reads the escape of a low surrogate and joins it to the high surrogate `high`. -/
def lowSurrogate (line high : Nat) : List Char → Except Nat (Char × List Char)
  | [] => .error line
  | c :: s =>
    if c = '\\' then
      match s with
      | [] => .error line
      | d :: rest =>
        if d = 'u' then
          match hex4 line rest with
          | .error e => .error e
          | .ok (low, after) =>
            if 0xDC00 ≤ low ∧ low ≤ 0xDFFF then
              .ok (Char.ofNat ((high - 0xD800) * 0x400 + (low - 0xDC00) + 0x10000), after)
            else .error line
        else .error (lineAfter line d)
    else .error (lineAfter line c)

/-- Reads a unicode escape after `\u`: one of a character, or two of a pair of surrogates. -/
def unicodeEscape (line : Nat) (s : List Char) : Except Nat (Char × List Char) :=
  match hex4 line s with
  | .error e => .error e
  | .ok (n, after) =>
    if 0xDC00 ≤ n ∧ n ≤ 0xDFFF then .error line
    else if 0xD800 ≤ n ∧ n ≤ 0xDBFF then lowSurrogate line n after
    else .ok (Char.ofNat n, after)

/-- Reads an escape after its backslash. -/
def escapeSequence (line : Nat) : List Char → Except Nat (Char × List Char)
  | [] => .error line
  | c :: rest =>
    if c = '"' ∨ c = '\\' ∨ c = '/' then .ok (c, rest)
    else if c = 'b' then .ok ('\x08', rest)
    else if c = 'f' then .ok ('\x0c', rest)
    else if c = 'n' then .ok ('\n', rest)
    else if c = 'r' then .ok ('\r', rest)
    else if c = 't' then .ok ('\t', rest)
    else if c = 'u' then unicodeEscape line rest
    else .error (lineAfter line c)

/-- Four hexadecimal digits leave no more than the text they are read from. -/
theorem length_hex4 {line n : Nat} {s after : List Char} (h : hex4 line s = .ok (n, after)) :
    after.length ≤ s.length := by
  unfold hex4 at h
  split at h
  · rw [← (Prod.mk.inj (Except.ok.inj h)).2]
    simp
  · contradiction

/-- The second half of a surrogate pair leaves no more than the text it is read from. -/
theorem length_lowSurrogate {line high : Nat} {s after : List Char} {c : Char}
    (h : lowSurrogate line high s = .ok (c, after)) : after.length ≤ s.length := by
  unfold lowSurrogate at h
  split at h
  · contradiction
  split at h
  · split at h
    · contradiction
    split at h
    · split at h
      · contradiction
      rename_i low left read
      split at h
      · obtain ⟨-, rfl⟩ := Prod.mk.inj (Except.ok.inj h)
        exact Nat.le_succ_of_le (Nat.le_succ_of_le (length_hex4 read))
      · contradiction
    · contradiction
  · contradiction

/-- An escape by a number leaves no more than the text it is read from. -/
theorem length_unicodeEscape {line : Nat} {s after : List Char} {c : Char}
    (h : unicodeEscape line s = .ok (c, after)) : after.length ≤ s.length := by
  unfold unicodeEscape at h
  split at h
  · contradiction
  · rename_i n rest hr
    have shorter := length_hex4 hr
    split at h
    · contradiction
    split at h
    · exact Nat.le_trans (length_lowSurrogate h) shorter
    · exact (Prod.mk.inj (Except.ok.inj h)).2 ▸ shorter

/-- An escape sequence leaves less than the text it is read from. -/
theorem length_escapeSequence {line : Nat} {s after : List Char} {c : Char}
    (h : escapeSequence line s = .ok (c, after)) : after.length < s.length := by
  cases s with
  | nil => contradiction
  | cons d rest =>
    have ofShort {e : Char} (read : Except.ok (ε := Nat) (e, rest) = .ok (c, after)) :
        after.length < (d :: rest).length := by
      obtain ⟨-, rfl⟩ := Prod.mk.inj (Except.ok.inj read)
      exact Nat.lt_succ_self _
    rw [escapeSequence] at h
    split at h
    · exact ofShort h
    split at h
    · exact ofShort h
    split at h
    · exact ofShort h
    split at h
    · exact ofShort h
    split at h
    · exact ofShort h
    split at h
    · exact ofShort h
    split at h
    · exact Nat.lt_succ_of_le (length_unicodeEscape h)
    · contradiction

/-- Reads a string after its opening quote. -/
def stringRest (line : Nat) (s : List Char) : Except Nat (List Char × List Char) :=
  match s with
  | [] => .error line
  | c :: rest =>
    if c = '"' then .ok ([], rest)
    else if c = '\\' then
      match _h : escapeSequence line rest with
      | .error e => .error e
      | .ok (d, after) => (stringRest line after).map fun (text, left) => (d :: text, left)
    else if c.toNat < 0x20 then .error (lineAfter line c)
    else (stringRest line rest).map fun (text, left) => (c :: text, left)
termination_by s.length
decreasing_by
  · have := length_escapeSequence (by assumption)
    simp only [List.length_cons]
    omega
  · simp

/-- The rest of a string, its closing quote included, leaves less than the text it is read from. -/
theorem length_stringRest {line : Nat} {s text after : List Char}
    (h : stringRest line s = .ok (text, after)) : after.length < s.length := by
  fun_induction stringRest line s generalizing text after with
  | case1 => contradiction
  | case2 => rw [← (Prod.mk.inj (Except.ok.inj h)).2]; simp
  | case3 => contradiction
  | case4 rest d left hd _ ih =>
    cases hr : stringRest line left with
    | error e => rw [hr] at h; contradiction
    | ok r =>
      rw [hr] at h
      have := @ih r.1 r.2 hr
      have := length_escapeSequence hd
      rw [← (Prod.mk.inj (Except.ok.inj h)).2]
      simp only [List.length_cons]
      omega
  | case5 => contradiction
  | case6 d rest _ _ _ ih =>
    cases hr : stringRest line rest with
    | error e => rw [hr] at h; contradiction
    | ok r =>
      rw [hr] at h
      have := @ih r.1 r.2 hr
      rw [← (Prod.mk.inj (Except.ok.inj h)).2]
      simp only [List.length_cons]
      omega

/-- The value of a decimal digit. -/
def digitValue (c : Char) : Nat :=
  c.toNat - '0'.toNat

/-- Reads digits as far as they go. -/
def digits (s : List Char) : List Nat × List Char :=
  ((s.takeWhile Char.isDigit).map digitValue, s.dropWhile Char.isDigit)

/-- The line of a fault at the next character, or at the end of the text. -/
def faultLine (line : Nat) (s : List Char) : Nat :=
  match s with
  | [] => line
  | c :: _ => lineAfter line c

/-- Reads the digits before the point: a single zero, or digits of which the first is not zero. -/
def wholePart (line : Nat) (s : List Char) : Except Nat (List Nat × List Char) :=
  match digits s with
  | ([], _) => .error (faultLine line s)
  | (0 :: _ :: _, _) => .error line
  | found => .ok found

/-- Reads a point and the digits after it, if there is a point. -/
def pointPart (line : Nat) (s : List Char) : Except Nat (Option (List Nat) × List Char) :=
  match s with
  | '.' :: rest =>
    match digits rest with
    | ([], after) => .error (faultLine line after)
    | (found, after) => .ok (some found, after)
  | _ => .ok (none, s)

/-- The number that decimal digits write. -/
def ofDigits (ds : List Nat) : Nat :=
  ds.foldl (fun n d => 10 * n + d) 0

/-- Reads an exponent, if there is one. -/
def exponentPart (line : Nat) (s : List Char) : Except Nat (Option Int × List Char) :=
  match s with
  | c :: rest =>
    if c = 'e' ∨ c = 'E' then
      let negative := rest.head? = some '-'
      let unsigned := if negative ∨ rest.head? = some '+' then rest.drop 1 else rest
      match digits unsigned with
      | ([], after) => .error (faultLine line after)
      | (found, after) =>
        .ok (some (if negative then -(ofDigits found : Int) else ofDigits found), after)
    else .ok (none, s)
  | [] => .ok (none, s)

/-- Reads a number after its minus sign, if it has one. -/
def numberRest (line : Nat) (negative : Bool) (s : List Char) :
    Except Nat (JsonNumber × List Char) :=
  match wholePart line s with
  | .error e => .error e
  | .ok (whole, s) =>
    match pointPart line s with
    | .error e => .error e
    | .ok (part, s) =>
      match exponentPart line s with
      | .error e => .error e
      | .ok (exponent, s) =>
        match JsonNumber.ofParts negative whole part exponent with
        | some n => .ok (n, s)
        | none => .error line

/-- Reads the rest of a keyword. -/
def keyword (line : Nat) : List Char → List Char → Except Nat (List Char)
  | [], s => .ok s
  | _ :: _, [] => .error line
  | k :: ks, c :: s => if c = k then keyword line ks s else .error (lineAfter line c)

/-- The digits and what they leave are together as long as the text. -/
theorem length_digits {s after : List Char} {ds : List Nat} (h : digits s = (ds, after)) :
    after.length + ds.length = s.length := by
  obtain ⟨rfl, rfl⟩ := Prod.mk.inj h
  have both := congrArg List.length (List.takeWhile_append_dropWhile (p := Char.isDigit) (l := s))
  simp only [List.length_append] at both
  simp only [List.length_map]
  omega

/-- The whole part of a number leaves less than the text it is read from. -/
theorem length_wholePart {line : Nat} {s after : List Char} {ds : List Nat}
    (h : wholePart line s = .ok (ds, after)) : after.length < s.length := by
  unfold wholePart at h
  split at h
  · contradiction
  · contradiction
  · rename_i found notEmpty _
    have same := Except.ok.inj h
    have count := length_digits same
    cases ds with
    | nil => exact absurd same (notEmpty _)
    | cons d ds => simp only [List.length_cons] at count; omega

/-- A fraction, if any, leaves no more than the text it is read from. -/
theorem length_pointPart {line : Nat} {s after : List Char} {part : Option (List Nat)}
    (h : pointPart line s = .ok (part, after)) : after.length ≤ s.length := by
  unfold pointPart at h
  split at h
  · split at h
    · contradiction
    · rename_i hd
      have count := length_digits hd
      rw [← (Prod.mk.inj (Except.ok.inj h)).2]
      simp only [List.length_cons]
      omega
  · exact Nat.le_of_eq (congrArg List.length (Prod.mk.inj (Except.ok.inj h)).2.symm)

/-- An exponent, if any, leaves no more than the text it is read from. -/
theorem length_exponentPart {line : Nat} {s after : List Char} {exponent : Option Int}
    (h : exponentPart line s = .ok (exponent, after)) : after.length ≤ s.length := by
  unfold exponentPart at h
  split at h
  · rename_i c rest
    split at h
    · dsimp only at h
      split at h
      · contradiction
      · rename_i hd
        have count := length_digits hd
        have cut : (if rest.head? = some '-' ∨ rest.head? = some '+' then rest.drop 1
            else rest).length ≤ rest.length := by
          split <;> simp
        rw [← (Prod.mk.inj (Except.ok.inj h)).2]
        simp only [List.length_cons]
        omega
    · exact Nat.le_of_eq (congrArg List.length (Prod.mk.inj (Except.ok.inj h)).2.symm)
  · exact Nat.le_of_eq (congrArg List.length (Prod.mk.inj (Except.ok.inj h)).2.symm)

/-- The rest of a number leaves less than the text it is read from. -/
theorem length_numberRest {line : Nat} {negative : Bool} {s after : List Char} {n : JsonNumber}
    (h : numberRest line negative s = .ok (n, after)) : after.length < s.length := by
  unfold numberRest at h
  split at h
  · contradiction
  rename_i hw
  split at h
  · contradiction
  rename_i hp
  split at h
  · contradiction
  rename_i he
  split at h
  · have first := length_wholePart hw
    have second := length_pointPart hp
    have third := length_exponentPart he
    rw [← (Prod.mk.inj (Except.ok.inj h)).2]
    omega
  · contradiction

/-- A keyword leaves no more than the text it is read from. -/
theorem length_keyword {line : Nat} {expected s after : List Char}
    (h : keyword line expected s = .ok after) : after.length ≤ s.length := by
  fun_induction keyword line expected s with
  | case1 => exact Nat.le_of_eq (congrArg List.length (Except.ok.inj h).symm)
  | case2 => contradiction
  | case3 =>
    rename_i ih
    have := ih h
    simp only [List.length_cons]
    omega
  | case4 => contradiction

/-- What a value starts with. -/
inductive Start where
  /-- A whole value without parts. -/
  | scalar (value : Json)
  | openArray
  | openObject

/-- Reads a scalar, or the bracket that opens an array or an object, from its first character on. -/
def start (line : Nat) (c : Char) (rest : List Char) : Except Nat (Start × List Char) :=
  if c = '[' then .ok (.openArray, rest)
  else if c = '{' then .ok (.openObject, rest)
  else if c = '"' then
    (stringRest line rest).map fun (text, after) => (.scalar (.string (String.ofList text)), after)
  else if c = 'n' then
    (keyword line "ull".toList rest).map fun after => (.scalar .null, after)
  else if c = 't' then
    (keyword line "rue".toList rest).map fun after => (.scalar (.bool true), after)
  else if c = 'f' then
    (keyword line "alse".toList rest).map fun after => (.scalar (.bool false), after)
  else if c = '-' then
    (numberRest line true rest).map fun (n, after) => (.scalar (.number n), after)
  else if c.isDigit then
    (numberRest line false (c :: rest)).map fun (n, after) => (.scalar (.number n), after)
  else .error line

/-- The start of a value leaves no more than what follows its first character. -/
theorem length_start {line : Nat} {c : Char} {rest after : List Char} {found : Start}
    (h : start line c rest = .ok (found, after)) : after.length ≤ rest.length := by
  unfold start at h
  split at h
  · exact Nat.le_of_eq (congrArg List.length (Prod.mk.inj (Except.ok.inj h)).2.symm)
  split at h
  · exact Nat.le_of_eq (congrArg List.length (Prod.mk.inj (Except.ok.inj h)).2.symm)
  split at h
  · obtain ⟨⟨text, after⟩, read, ⟨⟩⟩ := map_eq_ok_iff.mp h
    exact Nat.le_of_lt (length_stringRest read)
  split at h
  · obtain ⟨after, read, ⟨⟩⟩ := map_eq_ok_iff.mp h
    exact length_keyword read
  split at h
  · obtain ⟨after, read, ⟨⟩⟩ := map_eq_ok_iff.mp h
    exact length_keyword read
  split at h
  · obtain ⟨after, read, ⟨⟩⟩ := map_eq_ok_iff.mp h
    exact length_keyword read
  split at h
  · obtain ⟨⟨n, after⟩, read, ⟨⟩⟩ := map_eq_ok_iff.mp h
    exact Nat.le_of_lt (length_numberRest read)
  split at h
  · obtain ⟨⟨n, after⟩, read, ⟨⟩⟩ := map_eq_ok_iff.mp h
    exact Nat.le_of_lt_succ (length_numberRest read)
  · contradiction

/-- An array or an object that is open, with what it holds so far. -/
inductive Frame where
  /-- The elements, last first. -/
  | array (done : List Json)
  /-- The members, and the key of the value that is being read. -/
  | member (done : List (String × Json)) (key : String)

/-- What may come next. -/
inductive Expect where
  /-- A value, or the end of the innermost array if no element has come yet. -/
  | value (first : Bool)
  /-- A key, or the end of the object if no member has come yet. -/
  | key (first : Bool) (done : List (String × Json))
  /-- The colon after a key. -/
  | colon (done : List (String × Json)) (key : String)
  /-- What follows a value. -/
  | after (value : Json)

/-- Reads the rest of a document. -/
def read (expect : Expect) (opened : List Frame) (line : Nat) (s : List Char) : Except Nat Json :=
  match s with
  | [] =>
    match expect, opened with
    | .after v, [] => .ok v
    | _, _ => .error line
  | c :: rest =>
    if isSpace c then read expect opened (lineAfter line c) rest
    else match expect with
      | .value first =>
        match first, c, opened with
        | true, ']', .array _ :: outer => read (.after (.array [])) outer line rest
        | _, _, _ =>
          match _h : start line c rest with
          | .error e => .error e
          | .ok (.scalar v, left) => read (.after v) opened line left
          | .ok (.openArray, left) =>
            if maxDepth ≤ opened.length then .error line
            else read (.value true) (.array [] :: opened) line left
          | .ok (.openObject, left) =>
            if maxDepth ≤ opened.length then .error line
            else read (.key true []) opened line left
      | .key first done =>
        if c = '"' then
          match _h : stringRest line rest with
          | .error e => .error e
          | .ok (key, left) => read (.colon done (String.ofList key)) opened line left
        else if first ∧ c = '}' then read (.after (.object done)) opened line rest
        else .error line
      | .colon done key =>
        if c = ':' then read (.value false) (.member done key :: opened) line rest
        else .error line
      | .after v =>
        match opened with
        | [] => .error line
        | .array done :: outer =>
          if c = ',' then read (.value false) (.array (v :: done) :: outer) line rest
          else if c = ']' then read (.after (.array (v :: done).reverse)) outer line rest
          else .error line
        | .member done key :: outer =>
          if c = ',' then read (.key false (putMember key v done)) outer line rest
          else if c = '}' then read (.after (.object (putMember key v done))) outer line rest
          else .error line
termination_by s.length
decreasing_by all_goals first
  | (simp only [List.length_cons]; omega)
  | (have shorter := length_start (by assumption)
     simp only [List.length_cons]
     omega)
  | (have shorter := length_stringRest (by assumption)
     simp only [List.length_cons]
     omega)

section Steps

variable {expect : Expect} {opened : List Frame} {line : Nat} {c : Char} {rest : List Char}

/-- A blank is passed over. -/
theorem read_blank (h : isSpace c = true) :
    read expect opened line (c :: rest) = read expect opened (lineAfter line c) rest := by
  rw [read.eq_def]
  simp only [h, if_true]

/-- A start that is no blank and does not close an array is taken as the start of a value. -/
theorem read_value_of_start {first : Bool} {found : Start × List Char}
    (notBlank : isSpace c = false) (noClose : c ≠ ']') (h : start line c rest = .ok found) :
    read (.value first) opened line (c :: rest) = match found with
      | (.scalar v, left) => read (.after v) opened line left
      | (.openArray, left) =>
        if maxDepth ≤ opened.length then .error line
        else read (.value true) (.array [] :: opened) line left
      | (.openObject, left) =>
        if maxDepth ≤ opened.length then .error line else read (.key true []) opened line left := by
  rw [read.eq_4 _ _ _ _ _ fun _ _ _ close _ => noClose close, notBlank, if_neg (by decide)]
  split <;> rename_i started <;> rw [h] at started
  · contradiction
  all_goals
    obtain rfl := Except.ok.inj started
    rfl

end Steps

/-- The value that a text writes, or the line of the first fault. -/
def parse (text : String) : Except Nat Json :=
  read (.value false) [] 1 text.toList

end TerraDeps.Json
